import NrScheduler.Engine.Asks
import NrScheduler.Engine.PolicyHistory
import NrScheduler.Engine.RoundRobinOrder

/-!
# Order under the maximum throughput policy

The policy keeps no history: a user's score is its channel quality times the data it has, up to
ten kilobytes.  A direction serves no user that as many others outrank as it may serve.
-/

namespace NrScheduler

open LockMonad

variable {D : Type} [Double D]

/-- The scores are ordered by the comparison, as values without NaN are. -/
structure ScoresOrdered (D : Type) [Double D] : Prop where
  asymm : ∀ (a b : UeContext) (isDl : Bool),
    Double.lt (maxThroughputPriority a isDl : D) (maxThroughputPriority b isDl) = true →
      Double.lt (maxThroughputPriority b isDl : D) (maxThroughputPriority a isDl) = false
  trans : ∀ (a b c : UeContext) (isDl : Bool),
    Double.lt (maxThroughputPriority a isDl : D) (maxThroughputPriority b isDl) = false →
      Double.lt (maxThroughputPriority b isDl : D) (maxThroughputPriority c isDl) = false →
        Double.lt (maxThroughputPriority a isDl : D) (maxThroughputPriority c isDl) = false

theorem scoresOrdered_rational : ScoresOrdered ℚ where
  asymm a b isDl hlt := by
    simp only [Double.lt, decide_eq_true_eq, decide_eq_false_iff_not, not_lt] at hlt ⊢
    exact hlt.le
  trans a b c isDl hab hbc := by
    simp only [Double.lt, decide_eq_false_iff_not, not_lt] at hab hbc ⊢
    exact hbc.trans hab

def SchedulerConfig.maximizes (config : SchedulerConfig) : Bool :=
  config.strategy == .maxThroughput && !config.enableQos && !config.enableSlicing

/-- The event leaves the decisions to this policy. -/
def Event.maximizes : Event (BuiltinPolicy D) → Bool
  | .setPolicyManager .maxThroughput => true
  | .setPolicyManager _ => false
  | .updateConfig config => config.maximizes
  | _ => true

namespace SchedulerEngine

variable {e e' : SchedulerEngine (BuiltinPolicy D) D} {P : Platform} {cell cell' : CellContext}
  {isDl : Bool} {r : Rnti}

/-- Only the maximum throughput policy decides. -/
structure MaximizesThroughput (e : SchedulerEngine (BuiltinPolicy D) D) : Prop where
  policyManager : e.policyManager = .maxThroughput
  enableQos : e.config.enableQos = false
  enableSlicing : e.config.enableSlicing = false

/-! ## Ranking -/

def rankByThroughput (cell : CellContext) (isDl : Bool) (d : SchedulingDecision D) :
    SchedulingDecision D :=
  match cell.ueRepo.ue? d.rnti with
  | none => { d with priorityMetric := Double.ofNat 0 }
  | some ue =>
      boostRetx { d with priorityMetric := maxThroughputPriority ue isDl, qosPriority := 5 }

@[simp] theorem rnti_rankByThroughput (cell : CellContext) (isDl : Bool)
    (d : SchedulingDecision D) : (rankByThroughput cell isDl d).rnti = d.rnti := by
  rw [rankByThroughput]
  split
  · rfl
  · rw [boostRetx]
    split <;> rfl

theorem calculatePriorities_maxThroughput (h : e.MaximizesThroughput) (P : Platform)
    (cell : CellContext) (isDl : Bool) (ds : List (SchedulingDecision D)) :
    (calculatePriorities P cell isDl ds e).run none =
      .ok (ds.map (rankByThroughput cell isDl), e) := by
  have hone : ∀ d, (e.calculatePriority P cell isDl d).run none =
      .ok (rankByThroughput cell isDl d, e) := by
    intro d
    rw [calculatePriority, run_bind_of_ok (cell.ueRepo.findByRnti_run d.rnti), rankByThroughput]
    cases cell.ueRepo.ue? d.rnti with
    | none => rfl
    | some ue =>
        have hrank : IPolicyManager.calculatePriority P e.policyManager ue cell isDl =
            ((maxThroughputPriority ue isDl : D), e.policyManager) := by
          rw [h.policyManager]
          rfl
        have hqos : ∀ base : D, (e.rankByQos P ue isDl base d).run none =
            .ok ({ d with priorityMetric := base, qosPriority := 5 }, e) := by
          intro base
          rw [rankByQos, h.enableQos]
          rfl
        have hslice : ∀ d : SchedulingDecision D, (e.boostSlice ue d).run none = .ok d := by
          intro d
          rw [boostSlice, h.enableSlicing]
          rfl
        simp only [hrank]
        exact (run_bind_of_ok (hqos _)).trans (run_bind_of_ok (hslice _))
  induction ds with
  | nil => rfl
  | cons d ds ih =>
      rw [calculatePriorities, run_bind_of_ok (hone d)]
      exact run_bind_of_ok ih

/-- Without retransmissions the metric of a candidate is the score of its user. -/
theorem score_of_candidate (hidle : HarqIdle cell) {d : SchedulingDecision D}
    (hd : d ∈ (e.candidates P cell isDl).map (rankByThroughput cell isDl)) :
    ∃ ue, cell.ueRepo.ue? d.rnti = some ue ∧
      d.priorityMetric = maxThroughputPriority ue isDl := by
  obtain ⟨d₀, hd₀, rfl⟩ := List.mem_map.mp hd
  obtain ⟨ue, hue, _, hcandidate⟩ := mem_candidates.mp hd₀
  have htype := (candidate_of_idle (hidle _ ue hue isDl) hcandidate).1
  rw [rankByThroughput, hue]
  dsimp only
  rw [boostRetx, if_neg (by rw [htype]; rintro ⟨⟩)]
  exact ⟨ue, hue, rfl⟩

theorem sorted_maxThroughput (hscores : ScoresOrdered D) (hidle : HarqIdle cell) :
    (sortByPriority P ((e.candidates P cell isDl).map (rankByThroughput cell isDl))).Pairwise
      fun a b ↦ Double.lt a.priorityMetric b.priorityMetric = false := by
  apply P.sort_sorted
  · intro a ha b hb
    obtain ⟨ue, _, ha⟩ := score_of_candidate hidle ha
    obtain ⟨ue', _, hb⟩ := score_of_candidate hidle hb
    rw [ha, hb]
    exact hscores.asymm ue' ue isDl
  · intro a ha b hb c hc
    obtain ⟨ue, _, ha⟩ := score_of_candidate hidle ha
    obtain ⟨ue', _, hb⟩ := score_of_candidate hidle hb
    obtain ⟨ue'', _, hc⟩ := score_of_candidate hidle hc
    rw [ha, hb, hc]
    exact fun hab hbc ↦ hscores.trans ue'' ue' ue isDl hbc hab

/-! ## One direction -/

/-- The user competes for the direction with a higher score. -/
def Beats (e : SchedulerEngine (BuiltinPolicy D) D) (cell : CellContext) (isDl : Bool)
    (r v : Rnti) : Prop :=
  ∃ ue ue', cell.ueRepo.ue? r = some ue ∧ cell.ueRepo.ue? v = some ue' ∧
    e.isEligible isDl ue' = true ∧ hasCandidate e.config isDl ue' = true ∧
    Double.lt (maxThroughputPriority ue isDl : D) (maxThroughputPriority ue' isDl) = true

theorem Beats.ne (h : e.Beats cell isDl r v) (hscores : ScoresOrdered D) : r ≠ v := by
  rintro rfl
  obtain ⟨ue, ue', hue, hue', _, _, hlt⟩ := h
  obtain rfl := Option.some.inj (hue.symm.trans hue')
  rw [hscores.asymm _ _ _ hlt] at hlt
  cases hlt

/-- A direction serves nobody who is beaten by as many as it may serve. -/
theorem serve_beaten {numSymbols : ℕ} {reqs : List TtiRequest} {better : Finset Rnti}
    (hmax : e.MaximizesThroughput) (hscores : ScoresOrdered D) (hidle : HarqIdle cell)
    (hgrid : cell.currentSlot.grid isDl = .create cell.config.numRbs numSymbols)
    (hcard : e.config.limit isDl ≤ better.card) (hbetter : ∀ v ∈ better, e.Beats cell isDl r v)
    (h : (e.serve P cell isDl).run none = .ok (cell', e')) (hsent : e'.sent = e.sent ++ reqs) :
    r ∉ (pdusIn reqs).map TtiPdu.rnti := by
  cases hopen : cell.currentSlot.canSchedule isDl with
  | false =>
      rw [serve, hopen] at h
      cases h
      rw [List.self_eq_append_right.mp hsent]
      exact List.not_mem_nil
  | true =>
      have hranked := calculatePriorities_maxThroughput hmax P cell isDl
        (e.candidates P cell isDl)
      have hknown := (isRanking_of_calculatePriorities hranked).known
      have hperm := P.sort_perm (fun a b : SchedulingDecision D ↦
        Double.lt b.priorityMetric a.priorityMetric)
        ((e.candidates P cell isDl).map (rankByThroughput cell isDl))
      rw [← sortByPriority] at hperm
      rw [serve_sorted hranked hgrid hopen h hsent]
      intro hr
      obtain ⟨pdu, hpdu, rfl⟩ := List.mem_map.mp hr
      obtain ⟨p, hp, hpiece⟩ := List.mem_filterMap.mp hpdu
      obtain ⟨ue, hue, rfl⟩ := Option.map_eq_some_iff.mp hpiece
      refine Carve.notMem_of_ahead SchedulingDecision.rnti ?_
        (sorted_maxThroughput hscores hidle) hcard ?_ ?_ (List.mem_map_of_mem hp)
      · intro d hd
        obtain ⟨ue, hue⟩ := hknown d hd
        exact demand_pos hue
      · exact fun hmem ↦ (hbetter _ hmem).ne hscores rfl
      · intro v hv
        obtain ⟨ue₁, ue', hue₁, hue', heligible, hcandidate, hlt⟩ := hbetter v hv
        obtain ⟨d, hd⟩ := Option.isSome_iff_exists.mp
          ((candidate_isSome (D := D) e.config P isDl ue').trans hcandidate)
        have hrnti : d.rnti = v := (candidate_eq_some hd).1.trans (UeRepository.ue?_rnti hue')
        have hmem : d ∈ e.candidates P cell isDl :=
          mem_candidates.mpr ⟨ue', hrnti ▸ hue', heligible, hd⟩
        have hmap := List.mem_map_of_mem (f := rankByThroughput cell isDl) hmem
        refine ⟨_, hperm.mem_iff.mpr hmap, (rnti_rankByThroughput cell isDl d).trans hrnti, ?_⟩
        obtain ⟨ue₂, hue₂, hmetric⟩ := score_of_candidate hidle hmap
        obtain ⟨ue₃, hue₃, hown⟩ := score_of_candidate hidle
          (hperm.mem_iff.mp (Carve.items_sublist.subset (List.mem_map_of_mem hp)))
        rw [rnti_rankByThroughput, hrnti] at hue₂
        obtain rfl := Option.some.inj (hue'.symm.trans hue₂)
        obtain rfl := Option.some.inj (hue₁.symm.trans hue₃)
        rw [hown, hmetric, hlt]
        exact Bool.noConfusion

/-! ## The whole slot -/

theorem foldl_reportGrant_maxThroughput (P : Platform) (cell : CellContext)
    (ds : List (SchedulingDecision D)) :
    ds.foldl (reportGrant P cell) (BuiltinPolicy.maxThroughput : BuiltinPolicy D) =
      .maxThroughput := by
  induction ds with
  | nil => rfl
  | cons d ds ih =>
      rw [List.foldl_cons, reportGrant]
      cases cell.ueRepo.ue? d.rnti with
      | none => exact ih
      | some ue => exact ih

theorem MaximizesThroughput.serve (hmax : e.MaximizesThroughput) {reqs : List TtiRequest}
    (h : (e.serve P cell isDl).run none = .ok (cell', e'))
    (houtcome : e.ServeOutcome P cell isDl reqs cell' e') : e'.MaximizesThroughput := by
  obtain ⟨ds, _, _, _, hpolicy⟩ := serve_policy h
  refine ⟨?_, houtcome.config ▸ hmax.enableQos, houtcome.config ▸ hmax.enableSlicing⟩
  rw [hpolicy, hmax.policyManager, foldl_reportGrant_maxThroughput]

theorem ServeOutcome.isDownlink {reqs : List TtiRequest}
    (h : e.ServeOutcome P cell isDl reqs cell' e') {q : TtiRequest} (hq : q ∈ reqs) :
    q.isDownlink = isDl := by
  obtain ⟨ranked, _, rfl⟩ := h.ranking
  rw [openRequests, requests] at hq
  split at hq
  · split at hq
    · cases hq
    · rw [List.mem_singleton.mp hq]
  · cases hq

/-- A state of the scheduler and of a cell when a direction is served in a slot. -/
structure ServesIn (e : SchedulerEngine (BuiltinPolicy D) D) (cell : CellContext)
    (t : FrameTiming) (isDl : Bool) (f : SchedulerEngine (BuiltinPolicy D) D)
    (cell₁ : CellContext) : Prop where
  maximizes : f.MaximizesThroughput
  config : f.config = e.config
  ueRepo : cell₁.ueRepo = cell.ueRepo
  cellConfig : cell₁.config = cell.config
  opens : cell₁.currentSlot.canSchedule isDl = (cell.load.begin t).canSchedule isDl
  timing : cell₁.currentSlot.timing = t
  grid : ∃ numSymbols, cell₁.currentSlot.grid isDl = .create cell₁.config.numRbs numSymbols

/-- What holds of the requests of each direction, wherever it is served, holds of the slot. -/
theorem slot_of_serve {c : CellId} {t : FrameTiming} (Q : Bool → List TtiRequest → Prop)
    (hmax : e.MaximizesThroughput) (hlookup : e.cells.lookup c = some cell)
    (h : (e.onSlotIndication P c t).run none = .ok e')
    (hserve : ∀ f cell₁ isDl reqs cell₂ f', e.ServesIn cell t isDl f cell₁ →
      (f.serve P cell₁ isDl).run none = .ok (cell₂, f') →
        f.ServeOutcome P cell₁ isDl reqs cell₂ f' → Q isDl reqs) :
    e'.MaximizesThroughput ∧
      ∃ dl ul, e'.sent = e.sent ++ (dl ++ ul) ∧ Q true dl ∧ Q false ul := by
  obtain ⟨slot, slices, qos, slices', cell₂, e₂, cell₃, e₃, hstart, _, hdl, hul, rfl⟩ :=
    onSlotIndication_served hlookup h
  obtain ⟨htiming, hgrid⟩ := SlotContext.initializeSlot_ok hstart
  have hopens : slot.canSchedule = (cell.load.begin t).canSchedule :=
    SlotContext.canSchedule_of_initializeSlot hstart
  have hdlServes : e.ServesIn cell t true (e.beginSlot t slices qos)
      { cell with currentSlot := slot } :=
    { maximizes := ⟨by rw [beginSlot, hmax.policyManager]; rfl, hmax.enableQos,
        hmax.enableSlicing⟩
      config := rfl
      ueRepo := rfl
      cellConfig := rfl
      opens := congrFun hopens true
      timing := htiming
      grid := ⟨_, hgrid true⟩ }
  change ((e.beginSlot t slices qos).serve P _ true).run none = _ at hdl
  obtain ⟨dl, hdlOutcome⟩ := serve_ok_of_create (hgrid true) hdl
  have hulServes : e.ServesIn cell t false e₂ cell₂ :=
    { maximizes := hdlServes.maximizes.serve hdl hdlOutcome
      config := hdlOutcome.config
      ueRepo := hdlOutcome.ueRepo
      cellConfig := hdlOutcome.cellConfig
      opens := (hdlOutcome.canSchedule false).trans (congrFun hopens false)
      timing := hdlOutcome.timing.trans htiming
      grid := ⟨_, hdlOutcome.grid_create (hgrid false)⟩ }
  obtain ⟨ul, hulOutcome⟩ := serve_ok_of_create hulServes.grid.choose_spec hul
  have hend := hulServes.maximizes.serve hul hulOutcome
  refine ⟨⟨hend.policyManager, hend.enableQos, hend.enableSlicing⟩, dl, ul, ?_,
    hserve _ _ _ _ _ _ hdlServes hdl hdlOutcome, hserve _ _ _ _ _ _ hulServes hul hulOutcome⟩
  change e₃.sent = _
  rw [hulOutcome.sent, hdlOutcome.sent, List.append_assoc]
  rfl

/-- The users that compete for the direction with a higher score. -/
def rivals (e : SchedulerEngine (BuiltinPolicy D) D) (c : CellId) (t : FrameTiming) (isDl : Bool)
    (r : Rnti) : List Rnti :=
  match e.cells.lookup c with
  | none => []
  | some cell => cell.ueRepo.ueByRnti.keys.filter fun v ↦ e.contends c t isDl v &&
      (cell.ueRepo.ue? r).any fun ue ↦ (cell.ueRepo.ue? v).any fun ue' ↦
        Double.lt (maxThroughputPriority ue isDl : D) (maxThroughputPriority ue' isDl)

/-- There are as many of them as the direction may serve. -/
def isOutranked (e : SchedulerEngine (BuiltinPolicy D) D) (c : CellId) (t : FrameTiming)
    (isDl : Bool) (r : Rnti) : Bool :=
  decide (e.config.limit isDl ≤ (e.rivals c t isDl r).length)

theorem beats_of_isOutranked {c : CellId} {t : FrameTiming}
    (h : e.isOutranked c t isDl r = true) (hlookup : e.cells.lookup c = some cell)
    (hmax : e.MaximizesThroughput) {f : SchedulerEngine (BuiltinPolicy D) D}
    (hf : f.config = e.config) (hrepo : cell'.ueRepo = cell.ueRepo) :
    ∃ better : Finset Rnti, f.config.limit isDl ≤ better.card ∧
      ∀ v ∈ better, f.Beats cell' isDl r v := by
  rw [isOutranked, decide_eq_true_eq, ← hf] at h
  have hnodup : (e.rivals c t isDl r).Nodup := by
    rw [rivals, hlookup]
    exact cell.ueRepo.ueByRnti.keys_nodup.filter _
  refine ⟨(e.rivals c t isDl r).toFinset, (List.toFinset_card_of_nodup hnodup).symm ▸ h, ?_⟩
  intro v hv
  rw [List.mem_toFinset, rivals, hlookup, List.mem_filter, Bool.and_eq_true,
    Option.any_eq_true] at hv
  obtain ⟨_, hcontends, ue, hue, hv⟩ := hv
  obtain ⟨ue', hue', hlt⟩ := (Option.any_eq_true _ _).mp hv
  obtain ⟨_, heligible, hcandidate⟩ := (contends_eq_true hlookup hue').mp hcontends
  refine ⟨ue, ue', hrepo ▸ hue, hrepo ▸ hue', ?_, hf ▸ hcandidate, hlt⟩
  have hsame : f.isEligible isDl ue' = e.isEligible isDl ue' := by
    rw [isEligible, isEligible, hf, hmax.enableSlicing]
    rfl
  exact hsame.trans heligible

/-- A slot serves nobody in a direction in which it is outranked. -/
theorem slot_outranked {c : CellId} {t : FrameTiming} (hmax : e.MaximizesThroughput)
    (hscores : ScoresOrdered D) (hinv : e.Consistent) (hlookup : e.cells.lookup c = some cell)
    (h : (e.onSlotIndication P c t).run none = .ok e') :
    e'.MaximizesThroughput ∧ ∃ reqs, e'.sent = e.sent ++ reqs ∧
      ∀ isDl r, e.isOutranked c t isDl r = true → ∀ q ∈ reqs, q.isDownlink = isDl →
        r ∉ q.pdus.map TtiPdu.rnti := by
  let spares (isDl : Bool) (reqs : List TtiRequest) : Prop :=
    ∀ q ∈ reqs, q.isDownlink = isDl ∧
      ∀ r, e.isOutranked c t isDl r = true → r ∉ q.pdus.map TtiPdu.rnti
  obtain ⟨hmax', dl, ul, hsent, hdl, hul⟩ :
      e'.MaximizesThroughput ∧
        ∃ dl ul, e'.sent = e.sent ++ (dl ++ ul) ∧ spares true dl ∧ spares false ul := by
    refine slot_of_serve spares hmax hlookup h ?_
    intro f cell₁ isDl reqs cell₂ f' hserves hrun houtcome q hq
    refine ⟨houtcome.isDownlink hq, fun r hout hr ↦ ?_⟩
    have hidle : HarqIdle cell₁ :=
      fun r ue hue ↦ hinv.harqIdle hlookup r ue (hserves.ueRepo ▸ hue)
    obtain ⟨numSymbols, hgrid⟩ := hserves.grid
    obtain ⟨pdu, hpdu, rfl⟩ := List.mem_map.mp hr
    obtain ⟨better, hcard, hbetter⟩ :=
      beats_of_isOutranked hout hlookup hmax hserves.config hserves.ueRepo
    exact serve_beaten hserves.maximizes hscores hidle hgrid hcard hbetter hrun houtcome.sent
      (List.mem_map_of_mem (List.mem_flatMap_of_mem hq hpdu))
  refine ⟨hmax', dl ++ ul, hsent, ?_⟩
  rintro isDl r hout q hq rfl
  rcases List.mem_append.mp hq with hq | hq
  · obtain ⟨hdirection, hspared⟩ := hdl q hq
    exact hspared r (hdirection ▸ hout)
  · obtain ⟨hdirection, hspared⟩ := hul q hq
    exact hspared r (hdirection ▸ hout)

/-! ## Runs -/

theorem config_maximizes {config : SchedulerConfig} (h : config.maximizes = true) :
    config.strategy = .maxThroughput ∧ config.enableQos = false ∧ config.enableSlicing = false := by
  simpa [SchedulerConfig.maximizes, and_assoc] using h

theorem maximizes_create {config : SchedulerConfig} (h : config.maximizes = true) :
    (create config : SchedulerEngine (BuiltinPolicy D) D).MaximizesThroughput := by
  obtain ⟨hstrategy, hqos, hslicing⟩ := config_maximizes h
  refine ⟨?_, hqos, hslicing⟩
  rw [create, hstrategy]
  rfl

theorem MaximizesThroughput.next_quiet (hmax : e.MaximizesThroughput) (hinv : e.Consistent)
    {i : Platform × Event (BuiltinPolicy D)} (hnext : e.next i = some e')
    (hi : i.2.maximizes = true) (hslot : i.2.slotNumber = none) :
    e'.MaximizesThroughput ∧ e'.sent = e.sent := by
  cases hkeeps : i.2.keepsPolicy with
  | true =>
      obtain ⟨hpolicy, hconfig, hsent⟩ := SchedulerEngine.next_quiet hinv hnext hkeeps hslot
      exact ⟨⟨hpolicy.trans hmax.policyManager, hconfig ▸ hmax.enableQos,
        hconfig ▸ hmax.enableSlicing⟩, hsent⟩
  | false =>
      obtain ⟨P, ev⟩ := i
      have hrun := next_eq_some.mp hnext
      cases ev with
      | setPolicyManager policy =>
          cases hrun
          cases policy with
          | maxThroughput => exact ⟨⟨rfl, hmax.enableQos, hmax.enableSlicing⟩, rfl⟩
          | _ => cases hi
      | updateConfig config =>
          cases hrun
          obtain ⟨hstrategy, hqos, hslicing⟩ := config_maximizes hi
          refine ⟨⟨?_, hqos, hslicing⟩, rfl⟩
          rw [hstrategy]
          rfl
      | _ => cases hkeeps

theorem MaximizesThroughput.next (hmax : e.MaximizesThroughput) (hinv : e.Consistent)
    {i : Platform × Event (BuiltinPolicy D)} (hnext : e.next i = some e')
    (hi : i.2.maximizes = true) : e'.MaximizesThroughput := by
  cases hslot : i.2.slotNumber with
  | none => exact (hmax.next_quiet hinv hnext hi hslot).1
  | some n =>
      obtain ⟨P, ev⟩ := i
      cases ev with
      | slotIndication c t =>
          have hrun := onSlotIndication_of_next hnext
          cases hlookup : e.cells.lookup c with
          | none =>
              obtain rfl := Except.ok.inj ((onSlotIndication_skipped hlookup P t).symm.trans hrun)
              exact ⟨hmax.policyManager, hmax.enableQos, hmax.enableSlicing⟩
          | some cell =>
              exact (slot_of_serve (fun _ _ ↦ True) hmax hlookup hrun
                fun _ _ _ _ _ _ _ _ _ ↦ trivial).1
      | _ => cases hslot

/-- The policy stays in charge of a run whose events leave it there. -/
theorem maximizes_of_run {config : SchedulerConfig}
    {is : List (Platform × Event (BuiltinPolicy D))} (hconfig : config.maximizes = true)
    (his : ∀ i ∈ is, i.2.maximizes = true)
    (h : is.foldlM SchedulerEngine.next (create config) = some e) : e.MaximizesThroughput := by
  refine (Runs.foldlM_of_ahead (fun e is ↦ e.Consistent ∧ e.MaximizesThroughput ∧
    ∀ i ∈ is, i.2.maximizes = true) ?_
      ⟨consistent_create config, maximizes_create hconfig, his⟩ h).2.1
  rintro e i is e' ⟨hinv, hmax, his⟩ hnext
  obtain ⟨hi, his⟩ := List.forall_mem_cons.mp his
  exact ⟨hinv.step hnext, hmax.next hinv hnext hi, his⟩

end SchedulerEngine

end NrScheduler
