import NrScheduler.Engine.RoundRobinSlot
import NrScheduler.Engine.ServingSpec
import NrScheduler.Engine.Transmissions

/-!
# The first user served under the round robin policy

While no process waits for a retransmission, a direction with room serves a candidate of
the highest rank first.  So a candidate that is passed over has seen another one served whose
rank was no lower.
-/

namespace NrScheduler

open LockMonad

namespace RoundRobinPolicy

/-- The rank of a user as a number: none without data, one thousand before the first
transmission, and the age of the last one afterwards. -/
def rank (p : RoundRobinPolicy) (ue : UeContext) (isDl : Bool) : ℕ :=
  if ue.buffer isDl = 0 then 0
  else
    match p.lastScheduled.lookup ue.rnti with
    | none => 1000
    | some last => (p.currentSlot + 2 ^ 32 - last) % 2 ^ 32

theorem rank_lt (p : RoundRobinPolicy) (ue : UeContext) (isDl : Bool) :
    p.rank ue isDl < 2 ^ 32 := by
  rw [rank]
  split
  · decide
  · split
    · decide
    · exact Nat.mod_lt _ (by decide)

theorem calculatePriority_eq_rank {D : Type} [Double D] (p : RoundRobinPolicy) (ue : UeContext)
    (isDl : Bool) : (p.calculatePriority ue isDl : D) = Double.ofNat (p.rank ue isDl) := by
  rw [calculatePriority, rank]
  split
  · rfl
  · cases p.lastScheduled.lookup ue.rnti with
    | none => rfl
    | some last => rfl

end RoundRobinPolicy

namespace SchedulerEngine

/-- No process of a user of the cell waits for a retransmission or for feedback. -/
def HarqIdle (cell : CellContext) : Prop :=
  ∀ r ue, cell.ueRepo.ue? r = some ue → ∀ isDl, ue.harq isDl = .create 16

theorem Consistent.harqIdle {π D : Type} {e : SchedulerEngine π D} (h : e.Consistent)
    {c : CellId} {cell : CellContext} (hlookup : e.cells.lookup c = some cell) :
    HarqIdle cell :=
  fun r ue hue ↦ h.harq c r ue (ueAt_eq_some.mpr ⟨cell, hlookup, hue⟩)

/-! ## One direction under any policy -/

section AnyPolicy

variable {π D : Type} [Double D] [IPolicyManager π D] {e e₁ e' : SchedulerEngine π D}
  {P : Platform} {cell cell' : CellContext} {isDl : Bool}
  {ds ranked : List (SchedulingDecision D)}

theorem schedule_sorted
    (hranked : (calculatePriorities P cell isDl (e.candidates P cell isDl) e).run none =
      .ok (ranked, e₁)) (hnum : (cell.currentSlot.grid isDl).numRbs = cell.config.numRbs)
    (hfree : DefaultResourceAllocator.FreeFrom (cell.currentSlot.grid isDl) 0)
    (h : (e.schedule P cell isDl).run none = .ok (ds, cell', e')) :
    ds = grants P cell (e.config.limit isDl) 0 (sortByPriority P ranked) ∧
      cell'.ueRepo = cell.ueRepo ∧ e'.sent = e.sent := by
  have hranking := isRanking_of_calculatePriorities hranked
  obtain ⟨ds', policy, qos, hrun, _⟩ :=
    calculatePriorities_run P cell isDl (e.candidates P cell isDl) e
  obtain ⟨_, rfl⟩ := Prod.mk.inj (Except.ok.inj (hranked.symm.trans hrun))
  rw [schedule_run, run_bind_of_ok hranked] at h
  by_cases hn : cell.config.numRbs ≤ 273
  · obtain ⟨g, failures, hloop⟩ := allocateLoop_run [] cell
      { e with policyManager := policy, qosEngine := qos } hranking.known hn hnum hfree
    cases Except.ok.inj (h.symm.trans hloop)
    exact ⟨rfl, rfl, rfl⟩
  · rw [allocateLoop_oversize hranking.known (by omega) hnum] at h
    split at h
    · rename_i hempty
      cases h
      refine ⟨?_, rfl, rfl⟩
      rcases hempty with hempty | hzero
      · rw [hempty, grants_nil]
      · change e.config.limit isDl = 0 at hzero
        rw [hzero, grants_zero]
    · cases h

/-- What a direction sends is granted in the order of the sorted metrics. -/
theorem serve_sorted {numSymbols : ℕ} {reqs : List TtiRequest}
    (hranked : (calculatePriorities P cell isDl (e.candidates P cell isDl) e).run none =
      .ok (ranked, e₁))
    (hgrid : cell.currentSlot.grid isDl = .create cell.config.numRbs numSymbols)
    (hopen : cell.currentSlot.canSchedule isDl = true)
    (h : (e.serve P cell isDl).run none = .ok (cell', e')) (hsent : e'.sent = e.sent ++ reqs) :
    pdusIn reqs = grantedPdus e.config P cell isDl (sortByPriority P ranked) := by
  have hsame : e.scheduleFor P cell isDl = e.schedule P cell isDl := by
    cases isDl <;> rfl
  rw [serve, hopen, if_pos rfl, hsame] at h
  obtain ⟨⟨ds, cell₁, e₂⟩, hschedule, h⟩ := run_bind_eq_ok.mp h
  obtain ⟨hds, hrepo, hsent₂⟩ := schedule_sorted hranked (by rw [hgrid]; rfl)
    (by rw [hgrid]; exact DefaultResourceAllocator.freeFrom_create _ _) hschedule
  have hpdus : pdusOf cell₁ ds = grantedPdus e.config P cell isDl (sortByPriority P ranked) := by
    rw [hds, ← pdusOf_grants, pdusOf, pdusOf, hrepo]
  rw [← hpdus]
  dsimp only at h
  by_cases hnil : ds = []
  · rw [if_pos hnil] at h
    cases h
    rw [hnil, List.self_eq_append_right.mp (hsent₂.symm.trans hsent)]
    rfl
  · rw [if_neg hnil] at h
    obtain ⟨_, _, rfl⟩ := buildFor_ok h
    change e₂.sent ++ _ = _ at hsent
    rw [hsent₂] at hsent
    rw [← List.append_cancel_left hsent, pdusIn, List.flatMap_singleton]

end AnyPolicy

/-! ## The first user -/

variable {D : Type} [ExactDouble D] {e e' : SchedulerEngine (BuiltinPolicy D) D}
  {q : RoundRobinPolicy} {P : Platform} {cell cell' : CellContext} {isDl : Bool}

/-- Without retransmissions the metric of a candidate is the rank of its user. -/
theorem metric_of_candidate (hidle : HarqIdle cell) {d : SchedulingDecision D}
    (hd : d ∈ e.candidates P cell isDl) :
    ∃ ue, cell.ueRepo.ue? d.rnti = some ue ∧
      (rankRoundRobin q cell isDl d).rnti = d.rnti ∧
      (rankRoundRobin q cell isDl d).priorityMetric = Double.ofNat (q.rank ue isDl) := by
  obtain ⟨ue, hue, _, hcandidate⟩ := mem_candidates.mp hd
  have htype : d.type ≠ .retx := by
    rw [(candidate_of_idle (hidle _ ue hue isDl) hcandidate).1]
    rintro ⟨⟩
  refine ⟨ue, hue, ?_⟩
  rw [rankRoundRobin, hue]
  dsimp only
  rw [boostRetx, if_neg htype]
  exact ⟨rfl, q.calculatePriority_eq_rank ue isDl⟩

/-- The candidates are sorted by the ranks of their users, and none is ahead of the first. -/
theorem rank_le_head (hidle : HarqIdle cell) {first : SchedulingDecision D}
    {rest : List (SchedulingDecision D)}
    (hsorted : sortByPriority P ((e.candidates P cell isDl).map (rankRoundRobin q cell isDl)) =
      first :: rest) {d : SchedulingDecision D} (hd : d ∈ e.candidates P cell isDl)
    {ue : UeContext} (hue : cell.ueRepo.ue? d.rnti = some ue) :
    ∃ ue₁, cell.ueRepo.ue? first.rnti = some ue₁ ∧ q.rank ue isDl ≤ q.rank ue₁ isDl := by
  have hmetric : ∀ d ∈ (e.candidates P cell isDl).map (rankRoundRobin q cell isDl),
      ∃ ue, cell.ueRepo.ue? d.rnti = some ue ∧
        d.priorityMetric = Double.ofNat (q.rank ue isDl) := by
    intro ranked hranked
    obtain ⟨d, hd, rfl⟩ := List.mem_map.mp hranked
    obtain ⟨ue, hue, hrnti, hrank⟩ := metric_of_candidate (q := q) hidle hd
    exact ⟨ue, by rw [hrnti, hue], hrank⟩
  have hlt : ∀ a b : ℕ, a < 2 ^ 32 → b < 2 ^ 32 →
      Double.lt (Double.ofNat a : D) (Double.ofNat b) = decide (a < b) := fun a b ha hb ↦
    ExactDouble.lt_ofNat a b (ha.trans (by decide)) (hb.trans (by decide))
  have hpairwise := P.sort_sorted (fun a b : SchedulingDecision D ↦
    Double.lt b.priorityMetric a.priorityMetric)
    ((e.candidates P cell isDl).map (rankRoundRobin q cell isDl)) ?_ ?_
  · have hsort := P.sort_perm (fun a b : SchedulingDecision D ↦
      Double.lt b.priorityMetric a.priorityMetric)
      ((e.candidates P cell isDl).map (rankRoundRobin q cell isDl))
    rw [← sortByPriority, hsorted] at hpairwise hsort
    obtain ⟨ue₁, hue₁, hrank₁⟩ := hmetric first (hsort.subset List.mem_cons_self)
    refine ⟨ue₁, hue₁, ?_⟩
    obtain ⟨ue', hue', hrnti, hrank⟩ := metric_of_candidate (q := q) hidle hd
    obtain rfl : ue = ue' := Option.some.inj (hue.symm.trans hue')
    rcases List.mem_cons.mp (hsort.mem_iff.mpr (List.mem_map_of_mem hd)) with heq | hrest
    · rw [heq] at hrank hrnti
      rw [hrnti, hue] at hue₁
      exact le_of_eq (by rw [Option.some.inj hue₁])
    · have hle := (List.pairwise_cons.mp hpairwise).1 _ hrest
      rw [hrank₁, hrank, hlt _ _ (q.rank_lt _ _) (q.rank_lt _ _), decide_eq_false_iff_not,
        not_lt] at hle
      exact hle
  · intro a ha b hb
    obtain ⟨_, _, ha⟩ := hmetric a ha
    obtain ⟨_, _, hb⟩ := hmetric b hb
    simp only [ha, hb, hlt _ _ (q.rank_lt _ _) (q.rank_lt _ _), decide_eq_true_eq,
      decide_eq_false_iff_not]
    omega
  · intro a ha b hb c hc
    obtain ⟨_, _, ha⟩ := hmetric a ha
    obtain ⟨_, _, hb⟩ := hmetric b hb
    obtain ⟨_, _, hc⟩ := hmetric c hc
    simp only [ha, hb, hc, hlt _ _ (q.rank_lt _ _) (q.rank_lt _ _), decide_eq_false_iff_not]
    omega

/-- A direction with room and a candidate serves a user whose rank is as high. -/
theorem serve_first {numSymbols : ℕ} {reqs : List TtiRequest} {r : Rnti} {ue : UeContext}
    (hconfig : e.config.IsRoundRobin) (hpolicy : e.policyManager = .roundRobin q)
    (hidle : HarqIdle cell)
    (hgrid : cell.currentSlot.grid isDl = .create cell.config.numRbs numSymbols)
    (hopen : cell.currentSlot.canSchedule isDl = true) (hlimit : 0 < e.config.limit isDl)
    (hrbs : 0 < cell.config.numRbs) (hue : cell.ueRepo.ue? r = some ue)
    (heligible : e.isEligible isDl ue = true)
    (hcandidate : hasCandidate e.config isDl ue = true)
    (h : (e.serve P cell isDl).run none = .ok (cell', e')) (hsent : e'.sent = e.sent ++ reqs) :
    ∃ pdu ∈ pdusIn reqs, ∃ ue₁, cell.ueRepo.ue? pdu.rnti = some ue₁ ∧
      q.rank ue isDl ≤ q.rank ue₁ isDl := by
  rw [← candidate_isSome (D := D) e.config P isDl ue] at hcandidate
  obtain ⟨d, hd⟩ := Option.isSome_iff_exists.mp hcandidate
  have hd_ue : cell.ueRepo.ue? d.rnti = some ue := by
    rw [(candidate_eq_some hd).1, UeRepository.ue?_rnti hue, hue]
  have hmem : d ∈ e.candidates P cell isDl := mem_candidates.mpr ⟨ue, hd_ue, heligible, hd⟩
  have hranked := calculatePriorities_roundRobin hconfig hpolicy P cell isDl
    (e.candidates P cell isDl)
  have hknown := (isRanking_of_calculatePriorities hranked).known
  rw [serve_sorted hranked hgrid hopen h hsent, grantedPdus]
  have hperm := P.sort_perm (fun a b : SchedulingDecision D ↦
    Double.lt b.priorityMetric a.priorityMetric)
    ((e.candidates P cell isDl).map (rankRoundRobin q cell isDl))
  rw [← sortByPriority] at hperm
  have hfirst := hperm.mem_iff.mpr (List.mem_map_of_mem (f := rankRoundRobin q cell isDl) hmem)
  generalize hsorted : sortByPriority P ((e.candidates P cell isDl).map
    (rankRoundRobin q cell isDl)) = sorted at hknown hfirst
  obtain ⟨first, rest, rfl⟩ := List.exists_cons_of_ne_nil (List.ne_nil_of_mem hfirst)
  obtain ⟨ue₁, hue₁, hrank⟩ := rank_le_head hidle hsorted hmem hd_ue
  have hpos := demand_pos (P := P) hue₁
  rcases Carve.carve_cons (demand P cell) cell.config.numRbs (e.config.limit isDl) 0 first rest
    with ⟨hzero, _⟩ | ⟨hzero, _⟩ | ⟨m, _, _, hcarve⟩
  · omega
  · omega
  · rw [hcarve]
    refine ⟨pduOf (DefaultResourceAllocator.record P first ue₁ cell
      ⟨0, min (demand P cell first) (cell.config.numRbs - 0)⟩) ue₁, ?_, ue₁, hue₁, hrank⟩
    apply List.mem_filterMap.mpr
    refine ⟨_, List.mem_cons_self, ?_⟩
    rw [pduOfPiece, hue₁]
    rfl

/-- A slot in which a user contends for a direction with room serves a user whose rank was as
high when the direction was served. -/
theorem slot_first {p : RoundRobinPolicy} {c : CellId} {t : FrameTiming} {r : Rnti}
    {ue : UeContext} (hconfig : e.config.IsRoundRobin)
    (hpolicy : e.policyManager = .roundRobin p) (hinv : e.Consistent)
    (hlookup : e.cells.lookup c = some cell) (hlimit : 0 < e.config.limit isDl)
    (hrbs : 0 < cell.config.numRbs) (hue : cell.ueRepo.ue? r = some ue)
    (hcontends : e.contends c t isDl r = true)
    (h : (e.onSlotIndication P c t).run none = .ok e') :
    ∃ reqs before, Sent e (p.onSlotStart t) reqs e' ∧ before <+: reqs ∧
      ∃ pdu ∈ pdusIn reqs, ∃ ue₁, cell.ueRepo.ue? pdu.rnti = some ue₁ ∧
        ((p.onSlotStart t).serve (pdusIn before)).rank ue isDl ≤
          ((p.onSlotStart t).serve (pdusIn before)).rank ue₁ isDl := by
  obtain ⟨hisOpen, heligible, hcandidate⟩ := (contends_eq_true hlookup hue).mp hcontends
  obtain ⟨slot, slices, qos, slices', cell₂, e₂, cell₃, e₃, hstart, _, hdl, hul, rfl⟩ :=
    onSlotIndication_served hlookup h
  have hopen : slot.canSchedule isDl = true := by
    simpa only [CellContext.isOpen, hstart] using hisOpen
  have hidle : HarqIdle { cell with currentSlot := slot } :=
    (hinv.harqIdle hlookup : HarqIdle cell)
  have hbegin : (e.beginSlot t slices qos).config.IsRoundRobin := hconfig
  have hpolicy₁ := policyManager_beginSlot t slices qos hpolicy
  obtain ⟨_, hgrid⟩ := SlotContext.initializeSlot_ok hstart
  change ((e.beginSlot t slices qos).serve P _ true).run none = _ at hdl
  obtain ⟨dl, hsentDl, _⟩ := serve_roundRobin hbegin hpolicy₁ hdl
  obtain ⟨_, houtcome⟩ := serve_ok_of_create (hgrid true) hdl
  have hconfig₂ : e₂.config.IsRoundRobin := hsentDl.config ▸ hbegin
  obtain ⟨ul, hsentUl, _⟩ := serve_roundRobin hconfig₂ hsentDl.policyManager hul
  have hsent := hsentDl.append hsentUl
  have heligible' : ∀ f : SchedulerEngine (BuiltinPolicy D) D, f.config = e.config →
      f.isEligible isDl ue = true := by
    intro f hf
    rw [isEligible_congr hconfig hf]
    exact heligible
  cases isDl with
  | true =>
      obtain ⟨pdu, hpdu, ue₁, hue₁, hrank⟩ := serve_first hbegin hpolicy₁ hidle (hgrid true) hopen
        hlimit hrbs hue (heligible' _ rfl) hcandidate hdl hsentDl.sent
      refine ⟨dl ++ ul, [], ⟨hsent.sent, hsent.policyManager, hsent.config⟩, List.nil_prefix,
        pdu, ?_, ue₁, hue₁, hrank⟩
      rw [pdusIn, List.flatMap_append]
      exact List.mem_append_left _ hpdu
  | false =>
      -- the uplink finds the users as they were, and the history of the downlink
      have hgridUl : cell₂.currentSlot.grid false =
          .create cell₂.config.numRbs cell.config.symbolsPerSlot :=
        houtcome.grid_create (hgrid false)
      have hidle₂ : HarqIdle cell₂ := fun r' ue' hue' ↦ hidle r' ue' (houtcome.ueRepo ▸ hue')
      have hfalse : e₂.config = e.config := hsentDl.config
      obtain ⟨pdu, hpdu, ue₁, hue₁, hrank⟩ := serve_first (r := r) hconfig₂ hsentDl.policyManager
        hidle₂ hgridUl ((houtcome.canSchedule false).trans hopen)
        (by rw [hfalse]; exact hlimit) (by rw [houtcome.cellConfig]; exact hrbs)
        (by rw [houtcome.ueRepo]; exact hue) (heligible' _ hfalse)
        (by rw [hfalse]; exact hcandidate) hul hsentUl.sent
      rw [houtcome.ueRepo] at hue₁
      refine ⟨dl ++ ul, dl, ⟨hsent.sent, hsent.policyManager, hsent.config⟩,
        List.prefix_append dl ul, pdu, ?_, ue₁, hue₁, hrank⟩
      rw [pdusIn, List.flatMap_append]
      exact List.mem_append_right _ hpdu

end SchedulerEngine

end NrScheduler
