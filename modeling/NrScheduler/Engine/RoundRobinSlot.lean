import NrScheduler.Engine.Locality

/-!
# Slots under the round robin policy

With the QoS engine and slicing switched off, a slot reads the configuration, its cell and
the history of the users that compete in it, and all that it adds to the history is named
by the requests it sends.
-/

namespace NrScheduler

open LockMonad

variable {D : Type}

/-! ## The history -/

namespace RoundRobinPolicy

def serve (p : RoundRobinPolicy) (pdus : List TtiPdu) : RoundRobinPolicy :=
  pdus.foldl (fun p pdu ↦
    { p with lastScheduled := p.lastScheduled.insert pdu.rnti p.currentSlot }) p

@[simp] theorem currentSlot_serve (p : RoundRobinPolicy) (pdus : List TtiPdu) :
    (p.serve pdus).currentSlot = p.currentSlot := by
  induction pdus generalizing p with
  | nil => rfl
  | cons pdu pdus ih => exact ih _

theorem lookup_serve (p : RoundRobinPolicy) (pdus : List TtiPdu) (rnti : Rnti) :
    (p.serve pdus).lastScheduled.lookup rnti =
      if rnti ∈ pdus.map TtiPdu.rnti then some p.currentSlot
      else p.lastScheduled.lookup rnti := by
  induction pdus generalizing p with
  | nil => rfl
  | cons pdu pdus ih =>
      refine (ih _).trans ?_
      rw [List.map_cons]
      by_cases hmem : rnti ∈ pdus.map TtiPdu.rnti
      · rw [if_pos hmem, if_pos (List.mem_cons_of_mem _ hmem)]
      · rw [if_neg hmem]
        by_cases hrnti : rnti = pdu.rnti
        · rw [hrnti, if_pos List.mem_cons_self, AList.lookup_insert]
        · rw [AList.lookup_insert_ne hrnti, if_neg]
          rw [List.mem_cons]
          exact fun h ↦ h.elim hrnti hmem

theorem serve_append (p : RoundRobinPolicy) (pdus more : List TtiPdu) :
    p.serve (pdus ++ more) = (p.serve pdus).serve more :=
  List.foldl_append

/-- The priority of a user depends on its own entry, and not even on that where it has
nothing to send. -/
theorem calculatePriority_congr [Double D] {p q : RoundRobinPolicy} {ue : UeContext}
    {isDl : Bool} (hslot : q.currentSlot = p.currentSlot)
    (hentry : ue.buffer isDl ≠ 0 →
      q.lastScheduled.lookup ue.rnti = p.lastScheduled.lookup ue.rnti) :
    (q.calculatePriority ue isDl : D) = p.calculatePriority ue isDl := by
  rw [calculatePriority, calculatePriority]
  by_cases hbuffer : ue.buffer isDl = 0
  · rw [if_pos hbuffer, if_pos hbuffer]
  · rw [if_neg hbuffer, if_neg hbuffer, hentry hbuffer, hslot]

end RoundRobinPolicy

/-- Only the round robin policy decides. -/
structure SchedulerConfig.IsRoundRobin (config : SchedulerConfig) : Prop where
  strategy : config.strategy = .roundRobin
  enableQos : config.enableQos = false
  enableSlicing : config.enableSlicing = false

def pdusIn (reqs : List TtiRequest) : List TtiPdu := reqs.flatMap TtiRequest.pdus

namespace SchedulerEngine

/-! ## The loop over the sorted decisions -/

theorem allocate_cell {P : Platform} {d d' : SchedulingDecision D} {cell cell' : CellContext}
    {isDl : Bool} (h : (DefaultResourceAllocator.allocate P d cell isDl).run none =
      .ok (some (d', cell'))) : cell'.ueRepo = cell.ueRepo := by
  obtain ⟨found, _, h⟩ := run_bind_eq_ok.mp h
  cases found with
  | none => cases h
  | some ue =>
      obtain ⟨maxRbs, _, h⟩ := run_bind_eq_ok.mp h
      dsimp only at h
      split at h
      · cases h
      · obtain ⟨first, _, h⟩ := run_bind_eq_ok.mp h
        have htake : ∀ range : ResourceBlockRange,
            ((cell.currentSlot.grid isDl).allocate ⟨range, ⟨DefaultResourceAllocator.startSymbol,
                DefaultResourceAllocator.numSymbols⟩⟩ >>= fun r ↦
              if r.1 then pure (some (DefaultResourceAllocator.record P d ue cell range,
                cell.setGrid isDl r.2))
              else pure none : Exec _).run none = .ok (some (d', cell')) →
            cell'.ueRepo = cell.ueRepo := by
          intro range h
          obtain ⟨r, _, h⟩ := run_bind_eq_ok.mp h
          split at h
          · cases h
            rfl
          · cases h
        cases first with
        | some range =>
            simp only [pure_bind] at h
            exact htake range h
        | none =>
            obtain ⟨range, _, h⟩ := run_bind_eq_ok.mp h
            cases range with
            | none => cases h
            | some range => exact htake range h

section AnyPolicy

variable {π : Type} [IPolicyManager π D]

theorem reportGrant_congr (P : Platform) {cell cell' : CellContext}
    (h : cell'.ueRepo = cell.ueRepo) :
    (reportGrant P cell' : π → SchedulingDecision D → π) = reportGrant P cell := by
  funext policy d
  rw [reportGrant, reportGrant, h]

/-- Of the engine the loop reads the limits, and it changes the policy and a counter. -/
theorem allocateLoop_local {P : Platform} {isDl : Bool}
    {ranked successful ds : List (SchedulingDecision D)} {cell cell' : CellContext}
    {e e' : SchedulerEngine π D}
    (h : (allocateLoop P isDl ranked successful cell e).run none = .ok (ds, cell', e')) :
    ∃ granted, ds = successful ++ granted ∧ cell'.ueRepo = cell.ueRepo ∧
      ∀ f : SchedulerEngine π D, f.config = e.config → ∃ failures,
        (allocateLoop P isDl ranked successful cell f).run none = .ok (ds, cell', { f with
          policyManager := granted.foldl (reportGrant P cell) f.policyManager
          stats := { f.stats with allocationFailures := failures } }) := by
  induction ranked generalizing successful cell e with
  | nil =>
      cases h
      exact ⟨[], (List.append_nil _).symm, rfl, fun f _ ↦ ⟨f.stats.allocationFailures, rfl⟩⟩
  | cons d ranked ih =>
      by_cases hlimit : e.config.limit isDl ≤ successful.length
      · rw [allocateLoop_stop hlimit] at h
        cases h
        refine ⟨[], (List.append_nil _).symm, rfl, ?_⟩
        intro f hf
        rw [← hf] at hlimit
        exact ⟨f.stats.allocationFailures, allocateLoop_stop hlimit⟩
      · have hlimit' : ∀ f : SchedulerEngine π D, f.config = e.config →
            ¬ f.config.limit isDl ≤ successful.length := by
          intro f hf
          rwa [hf]
        have hall := h
        rw [allocateLoop, if_neg hlimit] at h
        obtain ⟨result, hallocate, _⟩ := run_bind_eq_ok.mp h
        cases result with
        | none =>
            rw [allocateLoop_refused hlimit hallocate] at hall
            obtain ⟨granted, hds, hrepo, hreplay⟩ := ih hall
            refine ⟨granted, hds, hrepo, ?_⟩
            intro f hf
            obtain ⟨failures, hrun⟩ := hreplay { f with
              stats := { f.stats with
                allocationFailures := f.stats.allocationFailures + 1 } } hf
            exact ⟨failures, (allocateLoop_refused (hlimit' f hf) hallocate).trans hrun⟩
        | some r =>
            -- the entry that is granted is reported, and the loop goes on
            obtain ⟨d', cell₁⟩ := r
            have hrepo₁ := allocate_cell hallocate
            rw [allocateLoop_granted hlimit hallocate hrepo₁] at hall
            obtain ⟨granted, hds, hrepo, hreplay⟩ := ih hall
            refine ⟨d' :: granted, ?_, hrepo.trans hrepo₁, ?_⟩
            · rw [hds, List.append_assoc, List.singleton_append]
            · intro f hf
              obtain ⟨failures, hrun⟩ := hreplay { f with
                policyManager := reportGrant P cell f.policyManager d' } hf
              refine ⟨failures, ?_⟩
              rw [allocateLoop_granted (hlimit' f hf) hallocate hrepo₁, hrun,
                reportGrant_congr P hrepo₁]
              rfl

omit [IPolicyManager π D] in
theorem buildFor_local {e e' f : SchedulerEngine π D} {cell cell' : CellContext} {isDl : Bool}
    {ds : List (SchedulingDecision D)} (hconfig : f.config = e.config)
    (h : (e.buildFor cell isDl ds).run none = .ok (cell', e')) :
    ∃ r, r.pdus = pdusOf cell ds ∧ e' = e.record r ∧
      (f.buildFor cell isDl ds).run none = .ok (cell', f.record r) := by
  have hbuild : ∀ t : FrameTiming, (e.buildTtiRequest cell isDl t ds).run none = .ok (cell', e') →
      ∃ r, r.pdus = pdusOf cell ds ∧ e' = e.record r ∧
        (f.buildTtiRequest cell isDl t ds).run none = .ok (cell', f.record r) := by
    intro t h
    rw [buildTtiRequest_run] at h ⊢
    split at h
    · cases h
    · rename_i hnot
      cases h
      exact ⟨_, rfl, rfl, if_neg hnot⟩
  cases isDl with
  | true => exact hbuild _ h
  | false =>
      obtain ⟨t, ht, h⟩ := run_bind_eq_ok.mp h
      obtain ⟨r, hr, he', hf⟩ := hbuild t h
      refine ⟨r, hr, he', ?_⟩
      rw [← hconfig] at ht
      exact (run_bind_of_ok ht).trans hf

end AnyPolicy

/-! ## Ranking -/

variable [Double D]

def rankRoundRobin (p : RoundRobinPolicy) (cell : CellContext) (isDl : Bool)
    (d : SchedulingDecision D) : SchedulingDecision D :=
  match cell.ueRepo.ue? d.rnti with
  | none => { d with priorityMetric := Double.ofNat 0 }
  | some ue =>
      boostRetx { d with priorityMetric := p.calculatePriority ue isDl, qosPriority := 5 }

theorem calculatePriority_roundRobin {e : SchedulerEngine (BuiltinPolicy D) D}
    {p : RoundRobinPolicy} (hconfig : e.config.IsRoundRobin)
    (hpolicy : e.policyManager = .roundRobin p) (P : Platform) (cell : CellContext)
    (isDl : Bool) (d : SchedulingDecision D) :
    (e.calculatePriority P cell isDl d).run none = .ok (rankRoundRobin p cell isDl d, e) := by
  rw [calculatePriority, run_bind_of_ok (cell.ueRepo.findByRnti_run d.rnti), rankRoundRobin]
  cases cell.ueRepo.ue? d.rnti with
  | none => rfl
  | some ue =>
      have hrank : IPolicyManager.calculatePriority P e.policyManager ue cell isDl =
          ((p.calculatePriority ue isDl : D), e.policyManager) := by
        rw [hpolicy]
        rfl
      have hqos : ∀ base : D, (e.rankByQos P ue isDl base d).run none =
          .ok ({ d with priorityMetric := base, qosPriority := 5 }, e) := by
        intro base
        rw [rankByQos, hconfig.enableQos]
        rfl
      have hslice : ∀ d : SchedulingDecision D, (e.boostSlice ue d).run none = .ok d := by
        intro d
        rw [boostSlice, hconfig.enableSlicing]
        rfl
      simp only [hrank]
      exact (run_bind_of_ok (hqos _)).trans (run_bind_of_ok (hslice _))

theorem calculatePriorities_roundRobin {e : SchedulerEngine (BuiltinPolicy D) D}
    {p : RoundRobinPolicy} (hconfig : e.config.IsRoundRobin)
    (hpolicy : e.policyManager = .roundRobin p) (P : Platform) (cell : CellContext)
    (isDl : Bool) (ds : List (SchedulingDecision D)) :
    (calculatePriorities P cell isDl ds e).run none =
      .ok (ds.map (rankRoundRobin p cell isDl), e) := by
  have hone := calculatePriority_roundRobin hconfig hpolicy P cell isDl
  induction ds with
  | nil => rfl
  | cons d ds ih =>
      rw [calculatePriorities, run_bind_of_ok (hone d)]
      simp only
      rw [run_bind_of_ok ih]
      rfl

omit [Double D] in
theorem isEligible_congr {e f : SchedulerEngine (BuiltinPolicy D) D}
    (hconfig : e.config.IsRoundRobin) (hf : f.config = e.config) (isDl : Bool) :
    f.isEligible isDl = e.isEligible isDl := by
  funext ue
  rw [isEligible, isEligible, hf, hconfig.enableSlicing]
  rfl

theorem candidates_congr {e f : SchedulerEngine (BuiltinPolicy D) D}
    (hconfig : e.config.IsRoundRobin) (hf : f.config = e.config) (P : Platform)
    (cell : CellContext) (isDl : Bool) :
    f.candidates P cell isDl = e.candidates P cell isDl := by
  rw [candidates, candidates, isEligible_congr hconfig hf, hf]

/-! ## One direction -/

/-- What the requests sent between two states do to the log and the policy. -/
structure Sent (e : SchedulerEngine (BuiltinPolicy D) D) (p : RoundRobinPolicy)
    (reqs : List TtiRequest) (e' : SchedulerEngine (BuiltinPolicy D) D) : Prop where
  sent : e'.sent = e.sent ++ reqs
  policyManager : e'.policyManager = .roundRobin (p.serve (pdusIn reqs))
  config : e'.config = e.config

theorem foldl_reportGrant (P : Platform) (cell : CellContext)
    (granted : List (SchedulingDecision D)) (p : RoundRobinPolicy) :
    granted.foldl (reportGrant P cell) (BuiltinPolicy.roundRobin p : BuiltinPolicy D) =
      .roundRobin (p.serve (pdusOf cell granted)) := by
  induction granted generalizing p with
  | nil => rfl
  | cons d granted ih =>
      rw [List.foldl_cons, reportGrant, pdusOf]
      cases hue : cell.ueRepo.ue? d.rnti with
      | none =>
          rw [List.filterMap_cons_none (by rw [hue]; rfl)]
          exact ih p
      | some ue =>
          rw [List.filterMap_cons_some (by rw [hue]; rfl)]
          have hrnti := UeRepository.ue?_rnti hue
          refine (ih _).trans ?_
          rw [RoundRobinPolicy.updateHistory, hrnti]
          rfl

/-- An open direction allocates to the candidates in the order of their ranks, and what is
granted is sent. -/
theorem serve_open_roundRobin {e f : SchedulerEngine (BuiltinPolicy D) D}
    {p q : RoundRobinPolicy} {P : Platform} {cell : CellContext} {isDl : Bool}
    (hconfig : e.config.IsRoundRobin) (hopen : cell.currentSlot.canSchedule isDl = true)
    (hf : f.config = e.config) (hq : f.policyManager = .roundRobin q)
    (hrank : ∀ d ∈ e.candidates P cell isDl,
      rankRoundRobin q cell isDl d = rankRoundRobin p cell isDl d) :
    (f.serve P cell isDl).run none =
      (do
        let r ← allocateLoop P isDl (sortByPriority P
          ((e.candidates P cell isDl).map (rankRoundRobin p cell isDl))) [] cell f
        if r.1 = [] then return (r.2.1, r.2.2)
        else r.2.2.buildFor r.2.1 isDl r.1 : Exec _).run none := by
  have hsame : f.scheduleFor P cell isDl = f.schedule P cell isDl := by
    cases isDl <;> rfl
  have hfconfig : f.config.IsRoundRobin := by
    rw [hf]
    exact hconfig
  have hpriorities := calculatePriorities_roundRobin hfconfig hq P cell isDl
    (f.candidates P cell isDl)
  rw [candidates_congr hconfig hf, List.map_congr_left hrank] at hpriorities
  rw [serve, hopen, if_pos rfl, hsame, ReaderT.run_bind, schedule_run,
    candidates_congr hconfig hf, run_bind_of_ok hpriorities]
  rfl

/-- In every engine with the same configuration the loop grants the same decisions, and the
history records their transmissions. -/
theorem allocateLoop_roundRobin {e e' : SchedulerEngine (BuiltinPolicy D) D} {P : Platform}
    {isDl : Bool} {ranked ds : List (SchedulingDecision D)} {cell cell' : CellContext}
    (h : (allocateLoop P isDl ranked [] cell e).run none = .ok (ds, cell', e'))
    {f : SchedulerEngine (BuiltinPolicy D) D} {q : RoundRobinPolicy}
    (hf : f.config = e.config) (hq : f.policyManager = .roundRobin q) :
    ∃ f', (allocateLoop P isDl ranked [] cell f).run none = .ok (ds, cell', f') ∧
      f'.sent = f.sent ∧ f'.policyManager = .roundRobin (q.serve (pdusOf cell' ds)) ∧
      f'.config = f.config := by
  obtain ⟨granted, hds, hrepo, hreplay⟩ := allocateLoop_local h
  obtain rfl : ds = granted := hds
  obtain ⟨failures, hrun⟩ := hreplay f hf
  refine ⟨_, hrun, rfl, ?_, rfl⟩
  change ds.foldl (reportGrant P cell) f.policyManager = _
  rw [hq, foldl_reportGrant, pdusOf, pdusOf, hrepo]

/-- Serving a direction sends requests that the history records, and any engine with the
same configuration that ranks the candidates alike sends the same. -/
theorem serve_roundRobin {e e' : SchedulerEngine (BuiltinPolicy D) D} {p : RoundRobinPolicy}
    {P : Platform} {cell cell' : CellContext} {isDl : Bool} (hconfig : e.config.IsRoundRobin)
    (hpolicy : e.policyManager = .roundRobin p)
    (h : (e.serve P cell isDl).run none = .ok (cell', e')) :
    ∃ reqs, Sent e p reqs e' ∧
      ∀ (f : SchedulerEngine (BuiltinPolicy D) D) (q : RoundRobinPolicy),
        f.config = e.config → f.policyManager = .roundRobin q →
        (cell.currentSlot.canSchedule isDl = true → ∀ d ∈ e.candidates P cell isDl,
          rankRoundRobin q cell isDl d = rankRoundRobin p cell isDl d) →
        ∃ f', (f.serve P cell isDl).run none = .ok (cell', f') ∧ Sent f q reqs f' := by
  cases hopen : cell.currentSlot.canSchedule isDl with
  | false =>
      have hrun : ∀ f : SchedulerEngine (BuiltinPolicy D) D,
          (f.serve P cell isDl).run none = .ok (cell, f) := by
        intro f
        rw [serve, hopen]
        rfl
      rw [hrun e] at h
      cases h
      refine ⟨[], ⟨(List.append_nil _).symm, hpolicy, rfl⟩, ?_⟩
      intro f q _ hq _
      exact ⟨f, hrun f, (List.append_nil _).symm, hq, rfl⟩
  | true =>
      rw [serve_open_roundRobin (p := p) hconfig hopen rfl hpolicy fun _ _ ↦ rfl] at h
      obtain ⟨⟨ds, cell₁, e₁⟩, hloop, h⟩ := run_bind_eq_ok.mp h
      obtain ⟨e₂, he₂, hsent, hpolicy₂, hconfig₂⟩ := allocateLoop_roundRobin hloop rfl hpolicy
      obtain rfl : e₂ = e₁ := by
        rw [hloop] at he₂
        cases he₂
        rfl
      simp only at h
      by_cases hnil : ds = []
      · rw [if_pos hnil] at h
        cases h
        have hpdus : pdusOf cell' ds = pdusIn [] := by
          rw [hnil]
          rfl
        refine ⟨[], ⟨hsent.trans (List.append_nil _).symm, hpdus ▸ hpolicy₂, hconfig₂⟩, ?_⟩
        intro f q hf hq hrank
        obtain ⟨f₁, hf₁, hfsent, hfpolicy, hfconfig⟩ := allocateLoop_roundRobin hloop hf hq
        refine ⟨f₁, ?_, hfsent.trans (List.append_nil _).symm, hpdus ▸ hfpolicy, hfconfig⟩
        rw [serve_open_roundRobin hconfig hopen hf hq (hrank rfl), run_bind_of_ok hf₁]
        simp only [if_pos hnil]
        rfl
      · rw [if_neg hnil] at h
        obtain ⟨r, hpdus, rfl, _⟩ := buildFor_local rfl h
        have hin : pdusOf cell₁ ds = pdusIn [r] := by
          rw [pdusIn, List.flatMap_singleton, hpdus]
        refine ⟨[r], ⟨?_, hin ▸ hpolicy₂, hconfig₂⟩, ?_⟩
        · rw [record, hsent]
        · intro f q hf hq hrank
          obtain ⟨f₁, hf₁, hfsent, hfpolicy, hfconfig⟩ := allocateLoop_roundRobin hloop hf hq
          obtain ⟨r', hpdus', hrecord, hbuild⟩ :=
            buildFor_local ((hfconfig.trans hf).trans hconfig₂.symm) h
          have hr : r' = r := by
            have hlog := congrArg SchedulerEngine.sent hrecord
            exact (List.singleton_inj.mp (List.append_cancel_left hlog)).symm
          rw [hr] at hbuild
          refine ⟨f₁.record r, ?_, ?_, hin ▸ hfpolicy, hfconfig⟩
          · rw [serve_open_roundRobin hconfig hopen hf hq (hrank rfl), run_bind_of_ok hf₁]
            simp only [if_neg hnil]
            exact hbuild
          · rw [record, hfsent]

/-! ## The whole slot -/

theorem rankRoundRobin_congr {e : SchedulerEngine (BuiltinPolicy D) D} {p q : RoundRobinPolicy}
    {P : Platform} {cell : CellContext} {isDl : Bool} (hslot : q.currentSlot = p.currentSlot)
    (hentries : ∀ (r : Rnti) (ue : UeContext), cell.ueRepo.ue? r = some ue →
      e.isEligible isDl ue = true → hasCandidate e.config isDl ue = true →
      ue.buffer isDl ≠ 0 → q.lastScheduled.lookup r = p.lastScheduled.lookup r)
    {d : SchedulingDecision D} (hd : d ∈ e.candidates P cell isDl) :
    rankRoundRobin q cell isDl d = rankRoundRobin p cell isDl d := by
  obtain ⟨ue, hue, heligible, hcandidate⟩ := mem_candidates.mp hd
  have hsome : hasCandidate e.config isDl ue = true := by
    rw [← candidate_isSome (D := D) e.config P, hcandidate]
    rfl
  have hpriority : (q.calculatePriority ue isDl : D) = p.calculatePriority ue isDl := by
    apply RoundRobinPolicy.calculatePriority_congr hslot
    rw [UeRepository.ue?_rnti hue]
    exact hentries d.rnti ue hue heligible hsome
  simp only [rankRoundRobin, hue, hpriority]

omit [Double D] in
theorem Sent.append {e₁ e₂ e₃ : SchedulerEngine (BuiltinPolicy D) D} {p : RoundRobinPolicy}
    {reqs more : List TtiRequest} (h : Sent e₁ p reqs e₂)
    (h' : Sent e₂ (p.serve (pdusIn reqs)) more e₃) : Sent e₁ p (reqs ++ more) e₃ where
  sent := by rw [h'.sent, h.sent, List.append_assoc]
  policyManager := by
    rw [h'.policyManager, pdusIn, pdusIn, pdusIn, List.flatMap_append,
      RoundRobinPolicy.serve_append]
  config := h'.config.trans h.config

/-- The engine when the slot at `t` begins. -/
def beginSlot (e : SchedulerEngine (BuiltinPolicy D) D) (t : FrameTiming)
    (slices : SliceOrchestrator D) (qos : QosEngine D) : SchedulerEngine (BuiltinPolicy D) D :=
  { e with
    policyManager := IPolicyManager.onSlotStart D e.policyManager t
    sliceOrchestrator := slices
    qosEngine := qos }

theorem policyManager_beginSlot {e : SchedulerEngine (BuiltinPolicy D) D} {p : RoundRobinPolicy}
    (t : FrameTiming) (slices : SliceOrchestrator D) (qos : QosEngine D)
    (h : e.policyManager = .roundRobin p) :
    (e.beginSlot t slices qos).policyManager = .roundRobin (p.onSlotStart t) := by
  change IPolicyManager.onSlotStart D e.policyManager t = _
  rw [h]
  rfl

/-- The slot of a cell in an engine that agrees on the cell and on the history of the users
that compete in it sends the same requests. -/
theorem onSlotIndication_roundRobin {e e' : SchedulerEngine (BuiltinPolicy D) D}
    {p : RoundRobinPolicy} {P : Platform} {c : CellId} {t : FrameTiming} {cell : CellContext}
    (hconfig : e.config.IsRoundRobin) (hpolicy : e.policyManager = .roundRobin p)
    (hlookup : e.cells.lookup c = some cell)
    (h : (e.onSlotIndication P c t).run none = .ok e') :
    ∃ reqs, Sent e (p.onSlotStart t) reqs e' ∧
      ∀ (f : SchedulerEngine (BuiltinPolicy D) D) (q : RoundRobinPolicy),
        e.Matches c f → f.config = e.config → f.policyManager = .roundRobin q →
        (∀ isDl r ue, e.contends c t isDl r = true → cell.ueRepo.ue? r = some ue →
          ue.buffer isDl ≠ 0 → q.lastScheduled.lookup r = p.lastScheduled.lookup r) →
        ∃ f', (f.onSlotIndication P c t).run none = .ok f' ∧
          f'.cells.lookup c = e'.cells.lookup c ∧ Sent f (q.onSlotStart t) reqs f' := by
  obtain ⟨slot, slices, qos, slices', cell₂, e₂, cell₃, e₃, hstart, _, hdl, hul, rfl⟩ :=
    onSlotIndication_served hlookup h
  have hbegin : (e.beginSlot t slices qos).config.IsRoundRobin := hconfig
  change ((e.beginSlot t slices qos).serve P _ true).run none = _ at hdl
  obtain ⟨dl, hsentDl, hreplayDl⟩ :=
    serve_roundRobin hbegin (policyManager_beginSlot t slices qos hpolicy) hdl
  obtain ⟨ul, hsentUl, hreplayUl⟩ :=
    serve_roundRobin (hsentDl.config ▸ hbegin) hsentDl.policyManager hul
  -- the uplink sees the users and the flags of the slot as the downlink found them
  obtain ⟨htiming, hgrid⟩ := SlotContext.initializeSlot_ok hstart
  obtain ⟨_, houtcome⟩ := serve_ok_of_create (hgrid true) hdl
  have hsent := hsentDl.append hsentUl
  refine ⟨dl ++ ul, ⟨hsent.sent, hsent.policyManager, hsent.config⟩, ?_⟩
  intro f q hmatches hf hq hentries
  have hcompete : ∀ isDl, slot.canSchedule isDl = true → ∀ (r : Rnti) (ue : UeContext),
      cell.ueRepo.ue? r = some ue → e.isEligible isDl ue = true →
      hasCandidate e.config isDl ue = true → ue.buffer isDl ≠ 0 →
      q.lastScheduled.lookup r = p.lastScheduled.lookup r := by
    intro isDl hopen r ue hue heligible hcandidate
    refine hentries isDl r ue ((contends_eq_true hlookup hue).mpr ⟨?_, heligible, hcandidate⟩) hue
    simp only [CellContext.isOpen, hstart]
    exact hopen
  obtain ⟨slicesF, hslicesF⟩ : ∃ o, (f.sliceOrchestrator.onSlotStart t).run none = .ok o :=
    ⟨_, rfl⟩
  obtain ⟨qosF, hqosF⟩ : ∃ o, (f.qosEngine.onSlotTick P).run none = .ok o := ⟨_, rfl⟩
  obtain ⟨f₂, hdlF, hsentDlF⟩ := hreplayDl (f.beginSlot t slicesF qosF) (q.onSlotStart t) hf
    (policyManager_beginSlot t slicesF qosF hq) (by
      intro hopen d hd
      rw [candidates_congr (e := e) (f := e.beginSlot t slices qos) hconfig rfl] at hd
      apply rankRoundRobin_congr (p := p.onSlotStart t) (q := q.onSlotStart t) rfl _ hd
      exact hcompete true hopen)
  obtain ⟨f₃, hulF, hsentUlF⟩ := hreplayUl f₂ _ (hsentDlF.config.trans (hf.trans
    hsentDl.config.symm)) hsentDlF.policyManager (by
      intro hopen d hd
      rw [houtcome.canSchedule] at hopen
      rw [candidates_congr (e := e) (f := e₂) hconfig hsentDl.config] at hd
      refine rankRoundRobin_congr ?_ ?_ hd
      · simp only [RoundRobinPolicy.currentSlot_serve]
        rfl
      · intro r ue hue heligible hcandidate hbuffer
        rw [houtcome.ueRepo] at hue
        simp only [RoundRobinPolicy.lookup_serve]
        split
        · rfl
        · exact hcompete false hopen r ue hue heligible hcandidate hbuffer)
  obtain ⟨slicesG, hslicesG⟩ : ∃ o, (f₃.sliceOrchestrator.onSlotEnd P).run none = .ok o :=
    ⟨_, rfl⟩
  have hsentF := hsentDlF.append hsentUlF
  refine ⟨_, onSlotIndication_of_served (hmatches.lookup.trans hlookup) hstart hslicesF hqosF
    hdlF hulF hslicesG, ?_, ?_⟩
  · exact (AList.lookup_insert f₃.cells).trans (AList.lookup_insert e₃.cells).symm
  · exact ⟨hsentF.sent, hsentF.policyManager, hsentF.config⟩

end SchedulerEngine

end NrScheduler
