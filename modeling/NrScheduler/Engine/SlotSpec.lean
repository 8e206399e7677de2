import NrScheduler.Engine.ScheduleSpec

/-!
# What a slot indication does

With mutexes as no-ops, a slot indication for a known cell sends at most one request in
each direction, and everything else it changes follows from these requests.
-/

namespace NrScheduler

open LockMonad

/-! ## Recording a request -/

/-- The slot in which the feedback for a request is expected. -/
def TtiRequest.expectedSlot (r : TtiRequest) : ℕ :=
  (r.timing.plus (SchedulerEngine.feedbackOffset r.isDownlink)).absoluteSlot

/-- The entries a request leaves in the tracker; `index` is its position in the log. -/
def TtiRequest.pendings (r : TtiRequest) (index : ℕ) : List PendingFeedback :=
  r.pdus.map (SchedulerEngine.pendingOf r.cellId r.isDownlink r.timing index)

def HarqTimingTracker.registerRequest (t : HarqTimingTracker) (r : TtiRequest) (index : ℕ) :
    HarqTimingTracker :=
  (r.pendings index).foldl (fun t pending ↦ t.register r.expectedSlot pending) t

def Statistics.countPdu (isDl : Bool) (s : Statistics) (pdu : TtiPdu) : Statistics :=
  let counted := s.countScheduled isDl pdu.tbSize
  if pdu.type = .retx then counted.countRetransmission isDl else counted

def CellContext.countRequest (cell : CellContext) (r : TtiRequest) : CellContext :=
  { cell with
    currentSlot := r.pdus.foldl (fun s pdu ↦ s.countScheduled r.isDownlink pdu.tbSize)
      cell.currentSlot }

/-- The entries of some requests, the first of them at position `index`. -/
def pendingsOf : ℕ → List TtiRequest → List PendingFeedback
  | _, [] => []
  | index, r :: rest => r.pendings index ++ pendingsOf (index + 1) rest

/-- The tracker after some requests, the first of them at position `index`. -/
def HarqTimingTracker.registerRequests :
    HarqTimingTracker → ℕ → List TtiRequest → HarqTimingTracker
  | t, _, [] => t
  | t, index, r :: rest => (t.registerRequest r index).registerRequests (index + 1) rest

theorem HarqTimingTracker.registerRequests_append (t : HarqTimingTracker) (index : ℕ)
    (reqs more : List TtiRequest) :
    t.registerRequests index (reqs ++ more) =
      (t.registerRequests index reqs).registerRequests (index + reqs.length) more := by
  induction reqs generalizing t index with
  | nil => rfl
  | cons r reqs ih =>
      rw [List.cons_append, registerRequests, ih, registerRequests, List.length_cons,
        Nat.add_assoc, Nat.add_comm 1]

namespace CellContext

theorem countRequests_spec (cell : CellContext) (reqs : List TtiRequest) (isDl : Bool) :
    (reqs.foldl countRequest cell).config = cell.config ∧
    (reqs.foldl countRequest cell).ueRepo = cell.ueRepo ∧
    (reqs.foldl countRequest cell).currentSlot.timing = cell.currentSlot.timing ∧
    (reqs.foldl countRequest cell).currentSlot.canSchedule isDl =
      cell.currentSlot.canSchedule isDl ∧
    (reqs.foldl countRequest cell).currentSlot.grid isDl = cell.currentSlot.grid isDl := by
  have hslot : ∀ (pdus : List TtiPdu) (dir : Bool) (s : SlotContext),
      (pdus.foldl (fun s pdu ↦ s.countScheduled dir pdu.tbSize) s).timing = s.timing ∧
      (pdus.foldl (fun s pdu ↦ s.countScheduled dir pdu.tbSize) s).canSchedule isDl =
        s.canSchedule isDl ∧
      (pdus.foldl (fun s pdu ↦ s.countScheduled dir pdu.tbSize) s).grid isDl = s.grid isDl := by
    intro pdus dir
    induction pdus with
    | nil => exact fun s ↦ ⟨rfl, rfl, rfl⟩
    | cons pdu pdus ih =>
        intro s
        have h := ih (s.countScheduled dir pdu.tbSize)
        simpa only [List.foldl_cons, SlotContext.timing_countScheduled,
          SlotContext.canSchedule_countScheduled, SlotContext.grid_countScheduled] using h
  induction reqs generalizing cell with
  | nil => exact ⟨rfl, rfl, rfl, rfl, rfl⟩
  | cons r reqs ih =>
      obtain ⟨hconfig, hrepo, htiming, hopen, hgrid⟩ := ih (cell.countRequest r)
      obtain ⟨ht, ho, hg⟩ := hslot r.pdus r.isDownlink cell.currentSlot
      exact ⟨hconfig, hrepo, htiming.trans ht, hopen.trans ho, hgrid.trans hg⟩

end CellContext

namespace SchedulerEngine

variable {π D : Type}

def record (e : SchedulerEngine π D) (r : TtiRequest) : SchedulerEngine π D :=
  { e with
    harqTracker := e.harqTracker.registerRequest r e.sent.length
    stats := r.pdus.foldl (Statistics.countPdu r.isDownlink) e.stats
    sent := e.sent ++ [r] }

def recordAll (e : SchedulerEngine π D) (reqs : List TtiRequest) : SchedulerEngine π D :=
  reqs.foldl record e

theorem recordAll_spec (e : SchedulerEngine π D) (reqs : List TtiRequest) :
    e.recordAll reqs = { e with
      harqTracker := e.harqTracker.registerRequests e.sent.length reqs
      stats := (e.recordAll reqs).stats
      sent := e.sent ++ reqs } := by
  induction reqs generalizing e with
  | nil =>
      rw [List.append_nil]
      rfl
  | cons r reqs ih =>
      have h := ih (e.record r)
      have hlength : (e.record r).sent.length = e.sent.length + 1 := by
        simp [record]
      have happend : (e.record r).sent ++ reqs = e.sent ++ r :: reqs := by
        simp [record]
      rw [hlength, happend] at h
      exact h

def pdusOf (cell : CellContext) (ds : List (SchedulingDecision D)) : List TtiPdu :=
  ds.filterMap fun d ↦ (cell.ueRepo.ue? d.rnti).map (pduOf d)

theorem buildLoop_run (isDl : Bool) (timing : FrameTiming) (ds : List (SchedulingDecision D))
    (pdus : List TtiPdu) (cell : CellContext) (e : SchedulerEngine π D) :
    (buildLoop isDl timing ds pdus cell e).run none =
      if timing.slotsPerFrame = 0 ∧ pdusOf cell ds ≠ [] then .error (.crash .divideByZero)
      else .ok (pdus ++ pdusOf cell ds,
        { cell with
          currentSlot := (pdusOf cell ds).foldl (fun s pdu ↦ s.countScheduled isDl pdu.tbSize)
            cell.currentSlot },
        { e with
          harqTracker := (pdusOf cell ds).foldl
            (fun t pdu ↦ t.register (timing.plus (feedbackOffset isDl)).absoluteSlot
              (pendingOf cell.config.cellId isDl timing e.sent.length pdu)) e.harqTracker
          stats := (pdusOf cell ds).foldl (Statistics.countPdu isDl) e.stats }) := by
  induction ds generalizing pdus cell e with
  | nil =>
      have hnot : ¬ (timing.slotsPerFrame = 0 ∧ pdusOf cell ([] : List (SchedulingDecision D)) ≠ [])
        := fun h ↦ h.2 rfl
      rw [if_neg hnot]
      simp only [pdusOf, List.filterMap_nil, List.append_nil, List.foldl_nil]
      rfl
  | cons d ds ih =>
      rw [buildLoop, run_bind_of_ok (cell.ueRepo.findByRnti_run d.rnti)]
      cases hue : cell.ueRepo.ue? d.rnti with
      | none =>
          have hpdus : pdusOf cell (d :: ds) = pdusOf cell ds := by
            simp only [pdusOf, List.filterMap_cons, hue, Option.map_none]
          rw [hpdus]
          exact ih pdus cell e
      | some ue =>
          have hpdus : pdusOf cell (d :: ds) = pduOf d ue :: pdusOf cell ds := by
            simp only [pdusOf, List.filterMap_cons, hue, Option.map_some]
          simp only
          by_cases hspf : timing.slotsPerFrame = 0
          · have hcrash : (timing.advanced (feedbackOffset isDl)).run none =
                .error (.crash .divideByZero) := by
              rw [FrameTiming.advanced, if_pos hspf]
              rfl
            have hcond : timing.slotsPerFrame = 0 ∧ pduOf d ue :: pdusOf cell ds ≠ [] :=
              ⟨hspf, List.cons_ne_nil _ _⟩
            rw [hpdus, if_pos hcond]
            exact run_bind_of_error hcrash
          · have hadvance := FrameTiming.advanced_run (Nat.pos_of_ne_zero hspf) (feedbackOffset isDl)
            have hnot : ∀ l : List TtiPdu, ¬ (timing.slotsPerFrame = 0 ∧ l ≠ []) :=
              fun l h ↦ hspf h.1
            rw [run_bind_of_ok hadvance,
              run_bind_of_ok (HarqTimingTracker.registerPending_run _ _ _)]
            refine (ih _ _ _).trans ?_
            rw [if_neg (hnot _), hpdus, if_neg (hnot _)]
            simp only [List.append_assoc, List.singleton_append, List.foldl_cons]
            rfl

theorem buildTtiRequest_run (e : SchedulerEngine π D) (cell : CellContext) (isDl : Bool)
    (timing : FrameTiming) (ds : List (SchedulingDecision D)) :
    (e.buildTtiRequest cell isDl timing ds).run none =
      if timing.slotsPerFrame = 0 ∧ pdusOf cell ds ≠ [] then .error (.crash .divideByZero)
      else
        let r := ⟨isDl, timing, cell.config.cellId, pdusOf cell ds⟩
        .ok (cell.countRequest r, e.record r) := by
  have hloop := buildLoop_run isDl timing ds [] cell e
  rw [buildTtiRequest]
  by_cases hcrash : timing.slotsPerFrame = 0 ∧ pdusOf cell ds ≠ []
  · rw [if_pos hcrash] at hloop ⊢
    exact run_bind_of_error hloop
  · rw [if_neg hcrash] at hloop ⊢
    refine (run_bind_of_ok hloop).trans ?_
    simp only [record, HarqTimingTracker.registerRequest, TtiRequest.pendings, List.foldl_map]
    rfl

/-! ## One direction -/

/-- The slot a direction is scheduled for: in the uplink K2 slots ahead. -/
def target (config : SchedulerConfig) (isDl : Bool) (t : FrameTiming) : FrameTiming :=
  if isDl then t else t.plus config.schedulingOffsetSlots

def pduOfPiece (P : Platform) (cell : CellContext) (p : Carve.Piece (SchedulingDecision D)) :
    Option TtiPdu :=
  (cell.ueRepo.ue? p.item.rnti).map fun ue ↦
    pduOf (DefaultResourceAllocator.record P p.item ue cell ⟨p.start, p.width⟩) ue

/-- The transmissions of a direction for a ranking of its candidates. -/
def grantedPdus (config : SchedulerConfig) (P : Platform) (cell : CellContext) (isDl : Bool)
    (ranked : List (SchedulingDecision D)) : List TtiPdu :=
  (Carve.carve (demand P cell) cell.config.numRbs (config.limit isDl) 0 ranked).filterMap
    (pduOfPiece P cell)

/-- The request that carries them; without transmissions there is none. -/
def requests (config : SchedulerConfig) (P : Platform) (cell : CellContext) (isDl : Bool)
    (t : FrameTiming) (ranked : List (SchedulingDecision D)) : List TtiRequest :=
  if grantedPdus config P cell isDl ranked = [] then []
  else [⟨isDl, target config isDl t, cell.config.cellId,
    grantedPdus config P cell isDl ranked⟩]

theorem pdusOf_grants (config : SchedulerConfig) (P : Platform) (cell : CellContext)
    (isDl : Bool) (ranked : List (SchedulingDecision D)) :
    pdusOf cell (grants P cell (config.limit isDl) 0 ranked) =
      grantedPdus config P cell isDl ranked := by
  rw [pdusOf, grants, List.filterMap_map, grantedPdus]
  congr 1
  funext p
  rw [Function.comp_apply, rnti_grantOf, pduOfPiece, grantOf]
  cases cell.ueRepo.ue? p.item.rnti with
  | none => rw [Option.map_none, Option.map_none]
  | some ue => rw [Option.map_some, Option.map_some]

theorem buildFor_ok {e e' : SchedulerEngine π D} {cell cell' : CellContext} {isDl : Bool}
    {ds : List (SchedulingDecision D)}
    (h : (e.buildFor cell isDl ds).run none = .ok (cell', e')) :
    let r := ⟨isDl, target e.config isDl cell.currentSlot.timing, cell.config.cellId,
      pdusOf cell ds⟩
    (pdusOf cell ds ≠ [] → cell.currentSlot.timing.slotsPerFrame ≠ 0) ∧
      cell' = cell.countRequest r ∧ e' = e.record r := by
  have hbuild : (e.buildTtiRequest cell isDl (target e.config isDl cell.currentSlot.timing)
      ds).run none = .ok (cell', e') := by
    cases isDl with
    | true => exact h
    | false =>
        obtain ⟨timing, hadvance, hrest⟩ := run_bind_eq_ok.mp h
        rw [FrameTiming.advanced] at hadvance
        split at hadvance
        · cases hadvance
        · cases hadvance
          exact hrest
  have hspf : (target e.config isDl cell.currentSlot.timing).slotsPerFrame =
      cell.currentSlot.timing.slotsPerFrame := by
    cases isDl <;> rfl
  rw [buildTtiRequest_run, hspf] at hbuild
  split at hbuild
  · cases hbuild
  · rename_i hnot
    cases hbuild
    exact ⟨fun hpdus hzero ↦ hnot ⟨hzero, hpdus⟩, rfl, rfl⟩

variable [Double D] [IPolicyManager π D]

omit [IPolicyManager π D] in
theorem grantedPdus_eq_nil {e : SchedulerEngine π D} {P : Platform} {cell : CellContext}
    {isDl : Bool} {ranked : List (SchedulingDecision D)} (h : e.IsRanking P cell isDl ranked) :
    grantedPdus e.config P cell isDl ranked = [] ↔
      Carve.carve (demand P cell) cell.config.numRbs (e.config.limit isDl) 0 ranked = [] := by
  rw [grantedPdus, List.filterMap_eq_nil_iff]
  constructor
  · intro hnone
    apply List.eq_nil_iff_forall_not_mem.mpr
    intro p hp
    have hitem : p.item ∈ ranked := Carve.items_sublist.subset (List.mem_map_of_mem hp)
    obtain ⟨ue, hue, _⟩ := h.mem hitem
    have hpiece := hnone p hp
    rw [pduOfPiece, hue] at hpiece
    cases hpiece
  · intro hnil p hp
    rw [hnil] at hp
    cases hp

/-- The requests of a direction in a slot, where the direction is open. -/
def openRequests (slot : SlotContext) (config : SchedulerConfig) (P : Platform)
    (cell : CellContext) (isDl : Bool) (t : FrameTiming)
    (ranked : List (SchedulingDecision D)) : List TtiRequest :=
  if slot.canSchedule isDl then requests config P cell isDl t ranked else []

/-- What serving one direction leaves behind: `reqs` are the requests it sent. -/
structure ServeOutcome (e : SchedulerEngine π D) (P : Platform) (cell : CellContext)
    (isDl : Bool) (reqs : List TtiRequest) (cell' : CellContext) (e' : SchedulerEngine π D) :
    Prop where
  ranking : ∃ ranked, e.IsRanking P cell isDl ranked ∧
    reqs = openRequests cell.currentSlot e.config P cell isDl cell.currentSlot.timing ranked
  fits : reqs ≠ [] → cell.config.numRbs ≤ 273 ∧ cell.currentSlot.timing.slotsPerFrame ≠ 0
  cellConfig : cell'.config = cell.config
  ueRepo : cell'.ueRepo = cell.ueRepo
  timing : cell'.currentSlot.timing = cell.currentSlot.timing
  canSchedule : ∀ d, cell'.currentSlot.canSchedule d = cell.currentSlot.canSchedule d
  grid : cell'.currentSlot.grid (!isDl) = cell.currentSlot.grid (!isDl)
  config : e'.config = e.config
  cells : e'.cells = e.cells
  sliceOrchestrator : e'.sliceOrchestrator = e.sliceOrchestrator
  created : e'.created = e.created
  sent : e'.sent = e.sent ++ reqs
  tracker : e'.harqTracker = e.harqTracker.registerRequests e.sent.length reqs

omit [IPolicyManager π D] in
theorem ServeOutcome.of_requests {e : SchedulerEngine π D} {P : Platform} {cell : CellContext}
    {isDl : Bool} {ranked : List (SchedulingDecision D)} {reqs : List TtiRequest}
    (g : ResourceGrid) (policy : π) (qos : QosEngine D) (failures : ℕ)
    (hranking : e.IsRanking P cell isDl ranked)
    (hreqs : reqs =
      openRequests cell.currentSlot e.config P cell isDl cell.currentSlot.timing ranked)
    (hfits : reqs ≠ [] →
      cell.config.numRbs ≤ 273 ∧ cell.currentSlot.timing.slotsPerFrame ≠ 0) :
    e.ServeOutcome P cell isDl reqs
      (reqs.foldl CellContext.countRequest (cell.setGrid isDl g))
      (recordAll { e with
        policyManager := policy
        qosEngine := qos
        stats := { e.stats with allocationFailures := failures } } reqs) := by
  have hspec := fun d ↦ (cell.setGrid isDl g).countRequests_spec reqs d
  rw [recordAll_spec]
  constructor
  case ranking => exact ⟨ranked, hranking, hreqs⟩
  case fits => exact hfits
  case cellConfig => exact (hspec isDl).1
  case ueRepo => exact (hspec isDl).2.1
  case timing => exact (hspec isDl).2.2.1.trans (cell.currentSlot.timing_setGrid isDl g)
  case canSchedule =>
    intro d
    exact (hspec d).2.2.2.1.trans (cell.currentSlot.canSchedule_setGrid isDl d g)
  case grid =>
    exact (hspec (!isDl)).2.2.2.2.trans (cell.currentSlot.grid_setGrid_not isDl g)
  all_goals rfl

/-- Serving one direction takes blocks of its grid and then counts and records the requests. -/
theorem serve_eq {e e' : SchedulerEngine π D} {P : Platform} {cell cell' : CellContext}
    {isDl : Bool} (hnum : (cell.currentSlot.grid isDl).numRbs = cell.config.numRbs)
    (hfree : DefaultResourceAllocator.FreeFrom (cell.currentSlot.grid isDl) 0)
    (h : (e.serve P cell isDl).run none = .ok (cell', e')) :
    ∃ ranked reqs g policy qos failures, e.IsRanking P cell isDl ranked ∧
      reqs = openRequests cell.currentSlot e.config P cell isDl cell.currentSlot.timing ranked ∧
      (reqs ≠ [] → cell.config.numRbs ≤ 273 ∧ cell.currentSlot.timing.slotsPerFrame ≠ 0) ∧
      cell' = reqs.foldl CellContext.countRequest (cell.setGrid isDl g) ∧
      e' = recordAll { e with
        policyManager := policy
        qosEngine := qos
        stats := { e.stats with allocationFailures := failures } } reqs := by
  rw [serve] at h
  cases hopen : cell.currentSlot.canSchedule isDl with
  | false =>
      rw [hopen] at h
      cases h
      refine ⟨e.candidates P cell isDl, [], cell.currentSlot.grid isDl, e.policyManager,
        e.qosEngine, e.stats.allocationFailures, isRanking_candidates, ?_,
        fun hne ↦ (hne rfl).elim, (cell.setGrid_grid isDl).symm, rfl⟩
      simp [openRequests, hopen]
  | true =>
      rw [hopen, if_pos rfl] at h
      have hschedule : e.scheduleFor P cell isDl = e.schedule P cell isDl := by
        cases isDl <;> rfl
      rw [hschedule] at h
      obtain ⟨⟨ds, cell₁, e₁⟩, hrun, hrest⟩ := run_bind_eq_ok.mp h
      obtain ⟨ranked, g, policy, qos, failures, hranking, hds, hle, rfl, rfl⟩ :=
        schedule_ok hnum hfree hrun
      have hpdus : pdusOf cell ds = grantedPdus e.config P cell isDl ranked := by
        rw [hds, pdusOf_grants]
      simp only at hrest
      by_cases hnil : ds = []
      · rw [if_pos hnil] at hrest
        cases hrest
        have hnone : grantedPdus e.config P cell isDl ranked = [] := by
          rw [← hpdus, hnil]
          rfl
        refine ⟨ranked, [], g, policy, qos, failures, hranking, ?_, fun hne ↦ (hne rfl).elim,
          rfl, rfl⟩
        rw [openRequests, hopen, if_pos rfl, requests, if_pos hnone]
      · rw [if_neg hnil] at hrest
        obtain ⟨hspf, rfl, rfl⟩ := buildFor_ok hrest
        have hsome : grantedPdus e.config P cell isDl ranked ≠ [] := by
          intro hpieces
          have hcarve := (grantedPdus_eq_nil hranking).mp hpieces
          rw [hds, grants, hcarve] at hnil
          exact hnil rfl
        have hsent : pdusOf (cell.setGrid isDl g) ds =
            grantedPdus e.config P cell isDl ranked := hpdus
        have htiming : (cell.setGrid isDl g).currentSlot.timing = cell.currentSlot.timing :=
          cell.currentSlot.timing_setGrid isDl g
        rw [hsent, htiming] at hspf ⊢
        refine ⟨ranked, [⟨isDl, target e.config isDl cell.currentSlot.timing,
          cell.config.cellId, grantedPdus e.config P cell isDl ranked⟩], g, policy, qos, failures,
          hranking, ?_, fun _ ↦ ⟨hle hnil, hspf hsome⟩, rfl, rfl⟩
        rw [openRequests, hopen, if_pos rfl, requests, if_neg hsome]

theorem serve_ok {e e' : SchedulerEngine π D} {P : Platform} {cell cell' : CellContext}
    {isDl : Bool} (hnum : (cell.currentSlot.grid isDl).numRbs = cell.config.numRbs)
    (hfree : DefaultResourceAllocator.FreeFrom (cell.currentSlot.grid isDl) 0)
    (h : (e.serve P cell isDl).run none = .ok (cell', e')) :
    ∃ reqs, e.ServeOutcome P cell isDl reqs cell' e' := by
  obtain ⟨ranked, reqs, g, policy, qos, failures, hranking, hreqs, hfits, rfl, rfl⟩ :=
    serve_eq hnum hfree h
  exact ⟨reqs, .of_requests g policy qos failures hranking hreqs hfits⟩

/-! ## The whole slot -/

/-- What a slot indication for a known cell leaves behind: `dl` and `ul` are the requests
it sent, and everything else follows from them. -/
structure SlotOutcome (e : SchedulerEngine π D) (P : Platform) (cellId : CellId)
    (t : FrameTiming) (cell : CellContext) (slot : SlotContext) (dl ul : List TtiRequest)
    (e' : SchedulerEngine π D) : Prop where
  lookup : e.cells.lookup cellId = some cell
  start : (cell.currentSlot.initializeSlot cell.config t).run none = .ok slot
  dl_eq : ∃ ranked, e.IsRanking P cell true ranked ∧
    dl = openRequests slot e.config P cell true t ranked
  ul_eq : ∃ ranked, e.IsRanking P cell false ranked ∧
    ul = openRequests slot e.config P cell false t ranked
  fits : dl ++ ul ≠ [] → cell.config.numRbs ≤ 273 ∧ t.slotsPerFrame ≠ 0
  cells : ∃ cell', e'.cells = e.cells.insert cellId cell' ∧ cell'.config = cell.config ∧
    cell'.ueRepo = cell.ueRepo
  sent : e'.sent = e.sent ++ (dl ++ ul)
  tracker : e'.harqTracker = e.harqTracker.registerRequests e.sent.length (dl ++ ul)
  config : e'.config = e.config
  created : e'.created = e.created

omit [IPolicyManager π D] in
theorem IsRanking.congr {e e₁ : SchedulerEngine π D} {P : Platform} {cell cell₁ : CellContext}
    {isDl : Bool} {ranked : List (SchedulingDecision D)}
    (h : e₁.IsRanking P cell₁ isDl ranked) (hconfig : e₁.config = e.config)
    (hallows : e₁.sliceOrchestrator.allows = e.sliceOrchestrator.allows)
    (hrepo : cell₁.ueRepo = cell.ueRepo) : e.IsRanking P cell isDl ranked := by
  have heligible : e₁.isEligible isDl = e.isEligible isDl := by
    funext ue
    rw [isEligible, isEligible, hconfig, hallows]
  rw [IsRanking, candidates, heligible, hconfig, hrepo] at h
  exact h

omit [Double D] [IPolicyManager π D] in
theorem openRequests_congr {slot slot₁ : SlotContext} {config : SchedulerConfig}
    {P : Platform} {cell cell₁ : CellContext} {isDl : Bool} {t : FrameTiming}
    {ranked : List (SchedulingDecision D)}
    (hopen : slot₁.canSchedule isDl = slot.canSchedule isDl)
    (hrepo : cell₁.ueRepo = cell.ueRepo) (hconfig : cell₁.config = cell.config) :
    openRequests slot₁ config P cell₁ isDl t ranked =
      openRequests slot config P cell isDl t ranked := by
  have hdemand : demand P cell₁ = (demand P cell : SchedulingDecision D → ℕ) := by
    funext d
    simp only [demand, DefaultResourceAllocator.requiredRbs, DefaultResourceAllocator.layers,
      hrepo, hconfig]
  have hpiece : pduOfPiece P cell₁ =
      (pduOfPiece P cell : Carve.Piece (SchedulingDecision D) → Option TtiPdu) := by
    funext p
    simp only [pduOfPiece, DefaultResourceAllocator.record, DefaultResourceAllocator.layers,
      hrepo, hconfig]
  rw [openRequests, openRequests, hopen, requests, requests, grantedPdus, grantedPdus, hdemand,
    hpiece, hconfig]

theorem onSlotIndication_skipped {e : SchedulerEngine π D} {cellId : CellId}
    (hlookup : e.cells.lookup cellId = none) (P : Platform) (t : FrameTiming) :
    (e.onSlotIndication P cellId t).run none = .ok { e with
      stats := { e.stats with slotsSkipped := e.stats.slotsSkipped + 1 } } := by
  rw [onSlotIndication, withLock_run_none, hlookup]
  exact run_pure_eq_ok.mpr rfl

/-- The slot of a known cell is begun, and then the downlink and the uplink are served. -/
theorem onSlotIndication_served {e e' : SchedulerEngine π D} {P : Platform} {cellId : CellId}
    {t : FrameTiming} {cell : CellContext} (hlookup : e.cells.lookup cellId = some cell)
    (h : (e.onSlotIndication P cellId t).run none = .ok e') :
    ∃ slot slices qos slices' cell₂ e₂ cell₃ e₃,
      (cell.currentSlot.initializeSlot cell.config t).run none = .ok slot ∧
      slices.allows = e.sliceOrchestrator.allows ∧
      ({ e with
        policyManager := IPolicyManager.onSlotStart D e.policyManager t
        sliceOrchestrator := slices
        qosEngine := qos }.serve P { cell with currentSlot := slot } true).run none =
          .ok (cell₂, e₂) ∧
      (e₂.serve P cell₂ false).run none = .ok (cell₃, e₃) ∧
      e' = { e₃ with
        cells := e₃.cells.insert cellId cell₃.countSlot
        sliceOrchestrator := slices'
        stats := { e₃.stats with slotsProcessed := e₃.stats.slotsProcessed + 1 } } := by
  rw [onSlotIndication, withLock_run_none, hlookup] at h
  obtain ⟨cell₁, hadvance, h⟩ := run_bind_eq_ok.mp h
  obtain ⟨slot, hstart, hcell₁⟩ := run_bind_eq_ok.mp hadvance
  cases hcell₁
  obtain ⟨slices, hslices, h⟩ := run_bind_eq_ok.mp h
  obtain ⟨qos, _, h⟩ := run_bind_eq_ok.mp h
  obtain ⟨⟨cell₄, e₄⟩, hprocess, h⟩ := run_bind_eq_ok.mp h
  cases h
  obtain ⟨⟨cell₂, e₂⟩, hdl, hprocess⟩ := run_bind_eq_ok.mp hprocess
  obtain ⟨⟨cell₃, e₃⟩, hul, hprocess⟩ := run_bind_eq_ok.mp hprocess
  obtain ⟨slices', _, hprocess⟩ := run_bind_eq_ok.mp hprocess
  cases hprocess
  exact ⟨slot, slices, qos, slices', cell₂, e₂, cell₃, e₃, hstart,
    SliceOrchestrator.onSlotStart_ok hslices, hdl, hul, rfl⟩

/-- A slot returns once its parts do. -/
theorem onSlotIndication_of_served {e e₂ e₃ : SchedulerEngine π D} {P : Platform}
    {cellId : CellId} {t : FrameTiming} {cell cell₂ cell₃ : CellContext} {slot : SlotContext}
    {slices slices' : SliceOrchestrator D} {qos : QosEngine D}
    (hlookup : e.cells.lookup cellId = some cell)
    (hstart : (cell.currentSlot.initializeSlot cell.config t).run none = .ok slot)
    (hslices : (e.sliceOrchestrator.onSlotStart t).run none = .ok slices)
    (hqos : (e.qosEngine.onSlotTick P).run none = .ok qos)
    (hdl : ({ e with
      policyManager := IPolicyManager.onSlotStart D e.policyManager t
      sliceOrchestrator := slices
      qosEngine := qos }.serve P { cell with currentSlot := slot } true).run none =
        .ok (cell₂, e₂))
    (hul : (e₂.serve P cell₂ false).run none = .ok (cell₃, e₃))
    (hend : (e₃.sliceOrchestrator.onSlotEnd P).run none = .ok slices') :
    (e.onSlotIndication P cellId t).run none = .ok { e₃ with
      cells := e₃.cells.insert cellId cell₃.countSlot
      sliceOrchestrator := slices'
      stats := { e₃.stats with slotsProcessed := e₃.stats.slotsProcessed + 1 } } := by
  have hadvance : (cell.advanceToSlot t).run none = .ok { cell with currentSlot := slot } :=
    run_bind_of_ok hstart
  have hprocess : (processSlot { e with
      policyManager := IPolicyManager.onSlotStart D e.policyManager t
      sliceOrchestrator := slices
      qosEngine := qos } P { cell with currentSlot := slot }).run none =
        .ok (cell₃.countSlot, { e₃ with sliceOrchestrator := slices' }) := by
    refine (run_bind_of_ok hdl).trans ?_
    exact (run_bind_of_ok hul).trans (run_bind_of_ok hend)
  rw [onSlotIndication, withLock_run_none, hlookup]
  refine (run_bind_of_ok hadvance).trans ?_
  refine (run_bind_of_ok hslices).trans ?_
  refine (run_bind_of_ok hqos).trans ?_
  exact run_bind_of_ok hprocess

omit [IPolicyManager π D] in
/-- Serving the downlink leaves the grid of the uplink as it was created. -/
theorem ServeOutcome.grid_create {e e' : SchedulerEngine π D} {P : Platform}
    {cell cell' : CellContext} {reqs : List TtiRequest} {numSymbols : ℕ}
    (h : e.ServeOutcome P cell true reqs cell' e')
    (hgrid : cell.currentSlot.grid false = .create cell.config.numRbs numSymbols) :
    cell'.currentSlot.grid false = .create cell'.config.numRbs numSymbols := by
  rw [h.cellConfig]
  exact h.grid.trans hgrid

/-- A direction whose grid was just created can be served. -/
theorem serve_ok_of_create {e e' : SchedulerEngine π D} {P : Platform}
    {cell cell' : CellContext} {isDl : Bool} {numSymbols : ℕ}
    (hgrid : cell.currentSlot.grid isDl = .create cell.config.numRbs numSymbols)
    (h : (e.serve P cell isDl).run none = .ok (cell', e')) :
    ∃ reqs, e.ServeOutcome P cell isDl reqs cell' e' := by
  apply serve_ok
  · rw [hgrid]
    rfl
  · rw [hgrid]
    exact DefaultResourceAllocator.freeFrom_create _ _
  · exact h

/-- A slot indication either is for an unknown cell, or has the outcome above. -/
theorem onSlotIndication_ok {e e' : SchedulerEngine π D} {P : Platform} {cellId : CellId}
    {t : FrameTiming} (h : (e.onSlotIndication P cellId t).run none = .ok e') :
    (e.cells.lookup cellId = none ∧ e' = { e with
      stats := { e.stats with slotsSkipped := e.stats.slotsSkipped + 1 } }) ∨
    ∃ cell slot dl ul, e.SlotOutcome P cellId t cell slot dl ul e' := by
  cases hlookup : e.cells.lookup cellId with
  | none =>
      rw [onSlotIndication_skipped hlookup] at h
      exact Or.inl ⟨rfl, (Except.ok.inj h).symm⟩
  | some cell =>
      right
      obtain ⟨slot, slices, qos, slices', cell₂, e₂, cell₃, e₃, hstart, hallows, hdl, hul, rfl⟩ :=
        onSlotIndication_served hlookup h
      obtain ⟨htiming, hgrid⟩ := SlotContext.initializeSlot_ok hstart
      -- the downlink is served on a fresh grid, and the uplink on one it did not touch
      obtain ⟨dl, hdl⟩ := serve_ok_of_create (hgrid true) hdl
      obtain ⟨ul, hul⟩ := serve_ok_of_create (hdl.grid_create (hgrid false)) hul
      refine ⟨cell, slot, dl, ul, ?_⟩
      constructor
      case lookup => exact hlookup
      case start => exact hstart
      case dl_eq =>
        obtain ⟨ranked, hranking, hreqs⟩ := hdl.ranking
        refine ⟨ranked, hranking.congr rfl hallows rfl, ?_⟩
        rw [hreqs, htiming]
        exact openRequests_congr rfl rfl rfl
      case ul_eq =>
        obtain ⟨ranked, hranking, hreqs⟩ := hul.ranking
        have hgate : e₂.sliceOrchestrator.allows = e.sliceOrchestrator.allows :=
          (congrArg SliceOrchestrator.allows hdl.sliceOrchestrator).trans hallows
        refine ⟨ranked, hranking.congr hdl.config hgate hdl.ueRepo, ?_⟩
        rw [hreqs, hdl.timing, htiming, hdl.config]
        exact openRequests_congr (hdl.canSchedule false) hdl.ueRepo hdl.cellConfig
      case fits =>
        intro hne
        by_cases hdlNil : dl = []
        · have hulNe : ul ≠ [] := by
            rintro rfl
            exact hne (by rw [hdlNil]; rfl)
          have hfit := hul.fits hulNe
          rw [hdl.cellConfig, hdl.timing, htiming] at hfit
          exact hfit
        · have hfit := hdl.fits hdlNil
          rw [htiming] at hfit
          exact hfit
      case cells =>
        refine ⟨cell₃.countSlot, ?_, hul.cellConfig.trans hdl.cellConfig,
          hul.ueRepo.trans hdl.ueRepo⟩
        change e₃.cells.insert cellId cell₃.countSlot = _
        rw [hul.cells, hdl.cells]
      case sent =>
        change e₃.sent = _
        rw [hul.sent, hdl.sent, List.append_assoc]
      case tracker =>
        change e₃.harqTracker = _
        rw [hul.tracker, hdl.tracker, hdl.sent, List.length_append,
          HarqTimingTracker.registerRequests_append]
      case config => exact hul.config.trans hdl.config
      case created => exact hul.created.trans hdl.created

end SchedulerEngine

end NrScheduler
