import NrScheduler.Engine.Alike

/-!
# Slots of engines that look alike

As long as nothing is registered with the services, an engine ranks its candidates by its
policy alone: an unknown flow and an unknown slice weigh one.  Two engines that look alike
then take the same decisions, up to a mark that no request carries.
-/

namespace NrScheduler

open LockMonad

/-- Where the configurations differ the scheduler does not look, or learns nothing as long as
no flow and no slice is known. -/
structure SchedulerConfig.Alike (config config' : SchedulerConfig) : Prop where
  unseen : config' = { config with
    enableQos := config'.enableQos
    enableSlicing := config'.enableSlicing
    harqAckOffsetSlots := config'.harqAckOffsetSlots }

namespace SchedulerConfig.Alike

variable {config config' : SchedulerConfig}

theorem refl (config : SchedulerConfig) : config.Alike config := ⟨rfl⟩

theorem symm (h : config.Alike config') : config'.Alike config := ⟨by rw [h.unseen]⟩

variable (h : config.Alike config')

include h

theorem strategy : config'.strategy = config.strategy :=
  (congrArg SchedulerConfig.strategy h.unseen).trans rfl

theorem harqRetxPriority : config'.harqRetxPriority = config.harqRetxPriority :=
  (congrArg SchedulerConfig.harqRetxPriority h.unseen).trans rfl

theorem schedulingOffsetSlots : config'.schedulingOffsetSlots = config.schedulingOffsetSlots :=
  (congrArg SchedulerConfig.schedulingOffsetSlots h.unseen).trans rfl

theorem limit (isDl : Bool) : config'.limit isDl = config.limit isDl :=
  (congrArg (SchedulerConfig.limit · isDl) h.unseen).trans rfl

end SchedulerConfig.Alike

/-- The decisions differ at most in the mark of the QoS engine. -/
def SchedulingDecision.Alike {D : Type} (d d' : SchedulingDecision D) : Prop :=
  d' = { d with qosPriority := d'.qosPriority }

namespace SchedulingDecision.Alike

variable {D : Type} {d d' : SchedulingDecision D}

theorem refl (d : SchedulingDecision D) : d.Alike d := rfl

theorem rnti (h : d.Alike d') : d'.rnti = d.rnti :=
  (congrArg SchedulingDecision.rnti h).trans rfl

theorem bufferBytes (h : d.Alike d') : d'.bufferBytes = d.bufferBytes :=
  (congrArg SchedulingDecision.bufferBytes h).trans rfl

theorem priorityMetric (h : d.Alike d') : d'.priorityMetric = d.priorityMetric :=
  (congrArg SchedulingDecision.priorityMetric h).trans rfl

theorem tbConfig (h : d.Alike d') : d'.tbConfig = d.tbConfig :=
  (congrArg SchedulingDecision.tbConfig h).trans rfl

theorem setRank (h : d.Alike d') (rank : D) (q q' : ℕ) :
    ({ d with priorityMetric := rank, qosPriority := q } : SchedulingDecision D).Alike
      { d' with priorityMetric := rank, qosPriority := q' } := by
  rw [Alike] at h ⊢
  rw [h]

theorem boostRetx [Double D] (h : d.Alike d') :
    (SchedulerEngine.boostRetx d).Alike (SchedulerEngine.boostRetx d') := by
  rw [h, SchedulerEngine.boostRetx, SchedulerEngine.boostRetx]
  split
  · exact rfl
  · exact rfl

theorem pduOf (h : d.Alike d') {ue ue' : UeContext} (hue : ue.Alike ue') :
    SchedulerEngine.pduOf d' ue' = SchedulerEngine.pduOf d ue := by
  rw [h, SchedulerEngine.pduOf, hue.ptr]
  rfl

end SchedulingDecision.Alike

/-- The orchestrators know the same slices and associations. -/
def SliceOrchestrator.Registers {D : Type} (o o' : SliceOrchestrator D) : Prop :=
  o.sliceConfigs = o'.sliceConfigs ∧ o.ueSliceMap = o'.ueSliceMap

namespace SchedulerEngine

/-! ## Engines without flows and slices -/

variable {π D : Type}

/-- No slice is configured, and no user associated with one. -/
structure Unsliced (e : SchedulerEngine π D) : Prop where
  sliceConfigs : e.sliceOrchestrator.sliceConfigs = ∅
  ueSliceMap : e.sliceOrchestrator.ueSliceMap = ∅

/-- Nothing is registered with the services. -/
structure Idle (e : SchedulerEngine π D) : Prop extends Unsliced e where
  flows : e.qosEngine.flows = ∅

structure Alike (e f : SchedulerEngine π D) : Prop where
  config : e.config.Alike f.config
  cells : ∀ c, Option.Rel CellContext.Alike (e.cells.lookup c) (f.cells.lookup c)
  policyManager : f.policyManager = e.policyManager
  sent : f.sent = e.sent
  created : f.created = e.created
  idle : e.Idle
  idle' : f.Idle

theorem Unsliced.allows {e : SchedulerEngine π D} (h : e.Unsliced) (rnti : Rnti) (rbs : ℕ)
    (isDl : Bool) : e.sliceOrchestrator.allows rnti rbs isDl = true := by
  rw [SliceOrchestrator.allows, SliceOrchestrator.ueBudget, h.ueSliceMap, AList.lookup_empty]
  rfl

theorem Unsliced.isEligible {e : SchedulerEngine π D} (h : e.Unsliced) (isDl : Bool)
    (ue : UeContext) :
    e.isEligible isDl ue =
      (ue.isInActiveTime && (ue.hasData isDl || (ue.harq isDl).getRetxProcess.isSome)) := by
  rw [SchedulerEngine.isEligible, h.allows, Bool.or_true, Bool.and_true]

variable [UnitDouble D]

/-- The QoS engine finds no flow, so the rank stays that of the policy. -/
theorem Idle.rankByQos_run {e : SchedulerEngine π D} (h : e.Idle) (P : Platform)
    (ue : UeContext) (isDl : Bool) (base : D) (d : SchedulingDecision D) :
    ∃ q, (e.rankByQos P ue isDl base d).run none =
      .ok ({ d with priorityMetric := base, qosPriority := q }, e) := by
  rw [rankByQos]
  cases e.config.enableQos with
  | false => exact ⟨5, rfl⟩
  | true =>
      have hflow : ∀ rnti qfi, e.qosEngine.flow? rnti qfi = none := by
        intro rnti qfi
        rw [QosEngine.flow?, h.flows, AList.lookup_empty]
        rfl
      have hneutral : (e.qosEngine.calculatePriority P ue.rnti (ue.bestQfi P) isDl
          d.bufferBytes).run none = .ok (.neutral d.bufferBytes, e.qosEngine) := by
        rw [QosEngine.calculatePriority, withLock_run_none, hflow]
        exact rfl
      refine ⟨2, (run_bind_of_ok hneutral).trans ?_⟩
      rw [run_pure_eq_ok]
      exact congrArg (fun rank ↦ (({ d with
        priorityMetric := rank, qosPriority := 2 } : SchedulingDecision D), e))
        (UnitDouble.mul_one base)

theorem Idle.boostSlice_run {e : SchedulerEngine π D} (h : e.Idle) (ue : UeContext)
    (d : SchedulingDecision D) : (e.boostSlice ue d).run none = .ok d := by
  rw [boostSlice]
  cases e.config.enableSlicing with
  | false => exact rfl
  | true =>
      have hboost : (e.sliceOrchestrator.getPriorityBoost ue.rnti).run none =
          .ok (Double.ofNat 1) := by
        rw [SliceOrchestrator.getPriorityBoost, withLock_run_none, h.ueSliceMap,
          AList.lookup_empty]
        exact rfl
      refine (run_bind_of_ok hboost).trans ?_
      rw [run_pure_eq_ok]
      exact congrArg (fun rank ↦ { d with priorityMetric := rank })
        (UnitDouble.mul_one d.priorityMetric)

end SchedulerEngine

/-! ## The allocator -/

namespace DefaultResourceAllocator

variable {D : Type} {d d' : SchedulingDecision D} {cell cell' : CellContext}

theorem layers_alike {ue ue' : UeContext} (hue : ue.Alike ue')
    (hconfig : cell'.config = cell.config) : layers ue' cell' = layers ue cell := by
  rw [layers, layers, hue.dlChannelQuality, hconfig]

theorem record_alike (P : Platform) {ue ue' : UeContext} (hd : d.Alike d')
    (hue : ue.Alike ue') (hconfig : cell'.config = cell.config) (range : ResourceBlockRange) :
    (record P d ue cell range).Alike (record P d' ue' cell' range) := by
  rw [record, record, hd.tbConfig, hue.mcsFromCqi, layers_alike hue hconfig]
  rw [SchedulingDecision.Alike] at hd ⊢
  rw [hd]

theorem allocate_alike (P : Platform) (isDl : Bool) (hd : d.Alike d') (hcell : cell.Alike cell') :
    Coupled (Option.Rel fun p p' ↦ p.1.Alike p'.1 ∧ p.2.Alike p'.2) (allocate P d cell isDl)
      (allocate P d' cell' isDl) := by
  rw [allocate, allocate, hd.rnti]
  refine (hcell.ueRepo.findByRnti d.rnti).bind ?_
  rintro _ _ (hue | _)
  case none => exact .pure .none
  case some ue ue' =>
    have hmax : maxAllocatableRbsInternal cell' isDl = maxAllocatableRbsInternal cell isDl := by
      rw [maxAllocatableRbsInternal, maxAllocatableRbsInternal, hcell.currentSlot, hcell.config]
    have hrequired : requiredRbs P d'.bufferBytes ue' cell' =
        requiredRbs P d.bufferBytes ue cell := by
      rw [requiredRbs, requiredRbs, hd.bufferBytes, hue.mcsFromCqi,
        layers_alike hue hcell.config, hcell.config]
    simp only [hmax, hrequired, hcell.currentSlot]
    refine .bind_left fun maxRbs ↦ .ite Iff.rfl (fun _ ↦ .pure .none) fun _ ↦ ?_
    refine .bind_left fun first ↦ ?_
    -- both ways of finding the blocks go on in the same way
    cases first
    all_goals
      refine .bind_left fun range ↦ ?_
      cases range with
      | none => exact .pure .none
      | some range =>
          refine .bind_left fun taken ↦ .ite Iff.rfl (fun _ ↦ ?_) fun _ ↦ .pure .none
          exact .pure (.some ⟨record_alike P hd hue hcell.config range, hcell.setGrid isDl taken.2⟩)

end DefaultResourceAllocator
namespace SchedulerEngine

variable {π D : Type} {e f : SchedulerEngine π D} {cell cell' : CellContext}

theorem Idle.of_services (h : e.Idle) (hflows : f.qosEngine.flows = e.qosEngine.flows)
    (hconfigs : f.sliceOrchestrator.sliceConfigs = e.sliceOrchestrator.sliceConfigs)
    (hmap : f.sliceOrchestrator.ueSliceMap = e.sliceOrchestrator.ueSliceMap) : f.Idle :=
  ⟨⟨hconfigs.trans h.sliceConfigs, hmap.trans h.ueSliceMap⟩, hflows.trans h.flows⟩

namespace Alike

theorem symm (h : e.Alike f) : f.Alike e where
  config := h.config.symm
  cells c := by
    have hcells := h.cells c
    generalize e.cells.lookup c = found at hcells ⊢
    generalize f.cells.lookup c = found' at hcells ⊢
    cases hcells with
    | none => exact .none
    | some hcell => exact .some hcell.symm
  policyManager := h.policyManager.symm
  sent := h.sent.symm
  created := h.created.symm
  idle := h.idle'
  idle' := h.idle

theorem setPolicyManager (h : e.Alike f) {policy policy' : π} (hpolicy : policy' = policy) :
    Alike { e with policyManager := policy } { f with policyManager := policy' } where
  config := h.config
  cells := h.cells
  policyManager := hpolicy
  sent := h.sent
  created := h.created
  idle := h.idle.of_services rfl rfl rfl
  idle' := h.idle'.of_services rfl rfl rfl

theorem setStats (h : e.Alike f) (stats stats' : Statistics) :
    Alike { e with stats := stats } { f with stats := stats' } where
  config := h.config
  cells := h.cells
  policyManager := h.policyManager
  sent := h.sent
  created := h.created
  idle := h.idle.of_services rfl rfl rfl
  idle' := h.idle'.of_services rfl rfl rfl

theorem setRunning (h : e.Alike f) (running running' : Bool) :
    Alike { e with running := running } { f with running := running' } where
  config := h.config
  cells := h.cells
  policyManager := h.policyManager
  sent := h.sent
  created := h.created
  idle := h.idle.of_services rfl rfl rfl
  idle' := h.idle'.of_services rfl rfl rfl

theorem setCell (h : e.Alike f) (cellId : CellId) (hcell : cell.Alike cell') :
    (e.setCell cellId cell).Alike (f.setCell cellId cell') where
  config := h.config
  cells c := by
    rw [SchedulerEngine.setCell, SchedulerEngine.setCell]
    by_cases hc : c = cellId
    · rw [hc, AList.lookup_insert, AList.lookup_insert]
      exact .some hcell
    · rw [AList.lookup_insert_ne hc, AList.lookup_insert_ne hc]
      exact h.cells c
  policyManager := h.policyManager
  sent := h.sent
  created := h.created
  idle := h.idle.of_services rfl rfl rfl
  idle' := h.idle'.of_services rfl rfl rfl

theorem record (h : e.Alike f) (r : TtiRequest) : (e.record r).Alike (f.record r) where
  config := h.config
  cells := h.cells
  policyManager := h.policyManager
  sent := congrArg (· ++ [r]) h.sent
  created := h.created
  idle := h.idle.of_services rfl rfl rfl
  idle' := h.idle'.of_services rfl rfl rfl

/-! ## Candidates -/

theorem isEligible (h : e.Alike f) (isDl : Bool) {ue ue' : UeContext} (hue : ue.Alike ue') :
    f.isEligible isDl ue' = e.isEligible isDl ue := by
  rw [h.idle.isEligible, h.idle'.isEligible, hue.isInActiveTime, hue.hasData, hue.harq]

theorem candidate [Double D] {config config' : SchedulerConfig} (h : config.Alike config')
    (P : Platform) (isDl : Bool) {ue ue' : UeContext} (hue : ue.Alike ue') :
    (SchedulerEngine.candidate config' P isDl ue' : Option (SchedulingDecision D)) =
      SchedulerEngine.candidate config P isDl ue := by
  rw [SchedulerEngine.candidate, SchedulerEngine.candidate, h.harqRetxPriority, hue.rnti,
    hue.harq, hue.hasData, hue.newTxBytes]

/-- The candidates of both engines are the same, in the same order. -/
theorem candidates [Double D] (h : e.Alike f) {P : Platform} (hP : P.Oblivious) (isDl : Bool)
    (hcell : cell.Alike cell') :
    f.candidates P cell' isDl = e.candidates P cell isDl := by
  rw [SchedulerEngine.candidates, SchedulerEngine.candidates]
  have husers := hcell.ueRepo.users hP
  generalize cell.ueRepo.users P = users at husers ⊢
  generalize cell'.ueRepo.users P = users' at husers ⊢
  induction husers with
  | nil => rfl
  | @cons ue ue' ues ues' hue _ ih =>
      rw [List.filter_cons, List.filter_cons, h.isEligible isDl hue]
      cases e.isEligible isDl ue with
      | false => exact ih
      | true =>
          rw [if_pos rfl, if_pos rfl, List.filterMap_cons, List.filterMap_cons, ih,
            candidate h.config P isDl hue]

/-! ## Ranking -/

variable [UnitDouble D] {d d' : SchedulingDecision D}

theorem rankByQos (h : e.Alike f) (P : Platform) (isDl : Bool) (ue ue' : UeContext) (base : D)
    (hd : d.Alike d') :
    Coupled (fun p p' ↦ p.1.Alike p'.1 ∧ p.2.Alike p'.2)
      (e.rankByQos P ue isDl base d) (f.rankByQos P ue' isDl base d') := by
  obtain ⟨q, hq⟩ := h.idle.rankByQos_run P ue isDl base d
  obtain ⟨q', hq'⟩ := h.idle'.rankByQos_run P ue' isDl base d'
  exact .of_ok hq hq' ⟨hd.setRank base q q', h⟩

theorem boostSlice (h : e.Alike f) (ue ue' : UeContext) (hd : d.Alike d') :
    Coupled SchedulingDecision.Alike (e.boostSlice ue d) (f.boostSlice ue' d') :=
  .of_ok (h.idle.boostSlice_run ue d) (h.idle'.boostSlice_run ue' d') hd

variable [IPolicyManager π D] [ReadsAlike π D]

theorem calculatePriority (h : e.Alike f) (P : Platform) (isDl : Bool)
    (hcell : cell.Alike cell') (hd : d.Alike d') :
    Coupled (fun p p' ↦ p.1.Alike p'.1 ∧ p.2.Alike p'.2)
      (e.calculatePriority P cell isDl d) (f.calculatePriority P cell' isDl d') := by
  obtain ⟨mark, rfl⟩ : ∃ mark, d' = { d with qosPriority := mark } := ⟨_, hd⟩
  rw [SchedulerEngine.calculatePriority, SchedulerEngine.calculatePriority]
  refine (hcell.ueRepo.findByRnti d.rnti).bind ?_
  rintro _ _ (hue | _)
  case none => exact .pure ⟨rfl, h⟩
  case some ue ue' =>
    have hranked : (IPolicyManager.calculatePriority P f.policyManager ue' cell' isDl : D × π) =
        IPolicyManager.calculatePriority P e.policyManager ue cell isDl := by
      rw [h.policyManager]
      exact ReadsAlike.calculatePriority_eq P e.policyManager isDl hue hcell.config
    simp only [hranked]
    refine ((h.setPolicyManager rfl).rankByQos P isDl ue ue' _ hd).bind ?_
    rintro ⟨d₁, e₁⟩ ⟨d₁', f₁⟩ ⟨hd₁, h₁⟩
    refine (h₁.boostSlice ue ue' hd₁.boostRetx).bind ?_
    exact fun d₂ d₂' hd₂ ↦ .pure ⟨hd₂, h₁⟩

theorem calculatePriorities (P : Platform) (isDl : Bool) (hcell : cell.Alike cell')
    {ds ds' : List (SchedulingDecision D)} (hds : List.Forall₂ SchedulingDecision.Alike ds ds')
    (h : e.Alike f) :
    Coupled (fun p p' ↦ List.Forall₂ SchedulingDecision.Alike p.1 p'.1 ∧ p.2.Alike p'.2)
      (SchedulerEngine.calculatePriorities P cell isDl ds e)
      (SchedulerEngine.calculatePriorities P cell' isDl ds' f) := by
  induction hds generalizing e f with
  | nil => exact .pure ⟨.nil, h⟩
  | cons hd _ ih =>
      rw [SchedulerEngine.calculatePriorities, SchedulerEngine.calculatePriorities]
      refine (h.calculatePriority P isDl hcell hd).bind ?_
      rintro ⟨d₁, e₁⟩ ⟨d₁', f₁⟩ ⟨hd₁, h₁⟩
      refine (ih h₁).bind ?_
      rintro ⟨ds₁, e₂⟩ ⟨ds₁', f₂⟩ ⟨hds₁, h₂⟩
      exact .pure ⟨.cons hd₁ hds₁, h₂⟩

/-! ## Allocation -/

theorem allocateLoop (P : Platform) (isDl : Bool) {ds ds' : List (SchedulingDecision D)}
    (hds : List.Forall₂ SchedulingDecision.Alike ds ds')
    {done done' : List (SchedulingDecision D)}
    (hdone : List.Forall₂ SchedulingDecision.Alike done done') (hcell : cell.Alike cell')
    (h : e.Alike f) :
    Coupled (fun p p' ↦ List.Forall₂ SchedulingDecision.Alike p.1 p'.1 ∧
        p.2.1.Alike p'.2.1 ∧ p.2.2.Alike p'.2.2)
      (SchedulerEngine.allocateLoop P isDl ds done cell e)
      (SchedulerEngine.allocateLoop P isDl ds' done' cell' f) := by
  induction hds generalizing done done' cell cell' e f with
  | nil => exact .pure ⟨hdone, hcell, h⟩
  | @cons d d' _ _ hd _ ih =>
      rw [SchedulerEngine.allocateLoop, SchedulerEngine.allocateLoop]
      refine .ite (by rw [h.config.limit, hdone.length_eq])
        (fun _ ↦ .pure ⟨hdone, hcell, h⟩) fun _ ↦ ?_
      refine (DefaultResourceAllocator.allocate_alike P isDl hd hcell).bind ?_
      rintro _ _ (hgrant | _)
      case none => exact ih hdone hcell (h.setStats _ _)
      case some p p' =>
        obtain ⟨d₁, cell₁⟩ := p
        obtain ⟨d₁', cell₁'⟩ := p'
        obtain ⟨hd₁, hcell₁⟩ := hgrant
        obtain ⟨mark, rfl⟩ : ∃ mark, d₁' = { d₁ with qosPriority := mark } := ⟨_, hd₁⟩
        refine (hcell₁.ueRepo.findByRnti d₁.rnti).bind ?_
        rintro _ _ (hue | _)
        case none =>
          exact ih (List.rel_append hdone (.cons hd₁ .nil)) hcell₁
            (h.setPolicyManager h.policyManager)
        case some ue ue' =>
          refine ih (List.rel_append hdone (.cons hd₁ .nil)) hcell₁ (h.setPolicyManager ?_)
          rw [h.policyManager]
          exact ReadsAlike.updateHistory_eq (D := D) P e.policyManager _ hue

theorem schedule (h : e.Alike f) {P : Platform} (hP : P.Oblivious) (isDl : Bool)
    (hcell : cell.Alike cell') :
    Coupled (fun p p' ↦ List.Forall₂ SchedulingDecision.Alike p.1 p'.1 ∧
        p.2.1.Alike p'.2.1 ∧ p.2.2.Alike p'.2.2)
      (e.schedule P cell isDl) (f.schedule P cell' isDl) := by
  refine Coupled.congr ?_ (e.schedule_run P cell isDl) (f.schedule_run P cell' isDl)
  rw [h.candidates hP isDl hcell]
  have hsame : List.Forall₂ SchedulingDecision.Alike (e.candidates P cell isDl)
      (e.candidates P cell isDl) := List.forall₂_same.mpr fun d _ ↦ .refl d
  refine (calculatePriorities P isDl hcell hsame h).bind ?_
  rintro ⟨ds, e₁⟩ ⟨ds', f₁⟩ ⟨hds, h₁⟩
  refine allocateLoop P isDl (hP.sort_forall₂ hds ?_) .nil hcell h₁
  intro a b a' b' ha hb
  rw [ha.priorityMetric, hb.priorityMetric]

/-! ## Requests -/

omit [UnitDouble D] [IPolicyManager π D] [ReadsAlike π D] in
theorem pdusOf (hcell : cell.Alike cell') {ds ds' : List (SchedulingDecision D)}
    (hds : List.Forall₂ SchedulingDecision.Alike ds ds') :
    SchedulerEngine.pdusOf cell' ds' = SchedulerEngine.pdusOf cell ds := by
  induction hds with
  | nil => rfl
  | @cons d d' ds ds' hd _ ih =>
      have hue := hcell.ueRepo.ue? d.rnti
      rw [SchedulerEngine.pdusOf] at ih
      rw [SchedulerEngine.pdusOf, SchedulerEngine.pdusOf, List.filterMap_cons,
        List.filterMap_cons, hd.rnti, ih]
      generalize cell.ueRepo.ue? d.rnti = found at hue ⊢
      generalize cell'.ueRepo.ue? d.rnti = found' at hue ⊢
      cases hue with
      | none => rfl
      | some hue => rw [Option.map_some, Option.map_some, hd.pduOf hue, SchedulerEngine.pdusOf]

omit [UnitDouble D] [IPolicyManager π D] [ReadsAlike π D] in
theorem buildTtiRequest (h : e.Alike f) (hcell : cell.Alike cell') (isDl : Bool)
    (t : FrameTiming) {ds ds' : List (SchedulingDecision D)}
    (hds : List.Forall₂ SchedulingDecision.Alike ds ds') :
    Coupled (fun p p' ↦ p.1.Alike p'.1 ∧ p.2.Alike p'.2)
      (e.buildTtiRequest cell isDl t ds) (f.buildTtiRequest cell' isDl t ds') := by
  rw [Coupled, buildTtiRequest_run, buildTtiRequest_run, pdusOf hcell hds, hcell.config]
  split
  · exact .error _
  · exact .ok ⟨hcell.countRequest _, h.record _⟩

omit [UnitDouble D] [IPolicyManager π D] [ReadsAlike π D] in
theorem buildFor (h : e.Alike f) (hcell : cell.Alike cell') (isDl : Bool)
    {ds ds' : List (SchedulingDecision D)} (hds : List.Forall₂ SchedulingDecision.Alike ds ds') :
    Coupled (fun p p' ↦ p.1.Alike p'.1 ∧ p.2.Alike p'.2)
      (e.buildFor cell isDl ds) (f.buildFor cell' isDl ds') := by
  cases isDl with
  | true =>
      change Coupled _ (e.buildTtiRequest cell true cell.currentSlot.timing ds)
        (f.buildTtiRequest cell' true cell'.currentSlot.timing ds')
      rw [hcell.currentSlot]
      exact h.buildTtiRequest hcell true _ hds
  | false =>
      change Coupled _ (e.buildUlTtiRequest cell ds) (f.buildUlTtiRequest cell' ds')
      rw [buildUlTtiRequest, buildUlTtiRequest, hcell.currentSlot,
        h.config.schedulingOffsetSlots]
      exact .bind_left fun t ↦ h.buildTtiRequest hcell false t hds

/-! ## Slots -/

theorem serve (h : e.Alike f) {P : Platform} (hP : P.Oblivious) (isDl : Bool)
    (hcell : cell.Alike cell') :
    Coupled (fun p p' ↦ p.1.Alike p'.1 ∧ p.2.Alike p'.2)
      (e.serve P cell isDl) (f.serve P cell' isDl) := by
  rw [SchedulerEngine.serve, SchedulerEngine.serve, hcell.currentSlot]
  refine .ite Iff.rfl (fun _ ↦ ?_) fun _ ↦ .pure ⟨hcell, h⟩
  have hscheduled : Coupled (fun p p' ↦ List.Forall₂ SchedulingDecision.Alike p.1 p'.1 ∧
      p.2.1.Alike p'.2.1 ∧ p.2.2.Alike p'.2.2)
      (e.scheduleFor P cell isDl) (f.scheduleFor P cell' isDl) := by
    cases isDl with
    | true => exact h.schedule hP true hcell
    | false => exact h.schedule hP false hcell
  refine hscheduled.bind ?_
  rintro ⟨ds, cell₁, e₁⟩ ⟨ds', cell₁', f₁⟩ ⟨hds, hcell₁, h₁⟩
  refine .ite ?_ (fun _ ↦ .pure ⟨hcell₁, h₁⟩) fun _ ↦ h₁.buildFor hcell₁ isDl hds
  rw [← List.length_eq_zero_iff, ← List.length_eq_zero_iff, hds.length_eq]

omit [UnitDouble D] [IPolicyManager π D] [ReadsAlike π D] in
/-- What the services do in a slot registers nothing. -/
theorem setServices (h : e.Alike f) {qos qos' : QosEngine D}
    {slices slices' : SliceOrchestrator D} (hqos : qos.flows = ∅ ∧ qos'.flows = ∅)
    (hslices : slices.Registers e.sliceOrchestrator)
    (hslices' : slices'.Registers f.sliceOrchestrator) :
    Alike { e with qosEngine := qos, sliceOrchestrator := slices }
      { f with qosEngine := qos', sliceOrchestrator := slices' } where
  config := h.config
  cells := h.cells
  policyManager := h.policyManager
  sent := h.sent
  created := h.created
  idle := ⟨⟨hslices.1.trans h.idle.sliceConfigs, hslices.2.trans h.idle.ueSliceMap⟩, hqos.1⟩
  idle' := ⟨⟨hslices'.1.trans h.idle'.sliceConfigs, hslices'.2.trans h.idle'.ueSliceMap⟩, hqos.2⟩

omit [UnitDouble D] [IPolicyManager π D] [ReadsAlike π D] in
theorem onSlotTick (h : e.Alike f) (P : Platform) :
    Coupled (fun qos qos' ↦ qos.flows = ∅ ∧ qos'.flows = ∅) (e.qosEngine.onSlotTick P)
      (f.qosEngine.onSlotTick P) := by
  refine .pure ⟨?_, ?_⟩
  · change e.qosEngine.flows.mapValues _ = ∅
    rw [h.idle.flows]
    rfl
  · change f.qosEngine.flows.mapValues _ = ∅
    rw [h.idle'.flows]
    rfl

theorem processSlot (h : e.Alike f) {P : Platform} (hP : P.Oblivious)
    (hcell : cell.Alike cell') :
    Coupled (fun p p' ↦ p.1.Alike p'.1 ∧ p.2.Alike p'.2)
      (e.processSlot P cell) (f.processSlot P cell') := by
  refine (h.serve hP true hcell).bind ?_
  rintro ⟨cell₁, e₁⟩ ⟨cell₁', f₁⟩ ⟨hcell₁, h₁⟩
  refine (h₁.serve hP false hcell₁).bind ?_
  rintro ⟨cell₂, e₂⟩ ⟨cell₂', f₂⟩ ⟨hcell₂, h₂⟩
  exact .pure ⟨⟨hcell₂.config, hcell₂.currentSlot, hcell₂.ueRepo⟩,
    h₂.setServices ⟨h₂.idle.flows, h₂.idle'.flows⟩ ⟨rfl, rfl⟩ ⟨rfl, rfl⟩⟩

theorem onSlotIndication (h : e.Alike f) {P : Platform} (hP : P.Oblivious) (cellId : CellId)
    (t : FrameTiming) :
    Coupled Alike (e.onSlotIndication P cellId t) (f.onSlotIndication P cellId t) := by
  rw [SchedulerEngine.onSlotIndication, SchedulerEngine.onSlotIndication]
  refine .withLock _ ?_
  have hcells := h.cells cellId
  generalize e.cells.lookup cellId = found at hcells ⊢
  generalize f.cells.lookup cellId = found' at hcells ⊢
  cases hcells with
  | none => exact .pure (h.setStats _ _)
  | some hcell =>
      refine (hcell.advanceToSlot t).bind fun cell cell' hcell ↦ ?_
      refine Coupled.bind (R := fun slices slices' ↦ slices.Registers e.sliceOrchestrator ∧
        slices'.Registers f.sliceOrchestrator) (.pure ⟨⟨rfl, rfl⟩, ⟨rfl, rfl⟩⟩) ?_
      rintro slices slices' ⟨hslices, hslices'⟩
      refine (h.onSlotTick P).bind fun qos qos' hqos ↦ ?_
      have hpolicy : IPolicyManager.onSlotStart D f.policyManager t =
          IPolicyManager.onSlotStart D e.policyManager t := by rw [h.policyManager]
      have hstart := (h.setServices hqos hslices hslices').setPolicyManager hpolicy
      refine (hstart.processSlot hP hcell).bind ?_
      rintro ⟨cell₁, e₁⟩ ⟨cell₁', f₁⟩ ⟨hcell₁, h₁⟩
      exact .pure ((h₁.setCell cellId hcell₁).setStats _ _)

end Alike

end SchedulerEngine

end NrScheduler
