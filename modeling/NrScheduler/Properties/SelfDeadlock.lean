import NrScheduler.Engine.RunSpec
import NrScheduler.Services.Operations

/-!
# Threads that lock a mutex twice

The public operations of the engine and of the components that have a mutex of their own,
and which of them take a mutex that the calling thread already holds.
-/

namespace NrScheduler

open LockMonad

variable {π D : Type}

/-! ## Public operations -/

/-- A visitor of users that does not call back into the scheduler. -/
abbrev UeVisitor := {func : UeContext → Exec Unit // ∀ ue, Footprint ∅ (func ue)}

/-- The public operations of a user repository. -/
inductive UeRepository.Operation where
  | createUe (ptr : UePtr) (rnti : Rnti)
  | removeUe (rnti : Rnti)
  | findByRnti (rnti : Rnti)
  | findById (ueId : ℕ)
  | forEach (visitor : UeVisitor)
  | count

/-- The public operations of a HARQ timing tracker. -/
inductive HarqTimingTracker.Operation where
  | registerPending (expectedSlot : ℕ) (info : PendingFeedback)
  | findAndRemove (feedbackSlot : ℕ) (rnti : Rnti) (harqId : Option HarqId)
  | getAllForSlot (feedbackSlot : ℕ)
  | clearForUe (rnti : Rnti)

/-- An engine next to components that are used on their own. -/
structure Components (π D : Type) where
  engine : SchedulerEngine π D
  sliceOrchestrator : SliceOrchestrator D
  qosEngine : QosEngine D
  ueRepository : UeRepository
  harqTracker : HarqTimingTracker

inductive Operation (π D : Type) where
  | event (ev : Event π)
  | getStatistics
  | slices (op : SliceOrchestrator.Operation D)
  | qos (op : QosEngine.Operation D)
  | users (op : UeRepository.Operation)
  | tracker (op : HarqTimingTracker.Operation)

variable [Double D]

def UeRepository.perform (repo : UeRepository) (P : Platform) : Operation → Exec UeRepository
  | .createUe ptr rnti => repo.createUe ptr rnti
  | .removeUe rnti => repo.removeUe rnti
  | .findByRnti rnti => do let _ ← repo.findByRnti rnti; return repo
  | .findById ueId => do let _ ← repo.findById ueId; return repo
  | .forEach visitor => do repo.forEach P (fun _ ue ↦ visitor.1 ue) (); return repo
  | .count => do let _ ← repo.count; return repo

def HarqTimingTracker.perform (t : HarqTimingTracker) : Operation → Exec HarqTimingTracker
  | .registerPending expectedSlot info => t.registerPending expectedSlot info
  | .findAndRemove feedbackSlot rnti harqId => do
      return (← t.findAndRemove feedbackSlot rnti harqId).2
  | .getAllForSlot feedbackSlot => do let _ ← t.getAllForSlot feedbackSlot; return t
  | .clearForUe rnti => t.clearForUe rnti

namespace Components

def create [IPolicyManager π D] (config : SchedulerConfig) : Components π D where
  engine := .create config
  sliceOrchestrator := .create
  qosEngine := .create
  ueRepository := .empty
  harqTracker := {}

variable [IPolicyManager π D]

def perform (c : Components π D) (P : Platform) : Operation π D → Exec (Components π D)
  | .event ev => do return { c with engine := ← c.engine.handle P ev }
  | .getStatistics => do let _ ← c.engine.getStatistics; return c
  | .slices op => do return { c with sliceOrchestrator := ← c.sliceOrchestrator.perform P op }
  | .qos op => do return { c with qosEngine := ← c.qosEngine.perform P op }
  | .users op => do return { c with ueRepository := ← c.ueRepository.perform P op }
  | .tracker op => do return { c with harqTracker := ← c.harqTracker.perform op }

/-- An operation called by a thread that holds no mutex. -/
def call (c : Components π D) (i : Platform × Operation π D) :
    Except (Failure Mutex Fault) (Components π D) :=
  (c.perform i.1 i.2).run (some [])

def next (c : Components π D) (i : Platform × Operation π D) : Option (Components π D) :=
  (c.call i).toOption

end Components

/-- The operation is a slot indication for a cell of the engine. -/
def Components.isKnownSlot (c : Components π D) (op : Operation π D) : Prop :=
  ∃ cellId t, op = .event (.slotIndication cellId t) ∧ cellId ∈ c.engine.cells

/-- The calling thread takes no mutex twice, and a slot of a known cell completes. -/
structure Components.DeadlockFree [IPolicyManager π D] (c : Components π D)
    (i : Platform × Operation π D) : Prop where
  noRelock : ∀ m, c.call i ≠ .error (.relock m)
  completes : c.isKnownSlot i.2 → ∃ c', c.call i = .ok c'

/-- The operation neither ends a slot of the orchestrator nor indicates a slot of a known
cell, which does so in its end. -/
def Components.AvoidsSlotEnd (c : Components π D) (i : Platform × Operation π D) : Prop :=
  i.2 ≠ .slices .onSlotEnd ∧ ¬ c.isKnownSlot i.2

/-! ## Operations of the components -/

namespace SliceOrchestrator

theorem footprint_perform (o : SliceOrchestrator D) (P : Platform) (op : Operation D)
    (hop : op ≠ .onSlotEnd) : Footprint {.sliceOrchestrator} (o.perform P op) := by
  have hchoice : ∀ {α : Type} {c : Prop} [Decidable c] (a b : α),
      Footprint {.sliceOrchestrator}
        (withLock .sliceOrchestrator (if c then pure a else pure b : Exec α)) :=
    fun a b ↦ .guard (.ite (.pure _ a) (.pure _ b))
  cases op with
  | createSlice config memory | updateSlice sliceId config | deleteSlice sliceId
  | associateUe rnti sliceId =>
      exact (hchoice _ _).map _
  | returnResources sliceId rbsUnused isDl => exact hchoice _ _
  | calculateBudgets cell =>
      have hbudgets : Footprint {.sliceOrchestrator} (o.calculateBudgets P cell) := by
        rw [calculateBudgets]
        cases o.computeBudgets P cell.config.numRbs with
        | mk poolDl rest => exact .guard_pure _ _
      exact hbudgets.map _
  | requestResources sliceId rbsNeeded isDl => exact (Footprint.guard_pure _ _).map _
  | disassociateUe rnti | reportScheduling rnti rbs bytes isDl | onSlotStart timing =>
      exact .guard_pure _ _
  | onSlotEnd => exact (hop rfl).elim
  | _ => exact (Footprint.guard_pure _ _).map _

/-- The end of a slot takes the mutex of the orchestrator, and so does the check of the
agreements that it calls. -/
theorem blocks_onSlotEnd (o : SliceOrchestrator D) (P : Platform) :
    Blocks {.sliceOrchestrator} .sliceOrchestrator (o.onSlotEnd P) :=
  .again rfl

end SliceOrchestrator

theorem QosEngine.footprint_perform (e : QosEngine D) (P : Platform) (op : Operation D) :
    Footprint {.qosEngine} (e.perform P op) := by
  cases op with
  | calculatePriority rnti qfi isDl bufferBytes | getAllowedBytes rnti qfi isDl
  | getDelayCriticalFlows | getCurrentRate rnti qfi isDl | getGbrDeficit rnti qfi isDl
  | getGbrDeficitFlows | getStatistics memory =>
      exact (Footprint.guard_pure _ _).map _
  | _ => exact .guard_pure _ _

theorem UeRepository.footprint_forEach {σ : Type} (repo : UeRepository) (P : Platform)
    {func : σ → UeContext → Exec σ} {init : σ} {S : Set Mutex}
    (hfunc : ∀ s ue, Footprint S (func s ue)) (hS : .ueRepository ∉ S) :
    Footprint (insert .ueRepository S) (repo.forEach P func init) :=
  (Footprint.foldlM (f := fun s (e : Sigma fun _ : Rnti ↦ UeContext) ↦ func s e.2)
    (fun s e ↦ hfunc s e.2) _ _).withLock hS

theorem UeRepository.footprint_perform (repo : UeRepository) (P : Platform) (op : Operation) :
    Footprint {.ueRepository} (repo.perform P op) := by
  cases op with
  | createUe ptr rnti | removeUe rnti => exact .guard_pure _ _
  | findByRnti rnti | findById ueId | count => exact (Footprint.guard_pure _ _).map _
  | forEach visitor =>
      have hvisit := @footprint_forEach Unit repo P _ () _ (fun _ ue ↦ visitor.2 ue)
        (Set.notMem_empty _)
      exact (hvisit.mono (insert_empty_eq _).subset).map _

theorem HarqTimingTracker.footprint_perform (t : HarqTimingTracker) (op : Operation) :
    Footprint {.harqTracker} (t.perform op) := by
  cases op with
  | registerPending expectedSlot info | clearForUe rnti => exact .guard_pure _ _
  | findAndRemove feedbackSlot rnti harqId | getAllForSlot feedbackSlot =>
      exact (Footprint.guard_pure _ _).map _

/-! ## The grid and the allocator -/

namespace ResourceGrid

theorem footprint_test (g : ResourceGrid) (sym rb : ℕ) : Footprint ∅ (g.test sym rb) :=
  .ite (.pure _ _) (.crash _ _)

theorem footprint_allFree (g : ResourceGrid) (cs : List (ℕ × ℕ)) :
    Footprint ∅ (g.allFree cs) := by
  induction cs with
  | nil => exact .pure _ _
  | cons c cs ih =>
      apply (g.footprint_test c.1 c.2).bind
      intro occupied
      exact .ite (.pure _ _) ih

theorem footprint_isAvailable (g : ResourceGrid) (res : TimeFrequencyResource) :
    Footprint ∅ (g.isAvailable res) :=
  .ite (.crash _ _) (g.footprint_allFree _)

theorem footprint_allocate (g : ResourceGrid) (res : TimeFrequencyResource) :
    Footprint ∅ (g.allocate res) := by
  apply (g.footprint_isAvailable res).bind
  intro available
  apply Footprint.ite _ (.pure _ _)
  apply Footprint.map
  apply Footprint.foldlM
  intro g c
  exact .ite (.pure _ _) (.crash _ _)

theorem footprint_blockFree (g : ResourceGrid) (rb : ℕ) (syms : List ℕ) :
    Footprint ∅ (g.blockFree rb syms) :=
  g.blockFree_eq_allFree rb syms ▸ g.footprint_allFree _

theorem footprint_findContiguous (g : ResourceGrid) (numRbs startSymbol numSymbols : ℕ) :
    Footprint ∅ (g.findContiguous numRbs startSymbol numSymbols) := by
  have hloop : ∀ fuel rb contiguous start, Footprint ∅
      (g.findLoop numRbs (List.range' startSymbol numSymbols) fuel rb contiguous start) := by
    intro fuel
    induction fuel with
    | zero => exact fun _ _ _ ↦ .pure _ _
    | succ fuel ih =>
        intro rb contiguous start
        apply (g.footprint_blockFree rb _).bind
        intro free
        exact .ite (.ite (.pure _ _) (ih _ _ _)) (ih _ _ _)
  exact hloop _ _ _ _

end ResourceGrid

namespace DefaultResourceAllocator

theorem footprint_maxAllocatableFrom (g : ResourceGrid) (rbs : ℕ) :
    Footprint ∅ (maxAllocatableFrom g rbs) := by
  induction rbs with
  | zero => exact .pure _ _
  | succ rbs ih =>
      apply (g.footprint_findContiguous _ _ _).bind
      intro found
      cases found with
      | none => exact ih
      | some range => exact .pure _ _

theorem footprint_tryFewer (g : ResourceGrid) (rbs : ℕ) : Footprint ∅ (tryFewer g rbs) := by
  induction rbs with
  | zero => exact .pure _ _
  | succ rbs ih =>
      apply (g.footprint_findContiguous _ _ _).bind
      intro found
      cases found with
      | none => exact ih
      | some range => exact .pure _ _

omit [Double D] in
theorem footprint_allocate (P : Platform) (d : SchedulingDecision D) (cell : CellContext)
    (isDl : Bool) : Footprint {.ueRepository} (allocate P d cell isDl) := by
  have hnone : ∀ {α : Type} {x : Exec α}, Footprint ∅ x → Footprint {.ueRepository} x :=
    fun h ↦ h.mono (Set.empty_subset _)
  apply (Footprint.guard_pure _ _).bind
  intro found
  cases found with
  | none => exact .pure _ _
  | some ue =>
      apply (hnone (footprint_maxAllocatableFrom _ _)).bind
      intro maxRbs
      apply Footprint.ite (.pure _ _)
      apply (hnone (ResourceGrid.footprint_findContiguous _ _ _ _)).bind
      intro first
      have htake : ∀ range : ResourceBlockRange, Footprint {.ueRepository}
          ((cell.currentSlot.grid isDl).allocate ⟨range, ⟨startSymbol, numSymbols⟩⟩ >>= fun r ↦
            if r.1 then pure (some (record P d ue cell range, cell.setGrid isDl r.2))
            else pure none) := by
        intro range
        apply (hnone (ResourceGrid.footprint_allocate _ _)).bind
        exact fun _ ↦ .ite (.pure _ _) (.pure _ _)
      -- a search that failed goes on with fewer blocks before the common end
      cases first with
      | none =>
          apply (hnone (footprint_tryFewer _ _)).bind
          intro range
          cases range with
          | none => exact .pure _ _
          | some range => exact htake range
      | some range =>
          simp only [pure_bind]
          exact htake range

end DefaultResourceAllocator

/-! ## The slot pipeline -/

theorem CellContext.footprint_advanceToSlot (cell : CellContext) (t : FrameTiming)
    (S : Set Mutex) : Footprint S (cell.advanceToSlot t) := by
  apply Footprint.map
  apply Footprint.ite (.pure _ _)
  cases cell.config.tddPattern with
  | none => exact .pure _ _
  | some pattern =>
      apply Footprint.map
      apply Footprint.ite (.crash _ _)
      apply Footprint.ite (.crash _ _)
      split
      · exact .pure _ _
      · exact .crash _ _

namespace SchedulerEngine

/-- The mutexes of the components, which are taken with that of the engine held. -/
def componentMutexes : Set Mutex := {m | m ≠ .engine}

theorem mem_componentMutexes {m : Mutex} (hm : m ≠ .engine) : m ∈ componentMutexes := hm

theorem footprint_component {α : Type} {m : Mutex} {x : Exec α} (h : Footprint {m} x)
    (hm : m ≠ .engine) : Footprint componentMutexes x :=
  h.mono (Set.singleton_subset_iff.mpr (mem_componentMutexes hm))

omit [Double D] in
theorem footprint_getEligibleUes (e : SchedulerEngine π D) (P : Platform) (cell : CellContext)
    (isDl : Bool) : Footprint componentMutexes (e.getEligibleUes P cell isDl) := by
  have hvisit : Footprint (insert .ueRepository {.sliceOrchestrator})
      (e.getEligibleUes P cell isDl) := by
    apply UeRepository.footprint_forEach
    · intro eligible ue
      apply Footprint.ite (.pure _ _)
      apply Footprint.ite (.pure _ _)
      apply Footprint.ite _ (.pure _ _)
      apply (Footprint.guard_pure _ _).bind
      exact fun _ ↦ .ite (.pure _ _) (.pure _ _)
    · simp
  apply hvisit.mono
  intro m hm
  rcases hm with rfl | rfl
  · exact mem_componentMutexes (by decide)
  · exact mem_componentMutexes (by decide)

theorem footprint_rankByQos (e : SchedulerEngine π D) (P : Platform) (ue : UeContext)
    (isDl : Bool) (base : D) (d : SchedulingDecision D) :
    Footprint componentMutexes (e.rankByQos P ue isDl base d) := by
  apply Footprint.ite _ (.pure _ _)
  exact (footprint_component (.guard_pure .qosEngine _) (by decide)).map _

theorem footprint_boostSlice (e : SchedulerEngine π D) (ue : UeContext)
    (d : SchedulingDecision D) : Footprint componentMutexes (e.boostSlice ue d) := by
  apply Footprint.ite _ (.pure _ _)
  exact (footprint_component (.guard_pure .sliceOrchestrator _) (by decide)).map _

theorem footprint_findByRnti (repo : UeRepository) (rnti : Rnti) :
    Footprint componentMutexes (repo.findByRnti rnti) :=
  footprint_component (Footprint.guard_pure Mutex.ueRepository _) (by decide)

variable [IPolicyManager π D]

theorem footprint_calculatePriorities (P : Platform) (cell : CellContext) (isDl : Bool)
    (ds : List (SchedulingDecision D)) (e : SchedulerEngine π D) :
    Footprint componentMutexes (calculatePriorities P cell isDl ds e) := by
  induction ds generalizing e with
  | nil => exact .pure _ _
  | cons d ds ih =>
      have hone : Footprint componentMutexes (e.calculatePriority P cell isDl d) := by
        apply (footprint_findByRnti _ _).bind
        intro found
        cases found with
        | none => exact .pure _ _
        | some ue =>
            apply (footprint_rankByQos _ _ _ _ _ _).bind
            intro r
            exact (footprint_boostSlice _ _ _).map _
      exact hone.bind fun r ↦ (ih r.2).map _

omit [Double D] in
theorem footprint_allocateLoop (P : Platform) (isDl : Bool)
    (ds successful : List (SchedulingDecision D)) (cell : CellContext)
    (e : SchedulerEngine π D) :
    Footprint componentMutexes (allocateLoop P isDl ds successful cell e) := by
  induction ds generalizing successful cell e with
  | nil => exact .pure _ _
  | cons d ds ih =>
      apply Footprint.ite (.pure _ _)
      have hallocate := DefaultResourceAllocator.footprint_allocate P d cell isDl
      apply (footprint_component hallocate (by decide)).bind
      intro r
      cases r with
      | none => exact ih _ _ _
      | some r =>
          apply (footprint_findByRnti _ _).bind
          intro found
          cases found with
          | none => exact ih _ _ _
          | some ue => exact ih _ _ _

theorem footprint_schedule (e : SchedulerEngine π D) (P : Platform) (cell : CellContext)
    (isDl : Bool) : Footprint componentMutexes (e.schedule P cell isDl) := by
  apply (e.footprint_getEligibleUes P cell isDl).bind
  intro eligible
  apply Footprint.ite (.pure _ _)
  apply (footprint_calculatePriorities P cell isDl _ e).bind
  intro r
  exact footprint_allocateLoop P isDl _ _ _ _

theorem footprint_advanced (t : FrameTiming) (k : ℕ) (S : Set Mutex) :
    Footprint S (t.advanced k) :=
  .ite (.crash _ _) (.pure _ _)

omit [Double D] [IPolicyManager π D] in
theorem footprint_buildTtiRequest (e : SchedulerEngine π D) (cell : CellContext) (isDl : Bool)
    (t : FrameTiming) (ds : List (SchedulingDecision D)) :
    Footprint componentMutexes (e.buildTtiRequest cell isDl t ds) := by
  have hloop : ∀ (pdus : List TtiPdu) (cell : CellContext) (e : SchedulerEngine π D),
      Footprint componentMutexes (buildLoop isDl t ds pdus cell e) := by
    induction ds with
    | nil => exact fun _ _ _ ↦ .pure _ _
    | cons d ds ih =>
        intro pdus cell e
        apply (footprint_findByRnti _ _).bind
        intro found
        cases found with
        | none => exact ih _ _ _
        | some ue =>
            apply (footprint_advanced t _ _).bind
            intro expected
            apply (footprint_component (.guard_pure .harqTracker _) (by decide)).bind
            exact fun _ ↦ ih _ _ _
  exact (hloop _ _ _).map _

theorem footprint_serve (e : SchedulerEngine π D) (P : Platform) (cell : CellContext)
    (isDl : Bool) : Footprint componentMutexes (e.serve P cell isDl) := by
  apply Footprint.ite _ (.pure _ _)
  have hschedule : e.scheduleFor P cell isDl = e.schedule P cell isDl := by
    cases isDl <;> rfl
  rw [hschedule]
  apply (e.footprint_schedule P cell isDl).bind
  rintro ⟨ds, cell', e'⟩
  apply Footprint.ite (.pure _ _)
  cases isDl with
  | true => exact footprint_buildTtiRequest _ _ _ _ _
  | false =>
      apply (footprint_advanced _ _ _).bind
      exact fun _ ↦ footprint_buildTtiRequest _ _ _ _ _

/-- Processing a slot ends with the end of the slot of the orchestrator. -/
theorem blocks_processSlot (e : SchedulerEngine π D) (P : Platform) (cell : CellContext) :
    Blocks componentMutexes .sliceOrchestrator (e.processSlot P cell) := by
  have hslotEnd : ∀ o : SliceOrchestrator D,
      Blocks componentMutexes .sliceOrchestrator (o.onSlotEnd P) := fun o ↦
    (o.blocks_onSlotEnd P).mono
      (Set.singleton_subset_iff.mpr (mem_componentMutexes (by decide)))
  apply Blocks.bind (e.footprint_serve P cell true)
  rintro ⟨cell₁, e₁⟩
  apply Blocks.bind (e₁.footprint_serve P cell₁ false)
  rintro ⟨cell₂, e₂⟩
  exact (hslotEnd _).bind_pure

/-- A slot indication for a known cell never returns: where it would without mutexes, it
takes the mutex of the orchestrator a second time. -/
theorem onSlotIndication_known (e : SchedulerEngine π D) (P : Platform) (cellId : CellId)
    (t : FrameTiming) (hcell : cellId ∈ e.cells) :
    (e.onSlotIndication P cellId t).run (some []) =
      ((e.onSlotIndication P cellId t).run none).bind
        fun _ ↦ .error (.relock .sliceOrchestrator) := by
  obtain ⟨cell, hlookup⟩ := AList.exists_lookup hcell
  have hblocks : Blocks (insert .engine componentMutexes) .sliceOrchestrator
      (e.onSlotIndication P cellId t) := by
    rw [onSlotIndication, hlookup]
    apply Blocks.withLock _ fun h : Mutex.engine ∈ componentMutexes ↦ h rfl
    apply Blocks.bind (cell.footprint_advanceToSlot t _)
    intro cell₁
    apply Blocks.bind (footprint_component (.guard_pure .sliceOrchestrator _) (by decide))
    intro slices
    apply Blocks.bind (footprint_component (.guard_pure .qosEngine _) (by decide))
    intro qos
    exact (blocks_processSlot _ P cell₁).bind_pure
  exact hblocks [] fun _ _ ↦ List.not_mem_nil

/-! ## The other events -/

theorem footprint_engine {α : Type} {x : Exec α} (h : Footprint componentMutexes x) :
    Footprint Set.univ (withLock .engine x) := by
  have hfree : Mutex.engine ∉ componentMutexes := fun h ↦ h rfl
  exact (h.withLock hfree).mono (Set.subset_univ _)

omit [IPolicyManager π D] in
theorem footprint_onUeConfig (e : SchedulerEngine π D) (request : UeConfigRequest) :
    Footprint Set.univ (e.onUeConfig request) := by
  apply footprint_engine
  cases e.cells.lookup request.cellId with
  | none => exact .pure _ _
  | some cell =>
      apply (footprint_component (.guard_pure .ueRepository _) (by decide)).bind
      intro repo
      have hslice : Footprint componentMutexes (e.registerSlice request) := by
        apply Footprint.ite _ (.pure _ _)
        apply Footprint.map
        apply footprint_component (Footprint.guard (m := Mutex.sliceOrchestrator) _) (by decide)
        exact .ite (.pure _ _) (.pure _ _)
      exact hslice.map _

omit [IPolicyManager π D] in
theorem footprint_onUeRelease (e : SchedulerEngine π D) (release : UeReleaseRequest) :
    Footprint Set.univ (e.onUeRelease release) := by
  apply footprint_engine
  cases e.cells.lookup release.cellId with
  | none => exact .pure _ _
  | some cell =>
      apply (footprint_component (.guard_pure .ueRepository _) (by decide)).bind
      intro repo
      apply (footprint_component (.guard_pure .qosEngine _) (by decide)).bind
      intro qos
      exact (footprint_component (.guard_pure .sliceOrchestrator _) (by decide)).map _

omit [Double D] [IPolicyManager π D] in
theorem footprint_updateUe (e : SchedulerEngine π D) (cellId : CellId) (rnti : Rnti)
    {check : Exec Unit} (hcheck : Footprint componentMutexes check) (f : UeContext → UeContext)
    (hf : ∀ ue, (f ue).rnti = ue.rnti) :
    Footprint Set.univ (e.updateUe cellId rnti check f hf) := by
  apply footprint_engine
  cases e.cells.lookup cellId with
  | none => exact .pure _ _
  | some cell =>
      apply (footprint_findByRnti _ _).bind
      intro found
      cases found with
      | none => exact .pure _ _
      | some ue => exact hcheck.bind fun _ ↦ .pure _ _

omit [Double D] [IPolicyManager π D] in
theorem footprint_onHarqFeedback (e : SchedulerEngine π D) (cellId : CellId)
    (fb : HarqFeedback) : Footprint Set.univ (e.onHarqFeedback cellId fb) := by
  apply footprint_engine
  apply (footprint_component (.guard_pure .harqTracker _) (by decide)).bind
  intro pendingList
  induction pendingList with
  | nil => exact .pure _ _
  | cons pending rest ih =>
      apply Footprint.ite ih
      apply Footprint.ite ih
      cases e.cells.lookup cellId with
      | none => exact ih
      | some cell =>
          apply (footprint_findByRnti _ _).bind
          intro found
          cases found with
          | none => exact ih
          | some ue => exact (footprint_component (.guard_pure .harqTracker _) (by decide)).map _

/-- Every event but a slot of a known cell takes each mutex at most once. -/
theorem footprint_handle (e : SchedulerEngine π D) (P : Platform) (ev : Event π)
    (hev : ∀ cellId t, ev = .slotIndication cellId t → cellId ∉ e.cells) :
    Footprint Set.univ (e.handle P ev) := by
  cases ev with
  | addCell config memory =>
      apply Footprint.map
      apply footprint_engine
      exact .ite (.pure _ _) (.pure _ _)
  | slotIndication cellId t =>
      have hlookup : e.cells.lookup cellId = none :=
        AList.lookup_eq_none.mpr (hev cellId t rfl)
      rw [handle, onSlotIndication, hlookup]
      exact footprint_engine (.pure _ _)
  | removeCell cellId | updateConfig config => exact footprint_engine (.pure _ _)
  | ueConfig request => exact e.footprint_onUeConfig request
  | ueRelease release => exact e.footprint_onUeRelease release
  | bsr b => exact e.footprint_updateUe _ _ (.ite (.pure _ _) (.crash _ _)) _ _
  | dlData n | sr s | phr p | csiUpdate rnti cellId cqi =>
      exact e.footprint_updateUe _ _ (.pure _ _) _ _
  | harqFeedback cellId fb => exact e.footprint_onHarqFeedback cellId fb
  | setPolicyManager policy | start | stop | rachIndication cellId | resetStatistics =>
      exact .pure _ _

end SchedulerEngine

/-! ## Runs of calls -/

namespace Components

variable [IPolicyManager π D]

theorem footprint_perform {c : Components π D} {P : Platform} {op : Operation π D}
    (havoid : c.AvoidsSlotEnd (P, op)) : Footprint Set.univ (c.perform P op) := by
  have huniv : ∀ {m : Mutex} {α : Type} {x : Exec α}, Footprint {m} x → Footprint Set.univ x :=
    fun h ↦ h.mono (Set.subset_univ _)
  cases op with
  | event ev =>
      apply Footprint.map
      apply c.engine.footprint_handle P ev
      rintro cellId t rfl hmem
      exact havoid.2 ⟨cellId, t, rfl, hmem⟩
  | getStatistics => exact .pure _ _
  | slices op =>
      have hop : op ≠ .onSlotEnd := fun h ↦ havoid.1 (congrArg Operation.slices h)
      exact (huniv (c.sliceOrchestrator.footprint_perform P op hop)).map _
  | qos op => exact (huniv (c.qosEngine.footprint_perform P op)).map _
  | users op => exact (huniv (c.ueRepository.footprint_perform P op)).map _
  | tracker op => exact (huniv (c.harqTracker.footprint_perform op)).map _

theorem deadlockFree_iff (c : Components π D) (i : Platform × Operation π D) :
    c.DeadlockFree i ↔ c.AvoidsSlotEnd i := by
  obtain ⟨P, op⟩ := i
  constructor
  · intro hfree
    constructor
    · rintro rfl
      have hblocks : Blocks {.sliceOrchestrator} .sliceOrchestrator
          (c.perform P (.slices .onSlotEnd)) :=
        (c.sliceOrchestrator.blocks_onSlotEnd P).bind_pure
      exact hfree.noRelock .sliceOrchestrator (hblocks [] fun _ _ ↦ List.not_mem_nil)
    · intro hknown
      obtain ⟨c', hc'⟩ := hfree.completes hknown
      obtain ⟨cellId, t, rfl, hmem⟩ := hknown
      obtain ⟨e', he', _⟩ := run_bind_eq_ok.mp hc'
      rw [SchedulerEngine.handle, c.engine.onSlotIndication_known P cellId t hmem] at he'
      cases hrun : (c.engine.onSlotIndication P cellId t).run none with
      | error f =>
          rw [hrun] at he'
          cases he'
      | ok e =>
          rw [hrun] at he'
          cases he'
  · intro havoid
    have hfootprint := footprint_perform havoid
    constructor
    case noRelock =>
      intro m hm
      rw [call, hfootprint.run_nil] at hm
      exact hfootprint.noRelock m hm
    case completes => exact fun hknown ↦ (havoid.2 hknown).elim

/-- In every run of calls, no call locks a mutex twice exactly where none of them ends a
slot of an orchestrator, on its own or in a slot of the engine. -/
theorem throughout_deadlockFree_iff (c : Components π D)
    (calls : List (Platform × Operation π D)) :
    Runs.Throughout next DeadlockFree c calls ↔ Runs.Throughout next AvoidsSlotEnd c calls :=
  Runs.throughout_congr deadlockFree_iff

/-- A new engine hangs in the first slot of its first cell. -/
theorem not_throughout_deadlockFree :
    ¬ Runs.Throughout next DeadlockFree
      (create { strategy := .roundRobin } : Components (BuiltinPolicy ℚ) ℚ)
      [(.plain, .event (.addCell (.fdd 1 4) .cleared)),
        (.plain, .event (.slotIndication 1 {}))] := by
  rintro ⟨_, hrest⟩
  have hslot := (hrest _ rfl).1
  exact hslot.noRelock .sliceOrchestrator rfl

end Components

end NrScheduler
