import NrScheduler.Core.UnwrappedTime
import NrScheduler.Engine.RunSpec
import NrScheduler.Properties.CceBlocks

/-!
# Cells that are safe to schedule

Nothing is checked when a cell is added.  Its slots stay inside the bitmaps, and are not
divided by zero, exactly if its configuration fits the tables of the slot context.
-/

namespace NrScheduler

open LockMonad DefaultResourceAllocator

variable {π D : Type}

/-- The configuration fits the bitmaps of the grids and of the pool, whose size is passed in
eight bits, and an unpaired carrier has no empty pattern. -/
structure CellConfig.FitsTables (cfg : CellConfig) : Prop where
  rbs : cfg.numRbs ≤ 273
  cces : cfg.coreset0NumRbs * cfg.coreset0NumSymbols % 2 ^ 8 ≤ 128
  pattern : cfg.isFdd = false → ∀ pattern, cfg.tddPattern = some pattern →
    pattern.periodicitySlots ≠ 0 ∧ pattern.slotConfigs ≠ []

/-- What the scheduler does with the tables of a slot. -/
inductive SlotCall (D : Type) where
  | findContiguous (isDl : Bool) (numRbs startSymbol numSymbols : ℕ)
      (inSlot : startSymbol + numSymbols ≤ 14)
  | allocate (P : Platform) (d : SchedulingDecision D) (isDl : Bool)
  | allocateCce (al : AggregationLevel)

namespace CellContext

def call (cell : CellContext) : SlotCall D → Exec CellContext
  | .findContiguous isDl numRbs startSymbol numSymbols _ => do
      let _ ← (cell.currentSlot.grid isDl).findContiguous numRbs startSymbol numSymbols
      return cell
  | .allocate P d isDl => do
      match ← DefaultResourceAllocator.allocate P d cell isDl with
      | some (_, cell') => return cell'
      | none => return cell
  | .allocateCce al => do
      let (_, pool) ← cell.currentSlot.ccePool.allocate al
      return { cell with currentSlot := { cell.currentSlot with ccePool := pool } }

/-- The cell advances to a slot, and then the calls are made. -/
def scheduleSlot (cell : CellContext) (t : FrameTiming) (calls : List (SlotCall D)) :
    Exec CellContext := do
  let cell' ← cell.advanceToSlot t
  calls.foldlM call cell'

/-- Whatever users the cell has and whatever slot it was in, in no valid slot does a sequence of
calls leave the tables or divide by zero. -/
def SafelyScheduled (D : Type) (cell : CellContext) : Prop :=
  ∀ (ueRepo : UeRepository) (slot : SlotContext) (t : FrameTiming), t.Valid →
    ∀ calls : List (SlotCall D), ∃ cell',
      ({ cell with ueRepo := ueRepo, currentSlot := slot }.scheduleSlot t calls).run none =
        .ok cell'

/-! ## Cells that fit -/

/-- The tables of the current slot are as large as the configuration says. -/
structure Sized (cell : CellContext) : Prop where
  fits : cell.config.FitsTables
  numRbs_grid : ∀ isDl, (cell.currentSlot.grid isDl).numRbs = cell.config.numRbs
  pool : CcePool.Consistent
    (cell.config.coreset0NumRbs * cell.config.coreset0NumSymbols % 2 ^ 8) cell.currentSlot.ccePool

theorem advanceToSlot_sized (cell : CellContext) (hfits : cell.config.FitsTables)
    (t : FrameTiming) : ∃ cell', (cell.advanceToSlot t).run none = .ok cell' ∧ cell'.Sized := by
  obtain ⟨slot, hslot⟩ := cell.currentSlot.exists_initializeSlot hfits.pattern t
  refine ⟨{ cell with currentSlot := slot }, run_bind_of_ok hslot, hfits, fun isDl ↦ ?_, ?_⟩
  · exact congrArg ResourceGrid.numRbs ((SlotContext.initializeSlot_ok hslot).2 isDl)
  · obtain ⟨dl, ul, entry, rfl⟩ := SlotContext.initializeSlot_renew hslot
    exact CcePool.consistent_empty _

theorem Sized.setGrid {cell : CellContext} (h : cell.Sized) {isDl : Bool} {g : ResourceGrid}
    (hg : g.numRbs = cell.config.numRbs) : (cell.setGrid isDl g).Sized where
  fits := h.fits
  numRbs_grid isDl' := by
    rcases Bool.eq_or_eq_not isDl' isDl with rfl | rfl
    · rw [grid_setGrid_self, hg, config_setGrid]
    · exact (congrArg _ (SlotContext.grid_setGrid_not _ isDl g)).trans (h.numRbs_grid _)
  pool := by
    rw [config_setGrid, CellContext.setGrid, SlotContext.ccePool_setGrid]
    exact h.pool

theorem Sized.allocate {cell : CellContext} (h : cell.Sized) (P : Platform)
    (d : SchedulingDecision D) (isDl : Bool) :
    ∃ r, (DefaultResourceAllocator.allocate P d cell isDl).run none = .ok r ∧
      ∀ d' cell', r = some (d', cell') → cell'.Sized := by
  have hnum := h.numRbs_grid isDl
  cases hue : cell.ueRepo.ue? d.rnti with
  | none =>
      have hfind : (cell.ueRepo.findByRnti d.rnti).run none = .ok none := by
        rw [UeRepository.findByRnti_run, hue]
      refine ⟨none, ?_, fun d' cell' h ↦ by cases h⟩
      rw [DefaultResourceAllocator.allocate]
      exact run_bind_of_ok hfind
  | some ue =>
      refine ⟨_, allocate_run hue h.fits.rbs rfl hnum rfl, fun d' cell' hr ↦ ?_⟩
      split at hr
      · cases hr
      · obtain ⟨start, _, heq⟩ := Option.map_eq_some_iff.mp hr
        obtain rfl := (Prod.mk.inj heq).2
        exact h.setGrid ((ResourceGrid.numRbs_fill _ _).trans hnum)

theorem Sized.call {cell : CellContext} (h : cell.Sized) (c : SlotCall D) :
    ∃ cell', (cell.call c).run none = .ok cell' ∧ cell'.Sized := by
  cases c with
  | findContiguous isDl numRbs startSymbol numSymbols inSlot =>
      have hgrid := (h.numRbs_grid isDl).trans_le h.fits.rbs
      exact ⟨cell, run_bind_of_ok (ResourceGrid.findContiguous_run _ hgrid inSlot numRbs none), h⟩
  | allocate P d isDl =>
      obtain ⟨r, hrun, hsized⟩ := h.allocate P d isDl
      cases r with
      | none => exact ⟨cell, run_bind_of_ok hrun, h⟩
      | some r => exact ⟨r.2, run_bind_of_ok hrun, hsized r.1 r.2 rfl⟩
  | allocateCce al =>
      rcases h.pool.allocate h.fits.cces al none with
        ⟨start, pool, hrun, _, _, hpool⟩ | ⟨hrun, _⟩
      · refine ⟨_, run_bind_of_ok hrun, h.fits, fun isDl ↦ ?_, hpool⟩
        have hgrid := h.numRbs_grid isDl
        cases isDl <;> exact hgrid
      · exact ⟨_, run_bind_of_ok hrun, h⟩

theorem Sized.calls {cell : CellContext} (h : cell.Sized) (calls : List (SlotCall D)) :
    ∃ cell', (calls.foldlM CellContext.call cell : Exec CellContext).run none = .ok cell' := by
  induction calls generalizing cell with
  | nil => exact ⟨cell, rfl⟩
  | cons c calls ih =>
      obtain ⟨mid, hmid, hsized⟩ := h.call c
      obtain ⟨cell', hcell'⟩ := ih hsized
      rw [List.foldlM_cons]
      exact ⟨cell', (run_bind_of_ok hmid).trans hcell'⟩

theorem safelyScheduled (cell : CellContext) (hfits : cell.config.FitsTables) :
    cell.SafelyScheduled D := by
  intro ueRepo slot t _ calls
  obtain ⟨mid, hmid, hsized⟩ :=
    advanceToSlot_sized { cell with ueRepo := ueRepo, currentSlot := slot } hfits t
  obtain ⟨cell', hcell'⟩ := hsized.calls calls
  exact ⟨cell', (run_bind_of_ok hmid).trans hcell'⟩

end CellContext

/-! ## A pool that is larger than its bitmap -/

namespace CcePool

variable {p : CcePool} {k : ℕ}

theorem blockFree_one_run (p : CcePool) {i : ℕ} (hi : i < 128) :
    (p.blockFree i 1).run none = .ok (!p.cceBitmap.getLsbD i) := by
  rw [blockFree, allM_run_of_ok (q := fun i ↦ !p.cceBitmap.getLsbD i) fun j hj ↦ ?_]
  · simp
  · obtain rfl : j = i := by simpa using hj
    rw [run_bind_of_ok (p.test_run hi)]
    exact rfl

theorem blockFree_one_crash (p : CcePool) :
    (p.blockFree 128 1).run none = .error (.crash .outOfRange) := rfl

/-- The search for one element passes by the elements in use. -/
theorem findM?_skip (htaken : p.taken = Set.Iio k) (hk : k ≤ 128) {j m : ℕ} (hj : j ≤ k) :
    ((List.range' j (k - j + m)).findM? (p.blockFree · 1) : Exec _).run none =
      ((List.range' k m).findM? (p.blockFree · 1) : Exec _).run none := by
  obtain ⟨n, rfl⟩ := Nat.exists_eq_add_of_le hj
  clear hj
  rw [Nat.add_sub_cancel_left]
  induction n generalizing j with
  | zero => simp
  | succ n ih =>
      have hmem : j ∈ p.taken := by
        rw [htaken]
        exact Set.mem_Iio.mpr (by omega)
      have hused : (p.blockFree j 1).run none = .ok false := by
        rw [p.blockFree_one_run (by omega), show p.cceBitmap.getLsbD j = true from hmem]
        rfl
      have hnext := ih (j := j + 1) (by rw [htaken]; congr 1; omega) (by omega)
      rw [show n + 1 + m = (n + m) + 1 by omega, List.range'_succ, List.findM?,
        run_bind_of_ok hused, show j + (n + 1) = j + 1 + n by omega]
      exact hnext

theorem allocate_al1_run (htaken : p.taken = Set.Iio k) (hk : k < 128) (hn : 128 < p.numCces) :
    ∃ p', (p.allocate .al1).run none = .ok (some k, p') ∧ p'.taken = Set.Iio (k + 1) ∧
      p'.numCces = p.numCces := by
  have hfree : (p.blockFree k 1).run none = .ok true := by
    have hnot : k ∉ p.taken := by simp [htaken]
    rw [p.blockFree_one_run hk, Bool.eq_false_iff.mpr hnot]
    rfl
  have hfind : ((List.range' 0 (p.numCces / 1) 1).findM? (p.blockFree · 1) : Exec _).run none =
      .ok (some k) := by
    rw [Nat.div_one, show p.numCces = k - 0 + (p.numCces - k - 1 + 1) by omega,
      findM?_skip htaken hk.le (Nat.zero_le k), List.range'_succ, List.findM?,
      run_bind_of_ok hfree]
    rfl
  have hset : ((List.range' k 1).foldlM set p : Exec CcePool).run none =
      .ok { p with cceBitmap := (List.range' k 1).foldl Bitmap.setBit p.cceBitmap } :=
    p.setBlock_run (by omega)
  refine ⟨{
    numCces := p.numCces
    allocatedCount := (p.allocatedCount + 1) % 2 ^ 8
    cceBitmap := (List.range' k 1).foldl Bitmap.setBit p.cceBitmap }, ?_, ?_, rfl⟩
  · rw [allocate]
    exact (run_bind_of_ok hfind).trans (run_bind_of_ok hset)
  · have hbit : Bitmap.members (Bitmap.setBit p.cceBitmap k) = insert k p.taken :=
      Bitmap.members_setBit _ hk
    rw [htaken] at hbit
    refine hbit.trans (Set.ext fun i ↦ ?_)
    simp only [Set.mem_insert_iff, Set.mem_Iio]
    omega

theorem allocate_al1_crash (htaken : p.taken = Set.Iio 128) (hn : 128 < p.numCces) :
    (p.allocate .al1).run none = .error (.crash .outOfRange) := by
  have hfind : ((List.range' 0 (p.numCces / 1) 1).findM? (p.blockFree · 1) : Exec _).run none =
      .error (.crash .outOfRange) := by
    rw [Nat.div_one, show p.numCces = 128 - 0 + (p.numCces - 128 - 1 + 1) by omega,
      findM?_skip htaken le_rfl (Nat.zero_le 128), List.range'_succ, List.findM?,
      run_bind_of_error p.blockFree_one_crash]
  rw [allocate]
  exact run_bind_of_error hfind

end CcePool

namespace CellContext

/-- The search for the next element leaves the bitmap when all 128 of its bits are in use. -/
theorem calls_al1_crash {cell : CellContext} (n : ℕ) (hn : n ≤ 128)
    (htaken : cell.currentSlot.ccePool.taken = Set.Iio (128 - n))
    (hnum : 128 < cell.currentSlot.ccePool.numCces) :
    ((List.replicate (n + 1) (SlotCall.allocateCce .al1 : SlotCall D)).foldlM call cell :
      Exec CellContext).run none = .error (.crash .outOfRange) := by
  induction n generalizing cell with
  | zero =>
      rw [List.replicate_succ, List.foldlM_cons]
      exact run_bind_of_error (run_bind_of_error (CcePool.allocate_al1_crash htaken hnum))
  | succ n ih =>
      obtain ⟨pool, hrun, htaken', hnum'⟩ :=
        CcePool.allocate_al1_run htaken (by omega) hnum
      rw [List.replicate_succ, List.foldlM_cons]
      refine (run_bind_of_ok (run_bind_of_ok hrun)).trans (ih (by omega) ?_ (hnum'.symm ▸ hnum))
      rw [htaken']
      congr 1
      omega

/-! ## Cells that do not fit -/

theorem SafelyScheduled.initialize {cell : CellContext} (h : cell.SafelyScheduled D)
    (calls : List (SlotCall D)) :
    ∃ slot, (SlotContext.cleared.initializeSlot cell.config {}).run none = .ok slot ∧
      ∃ cell', (calls.foldlM call { cell with ueRepo := .empty, currentSlot := slot } :
        Exec CellContext).run none = .ok cell' := by
  obtain ⟨cell', hrun⟩ := h .empty .cleared {} (by decide) calls
  obtain ⟨mid, hmid, hcalls⟩ := run_bind_eq_ok.mp hrun
  obtain ⟨slot, hslot, heq⟩ := run_bind_eq_ok.mp hmid
  exact ⟨slot, hslot, cell', run_pure_eq_ok.mp heq ▸ hcalls⟩

theorem SafelyScheduled.fitsTables {cell : CellContext} (h : cell.SafelyScheduled D) :
    cell.config.FitsTables where
  rbs := by
    by_contra hrbs
    obtain ⟨slot, hslot, cell', hrun⟩ :=
      h.initialize [.findContiguous true 274 startSymbol numSymbols (by decide)]
    have hgrid := (SlotContext.initializeSlot_ok hslot).2 true
    have hcrash : ((slot.grid true).findContiguous 274 startSymbol numSymbols).run none =
        .error (.crash .outOfRange) := by
      rw [hgrid]
      refine ResourceGrid.findLoop_crash _ (by decide) (by decide) (by decide) none le_rfl
        (by decide) ?_
      exact (not_le.mp hrbs).trans_eq (Nat.zero_add _).symm
    obtain ⟨_, hcall, _⟩ := run_bind_eq_ok.mp hrun
    obtain ⟨_, hfind, _⟩ := run_bind_eq_ok.mp hcall
    cases hcrash.symm.trans hfind
  cces := by
    by_contra hcces
    obtain ⟨slot, hslot, cell', hrun⟩ :=
      h.initialize (List.replicate 129 (.allocateCce .al1))
    have hpool : slot.ccePool =
        .create (cell.config.coreset0NumRbs * cell.config.coreset0NumSymbols) := by
      obtain ⟨dl, ul, entry, rfl⟩ := SlotContext.initializeSlot_renew hslot
      rfl
    have htaken : slot.ccePool.taken = Set.Iio (128 - 128) := by
      rw [hpool, CcePool.taken]
      exact Bitmap.members_zero.trans (by simp)
    have hnum : 128 < slot.ccePool.numCces := by
      rw [hpool]
      exact not_le.mp hcces
    cases (calls_al1_crash 128 le_rfl htaken hnum).symm.trans hrun
  pattern hfdd pattern hpattern := by
    obtain ⟨slot, hslot, _⟩ := h.initialize []
    rw [SlotContext.initializeSlot_of_pattern hfdd hpattern] at hslot
    obtain ⟨entry, hentry, _⟩ := run_bind_eq_ok.mp hslot
    constructor
    · intro hzero
      rw [SlotContext.patternEntry, if_pos hzero] at hentry
      cases hentry
    · intro hempty
      rw [SlotContext.patternEntry, TddPattern.getConfig, hempty] at hentry
      split at hentry <;> cases hentry

end CellContext

namespace SchedulerEngine

/-- An added cell is safe to schedule exactly if its configuration fits the tables, which
nothing checks. -/
theorem addCell_safelyScheduled_iff {e e' : SchedulerEngine π D} {config : CellConfig}
    {memory : SlotContext} (h : (e.addCell config memory).run none = .ok (true, e')) :
    ∃ cell, e'.cells.lookup config.cellId = some cell ∧
      (cell.SafelyScheduled D ↔ config.FitsTables) := by
  have hnew : config.cellId ∉ e.cells := by
    intro hmem
    rw [addCell, withLock_run_none, if_pos hmem] at h
    cases h
  rw [addCell, withLock_run_none, if_neg hnew] at h
  cases h
  refine ⟨.create config memory, AList.lookup_insert _, fun hsafe ↦ hsafe.fitsTables, ?_⟩
  intro hfits
  exact CellContext.safelyScheduled (.create config memory) hfits

end SchedulerEngine

namespace RationalEngine

theorem addCell_safelyScheduled_fdd : ∃ (e' : RationalEngine) (cell : CellContext),
    e'.cells.lookup 1 = some cell ∧
      (cell.SafelyScheduled ℚ ↔ (CellConfig.fdd 1 106).FitsTables) := by
  have hadd : ((SchedulerEngine.create {} : RationalEngine).addCell (.fdd 1 106) .cleared).run
      none = .ok (true, _) := rfl
  exact ⟨_, SchedulerEngine.addCell_safelyScheduled_iff hadd⟩

/-- A cell of 300 blocks is accepted, and the search for 274 of them leaves the bitmaps. -/
theorem not_addCell_safelyScheduled : ¬ ∀ (e e' : RationalEngine) (config : CellConfig)
    (memory : SlotContext) (cell : CellContext),
    (e.addCell config memory).run none = .ok (true, e') →
      e'.cells.lookup config.cellId = some cell → cell.SafelyScheduled ℚ := by
  intro h
  have hsafe := h (.create {}) _ (.fdd 1 300) .cleared _ rfl (AList.lookup_insert _)
  exact absurd hsafe.fitsTables.rbs (by decide)

end RationalEngine

end NrScheduler
