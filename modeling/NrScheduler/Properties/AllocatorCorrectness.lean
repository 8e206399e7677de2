import NrScheduler.Engine.ResourceAllocator

/-!
# What the allocator decides

Whatever the occupancy of the grid, an allocation fails exactly if the user is unknown or no
block is free.  Otherwise it takes the first place of the width it needs, or the widest place.
-/

namespace NrScheduler

open LockMonad

/-- The block is free on all symbols of the data. -/
def ResourceGrid.FreeForData (g : ResourceGrid) (rb : ℕ) : Prop :=
  ∀ sym, 2 ≤ sym → sym ≤ 13 → g.occupied sym rb = false

/-- The cell with any occupancy of its two grids. -/
def CellContext.withGrids (cell : CellContext) (grids : Bool → ResourceGrid) : CellContext :=
  (cell.setGrid true (grids true)).setGrid false (grids false)

namespace DefaultResourceAllocator

variable {D : Type}

/-- A decision `d` becomes `d'`, and a grid `g` becomes `g'`, when a user gets `width` blocks
from `start` on. -/
structure Serves (P : Platform) (cell : CellContext) (ue : UeContext) (start width : ℕ)
    (d d' : SchedulingDecision D) (g g' : ResourceGrid) : Prop where
  width_pos : 0 < width
  first : FirstFit.IsFirst g.FreeForData cell.config.numRbs width (some start)
  occupied : ∀ sym rb, g'.occupied sym rb = true ↔ g.occupied sym rb = true ∨
    (2 ≤ sym ∧ sym ≤ 13) ∧ start ≤ rb ∧ rb < start + width
  size : g'.size = g.size
  decision : d' = { d with
    resources := ⟨⟨start, width⟩, ⟨2, 12⟩⟩
    tbConfig := { d.tbConfig with
      mcsIndex := ue.mcsFromCqi
      mcsTable := 0
      numLayers := layers ue cell
      tbSizeBytes := P.tbsTableLookup ue.mcsFromCqi width (layers ue cell) 12 } }
  enough : d.bufferBytes ≤ d'.tbConfig.tbSizeBytes ∨
    ∀ w s, FirstFit.Fits g.FreeForData cell.config.numRbs w s → w ≤ width

theorem rbFree_iff_freeForData {g : ResourceGrid} {rb : ℕ} :
    g.rbFree startSymbol numSymbols rb = true ↔ g.FreeForData rb := by
  rw [ResourceGrid.rbFree_iff]
  apply forall_congr'
  intro sym
  exact imp_congr_right fun _ ↦ imp_congr_left Nat.lt_succ_iff

/-- The blocks a known user gets: those it needs where they fit, and else the widest run. -/
theorem serves_of_width {P : Platform} {cell : CellContext} {ue : UeContext} {g : ResourceGrid}
    {start width : ℕ} (d : SchedulingDecision D) (hn : cell.config.numRbs ≤ 273)
    (hg : g.numRbs = cell.config.numRbs)
    (hwidth : width = min (requiredRbs P d.bufferBytes ue cell) (widest g)) (hpos : 0 < width)
    (hstart : g.firstFit startSymbol numSymbols width = some start) :
    Serves P cell ue start width d (record P d ue cell ⟨start, width⟩) g
      (g.fill (resource start width)) := by
  have hfirst := g.firstFit_isFirst startSymbol numSymbols hpos
  have hfree : (fun rb ↦ g.rbFree startSymbol numSymbols rb = true) = g.FreeForData :=
    funext fun rb ↦ propext rbFree_iff_freeForData
  rw [hstart, hfree, hg] at hfirst
  have hinside : ResourceGrid.Inside (resource start width) :=
    inside_resource hpos (hfirst.1.1.trans hn)
  constructor
  case width_pos => exact hpos
  case first => exact hfirst
  case occupied =>
    intro sym rb
    rw [g.occupied_fill hinside]
    apply or_congr_right
    exact and_congr_left fun _ ↦ and_congr_right fun _ ↦ Nat.lt_succ_iff
  case size => exact g.size_fill _
  case decision => rfl
  case enough =>
    have hwidest : ∀ w s, FirstFit.Fits g.FreeForData cell.config.numRbs w s → w ≤ widest g := by
      intro w s hfits
      rcases Nat.eq_zero_or_pos w with rfl | hw
      · exact Nat.zero_le _
      · rw [← hg, ← hfree] at hfits
        have hle := hfits.1
        exact FirstFit.le_widest (fits g) (by omega) ((fits_iff hw).mpr ⟨s, hfits⟩)
    rcases le_total (widest g) (requiredRbs P d.bufferBytes ue cell) with hall | hpart
    · right
      rw [hwidth, min_eq_right hall]
      exact hwidest
    · rw [min_eq_left hpart] at hwidth
      have hnum : 0 < cell.config.numRbs := by
        have hle := hfirst.1.1
        omega
      rcases requiredRbs_carries P d.bufferBytes ue hnum with hcell | hcarries
      · -- all blocks of the cell are needed, and no run is wider than these
        right
        intro w s hfits
        have hle := hfits.1
        omega
      · left
        rw [← hwidth] at hcarries
        exact hcarries

/-- The allocator, on a cell in any slot, with any occupancy, for any user and decision. -/
theorem allocate_correct {before fresh : CellContext} {t : FrameTiming}
    (hrbs : before.config.numRbs ≤ 273) (hslot : (before.advanceToSlot t).run none = .ok fresh)
    {grids : Bool → ResourceGrid}
    (hgrids : ∀ isDl, (grids isDl).size = (fresh.currentSlot.grid isDl).size)
    (P : Platform) (d : SchedulingDecision D) (isDl : Bool) :
    ∃ result, (allocate P d (fresh.withGrids grids) isDl).run none = .ok result ∧
      (result = none ↔ fresh.ueRepo.ue? d.rnti = none ∨
        ∀ rb < fresh.config.numRbs, ¬ (grids isDl).FreeForData rb) ∧
      ∀ d' cell', result = some (d', cell') → ∃ ue g' start width,
        fresh.ueRepo.ue? d.rnti = some ue ∧
        cell' = (fresh.withGrids grids).setGrid isDl g' ∧
        Serves P fresh ue start width d d' (grids isDl) g' := by
  obtain ⟨slot, hinit, heq⟩ := run_bind_eq_ok.mp hslot
  obtain rfl := run_pure_eq_ok.mp heq
  have hgrid : ((CellContext.withGrids { before with currentSlot := slot } grids).currentSlot.grid
      isDl) = grids isDl := by
    cases isDl <;> rfl
  have hnum : (grids isDl).numRbs = before.config.numRbs := by
    have hsize := hgrids isDl
    rw [(SlotContext.initializeSlot_ok hinit).2 isDl] at hsize
    exact congrArg Prod.fst hsize
  cases hue : before.ueRepo.ue? d.rnti with
  | none =>
      refine ⟨none, ?_, iff_of_true rfl (Or.inl rfl), fun d' cell' h ↦ by cases h⟩
      have hfind : (before.ueRepo.findByRnti d.rnti).run none = .ok none := by
        rw [UeRepository.findByRnti_run, hue]
      rw [allocate]
      exact run_bind_of_ok hfind
  | some ue =>
      obtain ⟨width, hwidth⟩ : ∃ width, width =
          min (requiredRbs P d.bufferBytes ue before) (widest (grids isDl)) := ⟨_, rfl⟩
      have hrequired := one_le_requiredRbs P d.bufferBytes ue before
      have hempty : widest (grids isDl) = 0 ↔
          ∀ rb < before.config.numRbs, ¬ (grids isDl).FreeForData rb := by
        rw [widest_eq_zero_iff, hnum]
        apply forall₂_congr
        intro rb _
        rw [← rbFree_iff_freeForData, Bool.not_eq_true]
      refine ⟨_, allocate_run hue hrbs hgrid hnum hwidth, ?_, ?_⟩
      · by_cases hzero : width = 0
        · rw [if_pos hzero]
          exact iff_of_true rfl (Or.inr (hempty.mp (by omega)))
        · have hpos : 0 < width := Nat.pos_of_ne_zero hzero
          obtain ⟨start, hstart⟩ := exists_firstFit hpos (hwidth.trans_le (min_le_right _ _))
          rw [if_neg hzero, hstart, Option.map_some]
          apply iff_of_false (Option.some_ne_none _)
          rintro (hnone | hfull)
          · cases hnone
          · have hnothing := hempty.mpr hfull
            omega
      · intro d' cell' hresult
        by_cases hzero : width = 0
        · rw [if_pos hzero] at hresult
          cases hresult
        · rw [if_neg hzero, Option.map_eq_some_iff] at hresult
          obtain ⟨start, hstart, hpair⟩ := hresult
          obtain ⟨rfl, rfl⟩ := Prod.mk.inj hpair
          exact ⟨ue, _, start, width, rfl, rfl,
            serves_of_width d hrbs hnum hwidth (Nat.pos_of_ne_zero hzero) hstart⟩

/-- Hundred bytes for user seven. -/
def hundredBytes : SchedulingDecision ℚ where
  rnti := 7
  type := .newTx
  tbConfig := {}
  harqId := 0
  priorityMetric := 0
  bufferBytes := 100

/-- Four blocks of which the second is occupied. -/
def fragmented : ResourceGrid := (ResourceGrid.create 4).fill (resource 1 1)

theorem allocate_correct_fragmented :
    ∃ fresh result, ((CellContext.withUe (.fdd 1 4)
        { ptr := (1, 0), rnti := 7, ueId := 1 }).advanceToSlot {}).run none = .ok fresh ∧
      (allocate .plain hundredBytes (fresh.withGrids fun _ ↦ fragmented) true).run none =
        .ok result ∧ result ≠ none := by
  have hslot : ((CellContext.withUe (.fdd 1 4)
      { ptr := (1, 0), rnti := 7, ueId := 1 }).advanceToSlot {}).run none = .ok _ := rfl
  have hsize : fragmented.size = (4, 14) := ResourceGrid.size_fill _ _
  obtain ⟨result, hrun, hnone, _⟩ :=
    allocate_correct (by decide) hslot (fun isDl ↦ hsize.trans (by cases isDl <;> rfl))
      .plain hundredBytes true
  refine ⟨_, result, hslot, hrun, fun hfailed ↦ ?_⟩
  rcases hnone.mp hfailed with hunknown | hfull
  · cases hunknown
  · exact hfull 0 (by decide) (rbFree_iff_freeForData.mp (by decide +kernel))

end DefaultResourceAllocator

end NrScheduler
