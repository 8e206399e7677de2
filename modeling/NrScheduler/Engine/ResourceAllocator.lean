import NrScheduler.Engine.Interfaces
import NrScheduler.Lib.Double

/-!
# Resource allocator

The decision records of the scheduler and the allocator that gives them resources.
-/

namespace NrScheduler

open LockMonad

structure SchedulingDecision (D : Type) where
  rnti : Rnti
  type : DecisionType
  resources : TimeFrequencyResource := ⟨⟨0, 0⟩, ⟨0, 0⟩⟩
  tbConfig : TransportBlockConfig
  harqId : HarqId
  priorityMetric : D
  bufferBytes : ℕ
  qosPriority : ℕ := 0

namespace DefaultResourceAllocator

variable {D : Type}

/-- After the CORESET. -/
def startSymbol : ℕ := 2

def numSymbols : ℕ := 12

/-- The layers a user can be given. -/
def layers (ue : UeContext) (cell : CellContext) : ℕ :=
  let numLayers := min ue.dlChannelQuality.rankIndicator cell.config.maxLayers
  if numLayers = 0 then 1 else numLayers

def requiredRbs (P : Platform) (bufferBytes : ℕ) (ue : UeContext) (cell : CellContext) : ℕ :=
  P.minRbsForTbs bufferBytes ue.mcsFromCqi (layers ue cell) numSymbols cell.config.numRbs

/-- The widest run of free blocks, tried from `rbs` blocks downwards. -/
def maxAllocatableFrom (g : ResourceGrid) : (rbs : ℕ) → Exec ℕ
  | 0 => pure 0
  | rbs + 1 => do
      match ← g.findContiguous (rbs + 1) startSymbol numSymbols with
      | some _ => return rbs + 1
      | none => maxAllocatableFrom g rbs

def maxAllocatableRbsInternal (cell : CellContext) (isDl : Bool) : Exec ℕ :=
  maxAllocatableFrom (cell.currentSlot.grid isDl) cell.config.numRbs

/-- The search with fewer blocks. -/
def tryFewer (g : ResourceGrid) : (rbs : ℕ) → Exec (Option ResourceBlockRange)
  | 0 => pure none
  | rbs + 1 => do
      match ← g.findContiguous (rbs + 1) startSymbol numSymbols with
      | some range => return some range
      | none => tryFewer g rbs

/-- What a successful allocation stores in the decision. -/
def record (P : Platform) (d : SchedulingDecision D) (ue : UeContext) (cell : CellContext)
    (range : ResourceBlockRange) : SchedulingDecision D :=
  { d with
    resources := ⟨range, ⟨startSymbol, numSymbols⟩⟩
    tbConfig := { d.tbConfig with
      mcsIndex := ue.mcsFromCqi
      mcsTable := 0
      numLayers := layers ue cell
      tbSizeBytes :=
        P.tbsTableLookup ue.mcsFromCqi range.numRbs (layers ue cell) numSymbols } }

/-- The decision and the cell after a successful allocation; a failed one changes neither. -/
def allocate (P : Platform) (d : SchedulingDecision D) (cell : CellContext) (isDl : Bool) :
    Exec (Option (SchedulingDecision D × CellContext)) := do
  let grid := cell.currentSlot.grid isDl
  match ← cell.ueRepo.findByRnti d.rnti with
  | none => return none
  | some ue =>
      let maxRbs ← maxAllocatableRbsInternal cell isDl
      let required := min (requiredRbs P d.bufferBytes ue cell) maxRbs
      if required = 0 then return none
      else
        let first ← grid.findContiguous required startSymbol numSymbols
        let range ← match first with
          | some range => pure (some range)
          | none => tryFewer grid (required - 1)
        match range with
        | none => return none
        | some range =>
            let (allocated, grid') ← grid.allocate ⟨range, ⟨startSymbol, numSymbols⟩⟩
            if allocated then
              return some (record P d ue cell range, cell.setGrid isDl grid')
            else return none

/-! ## Any occupancy -/

def fits (g : ResourceGrid) (n : ℕ) : Bool := (g.firstFit startSymbol numSymbols n).isSome

def widest (g : ResourceGrid) : ℕ := FirstFit.widest (fits g) g.numRbs

def resource (start width : ℕ) : TimeFrequencyResource :=
  ⟨⟨start, width⟩, ⟨startSymbol, numSymbols⟩⟩

theorem inside_resource {start width : ℕ} (hpos : 0 < width) (hle : start + width ≤ 273) :
    ResourceGrid.Inside (resource start width) where
  symbols_pos := Nat.succ_pos 11
  symbols_le := le_refl 14
  rbs_pos := hpos
  rbs_le := hle

theorem fits_mono {g : ResourceGrid} {m n : ℕ} (hm : 0 < m) (hmn : m ≤ n)
    (h : fits g n = true) : fits g m = true := by
  obtain ⟨s, hs⟩ := Option.isSome_iff_exists.mp h
  have hfit := (g.firstFit_isFirst startSymbol numSymbols (by omega : 0 < n)).fits hs
  have hfirst := g.firstFit_isFirst startSymbol numSymbols hm
  rw [fits]
  cases hr : g.firstFit startSymbol numSymbols m with
  | some s' => rfl
  | none =>
      rw [hr] at hfirst
      exact (hfirst s (hfit.mono hmn)).elim

theorem one_le_requiredRbs (P : Platform) (bufferBytes : ℕ) (ue : UeContext)
    (cell : CellContext) : 1 ≤ requiredRbs P bufferBytes ue cell := by
  rw [requiredRbs]
  cases hmax : cell.config.numRbs with
  | zero => exact le_rfl
  | succ n => exact P.one_le_minRbsForTbs _ _ _ _ (Nat.succ_pos n)

/-- The blocks that are required carry the bytes, unless they are all blocks of the cell. -/
theorem requiredRbs_carries (P : Platform) (bufferBytes : ℕ) (ue : UeContext)
    {cell : CellContext} (hpos : 0 < cell.config.numRbs) :
    requiredRbs P bufferBytes ue cell = cell.config.numRbs ∨
      bufferBytes ≤ P.tbsTableLookup ue.mcsFromCqi (requiredRbs P bufferBytes ue cell)
        (layers ue cell) numSymbols := by
  have hsearch := Bisection.search_eq_high_or
    (p := P.carries bufferBytes ue.mcsFromCqi (layers ue cell) numSymbols)
    (Nat.sub_le cell.config.numRbs 1) hpos
  rw [← Platform.minRbsSearch_eq_search, Platform.carries, decide_eq_true_eq] at hsearch
  exact hsearch

theorem fits_iff {g : ResourceGrid} {n : ℕ} (hn : 0 < n) :
    fits g n = true ↔ ∃ s, FirstFit.Fits
      (fun rb ↦ g.rbFree startSymbol numSymbols rb = true) g.numRbs n s := by
  have hfirst := g.firstFit_isFirst startSymbol numSymbols hn
  rw [fits]
  cases hr : g.firstFit startSymbol numSymbols n with
  | some s => exact iff_of_true rfl ⟨s, hfirst.fits hr⟩
  | none =>
      rw [hr] at hfirst
      exact iff_of_false Bool.false_ne_true (fun ⟨s, hs⟩ ↦ hfirst s hs)

/-- Nothing can be allocated exactly if no block is free on the symbols of the data. -/
theorem widest_eq_zero_iff {g : ResourceGrid} : widest g = 0 ↔
    ∀ rb < g.numRbs, g.rbFree startSymbol numSymbols rb = false := by
  constructor
  · intro hzero rb hrb
    rw [← Bool.not_eq_true]
    intro hfree
    have hone : fits g 1 = true := by
      apply (fits_iff Nat.one_pos).mpr
      refine ⟨rb, hrb, fun i hi hlt ↦ ?_⟩
      obtain rfl : i = rb := by omega
      exact hfree
    have hle := FirstFit.le_widest (fits g) (by omega : 1 ≤ g.numRbs) hone
    rw [← widest] at hle
    omega
  · intro hnone
    by_contra hne
    have hpos : 0 < widest g := Nat.pos_of_ne_zero hne
    have hfits : fits g (widest g) = true := FirstFit.fits_widest (fits g) hne
    obtain ⟨s, hle, hfree⟩ := (fits_iff hpos).mp hfits
    have hblock : g.rbFree startSymbol numSymbols s = true := hfree s le_rfl (by omega)
    rw [hnone s (by omega)] at hblock
    exact Bool.false_ne_true hblock

theorem exists_firstFit {g : ResourceGrid} {width : ℕ} (hpos : 0 < width)
    (hle : width ≤ widest g) :
    ∃ start, g.firstFit startSymbol numSymbols width = some start := by
  have hne : widest g ≠ 0 := by omega
  have hmost : fits g (widest g) = true := FirstFit.fits_widest (fits g) hne
  exact Option.isSome_iff_exists.mp (fits_mono hpos hle hmost)

theorem maxAllocatableFrom_run {g : ResourceGrid} (hg : g.numRbs ≤ 273) (n : ℕ)
    (env : Option (List Mutex)) :
    (maxAllocatableFrom g n).run env = .ok (FirstFit.widest (fits g) n) := by
  induction n with
  | zero => rfl
  | succ n ih =>
      rw [maxAllocatableFrom, run_bind_of_ok (g.findContiguous_run hg (by decide) (n + 1) env),
        FirstFit.widest, fits]
      cases g.firstFit startSymbol numSymbols (n + 1) with
      | none => simpa using ih
      | some s => rfl

theorem grid_allocate_run {g : ResourceGrid} (hg : g.numRbs ≤ 273) {start width : ℕ}
    (hwidth : 0 < width) (hfit : g.firstFit startSymbol numSymbols width = some start)
    (env : Option (List Mutex)) :
    ResourceGrid.Inside (resource start width) ∧
      (g.allocate (resource start width)).run env =
        .ok (true, g.fill (resource start width)) := by
  have hfits := (g.firstFit_isFirst startSymbol numSymbols hwidth).fits hfit
  have hinside : ResourceGrid.Inside (resource start width) :=
    inside_resource hwidth (hfits.1.trans hg)
  refine ⟨hinside, ?_⟩
  rw [g.allocate_run hinside, if_pos]
  rw [List.all_eq_true]
  rintro ⟨sym, rb⟩ hc
  obtain ⟨hsym, hrb⟩ := (ResourceGrid.mem_cells hinside).mp hc
  have hfree := ResourceGrid.rbFree_iff.mp (hfits.2 rb hrb.1 hrb.2) sym hsym.1 hsym.2
  simpa using hfree

/-- What `allocate` does for a known user: it takes as many blocks as are required, or the
widest free run where that is less, at the first place where they fit. -/
theorem allocate_run {P : Platform} {d : SchedulingDecision D} {cell : CellContext}
    {isDl : Bool} {ue : UeContext} {g : ResourceGrid} {width : ℕ}
    (hue : cell.ueRepo.ue? d.rnti = some ue) (hn : cell.config.numRbs ≤ 273)
    (hg : cell.currentSlot.grid isDl = g) (hnum : g.numRbs = cell.config.numRbs)
    (hwidth : width = min (requiredRbs P d.bufferBytes ue cell) (widest g)) :
    (allocate P d cell isDl).run none =
      .ok (if width = 0 then none
        else (g.firstFit startSymbol numSymbols width).map fun start ↦
          (record P d ue cell ⟨start, width⟩,
            cell.setGrid isDl (g.fill (resource start width)))) := by
  have hmax : (maxAllocatableRbsInternal cell isDl).run none = .ok (widest g) := by
    rw [maxAllocatableRbsInternal, hg, ← hnum]
    exact maxAllocatableFrom_run (hnum ▸ hn) _ none
  have hfind : (cell.ueRepo.findByRnti d.rnti).run none = .ok (some ue) := by
    rw [UeRepository.findByRnti_run, hue]
  rw [allocate, run_bind_of_ok hfind]
  simp only
  rw [run_bind_of_ok hmax]
  simp only [← hwidth, hg]
  by_cases hzero : width = 0
  · simp only [if_pos hzero]
    rfl
  · have hpos : 0 < width := Nat.pos_of_ne_zero hzero
    obtain ⟨start, hstart⟩ := exists_firstFit hpos (hwidth.trans_le (min_le_right _ _))
    have hsearch := g.findContiguous_run (hnum ▸ hn) (by decide : startSymbol + numSymbols ≤ 14)
      width none
    rw [hstart] at hsearch
    have htake := (grid_allocate_run (hnum ▸ hn) hpos hstart none).2
    simp only [if_neg hzero, hstart, Option.map_some]
    rw [run_bind_of_ok hsearch]
    simp only [Option.map_some, pure_bind]
    exact run_bind_of_ok htake

/-- No user of a cell with more blocks than the bitmaps hold can be served. -/
theorem allocate_crash {P : Platform} {d : SchedulingDecision D} {cell : CellContext}
    {isDl : Bool} {ue : UeContext} (hue : cell.ueRepo.ue? d.rnti = some ue)
    (hn : 273 < cell.config.numRbs)
    (hg : (cell.currentSlot.grid isDl).numRbs = cell.config.numRbs) :
    (allocate P d cell isDl).run none = .error (.crash .outOfRange) := by
  have hmax : (maxAllocatableRbsInternal cell isDl).run none =
      .error (.crash .outOfRange) := by
    obtain ⟨n, hnum⟩ : ∃ n, cell.config.numRbs = n + 1 := ⟨cell.config.numRbs - 1, by omega⟩
    rw [maxAllocatableRbsInternal, hnum, maxAllocatableFrom]
    apply run_bind_of_error
    apply ResourceGrid.findLoop_crash
    · decide
    · decide
    · omega
    · omega
    · omega
    · omega
  have hfind : (cell.ueRepo.findByRnti d.rnti).run none = .ok (some ue) := by
    rw [UeRepository.findByRnti_run, hue]
  rw [allocate, run_bind_of_ok hfind]
  exact run_bind_of_error hmax

/-! ## A grid that is free from some block on -/

/-- On the symbols the allocator uses, exactly the blocks from `k` on are free. -/
def FreeFrom (g : ResourceGrid) (k : ℕ) : Prop :=
  ∀ rb < g.numRbs, g.rbFree startSymbol numSymbols rb = true ↔ k ≤ rb

theorem freeFrom_create (numRbs symbols : ℕ) : FreeFrom (.create numRbs symbols) 0 := by
  intro rb _
  simp [ResourceGrid.rbFree]

theorem firstFit_of_freeFrom {g : ResourceGrid} {k n : ℕ} (h : FreeFrom g k) (hn : 0 < n) :
    g.firstFit startSymbol numSymbols n = if k + n ≤ g.numRbs then some k else none :=
  (g.firstFit_isFirst startSymbol numSymbols hn).unique (FirstFit.isFirst_of_suffix h hn)

theorem widest_of_freeFrom {g : ResourceGrid} {k : ℕ} (h : FreeFrom g k) :
    widest g = g.numRbs - k := by
  have hfits : ∀ n, 0 < n → (fits g n = true ↔ k + n ≤ g.numRbs) := by
    intro n hn
    rw [fits, firstFit_of_freeFrom h hn]
    by_cases hk : k + n ≤ g.numRbs <;> simp [hk]
  apply le_antisymm
  · by_cases hzero : widest g = 0
    · omega
    · have hle := (hfits _ (Nat.pos_of_ne_zero hzero)).mp (FirstFit.fits_widest _ hzero)
      omega
  · by_cases hk : g.numRbs - k = 0
    · omega
    · apply FirstFit.le_widest
      · omega
      · exact (hfits _ (by omega)).mpr (by omega)

theorem freeFrom_fill {g : ResourceGrid} {k width : ℕ} (h : FreeFrom g k)
    (hinside : ResourceGrid.Inside (resource k width)) :
    FreeFrom (g.fill (resource k width)) (k + width) := by
  intro rb hrb
  rw [ResourceGrid.numRbs_fill] at hrb
  have hold := h rb hrb
  rw [ResourceGrid.rbFree_iff] at hold ⊢
  have hcell : ∀ sym, (g.fill (resource k width)).occupied sym rb = false ↔
      g.occupied sym rb = false ∧ ¬ ResourceGrid.Covers (resource k width) sym rb := by
    intro sym
    rw [← Bool.not_eq_true, g.occupied_fill hinside, not_or, Bool.not_eq_true]
  simp only [hcell]
  constructor
  · intro hfree
    have hk : k ≤ rb := hold.mp fun sym hs hs' ↦ (hfree sym hs hs').1
    have hnot := (hfree startSymbol le_rfl (by decide)).2
    by_contra hlt
    exact hnot ⟨⟨le_rfl, Nat.lt_add_of_pos_right (Nat.succ_pos 11)⟩, hk, not_le.mp hlt⟩
  · intro hk sym hs hs'
    refine ⟨hold.mpr (by omega) sym hs hs', ?_⟩
    rintro ⟨_, _, hlt⟩
    simp only [resource] at hlt
    omega

/-- On such a grid the allocator takes the next piece of the line. -/
theorem allocate_run_freeFrom {P : Platform} {d : SchedulingDecision D} {cell : CellContext}
    {isDl : Bool} {ue : UeContext} {k width : ℕ}
    (hue : cell.ueRepo.ue? d.rnti = some ue) (hn : cell.config.numRbs ≤ 273)
    (hnum : (cell.currentSlot.grid isDl).numRbs = cell.config.numRbs)
    (hfree : FreeFrom (cell.currentSlot.grid isDl) k)
    (hwidth : width = min (requiredRbs P d.bufferBytes ue cell) (cell.config.numRbs - k)) :
    (allocate P d cell isDl).run none =
      .ok (if width = 0 then none
        else some (record P d ue cell ⟨k, width⟩,
          cell.setGrid isDl ((cell.currentSlot.grid isDl).fill (resource k width)))) ∧
    (width ≠ 0 →
      FreeFrom ((cell.currentSlot.grid isDl).fill (resource k width)) (k + width)) := by
  have hwidest := widest_of_freeFrom hfree
  rw [hnum] at hwidest
  rw [← hwidest] at hwidth
  constructor
  · rw [allocate_run hue hn rfl hnum hwidth]
    by_cases hzero : width = 0
    · rw [if_pos hzero, if_pos hzero]
    · rw [if_neg hzero, if_neg hzero, firstFit_of_freeFrom hfree (Nat.pos_of_ne_zero hzero),
        if_pos (by omega), Option.map_some]
  · intro hzero
    apply freeFrom_fill hfree
    exact inside_resource (Nat.pos_of_ne_zero hzero) (by omega)

end DefaultResourceAllocator

end NrScheduler
