import NrScheduler.Core.ResourceGrid
import NrScheduler.Lib.Runs
import NrScheduler.Lib.Tiling
import NrScheduler.Lib.WrappingSum

/-!
# The occupied cells of a grid

A grid is run together with the rectangles that were allocated on it and not given back.
They tile the occupied cells, and the grid answers every question about free cells as
they do.
-/

namespace NrScheduler

open LockMonad Runs Tiling

inductive GridOperation where
  | reset
  | allocate (res : TimeFrequencyResource)
  | deallocate (res : TimeFrequencyResource)

namespace ResourceGrid

/-- A rectangle of at least one cell inside the grid. -/
structure Within (g : ResourceGrid) (res : TimeFrequencyResource) : Prop where
  symbols_pos : 0 < res.symbolRange.numSymbols
  symbols_le : res.symbolRange.startSymbol + res.symbolRange.numSymbols ≤ g.numSymbols
  rbs_pos : 0 < res.rbRange.numRbs
  rbs_le : res.rbRange.startRb + res.rbRange.numRbs ≤ g.numRbs

instance (g : ResourceGrid) (res : TimeFrequencyResource) : Decidable (g.Within res) :=
  decidable_of_iff
    ((0 < res.symbolRange.numSymbols ∧
        res.symbolRange.startSymbol + res.symbolRange.numSymbols ≤ g.numSymbols) ∧
      0 < res.rbRange.numRbs ∧ res.rbRange.startRb + res.rbRange.numRbs ≤ g.numRbs)
    ⟨fun h ↦ ⟨h.1.1, h.1.2, h.2.1, h.2.2⟩,
      fun h ↦ ⟨⟨h.symbols_pos, h.symbols_le⟩, h.rbs_pos, h.rbs_le⟩⟩

/-- One operation on a grid and the rectangles held on it. -/
def next : ResourceGrid × List TimeFrequencyResource → GridOperation →
    Option (ResourceGrid × List TimeFrequencyResource)
  | (g, _), .reset => some (g.reset, [])
  | (g, held), .allocate res =>
      (ignoringLocks (g.allocate res)).map fun r ↦ (r.2, if r.1 then res :: held else held)
  | (g, held), .deallocate res =>
      (ignoringLocks (g.deallocate res)).map fun g' ↦ (g', held.erase res)

/-- What is allocated lies inside the grid, and what is deallocated is held. -/
def Legal : ResourceGrid × List TimeFrequencyResource → GridOperation → Prop
  | _, .reset => True
  | (g, _), .allocate res => g.Within res
  | (_, held), .deallocate res => res ∈ held

instance decidableLegal (p : ResourceGrid × List TimeFrequencyResource) :
    ∀ op, Decidable (Legal p op)
  | .reset => isTrue trivial
  | .allocate res => inferInstanceAs (Decidable (p.1.Within res))
  | .deallocate res => inferInstanceAs (Decidable (res ∈ p.2))

def occupiedCells (g : ResourceGrid) : Set (ℕ × ℕ) := {c | g.occupied c.1 c.2 = true}

def region (res : TimeFrequencyResource) : Set (ℕ × ℕ) := {c | Covers res c.1 c.2}

/-- The number of blocks a rectangle takes on a symbol. -/
def widthOn (sym : ℕ) (res : TimeFrequencyResource) : ℕ :=
  if res.symbolRange.startSymbol ≤ sym ∧
      sym < res.symbolRange.startSymbol + res.symbolRange.numSymbols then res.rbRange.numRbs
  else 0

def area (res : TimeFrequencyResource) : ℕ := res.symbolRange.numSymbols * res.rbRange.numRbs

/-- The grid is occupied by exactly the held rectangles, and its operations tell so. -/
structure Exact (numRbs numSymbols : ℕ) (g : ResourceGrid)
    (held : List TimeFrequencyResource) : Prop where
  tiles : Tiles region held g.occupiedCells
  availableRbs : ∀ sym < 14, ∃ n, ignoringLocks (g.availableRbs sym) = some n ∧
    n + (held.map (widthOn sym)).sum = numRbs
  totalAvailableRes : ∃ n, ignoringLocks g.totalAvailableRes = some n ∧
    n + (held.map area).sum = numRbs * numSymbols
  allocate : ∀ res, g.Within res → ∃ success g',
    ignoringLocks (g.allocate res) = some (success, g') ∧
    (success = true ↔ ∀ other ∈ held, Disjoint (region res) (region other)) ∧
    (success = false → g' = g) ∧
    (success = true → ignoringLocks (g'.deallocate res) = some g)

variable {g : ResourceGrid} {held : List TimeFrequencyResource} {res : TimeFrequencyResource}

/-! ## Cells -/

theorem occupiedCells_fill (h : Inside res) :
    (g.fill res).occupiedCells = g.occupiedCells ∪ region res := by
  ext c
  exact g.occupied_fill h c.1 c.2

theorem occupiedCells_drain (h : Inside res) :
    (g.drain res).occupiedCells = g.occupiedCells \ region res := by
  ext c
  exact g.occupied_drain h c.1 c.2

theorem eq_of_occupiedCells {g' : ResourceGrid} (hsize : g.size = g'.size)
    (h : g.occupiedCells = g'.occupiedCells) : g = g' :=
  ext_occupied hsize fun sym rb ↦ Set.ext_iff.mp h (sym, rb)

@[simp] theorem occupiedCells_create (numRbs numSymbols : ℕ) :
    (create numRbs numSymbols).occupiedCells = ∅ := by
  ext c
  simp [occupiedCells]

@[simp] theorem occupiedCells_reset (g : ResourceGrid) : g.reset.occupiedCells = ∅ :=
  occupiedCells_create g.numRbs g.numSymbols

theorem mem_occupiedCells_lt {c : ℕ × ℕ} (h : c ∈ g.occupiedCells) : c.1 < 14 ∧ c.2 < 273 := by
  change g.occupied c.1 c.2 = true at h
  rw [occupied] at h
  split at h
  · rename_i hs
    exact ⟨hs, Bitmap.lt_of_mem _ h⟩
  · cases h

theorem finite_occupiedCells (g : ResourceGrid) : g.occupiedCells.Finite :=
  ((Set.finite_lt_nat 14).prod (Set.finite_lt_nat 273)).subset fun _ h ↦ mem_occupiedCells_lt h

theorem all_free_iff (h : Inside res) :
    ((cells res).all fun c ↦ !g.occupied c.1 c.2) = true ↔
      Disjoint (region res) g.occupiedCells := by
  rw [List.all_eq_true, Set.disjoint_left]
  constructor
  · intro hall c hc hocc
    have hfree := hall c ((mem_cells h).mpr hc)
    rw [show g.occupied c.1 c.2 = true from hocc] at hfree
    cases hfree
  · rintro hdis ⟨sym, rb⟩ hc
    have hfree : (sym, rb) ∉ g.occupiedCells := hdis ((mem_cells h).mp hc)
    simpa [occupiedCells] using hfree

theorem Within.inside (h : g.Within res) (hrbs : g.numRbs ≤ 273) (hsymbols : g.numSymbols ≤ 14) :
    Inside res :=
  ⟨h.symbols_pos, h.symbols_le.trans hsymbols, h.rbs_pos, h.rbs_le.trans hrbs⟩

/-! ## Counting -/

theorem region_eq_prod (res : TimeFrequencyResource) :
    region res =
      Set.Ico res.symbolRange.startSymbol
          (res.symbolRange.startSymbol + res.symbolRange.numSymbols) ×ˢ
        Set.Ico res.rbRange.startRb (res.rbRange.startRb + res.rbRange.numRbs) := rfl

theorem ncard_region (res : TimeFrequencyResource) : (region res).ncard = area res := by
  rw [region_eq_prod, Set.ncard_prod, ncard_Ico_add, ncard_Ico_add, area]

theorem ncard_row_region (sym : ℕ) (res : TimeFrequencyResource) :
    (Set.preimage (Prod.mk sym) (region res)).ncard = widthOn sym res := by
  rw [region_eq_prod, widthOn]
  split
  · rename_i hsym
    rw [Set.mk_preimage_prod_right (Set.mem_Ico.mpr hsym), ncard_Ico_add]
  · rename_i hsym
    rw [Set.mk_preimage_prod_right_eq_empty (mt Set.mem_Ico.mp hsym), Set.ncard_empty]

theorem count_row {sym : ℕ} (hsym : sym < 14) :
    Bitmap.count g.rbAllocation[sym] = (Set.preimage (Prod.mk sym) g.occupiedCells).ncard := by
  rw [Bitmap.count_eq_ncard]
  congr 1
  ext rb
  simp [occupiedCells, occupied, hsym]

theorem tiles_rows {n : ℕ} (hn : ∀ c ∈ g.occupiedCells, c.1 < n) :
    Tiles (fun sym ↦ Prod.mk sym '' Set.preimage (Prod.mk sym) g.occupiedCells) (List.range n)
      g.occupiedCells where
  disjoint := List.nodup_range.imp fun hne ↦ Set.disjoint_left.mpr <| by
    rintro _ ⟨_, _, rfl⟩ ⟨_, _, heq⟩
    exact hne (Prod.mk.inj heq).1.symm
  subset sym _ := Set.image_preimage_subset _ _
  covered c hc := ⟨c.1, List.mem_range.mpr (hn c hc), c.2, hc, rfl⟩

theorem sum_count_rows {n : ℕ} (hn : ∀ c ∈ g.occupiedCells, c.1 < n) :
    ((List.range n).map fun sym ↦
      (Set.preimage (Prod.mk sym) g.occupiedCells).ncard).sum = g.occupiedCells.ncard := by
  rw [(tiles_rows hn).ncard_eq_sum g.finite_occupiedCells]
  congr 2
  funext sym
  exact (Set.ncard_image_of_injective _ (Prod.mk_right_injective sym)).symm

/-! ## Steps -/

/-- The held rectangles lie inside a grid of the given size and tile what is occupied. -/
structure Holding (numRbs numSymbols : ℕ) (p : ResourceGrid × List TimeFrequencyResource) :
    Prop where
  size : p.1.size = (numRbs, numSymbols)
  within : ∀ res ∈ p.2, p.1.Within res
  tiles : Tiles region p.2 p.1.occupiedCells

variable {numRbs numSymbols : ℕ}

theorem Within.congr {g' : ResourceGrid} (h : g.Within res) (hsize : g'.size = g.size) :
    g'.Within res := by
  obtain ⟨hrbs, hsymbols⟩ := Prod.mk.inj hsize
  exact ⟨h.symbols_pos, hsymbols ▸ h.symbols_le, h.rbs_pos, hrbs ▸ h.rbs_le⟩

theorem holding_create (numRbs numSymbols : ℕ) :
    Holding numRbs numSymbols (create numRbs numSymbols, []) where
  size := rfl
  within _ h := (List.not_mem_nil h).elim
  tiles := by simpa using Tiles.nil

theorem Holding.allocate (h : Holding numRbs numSymbols (g, held)) (hrbs : numRbs ≤ 273)
    (hsymbols : numSymbols ≤ 14) (hres : g.Within res) :
    (ignoringLocks (g.allocate res) = some (true, g.fill res) ∧
      ∀ other ∈ held, Disjoint (region res) (region other)) ∨
    (ignoringLocks (g.allocate res) = some (false, g) ∧
      ¬ ∀ other ∈ held, Disjoint (region res) (region other)) := by
  obtain ⟨rfl, rfl⟩ := Prod.mk.inj h.size
  have hin := hres.inside hrbs hsymbols
  simp only [ignoringLocks_eq_some, g.allocate_run hin, ← h.tiles.disjoint_iff]
  by_cases hfree : Disjoint (region res) g.occupiedCells
  · rw [if_pos ((all_free_iff hin).mpr hfree)]
    exact Or.inl ⟨rfl, hfree⟩
  · rw [if_neg (mt (all_free_iff hin).mp hfree)]
    exact Or.inr ⟨rfl, hfree⟩

/-- Every legal operation returns and keeps the bookkeeping right. -/
theorem Holding.next {p : ResourceGrid × List TimeFrequencyResource} {op : GridOperation}
    (h : Holding numRbs numSymbols p) (hrbs : numRbs ≤ 273) (hsymbols : numSymbols ≤ 14)
    (hlegal : Legal p op) : ∃ p', next p op = some p' ∧ Holding numRbs numSymbols p' := by
  obtain ⟨g, held⟩ := p
  cases op with
  | reset =>
      refine ⟨_, rfl, h.size, fun _ hnil ↦ (List.not_mem_nil hnil).elim, ?_⟩
      simpa using Tiles.nil
  | allocate res =>
      have hres : g.Within res := hlegal
      rcases h.allocate hrbs hsymbols hres with ⟨hrun, hfree⟩ | ⟨hrun, _⟩
      · obtain ⟨rfl, rfl⟩ := Prod.mk.inj h.size
        have hin := hres.inside hrbs hsymbols
        refine ⟨(g.fill res, res :: held), by rw [ResourceGrid.next, hrun]; rfl, g.size_fill res,
          ?_, ?_⟩
        · intro other hother
          rcases List.mem_cons.mp hother with rfl | hother
          · exact hres.congr (g.size_fill _)
          · exact (h.within other hother).congr (g.size_fill res)
        · rw [occupiedCells_fill hin]
          exact h.tiles.cons (h.tiles.disjoint_iff.mpr hfree)
      · exact ⟨(g, held), by rw [ResourceGrid.next, hrun]; rfl, h⟩
  | deallocate res =>
      have hheld : res ∈ held := hlegal
      obtain ⟨rfl, rfl⟩ := Prod.mk.inj h.size
      have hin := (h.within res hheld).inside hrbs hsymbols
      have hrun : ignoringLocks (g.deallocate res) = some (g.drain res) :=
        ignoringLocks_eq_some.mpr (g.deallocate_run hin none)
      refine ⟨(g.drain res, held.erase res), by rw [ResourceGrid.next, hrun]; rfl,
        g.size_drain res, ?_, ?_⟩
      · intro other hother
        exact (h.within other (List.mem_of_mem_erase hother)).congr (g.size_drain res)
      · rw [occupiedCells_drain hin]
        exact h.tiles.erase hheld

/-! ## Counts -/

/-- The occupied cells lie in the grid, not only in the bitmaps. -/
def Bounded (g : ResourceGrid) : Prop :=
  ∀ c ∈ g.occupiedCells, c.1 < g.numSymbols ∧ c.2 < g.numRbs

theorem finite_row (g : ResourceGrid) (sym : ℕ) :
    (Set.preimage (Prod.mk sym) g.occupiedCells).Finite :=
  g.finite_occupiedCells.preimage (Prod.mk_right_injective sym).injOn

/-- What is occupied on a symbol never exceeds the blocks of the grid. -/
theorem Bounded.availableRbs (h : g.Bounded) (hrbs : g.numRbs ≤ 273) {sym : ℕ} (hsym : sym < 14) :
    (Set.preimage (Prod.mk sym) g.occupiedCells).ncard ≤ g.numRbs ∧
      ∀ env, (g.availableRbs sym).run env =
        .ok (g.numRbs - (Set.preimage (Prod.mk sym) g.occupiedCells).ncard) := by
  have hle : (Set.preimage (Prod.mk sym) g.occupiedCells).ncard ≤ g.numRbs := by
    rw [← ncard_Iio g.numRbs]
    exact Set.ncard_le_ncard (fun _ hrb ↦ (h _ hrb).2) (Set.finite_lt_nat g.numRbs)
  refine ⟨hle, fun env ↦ ?_⟩
  have hmod : (g.numRbs + 2 ^ 16 - (Set.preimage (Prod.mk sym) g.occupiedCells).ncard) % 2 ^ 16 =
      g.numRbs - (Set.preimage (Prod.mk sym) g.occupiedCells).ncard := by omega
  rw [ResourceGrid.availableRbs, dif_pos hsym, count_row hsym, hmod]
  rfl

theorem Bounded.totalAvailableRes (h : g.Bounded) (hrbs : g.numRbs ≤ 273)
    (hsymbols : g.numSymbols ≤ 14) : ∃ n, g.totalAvailableRes.run none = .ok n ∧
      n + g.occupiedCells.ncard = g.numRbs * g.numSymbols := by
  let row (sym : ℕ) := (Set.preimage (Prod.mk sym) g.occupiedCells).ncard
  have hlt : ∀ sym ∈ List.range g.numSymbols, sym < 14 :=
    fun _ hsym ↦ (List.mem_range.mp hsym).trans_le hsymbols
  have hrun : g.totalAvailableRes.run none = .ok ((List.range g.numSymbols).foldl
      (fun total sym ↦ (total + (g.numRbs - row sym)) % 2 ^ 16) 0) := by
    refine foldlM_run_of_ok fun total sym hsym ↦ ?_
    rw [run_bind_of_ok ((h.availableRbs hrbs (hlt sym hsym)).2 none)]
    rfl
  have hsplit : ((List.range g.numSymbols).map fun sym ↦ g.numRbs - row sym).sum +
      g.occupiedCells.ncard = g.numRbs * g.numSymbols := by
    rw [← sum_count_rows fun c hc ↦ (h c hc).1, ← List.sum_map_add]
    calc ((List.range g.numSymbols).map fun sym ↦ g.numRbs - row sym + row sym).sum
      _ = ((List.range g.numSymbols).map fun _ ↦ g.numRbs).sum := by
          congr 1
          refine List.map_congr_left fun sym hsym ↦ Nat.sub_add_cancel ?_
          exact (h.availableRbs hrbs (hlt sym hsym)).1
      _ = g.numRbs * g.numSymbols := by simp [Nat.mul_comm]
  have hbound : g.numRbs * g.numSymbols ≤ 273 * 14 := Nat.mul_le_mul hrbs hsymbols
  refine ⟨_, hrun, ?_⟩
  rw [WrappingSum.foldl_add_mod (fun sym ↦ g.numRbs - row sym) _ (by omega)]
  omega

theorem Holding.bounded (h : Holding numRbs numSymbols (g, held)) : g.Bounded := by
  intro c hc
  obtain ⟨res, hres, hcov⟩ := h.tiles.mem_iff.mp hc
  have hin := h.within res hres
  exact ⟨hcov.1.2.trans_le hin.symbols_le, hcov.2.2.trans_le hin.rbs_le⟩

theorem Holding.ncard_row (h : Holding numRbs numSymbols (g, held)) (sym : ℕ) :
    (Set.preimage (Prod.mk sym) g.occupiedCells).ncard = (held.map (widthOn sym)).sum := by
  simp only [(h.tiles.preimage (Prod.mk sym)).ncard_eq_sum (g.finite_row sym), ncard_row_region]

theorem Holding.exact (h : Holding numRbs numSymbols (g, held)) (hrbs : numRbs ≤ 273)
    (hsymbols : numSymbols ≤ 14) : Exact numRbs numSymbols g held where
  tiles := h.tiles
  availableRbs sym hsym := by
    obtain ⟨rfl, rfl⟩ := Prod.mk.inj h.size
    obtain ⟨hle, hrun⟩ := h.bounded.availableRbs hrbs hsym
    rw [h.ncard_row] at hle hrun
    exact ⟨_, ignoringLocks_eq_some.mpr (hrun none), Nat.sub_add_cancel hle⟩
  totalAvailableRes := by
    obtain ⟨rfl, rfl⟩ := Prod.mk.inj h.size
    obtain ⟨n, hrun, hn⟩ := h.bounded.totalAvailableRes hrbs hsymbols
    rw [h.tiles.ncard_eq_sum g.finite_occupiedCells] at hn
    simp only [ncard_region] at hn
    exact ⟨n, ignoringLocks_eq_some.mpr hrun, hn⟩
  allocate res hres := by
    rcases h.allocate hrbs hsymbols hres with ⟨hrun, hfree⟩ | ⟨hrun, hmeets⟩
    · refine ⟨true, g.fill res, hrun, by simpa using hfree, by simp, fun _ ↦ ?_⟩
      obtain ⟨rfl, rfl⟩ := Prod.mk.inj h.size
      have hin := hres.inside hrbs hsymbols
      have hback : (g.fill res).drain res = g := by
        refine eq_of_occupiedCells (by simp) ?_
        rw [occupiedCells_drain hin, occupiedCells_fill hin, Set.union_sdiff_right]
        exact (h.tiles.disjoint_iff.mpr hfree).symm.sdiff_eq_left
      rw [ignoringLocks_eq_some, deallocate_run _ hin, hback]
    · exact ⟨false, g, hrun, by simpa using hmeets, by simp, by simp⟩

/-- On every grid, after any sequence of resets, of allocations inside the grid and of
deallocations of what is held, the held rectangles tile the occupied cells, and the grid
reports and allocates free cells accordingly. -/
theorem occupancy_exact {numRbs numSymbols : ℕ} (hrbs : numRbs ≤ 273) (hsymbols : numSymbols ≤ 14)
    {ops : List GridOperation}
    (hlegal : Throughout next Legal (create numRbs numSymbols, []) ops) :
    ∃ g held, ops.foldlM next (create numRbs numSymbols, []) = some (g, held) ∧
      Exact numRbs numSymbols g held := by
  obtain ⟨⟨g, held⟩, hrun, hholding⟩ := exists_foldlM_of_throughout
    (Holding numRbs numSymbols) (fun _ _ h hop ↦ h.next hrbs hsymbols hop)
    (holding_create numRbs numSymbols) hlegal
  exact ⟨g, held, hrun, hholding.exact hrbs hsymbols⟩

/-- Two rectangles side by side, a third that overlaps both, and the first one given back. -/
theorem occupancy_exact_rectangles :
    ∃ g held, [GridOperation.allocate ⟨⟨0, 20⟩, ⟨0, 7⟩⟩, .allocate ⟨⟨20, 30⟩, ⟨0, 7⟩⟩,
      .allocate ⟨⟨10, 20⟩, ⟨3, 4⟩⟩, .deallocate ⟨⟨0, 20⟩, ⟨0, 7⟩⟩].foldlM next
        (create 106 14, []) = some (g, held) ∧ Exact 106 14 g held :=
  occupancy_exact (by decide) (by decide) (by decide +kernel)

end ResourceGrid

end NrScheduler
