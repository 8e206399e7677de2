import NrScheduler.Properties.GridOccupancy

/-!
# What a grid refuses

The loops of a grid compare with no bound of it.  They keep to the grid exactly where they
meet an occupied cell before they leave it, or where the resource lies in the grid and the
last block and symbol are computed without a wrap.
-/

namespace NrScheduler

open LockMonad Runs Tiling

namespace ResourceGrid

/-- The cells that a search through a list looks at: all up to the first occupied one. -/
def tested (g : ResourceGrid) : List (ℕ × ℕ) → List (ℕ × ℕ)
  | [] => []
  | c :: rest => if g.occupied c.1 c.2 then [c] else c :: g.tested rest

def InGrid (g : ResourceGrid) (c : ℕ × ℕ) : Prop := c.1 < g.numSymbols ∧ c.2 < g.numRbs

/-- The ranges of the resource, empty ones included, end within the grid. -/
def Has (g : ResourceGrid) (res : TimeFrequencyResource) : Prop :=
  res.symbolRange.startSymbol + res.symbolRange.numSymbols ≤ g.numSymbols ∧
    res.rbRange.startRb + res.rbRange.numRbs ≤ g.numRbs

/-- No count of free blocks wraps. -/
def CountsRight (g : ResourceGrid) : Prop :=
  (∀ sym < 14, ∃ n, ignoringLocks (g.availableRbs sym) = some n ∧
    n + (Set.preimage (Prod.mk sym) g.occupiedCells).ncard = g.numRbs) ∧
  ∃ n, ignoringLocks g.totalAvailableRes = some n ∧
    n + g.occupiedCells.ncard = g.numRbs * g.numSymbols

/-- The call returns, looks at and sets cells of the grid only, succeeds only for resources
in the grid, and leaves counts that do not wrap. -/
def Respects (g : ResourceGrid) (res : TimeFrequencyResource) : Prop :=
  ∃ success g', ignoringLocks (g.allocate res) = some (success, g') ∧
    (∀ c ∈ g.tested (cells res), g.InGrid c) ∧
    (success = true → (∀ c ∈ cells res, g.InGrid c) ∧ g.Has res) ∧ g'.CountsRight

/-- The loops meet an occupied cell before they leave the grid. -/
def Blocked (g : ResourceGrid) (res : TimeFrequencyResource) : Prop :=
  ∃ before c after, cells res = before ++ c :: after ∧ g.occupied c.1 c.2 = true ∧
    ∀ c' ∈ before, g.InGrid c'

/-- Neither `start + length - 1` wraps below zero, except where the loops over the blocks are
not entered. -/
def NoUnderflow (res : TimeFrequencyResource) : Prop :=
  0 < res.symbolRange.startSymbol + res.symbolRange.numSymbols ∧
    (res.symbolRange.numSymbols = 0 ∨ 0 < res.rbRange.startRb + res.rbRange.numRbs)

def Admits (g : ResourceGrid) (res : TimeFrequencyResource) : Prop :=
  g.Blocked res ∨ g.Has res ∧ NoUnderflow res

def nextAllocate (g : ResourceGrid) (res : TimeFrequencyResource) : Option ResourceGrid :=
  (ignoringLocks (g.allocate res)).map Prod.snd

/-- The grid has the given size, within the bitmaps, and its occupied cells lie in it. -/
structure Sound (numRbs numSymbols : ℕ) (g : ResourceGrid) : Prop where
  size : g.size = (numRbs, numSymbols)
  bounded : g.Bounded

variable {g g' : ResourceGrid} {res : TimeFrequencyResource} {c : ℕ × ℕ}
  {before after : List (ℕ × ℕ)} {numRbs numSymbols : ℕ}

/-! ## The search -/

theorem tested_of_free {cs : List (ℕ × ℕ)} (h : ∀ c ∈ cs, g.occupied c.1 c.2 = false) :
    g.tested cs = cs := by
  induction cs with
  | nil => rfl
  | cons c cs ih =>
      obtain ⟨hc, hrest⟩ := List.forall_mem_cons.mp h
      rw [tested, hc, if_neg Bool.false_ne_true, ih hrest]

theorem tested_subset (h : g.occupied c.1 c.2 = true) :
    g.tested (before ++ c :: after) ⊆ before ++ [c] := by
  induction before with
  | nil => rw [List.nil_append, tested, if_pos h, List.nil_append]; exact List.Subset.refl _
  | cons b before ih =>
      rw [List.cons_append, tested, List.cons_append]
      split
      · exact List.cons_subset_cons b (List.nil_subset _)
      · exact List.cons_subset_cons b ih

theorem subset_tested_of_first (hbefore : ∀ b ∈ before, g.occupied b.1 b.2 = false) :
    before ⊆ g.tested (before ++ c :: after) := by
  induction before with
  | nil => exact List.nil_subset _
  | cons b before ih =>
      obtain ⟨hb, hrest⟩ := List.forall_mem_cons.mp hbefore
      rw [List.cons_append, tested, hb, if_neg Bool.false_ne_true]
      exact List.cons_subset_cons b (ih hrest)

/-- An occupied cell ends the search, whatever comes after it. -/
theorem allFree_append_run {env : Option (List Mutex)}
    (hbefore : ∀ b ∈ before, b.1 < 14 ∧ b.2 < 273) (hc : g.occupied c.1 c.2 = true) :
    (g.allFree (before ++ c :: after)).run env = .ok false := by
  have hlt : c.1 < 14 ∧ c.2 < 273 := mem_occupiedCells_lt (g := g) hc
  induction before with
  | nil =>
      rw [List.nil_append, allFree, run_bind_of_ok (g.test_run hlt.1 hlt.2 env), hc]
      rfl
  | cons b before ih =>
      obtain ⟨hb, hrest⟩ := List.forall_mem_cons.mp hbefore
      rw [List.cons_append, allFree, run_bind_of_ok (g.test_run hb.1 hb.2 env)]
      split
      · rfl
      · exact ih hrest

theorem mem_cells_iff : c ∈ cells res ↔
    (res.symbolRange.startSymbol ≤ c.1 ∧ c.1 ≤ res.symbolRange.endSymbol) ∧
      res.rbRange.startRb ≤ c.2 ∧ c.2 ≤ res.rbRange.endRb := by
  simp only [cells, List.mem_flatMap, List.mem_map, List.mem_range'_1]
  constructor
  · rintro ⟨sym, hsym, rb, hrb, rfl⟩
    dsimp only
    omega
  · rintro ⟨hsym, hrb⟩
    exact ⟨c.1, by omega, c.2, by omega, rfl⟩

theorem cells_of_loopsForever (h : loopsForever res) : cells res = [] := by
  refine List.eq_nil_iff_forall_not_mem.mpr fun c hc ↦ ?_
  have hc' := mem_cells_iff.mp hc
  have hlt := h.2
  omega

/-! ## One call -/

theorem allocate_of_blocked (hsplit : cells res = before ++ c :: after)
    (hc : g.occupied c.1 c.2 = true) (hbefore : ∀ b ∈ before, b.1 < 14 ∧ b.2 < 273) :
    ignoringLocks (g.allocate res) = some (false, g) := by
  have hends : ¬ loopsForever res := by
    intro hloop
    rw [cells_of_loopsForever hloop] at hsplit
    exact List.append_ne_nil_of_right_ne_nil before (List.cons_ne_nil c after) hsplit.symm
  have havail : (g.isAvailable res).run none = .ok false := by
    rw [isAvailable, if_neg hends, hsplit]
    exact allFree_append_run hbefore hc
  rw [ignoringLocks_eq_some, allocate, run_bind_of_ok havail]
  rfl

theorem allocate_of_free (hends : ¬ loopsForever res)
    (hcells : ∀ c ∈ cells res, c.1 < 14 ∧ c.2 < 273)
    (hfree : ∀ c ∈ cells res, g.occupied c.1 c.2 = false) :
    ignoringLocks (g.allocate res) = some (true, g.fill res) := by
  have hall : ((cells res).all fun c ↦ !g.occupied c.1 c.2) = true :=
    List.all_eq_true.mpr fun c hc ↦ by rw [hfree c hc]; rfl
  have havail : (g.isAvailable res).run none = .ok true := by
    rw [isAvailable, if_neg hends, g.allFree_run hcells none, hall]
  rw [ignoringLocks_eq_some, allocate, run_bind_of_ok havail, if_pos rfl,
    run_bind_of_ok (g.foldlM_set_run hcells none)]
  rfl

theorem loopsForever_diverges (h : loopsForever res) : ignoringLocks (g.allocate res) = none := by
  have hrun : (g.isAvailable res).run none = .error (.crash .diverges) := by
    rw [isAvailable, if_pos h]
    rfl
  rw [ignoringLocks, allocate, run_bind_of_error hrun]
  rfl

/-! ## Sound grids -/

theorem sound_create (numRbs numSymbols : ℕ) :
    Sound numRbs numSymbols (create numRbs numSymbols) where
  size := rfl
  bounded c hc := by
    rw [occupiedCells_create] at hc
    exact hc.elim

theorem Sound.lt (h : Sound numRbs numSymbols g) (hrbs : numRbs ≤ 273) (hsymbols : numSymbols ≤ 14)
    (hc : g.InGrid c) : c.1 < 14 ∧ c.2 < 273 := by
  obtain ⟨rfl, rfl⟩ := Prod.mk.inj h.size
  exact ⟨hc.1.trans_le hsymbols, hc.2.trans_le hrbs⟩

theorem Sound.countsRight (h : Sound numRbs numSymbols g) (hrbs : numRbs ≤ 273)
    (hsymbols : numSymbols ≤ 14) : g.CountsRight := by
  obtain ⟨rfl, rfl⟩ := Prod.mk.inj h.size
  refine ⟨fun sym hsym ↦ ?_, ?_⟩
  · obtain ⟨hle, hrun⟩ := h.bounded.availableRbs hrbs hsym
    exact ⟨_, ignoringLocks_eq_some.mpr (hrun none), Nat.sub_add_cancel hle⟩
  · obtain ⟨n, hrun, hn⟩ := h.bounded.totalAvailableRes hrbs hsymbols
    exact ⟨n, ignoringLocks_eq_some.mpr hrun, hn⟩

theorem Sound.fill (h : Sound numRbs numSymbols g) (hrbs : numRbs ≤ 273)
    (hsymbols : numSymbols ≤ 14) (hcells : ∀ c ∈ cells res, g.InGrid c) :
    Sound numRbs numSymbols (g.fill res) where
  size := (g.size_fill res).trans h.size
  bounded c hc := by
    have hsize := Prod.mk.inj (g.size_fill res)
    rw [hsize.1, hsize.2]
    rcases (g.occupied_foldl_setBit (fun c hc ↦ h.lt hrbs hsymbols (hcells c hc)) c.1 c.2).mp hc
      with hc | hc
    · exact h.bounded c hc
    · exact hcells c hc

/-- Without a wrap the loops visit the cells of the resource. -/
theorem inGrid_of_has (h : Sound numRbs numSymbols g) (hrbs : numRbs ≤ 273)
    (hsymbols : numSymbols ≤ 14) (hhas : g.Has res) (hno : NoUnderflow res) :
    ¬ loopsForever res ∧ ∀ c ∈ cells res, g.InGrid c := by
  obtain ⟨rfl, rfl⟩ := Prod.mk.inj h.size
  obtain ⟨hsym, hrb⟩ := hhas
  obtain ⟨hsympos, hrbpos⟩ := hno
  constructor
  · rintro ⟨hend, _⟩
    simp only [SymbolRange.endSymbol, Nat.reducePow] at hend
    omega
  · intro c hc
    obtain ⟨hc₁, hc₂⟩ := mem_cells_iff.mp hc
    simp only [SymbolRange.endSymbol, ResourceBlockRange.endRb, Nat.reducePow] at hc₁ hc₂
    constructor <;> omega

/-- With a wrap they leave the grid, or never end. -/
theorem noUnderflow_of_inGrid (h : Sound numRbs numSymbols g) (hrbs : numRbs ≤ 273)
    (hsymbols : numSymbols ≤ 14) (hends : ¬ loopsForever res) (hhas : g.Has res)
    (hcells : ∀ c ∈ cells res, g.InGrid c) : NoUnderflow res := by
  obtain ⟨rfl, rfl⟩ := Prod.mk.inj h.size
  obtain ⟨hsym, hrb⟩ := hhas
  constructor
  · by_contra hzero
    have hend : res.symbolRange.endSymbol = 2 ^ 8 - 1 := by
      simp only [SymbolRange.endSymbol, Nat.reducePow]
      omega
    by_cases hempty : res.rbRange.endRb < res.rbRange.startRb
    · exact hends ⟨hend, hempty⟩
    · have hin := hcells (2 ^ 8 - 1, res.rbRange.startRb)
        (mem_cells_iff.mpr ⟨⟨by omega, hend.ge⟩, le_rfl, by omega⟩)
      have hlt := hin.1.trans_le hsymbols
      omega
  · by_contra hzero
    push Not at hzero
    have hend : res.rbRange.endRb = 2 ^ 16 - 1 := by
      simp only [ResourceBlockRange.endRb, Nat.reducePow]
      omega
    have hlast : res.symbolRange.startSymbol ≤ res.symbolRange.endSymbol := by
      simp only [SymbolRange.endSymbol, Nat.reducePow]
      omega
    have hin := hcells (res.symbolRange.startSymbol, 2 ^ 16 - 1)
      (mem_cells_iff.mpr ⟨⟨le_rfl, hlast⟩, by omega, hend.ge⟩)
    have hlt := hin.2.trans_le hrbs
    omega

theorem respects_of_blocked (h : Sound numRbs numSymbols g) (hrbs : numRbs ≤ 273)
    (hsymbols : numSymbols ≤ 14) (hblocked : g.Blocked res) : g.Respects res := by
  obtain ⟨before, c, after, hsplit, hc, hbefore⟩ := hblocked
  refine ⟨false, g, allocate_of_blocked hsplit hc fun b hb ↦ h.lt hrbs hsymbols (hbefore b hb),
    ?_, fun hfalse ↦ (Bool.false_ne_true hfalse).elim, h.countsRight hrbs hsymbols⟩
  intro c' hc'
  rw [hsplit] at hc'
  rcases List.mem_append.mp (tested_subset hc hc') with hc' | hc'
  · exact hbefore c' hc'
  · exact List.mem_singleton.mp hc' ▸ h.bounded c hc

/-- A call that keeps to the grid is refused for an occupied cell, or takes what it asks for. -/
theorem Sound.cases_of_respects (h : Sound numRbs numSymbols g) (hrbs : numRbs ≤ 273)
    (hsymbols : numSymbols ≤ 14) (hrespects : g.Respects res) :
    (g.Blocked res ∧ ignoringLocks (g.allocate res) = some (false, g)) ∨
      (g.Has res ∧ NoUnderflow res ∧ (∀ c ∈ cells res, g.InGrid c) ∧
        ignoringLocks (g.allocate res) = some (true, g.fill res)) := by
  obtain ⟨success, g', hrun, htested, hgood, _⟩ := hrespects
  rcases FirstFit.first_or_none (fun c ↦ g.occupied c.1 c.2) (cells res) with
    ⟨before, c, after, hsplit, hc, hbefore⟩ | hfree
  · have hin : ∀ b ∈ before, g.InGrid b :=
      fun b hb ↦ htested b (hsplit ▸ subset_tested_of_first hbefore hb)
    exact Or.inl ⟨⟨before, c, after, hsplit, hc, hin⟩,
      allocate_of_blocked hsplit hc fun b hb ↦ h.lt hrbs hsymbols (hin b hb)⟩
  · have hends : ¬ loopsForever res := by
      intro hloop
      rw [loopsForever_diverges hloop] at hrun
      cases hrun
    rw [tested_of_free hfree] at htested
    have htakes :=
      allocate_of_free hends (fun c hc ↦ h.lt hrbs hsymbols (htested c hc)) hfree
    obtain ⟨rfl, -⟩ := Prod.mk.inj (Option.some.inj (hrun.symm.trans htakes))
    obtain ⟨hcells, hhas⟩ := hgood rfl
    exact Or.inr ⟨hhas, noUnderflow_of_inGrid h hrbs hsymbols hends hhas hcells, hcells, htakes⟩

theorem Sound.respects_iff (h : Sound numRbs numSymbols g) (hrbs : numRbs ≤ 273)
    (hsymbols : numSymbols ≤ 14) : g.Respects res ↔ g.Admits res := by
  constructor
  · intro hrespects
    rcases h.cases_of_respects hrbs hsymbols hrespects with ⟨hblocked, _⟩ | ⟨hhas, hno, _⟩
    · exact Or.inl hblocked
    · exact Or.inr ⟨hhas, hno⟩
  · rintro (hblocked | ⟨hhas, hno⟩)
    · exact respects_of_blocked h hrbs hsymbols hblocked
    · obtain ⟨hends, hcells⟩ := inGrid_of_has h hrbs hsymbols hhas hno
      rcases FirstFit.first_or_none (fun c ↦ g.occupied c.1 c.2) (cells res) with
        ⟨before, c, after, hsplit, hc, _⟩ | hfree
      · apply respects_of_blocked h hrbs hsymbols
        exact ⟨before, c, after, hsplit, hc,
          fun b hb ↦ hcells b (hsplit ▸ List.mem_append_left _ hb)⟩
      · refine ⟨true, g.fill res, allocate_of_free hends
          (fun c hc ↦ h.lt hrbs hsymbols (hcells c hc)) hfree, ?_, fun _ ↦ ⟨hcells, hhas⟩, ?_⟩
        · rwa [tested_of_free hfree]
        · exact (h.fill hrbs hsymbols hcells).countsRight hrbs hsymbols

theorem Sound.nextAllocate (h : Sound numRbs numSymbols g) (hrbs : numRbs ≤ 273)
    (hsymbols : numSymbols ≤ 14) (hrespects : g.Respects res)
    (hnext : g.nextAllocate res = some g') : Sound numRbs numSymbols g' := by
  rcases h.cases_of_respects hrbs hsymbols hrespects with ⟨_, hrun⟩ | ⟨_, _, hcells, hrun⟩
  · rw [ResourceGrid.nextAllocate, hrun] at hnext
    exact Option.some.inj hnext ▸ h
  · rw [ResourceGrid.nextAllocate, hrun] at hnext
    exact Option.some.inj hnext ▸ h.fill hrbs hsymbols hcells

/-- Along every sequence of calls with arbitrary resources, all calls keep to the grid exactly
where each meets an occupied cell before it leaves the grid, or asks for a resource in the
grid whose last symbol and block do not wrap. -/
theorem grid_refusal_iff {numRbs numSymbols : ℕ} (hrbs : numRbs ≤ 273) (hsymbols : numSymbols ≤ 14)
    (resources : List TimeFrequencyResource) :
    Throughout nextAllocate Respects (create numRbs numSymbols) resources ↔
      Throughout nextAllocate Admits (create numRbs numSymbols) resources :=
  throughout_iff (Sound numRbs numSymbols)
    (fun _ _ h ↦ ⟨h.respects_iff hrbs hsymbols, fun _ hrespects hnext ↦
      h.nextAllocate hrbs hsymbols hrespects hnext⟩) (sound_create numRbs numSymbols)

theorem grid_refusal_iff_narrow :
    Throughout nextAllocate Respects (create 100 14) [⟨⟨0, 50⟩, ⟨0, 7⟩⟩, ⟨⟨95, 10⟩, ⟨0, 1⟩⟩] ↔
      Throughout nextAllocate Admits (create 100 14)
        [⟨⟨0, 50⟩, ⟨0, 7⟩⟩, ⟨⟨95, 10⟩, ⟨0, 1⟩⟩] :=
  grid_refusal_iff (by decide) (by decide) _

/-- A grid of a hundred blocks hands out its block 104. -/
theorem allocate_past_last_block :
    (ignoringLocks ((create 100 14).allocate ⟨⟨95, 10⟩, ⟨0, 1⟩⟩)).map
      (fun r ↦ (r.1, r.2.occupied 0 104)) = some (true, true) := by
  decide +kernel

end ResourceGrid

end NrScheduler
