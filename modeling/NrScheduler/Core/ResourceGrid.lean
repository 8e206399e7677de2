import NrScheduler.Core.Types
import NrScheduler.Lib.Bitmap
import NrScheduler.Lib.FirstFit
import Mathlib.Tactic.Common

/-!
# Resource grid

One bitmap of resource blocks for each symbol of a slot.
-/

namespace NrScheduler

open LockMonad

structure ResourceGrid where
  numRbs : ℕ
  numSymbols : ℕ
  rbAllocation : Vector (BitVec 273) 14
  deriving DecidableEq

namespace ResourceGrid

def maxRbs : ℕ := 273
def maxSymbols : ℕ := 14

def create (numRbs : ℕ := maxRbs) (numSymbols : ℕ := maxSymbols) : ResourceGrid :=
  ⟨numRbs, numSymbols, Vector.replicate 14 0⟩

def reset (g : ResourceGrid) : ResourceGrid :=
  { g with rbAllocation := Vector.replicate 14 0 }

/-- The bit of a cell. -/
def occupied (g : ResourceGrid) (sym rb : ℕ) : Bool :=
  if hs : sym < 14 then g.rbAllocation[sym].getLsbD rb else false

def setBit (g : ResourceGrid) (sym rb : ℕ) : ResourceGrid :=
  if hs : sym < 14 then
    { g with
      rbAllocation := g.rbAllocation.set sym (g.rbAllocation[sym] ||| BitVec.twoPow 273 rb) }
  else g

def clearBit (g : ResourceGrid) (sym rb : ℕ) : ResourceGrid :=
  if hs : sym < 14 then
    { g with rbAllocation := g.rbAllocation.set sym (Bitmap.clearBit g.rbAllocation[sym] rb) }
  else g

/-- Read one bit; outside the bitmaps the access is out of range. -/
def test (g : ResourceGrid) (sym rb : ℕ) : Exec Bool :=
  if sym < 14 ∧ rb < 273 then pure (g.occupied sym rb) else crash .outOfRange

def set (g : ResourceGrid) (sym rb : ℕ) : Exec ResourceGrid :=
  if sym < 14 ∧ rb < 273 then pure (g.setBit sym rb) else crash .outOfRange

def clear (g : ResourceGrid) (sym rb : ℕ) : Exec ResourceGrid :=
  if sym < 14 ∧ rb < 273 then pure (g.clearBit sym rb) else crash .outOfRange

/-- The cells of a resource in the order the nested loops visit them. -/
def cells (res : TimeFrequencyResource) : List (ℕ × ℕ) :=
  let s := res.symbolRange
  let r := res.rbRange
  (List.range' s.startSymbol (s.endSymbol + 1 - s.startSymbol)).flatMap fun sym ↦
    (List.range' r.startRb (r.endRb + 1 - r.startRb)).map fun rb ↦ (sym, rb)

/-- The outer loop counts up in eight bits: if its last symbol is 255 it only ends through
the inner loop, which leaves the bitmaps or returns, unless that loop is empty. -/
def loopsForever (res : TimeFrequencyResource) : Prop :=
  res.symbolRange.endSymbol = 2 ^ 8 - 1 ∧ res.rbRange.endRb < res.rbRange.startRb

instance (res : TimeFrequencyResource) : Decidable (loopsForever res) :=
  inferInstanceAs (Decidable (_ ∧ _))

/-- Whether all listed cells are free; the first occupied one ends the loops. -/
def allFree (g : ResourceGrid) : List (ℕ × ℕ) → Exec Bool
  | [] => pure true
  | (sym, rb) :: rest => do
      if ← g.test sym rb then pure false else g.allFree rest

def isAvailable (g : ResourceGrid) (res : TimeFrequencyResource) : Exec Bool :=
  if loopsForever res then crash .diverges else g.allFree (cells res)

def allocate (g : ResourceGrid) (res : TimeFrequencyResource) : Exec (Bool × ResourceGrid) := do
  if ← g.isAvailable res then
    let g' ← (cells res).foldlM (fun (g : ResourceGrid) c ↦ g.set c.1 c.2) g
    return (true, g')
  else
    return (false, g)

def deallocate (g : ResourceGrid) (res : TimeFrequencyResource) : Exec ResourceGrid :=
  if loopsForever res then crash .diverges
  else (cells res).foldlM (fun (g : ResourceGrid) c ↦ g.clear c.1 c.2) g

/-- Whether block `rb` is free on all listed symbols; the first occupied one ends the loop. -/
def blockFree (g : ResourceGrid) (rb : ℕ) : List ℕ → Exec Bool
  | [] => pure true
  | sym :: rest => do
      if ← g.test sym rb then pure false else g.blockFree rb rest

/-- The loop over the blocks from `rb` on, with `fuel` blocks left. -/
def findLoop (g : ResourceGrid) (numRbs : ℕ) (syms : List ℕ) :
    (fuel rb contiguous start : ℕ) → Exec (Option ResourceBlockRange)
  | 0, _, _, _ => pure none
  | fuel + 1, rb, contiguous, start => do
      if ← g.blockFree rb syms then
        let start' := if contiguous = 0 then rb else start
        if numRbs ≤ contiguous + 1 then return some ⟨start', numRbs⟩
        else g.findLoop numRbs syms fuel (rb + 1) (contiguous + 1) start'
      else
        g.findLoop numRbs syms fuel (rb + 1) 0 start

def findContiguous (g : ResourceGrid) (numRbs startSymbol numSymbols : ℕ) :
    Exec (Option ResourceBlockRange) :=
  g.findLoop numRbs (List.range' startSymbol numSymbols) g.numRbs 0 0 0

def availableRbs (g : ResourceGrid) (symbol : ℕ) : Exec ℕ :=
  if hs : symbol < 14 then
    pure ((g.numRbs + 2 ^ 16 - Bitmap.count g.rbAllocation[symbol]) % 2 ^ 16)
  else crash .outOfRange

def totalAvailableRes (g : ResourceGrid) : Exec ℕ :=
  (List.range g.numSymbols).foldlM
    (fun total sym ↦ do return (total + (← g.availableRbs sym)) % 2 ^ 16) 0

/-! ## The occupied cells -/

@[simp] theorem occupied_create (numRbs numSymbols sym rb : ℕ) :
    (create numRbs numSymbols).occupied sym rb = false := by
  simp [occupied, create]

theorem occupied_setBit (g : ResourceGrid) {sym rb : ℕ} (hs : sym < 14) (hr : rb < 273)
    (s r : ℕ) :
    (g.setBit sym rb).occupied s r = true ↔ g.occupied s r = true ∨ s = sym ∧ r = rb := by
  by_cases hs14 : s < 14
  · simp only [occupied, setBit, dif_pos hs, dif_pos hs14, Vector.getElem_set]
    by_cases hsym : sym = s
    · subst hsym
      rw [if_pos rfl, BitVec.getLsbD_or, BitVec.getLsbD_twoPow, Bool.or_eq_true]
      simp only [Bool.and_eq_true, decide_eq_true_eq, true_and]
      constructor
      · rintro (h | ⟨_, h⟩)
        · exact Or.inl h
        · exact Or.inr h.symm
      · rintro (h | h)
        · exact Or.inl h
        · exact Or.inr ⟨by omega, h.symm⟩
    · rw [if_neg hsym]
      have hne : s ≠ sym := fun h ↦ hsym h.symm
      simp [hne]
  · have hne : s ≠ sym := by omega
    simp [occupied, hs14, hne]

theorem occupied_clearBit (g : ResourceGrid) (sym rb s r : ℕ) :
    (g.clearBit sym rb).occupied s r = true ↔
      g.occupied s r = true ∧ ¬ (s = sym ∧ r = rb) := by
  by_cases hsym : sym < 14
  · by_cases hs14 : s < 14
    · simp only [occupied, clearBit, dif_pos hsym, dif_pos hs14, Vector.getElem_set]
      by_cases hs : sym = s
      · subst hs
        rw [if_pos rfl, ← Bitmap.mem_members, Bitmap.members_clearBit]
        simp
      · have hne : s ≠ sym := fun h ↦ hs h.symm
        simp [hs, hne]
    · simp [occupied, hs14]
  · by_cases hs : s = sym
    · simp [occupied, hs, hsym]
    · simp [clearBit, hsym, hs]

/-! ## Size and extensionality -/

def size (g : ResourceGrid) : ℕ × ℕ := (g.numRbs, g.numSymbols)

theorem size_foldl {f : ResourceGrid → ℕ × ℕ → ResourceGrid} (hf : ∀ g c, (f g c).size = g.size)
    (g : ResourceGrid) (cs : List (ℕ × ℕ)) : (cs.foldl f g).size = g.size := by
  induction cs generalizing g with
  | nil => rfl
  | cons c cs ih => rw [List.foldl_cons, ih, hf]

theorem ext_occupied {g g' : ResourceGrid} (hsize : g.size = g'.size)
    (h : ∀ sym rb, g.occupied sym rb = true ↔ g'.occupied sym rb = true) : g = g' := by
  cases g with
  | mk numRbs numSymbols rows =>
      cases g' with
      | mk numRbs' numSymbols' rows' =>
          obtain ⟨rfl, rfl⟩ := Prod.mk.inj hsize
          congr 1
          refine Vector.ext fun sym hsym ↦ Bitmap.eq_of_members ?_
          ext rb
          simpa [occupied, hsym] using h sym rb

/-! ## The loops without faults -/

theorem test_run (g : ResourceGrid) {sym rb : ℕ} (hs : sym < 14) (hr : rb < 273)
    (env : Option (List Mutex)) :
    (g.test sym rb).run env = .ok (g.occupied sym rb) := by
  rw [test, if_pos ⟨hs, hr⟩]
  rfl

theorem set_run (g : ResourceGrid) {sym rb : ℕ} (hs : sym < 14) (hr : rb < 273)
    (env : Option (List Mutex)) :
    (g.set sym rb).run env = .ok (g.setBit sym rb) := by
  rw [set, if_pos ⟨hs, hr⟩]
  rfl

theorem clear_run (g : ResourceGrid) {sym rb : ℕ} (hs : sym < 14) (hr : rb < 273)
    (env : Option (List Mutex)) :
    (g.clear sym rb).run env = .ok (g.clearBit sym rb) := by
  rw [clear, if_pos ⟨hs, hr⟩]
  rfl

theorem allFree_run (g : ResourceGrid) {cs : List (ℕ × ℕ)}
    (hcs : ∀ c ∈ cs, c.1 < 14 ∧ c.2 < 273) (env : Option (List Mutex)) :
    (g.allFree cs).run env = .ok (cs.all fun c ↦ !g.occupied c.1 c.2) := by
  induction cs with
  | nil => rfl
  | cons c cs ih =>
      obtain ⟨sym, rb⟩ := c
      have hc := hcs (sym, rb) List.mem_cons_self
      have hrest := ih fun c hc ↦ hcs c (List.mem_cons_of_mem _ hc)
      rw [allFree, run_bind_of_ok (g.test_run hc.1 hc.2 env), List.all_cons]
      cases g.occupied sym rb with
      | true => rfl
      | false => simpa using hrest

theorem foldlM_set_run (g : ResourceGrid) {cs : List (ℕ × ℕ)}
    (hcs : ∀ c ∈ cs, c.1 < 14 ∧ c.2 < 273) (env : Option (List Mutex)) :
    (cs.foldlM (fun (g : ResourceGrid) c ↦ g.set c.1 c.2) g : Exec ResourceGrid).run env =
      .ok (cs.foldl (fun g c ↦ g.setBit c.1 c.2) g) :=
  foldlM_run_of_ok fun g c hc ↦ g.set_run (hcs c hc).1 (hcs c hc).2 env

theorem foldlM_clear_run (g : ResourceGrid) {cs : List (ℕ × ℕ)}
    (hcs : ∀ c ∈ cs, c.1 < 14 ∧ c.2 < 273) (env : Option (List Mutex)) :
    (cs.foldlM (fun (g : ResourceGrid) c ↦ g.clear c.1 c.2) g : Exec ResourceGrid).run env =
      .ok (cs.foldl (fun g c ↦ g.clearBit c.1 c.2) g) :=
  foldlM_run_of_ok fun g c hc ↦ g.clear_run (hcs c hc).1 (hcs c hc).2 env

theorem occupied_foldl_setBit (g : ResourceGrid) {cs : List (ℕ × ℕ)}
    (hcs : ∀ c ∈ cs, c.1 < 14 ∧ c.2 < 273) (s r : ℕ) :
    (cs.foldl (fun g c ↦ g.setBit c.1 c.2) g).occupied s r = true ↔
      g.occupied s r = true ∨ (s, r) ∈ cs := by
  induction cs generalizing g with
  | nil => simp
  | cons c cs ih =>
      have hc := hcs c List.mem_cons_self
      rw [List.foldl_cons, ih _ fun c hc ↦ hcs c (List.mem_cons_of_mem _ hc),
        g.occupied_setBit hc.1 hc.2, List.mem_cons, or_assoc, Prod.ext_iff]

theorem occupied_foldl_clearBit (g : ResourceGrid) (cs : List (ℕ × ℕ)) (s r : ℕ) :
    (cs.foldl (fun g c ↦ g.clearBit c.1 c.2) g).occupied s r = true ↔
      g.occupied s r = true ∧ (s, r) ∉ cs := by
  induction cs generalizing g with
  | nil => simp
  | cons c cs ih =>
      rw [List.foldl_cons, ih, occupied_clearBit, List.mem_cons, not_or, and_assoc, Prod.ext_iff]

theorem blockFree_eq_allFree (g : ResourceGrid) (rb : ℕ) (syms : List ℕ) :
    g.blockFree rb syms = g.allFree (syms.map fun sym ↦ (sym, rb)) := by
  induction syms with
  | nil => rfl
  | cons sym syms ih => rw [blockFree, List.map_cons, allFree, ih]

theorem blockFree_run (g : ResourceGrid) {rb : ℕ} {syms : List ℕ}
    (hs : ∀ sym ∈ syms, sym < 14) (hr : rb < 273) (env : Option (List Mutex)) :
    (g.blockFree rb syms).run env = .ok (syms.all fun sym ↦ !g.occupied sym rb) := by
  rw [blockFree_eq_allFree, g.allFree_run, List.all_map]
  · rfl
  · intro c hc
    obtain ⟨sym, hsym, rfl⟩ := List.mem_map.mp hc
    exact ⟨hs sym hsym, hr⟩

/-! ## First fit -/

def rbFree (g : ResourceGrid) (startSymbol numSymbols rb : ℕ) : Bool :=
  (List.range' startSymbol numSymbols).all fun sym ↦ !g.occupied sym rb

theorem rbFree_iff {g : ResourceGrid} {startSymbol numSymbols rb : ℕ} :
    g.rbFree startSymbol numSymbols rb = true ↔
      ∀ sym, startSymbol ≤ sym → sym < startSymbol + numSymbols →
        g.occupied sym rb = false := by
  simp [rbFree, List.all_eq_true, List.mem_range'_1]

theorem findLoop_run (g : ResourceGrid) {startSymbol numSymbols : ℕ}
    (hs : startSymbol + numSymbols ≤ 14) (numRbs : ℕ) (env : Option (List Mutex))
    {fuel rb contiguous start : ℕ} (hr : rb + fuel ≤ 273) :
    (g.findLoop numRbs (List.range' startSymbol numSymbols) fuel rb contiguous start).run env =
      .ok ((FirstFit.scan (g.rbFree startSymbol numSymbols) numRbs fuel rb contiguous
        start).map fun s ↦ ⟨s, numRbs⟩) := by
  induction fuel generalizing rb contiguous start with
  | zero => rfl
  | succ fuel ih =>
      have hsyms : ∀ sym ∈ List.range' startSymbol numSymbols, sym < 14 := by
        intro sym hsym
        have := List.mem_range'_1.mp hsym
        omega
      have hfree : (g.blockFree rb (List.range' startSymbol numSymbols)).run env =
          .ok (g.rbFree startSymbol numSymbols rb) := g.blockFree_run hsyms (by omega) env
      rw [findLoop, run_bind_of_ok hfree, FirstFit.scan]
      by_cases hfit : g.rbFree startSymbol numSymbols rb = true
      · rw [if_pos hfit, if_pos hfit]
        by_cases hn : numRbs ≤ contiguous + 1
        · simp only [if_pos hn]
          rfl
        · simp only [if_neg hn]
          exact ih (by omega)
      · rw [if_neg hfit, if_neg hfit]
        exact ih (by omega)

/-- The first run of `n` blocks that are free on the symbols of a range. -/
def firstFit (g : ResourceGrid) (startSymbol numSymbols n : ℕ) : Option ℕ :=
  FirstFit.scan (g.rbFree startSymbol numSymbols) n g.numRbs 0 0 0

theorem firstFit_isFirst (g : ResourceGrid) (startSymbol numSymbols : ℕ) {n : ℕ} (hn : 0 < n) :
    FirstFit.IsFirst (fun rb ↦ g.rbFree startSymbol numSymbols rb = true) g.numRbs n
      (g.firstFit startSymbol numSymbols n) :=
  FirstFit.scan_isFirst hn g.numRbs

/-- `findContiguous` never leaves the bitmaps and returns the first fit. -/
theorem findContiguous_run (g : ResourceGrid) {startSymbol numSymbols : ℕ}
    (hg : g.numRbs ≤ 273) (hs : startSymbol + numSymbols ≤ 14) (n : ℕ)
    (env : Option (List Mutex)) :
    (g.findContiguous n startSymbol numSymbols).run env =
      .ok ((g.firstFit startSymbol numSymbols n).map fun s ↦ ⟨s, n⟩) :=
  g.findLoop_run hs n env (by omega)

/-- A wider search than the bitmaps allow runs out of them. -/
theorem findLoop_crash (g : ResourceGrid) {sym : ℕ} {syms : List ℕ} (hsym : sym < 14)
    (hsyms : ∀ s ∈ syms, s < 14) {n : ℕ} (hn : 273 < n) (env : Option (List Mutex))
    {fuel rb contiguous start : ℕ} (hcontiguous : contiguous ≤ rb) (hrb : rb ≤ 273)
    (hfuel : 273 < rb + fuel) :
    (g.findLoop n (sym :: syms) fuel rb contiguous start).run env =
      .error (.crash .outOfRange) := by
  induction fuel generalizing rb contiguous start with
  | zero => omega
  | succ fuel ih =>
      rcases Nat.lt_or_eq_of_le hrb with hlt | rfl
      · have hall : ∀ s ∈ sym :: syms, s < 14 := by
          intro s hs
          rcases List.mem_cons.mp hs with rfl | hs
          · exact hsym
          · exact hsyms s hs
        rw [findLoop, run_bind_of_ok (g.blockFree_run hall hlt env)]
        split
        · have hnot : ¬ n ≤ contiguous + 1 := by omega
          simp only [if_neg hnot]
          exact ih (by omega) (by omega) (by omega)
        · exact ih (by omega) (by omega) (by omega)
      · have hout : ¬ (sym < 14 ∧ 273 < 273) := fun h ↦ absurd h.2 (lt_irrefl _)
        have htest : (g.test sym 273).run env = .error (.crash .outOfRange) := by
          rw [test, if_neg hout]
          rfl
        have hblock : (g.blockFree 273 (sym :: syms)).run env =
            .error (.crash .outOfRange) := by
          rw [blockFree]
          exact run_bind_of_error htest
        rw [findLoop]
        exact run_bind_of_error hblock

/-! ## Allocation -/

/-- A rectangle of at least one cell inside the bitmaps. -/
structure Inside (res : TimeFrequencyResource) : Prop where
  symbols_pos : 0 < res.symbolRange.numSymbols
  symbols_le : res.symbolRange.startSymbol + res.symbolRange.numSymbols ≤ 14
  rbs_pos : 0 < res.rbRange.numRbs
  rbs_le : res.rbRange.startRb + res.rbRange.numRbs ≤ 273

def Covers (res : TimeFrequencyResource) (sym rb : ℕ) : Prop :=
  (res.symbolRange.startSymbol ≤ sym ∧
    sym < res.symbolRange.startSymbol + res.symbolRange.numSymbols) ∧
  res.rbRange.startRb ≤ rb ∧ rb < res.rbRange.startRb + res.rbRange.numRbs

theorem mem_cells {res : TimeFrequencyResource} (h : Inside res) {sym rb : ℕ} :
    (sym, rb) ∈ cells res ↔ Covers res sym rb := by
  obtain ⟨hsp, hs, hrp, hr⟩ := h
  have hsym : res.symbolRange.endSymbol + 1 - res.symbolRange.startSymbol =
      res.symbolRange.numSymbols := by
    simp only [SymbolRange.endSymbol, Nat.reducePow]
    omega
  have hrb : res.rbRange.endRb + 1 - res.rbRange.startRb = res.rbRange.numRbs := by
    simp only [ResourceBlockRange.endRb, Nat.reducePow]
    omega
  simp only [cells, hsym, hrb, List.mem_flatMap, List.mem_map, List.mem_range'_1, Covers]
  constructor
  · rintro ⟨s, hs, r, hr, heq⟩
    obtain ⟨rfl, rfl⟩ := Prod.mk.inj heq
    exact ⟨hs, hr⟩
  · rintro ⟨hs, hr⟩
    exact ⟨sym, hs, rb, hr, rfl⟩

theorem cells_lt {res : TimeFrequencyResource} (h : Inside res) :
    ∀ c ∈ cells res, c.1 < 14 ∧ c.2 < 273 := by
  rintro ⟨sym, rb⟩ hc
  have hcov := (mem_cells h).mp hc
  have hs := h.symbols_le
  have hr := h.rbs_le
  exact ⟨by have := hcov.1; omega, by have := hcov.2; omega⟩

theorem not_loopsForever {res : TimeFrequencyResource} (h : Inside res) :
    ¬ loopsForever res := by
  rintro ⟨hend, _⟩
  have hs := h.symbols_le
  have hp := h.symbols_pos
  simp only [SymbolRange.endSymbol, Nat.reducePow] at hend
  omega

def fill (g : ResourceGrid) (res : TimeFrequencyResource) : ResourceGrid :=
  (cells res).foldl (fun g c ↦ g.setBit c.1 c.2) g

def drain (g : ResourceGrid) (res : TimeFrequencyResource) : ResourceGrid :=
  (cells res).foldl (fun g c ↦ g.clearBit c.1 c.2) g

@[simp] theorem size_fill (g : ResourceGrid) (res : TimeFrequencyResource) :
    (g.fill res).size = g.size := by
  refine size_foldl (fun g c ↦ ?_) g (cells res)
  unfold setBit
  split <;> rfl

@[simp] theorem size_drain (g : ResourceGrid) (res : TimeFrequencyResource) :
    (g.drain res).size = g.size := by
  refine size_foldl (fun g c ↦ ?_) g (cells res)
  unfold clearBit
  split <;> rfl

@[simp] theorem numRbs_fill (g : ResourceGrid) (res : TimeFrequencyResource) :
    (g.fill res).numRbs = g.numRbs :=
  congrArg Prod.fst (g.size_fill res)

theorem occupied_fill (g : ResourceGrid) {res : TimeFrequencyResource} (h : Inside res)
    (sym rb : ℕ) :
    (g.fill res).occupied sym rb = true ↔ g.occupied sym rb = true ∨ Covers res sym rb := by
  rw [fill, g.occupied_foldl_setBit (cells_lt h), mem_cells h]

/-- `allocate` takes the rectangle where all its cells are free, and changes nothing
otherwise. -/
theorem allocate_run (g : ResourceGrid) {res : TimeFrequencyResource} (h : Inside res)
    (env : Option (List Mutex)) :
    (g.allocate res).run env =
      .ok (if (cells res).all fun c ↦ !g.occupied c.1 c.2 then (true, g.fill res)
        else (false, g)) := by
  have havail : (g.isAvailable res).run env =
      .ok ((cells res).all fun c ↦ !g.occupied c.1 c.2) := by
    rw [isAvailable, if_neg (not_loopsForever h)]
    exact g.allFree_run (cells_lt h) env
  rw [allocate, run_bind_of_ok havail]
  split
  · rw [run_bind_of_ok (g.foldlM_set_run (cells_lt h) env)]
    rfl
  · rfl

theorem occupied_drain (g : ResourceGrid) {res : TimeFrequencyResource} (h : Inside res)
    (sym rb : ℕ) :
    (g.drain res).occupied sym rb = true ↔ g.occupied sym rb = true ∧ ¬ Covers res sym rb := by
  rw [drain, occupied_foldl_clearBit, mem_cells h]

theorem deallocate_run (g : ResourceGrid) {res : TimeFrequencyResource} (h : Inside res)
    (env : Option (List Mutex)) : (g.deallocate res).run env = .ok (g.drain res) := by
  rw [deallocate, if_neg (not_loopsForever h)]
  exact g.foldlM_clear_run (cells_lt h) env

end ResourceGrid

end NrScheduler
