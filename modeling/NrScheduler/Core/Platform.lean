import NrScheduler.Core.Types
import NrScheduler.Lib.Bisection
import Mathlib.Data.List.Sort
import Mathlib.Data.Nat.Log

/-!
# What the C++ standard leaves open

The order in which a hash map is walked, the order `std::sort` gives equal elements,
the clock, the contents of uninitialised locals and the result of out-of-range
conversions are choices of the platform.  Every event of a run brings its own choices,
so a statement about all runs covers every way of making them.
-/

namespace NrScheduler

/-- A sort by a strict comparison `lt`; it is free to choose the order of equal elements. -/
structure Sorting where
  sort : ∀ {α : Type}, (α → α → Bool) → List α → List α
  sort_perm : ∀ {α : Type} (lt : α → α → Bool) (l : List α), (sort lt l).Perm l
  sort_sorted : ∀ {α : Type} (lt : α → α → Bool) (l : List α),
    (∀ a ∈ l, ∀ b ∈ l, lt a b = true → lt b a = false) →
    (∀ a ∈ l, ∀ b ∈ l, ∀ c ∈ l, lt a b = false → lt b c = false → lt a c = false) →
    (sort lt l).Pairwise fun a b ↦ lt b a = false

/-- The arguments of a sort, with their type. -/
abbrev SortInput := Σ α : Type, (α → α → Bool) × List α

/-- Where all elements are equal, some sort gives them any order one likes. -/
theorem Sorting.exists_sort_eq (base : Sorting) {α : Type} {lt : α → α → Bool} {l l' : List α}
    (hperm : l'.Perm l) (hlt : ∀ a ∈ l, ∀ b ∈ l, lt a b = false) :
    ∃ s : Sorting, s.sort lt l = l' := by
  classical
  let sort : ∀ {β : Type}, (β → β → Bool) → List β → List β := fun {β} lt' l₀ ↦
    if h : (⟨α, lt, l⟩ : SortInput) = ⟨β, lt', l₀⟩ then
      cast (congrArg (fun i : SortInput ↦ List i.1) h) l'
    else base.sort lt' l₀
  refine ⟨⟨sort, ?_, ?_⟩, ?_⟩
  · intro β lt' l₀
    by_cases h : (⟨α, lt, l⟩ : SortInput) = ⟨β, lt', l₀⟩
    · cases h
      simpa only [sort, dif_pos, cast_eq] using hperm
    · simpa only [sort, dif_neg h] using base.sort_perm lt' l₀
  · intro β lt' l₀ hasymm htrans
    by_cases h : (⟨α, lt, l⟩ : SortInput) = ⟨β, lt', l₀⟩
    · cases h
      simp only [sort, dif_pos, cast_eq]
      refine List.pairwise_of_forall_mem_list ?_
      intro a ha b hb
      exact hlt b (hperm.mem_iff.mp hb) a (hperm.mem_iff.mp ha)
    · simpa only [sort, dif_neg h] using base.sort_sorted lt' l₀ hasymm htrans
  · simp only [sort, dif_pos, cast_eq]

structure Platform extends Sorting where
  /-- The reading of the steady clock during the event, in microseconds. -/
  now : ℕ
  /-- The order in which the entries of a hash map are visited. -/
  hashOrder : ∀ {α : Type}, List α → List α
  hashOrder_perm : ∀ {α : Type} (l : List α), (hashOrder l).Perm l
  /-- The conversion of `floor(log2(n)) - 6` to 32 unsigned bits where that value is
  negative, that is for `n < 64`. -/
  negativeToU32 : ℕ → ℕ
  /-- `(x >> n) << n` for a shift distance of at least 32. -/
  oversizeShift : ℕ → ℕ → ℕ
  /-- The transport block of a scheduling decision before anything is stored in it. -/
  uninitTbConfig : Bool → Rnti → TransportBlockConfig

namespace Platform

theorem mem_hashOrder (P : Platform) {α : Type} {l : List α} {a : α} :
    a ∈ P.hashOrder l ↔ a ∈ l := (P.hashOrder_perm l).mem_iff

def withSorting (P : Platform) (s : Sorting) : Platform := { P with toSorting := s }

/-- Some platform visits the entries of a map in any order one likes. -/
theorem exists_hashOrder_eq (base : Platform) {α : Type} {l l' : List α} (hperm : l'.Perm l) :
    ∃ P : Platform, P.hashOrder l = l' := by
  classical
  let order : ∀ {β : Type}, List β → List β := fun {β} l₀ ↦
    if h : (⟨α, l⟩ : Σ β : Type, List β) = ⟨β, l₀⟩ then
      cast (congrArg (fun i : Σ β : Type, List β ↦ List i.1) h) l'
    else base.hashOrder l₀
  refine ⟨{ base with hashOrder := order, hashOrder_perm := ?_ }, ?_⟩
  · intro β l₀
    by_cases h : (⟨α, l⟩ : Σ β : Type, List β) = ⟨β, l₀⟩
    · cases h
      simpa only [order, dif_pos, cast_eq] using hperm
    · simpa only [order, dif_neg h] using base.hashOrder_perm l₀
  · simp only [order, dif_pos, cast_eq]

/-! ## Transport block size -/

/-- Spectral efficiency times 1024, by MCS index. -/
def spectralEffX1024 : List ℕ :=
  [120, 157, 193, 251, 308, 379, 449, 526,
   602, 679, 772, 873, 948, 1024, 1101, 1176,
   1252, 1327, 1403, 1478, 1554, 1630, 1706, 1783,
   1859, 1935, 2011, 2088, 2165]

/-- Clear the low `n` bits of a 32-bit value by a shift down and a shift up. -/
def clearLow (P : Platform) (x n : ℕ) : ℕ :=
  if n < 32 then (x >>> n) <<< n % 2 ^ 32 else P.oversizeShift x n

/-- Quantisation of a small transport block of `nInfo ≤ 3824` bits. -/
def quantizeSmall (P : Platform) (nInfo : ℕ) : ℕ :=
  let n := max 3 (if nInfo < 64 then P.negativeToU32 nInfo else nInfo.log2 - 6)
  let nInfoPrime := max 24 (P.clearLow nInfo n)
  (nInfoPrime + 7) / 8

def quantizeLarge (P : Platform) (nInfo : ℕ) : ℕ :=
  let n := (nInfo - 24).log2 - 5
  let nInfoPrime := max 3840 (P.clearLow (nInfo - 24) n)
  let tbs :=
    if nInfoPrime < 8424 then 8 * ((nInfoPrime + 24 + 31) / 32) - 24
    else
      let c := (nInfoPrime + 24 + 8423) / 8424
      8 * c * ((nInfoPrime + 24) / (8 * c) + 1) - 24
  (tbs + 7) / 8

def tbsTableLookup (P : Platform) (mcs numRbs numLayers : ℕ) (numSymbols : ℕ := 12)
    (dmrsRePerRb : ℕ := 12) : ℕ :=
  if mcs > 28 then 0
  else if numRbs = 0 ∨ numLayers = 0 then 0
  else
    let rePerRb := min ((12 * numSymbols + 2 ^ 32 - dmrsRePerRb) % 2 ^ 32) 156
    let nRe := rePerRb * numRbs
    let nInfo := nRe * spectralEffX1024.getD mcs 0 % 2 ^ 32 * numLayers % 2 ^ 32 / 1024
    if nInfo ≤ 3824 then P.quantizeSmall nInfo else P.quantizeLarge nInfo

/-- One search step per unit of `fuel`; the interval shrinks in each. -/
def minRbsSearch (P : Platform) (tbsBytes mcs numLayers numSymbols : ℕ) :
    (fuel low high : ℕ) → ℕ
  | 0, low, _ => low
  | fuel + 1, low, high =>
      if low < high then
        let mid := (low + high) / 2
        if tbsBytes ≤ P.tbsTableLookup mcs mid numLayers numSymbols then
          minRbsSearch P tbsBytes mcs numLayers numSymbols fuel low mid
        else
          minRbsSearch P tbsBytes mcs numLayers numSymbols fuel (mid + 1) high
      else low

/-- Least number of resource blocks that carries `tbsBytes`, by binary search. -/
def minRbsForTbs (P : Platform) (tbsBytes mcs numLayers : ℕ) (numSymbols : ℕ := 12)
    (maxRbs : ℕ := 273) : ℕ :=
  P.minRbsSearch tbsBytes mcs numLayers numSymbols maxRbs 1 maxRbs

theorem minRbsForTbs_withSorting (P : Platform) (s : Sorting)
    (tbsBytes mcs numLayers numSymbols maxRbs : ℕ) :
    (P.withSorting s).minRbsForTbs tbsBytes mcs numLayers numSymbols maxRbs =
      P.minRbsForTbs tbsBytes mcs numLayers numSymbols maxRbs := by
  have hsearch : ∀ fuel low high,
      (P.withSorting s).minRbsSearch tbsBytes mcs numLayers numSymbols fuel low high =
        P.minRbsSearch tbsBytes mcs numLayers numSymbols fuel low high := by
    intro fuel
    induction fuel with
    | zero => exact fun _ _ ↦ rfl
    | succ fuel ih =>
        intro low high
        simp only [minRbsSearch, ih]
        rfl
  exact hsearch maxRbs 1 maxRbs

/-- Whether `numRbs` blocks are enough for `tbsBytes`. -/
def carries (P : Platform) (tbsBytes mcs numLayers numSymbols numRbs : ℕ) : Bool :=
  decide (tbsBytes ≤ P.tbsTableLookup mcs numRbs numLayers numSymbols)

theorem minRbsSearch_eq_search (P : Platform) (tbsBytes mcs numLayers numSymbols : ℕ)
    (fuel low high : ℕ) :
    P.minRbsSearch tbsBytes mcs numLayers numSymbols fuel low high =
      Bisection.search (P.carries tbsBytes mcs numLayers numSymbols) fuel low high := by
  induction fuel generalizing low high with
  | zero => rfl
  | succ fuel ih => simp only [minRbsSearch, Bisection.search, carries, decide_eq_true_eq, ih]

/-- The search stays in its interval, and the fuel outlasts it. -/
theorem minRbsSearch_mem_Icc (P : Platform) (tbsBytes mcs numLayers numSymbols : ℕ)
    {fuel low high : ℕ} (hle : low ≤ high) :
    low ≤ P.minRbsSearch tbsBytes mcs numLayers numSymbols fuel low high ∧
      P.minRbsSearch tbsBytes mcs numLayers numSymbols fuel low high ≤ high := by
  rw [minRbsSearch_eq_search]
  exact Bisection.search_mem_Icc hle

theorem one_le_minRbsForTbs (P : Platform) (tbsBytes mcs numLayers numSymbols : ℕ)
    {maxRbs : ℕ} (h : 1 ≤ maxRbs) :
    1 ≤ P.minRbsForTbs tbsBytes mcs numLayers numSymbols maxRbs :=
  (P.minRbsSearch_mem_Icc tbsBytes mcs numLayers numSymbols h).1

/-! ## Bounds -/

/-- Shifting a value down and up again never makes it larger, oversized distances included. -/
def ShiftsDown (P : Platform) : Prop := ∀ x n, P.oversizeShift x n ≤ x

theorem ShiftsDown.clearLow_le {P : Platform} (h : P.ShiftsDown) (x n : ℕ) :
    P.clearLow x n ≤ x := by
  rw [clearLow]
  split
  · rw [Nat.shiftRight_eq_div_pow, Nat.shiftLeft_eq]
    exact (Nat.mod_le _ _).trans (Nat.div_mul_le_self x _)
  · exact h x n

theorem ShiftsDown.quantizeSmall_le {P : Platform} (h : P.ShiftsDown) (nInfo : ℕ) :
    P.quantizeSmall nInfo ≤ nInfo + 24 := by
  rw [quantizeSmall]
  have hclear := h.clearLow_le nInfo
    (max 3 (if nInfo < 64 then P.negativeToU32 nInfo else nInfo.log2 - 6))
  omega

theorem ShiftsDown.quantizeLarge_le {P : Platform} (h : P.ShiftsDown) (nInfo : ℕ) :
    P.quantizeLarge nInfo ≤ nInfo + 3840 := by
  rw [quantizeLarge]
  have hclear := h.clearLow_le (nInfo - 24) ((nInfo - 24).log2 - 5)
  obtain ⟨bits, hbits⟩ : ∃ bits, bits =
    max 3840 (P.clearLow (nInfo - 24) ((nInfo - 24).log2 - 5)) := ⟨_, rfl⟩
  simp only [← hbits]
  split
  · omega
  · -- a segment more than the bits need is at most eight times as many bits
    have hdiv := Nat.mul_div_le (bits + 24) (8 * ((bits + 24 + 8423) / 8424))
    rw [Nat.mul_add_one]
    omega

theorem ShiftsDown.tbsTableLookup_lt {P : Platform} (h : P.ShiftsDown)
    (mcs numRbs numLayers numSymbols dmrsRePerRb : ℕ) :
    P.tbsTableLookup mcs numRbs numLayers numSymbols dmrsRePerRb < 2 ^ 23 := by
  rw [tbsTableLookup]
  split
  · exact Nat.two_pow_pos 23
  · split
    · exact Nat.two_pow_pos 23
    · simp only
      split
      · exact (h.quantizeSmall_le _).trans_lt (by omega)
      · exact (h.quantizeLarge_le _).trans_lt (by omega)

/-! ## A plain platform -/

/-- Insertion sort over the elements of the list, on which alone `lt` has to be an order. -/
def insertionSort {α : Type} (lt : α → α → Bool) (l : List α) : List α :=
  (l.attach.insertionSort fun a b ↦ lt b.1 a.1 = false).map Subtype.val

theorem insertionSort_perm {α : Type} (lt : α → α → Bool) (l : List α) :
    (insertionSort lt l).Perm l := by
  have hperm := (List.perm_insertionSort (fun a b ↦ lt b.1 a.1 = false) l.attach).map
    Subtype.val
  rw [List.attach_map_subtype_val] at hperm
  exact hperm

theorem insertionSort_sorted {α : Type} (lt : α → α → Bool) (l : List α)
    (hasymm : ∀ a ∈ l, ∀ b ∈ l, lt a b = true → lt b a = false)
    (htrans : ∀ a ∈ l, ∀ b ∈ l, ∀ c ∈ l, lt a b = false → lt b c = false → lt a c = false) :
    (insertionSort lt l).Pairwise fun a b ↦ lt b a = false := by
  let r : {a // a ∈ l} → {a // a ∈ l} → Prop := fun a b ↦ lt b.1 a.1 = false
  have htotal : Std.Total r := by
    constructor
    intro a b
    cases hab : lt b.1 a.1 with
    | false => exact Or.inl hab
    | true => exact Or.inr (hasymm b.1 b.2 a.1 a.2 hab)
  have htransr : IsTrans _ r := by
    constructor
    intro a b c hab hbc
    exact htrans c.1 c.2 b.1 b.2 a.1 a.2 hbc hab
  rw [insertionSort, List.pairwise_map]
  exact List.pairwise_insertionSort r l.attach

/-- Maps are visited in the order they are stored in, and memory starts cleared. -/
def plain : Platform where
  now := 0
  hashOrder l := l
  hashOrder_perm l := List.Perm.refl l
  sort := insertionSort
  sort_perm := insertionSort_perm
  sort_sorted := insertionSort_sorted
  negativeToU32 _ := 0
  oversizeShift _ _ := 0
  uninitTbConfig _ _ := {}

theorem shiftsDown_plain : plain.ShiftsDown := fun _ _ ↦ Nat.zero_le _

end Platform

end NrScheduler
