import Mathlib.Data.Set.Card

/-!
# Bitmaps as sets of positions

The set bits of a bit vector, how they change when one bit is set or cleared, and how
many there are.
-/

namespace Bitmap

variable {w : ℕ}

/-- The positions of the set bits. -/
def members (x : BitVec w) : Set ℕ := {i | x.getLsbD i = true}

def setBit (x : BitVec w) (i : ℕ) : BitVec w := x ||| BitVec.twoPow w i

def clearBit (x : BitVec w) (i : ℕ) : BitVec w := x &&& ~~~BitVec.twoPow w i

def count (x : BitVec w) : ℕ := x.cpopNatRec w 0

variable (x y : BitVec w) {i : ℕ}

@[simp] theorem mem_members : i ∈ members x ↔ x.getLsbD i = true := Iff.rfl

@[simp] theorem members_zero : members 0#w = ∅ := by
  ext i
  simp

theorem lt_of_mem (h : i ∈ members x) : i < w := by
  by_contra hi
  rw [mem_members, BitVec.getLsbD_of_ge x i (Nat.le_of_not_lt hi)] at h
  cases h

theorem finite_members : (members x).Finite :=
  (Set.finite_lt_nat w).subset fun _ h ↦ lt_of_mem x h

variable {x y} in
theorem eq_of_members (h : members x = members y) : x = y := by
  apply BitVec.eq_of_getLsbD_eq
  intro i _
  exact Bool.eq_iff_iff.mpr (Set.ext_iff.mp h i)

theorem members_setBit (hi : i < w) : members (setBit x i) = insert i (members x) := by
  ext j
  simp only [setBit, mem_members, BitVec.getLsbD_or, BitVec.getLsbD_twoPow, Bool.or_eq_true,
    Bool.and_eq_true, decide_eq_true_eq, Set.mem_insert_iff]
  constructor
  · rintro (hj | ⟨_, rfl⟩)
    · exact Or.inr hj
    · exact Or.inl rfl
  · rintro (rfl | hj)
    · exact Or.inr ⟨hi, rfl⟩
    · exact Or.inl hj

theorem members_clearBit : members (clearBit x i) = members x \ {i} := by
  ext j
  simp only [clearBit, mem_members, BitVec.getLsbD_and, BitVec.getLsbD_not,
    BitVec.getLsbD_twoPow, Set.mem_sdiff, Set.mem_singleton_iff]
  by_cases hij : i = j
  · subst hij
    by_cases hi : i < w
    · simp [hi]
    · simp [BitVec.getLsbD_of_ge x i (Nat.le_of_not_lt hi)]
  · by_cases hj : j < w
    · simp [hj, hij, Ne.symm hij]
    · simp [BitVec.getLsbD_of_ge x j (Nat.le_of_not_lt hj)]

variable {x} in
theorem members_foldl_setBit {is : List ℕ} (his : ∀ i ∈ is, i < w) :
    members (is.foldl setBit x) = members x ∪ {i | i ∈ is} := by
  induction is generalizing x with
  | nil => simp
  | cons i is ih =>
      rw [List.foldl_cons, ih fun j hj ↦ his j (List.mem_cons_of_mem i hj),
        members_setBit x (his i List.mem_cons_self)]
      ext j
      simp [or_assoc, or_left_comm]

/-! ## Counting -/

theorem cpopNatRec_eq_ncard (n : ℕ) :
    x.cpopNatRec n 0 = (members x ∩ Set.Iio n).ncard := by
  induction n with
  | zero => simp
  | succ n ih =>
      have hbelow : n ∉ members x ∩ Set.Iio n := fun h ↦ absurd h.2 (lt_irrefl n)
      have hfin : (members x ∩ Set.Iio n).Finite := (finite_members x).inter_of_left _
      rw [BitVec.cpopNatRec_succ, Nat.zero_add, BitVec.cpopNatRec_eq, ih]
      cases hn : x.getLsbD n with
      | true =>
          have hinsert : members x ∩ Set.Iio (n + 1) = insert n (members x ∩ Set.Iio n) := by
            ext i
            simp only [Set.mem_inter_iff, Set.mem_Iio, Set.mem_insert_iff, mem_members]
            constructor
            · intro ⟨hi, hlt⟩
              rcases Nat.lt_succ_iff_lt_or_eq.mp hlt with hlt | rfl
              · exact Or.inr ⟨hi, hlt⟩
              · exact Or.inl rfl
            · rintro (rfl | ⟨hi, hlt⟩)
              · exact ⟨hn, Nat.lt_succ_self _⟩
              · exact ⟨hi, Nat.lt_succ_of_lt hlt⟩
          rw [hinsert, Set.ncard_insert_of_notMem hbelow hfin]
          rfl
      | false =>
          have hsame : members x ∩ Set.Iio (n + 1) = members x ∩ Set.Iio n := by
            ext i
            simp only [Set.mem_inter_iff, Set.mem_Iio, mem_members]
            refine and_congr_right fun hi ↦ ⟨fun hlt ↦ ?_, Nat.lt_succ_of_lt⟩
            rcases Nat.lt_succ_iff_lt_or_eq.mp hlt with hlt | rfl
            · exact hlt
            · rw [hn] at hi
              cases hi
          rw [hsame]
          rfl

theorem count_eq_ncard : count x = (members x).ncard := by
  rw [count, cpopNatRec_eq_ncard, Set.inter_eq_left.mpr]
  exact fun i hi ↦ lt_of_mem x hi

end Bitmap
