import Mathlib.Algebra.BigOperators.Group.List.Basic
import Mathlib.Algebra.GroupWithZero.Nat

/-!
# Sums of machine integers

A sum taken modulo the range of the type is zero exactly where the true sum is a multiple of
the range.  It thus tells whether all terms are zero, unless the true sum is a positive one.
-/

namespace WrappingSum

/-- A positive multiple of the range. -/
def FullWrap (m n : ℕ) : Prop := 0 < n ∧ m ∣ n

instance (m n : ℕ) : Decidable (FullWrap m n) := inferInstanceAs (Decidable (_ ∧ _))

variable {α : Type*} {m : ℕ}

theorem foldl_add_mod (f : α → ℕ) (xs : List α) {total : ℕ} (htotal : total < m) :
    xs.foldl (fun t x ↦ (t + f x) % m) total = (total + (xs.map f).sum) % m := by
  induction xs generalizing total with
  | nil => simp [Nat.mod_eq_of_lt htotal]
  | cons x xs ih =>
      rw [List.foldl_cons, ih (Nat.mod_lt _ (by omega)), Nat.mod_add_mod, List.map_cons,
        List.sum_cons, Nat.add_assoc]

theorem sum_map_eq_zero_iff (f : α → ℕ) (xs : List α) :
    (xs.map f).sum = 0 ↔ ∀ x ∈ xs, f x = 0 := by
  rw [List.sum_eq_zero_iff_forall_eq_nat, List.forall_mem_map]

/-- The wrapping sum tells whether all terms are zero unless it wraps to zero. -/
theorem foldl_eq_zero_iff (hm : 0 < m) (f : α → ℕ) (xs : List α) :
    (xs.foldl (fun t x ↦ (t + f x) % m) 0 = 0 ↔ ∀ x ∈ xs, f x = 0) ↔
      ¬ FullWrap m (xs.map f).sum := by
  rw [foldl_add_mod f xs hm, Nat.zero_add, ← Nat.dvd_iff_mod_eq_zero, ← sum_map_eq_zero_iff,
    FullWrap]
  generalize (xs.map f).sum = n
  rcases Nat.eq_zero_or_pos n with rfl | hn
  · simp
  · simp [hn, Nat.ne_of_gt hn]

/-- A sum of zeros is zero, wrapped or not. -/
theorem exists_ne_zero_of_foldl_pos {f : α → ℕ} {xs : List α}
    (h : 0 < xs.foldl (fun t x ↦ (t + f x) % m) 0) : ∃ x ∈ xs, f x ≠ 0 := by
  by_contra hnone
  have hzero : ∀ x ∈ xs, f x = 0 := fun x hx ↦ by_contra fun hne ↦ hnone ⟨x, hx, hne⟩
  have hfold : ∀ ys : List α, (∀ y ∈ ys, f y = 0) →
      ys.foldl (fun t x ↦ (t + f x) % m) 0 = 0 := by
    intro ys hys
    induction ys with
    | nil => rfl
    | cons y ys ih =>
        obtain ⟨hy, hys⟩ := List.forall_mem_cons.mp hys
        rw [List.foldl_cons, hy, Nat.zero_mod]
        exact ih hys
  rw [hfold xs hzero] at h
  exact Nat.lt_irrefl 0 h

end WrappingSum
