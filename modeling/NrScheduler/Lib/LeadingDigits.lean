import Mathlib.Algebra.GroupWithZero.Nat
import Mathlib.Algebra.Order.Group.Nat
import Mathlib.Data.Nat.Notation
import Mathlib.Order.Monotone.Defs
import Mathlib.Tactic.Common

/-!
# Rounding down to leading binary digits

A number loses its low digits, and how many depends on its length alone.  Where longer
numbers lose at least as many, rounding is monotone although its step grows.
-/

namespace LeadingDigits

/-- Clear as many low digits as `shift` says for the length of `x`. -/
def truncate (shift : ℕ → ℕ) (x : ℕ) : ℕ := (x >>> shift x.log2) <<< shift x.log2

variable {shift : ℕ → ℕ} {x y : ℕ}

theorem truncate_eq (shift : ℕ → ℕ) (x : ℕ) :
    truncate shift x = x / 2 ^ shift x.log2 * 2 ^ shift x.log2 := by
  simp only [truncate, Nat.shiftRight_eq_div_pow, Nat.shiftLeft_eq]

theorem truncate_le : truncate shift x ≤ x := by
  rw [truncate_eq]
  exact Nat.div_mul_le_self x _

theorem dvd_truncate : 2 ^ shift x.log2 ∣ truncate shift x := by
  rw [truncate_eq]
  exact Nat.dvd_mul_left _ _

/-- The first digit stays. -/
theorem two_pow_le_truncate (hx : x ≠ 0) (hshift : shift x.log2 ≤ x.log2) :
    2 ^ x.log2 ≤ truncate shift x := by
  have hself := Nat.log2_self_le hx
  have hquotient : 2 ^ (x.log2 - shift x.log2) ≤ x / 2 ^ shift x.log2 := by
    rw [Nat.le_div_iff_mul_le (Nat.two_pow_pos _), ← pow_add, Nat.sub_add_cancel hshift]
    exact hself
  calc 2 ^ x.log2 = 2 ^ (x.log2 - shift x.log2) * 2 ^ shift x.log2 := by
        rw [← pow_add, Nat.sub_add_cancel hshift]
    _ ≤ truncate shift x := by
        rw [truncate_eq]
        exact Nat.mul_le_mul_right _ hquotient

theorem log2_le_log2 (hx : x ≠ 0) (h : x ≤ y) : x.log2 ≤ y.log2 :=
  (Nat.le_log2 (by omega)).mpr ((Nat.log2_self_le hx).trans h)

theorem truncate_le_truncate (hx : x ≠ 0) (h : x ≤ y) (hshift : shift y.log2 ≤ y.log2) :
    truncate shift x ≤ truncate shift y := by
  rcases (log2_le_log2 hx h).eq_or_lt with heq | hlt
  · rw [truncate_eq, truncate_eq, heq]
    exact Nat.mul_le_mul_right _ (Nat.div_le_div_right h)
  · -- a shorter number lies below the first digit of the longer one
    have hbelow : x < 2 ^ y.log2 := (Nat.log2_lt hx).mp hlt
    calc truncate shift x ≤ x := truncate_le
      _ ≤ 2 ^ y.log2 := hbelow.le
      _ ≤ truncate shift y := two_pow_le_truncate (by omega) hshift

/-- Different values are at least a step of the smaller one apart. -/
theorem truncate_add_le (hmono : Monotone shift) (hx : x ≠ 0) (h : x ≤ y)
    (hlt : truncate shift x < truncate shift y) :
    truncate shift x + 2 ^ shift x.log2 ≤ truncate shift y := by
  have hdvd : 2 ^ shift x.log2 ∣ truncate shift y :=
    Nat.dvd_trans (Nat.pow_dvd_pow 2 (hmono (log2_le_log2 hx h))) dvd_truncate
  have hgap : 2 ^ shift x.log2 ∣ truncate shift y - truncate shift x :=
    Nat.dvd_sub hdvd dvd_truncate
  have hle := Nat.le_of_dvd (Nat.sub_pos_of_lt hlt) hgap
  omega

end LeadingDigits
