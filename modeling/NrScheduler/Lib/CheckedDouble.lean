import NrScheduler.Lib.Double

/-!
# Arithmetic that notices a division by zero

Exact arithmetic in which a quotient by zero is no value, and neither is anything computed
from it.  What code over doubles computes here as a value, it computes without such a quotient.
-/

namespace Double

/-- No comparison holds of what is no value. -/
instance checked : Double (Option ℚ) where
  ofNat n := some n
  add a b := a.bind fun a ↦ b.map (a + ·)
  sub a b := a.bind fun a ↦ b.map (a - ·)
  mul a b := a.bind fun a ↦ b.map (a * ·)
  div a b := a.bind fun a ↦ b.bind fun b ↦ if b = 0 then none else some (a / b)
  lt a b := (a.bind fun a ↦ b.map fun b ↦ decide (a < b)).getD false
  le a b := (a.bind fun a ↦ b.map fun b ↦ decide (a ≤ b)).getD false
  toNat a := (a.map fun a ↦ ⌊a⌋.toNat).getD 0
  pow a b := a.bind fun a ↦ b.bind fun b ↦ if a = 0 ∧ ⌊b⌋ < 0 then none else some (a ^ ⌊b⌋)
  log2 a := a.map fun a ↦ (Nat.log2 ⌊a⌋.toNat : ℕ)

variable (a b : ℚ)

@[simp] theorem ofNat_checked (n : ℕ) : (ofNat n : Option ℚ) = some (ofNat n) := rfl

@[simp] theorem add_checked : add (some a) (some b) = some (add a b) := rfl

@[simp] theorem sub_checked : sub (some a) (some b) = some (sub a b) := rfl

@[simp] theorem mul_checked : mul (some a) (some b) = some (mul a b) := rfl

theorem div_checked {b : ℚ} (hb : b ≠ 0) : div (some a) (some b) = some (div a b) := if_neg hb

/-- A quotient by a positive whole number is a value. -/
theorem div_ofNat_checked {n : ℕ} (hn : 0 < n) :
    div (some a) (some (ofNat n : ℚ)) = some (div a (ofNat n)) :=
  div_checked a (Nat.cast_ne_zero.mpr hn.ne')

end Double
