import Mathlib.Data.Rat.Floor
import Mathlib.Algebra.Order.Field.Rat

/-!
# Floating point as an interface

Code over `double` is written over any type with these operations, so what is proved of
it holds for IEEE arithmetic and for exact rational arithmetic alike.
-/

class Double (D : Type) where
  ofNat : ℕ → D
  add : D → D → D
  sub : D → D → D
  mul : D → D → D
  div : D → D → D
  lt : D → D → Bool
  le : D → D → Bool
  /-- Conversion to an unsigned integer, towards zero. -/
  toNat : D → ℕ
  pow : D → D → D
  log2 : D → D

namespace Double

variable {D : Type} [Double D]

/-- The constant `n / d`, the double next to that quotient. -/
def ratio (n d : ℕ) : D := div (ofNat n) (ofNat d)

def max (a b : D) : D := if lt a b then b else a

def min (a b : D) : D := if lt b a then b else a

/-- Exact arithmetic over the rationals; powers and logarithms are exact where they are
whole, and rounded down elsewhere. -/
instance rational : Double ℚ where
  ofNat n := n
  add := (· + ·)
  sub := (· - ·)
  mul := (· * ·)
  div := (· / ·)
  lt a b := decide (a < b)
  le a b := decide (a ≤ b)
  toNat a := ⌊a⌋.toNat
  pow a b := a ^ ⌊b⌋
  log2 a := (Nat.log2 ⌊a⌋.toNat : ℕ)

end Double

/-- Arithmetic with values that contain zero, are not left by a multiplication and are not
ordered among each other: zero in exact arithmetic, the zeros and NaN in IEEE arithmetic. -/
class NullDouble (D : Type) extends Double D where
  IsNull : D → Prop
  isNull_zero : IsNull (ofNat 0)
  isNull_mul : ∀ a b, IsNull a → IsNull (mul a b)
  lt_eq_false : ∀ a b, IsNull a → IsNull b → lt a b = false

instance NullDouble.rational : NullDouble ℚ where
  IsNull a := a = 0
  isNull_zero := Nat.cast_zero
  isNull_mul a b h := by
    change a * b = 0
    rw [h, zero_mul]
  lt_eq_false a b ha hb := by
    subst ha hb
    exact decide_eq_false (lt_irrefl 0)

/-- Arithmetic that is exact on whole numbers of up to 53 bits, as that of IEEE doubles. -/
class ExactDouble (D : Type) extends Double D where
  lt_ofNat : ∀ m n, m < 2 ^ 53 → n < 2 ^ 53 → lt (ofNat m) (ofNat n) = decide (m < n)
  le_ofNat : ∀ m n, m < 2 ^ 53 → n < 2 ^ 53 → le (ofNat m) (ofNat n) = decide (m ≤ n)
  mul_ofNat : ∀ m n, m * n < 2 ^ 53 → mul (ofNat m) (ofNat n) = ofNat (m * n)

namespace ExactDouble

variable {D : Type} [ExactDouble D] {m n : ℕ}

theorem ofNat_inj (hm : m < 2 ^ 53) (hn : n < 2 ^ 53) :
    (Double.ofNat m : D) = Double.ofNat n ↔ m = n := by
  refine ⟨fun heq ↦ ?_, fun heq ↦ heq ▸ rfl⟩
  have hmn : Double.le (Double.ofNat m : D) (Double.ofNat n) = true := by
    rw [← heq, le_ofNat m m hm hm]
    exact decide_eq_true le_rfl
  have hnm : Double.le (Double.ofNat n : D) (Double.ofNat m) = true := by
    rw [heq, le_ofNat n n hn hn]
    exact decide_eq_true le_rfl
  rw [le_ofNat m n hm hn] at hmn
  rw [le_ofNat n m hn hm] at hnm
  exact Nat.le_antisymm (of_decide_eq_true hmn) (of_decide_eq_true hnm)

instance rational : ExactDouble ℚ where
  lt_ofNat _ _ _ _ := decide_eq_decide.mpr Nat.cast_lt
  le_ofNat _ _ _ _ := decide_eq_decide.mpr Nat.cast_le
  mul_ofNat m n _ := (Nat.cast_mul m n).symm

end ExactDouble

/-- Arithmetic in which of two pairs of ordered values one is ordered crosswise: where the
order is linear, and with NaN, which is not ordered at all. -/
class OrderedDouble (D : Type) extends Double D where
  lt_or_lt : ∀ a b c d, lt a b = true → lt c d = true → lt a d = true ∨ lt c b = true

instance OrderedDouble.rational : OrderedDouble ℚ where
  lt_or_lt a b c d hab hcd := by
    have hab : a < b := of_decide_eq_true hab
    have hcd : c < d := of_decide_eq_true hcd
    rcases lt_or_ge a d with had | hda
    · exact Or.inl (decide_eq_true had)
    · exact Or.inr (decide_eq_true (hcd.trans_le hda |>.trans hab))

/-- A number type in which multiplying by one changes nothing, as in IEEE 754. -/
class UnitDouble (D : Type) extends Double D where
  mul_one : ∀ a, mul a (ofNat 1) = a

instance UnitDouble.rational : UnitDouble ℚ where
  mul_one a := by
    change a * ((1 : ℕ) : ℚ) = a
    rw [Nat.cast_one, Rat.mul_one]
