import Mathlib.Algebra.BigOperators.Group.List.Basic
import Mathlib.Algebra.Order.BigOperators.Group.List
import Mathlib.Algebra.Order.Field.Basic
import Mathlib.Algebra.Order.Floor.Ring

/-!
# Proportional shares of a pool

Each of several parties gets the whole part of its share of a pool.  Together they do not
get more than the pool.
-/

namespace Shares

variable {K : Type*} [Field K] [LinearOrder K] [IsStrictOrderedRing K] [FloorRing K]
variable {α : Type*} {weight : α → K} {total : K} {pool : ℕ}

/-- The whole part of the share of `a`. -/
def share (pool : ℕ) (weight : α → K) (total : K) (a : α) : ℕ :=
  ⌊(pool : K) * (weight a / total)⌋.toNat

theorem cast_share_le (htotal : 0 ≤ total) {a : α} (ha : 0 ≤ weight a) :
    (share pool weight total a : K) ≤ pool * (weight a / total) := by
  have hnonneg : 0 ≤ (pool : K) * (weight a / total) :=
    mul_nonneg (Nat.cast_nonneg pool) (div_nonneg ha htotal)
  have hfloor : ((⌊(pool : K) * (weight a / total)⌋.toNat : ℤ) : K) =
      (⌊(pool : K) * (weight a / total)⌋ : K) := by
    rw [Int.toNat_of_nonneg (Int.floor_nonneg.mpr hnonneg)]
  rw [share, ← Int.cast_natCast, hfloor]
  exact Int.floor_le _

theorem sum_share_le {l : List α} (hweight : ∀ a ∈ l, 0 ≤ weight a) (htotal : 0 < total)
    (hsum : (l.map weight).sum ≤ total) : (l.map (share pool weight total)).sum ≤ pool := by
  have hparts : ((l.map (share pool weight total)).sum : K) ≤
      pool * ((l.map weight).sum / total) := by
    clear hsum
    induction l with
    | nil => simp
    | cons a l ih =>
        have hhead : (share pool weight total a : K) ≤ pool * (weight a / total) :=
          cast_share_le htotal.le (hweight a List.mem_cons_self)
        have htail := ih fun b hb ↦ hweight b (List.mem_cons_of_mem a hb)
        simp only [List.map_cons, List.sum_cons, Nat.cast_add, add_div, mul_add]
        exact add_le_add hhead htail
  have hratio : (l.map weight).sum / total ≤ 1 := (div_le_one htotal).mpr hsum
  have hpool : (pool : K) * ((l.map weight).sum / total) ≤ pool :=
    mul_le_of_le_one_right (Nat.cast_nonneg pool) hratio
  exact_mod_cast hparts.trans hpool

end Shares
