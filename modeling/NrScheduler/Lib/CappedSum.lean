import Mathlib.Algebra.Order.BigOperators.Group.List
import Mathlib.Algebra.Order.Group.Int
import Mathlib.Algebra.Ring.Int.Defs

/-!
# Sums under a cap

A sum is cut down to a cap after every term.  It ends where the sum of all terms does, or where
the last terms have taken a full cap to, whichever is less.
-/

namespace CappedSum

/-- The sum of some terms, cut down to the cap after each of them. -/
def run (cap start : ℤ) (terms : List ℤ) : ℤ :=
  terms.foldl (fun total c ↦ min (total + c) cap) start

/-- The least sum of any number of last terms; that of no terms is zero. -/
def lowestEnd : List ℤ → ℤ
  | [] => 0
  | c :: terms => min (c + terms.sum) (lowestEnd terms)

variable {cap start c whole : ℤ} {terms : List ℤ}

@[simp] theorem run_nil (cap start : ℤ) : run cap start [] = start := rfl

@[simp] theorem run_cons (cap start c : ℤ) (terms : List ℤ) :
    run cap start (c :: terms) = run cap (min (start + c) cap) terms := rfl

theorem lowestEnd_nonpos (terms : List ℤ) : lowestEnd terms ≤ 0 := by
  induction terms with
  | nil => exact le_rfl
  | cons c terms ih => exact (Int.min_le_right _ _).trans ih

theorem lowestEnd_eq_zero (h : ∀ c ∈ terms, 0 ≤ c) : lowestEnd terms = 0 := by
  induction terms with
  | nil => rfl
  | cons c terms ih =>
      obtain ⟨hc, hterms⟩ := List.forall_mem_cons.mp h
      have hsum := List.sum_nonneg hterms
      rw [lowestEnd, ih hterms]
      omega

/-- What is left of a full cap once the last terms have been added bounds the sum. -/
theorem run_cons_eq (cap start c : ℤ) (terms : List ℤ) :
    run cap start (c :: terms) = min (start + (c + terms.sum)) (cap + lowestEnd terms) := by
  induction terms generalizing start c with
  | nil => rw [run_cons, run_nil, List.sum_nil, lowestEnd, Int.add_zero, Int.add_zero]
  | cons c' terms ih =>
      rw [run_cons, ih, lowestEnd, List.sum_cons]
      omega

/-- What is cut off the terms. -/
def cut (cap start c : ℤ) (terms : List ℤ) : ℤ :=
  max 0 (start + (c + terms.sum) - cap - lowestEnd terms)

/-- One term gives the same capped sum as several exactly if it is what is left of them once
they are cut, or if both reach the cap and the last terms take nothing away. -/
theorem run_cons_eq_min_iff : run cap start (c :: terms) = min (start + whole) cap ↔
    c + terms.sum - cut cap start c terms = whole ∨
      lowestEnd terms = 0 ∧ cap ≤ start + (c + terms.sum) ∧ cap ≤ start + whole := by
  have hlow := lowestEnd_nonpos terms
  rw [run_cons_eq, cut]
  omega

end CappedSum
