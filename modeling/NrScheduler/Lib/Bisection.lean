import Mathlib.Data.Nat.Notation
import Mathlib.Order.Bounds.Basic
import Mathlib.Order.Nat

/-!
# Bisection of an arbitrary predicate

A binary search for the least number that satisfies a predicate asks about one midpoint
after the other.  On a predicate that is not monotone it is still right exactly where no
midpoint on the way to the least solution lies above it and fails.
-/

namespace Bisection

/-- One halving for each unit of `fuel`. -/
def search (p : ℕ → Bool) : (fuel low high : ℕ) → ℕ
  | 0, low, _ => low
  | fuel + 1, low, high =>
      if low < high then
        let mid := (low + high) / 2
        if p mid then search p fuel low mid else search p fuel (mid + 1) high
      else low

/-- The midpoints of a search that is told at each of them whether it lies below `target`. -/
def midpoints (target : ℕ) : (fuel low high : ℕ) → List ℕ
  | 0, _, _ => []
  | fuel + 1, low, high =>
      if low < high then
        let mid := (low + high) / 2
        mid :: if target ≤ mid then midpoints target fuel low mid
          else midpoints target fuel (mid + 1) high
      else []

variable {p : ℕ → Bool} {fuel low high : ℕ}

theorem search_mem_Icc (h : low ≤ high) :
    low ≤ search p fuel low high ∧ search p fuel low high ≤ high := by
  induction fuel generalizing low high with
  | zero => exact ⟨le_rfl, h⟩
  | succ fuel ih =>
      simp only [search]
      split
      · rename_i hlt
        split
        · have hleft := @ih low ((low + high) / 2) (by omega)
          omega
        · have hright := @ih ((low + high) / 2 + 1) high (by omega)
          omega
      · exact ⟨le_rfl, h⟩

/-- Without a solution, the search ends at the upper end. -/
theorem search_eq_high (hfuel : high - low ≤ fuel) (hle : low ≤ high)
    (hnone : ∀ n, low ≤ n → n ≤ high → p n = false) : search p fuel low high = high := by
  induction fuel generalizing low with
  | zero =>
      simp only [search]
      omega
  | succ fuel ih =>
      simp only [search]
      by_cases hlt : low < high
      · have hmid : p ((low + high) / 2) = false := hnone _ (by omega) (by omega)
        simp only [if_pos hlt, hmid, Bool.false_eq_true, if_false]
        exact ih (by omega) (by omega) fun n hn hn' ↦ hnone n (by omega) hn'
      · simp only [if_neg hlt]
        omega

/-- The search ends at a solution, or at the upper end. -/
theorem search_eq_high_or (hfuel : high - low ≤ fuel) (hle : low ≤ high) :
    search p fuel low high = high ∨ p (search p fuel low high) = true := by
  induction fuel generalizing low high with
  | zero =>
      left
      simp only [search]
      omega
  | succ fuel ih =>
      simp only [search]
      by_cases hlt : low < high
      · rw [if_pos hlt]
        cases hmid : p ((low + high) / 2) with
        | true =>
            rw [if_pos rfl]
            right
            rcases @ih low ((low + high) / 2) (by omega) (by omega) with hend | hsolution
            · rw [hend, hmid]
            · exact hsolution
        | false =>
            rw [if_neg Bool.false_ne_true]
            exact ih (by omega) (by omega)
      · rw [if_neg hlt]
        left
        omega

/-- The search finds the least solution exactly if every midpoint on the way that is not
below it is a solution too. -/
theorem search_eq_iff {a : ℕ} (hfuel : high - low ≤ fuel) (hlow : low ≤ a) (hhigh : a ≤ high)
    (hleast : ∀ n, low ≤ n → n < a → p n = false) :
    search p fuel low high = a ↔ ∀ m ∈ midpoints a fuel low high, a ≤ m → p m = true := by
  induction fuel generalizing low high with
  | zero =>
      simp only [search, midpoints, List.not_mem_nil, false_implies, implies_true, iff_true]
      omega
  | succ fuel ih =>
      by_cases hlt : low < high
      · simp only [search, midpoints, if_pos hlt, List.mem_cons, forall_eq_or_imp]
        by_cases hmid : a ≤ (low + high) / 2
        · simp only [hmid, if_true, true_implies]
          cases hp : p ((low + high) / 2) with
          | true =>
              simp only [if_true, true_and]
              exact ih (by omega) hlow hmid hleast
          | false =>
              -- a midpoint above the solution that fails sends the search past it
              have hpast := @search_mem_Icc p fuel ((low + high) / 2 + 1) high (by omega)
              simp only [Bool.false_eq_true, if_false, false_and, iff_false]
              omega
        · have hp : p ((low + high) / 2) = false := hleast _ (by omega) (by omega)
          simp only [hmid, hp, Bool.false_eq_true, if_false, false_implies, true_and]
          exact ih (by omega) (by omega) hhigh fun n hn hn' ↦ hleast n (by omega) hn'
      · simp only [search, midpoints, if_neg hlt, List.not_mem_nil, false_implies, implies_true,
          iff_true]
        omega

/-- The least solution in the interval, or its upper end where there is none. -/
def IsLeastOrEnd (p : ℕ → Bool) (low high r : ℕ) : Prop :=
  IsLeast {n | low ≤ n ∧ n ≤ high ∧ p n = true} r ∨
    r = high ∧ ∀ n, low ≤ n → n ≤ high → p n = false

theorem search_isLeastOrEnd_iff (hfuel : high - low ≤ fuel) (hle : low ≤ high) :
    IsLeastOrEnd p low high (search p fuel low high) ↔
      ∀ a, IsLeast {n | low ≤ n ∧ n ≤ high ∧ p n = true} a →
        ∀ m ∈ midpoints a fuel low high, a ≤ m → p m = true := by
  have hbelow : ∀ {a}, IsLeast {n | low ≤ n ∧ n ≤ high ∧ p n = true} a →
      ∀ n, low ≤ n → n < a → p n = false := by
    intro a ha n hn hlt
    refine Bool.eq_false_iff.mpr fun hp ↦ ?_
    have hge := ha.2 ⟨hn, by have := ha.1.2.1; omega, hp⟩
    omega
  constructor
  · intro h a ha
    rw [← search_eq_iff hfuel ha.1.1 ha.1.2.1 (hbelow ha)]
    rcases h with hleast | ⟨_, hnone⟩
    · exact hleast.unique ha
    · have hfalse := hnone a ha.1.1 ha.1.2.1
      simp [ha.1.2.2] at hfalse
  · intro h
    by_cases hsome : ∃ n, low ≤ n ∧ n ≤ high ∧ p n = true
    · left
      have hleast : IsLeast {n | low ≤ n ∧ n ≤ high ∧ p n = true} (Nat.find hsome) :=
        ⟨Nat.find_spec hsome, fun n hn ↦ Nat.find_min' hsome hn⟩
      rw [(search_eq_iff hfuel hleast.1.1 hleast.1.2.1 (hbelow hleast)).mpr (h _ hleast)]
      exact hleast
    · right
      have hnone : ∀ n, low ≤ n → n ≤ high → p n = false := fun n hn hn' ↦
        Bool.eq_false_iff.mpr fun hp ↦ hsome ⟨n, hn, hn', hp⟩
      exact ⟨search_eq_high hfuel hle hnone, hnone⟩

end Bisection
