import Mathlib.Algebra.BigOperators.Group.Finset.Piecewise
import Mathlib.Algebra.GroupWithZero.Nat
import Mathlib.Algebra.Order.BigOperators.Group.Finset
import Mathlib.Algebra.Order.Group.Nat

/-!
# Accounts that lend to accounts of lower rank

Every account has a limit and has spent a part of it.  What an account has left can be
lent to one of lower rank, whose limit grows.  Nothing is lost, and since everything only
moves down, no limit outgrows the total.
-/

structure Accounts (κ : Type*) where
  limit : κ → ℕ
  spent : κ → ℕ

namespace Accounts

variable {κ : Type*}

def left (A : Accounts κ) (a : κ) : ℕ := A.limit a - A.spent a

/-- All accounts of `s` keep to their limits, and the limit of an account with what those
above it have left is at most `total`. -/
structure Bounded (rank : κ → ℕ) (s : Finset κ) (total : ℕ) (A : Accounts κ) : Prop where
  spent_le : ∀ a ∈ s, A.spent a ≤ A.limit a
  limit_le : ∀ a ∈ s, A.limit a + ∑ b ∈ s with rank a < rank b, A.left b ≤ total

theorem bounded_of_sum_le {rank : κ → ℕ} {s : Finset κ} {total : ℕ} {A : Accounts κ}
    (hspent : ∀ a ∈ s, A.spent a ≤ A.limit a) (hsum : ∑ a ∈ s, A.limit a ≤ total) :
    A.Bounded rank s total := by
  refine ⟨hspent, fun a ha ↦ ?_⟩
  classical
  have hleft : ∑ b ∈ s with rank a < rank b, A.left b ≤ ∑ b ∈ s.erase a, A.limit b := by
    refine (Finset.sum_le_sum fun b _ ↦ Nat.sub_le _ _).trans ?_
    refine Finset.sum_le_sum_of_subset fun b hb ↦ ?_
    obtain ⟨hb, hrank⟩ := Finset.mem_filter.mp hb
    exact Finset.mem_erase.mpr ⟨fun heq ↦ absurd hrank (heq ▸ lt_irrefl _), hb⟩
  have htotal := Finset.add_sum_erase s A.limit ha
  omega

variable [DecidableEq κ] {rank : κ → ℕ} {s : Finset κ} {total : ℕ} {A : Accounts κ} {a b : κ}
variable {n : ℕ} {lent : κ → ℕ}

def spend (A : Accounts κ) (a : κ) (n : ℕ) : Accounts κ :=
  { A with spent := Function.update A.spent a (A.spent a + n) }

def lend (A : Accounts κ) (a b : κ) (n : ℕ) : Accounts κ where
  limit := Function.update A.limit a (A.limit a + n)
  spent := Function.update A.spent b (A.spent b + n)

/-- What `a` collects from the accounts that lend to it. -/
def collect (A : Accounts κ) (a : κ) (lent : κ → ℕ) (n : ℕ) : Accounts κ where
  limit := Function.update A.limit a (A.limit a + n)
  spent b := A.spent b + lent b

theorem limit_lend_self (A : Accounts κ) (a b : κ) (n : ℕ) :
    (A.lend a b n).limit a = A.limit a + n :=
  Function.update_self ..

theorem sum_update (t : Finset κ) (f : κ → ℕ) (a : κ) (n : ℕ) :
    ∑ x ∈ t, Function.update f a n x + (if a ∈ t then f a else 0) =
      ∑ x ∈ t, f x + if a ∈ t then n else 0 := by
  by_cases ha : a ∈ t
  · have hsum := Finset.add_sum_erase t f ha
    rw [Finset.sum_update_of_mem ha, Finset.sdiff_singleton_eq_erase, if_pos ha, if_pos ha]
    omega
  · rw [Finset.sum_update_of_notMem ha, if_neg ha, if_neg ha]

theorem left_spend (A : Accounts κ) (a : κ) (n : ℕ) :
    (A.spend a n).left = Function.update A.left a (A.left a - n) := by
  funext c
  by_cases hc : c = a
  · subst hc
    simp only [left, spend, Function.update_self]
    omega
  · simp [left, spend, hc]

theorem left_lend (hne : a ≠ b) : (A.lend a b n).left =
    Function.update (Function.update A.left b (A.left b - n)) a
      (A.limit a + n - A.spent a) := by
  funext c
  by_cases ha : c = a
  · subst ha
    simp [left, lend, hne]
  · by_cases hb : c = b
    · subst hb
      simp only [left, lend, Function.update_self, Function.update_of_ne ha]
      omega
    · simp [left, lend, ha, hb]

/-! ## Spending -/

theorem sum_spend (ha : a ∈ s) (hn : n ≤ A.left a) :
    ∑ c ∈ s, (A.spend a n).left c + n = ∑ c ∈ s, A.left c := by
  have hsum := sum_update s A.left a (A.left a - n)
  rw [if_pos ha, if_pos ha] at hsum
  rw [left_spend]
  omega

theorem Bounded.spend (h : A.Bounded rank s total) (hn : n ≤ A.left a) :
    (A.spend a n).Bounded rank s total := by
  refine ⟨fun c hc ↦ ?_, fun c hc ↦ ?_⟩
  · have hle := h.spent_le c hc
    by_cases hca : c = a
    · subst hca
      simp only [left, Accounts.spend, Function.update_self] at hn ⊢
      omega
    · simpa [Accounts.spend, hca] using hle
  · refine (Nat.add_le_add_left ?_ _).trans (h.limit_le c hc)
    refine Finset.sum_le_sum fun d _ ↦ ?_
    rw [left_spend]
    by_cases hda : d = a
    · subst hda
      simp
    · simp [hda]

/-! ## Lending -/

theorem sum_lend (h : A.Bounded rank s total) (ha : a ∈ s) (hb : b ∈ s) (hne : a ≠ b)
    (hn : n ≤ A.left b) : ∑ c ∈ s, (A.lend a b n).left c = ∑ c ∈ s, A.left c := by
  have hlower := sum_update s A.left b (A.left b - n)
  have hraise := sum_update s (Function.update A.left b (A.left b - n)) a
    (A.limit a + n - A.spent a)
  rw [if_pos hb, if_pos hb] at hlower
  rw [if_pos ha, if_pos ha, Function.update_of_ne hne] at hraise
  rw [left_lend hne]
  have hspent := h.spent_le a ha
  simp only [left] at hlower hraise hn ⊢
  omega

theorem Bounded.lend (h : A.Bounded rank s total) (hb : b ∈ s) (hrank : rank a < rank b)
    (hn : n ≤ A.left b) : (A.lend a b n).Bounded rank s total := by
  have hne : a ≠ b := fun heq ↦ absurd hrank (heq ▸ lt_irrefl _)
  refine ⟨fun c hc ↦ ?_, fun c hc ↦ ?_⟩
  · have hle := h.spent_le c hc
    by_cases hca : c = a
    · subst hca
      simp only [Accounts.lend, Function.update_self, Function.update_of_ne hne]
      omega
    · by_cases hcb : c = b
      · subst hcb
        simp only [left, Accounts.lend, Function.update_self, Function.update_of_ne hca] at hn ⊢
        omega
      · simpa [Accounts.lend, hca, hcb] using hle
  · -- an account below `a` is also below `b`, and what `a` gains `b` has lost
    have hlimit := h.limit_le c hc
    have hlower := sum_update {d ∈ s | rank c < rank d} A.left b (A.left b - n)
    have hraise := sum_update {d ∈ s | rank c < rank d}
      (Function.update A.left b (A.left b - n)) a (A.limit a + n - A.spent a)
    rw [left_lend hne]
    simp only [Finset.mem_filter, hb, true_and, Function.update_of_ne hne] at hlower hraise
    by_cases hca : c = a
    · subst hca
      simp only [Accounts.lend, Function.update_self, lt_irrefl, and_false, if_false, hrank,
        if_true] at hlower hraise ⊢
      omega
    · simp only [Accounts.lend, Function.update_of_ne hca]
      by_cases has : a ∈ s ∧ rank c < rank a
      · have hspent := h.spent_le a has.1
        rw [if_pos has, if_pos has] at hraise
        rw [if_pos (has.2.trans hrank), if_pos (has.2.trans hrank)] at hlower
        simp only [left] at hlower hraise hn hlimit ⊢
        omega
      · rw [if_neg has, if_neg has] at hraise
        split at hlower <;> omega

/-! ## Collecting -/

theorem collect_zero (A : Accounts κ) (a : κ) : A.collect a 0 0 = A := by
  simp [collect]

theorem lend_eq_collect (A : Accounts κ) (a b : κ) (n : ℕ) :
    A.lend a b n = A.collect a (Pi.single b n) n := by
  rw [lend, collect, Accounts.mk.injEq]
  refine ⟨rfl, funext fun c ↦ ?_⟩
  by_cases hc : c = b
  · subst hc
    simp
  · simp [hc]

theorem collect_collect (A : Accounts κ) (a : κ) (f g : κ → ℕ) (m n : ℕ) :
    (A.collect a f m).collect a g n = A.collect a (f + g) (m + n) := by
  simp [collect, Nat.add_assoc]

theorem left_collect_self (ha : lent a = 0) (hspent : A.spent a ≤ A.limit a) :
    (A.collect a lent n).left a = A.left a + n := by
  simp only [left, collect, Function.update_self, ha]
  omega

end Accounts
