import NrScheduler.Lib.FirstFit
import Mathlib.Algebra.BigOperators.Group.List.Basic
import Mathlib.Algebra.Order.Ring.Defs
import Mathlib.Order.Lattice
import Mathlib.Data.List.MinMax

/-!
# A maximum that is scaled on the way

A pass over a list raises a number to the value of each element and then multiplies it by a
factor of at least one.  Everything that comes early is multiplied more often.  The order
does not matter exactly where no value exceeds the start, or where only the greatest values
come with a factor.
-/

namespace ScaledMax

variable {α K : Type*} [CommSemiring K] [LinearOrder K]

def step (value factor : α → K) (x : K) (a : α) : K := max x (value a) * factor a

variable {value factor : α → K} {x y : K} {as before after : List α} {a b : α}

def factors (factor : α → K) (as : List α) : K := (as.map factor).prod

omit [LinearOrder K] in
theorem factors_cons (factor : α → K) (a : α) (as : List α) :
    factors factor (a :: as) = factor a * factors factor as := List.prod_cons

omit [LinearOrder K] in
theorem factors_append (factor : α → K) (as bs : List α) :
    factors factor (as ++ bs) = factors factor as * factors factor bs := by
  rw [factors, List.map_append, List.prod_append]
  rfl

omit [LinearOrder K] in
theorem factors_eq_one (h : ∀ a ∈ as, factor a = 1) : factors factor as = 1 :=
  List.prod_eq_one (List.forall_mem_map.mpr h)

omit [LinearOrder K] in
theorem factors_perm {as' : List α} (h : as'.Perm as) : factors factor as' = factors factor as :=
  (h.map factor).prod_eq

variable [IsStrictOrderedRing K]

theorem factors_pos (hfactor : ∀ a ∈ as, 1 ≤ factor a) : 0 < factors factor as := by
  induction as with
  | nil => exact zero_lt_one
  | cons a as ih =>
      obtain ⟨ha, hrest⟩ := List.forall_mem_cons.mp hfactor
      rw [factors_cons]
      exact mul_pos (zero_lt_one.trans_le ha) (ih hrest)

/-- What bounds the start and the values bounds the result, up to the factors. -/
theorem foldl_le (hfactor : ∀ a ∈ as, 1 ≤ factor a) (hy : 0 ≤ y) (hx : x ≤ y)
    (hvalue : ∀ a ∈ as, value a ≤ y) :
    as.foldl (step value factor) x ≤ y * factors factor as := by
  induction as generalizing x y with
  | nil => simpa [factors] using hx
  | cons a as ih =>
      obtain ⟨ha, hrest⟩ := List.forall_mem_cons.mp hfactor
      obtain ⟨hy', hvalues⟩ := List.forall_mem_cons.mp hvalue
      have hscaled : y ≤ y * factor a := le_mul_of_one_le_right hy ha
      rw [List.foldl_cons, factors_cons, ← mul_assoc]
      apply ih hrest (hy.trans hscaled)
      · exact mul_le_mul_of_nonneg_right (max_le hx hy') (zero_le_one.trans ha)
      · exact fun b hb ↦ (hvalues b hb).trans hscaled

theorem le_foldl (hfactor : ∀ a ∈ as, 1 ≤ factor a) (x : K) :
    x * factors factor as ≤ as.foldl (step value factor) x := by
  induction as generalizing x with
  | nil => simp [factors]
  | cons a as ih =>
      obtain ⟨ha, hrest⟩ := List.forall_mem_cons.mp hfactor
      refine le_trans ?_ (ih hrest _)
      rw [factors_cons, ← mul_assoc]
      apply mul_le_mul_of_nonneg_right _ (factors_pos hrest).le
      exact mul_le_mul_of_nonneg_right (le_max_left _ _) (zero_le_one.trans ha)

/-- Each value is multiplied by its own factor and by all that come after it. -/
theorem value_le_foldl (hfactor : ∀ b ∈ before ++ a :: after, 1 ≤ factor b) :
    value a * factors factor (a :: after) ≤
      (before ++ a :: after).foldl (step value factor) x := by
  obtain ⟨ha, hrest⟩ := List.forall_mem_cons.mp (List.forall_mem_append.mp hfactor).2
  rw [List.foldl_append, List.foldl_cons, factors_cons, ← mul_assoc]
  refine le_trans ?_ (le_foldl hrest _)
  apply mul_le_mul_of_nonneg_right _ (factors_pos hrest).le
  exact mul_le_mul_of_nonneg_right (le_max_right _ _) (zero_le_one.trans ha)

/-- Where no value exceeds the start, only the factors count. -/
theorem foldl_of_le (hfactor : ∀ a ∈ as, 1 ≤ factor a) (hx : 0 ≤ x)
    (hvalue : ∀ a ∈ as, value a ≤ x) :
    as.foldl (step value factor) x = x * factors factor as :=
  le_antisymm (foldl_le hfactor hx le_rfl hvalue) (le_foldl hfactor x)

/-- Where only greatest values come with a factor, the greatest one gets all factors. -/
theorem foldl_of_greatest (hfactor : ∀ a ∈ as, 1 ≤ factor a) (hx : 0 ≤ x)
    (hgreatest : ∀ a ∈ as, 1 < factor a → ∀ b ∈ as, value b ≤ value a) (ha : a ∈ as)
    (hmax : ∀ b ∈ as, value b ≤ value a) (hlt : x < value a) :
    as.foldl (step value factor) x = value a * factors factor as := by
  apply le_antisymm
  · exact foldl_le hfactor (hx.trans hlt.le) hlt.le hmax
  · rcases FirstFit.first_or_none (fun b ↦ decide (value b = value a)) as with
      ⟨before, first, after, rfl, hfirst, hbefore⟩ | hnone
    · -- before the first greatest value there is no factor
      have hunscaled : ∀ b ∈ before, factor b = 1 := by
        intro b hb
        have hmem := List.mem_append_left (first :: after) hb
        by_contra hne
        have hscales : 1 < factor b := (hfactor b hmem).lt_of_ne' hne
        apply of_decide_eq_false (hbefore b hb)
        exact le_antisymm (hmax b hmem) (hgreatest b hmem hscales a ha)
      rw [factors_append, factors_eq_one hunscaled, one_mul, ← of_decide_eq_true hfirst]
      exact value_le_foldl hfactor
    · exact (of_decide_eq_false (hnone a ha) rfl).elim

/-- A factor before the greatest value is lost to it. -/
theorem foldl_cons_lt (hfactor : ∀ c ∈ b :: as, 1 ≤ factor c) (hx : 0 ≤ x) (hscales : 1 < factor b)
    (hmax : ∀ c ∈ as, value c ≤ y) (hxy : x < y) (hb : value b < y) :
    (b :: as).foldl (step value factor) x < y * factors factor (b :: as) := by
  have hrest := (List.forall_mem_cons.mp hfactor).2
  have hy : 0 < y := hx.trans_lt hxy
  have hstart : max x (value b) * factor b < y * factor b :=
    mul_lt_mul_of_pos_right (max_lt hxy hb) (zero_lt_one.trans hscales)
  have hless : max (max x (value b) * factor b) y < y * factor b :=
    max_lt hstart (lt_mul_of_one_lt_right hy hscales)
  rw [List.foldl_cons, factors_cons, ← mul_assoc]
  refine lt_of_le_of_lt (foldl_le hrest (hy.le.trans (le_max_right _ _)) (le_max_left _ _)
    fun c hc ↦ (hmax c hc).trans (le_max_right _ _)) ?_
  exact mul_lt_mul_of_pos_right hless (factors_pos hrest)

omit [CommSemiring K] [IsStrictOrderedRing K] in
theorem exists_greatest (value : α → K) (h : ∃ a ∈ as, x < value a) :
    ∃ a ∈ as, (∀ b ∈ as, value b ≤ value a) ∧ x < value a := by
  obtain ⟨a, ha, hlt⟩ := h
  cases hmax : as.argmax value with
  | none =>
      rw [List.argmax_eq_none] at hmax
      subst hmax
      exact (List.not_mem_nil ha).elim
  | some m =>
      exact ⟨m, List.argmax_mem hmax, fun b hb ↦ List.le_of_mem_argmax hb hmax,
        hlt.trans_le (List.le_of_mem_argmax ha hmax)⟩

omit [CommSemiring K] [LinearOrder K] [IsStrictOrderedRing K] in
theorem exists_perm_cons (ha : a ∈ as) : ∃ rest, (a :: rest).Perm as := by
  obtain ⟨before, after, rfl⟩ := List.append_of_mem ha
  exact ⟨before ++ after, List.perm_middle.symm⟩

variable (value) in
/-- The order does not matter where no value exceeds the start, or where only the greatest
values come with a factor; and only there. -/
theorem foldl_perm_iff (hfactor : ∀ a ∈ as, 1 ≤ factor a) (hx : 0 ≤ x) :
    (∀ as' : List α, as'.Perm as →
      as'.foldl (step value factor) x = as.foldl (step value factor) x) ↔
      (∀ a ∈ as, value a ≤ x) ∨ ∀ a ∈ as, 1 < factor a → ∀ b ∈ as, value b ≤ value a := by
  have hfactor' : ∀ as' : List α, as'.Perm as → ∀ a ∈ as', 1 ≤ factor a :=
    fun as' hperm a ha ↦ hfactor a (hperm.mem_iff.mp ha)
  constructor
  · intro hsame
    by_contra hnot
    push Not at hnot
    obtain ⟨hexceeds, b, hb, hscales, c, hc, hbc⟩ := hnot
    obtain ⟨a, ha, hmax, hlt⟩ := exists_greatest value hexceeds
    obtain ⟨resta, hresta⟩ := exists_perm_cons ha
    obtain ⟨restb, hrestb⟩ := exists_perm_cons hb
    have hfirst : value a * factors factor as ≤ as.foldl (step value factor) x := by
      rw [← hsame _ hresta, ← factors_perm hresta]
      exact value_le_foldl (hfactor' ([] ++ a :: resta) hresta)
    have hlast : as.foldl (step value factor) x < value a * factors factor as := by
      rw [← hsame _ hrestb, ← factors_perm hrestb]
      apply foldl_cons_lt (hfactor' _ hrestb) hx hscales _ hlt (hbc.trans_le (hmax c hc))
      exact fun d hd ↦ hmax d (hrestb.mem_iff.mp (List.mem_cons_of_mem b hd))
    exact (hfirst.trans_lt hlast).false
  · intro h as' hperm
    by_cases hexceeds : ∃ a ∈ as, x < value a
    · obtain ⟨a, ha, hmax, hlt⟩ := exists_greatest value hexceeds
      have hgreatest := h.resolve_left fun hall ↦ (hall a ha).not_gt hlt
      rw [foldl_of_greatest hfactor hx hgreatest ha hmax hlt, ← factors_perm hperm]
      refine foldl_of_greatest (hfactor' _ hperm) hx ?_ (hperm.mem_iff.mpr ha)
        (fun b hb ↦ hmax b (hperm.mem_iff.mp hb)) hlt
      exact fun b hb hscales c hc ↦
        hgreatest b (hperm.mem_iff.mp hb) hscales c (hperm.mem_iff.mp hc)
    · push Not at hexceeds
      rw [foldl_of_le hfactor hx hexceeds, ← factors_perm hperm]
      exact foldl_of_le (hfactor' _ hperm) hx fun b hb ↦ hexceeds b (hperm.mem_iff.mp hb)

end ScaledMax
