import Mathlib.Data.Nat.Notation
import Mathlib.Order.Bounds.Basic
import Mathlib.Order.Nat

/-!
# First fit in one pass

The least position at which a run of `n` free indexes lies below a bound, and the
one-pass scan that finds it by counting the free indexes seen last.
-/

namespace FirstFit

/-- The indexes `s, …, s + n - 1` are free and lie below `bound`. -/
def Fits (free : ℕ → Prop) (bound n s : ℕ) : Prop :=
  s + n ≤ bound ∧ ∀ i, s ≤ i → i < s + n → free i

/-- `r` is the least position that fits, or `none` where nothing fits. -/
def IsFirst (free : ℕ → Prop) (bound n : ℕ) : Option ℕ → Prop
  | some s => Fits free bound n s ∧ ∀ s' < s, ¬ Fits free bound n s'
  | none => ∀ s, ¬ Fits free bound n s

variable {free : ℕ → Prop} {bound n s : ℕ}

theorem Fits.mono {m : ℕ} (h : Fits free bound n s) (hm : m ≤ n) : Fits free bound m s :=
  ⟨by have := h.1; omega, fun i hi hlt ↦ h.2 i hi (by omega)⟩

theorem IsFirst.fits {r : Option ℕ} (h : IsFirst free bound n r) (hr : r = some s) :
    Fits free bound n s := by
  subst hr
  exact h.1

theorem IsFirst.unique {r r' : Option ℕ} (h : IsFirst free bound n r)
    (h' : IsFirst free bound n r') : r = r' := by
  cases r with
  | none =>
      cases r' with
      | none => rfl
      | some s' => exact (h s' h'.1).elim
  | some s =>
      cases r' with
      | none => exact (h' s h.1).elim
      | some s' =>
          have hle : s ≤ s' := not_lt.mp fun hlt ↦ h.2 s' hlt h'.1
          have hge : s' ≤ s := not_lt.mp fun hlt ↦ h'.2 s hlt h.1
          rw [le_antisymm hle hge]

theorem IsFirst.eq_some_iff {r : Option ℕ} (h : IsFirst free bound n r) :
    r = some s ↔ IsLeast {s | Fits free bound n s} s := by
  constructor
  · rintro rfl
    exact ⟨h.1, fun s' hs' ↦ not_lt.mp fun hlt ↦ h.2 s' hlt hs'⟩
  · intro hleast
    have hfirst : IsFirst free bound n (some s) :=
      ⟨hleast.1, fun s' hlt hs' ↦ absurd (hleast.2 hs') (not_le.mpr hlt)⟩
    exact h.unique hfirst

theorem IsFirst.eq_none_iff {r : Option ℕ} (h : IsFirst free bound n r) :
    r = none ↔ ∀ s, ¬ Fits free bound n s := by
  constructor
  · rintro rfl
    exact h
  · intro hnone
    have hfirst : IsFirst free bound n none := hnone
    exact h.unique hfirst

/-- Where exactly the indexes from `k` on are free, the first fit is at `k`. -/
theorem isFirst_of_suffix {k : ℕ} (hfree : ∀ i < bound, free i ↔ k ≤ i) (hn : 0 < n) :
    IsFirst free bound n (if k + n ≤ bound then some k else none) := by
  have hlow : ∀ s, Fits free bound n s → k ≤ s := by
    intro s hs
    have hsb := hs.1
    exact (hfree s (by omega)).mp (hs.2 s le_rfl (by omega))
  by_cases hk : k + n ≤ bound
  · rw [if_pos hk]
    refine ⟨⟨hk, fun i hi hlt ↦ (hfree i (by omega)).mpr hi⟩, ?_⟩
    intro s' hs' hfits
    exact absurd (hlow s' hfits) (by omega)
  · rw [if_neg hk]
    intro s hs
    have hks := hlow s hs
    have hsb := hs.1
    omega

/-! ## The scan -/

/-- Scan `fuel` indexes from `i` on, with `count` free indexes seen last, the first of
them at `start`. -/
def scan (free : ℕ → Bool) (n : ℕ) : (fuel i count start : ℕ) → Option ℕ
  | 0, _, _, _ => none
  | fuel + 1, i, count, start =>
      if free i then
        let start' := if count = 0 then i else start
        if n ≤ count + 1 then some start' else scan free n fuel (i + 1) (count + 1) start'
      else scan free n fuel (i + 1) 0 start

/-- The scan is right from any point at which the counted indexes are free, too few to
fit, and no fit starts before them. -/
theorem scan_isFirst_aux {free : ℕ → Bool} {fuel i count start : ℕ}
    (hcount : count ≤ i) (hstart : count ≠ 0 → start = i - count) (hlt : count < n)
    (hfree : ∀ j, i - count ≤ j → j < i → free j = true)
    (hbefore : ∀ s < i - count, ¬ Fits (fun j ↦ free j = true) (i + fuel) n s) :
    IsFirst (fun j ↦ free j = true) (i + fuel) n (scan free n fuel i count start) := by
  induction fuel generalizing i count start with
  | zero =>
      intro s hs
      by_cases hsi : s < i - count
      · exact hbefore s hsi hs
      · have := hs.1
        omega
  | succ fuel ih =>
      have hbound : i + (fuel + 1) = i + 1 + fuel := by omega
      rw [scan]
      by_cases hi : free i = true
      · have hstart' : (if count = 0 then i else start) = i - count := by
          by_cases h0 : count = 0
          · rw [if_pos h0]
            omega
          · rw [if_neg h0, hstart h0]
        have hfree' : ∀ j, i - count ≤ j → j < i + 1 → free j = true := by
          intro j hj hji
          rcases Nat.lt_succ_iff_lt_or_eq.mp hji with hji | rfl
          · exact hfree j hj hji
          · exact hi
        simp only [hi, if_true, hstart']
        by_cases hn : n ≤ count + 1
        · rw [if_pos hn]
          exact ⟨⟨by omega, fun j hj hjn ↦ hfree' j hj (by omega)⟩, hbefore⟩
        · rw [if_neg hn, hbound]
          apply ih (by omega) (fun _ ↦ by omega) (by omega)
          · intro j hj hji
            exact hfree' j (by omega) hji
          · intro s hs
            rw [← hbound]
            exact hbefore s (by omega)
      · simp only [hi, if_false, Bool.false_eq_true]
        rw [hbound]
        apply ih (by omega) (fun h ↦ (h rfl).elim) (by omega)
        · intro j hj hji
          omega
        · intro s hs hfits
          by_cases hsi : s < i - count
          · exact hbefore s hsi (hbound ▸ hfits)
          · -- a fit from here on would have to cover the occupied index `i`
            exact hi (hfits.2 i (by omega) (by omega))

theorem scan_isFirst {free : ℕ → Bool} (hn : 0 < n) (bound : ℕ) :
    IsFirst (fun j ↦ free j = true) bound n (scan free n bound 0 0 0) := by
  have h : IsFirst (fun j ↦ free j = true) (0 + bound) n (scan free n bound 0 0 0) :=
    scan_isFirst_aux le_rfl (fun h ↦ (h rfl).elim) hn (by omega) (by omega)
  simpa only [Nat.zero_add] using h

/-! ## The lowest position -/

/-- `r` is the least position with `P`, or `none` where there is none. -/
def Lowest (P : ℕ → Prop) : Option ℕ → Prop
  | some s => P s ∧ ∀ s' < s, ¬ P s'
  | none => ∀ s, ¬ P s

theorem Lowest.congr {P P' : ℕ → Prop} {r : Option ℕ} (h : Lowest P r) (hP : ∀ s, P s ↔ P' s) :
    Lowest P' r := by
  obtain rfl : P = P' := funext fun s ↦ propext (hP s)
  exact h

theorem lowest_find {xs : List ℕ} (hxs : xs.Pairwise (· < ·)) (q : ℕ → Bool) :
    Lowest (fun s ↦ s ∈ xs ∧ q s = true) (xs.find? q) := by
  induction xs with
  | nil => exact fun s hs ↦ List.not_mem_nil hs.1
  | cons x xs ih =>
      obtain ⟨hx, hrest⟩ := List.pairwise_cons.mp hxs
      rw [List.find?_cons]
      cases hq : q x with
      | true =>
          refine ⟨⟨List.mem_cons_self, hq⟩, fun s' hlt hs' ↦ ?_⟩
          rcases List.mem_cons.mp hs'.1 with rfl | hmem
          · exact lt_irrefl _ hlt
          · exact lt_asymm hlt (hx s' hmem)
      | false =>
          refine (ih hrest).congr fun s ↦ and_congr_left fun hs ↦ ?_
          refine ⟨List.mem_cons_of_mem x, fun hmem ↦ (List.mem_cons.mp hmem).resolve_left ?_⟩
          rintro rfl
          exact Bool.false_ne_true (hq.symm.trans hs)

/-- A list has a first element with a property, or none. -/
theorem first_or_none {α : Type*} (p : α → Bool) (l : List α) :
    (∃ before a after, l = before ++ a :: after ∧ p a = true ∧ ∀ b ∈ before, p b = false) ∨
      ∀ a ∈ l, p a = false := by
  cases hfind : l.find? p with
  | none => exact Or.inr fun a ha ↦ eq_false_of_ne_true (List.find?_eq_none.mp hfind a ha)
  | some a =>
      obtain ⟨ha, before, after, hsplit, hbefore⟩ := List.find?_eq_some_iff_append.mp hfind
      refine Or.inl ⟨before, a, after, hsplit, ha, ?_⟩
      intro b hb
      simpa using hbefore b hb

/-! ## The widest fit -/

/-- The greatest width up to `limit` that fits somewhere, searched downwards. -/
def widest (fits : ℕ → Bool) : (limit : ℕ) → ℕ
  | 0 => 0
  | limit + 1 => if fits (limit + 1) then limit + 1 else widest fits limit

theorem fits_widest (fits : ℕ → Bool) {limit : ℕ} (h : widest fits limit ≠ 0) :
    fits (widest fits limit) = true := by
  induction limit with
  | zero => exact (h rfl).elim
  | succ limit ih =>
      rw [widest] at h ⊢
      by_cases hfit : fits (limit + 1) = true
      · rw [if_pos hfit]
        exact hfit
      · rw [if_neg hfit] at h ⊢
        exact ih h

theorem le_widest (fits : ℕ → Bool) {limit m : ℕ} (hm : m ≤ limit) (hfit : fits m = true) :
    m ≤ widest fits limit := by
  induction limit with
  | zero => omega
  | succ limit ih =>
      rw [widest]
      by_cases hlast : fits (limit + 1) = true
      · rw [if_pos hlast]
        exact hm
      · rw [if_neg hlast]
        rcases Nat.lt_or_eq_of_le hm with hlt | rfl
        · exact ih (by omega)
        · exact absurd hfit hlast

end FirstFit
