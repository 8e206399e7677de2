import Mathlib.Data.Nat.ModEq

/-!
# A residue class in a window

Of any `P` successive numbers exactly one has a given residue modulo `P`.  A count that lags
behind another one meets the residue elsewhere, displaced by the lag.
-/

namespace Residues

variable {P o a j k x d : ℕ}

/-- The delay at which a count that stands at `a` first has the residue `o`. -/
def delay (P a o : ℕ) : ℕ := (o + (P - a % P)) % P

theorem delay_lt (hP : 0 < P) (a o : ℕ) : delay P a o < P := Nat.mod_lt _ hP

theorem add_delay_mod (hP : 0 < P) (ho : o < P) (a : ℕ) : (a + delay P a o) % P = o := by
  have ha := Nat.mod_lt a hP
  have hround : a % P + (o + (P - a % P)) = o + P := by omega
  calc
    (a + delay P a o) % P = (a + (o + (P - a % P))) % P := Nat.add_mod_mod _ _ _
    _ = (a % P + (o + (P - a % P))) % P := (Nat.mod_add_mod _ _ _).symm
    _ = (o + P) % P := by rw [hround]
    _ = o := by rw [Nat.add_mod_right, Nat.mod_eq_of_lt ho]

/-- Two numbers of a window are congruent only where they are equal. -/
theorem add_modEq_add_iff (hj : j < P) (hk : k < P) : a + k ≡ a + j [MOD P] ↔ k = j := by
  constructor
  · intro h
    exact (Nat.ModEq.add_left_cancel' a h).eq_of_lt_of_lt hk hj
  · rintro rfl
    exact Nat.ModEq.refl _

theorem mod_eq_iff_eq_delay (hP : 0 < P) (ho : o < P) (hk : k < P) :
    (a + k) % P = o ↔ k = delay P a o := by
  have hmeets := add_delay_mod hP ho a
  rw [← add_modEq_add_iff (delay_lt hP a o) hk, Nat.ModEq, hmeets]

/-- A count `x` that lags `d` behind has the residue where the lag displaces it to. -/
theorem lagging_mod_eq_iff (hP : 0 < P) (ho : o < P) (hk : k < P) (hlag : x + d ≡ a + k [MOD P]) :
    x % P = o ↔ (delay P a o + d) % P = k := by
  have hmeets : a + delay P a o ≡ o [MOD P] :=
    (add_delay_mod hP ho a).trans (Nat.mod_eq_of_lt ho).symm
  have hx : x % P = o ↔ x ≡ o [MOD P] := by rw [Nat.ModEq, Nat.mod_eq_of_lt ho]
  have hdelay : (delay P a o + d) % P = k ↔ delay P a o + d ≡ k [MOD P] := by
    rw [Nat.ModEq, Nat.mod_eq_of_lt hk]
  rw [hx, hdelay]
  constructor
  · intro h
    have hsum : a + (delay P a o + d) ≡ a + k [MOD P] := by
      rw [← Nat.add_assoc]
      exact ((hmeets.add_right d).trans (h.symm.add_right d)).trans hlag
    exact Nat.ModEq.add_left_cancel' a hsum
  · intro h
    have hsum : o + d ≡ a + k [MOD P] := by
      have hshift := h.add_left a
      rw [← Nat.add_assoc] at hshift
      exact (hmeets.symm.add_right d).trans hshift
    exact Nat.ModEq.add_right_cancel' d (hlag.trans hsum.symm)

/-- The lag displaces a number to itself where it is a multiple of the period. -/
theorem add_mod_eq_self_iff (hj : j < P) : (j + d) % P = j ↔ P ∣ d := by
  constructor
  · intro h
    have hcongr : j + d ≡ j + 0 [MOD P] := h.trans (Nat.mod_eq_of_lt hj).symm
    exact (Nat.modEq_zero_iff_dvd).mp (Nat.ModEq.add_left_cancel' j hcongr)
  · rintro ⟨c, rfl⟩
    rw [Nat.add_mul_mod_self_left, Nat.mod_eq_of_lt hj]

end Residues
