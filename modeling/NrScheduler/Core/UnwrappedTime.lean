import NrScheduler.Core.Types
import Mathlib.Tactic.Ring

/-!
# Slots counted without wrapping

Absolute slot numbers repeat with the frame numbers.  A timing names a slot that is counted
from the beginning of the first frame and never wraps, and advancing a timing is addition.
-/

namespace NrScheduler

namespace FrameTiming

/-- The number of slots after which timings repeat. -/
def cycle (slotsPerFrame : ℕ) : ℕ := slotsPerFrame * maxSfn

/-- The timing of the slot `n`. -/
structure IsAt (t : FrameTiming) (slotsPerFrame n : ℕ) : Prop where
  slotsPerFrame_eq : t.slotsPerFrame = slotsPerFrame
  slot_eq : t.slot = n % slotsPerFrame
  sfn_eq : t.sfn = n / slotsPerFrame % maxSfn

instance (t : FrameTiming) (slotsPerFrame n : ℕ) : Decidable (t.IsAt slotsPerFrame n) :=
  decidable_of_iff (t.slotsPerFrame = slotsPerFrame ∧ t.slot = n % slotsPerFrame ∧
      t.sfn = n / slotsPerFrame % maxSfn)
    ⟨fun h ↦ ⟨h.1, h.2.1, h.2.2⟩, fun h ↦ ⟨h.slotsPerFrame_eq, h.slot_eq, h.sfn_eq⟩⟩

variable {t : FrameTiming} {slotsPerFrame n : ℕ}

theorem IsAt.absoluteSlot_eq (h : t.IsAt slotsPerFrame n) :
    t.absoluteSlot = n % cycle slotsPerFrame := by
  rw [absoluteSlot, h.sfn_eq, h.slotsPerFrame_eq, h.slot_eq, cycle, Nat.mod_mul]
  ring

/-- The slots of a frame are numbered in eight bits, so there are at most 256. -/
theorem IsAt.plus (h : t.IsAt slotsPerFrame n) (hpos : 0 < slotsPerFrame)
    (hle : slotsPerFrame ≤ 256) (k : ℕ) : (t.plus k).IsAt slotsPerFrame (n + k) where
  slotsPerFrame_eq := h.slotsPerFrame_eq
  slot_eq := by
    have hlt : (n + k) % slotsPerFrame < 2 ^ 8 := (Nat.mod_lt _ hpos).trans_le hle
    simp only [FrameTiming.plus, h.slot_eq, h.slotsPerFrame_eq]
    rw [Nat.mod_add_mod, Nat.mod_eq_of_lt hlt]
  sfn_eq := by
    have hframes : (n + k) / slotsPerFrame =
        n / slotsPerFrame + (n % slotsPerFrame + k) / slotsPerFrame := by
      conv_lhs => rw [← Nat.div_add_mod n slotsPerFrame, Nat.add_assoc]
      rw [Nat.mul_add_div hpos]
    simp only [FrameTiming.plus, h.slot_eq, h.slotsPerFrame_eq, h.sfn_eq]
    -- the frame advance is cut to sixteen bits, a multiple of the frame numbers
    have hcut : ∀ m : ℕ, m % 2 ^ 16 % maxSfn = m % maxSfn := fun m ↦
      Nat.mod_mod_of_dvd m (by decide)
    rw [hframes, Nat.add_mod, Nat.mod_mod, hcut, ← Nat.add_mod]

/-- A timing inside its frame; the slot has eight bits. -/
structure Valid (t : FrameTiming) : Prop where
  slot_lt : t.slot < t.slotsPerFrame
  slot_lt_byte : t.slot < 2 ^ 8
  sfn_lt : t.sfn < maxSfn

instance (t : FrameTiming) : Decidable t.Valid :=
  decidable_of_iff (t.slot < t.slotsPerFrame ∧ t.slot < 2 ^ 8 ∧ t.sfn < maxSfn)
    ⟨fun h ↦ ⟨h.1, h.2.1, h.2.2⟩, fun h ↦ ⟨h.slot_lt, h.slot_lt_byte, h.sfn_lt⟩⟩

/-- A valid timing is that of its absolute slot. -/
theorem Valid.isAt (h : t.Valid) : t.IsAt t.slotsPerFrame t.absoluteSlot where
  slotsPerFrame_eq := rfl
  slot_eq := by
    rw [absoluteSlot, Nat.mul_add_mod_self_right, Nat.mod_eq_of_lt h.slot_lt]
  sfn_eq := by
    have hpos : 0 < t.slotsPerFrame := Nat.zero_lt_of_lt h.slot_lt
    rw [absoluteSlot, Nat.mul_comm, Nat.mul_add_div hpos, Nat.div_eq_of_lt h.slot_lt, Nat.add_zero,
      Nat.mod_eq_of_lt h.sfn_lt]

theorem Valid.absoluteSlot_lt (h : t.Valid) : t.absoluteSlot < cycle t.slotsPerFrame := by
  have hcycle := Nat.mul_le_mul_left t.slotsPerFrame (Nat.succ_le_of_lt h.sfn_lt)
  rw [Nat.mul_succ] at hcycle
  have hslot := h.slot_lt
  rw [absoluteSlot, Nat.mul_comm, cycle]
  omega

theorem IsAt.valid (h : t.IsAt slotsPerFrame n) (hpos : 0 < slotsPerFrame)
    (hle : slotsPerFrame ≤ 256) : t.Valid where
  slot_lt := by
    rw [h.slot_eq, h.slotsPerFrame_eq]
    exact Nat.mod_lt _ hpos
  slot_lt_byte := by
    rw [h.slot_eq]
    exact (Nat.mod_lt _ hpos).trans_le hle
  sfn_lt := by
    rw [h.sfn_eq]
    exact Nat.mod_lt _ (by decide)

/-- Two timings of one slot differ in their symbols at most. -/
theorem IsAt.eq_of_symbol {u : FrameTiming} (h : t.IsAt slotsPerFrame n)
    (hu : u.IsAt slotsPerFrame n) (hsymbol : t.symbol = u.symbol) : t = u := by
  cases t
  cases u
  have hsfn := h.sfn_eq.trans hu.sfn_eq.symm
  have hslot := h.slot_eq.trans hu.slot_eq.symm
  have hspf := h.slotsPerFrame_eq.trans hu.slotsPerFrame_eq.symm
  simp only [mk.injEq] at hsfn hslot hsymbol hspf ⊢
  exact ⟨hsfn, hslot, hsymbol, hspf⟩

/-- The difference of absolute slots, corrected by a cycle where it is more than half of one. -/
theorem diff_eq (t u : FrameTiming) : t.diff u =
      if u.absoluteSlot + 512 * t.slotsPerFrame < t.absoluteSlot then
        (t.absoluteSlot : ℤ) - u.absoluteSlot - cycle t.slotsPerFrame
      else if t.absoluteSlot + 512 * t.slotsPerFrame < u.absoluteSlot then
        (t.absoluteSlot : ℤ) - u.absoluteSlot + cycle t.slotsPerFrame
      else (t.absoluteSlot : ℤ) - u.absoluteSlot := by
  have hthis : (t.sfn * t.slotsPerFrame + t.slot : ℤ) = t.absoluteSlot := by
    rw [absoluteSlot]
    push_cast
    rfl
  have hother : (u.sfn * u.slotsPerFrame + u.slot : ℤ) = u.absoluteSlot := by
    rw [absoluteSlot]
    push_cast
    rfl
  simp only [diff, hthis, hother, cycle, maxSfn]
  split <;> split <;> omega

theorem diff_antisymm {u : FrameTiming} (hspf : u.slotsPerFrame = t.slotsPerFrame) :
    t.diff u = -u.diff t := by
  rw [diff_eq, diff_eq, hspf]
  split <;> split <;> omega

/-- Within half a cycle the difference is the number of slots advanced. -/
theorem Valid.diff_plus (h : t.Valid) (hle : t.slotsPerFrame ≤ 256) {k : ℕ}
    (hk : k < 512 * t.slotsPerFrame) : (t.plus k).diff t = k := by
  have hpos : 0 < t.slotsPerFrame := Nat.zero_lt_of_lt h.slot_lt
  have hspf : (t.plus k).slotsPerFrame = t.slotsPerFrame := rfl
  have hlt := h.absoluteSlot_lt
  have habs := (h.isAt.plus hpos hle k).absoluteSlot_eq
  rw [diff_eq, hspf]
  simp only [cycle, maxSfn] at hlt habs ⊢
  by_cases hwrap : t.absoluteSlot + k < t.slotsPerFrame * 1024
  · rw [Nat.mod_eq_of_lt hwrap] at habs
    split <;> omega
  · rw [Nat.mod_eq_sub_mod (not_lt.mp hwrap), Nat.mod_eq_of_lt (by omega)] at habs
    split <;> omega

theorem absoluteSlot_inj {u v : FrameTiming} (hu : u.slot < u.slotsPerFrame)
    (hv : v.slot < v.slotsPerFrame) (hspf : u.slotsPerFrame = v.slotsPerFrame)
    (h : u.absoluteSlot = v.absoluteSlot) : u.sfn = v.sfn ∧ u.slot = v.slot := by
  have hpos : 0 < v.slotsPerFrame := by omega
  rw [absoluteSlot, absoluteSlot, hspf, Nat.mul_comm, Nat.mul_comm v.sfn] at h
  rw [hspf] at hu
  have hdiv := congrArg (· / v.slotsPerFrame) h
  have hmod := congrArg (· % v.slotsPerFrame) h
  simp only [Nat.mul_add_div hpos, Nat.div_eq_of_lt hu, Nat.div_eq_of_lt hv, Nat.add_zero] at hdiv
  simp only [Nat.mul_add_mod, Nat.mod_eq_of_lt hu, Nat.mod_eq_of_lt hv] at hmod
  exact ⟨hdiv, hmod⟩

/-- Timings at different delays of at most 255 slots are different, in every numerology and
through the wrap. -/
theorem Valid.absoluteSlot_plus_inj (h : t.Valid) {j k : ℕ} (hj : j < 2 ^ 8) (hk : k < 2 ^ 8) :
    (t.plus j).absoluteSlot = (t.plus k).absoluteSlot ↔ j = k := by
  have hpos : 0 < t.slotsPerFrame := Nat.zero_lt_of_lt h.slot_lt
  have hslot : ∀ n, (t.plus n).slot < (t.plus n).slotsPerFrame := fun n ↦
    (Nat.mod_le _ _).trans_lt (Nat.mod_lt _ hpos)
  refine ⟨fun heq ↦ ?_, fun heq ↦ heq ▸ rfl⟩
  obtain ⟨hsfn, hmod⟩ := absoluteSlot_inj (hslot j) (hslot k) rfl heq
  simp only [plus, maxSfn] at hsfn hmod
  have hframes : (t.slot + j) / t.slotsPerFrame = (t.slot + k) / t.slotsPerFrame := by
    have hj' : (t.slot + j) / t.slotsPerFrame ≤ t.slot + j := Nat.div_le_self _ _
    have hk' : (t.slot + k) / t.slotsPerFrame ≤ t.slot + k := Nat.div_le_self _ _
    have hbyte := h.slot_lt_byte
    clear hmod
    generalize (t.slot + j) / t.slotsPerFrame = q at hj' hsfn ⊢
    generalize (t.slot + k) / t.slotsPerFrame = q' at hk' hsfn ⊢
    omega
  have hsplit := Nat.div_add_mod (t.slot + j) t.slotsPerFrame
  have hsplit' := Nat.div_add_mod (t.slot + k) t.slotsPerFrame
  rw [hframes] at hsplit
  omega

end FrameTiming

end NrScheduler
