import NrScheduler.Core.UnwrappedTime

/-!
# Frame timing is modular arithmetic

Advancing a valid timing adds to its absolute slot modulo the cycle of the frame numbers,
and the difference of two timings undoes it, at both wraps and in every numerology.
-/

namespace NrScheduler

namespace FrameTiming

/-- The laws of a timing; what a timing is advanced by has sixteen bits. -/
structure AddsModulo (t : FrameTiming) : Prop where
  advanced : ∀ a : UInt16, ∃ u, (t.advanced a.toNat).run none = .ok u ∧ u.Valid ∧
    u.slotsPerFrame = t.slotsPerFrame ∧
    u.absoluteSlot = (t.absoluteSlot + a.toNat) % (1024 * t.slotsPerFrame)
  advanced_advanced : ∀ a b : UInt16, a.toNat + b.toNat < 65536 →
    (do let u ← t.advanced a.toNat; u.advanced b.toNat : Exec FrameTiming).run none =
      (t.advanced (a.toNat + b.toNat)).run none
  diff_antisymm : ∀ u : FrameTiming, u.Valid → u.slotsPerFrame = t.slotsPerFrame →
    t.diff u = -u.diff t
  diff_advanced : ∀ k : UInt16, k.toNat < 512 * t.slotsPerFrame →
    ∃ u, (t.advanced k.toNat).run none = .ok u ∧ u.diff t = k.toNat

/-- The arithmetic is right for every valid timing of a numerology. -/
theorem addsModulo {t : FrameTiming} (hsfn : t.sfn < 1024) (hslot : t.slot < t.slotsPerFrame)
    (hle : t.slotsPerFrame ≤ 256) : t.AddsModulo := by
  have hvalid : t.Valid := ⟨hslot, hslot.trans_le hle, hsfn⟩
  have hpos : 0 < t.slotsPerFrame := Nat.zero_lt_of_lt hslot
  have hplus := hvalid.isAt.plus hpos hle
  constructor
  case advanced =>
    intro a
    refine ⟨t.plus a.toNat, advanced_run hpos _, (hplus _).valid hpos hle, rfl, ?_⟩
    rw [(hplus _).absoluteSlot_eq, cycle, maxSfn, Nat.mul_comm]
  case advanced_advanced =>
    intro a b _
    have hsame : (t.plus a.toNat).plus b.toNat = t.plus (a.toNat + b.toNat) := by
      have htwice := (hplus a.toNat).plus hpos hle b.toNat
      rw [Nat.add_assoc] at htwice
      exact htwice.eq_of_symbol (hplus _) rfl
    have hsecond : 0 < (t.plus a.toNat).slotsPerFrame := hpos
    apply (LockMonad.run_bind_of_ok (advanced_run hpos a.toNat)).trans
    apply (advanced_run hsecond b.toNat).trans
    rw [hsame, advanced_run hpos]
  case diff_antisymm => exact fun u _ hspf ↦ FrameTiming.diff_antisymm hspf
  case diff_advanced =>
    intro k hk
    exact ⟨t.plus k.toNat, advanced_run hpos _, hvalid.diff_plus hle hk⟩

/-- The last slot before both wraps. -/
theorem addsModulo_lastSlot :
    AddsModulo { sfn := 1023, slot := 159, symbol := 0, slotsPerFrame := 160 } :=
  addsModulo (by decide) (by decide) (by decide)

end FrameTiming

end NrScheduler
