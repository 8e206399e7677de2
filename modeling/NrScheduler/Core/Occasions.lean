import NrScheduler.Core.UnwrappedTime
import NrScheduler.Lib.Residues

/-!
# Periodic occasions

Search spaces are monitored and scheduling requests sent in every slot whose number leaves
the offset when it is divided by the period.  The slot is given by its frame and the number
in it.
-/

namespace NrScheduler

open LockMonad

/-- Whether a slot number leaves the offset; a period of zero divides by zero. -/
def onOccasion (absSlot periodicity offset : ℕ) : Exec Bool :=
  if periodicity = 0 then crash .divideByZero else pure (absSlot % periodicity == offset)

structure SearchSpaceConfig where
  monitoringSlotPeriodicity : ℕ
  monitoringSlotOffset : ℕ
  deriving DecidableEq, Repr

/-- A frame is counted as ten slots in every numerology. -/
def SearchSpaceConfig.shouldMonitor (c : SearchSpaceConfig) (sfn slot : ℕ) : Exec Bool :=
  let absSlot := sfn * 10 + slot
  onOccasion absSlot c.monitoringSlotPeriodicity c.monitoringSlotOffset

structure SrConfig where
  periodicitySlots : ℕ
  offsetSlots : ℕ
  deriving DecidableEq, Repr

def SrConfig.isSrOccasion (c : SrConfig) (sfn slot slotsPerFrame : ℕ) : Exec Bool :=
  let absSlot := sfn * slotsPerFrame + slot
  onOccasion absSlot c.periodicitySlots c.offsetSlots

theorem onOccasion_run {period : ℕ} (hperiod : 0 < period) (absSlot offset : ℕ)
    (env : Option (List Mutex)) :
    (onOccasion absSlot period offset).run env = .ok (absSlot % period == offset) := by
  rw [onOccasion, if_neg hperiod.ne']
  rfl

namespace FrameTiming

/-- Of the `period` slots from `t` on exactly the one `j` slots later is an occasion. -/
structure OccursAt (occasion : FrameTiming → Exec Bool) (period : ℕ) (t : FrameTiming)
    (j : ℕ) : Prop where
  lt : j < period
  run : ∀ k < period, ignoringLocks (t.advanced k >>= occasion) = some (decide (k = j))

variable {t : FrameTiming} {period offset j k : ℕ}

/-- Occasions are those of a count of slots that leaves the offset. -/
theorem occursAt_iff {occasion : FrameTiming → Exec Bool} {count : FrameTiming → ℕ}
    (hrun : ∀ u, (occasion u).run none = .ok (count u % period == offset))
    (hpos : 0 < t.slotsPerFrame) : t.OccursAt occasion period j ↔
      j < period ∧ ∀ k < period, count (t.plus k) % period = offset ↔ k = j := by
  have hcall : ∀ k, ignoringLocks (t.advanced k >>= occasion) =
      some (decide (count (t.plus k) % period = offset)) := by
    intro k
    rw [ignoringLocks_eq_some, run_bind_of_ok (advanced_run hpos k), hrun]
    exact congrArg Except.ok (beq_eq_decide _ _)
  constructor
  · intro h
    refine ⟨h.lt, fun k hk ↦ ?_⟩
    have hsame := Option.some.inj ((hcall k).symm.trans (h.run k hk))
    exact decide_eq_decide.mp hsame
  · rintro ⟨hj, hall⟩
    refine ⟨hj, fun k hk ↦ ?_⟩
    rw [hcall k, decide_eq_decide.mpr (hall k hk)]

/-- Periods that divide the cycle do not notice its wrap. -/
theorem Valid.absoluteSlot_plus_mod (h : t.Valid) (hle : t.slotsPerFrame ≤ 256)
    (hdvd : period ∣ 1024 * t.slotsPerFrame) (k : ℕ) :
    (t.plus k).absoluteSlot % period = (t.absoluteSlot + k) % period := by
  have hplus := h.isAt.plus (Nat.zero_lt_of_lt h.slot_lt) hle k
  rw [hplus.absoluteSlot_eq, cycle, Nat.mul_comm, maxSfn, Nat.mod_mod_of_dvd _ hdvd]

end FrameTiming

/-- The offset is one of the period, which divides the slots after which timings repeat. -/
structure Recurs (period offset slotsPerFrame : ℕ) : Prop where
  pos : 1 ≤ period
  dvd : period ∣ 1024 * slotsPerFrame
  offset_lt : offset < period

/-- In a window of one period the offset is left by one absolute slot only. -/
theorem Recurs.absoluteSlot_plus_mod_iff {t : FrameTiming} {period offset k : ℕ}
    (h : Recurs period offset t.slotsPerFrame) (ht : t.Valid) (hle : t.slotsPerFrame ≤ 256)
    (hk : k < period) : (t.plus k).absoluteSlot % period = offset ↔
      k = Residues.delay period t.absoluteSlot offset := by
  rw [ht.absoluteSlot_plus_mod hle h.dvd]
  exact Residues.mod_eq_iff_eq_delay h.pos h.offset_lt hk

end NrScheduler
