import NrScheduler.Core.HarqSpec
import NrScheduler.Core.UnwrappedTime

/-!
# The oldest retransmission first

The search for a retransmission compares absolute slots, while the difference of timings
goes the shorter way round the frame numbers.  The two agree unless the frame numbers
wrap between the transmissions.
-/

namespace NrScheduler

namespace FrameTiming

variable {t u : FrameTiming} {slotsPerFrame : ℕ}

/-- A timing is no earlier than one of a smaller absolute slot unless they are more than
half a cycle apart. -/
theorem diff_nonneg_iff (ht : t.Valid) (hspf : t.slotsPerFrame = slotsPerFrame)
    (hle : u.absoluteSlot ≤ t.absoluteSlot) :
    0 ≤ t.diff u ↔ t.absoluteSlot ≤ u.absoluteSlot + 512 * slotsPerFrame := by
  subst hspf
  have hlt := ht.absoluteSlot_lt
  rw [diff_eq]
  constructor
  · intro hdiff
    by_contra hfar
    rw [if_pos (not_le.mp hfar)] at hdiff
    omega
  · intro hnear
    rw [if_neg (not_lt.mpr hnear)]
    split <;> omega

end FrameTiming

namespace HarqEntity

variable {n : ℕ} {h : HarqEntity n}

/-- A retransmission that waits is no older than the one that is served. -/
def OldestFirst (h : HarqEntity n) : Prop :=
  ∀ q ∈ h.processes.toList, q.canRetransmit = true →
    ∃ p ∈ h.getRetxProcess, 0 ≤ q.txTime.diff p.txTime

instance (h : HarqEntity n) : Decidable h.OldestFirst := by
  unfold OldestFirst
  infer_instance

/-- The absolute slots of the retransmittable processes are at most half a cycle apart: the
frame numbers did not wrap between transmissions that close to each other. -/
def NoWrapBetween (h : HarqEntity n) (slotsPerFrame : ℕ) : Prop :=
  ∀ q ∈ h.processes.toList, q.canRetransmit = true →
    ∀ r ∈ h.processes.toList, r.canRetransmit = true →
      q.txTime.absoluteSlot ≤ r.txTime.absoluteSlot + 512 * slotsPerFrame

instance (h : HarqEntity n) (slotsPerFrame : ℕ) : Decidable (h.NoWrapBetween slotsPerFrame) := by
  unfold NoWrapBetween
  infer_instance

theorem getRetxProcess_isSome {q : HarqProcess} (hq : q ∈ h.processes.toList)
    (hcan : q.canRetransmit = true) : ∃ p, h.getRetxProcess = some p := by
  apply Option.ne_none_iff_exists'.mp
  intro hnone
  have hfalse := getRetxProcess_eq_none.mp hnone q hq
  rw [hcan] at hfalse
  cases hfalse

/-- The search serves the oldest retransmission exactly if no wrap lies between two of them. -/
theorem oldestFirst_iff {slotsPerFrame : ℕ}
    (hvalid : ∀ q ∈ h.processes.toList, q.canRetransmit = true →
      q.txTime.Valid ∧ q.txTime.slotsPerFrame = slotsPerFrame) :
    h.OldestFirst ↔ h.NoWrapBetween slotsPerFrame := by
  constructor
  · intro hfirst q hq hqcan r hr hrcan
    obtain ⟨p, hp, hdiff⟩ := hfirst q hq hqcan
    obtain ⟨_, _, hleast⟩ := getRetxProcess_spec hp
    obtain ⟨hqvalid, hqspf⟩ := hvalid q hq hqcan
    have hnear := (FrameTiming.diff_nonneg_iff hqvalid hqspf (hleast q hq hqcan)).mp hdiff
    exact hnear.trans (Nat.add_le_add_right (hleast r hr hrcan) _)
  · intro hnear q hq hqcan
    obtain ⟨p, hp⟩ := getRetxProcess_isSome hq hqcan
    obtain ⟨hmem, hcan, hleast⟩ := getRetxProcess_spec hp
    obtain ⟨hqvalid, hqspf⟩ := hvalid q hq hqcan
    refine ⟨p, hp, ?_⟩
    apply (FrameTiming.diff_nonneg_iff hqvalid hqspf (hleast q hq hqcan)).mpr
    exact hnear q hq hqcan p hmem hcan

/-- Processes zero and one were sent at `t` and `u` and wait for a retransmission. -/
def twoRetx (t u : FrameTiming) : HarqEntity 16 :=
  ⟨((create 16).processes.setIfInBounds 0
    { id := 0, state := .nackReceived, txCount := 1, txTime := t }).setIfInBounds 1
      { id := 1, state := .nackReceived, txCount := 1, txTime := u }⟩

/-- Two transmissions of one cycle, the second process being the older. -/
theorem oldestFirst_sameCycle : (twoRetx { sfn := 500 } { sfn := 499 }).OldestFirst :=
  (oldestFirst_iff (by decide +kernel)).mpr
    (show (twoRetx { sfn := 500 } { sfn := 499 }).NoWrapBetween 10 by decide +kernel)

/-- A transmission in the last frame and one in the first frame after the wrap, ten slots
later: the later one is served. -/
theorem not_oldestFirst :
    (∀ q ∈ (twoRetx { sfn := 1023 } { sfn := 0 }).processes.toList, q.canRetransmit = true →
      q.txTime.IsAt 10 10230 ∨ q.txTime.IsAt 10 10240) ∧
    ¬ (twoRetx { sfn := 1023 } { sfn := 0 }).OldestFirst := by
  constructor
  · decide +kernel
  · decide +kernel

end HarqEntity

end NrScheduler
