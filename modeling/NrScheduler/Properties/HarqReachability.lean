import NrScheduler.Core.HarqSpec
import NrScheduler.Lib.Runs

/-!
# No HARQ process is lost

A process should be waiting for feedback, be free for a new transmission, or be ready for
a retransmission.  A NACK after the last transmission leaves it in none of these, for good.
-/

namespace NrScheduler

open Runs

namespace HarqProcess

/-- One of the searches finds the process, or feedback is still to come. -/
def Reachable (p : HarqProcess) : Prop :=
  p.state = .pending ∨ p.state = .idle ∨ p.canRetransmit = true

instance (p : HarqProcess) : Decidable p.Reachable := inferInstanceAs (Decidable (_ ∨ _))

/-- Feedback keeps a process reachable unless it is a NACK for the last transmission. -/
theorem reachable_answered {p : HarqProcess} (hp : p.Reachable) (ack : Bool) :
    (p.answered ack).Reachable ↔ (ack = false → p.state = .pending → p.txCount < maxTx) := by
  by_cases hpending : p.state = .pending
  · cases ack with
    | true =>
        have hreset : (p.answered true).state = .idle := by
          rw [answered, if_pos hpending]
          rfl
        exact iff_of_true (Or.inr (Or.inl hreset)) (fun hack ↦ Bool.noConfusion hack)
    | false =>
        have hnack : p.answered false = { p with state := .nackReceived } := by
          rw [answered, if_pos hpending]
          rfl
        rw [hnack, Reachable, canRetransmit_iff]
        constructor
        · rintro (hstate | hstate | ⟨hcount, _⟩) _ _
          · cases hstate
          · cases hstate
          · exact hcount
        · intro hcount
          exact Or.inr (Or.inr ⟨hcount rfl hpending, rfl⟩)
  · have hsame : p.answered ack = p := by
      rw [answered, if_neg hpending]
    rw [hsame]
    exact iff_of_true hp (fun _ h ↦ absurd h hpending)

/-- A process that no search finds is not brought back by feedback. -/
theorem answered_of_not_reachable {p : HarqProcess} (hp : ¬ p.Reachable) (ack : Bool) :
    p.answered ack = p := by
  rw [answered, if_neg (fun hpending ↦ hp (Or.inl hpending))]

end HarqProcess

namespace HarqEntity

variable {n : ℕ}

/-- Every process of the entity is reachable. -/
def NoneLost (h : HarqEntity n) : Prop :=
  ∀ p ∈ h.processes.toList, p.Reachable

instance (h : HarqEntity n) : Decidable h.NoneLost :=
  inferInstanceAs (Decidable (∀ p ∈ h.processes.toList, p.Reachable))

/-- The feedback is no NACK for a process that has been sent as often as it can be. -/
def BeforeLastNack (h : HarqEntity n) (fb : HarqFeedback) : Prop :=
  fb.ack = false → ∀ p ∈ h.getProcess fb.harqId, p.state = .pending →
    p.txCount < HarqProcess.maxTx

instance (h : HarqEntity n) (fb : HarqFeedback) : Decidable (h.BeforeLastNack fb) := by
  unfold BeforeLastNack
  infer_instance

theorem noneLost_iff {h : HarqEntity n} :
    h.NoneLost ↔ ∀ id p, h.getProcess id = some p → p.Reachable := by
  constructor
  · intro hall id p hp
    exact hall p (getProcess_mem hp)
  · intro hall p hp
    obtain ⟨id, hid⟩ := mem_processes_iff.mp hp
    exact hall id p hid

theorem noneLost_processFeedback {h : HarqEntity n} (hall : h.NoneLost) (fb : HarqFeedback) :
    (h.processFeedback fb).NoneLost ↔ h.BeforeLastNack fb := by
  rw [noneLost_iff] at hall
  rw [noneLost_iff]
  constructor
  · intro hafter hack p hp
    have hget : (h.processFeedback fb).getProcess fb.harqId = some (p.answered fb.ack) := by
      rw [getProcess_processFeedback, if_pos rfl, hp]
      rfl
    have hreachable := hafter fb.harqId _ hget
    exact (HarqProcess.reachable_answered (hall _ p hp) fb.ack).mp hreachable hack
  · intro hlast id q hq
    rw [getProcess_processFeedback] at hq
    by_cases hid : id = fb.harqId
    · rw [if_pos hid, hid, Option.map_eq_some_iff] at hq
      obtain ⟨p, hp, rfl⟩ := hq
      apply (HarqProcess.reachable_answered (hall _ p hp) fb.ack).mpr
      exact fun hack ↦ hlast hack p hp
    · rw [if_neg hid] at hq
      exact hall id q hq

/-- The states of an entity under a sequence of feedback. -/
def feedbackStep (h : HarqEntity n) (fb : HarqFeedback) : Option (HarqEntity n) :=
  some (h.processFeedback fb)

/-- A lost process is lost for good. -/
theorem getProcess_of_not_reachable {h h' : HarqEntity n} {id : HarqId} {p : HarqProcess}
    (hp : h.getProcess id = some p) (hlost : ¬ p.Reachable) {fbs : List HarqFeedback}
    (hrun : fbs.foldlM feedbackStep h = some h') : h'.getProcess id = some p := by
  induction fbs generalizing h with
  | nil =>
      obtain rfl : h = h' := Option.some.inj hrun
      exact hp
  | cons fb fbs ih =>
      rw [List.foldlM_cons] at hrun
      apply ih _ hrun
      rw [getProcess_processFeedback, hp]
      by_cases hid : id = fb.harqId
      · rw [if_pos hid, Option.map_some, HarqProcess.answered_of_not_reachable hlost]
      · rw [if_neg hid]

/-- A run of feedback loses no process exactly if no NACK comes after the last
transmission of a process. -/
theorem alwaysReachable_iff {h : HarqEntity n} (hstart : h.NoneLost) (fbs : List HarqFeedback) :
    Always feedbackStep (fun _ _ h' ↦ h'.NoneLost) h fbs ↔
      Always feedbackStep (fun h fb _ ↦ h.BeforeLastNack fb) h fbs := by
  apply always_iff NoneLost _ hstart
  rintro h fb h' hall ⟨⟩
  exact ⟨noneLost_processFeedback hall fb, id⟩

/-- Process zero waits for the feedback of its transmission number `txCount`. -/
def waiting (txCount : ℕ) : HarqEntity 16 :=
  ⟨(create 16).processes.setIfInBounds 0 { id := 0, state := .pending, txCount := txCount }⟩

/-- A NACK for the third transmission, and an ACK that comes too late. -/
theorem alwaysReachable_third :
    Always feedbackStep (fun _ _ h' ↦ h'.NoneLost) (waiting 3)
      [{ harqId := 0, ack := false, feedbackTime := {} },
        { harqId := 0, ack := true, feedbackTime := {} }] :=
  (alwaysReachable_iff (by decide +kernel) _).mpr (by decide +kernel)

/-- A NACK for the fourth transmission loses the process. -/
theorem not_alwaysReachable :
    (waiting 4).NoneLost ∧
      ¬ Always feedbackStep (fun _ _ h' ↦ h'.NoneLost) (waiting 4)
        [{ harqId := 0, ack := false, feedbackTime := {} }] := by
  constructor
  · decide +kernel
  · decide +kernel

end HarqEntity

end NrScheduler
