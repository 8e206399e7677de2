import NrScheduler.Core.UeContext
import Mathlib.Data.List.MinMax

/-!
# HARQ entities by their processes

What the searches of a HARQ entity return, and what feedback does to one process.
-/

namespace NrScheduler

namespace HarqProcess

theorem canRetransmit_iff {p : HarqProcess} :
    p.canRetransmit = true ↔ p.txCount < maxTx ∧ p.state = .nackReceived := by
  rw [canRetransmit, Bool.and_eq_true, decide_eq_true_eq, beq_iff_eq]

/-- The process after feedback for it. -/
def answered (p : HarqProcess) (ack : Bool) : HarqProcess :=
  if p.state = .pending then
    if ack then p.reset else { p with state := .nackReceived }
  else p

end HarqProcess

namespace HarqEntity

variable {n : ℕ} {h : HarqEntity n}

/-- The search keeps the first of the retransmittable processes with the least slot. -/
theorem getRetxProcess_eq_argmin (h : HarqEntity n) : h.getRetxProcess =
    (h.processes.toList.filter HarqProcess.canRetransmit).argmin
      fun p ↦ p.txTime.absoluteSlot := by
  have hround : ∀ (oldest : Option HarqProcess) (p : HarqProcess), olderRetx oldest p =
      if p.canRetransmit = true then List.argAux
        (fun b c ↦ b.txTime.absoluteSlot < c.txTime.absoluteSlot) oldest p else oldest := by
    intro oldest p
    cases hp : p.canRetransmit with
    | false => simp only [olderRetx, hp, Bool.and_false, Bool.false_eq_true, if_false]
    | true =>
        simp only [olderRetx, hp, (HarqProcess.canRetransmit_iff.mp hp).2, beq_self_eq_true,
          Bool.and_self, if_true]
        cases oldest <;> rfl
  rw [getRetxProcess, List.argmin, List.foldl_filter]
  exact congrArg (fun f ↦ h.processes.toList.foldl f none)
    (funext fun oldest ↦ funext fun p ↦ hround oldest p)

theorem getRetxProcess_spec {p : HarqProcess} (hp : h.getRetxProcess = some p) :
    p ∈ h.processes.toList ∧ p.canRetransmit = true ∧
      ∀ q ∈ h.processes.toList, q.canRetransmit = true →
        p.txTime.absoluteSlot ≤ q.txTime.absoluteSlot := by
  rw [getRetxProcess_eq_argmin] at hp
  obtain ⟨hmem, hcan⟩ := List.mem_filter.mp (List.argmin_mem hp)
  refine ⟨hmem, hcan, ?_⟩
  intro q hq hqcan
  have hkept := List.mem_filter.mpr ⟨hq, hqcan⟩
  exact List.le_of_mem_argmin (f := fun p ↦ p.txTime.absoluteSlot) hkept hp

theorem getRetxProcess_eq_none :
    h.getRetxProcess = none ↔ ∀ q ∈ h.processes.toList, q.canRetransmit = false := by
  rw [getRetxProcess_eq_argmin, List.argmin_eq_none, List.filter_eq_nil_iff]
  apply forall₂_congr
  intro q _
  exact iff_of_eq (Bool.not_eq_true _)

/-- Feedback answers the process it names and leaves the others. -/
theorem getProcess_processFeedback (h : HarqEntity n) (fb : HarqFeedback) (id : HarqId) :
    (h.processFeedback fb).getProcess id =
      if id = fb.harqId then (h.getProcess id).map (·.answered fb.ack) else h.getProcess id := by
  by_cases hlt : fb.harqId < n
  · by_cases hpending : h.processes[fb.harqId].state = .pending
    · simp only [processFeedback, getProcess, hlt, hpending, dite_true, if_true,
        Vector.getElem?_set]
      by_cases hid : id = fb.harqId
      · subst hid
        simp only [if_true, Vector.getElem?_eq_getElem hlt, Option.map_some,
          HarqProcess.answered, hpending]
      · simp only [hid, if_false, Ne.symm hid]
    · have hsame : h.processFeedback fb = h := by
        simp only [processFeedback, hlt, hpending, dite_true, if_false]
      rw [hsame]
      by_cases hid : id = fb.harqId
      · subst hid
        rw [if_pos rfl, getProcess, Vector.getElem?_eq_getElem hlt, Option.map_some,
          HarqProcess.answered, if_neg hpending]
      · rw [if_neg hid]
  · have hsame : h.processFeedback fb = h := by
      simp only [processFeedback, hlt, dite_false]
    rw [hsame]
    by_cases hid : id = fb.harqId
    · rw [if_pos hid, getProcess, hid, Vector.getElem?_eq_none (not_lt.mp hlt), Option.map_none]
    · rw [if_neg hid]

theorem getProcess_mem {id : HarqId} {p : HarqProcess} (hp : h.getProcess id = some p) :
    p ∈ h.processes.toList := by
  rw [getProcess, Vector.getElem?_eq_some_iff] at hp
  obtain ⟨hlt, rfl⟩ := hp
  exact Vector.mem_toList_iff.mpr (Vector.getElem_mem hlt)

theorem mem_processes_iff {p : HarqProcess} :
    p ∈ h.processes.toList ↔ ∃ id, h.getProcess id = some p := by
  constructor
  · intro hp
    obtain ⟨id, hlt, rfl⟩ := Vector.mem_iff_getElem.mp (Vector.mem_toList_iff.mp hp)
    exact ⟨id, Vector.getElem?_eq_getElem hlt⟩
  · rintro ⟨id, hid⟩
    exact getProcess_mem hid

end HarqEntity

end NrScheduler
