import NrScheduler.Lib.Runs
import NrScheduler.Services.OrchestratorSpec

/-!
# References between the maps of the slice orchestrator

Configurations and states belong to the same slices, and neither a budget nor a user
refers to a slice that is not configured.  Some operations write through `operator[]`,
which would create an absent state; the references keep that from happening.
-/

namespace NrScheduler

open LockMonad

variable {D : Type}

namespace SliceOrchestrator

/-- All references between the maps lead to configured slices. -/
structure Linked (o : SliceOrchestrator D) : Prop where
  states : ∀ id, id ∈ o.sliceConfigs ↔ id ∈ o.sliceStates
  budgets : ∀ id, id ∈ o.currentBudgets → id ∈ o.sliceConfigs
  users : ∀ rnti id, o.ueSliceMap.lookup rnti = some id → id ∈ o.sliceConfigs

variable [Double D]

theorem linked_create : (create : SliceOrchestrator D).Linked where
  states id := by simp [create]
  budgets id h := by simp [create] at h
  users rnti id h := by simp [create] at h

omit [Double D] in
/-- The state of a slice with users exists, so writing it through `operator[]` adds none. -/
theorem Linked.mem_insert_state {o : SliceOrchestrator D} (h : o.Linked) {sliceId : SliceId}
    (hmem : sliceId ∈ o.sliceConfigs) (state : SliceState D) (id : SliceId) :
    id ∈ o.sliceConfigs ↔ id ∈ o.sliceStates.insert sliceId state := by
  rw [AList.mem_insert, ← h.states]
  constructor
  · exact Or.inr
  · rintro (rfl | hid)
    · exact hmem
    · exact hid

theorem Linked.effect {o o' : SliceOrchestrator D} {P : Platform} {op : Operation D}
    (h : o.Linked) (heffect : o.Effect P op o') : o'.Linked := by
  cases heffect with
  | created hnew =>
      refine ⟨fun id ↦ by simp [h.states], fun id hid ↦ ?_, fun rnti id hid ↦ ?_⟩
      · exact (AList.mem_insert _).mpr (Or.inr (h.budgets id hid))
      · exact (AList.mem_insert _).mpr (Or.inr (h.users rnti id hid))
  | updated => exact ⟨by simpa using h.states, by simpa using h.budgets, by simpa using h.users⟩
  | @deleted sliceId hunused =>
      refine ⟨fun id ↦ by simp [h.states], fun id hid ↦ ?_, fun rnti id hid ↦ ?_⟩
      · rw [AList.mem_erase] at hid
        exact AList.mem_erase.mpr ⟨hid.1, h.budgets id hid.2⟩
      · have hne : id ≠ sliceId := fun heq ↦ hunused rnti (heq ▸ hid)
        exact AList.mem_erase.mpr ⟨hne, h.users rnti id hid⟩
  | @associated rnti sliceId _ hmem =>
      refine ⟨h.mem_insert_state hmem _, h.budgets, fun rnti' id hid ↦ ?_⟩
      by_cases heq : rnti' = rnti
      · subst heq
        rw [AList.lookup_insert] at hid
        exact Option.some.inj hid ▸ hmem
      · rw [AList.lookup_insert_ne heq] at hid
        exact h.users rnti' id hid
  | @disassociated rnti sliceId _ hlookup =>
      refine ⟨h.mem_insert_state (h.users rnti sliceId hlookup) _, h.budgets,
        fun rnti' id hid ↦ ?_⟩
      by_cases heq : rnti' = rnti
      · subst heq
        simp at hid
      · rw [AList.lookup_erase_ne heq] at hid
        exact h.users rnti' id hid
  | @budgeted cell =>
      obtain ⟨budgets, poolDl, poolUl, hframe, hmem⟩ := o.budgeted_frame P cell
      rw [hframe]
      exact ⟨h.states, fun id hid ↦ (hmem id).mp hid, h.users⟩
  | granted => exact h
  | @borrowed sliceId _ isDl config toBorrow others =>
      obtain ⟨budgets, stats, hloop, hmem⟩ :=
        @borrowLoop_frame _ sliceId config toBorrow isDl others 0 o
      rw [hloop]
      exact ⟨h.states, fun id hid ↦ h.budgets id ((hmem id).mp hid), h.users⟩
  | returned => exact ⟨h.states, by simpa using h.budgets, h.users⟩
  | reported => exact ⟨by simpa using h.states, by simpa using h.budgets, h.users⟩
  | slotStarted => exact ⟨by simpa using h.states, h.budgets, h.users⟩
  | slotEnded => exact ⟨h.states, h.budgets, h.users⟩

theorem Linked.next {o : SliceOrchestrator D} (h : o.Linked) (i : Platform × Operation D) :
    ∃ o', o.next i = some o' ∧ o'.Linked := by
  obtain ⟨o', hnext, ⟨_, hsame⟩ | ⟨_, heffect⟩⟩ := o.next_spec i.1 i.2
  · exact ⟨o', hnext, hsame ▸ h⟩
  · exact ⟨o', hnext, h.effect heffect⟩

omit [Double D] in
/-- A slice with users is not deleted, and every other one is. -/
theorem deleteSlice_run (o : SliceOrchestrator D) (sliceId : SliceId) :
    ∃ deleted o', (o.deleteSlice sliceId).run none = .ok (deleted, o') ∧
      (deleted = false ↔ ∃ rnti, o.ueSliceMap.lookup rnti = some sliceId) ∧
      (deleted = false → o' = o) := by
  rw [deleteSlice, withLock_run_none, ← any_ueSliceMap_iff]
  split
  · rename_i h
    exact ⟨false, o, rfl, by simp [h], fun _ ↦ rfl⟩
  · rename_i h
    exact ⟨true, _, rfl, by simp [h], by simp⟩

/-- Every sequence of operations runs to its end and keeps the references, and a slice is
refused its deletion, which then changes nothing, exactly while it has users. -/
theorem references_linked (is : List (Platform × Operation D)) :
    ∃ o, is.foldlM next create = some o ∧ o.Linked ∧
      ∀ sliceId, ∃ deleted o', (o.deleteSlice sliceId).run none = .ok (deleted, o') ∧
        (deleted = false ↔ ∃ rnti, o.ueSliceMap.lookup rnti = some sliceId) ∧
        (deleted = false → o' = o) := by
  obtain ⟨o, hrun, hlinked⟩ :=
    Runs.exists_foldlM_of_progress Linked (fun _ i h ↦ h.next i) linked_create is
  exact ⟨o, hrun, hlinked, o.deleteSlice_run⟩

end SliceOrchestrator

end NrScheduler
