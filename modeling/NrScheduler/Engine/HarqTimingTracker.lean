import NrScheduler.Core.Types
import NrScheduler.Lib.SortedMap

/-!
# HARQ timing tracker

Pending HARQ transmissions by the absolute slot in which their feedback is expected.
-/

namespace NrScheduler

open LockMonad

structure PendingFeedback where
  cellId : CellId
  rnti : Rnti
  harqId : HarqId
  isDownlink : Bool
  txSlot : ℕ
  /-- Ghost: the user context the transmission was built for. -/
  owner : UePtr
  /-- Ghost: the position, among all requests sent, of the one that carried it. -/
  request : ℕ
  deriving DecidableEq, Repr

structure HarqTimingTracker where
  pending : SortedMap ℕ (List PendingFeedback) := .empty

/-- Erasing the first match erases an element that matches exactly if it is the first. -/
theorem eraseP_eq_erase_iff {α : Type} [DecidableEq α] {p : α → Bool} {a : α} {l : List α}
    (ha : a ∈ l) (hp : p a = true) : l.eraseP p = l.erase a ↔ l.find? p = some a := by
  induction l with
  | nil => cases ha
  | cons b l ih =>
      by_cases hb : b = a
      · subst hb
        rw [List.eraseP_cons_of_pos hp, List.erase_cons_head, List.find?_cons_of_pos hp]
        exact ⟨fun _ ↦ rfl, fun _ ↦ rfl⟩
      · have hmem : a ∈ l := (List.mem_cons.mp ha).resolve_left fun h ↦ hb h.symm
        rw [List.erase_cons_tail (by simpa using hb)]
        by_cases hpb : p b = true
        · rw [List.eraseP_cons_of_pos hpb, List.find?_cons_of_pos hpb]
          constructor
          · intro h
            have hcount := congrArg (List.count b) h
            rw [List.count_cons_self, List.count_erase_of_ne hb] at hcount
            omega
          · intro h
            exact absurd (Option.some.inj h) hb
        · rw [List.eraseP_cons_of_neg hpb, List.find?_cons_of_neg hpb, List.cons.injEq, ← ih hmem]
          exact ⟨fun h ↦ h.2, fun h ↦ ⟨rfl, h⟩⟩

namespace HarqTimingTracker

def entriesAt (t : HarqTimingTracker) (slot : ℕ) : List PendingFeedback :=
  (t.pending.find? slot).getD []

def entries (t : HarqTimingTracker) : List PendingFeedback := t.pending.entries.flatMap Prod.snd

/-- The entries that are filed under the slot of an entry. -/
def entriesWith (t : HarqTimingTracker) (pf : PendingFeedback) : List PendingFeedback :=
  t.pending.entries.flatMap fun stored ↦ if pf ∈ stored.2 then stored.2 else []

/-- Register an expected feedback, then drop the slots that lie more than 100 slots
before it.  Absolute slots stay below `2 ^ 27`, so the sum fits in 32 bits. -/
def register (t : HarqTimingTracker) (expectedSlot : ℕ) (info : PendingFeedback) :
    HarqTimingTracker :=
  ⟨(t.pending.upsert expectedSlot fun l ↦ l.getD [] ++ [info]).dropWhile
    fun slot ↦ decide (slot + 100 < expectedSlot)⟩

def registerPending (t : HarqTimingTracker) (expectedSlot : ℕ) (info : PendingFeedback) :
    Exec HarqTimingTracker :=
  withLock .harqTracker do return t.register expectedSlot info

/-- What a search by RNTI, and possibly by process, accepts. -/
def matchesUe (rnti : Rnti) (harqId : Option HarqId) (pf : PendingFeedback) : Bool :=
  pf.rnti == rnti && (harqId.isNone || harqId == some pf.harqId)

/-- Remove the first accepted entry of a slot; a slot left without entries goes too. -/
def remove (t : HarqTimingTracker) (slot : ℕ) (accept : PendingFeedback → Bool) :
    HarqTimingTracker :=
  match t.pending.find? slot with
  | none => t
  | some entries =>
      if entries.any accept then
        let entries' := entries.eraseP accept
        if entries' = [] then ⟨t.pending.erase slot⟩
        else ⟨t.pending.upsert slot fun _ ↦ entries'⟩
      else t

def findAndRemove (t : HarqTimingTracker) (feedbackSlot : ℕ) (rnti : Rnti)
    (harqId : Option HarqId := none) : Exec (Option PendingFeedback × HarqTimingTracker) :=
  withLock .harqTracker do
    return ((t.entriesAt feedbackSlot).find? (matchesUe rnti harqId),
      t.remove feedbackSlot (matchesUe rnti harqId))

def getAllForSlot (t : HarqTimingTracker) (feedbackSlot : ℕ) : Exec (List PendingFeedback) :=
  withLock .harqTracker do return t.entriesAt feedbackSlot

def clearForUe (t : HarqTimingTracker) (rnti : Rnti) : Exec HarqTimingTracker :=
  withLock .harqTracker do
    return ⟨t.pending.mapValues fun entries ↦ entries.filter fun pf ↦ !(pf.rnti == rnti)⟩

/-! ## The tracker as a function of the slot -/

@[simp] theorem registerPending_run (t : HarqTimingTracker) (slot : ℕ)
    (info : PendingFeedback) :
    (t.registerPending slot info).run none = .ok (t.register slot info) := rfl

@[simp] theorem getAllForSlot_run (t : HarqTimingTracker) (slot : ℕ) :
    (t.getAllForSlot slot).run none = .ok (t.entriesAt slot) := rfl

theorem exists_entriesAt {t : HarqTimingTracker} {p : List PendingFeedback → Prop}
    (hnil : ¬ p []) :
    (∃ slot, p (t.entriesAt slot)) ↔ ∃ stored ∈ t.pending.entries, p stored.2 := by
  constructor
  · rintro ⟨slot, hp⟩
    rw [entriesAt] at hp
    cases hfind : t.pending.find? slot with
    | none =>
        rw [hfind] at hp
        exact absurd hp hnil
    | some l =>
        rw [hfind] at hp
        exact ⟨(slot, l), SortedMap.find?_eq_some.mp hfind, hp⟩
  · rintro ⟨⟨slot, l⟩, hl, hp⟩
    refine ⟨slot, ?_⟩
    rw [entriesAt, SortedMap.find?_eq_some.mpr hl]
    exact hp

theorem mem_entries {t : HarqTimingTracker} {pf : PendingFeedback} :
    pf ∈ t.entries ↔ ∃ slot, pf ∈ t.entriesAt slot := by
  rw [entries, List.mem_flatMap, exists_entriesAt (p := fun l ↦ pf ∈ l) List.not_mem_nil]

theorem mem_entriesWith {t : HarqTimingTracker} {pf pf' : PendingFeedback} :
    pf' ∈ t.entriesWith pf ↔ ∃ slot, pf ∈ t.entriesAt slot ∧ pf' ∈ t.entriesAt slot := by
  rw [exists_entriesAt (p := fun l ↦ pf ∈ l ∧ pf' ∈ l) fun h ↦ List.not_mem_nil h.1]
  simp only [entriesWith, List.mem_flatMap, List.mem_ite_nil_right]

theorem entriesAt_register (t : HarqTimingTracker) (expectedSlot slot : ℕ)
    (info : PendingFeedback) :
    (t.register expectedSlot info).entriesAt slot =
      if slot + 100 < expectedSlot then []
      else if slot = expectedSlot then t.entriesAt slot ++ [info] else t.entriesAt slot := by
  have hdown : ∀ a b : ℕ, a < b → decide (b + 100 < expectedSlot) = true →
      decide (a + 100 < expectedSlot) = true := by
    intro a b hab hb
    rw [decide_eq_true_eq] at hb ⊢
    omega
  simp only [register, entriesAt, SortedMap.find?_dropWhile _ hdown, SortedMap.find?_upsert,
    decide_eq_true_eq]
  by_cases hold : slot + 100 < expectedSlot
  · rw [if_pos hold, if_pos hold]
    rfl
  · rw [if_neg hold, if_neg hold]
    by_cases hslot : slot = expectedSlot
    · rw [if_pos hslot, if_pos hslot, hslot]
      rfl
    · rw [if_neg hslot, if_neg hslot]

theorem entriesAt_remove (t : HarqTimingTracker) (slot slot' : ℕ)
    (accept : PendingFeedback → Bool) :
    (t.remove slot accept).entriesAt slot' =
      if slot' = slot then (t.entriesAt slot).eraseP accept else t.entriesAt slot' := by
  simp only [remove, entriesAt]
  cases hfind : t.pending.find? slot with
  | none =>
      by_cases hslot : slot' = slot
      · subst hslot
        simp [hfind]
      · simp [hslot]
  | some entries =>
      simp only [Option.getD_some]
      by_cases hany : entries.any accept = true
      · simp only [hany, if_true]
        by_cases hnil : entries.eraseP accept = []
        · rw [if_pos hnil, SortedMap.find?_erase, hnil]
          by_cases hslot : slot' = slot <;> simp [hslot]
        · rw [if_neg hnil, SortedMap.find?_upsert]
          by_cases hslot : slot' = slot <;> simp [hslot]
      · have hsame : entries.eraseP accept = entries := by
          apply List.eraseP_of_forall_not
          intro pf hpf hacc
          exact hany (List.any_eq_true.mpr ⟨pf, hpf, hacc⟩)
        rw [if_neg hany, hsame]
        by_cases hslot : slot' = slot
        · subst hslot
          simp [hfind]
        · simp [hslot]

theorem mem_entriesAt_of_remove {t : HarqTimingTracker} {slot slot' : ℕ}
    {accept : PendingFeedback → Bool} {pf : PendingFeedback}
    (h : pf ∈ (t.remove slot accept).entriesAt slot') : pf ∈ t.entriesAt slot' := by
  rw [entriesAt_remove] at h
  split at h
  · rename_i hslot
    exact hslot ▸ List.mem_of_mem_eraseP h
  · exact h

end HarqTimingTracker

end NrScheduler
