import NrScheduler.Engine.Transmissions

/-!
# The owners of pending feedback

Each entry of the tracker should refer to the live context it was registered for.  The
operations that end the life of a context leave the tracker alone, so this holds exactly
in the runs where they find no entry for the context.
-/

namespace NrScheduler

open Runs

theorem Event.isQuiet_of_replaces {π : Type} {ev : Event π} {c : CellId} {r : Rnti}
    (h : ev.replaces c r = true) : ev.isQuiet = true := by
  cases ev with
  | slotIndication _ _ | harqFeedback _ _ => cases h
  | _ => rfl

namespace SchedulerEngine

variable {π D : Type}

/-- The entry refers to the live context it was registered for. -/
def OwnerLive (e : SchedulerEngine π D) (pending : PendingFeedback) : Prop :=
  (e.ueAt pending.cellId pending.rnti).map UeContext.ptr = some pending.owner

instance (e : SchedulerEngine π D) (pending : PendingFeedback) : Decidable (e.OwnerLive pending) :=
  inferInstanceAs (Decidable (_ = _))

/-- After the event every entry has its owner, and a feedback was applied to the owner of
the entry that received it. -/
def KeepsOwners (e : SchedulerEngine π D) (i : Platform × Event π) (e' : SchedulerEngine π D) :
    Prop :=
  (∀ pending ∈ e'.harqTracker.entries, e'.OwnerLive pending) ∧
  match i.2 with
  | .harqFeedback cellId fb => ∀ pending ∈ e.recipient cellId fb,
      pending.cellId = cellId ∧ e.OwnerLive pending
  | _ => True

instance (e : SchedulerEngine π D) (i : Platform × Event π) (e' : SchedulerEngine π D) :
    Decidable (e.KeepsOwners i e') := by
  obtain ⟨P, ev⟩ := i
  refine Event.quietCases (motive := fun ev ↦ Decidable (e.KeepsOwners (P, ev) e')) ?_ ?_ ?_ ev
  · intro cellId t
    dsimp only [KeepsOwners]
    infer_instance
  · intro cellId fb
    dsimp only [KeepsOwners]
    infer_instance
  · intro ev hquiet
    refine decidable_of_iff (∀ pending ∈ e'.harqTracker.entries, e'.OwnerLive pending) ?_
    cases ev <;> first | exact (and_true _).to_iff.symm | cases hquiet

/-- The event replaces no context that an entry waits for. -/
def SparesOwners (e : SchedulerEngine π D) (i : Platform × Event π) (_ : SchedulerEngine π D) :
    Prop :=
  ∀ pending ∈ e.harqTracker.entries, i.2.replaces pending.cellId pending.rnti = false

theorem mem_recipient {e : SchedulerEngine π D} {cellId : CellId} {fb : HarqFeedback}
    {pending : PendingFeedback} (h : pending ∈ e.recipient cellId fb) :
    pending ∈ e.harqTracker.entries ∧ pending.cellId = cellId := by
  have haccept := List.find?_some h
  simp only [accepts, Bool.and_eq_true, beq_iff_eq] at haccept
  exact ⟨HarqTimingTracker.mem_entries.mpr ⟨_, List.mem_of_find?_eq_some h⟩, haccept.1.1⟩

variable [Double D] [IPolicyManager π D]

theorem OwnerLive.next {e e' : SchedulerEngine π D} {i : Platform × Event π}
    {pending : PendingFeedback} (hlive : e.OwnerLive pending) (h : e.next i = some e')
    (hspares : i.2.replaces pending.cellId pending.rnti = false) : e'.OwnerLive pending := by
  have hkept := (handle_users (next_eq_some.mp h)).kept _ _ hspares
  obtain ⟨ue, hue, hptr⟩ := Option.map_eq_some_iff.mp hlive
  rw [hue] at hkept
  rw [OwnerLive]
  cases hue' : e'.ueAt pending.cellId pending.rnti with
  | none =>
      rw [hue'] at hkept
      cases hkept
  | some ue' =>
      rw [hue'] at hkept
      cases hkept with
      | some hevolves => rw [Option.map_some, hevolves.ptr, hptr]

omit [IPolicyManager π D] in
theorem ownerLive_of_slot {e e' : SchedulerEngine π D} {P : Platform} {cellId : CellId}
    {t : FrameTiming} {cell : CellContext} {slot : SlotContext} {dl ul : List TtiRequest}
    (hinv : e.Consistent) (houtcome : e.SlotOutcome P cellId t cell slot dl ul e')
    {r : TtiRequest} (hr : r ∈ dl ++ ul) {pdu : TtiPdu} (hpdu : pdu ∈ r.pdus) (index : ℕ) :
    e'.OwnerLive (pendingOf r.cellId r.isDownlink r.timing index pdu) := by
  obtain ⟨ue, d, start, width, _, hue, _, heq, _⟩ := houtcome.contends hr hpdu
  have howner : pdu.owner = ue.ptr := by
    rw [heq]
    rfl
  change (e'.ueAt r.cellId pdu.rnti).map UeContext.ptr = some pdu.owner
  rw [houtcome.ueAt_eq, houtcome.request_cellId hinv hr, hue, Option.map_some, howner]

/-- A context that is replaced while an entry waits for it leaves the entry behind. -/
theorem not_ownerLive_of_replaces {e e' : SchedulerEngine π D} {i : Platform × Event π}
    {pending : PendingFeedback} (hinv : e.Consistent) (hlive : e.OwnerLive pending)
    (h : e.next i = some e') (hreplaces : i.2.replaces pending.cellId pending.rnti = true) :
    ¬ e'.OwnerLive pending := by
  intro hlive'
  obtain ⟨ue, hue, hptr⟩ := Option.map_eq_some_iff.mp hlive
  obtain ⟨ue', hue', hptr'⟩ := Option.map_eq_some_iff.mp hlive'
  obtain ⟨request, _, hconfigured, _⟩ :=
    (handle_users (next_eq_some.mp h)).replaced _ _ ue' hreplaces hue'
  have hlt := (hinv.ptr _ _ ue hue).2
  rw [hptr, ← hptr', hconfigured.ptr] at hlt
  exact lt_irrefl _ hlt

/-- In every run, the entries have live owners throughout exactly if no event replaces a
context that an entry waits for. -/
theorem always_keepsOwners_iff (config : SchedulerConfig) (is : List (Platform × Event π)) :
    Always next KeepsOwners (create config : SchedulerEngine π D) is ↔
      Always next SparesOwners (create config : SchedulerEngine π D) is := by
  refine always_iff (fun e ↦ e.Consistent ∧ ∀ pending ∈ e.harqTracker.entries,
    e.OwnerLive pending) ?_ ⟨consistent_create config, fun _ h ↦ by cases h⟩ is
  rintro e i e' ⟨hinv, hlive⟩ h
  refine ⟨⟨?_, ?_⟩, fun hkeeps ↦ ⟨hinv.step h, hkeeps.1⟩⟩
  · intro hkeeps pending hpending
    by_contra hne
    have hreplaces := Bool.eq_true_of_not_eq_false hne
    have hquiet := handle_quiet (next_eq_some.mp h) (Event.isQuiet_of_replaces hreplaces)
    rw [← hquiet.1] at hpending
    have hbefore := hlive pending (hquiet.1 ▸ hpending)
    exact not_ownerLive_of_replaces hinv hbefore h hreplaces (hkeeps.1 pending hpending)
  · intro hspares
    constructor
    · intro pending hpending
      obtain ⟨s, hs⟩ := HarqTimingTracker.mem_entries.mp hpending
      rcases mem_entriesAt_next h hs with
        hold | ⟨_, _, _, _, _, _, _, houtcome, r, hr, _, pdu, hpdu, k, _, rfl⟩
      · have hmem := HarqTimingTracker.mem_entries.mpr ⟨s, hold⟩
        exact (hlive pending hmem).next h (hspares pending hmem)
      · exact ownerLive_of_slot hinv houtcome hr hpdu k
    · cases hev : i.2 with
      | harqFeedback cellId fb =>
          intro pending hpending
          obtain ⟨hmem, hcell⟩ := mem_recipient hpending
          exact ⟨hcell, hlive pending hmem⟩
      | _ => trivial

/-- A user is released while feedback for it is pending; the next user with its RNTI gets
that feedback. -/
theorem not_always_keepsOwners :
    ¬ Always next KeepsOwners
      (create { strategy := .roundRobin, enableQos := false } : RationalEngine)
      [(.plain, .addCell (.fdd 1 4) .cleared), (.plain, .ueConfig { rnti := 7, cellId := 1 }),
        (.plain, .dlData ⟨7, 1, 0, 1⟩), (.plain, .slotIndication 1 {}),
        (.plain, .ueRelease ⟨7, 1⟩), (.plain, .ueConfig { rnti := 7, cellId := 1 }),
        (.plain, .harqFeedback 1 { harqId := 0, ack := true, feedbackTime := { slot := 4 } })] := by
  decide +kernel

end SchedulerEngine

end NrScheduler
