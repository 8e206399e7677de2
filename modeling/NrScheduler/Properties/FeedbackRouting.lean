import NrScheduler.Engine.Transmissions

/-!
# What a feedback consumes

The entry that a feedback takes out of the tracker should be the one whose process
received it.  The search for the process and the search for the entry use different keys,
and they agree exactly where no entry of another cell comes first.
-/

namespace NrScheduler

open LockMonad Runs

theorem find?_append_cons_eq {α : Type} {p q : α → Bool} {a : α} {before after : List α}
    (hp : p a = true) (hq : q a = true) (hbefore : ∀ b ∈ before, q b = false) :
    (before ++ a :: after).find? p = some a ↔ ∀ b ∈ before, p b = false := by
  rw [List.find?_append, List.find?_cons_of_pos hp]
  constructor
  · intro h
    cases hfind : before.find? p with
    | none =>
        intro b hb
        exact Bool.eq_false_of_not_eq_true (List.find?_eq_none.mp hfind b hb)
    | some b =>
        rw [hfind, Option.some_or] at h
        obtain rfl := Option.some.inj h
        have hnot := hbefore b (List.mem_of_find?_eq_some hfind)
        rw [hq] at hnot
        cases hnot
  · intro h
    have hnone : before.find? p = none := List.find?_eq_none.mpr fun b hb ↦ by
      rw [h b hb]
      exact Bool.false_ne_true
    rw [hnone, Option.none_or]

namespace SchedulerEngine

variable {π D : Type}

/-! ## One feedback -/

/-- The feedback changes the process of its recipient, which belongs to the cell and the
process of the feedback, and takes exactly the recipient out of the tracker. -/
def ConsumesRecipient (e : SchedulerEngine π D) (cellId : CellId) (fb : HarqFeedback)
    (e' : SchedulerEngine π D) : Prop :=
  match e.recipient cellId fb with
  | none => e'.ueAt = e.ueAt ∧ e'.harqTracker = e.harqTracker
  | some pending =>
      (pending.cellId = cellId ∧ pending.harqId = fb.harqId) ∧
      (∀ c r, e'.ueAt c r =
        if c = cellId ∧ r = pending.rnti then
          (e.ueAt c r).map (·.processHarqFeedback pending.isDownlink fb)
        else e.ueAt c r) ∧
      ∀ slot, e'.harqTracker.entriesAt slot =
        if slot = fb.feedbackTime.absoluteSlot then (e.harqTracker.entriesAt slot).erase pending
        else e.harqTracker.entriesAt slot

/-- No entry of another cell with the RNTI of the recipient and the process of the feedback
is listed before the recipient. -/
def Unshadowed (e : SchedulerEngine π D) (cellId : CellId) (fb : HarqFeedback) : Prop :=
  ∀ pending ∈ e.recipient cellId fb,
    ∀ other ∈ (e.harqTracker.entriesAt fb.feedbackTime.absoluteSlot).takeWhile
        (fun other ↦ !e.accepts cellId fb other),
      other.cellId ≠ cellId → ¬ (other.rnti = pending.rnti ∧ other.harqId = fb.harqId)

instance (e : SchedulerEngine π D) (cellId : CellId) (fb : HarqFeedback) :
    Decidable (e.Unshadowed cellId fb) := by
  unfold Unshadowed
  infer_instance

/-- The recipient is the first entry that its own search accepts exactly if it is not
shadowed. -/
theorem find?_matchesUe_iff {e : SchedulerEngine π D} {cellId : CellId} {fb : HarqFeedback}
    {pending : PendingFeedback} (h : e.recipient cellId fb = some pending) :
    (e.harqTracker.entriesAt fb.feedbackTime.absoluteSlot).find?
        (HarqTimingTracker.matchesUe pending.rnti (some fb.harqId)) = some pending ↔
      e.Unshadowed cellId fb := by
  obtain ⟨haccept, before, after, hlist, hbefore⟩ := List.find?_eq_some_iff_append.mp h
  have hreject : ∀ other ∈ before, e.accepts cellId fb other = false := fun other hother ↦ by
    simpa using hbefore other hother
  have hkeys := haccept
  simp only [accepts, Bool.and_eq_true, beq_iff_eq] at hkeys
  obtain ⟨⟨hcell, hharq⟩, hknown⟩ := hkeys
  have hmatches : ∀ other : PendingFeedback,
      HarqTimingTracker.matchesUe pending.rnti (some fb.harqId) other = true ↔
        other.rnti = pending.rnti ∧ other.harqId = fb.harqId := by
    intro other
    simp only [HarqTimingTracker.matchesUe, Option.isNone_some, Bool.false_or, Bool.and_eq_true,
      beq_iff_eq, Option.some.injEq]
    exact and_congr_right fun _ ↦ eq_comm
  have htake : (before ++ pending :: after).takeWhile
      (fun other ↦ !e.accepts cellId fb other) = before := by
    rw [List.takeWhile_append_of_pos hbefore, List.takeWhile_cons_of_neg (by simp [haccept]),
      List.append_nil]
  rw [Unshadowed, h, hlist, htake,
    find?_append_cons_eq ((hmatches pending).mpr ⟨rfl, hharq⟩) haccept hreject]
  constructor
  · rintro hnone pending' ⟨⟩ other hother _ hkeys
    have hmatch := (hmatches other).mpr hkeys
    rw [hnone other hother] at hmatch
    cases hmatch
  · intro hunshadowed other hother
    by_contra hmatch
    have hkeys := (hmatches other).mp (Bool.eq_true_of_not_eq_false hmatch)
    have hsame : other.cellId = cellId := by
      by_contra hne
      exact hunshadowed pending rfl other hother hne hkeys
    have haccepts : e.accepts cellId fb other = true := by
      simp only [accepts, hsame, hkeys.1, hkeys.2, hknown, beq_self_eq_true, Bool.and_self]
    rw [hreject other hother] at haccepts
    cases haccepts

theorem consumesRecipient_iff {e e' : SchedulerEngine π D} {cellId : CellId}
    {fb : HarqFeedback} (h : e.FeedbackOutcome cellId fb e') :
    e.ConsumesRecipient cellId fb e' ↔ e.Unshadowed cellId fb := by
  rw [FeedbackOutcome] at h
  rw [ConsumesRecipient]
  cases hrecipient : e.recipient cellId fb with
  | none =>
      rw [hrecipient] at h
      refine ⟨fun _ ↦ ?_, fun _ ↦ ⟨?_, h.2.2.tracker⟩⟩
      · rw [Unshadowed, hrecipient]
        rintro pending ⟨⟩
      · funext c r
        rw [ueAt, h.1]
        rfl
  | some pending =>
      rw [hrecipient] at h
      obtain ⟨hupdates, htracker, _⟩ := h
      obtain ⟨haccept, _⟩ := List.find?_eq_some_iff_append.mp hrecipient
      have hmem : pending ∈ e.harqTracker.entriesAt fb.feedbackTime.absoluteSlot :=
        List.mem_of_find?_eq_some hrecipient
      simp only [accepts, Bool.and_eq_true, beq_iff_eq] at haccept
      have hmatch : HarqTimingTracker.matchesUe pending.rnti (some fb.harqId) pending = true := by
        simp [HarqTimingTracker.matchesUe, haccept.1.2]
      rw [← find?_matchesUe_iff hrecipient, ← eraseP_eq_erase_iff hmem hmatch]
      have hentries := fun slot ↦ e.harqTracker.entriesAt_remove fb.feedbackTime.absoluteSlot slot
        (HarqTimingTracker.matchesUe pending.rnti (some fb.harqId))
      constructor
      · rintro ⟨_, _, hslots⟩
        have hslot := hslots fb.feedbackTime.absoluteSlot
        rw [htracker, consume, hentries, if_pos rfl, if_pos rfl] at hslot
        exact hslot
      · intro herase
        refine ⟨haccept.1, hupdates.ueAt, ?_⟩
        intro slot
        rw [htracker, consume, hentries]
        by_cases hslot : slot = fb.feedbackTime.absoluteSlot
        · rw [if_pos hslot, if_pos hslot, herase, hslot]
        · rw [if_neg hslot, if_neg hslot]

/-! ## Runs -/

/-- The entries whose process has received a feedback. -/
def observeConsumed (e : SchedulerEngine π D) (i : Platform × Event π)
    (_ : SchedulerEngine π D) (consumed : List PendingFeedback) : List PendingFeedback :=
  match i.2 with
  | .harqFeedback cellId fb => (e.recipient cellId fb).toList ++ consumed
  | _ => consumed

/-- A feedback consumes its recipient, which no feedback has consumed before. -/
def ConsumesOnce (s : SchedulerEngine π D × List PendingFeedback) (i : Platform × Event π)
    (s' : SchedulerEngine π D × List PendingFeedback) : Prop :=
  match i.2 with
  | .harqFeedback cellId fb =>
      s.1.ConsumesRecipient cellId fb s'.1 ∧ ∀ pending ∈ s.1.recipient cellId fb, pending ∉ s.2
  | _ => True

def RoutesFeedback (s : SchedulerEngine π D × List PendingFeedback) (i : Platform × Event π)
    (_ : SchedulerEngine π D × List PendingFeedback) : Prop :=
  match i.2 with
  | .harqFeedback cellId fb => s.1.Unshadowed cellId fb
  | _ => True

/-- Entries are told apart, and the consumed ones have left the tracker for good. -/
structure Accounted (s : SchedulerEngine π D × List PendingFeedback) : Prop where
  distinct : Distinct s.1.harqTracker s.1.sent.length
  gone : ∀ pending ∈ s.2, pending.request < s.1.sent.length ∧
    ∀ slot, pending ∉ s.1.harqTracker.entriesAt slot

/-- A feedback that consumes its recipient takes it out for good. -/
theorem Accounted.gone_feedback {s s' : SchedulerEngine π D × List PendingFeedback}
    {cellId : CellId} {fb : HarqFeedback} (hs : Accounted s)
    (houtcome : s.1.FeedbackOutcome cellId fb s'.1)
    (hconsumes : s.1.ConsumesRecipient cellId fb s'.1)
    (hobserve : s'.2 = (s.1.recipient cellId fb).toList ++ s.2) :
    ∀ pending ∈ s'.2, pending.request < s'.1.sent.length ∧
      ∀ slot, pending ∉ s'.1.harqTracker.entriesAt slot := by
  rw [FeedbackOutcome] at houtcome
  rw [ConsumesRecipient] at hconsumes
  cases hrecipient : s.1.recipient cellId fb with
  | none =>
      rw [hrecipient] at houtcome hobserve
      obtain ⟨_, _, hsame⟩ := houtcome
      rw [Option.toList_none, List.nil_append] at hobserve
      rw [hobserve, hsame.tracker, hsame.sent]
      exact hs.gone
  | some pending =>
      rw [hrecipient] at houtcome hconsumes hobserve
      obtain ⟨_, _, hsent, _⟩ := houtcome
      obtain ⟨_, _, hslots⟩ := hconsumes
      have hmem : pending ∈ s.1.harqTracker.entriesAt fb.feedbackTime.absoluteSlot :=
        List.mem_of_find?_eq_some hrecipient
      have hsub : ∀ slot other, other ∈ s'.1.harqTracker.entriesAt slot →
          other ∈ s.1.harqTracker.entriesAt slot := by
        intro slot other hother
        rw [hslots] at hother
        split at hother
        · exact List.mem_of_mem_erase hother
        · exact hother
      intro other hother
      rw [hobserve, Option.toList_some, List.singleton_append] at hother
      rw [hsent]
      rcases List.mem_cons.mp hother with rfl | hother
      · refine ⟨hs.distinct.request_lt _ _ hmem, ?_⟩
        intro slot hslot
        have hsame := hs.distinct.slot_unique _ _ _ (hsub slot _ hslot) hmem
        rw [hslots, if_pos hsame] at hslot
        exact (hs.distinct.nodup slot).not_mem_erase hslot
      · obtain ⟨hlt, hgone⟩ := hs.gone other hother
        exact ⟨hlt, fun slot hslot ↦ hgone slot (hsub slot other hslot)⟩

variable [Double D] [IPolicyManager π D]

theorem accounted_create (config : SchedulerConfig) :
    Accounted ((create config : SchedulerEngine π D), []) where
  distinct := distinct_create config
  gone _ hpending := by cases hpending

theorem Accounted.gone_slot {s s' : SchedulerEngine π D × List PendingFeedback}
    {P : Platform} {cellId : CellId} {t : FrameTiming} (hs : Accounted s)
    (h : (s.1.onSlotIndication P cellId t).run none = .ok s'.1) (hobserve : s'.2 = s.2) :
    ∀ pending ∈ s'.2, pending.request < s'.1.sent.length ∧
      ∀ slot, pending ∉ s'.1.harqTracker.entriesAt slot := by
  rcases onSlotIndication_ok h with ⟨_, heq⟩ | ⟨cell, slot, dl, ul, houtcome⟩
  · rw [hobserve, heq]
    exact hs.gone
  · intro pending hpending
    obtain ⟨hlt, hgone⟩ := hs.gone pending (hobserve ▸ hpending)
    constructor
    · rw [houtcome.sent, List.length_append]
      exact hlt.trans_le (Nat.le_add_right _ _)
    · intro slot' hslot'
      rw [houtcome.tracker] at hslot'
      rcases mem_entriesAt_registerRequests hslot' with
        hold | ⟨r, _, _, pdu, _, k, hk, rfl⟩
      · exact hgone slot' hold
      · exact absurd hlt (not_lt.mpr hk)

theorem Accounted.step {s s' : SchedulerEngine π D × List PendingFeedback}
    {i : Platform × Event π} (hs : Accounted s)
    (h : monitored next observeConsumed s i = some s') (honce : ConsumesOnce s i s') :
    Accounted s' := by
  obtain ⟨hnext, hobserve⟩ := monitored_eq_some.mp h
  have hrun := next_eq_some.mp hnext
  rw [observeConsumed] at hobserve
  rw [ConsumesOnce] at honce
  refine ⟨hs.distinct.step hnext, ?_⟩
  cases hev : i.2 with
  | slotIndication cellId t =>
      rw [hev] at hrun hobserve
      exact hs.gone_slot hrun hobserve
  | harqFeedback cellId fb =>
      rw [hev] at hrun hobserve honce
      exact hs.gone_feedback (onHarqFeedback_ok hrun) honce.1 hobserve
  | _ =>
      obtain ⟨htracker, hsent⟩ := handle_quiet hrun (by rw [hev]; rfl)
      rw [hev] at hobserve
      rw [hobserve, htracker, hsent]
      exact hs.gone

/-- Every feedback consumes exactly its recipient if and only if the recipient is not
shadowed; and along a run the transmissions are each consumed once, by feedback of their
own cell, if and only if no recipient is shadowed. -/
theorem feedback_consumes_iff :
    (∀ (e : SchedulerEngine π D) (P : Platform) (cellId : CellId) (fb : HarqFeedback),
      ∃ e', e.next (P, .harqFeedback cellId fb) = some e' ∧
        (e.ConsumesRecipient cellId fb e' ↔ e.Unshadowed cellId fb)) ∧
    ∀ (config : SchedulerConfig) (is : List (Platform × Event π)),
      Always (monitored next observeConsumed) ConsumesOnce
          ((create config : SchedulerEngine π D), []) is ↔
        Always (monitored next observeConsumed) RoutesFeedback
          ((create config : SchedulerEngine π D), []) is := by
  constructor
  · intro e P cellId fb
    have h := e.onHarqFeedback_run cellId fb
    exact ⟨_, next_eq_some.mpr h, consumesRecipient_iff (onHarqFeedback_ok h)⟩
  · intro config is
    refine always_iff Accounted ?_ (accounted_create config) is
    intro s i s' hs h
    refine ⟨?_, hs.step h⟩
    have hrun := next_eq_some.mp (monitored_eq_some.mp h).1
    rw [ConsumesOnce, RoutesFeedback]
    cases hev : i.2 with
    | harqFeedback cellId fb =>
        rw [hev] at hrun
        simp only
        rw [← consumesRecipient_iff (onHarqFeedback_ok hrun)]
        refine ⟨fun honce ↦ honce.1, fun hconsumes ↦ ⟨hconsumes, ?_⟩⟩
        intro pending hrecipient hconsumed
        exact (hs.gone pending hconsumed).2 _ (List.mem_of_find?_eq_some hrecipient)
    | _ => exact Iff.rfl

/-- Two cells that transmit for the same RNTI in the same slot. -/
def sharedRnti : RationalEngine :=
  RationalEngine.after { strategy := .roundRobin, enableQos := false }
    [.addCell (.fdd 1 4) .cleared, .addCell (.fdd 2 4) .cleared,
      .ueConfig { rnti := 7, cellId := 1 }, .ueConfig { rnti := 7, cellId := 2 },
      .dlData ⟨7, 1, 0, 1⟩, .dlData ⟨7, 2, 0, 1⟩, .slotIndication 1 {}, .slotIndication 2 {}]

def firstAck : HarqFeedback := { harqId := 0, ack := true, feedbackTime := { slot := 4 } }

/-- Feedback of the second cell takes the entry of the first out of the tracker. -/
theorem not_consumesRecipient :
    ∃ e', sharedRnti.next (.plain, .harqFeedback 2 firstAck) = some e' ∧
      ¬ sharedRnti.ConsumesRecipient 2 firstAck e' := by
  have hleft : (sharedRnti.next (.plain, .harqFeedback 2 firstAck)).map
      (fun e' ↦ (e'.harqTracker.entriesAt 4).map PendingFeedback.cellId) = some [2] := by
    decide +kernel
  have herased : (sharedRnti.recipient 2 firstAck).map (fun pending ↦
      ((sharedRnti.harqTracker.entriesAt 4).erase pending).map PendingFeedback.cellId) =
        some [1] := by
    decide +kernel
  obtain ⟨e', hnext, hcell⟩ := Option.map_eq_some_iff.mp hleft
  obtain ⟨pending, hrecipient, hrest⟩ := Option.map_eq_some_iff.mp herased
  refine ⟨e', hnext, ?_⟩
  intro hconsumes
  rw [ConsumesRecipient, hrecipient] at hconsumes
  have hslot : e'.harqTracker.entriesAt 4 = (sharedRnti.harqTracker.entriesAt 4).erase pending :=
    hconsumes.2.2 4
  rw [hslot, hrest] at hcell
  cases hcell

end SchedulerEngine

end NrScheduler
