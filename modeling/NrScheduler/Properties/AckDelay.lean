import NrScheduler.Properties.FeedbackOwners

/-!
# The configured delay of acknowledgements

A downlink transmission is filed under the slot four slots later, whatever the configured
delay is.  A feedback that arrives after the configured delay is therefore looked up in the
slot of the transmission's entry only if the two delays are the same.
-/

namespace NrScheduler

open Runs

/-- A downlink transmission of the slot that began at `timing`, and the configured number
of slots after which its acknowledgement is to arrive. -/
structure AwaitedAck where
  pending : PendingFeedback
  timing : FrameTiming
  delay : ℕ

namespace SchedulerEngine

variable {π D : Type}

/-- The acknowledgements that the requests of a slot wait for; the delay has eight bits. -/
def awaitedAcks (config : SchedulerConfig) (t : FrameTiming) (index : ℕ)
    (reqs : List TtiRequest) : List AwaitedAck :=
  ((pendingsOf index reqs).filter PendingFeedback.isDownlink).map fun pending ↦
    ⟨pending, t, config.harqAckOffsetSlots % 2 ^ 8⟩

def observeAcks (e : SchedulerEngine π D) (i : Platform × Event π) (e' : SchedulerEngine π D)
    (acks : List AwaitedAck) : List AwaitedAck :=
  match i.2 with
  | .slotIndication _ t => acks ++ awaitedAcks e.config t e.sent.length (e.emitted e')
  | _ => acks

/-- The feedback is for the process of the transmission and arrives after the configured
delay, and no other pending entry of the cell has the same slot and process. -/
structure Meets (e : SchedulerEngine π D) (cellId : CellId) (fb : HarqFeedback)
    (w : AwaitedAck) : Prop where
  valid : w.timing.Valid
  cellId_eq : w.pending.cellId = cellId
  harqId_eq : w.pending.harqId = fb.harqId
  feedbackTime : fb.feedbackTime = w.timing.plus w.delay
  sole : ∀ other ∈ e.harqTracker.entriesWith w.pending, other.cellId = cellId →
    other.harqId = fb.harqId → other = w.pending

instance (e : SchedulerEngine π D) (cellId : CellId) (fb : HarqFeedback) (w : AwaitedAck) :
    Decidable (e.Meets cellId fb w) :=
  decidable_of_iff (w.timing.Valid ∧ w.pending.cellId = cellId ∧
      w.pending.harqId = fb.harqId ∧ fb.feedbackTime = w.timing.plus w.delay ∧
      ∀ other ∈ e.harqTracker.entriesWith w.pending, other.cellId = cellId →
        other.harqId = fb.harqId → other = w.pending)
    ⟨fun h ↦ ⟨h.1, h.2.1, h.2.2.1, h.2.2.2.1, h.2.2.2.2⟩,
      fun h ↦ ⟨h.valid, h.cellId_eq, h.harqId_eq, h.feedbackTime, h.sole⟩⟩

/-- The feedback reaches the process of the context that the transmission was built for, and
is not counted as a timeout. -/
structure Matched (e : SchedulerEngine π D) (cellId : CellId) (fb : HarqFeedback)
    (w : AwaitedAck) (e' : SchedulerEngine π D) : Prop where
  recipient : e.recipient cellId fb = some w.pending
  process : ∃ ue, e.ueAt cellId w.pending.rnti = some ue ∧ ue.ptr = w.pending.owner ∧
    e'.ueAt cellId w.pending.rnti = some (ue.processHarqFeedback true fb)
  timeouts : e'.stats.harqTimeouts = e.stats.harqTimeouts

def HonoursDelay (s : SchedulerEngine π D × List AwaitedAck) (i : Platform × Event π)
    (s' : SchedulerEngine π D × List AwaitedAck) : Prop :=
  match i.2 with
  | .harqFeedback cellId fb => ∀ w ∈ s.2, s.1.Meets cellId fb w → s.1.Matched cellId fb w s'.1
  | _ => True

/-- The delay configured for a transmission was four slots, and at its feedback the entry is
still in the tracker and the context in the cell. -/
def DelayFixed (s : SchedulerEngine π D × List AwaitedAck) (i : Platform × Event π)
    (_ : SchedulerEngine π D × List AwaitedAck) : Prop :=
  match i.2 with
  | .harqFeedback cellId fb => ∀ w ∈ s.2, s.1.Meets cellId fb w →
      w.delay = feedbackOffset true ∧ w.pending ∈ s.1.harqTracker.entries ∧
        s.1.OwnerLive w.pending
  | _ => True

theorem mem_awaitedAcks {config : SchedulerConfig} {t : FrameTiming} {index : ℕ}
    {reqs : List TtiRequest} {w : AwaitedAck} (h : w ∈ awaitedAcks config t index reqs) :
    w.pending ∈ pendingsOf index reqs ∧ w.pending.isDownlink = true ∧ w.timing = t ∧
      w.delay < 2 ^ 8 := by
  obtain ⟨pending, hpending, rfl⟩ := List.mem_map.mp h
  obtain ⟨hmem, hdir⟩ := List.mem_filter.mp hpending
  exact ⟨hmem, hdir, rfl, Nat.mod_lt _ (Nat.two_pow_pos 8)⟩

/-! ## Where the entries are -/

/-- The entry of the transmission is nowhere but in the slot four slots later. -/
structure Filed (e : SchedulerEngine π D) (w : AwaitedAck) : Prop where
  isDownlink : w.pending.isDownlink = true
  delay_lt : w.delay < 2 ^ 8
  request_lt : w.pending.request < e.sent.length
  slot_eq : ∀ slot, w.pending ∈ e.harqTracker.entriesAt slot →
    slot = (w.timing.plus (feedbackOffset true)).absoluteSlot

/-! ## Matching -/

section Feedback

variable {e e' : SchedulerEngine π D} {cellId : CellId} {fb : HarqFeedback} {w : AwaitedAck}

theorem Matched.delay_eq (hmatched : e.Matched cellId fb w e') (hw : e.Filed w)
    (hmeets : e.Meets cellId fb w) :
    w.delay = feedbackOffset true ∧ w.pending ∈ e.harqTracker.entries ∧ e.OwnerLive w.pending := by
  have hmem := List.mem_of_find?_eq_some hmatched.recipient
  refine ⟨?_, HarqTimingTracker.mem_entries.mpr ⟨_, hmem⟩, ?_⟩
  · have hslot := hw.slot_eq _ hmem
    rw [hmeets.feedbackTime] at hslot
    exact (hmeets.valid.absoluteSlot_plus_inj hw.delay_lt (by decide)).mp hslot
  · obtain ⟨ue, hue, hptr, _⟩ := hmatched.process
    rw [OwnerLive, hmeets.cellId_eq, hue, Option.map_some, hptr]

/-- With a delay of four slots the entry is the only one that accepts the feedback. -/
theorem recipient_of_meets (hmeets : e.Meets cellId fb w) (hw : e.Filed w)
    (hdelay : w.delay = feedbackOffset true) (hpending : w.pending ∈ e.harqTracker.entries)
    (hlive : e.OwnerLive w.pending) : e.recipient cellId fb = some w.pending := by
  obtain ⟨slot, hslot⟩ := HarqTimingTracker.mem_entries.mp hpending
  obtain rfl := hw.slot_eq slot hslot
  rw [← hdelay, ← hmeets.feedbackTime] at hslot
  have haccepts : e.accepts cellId fb w.pending = true := by
    obtain ⟨ue, hue, _⟩ := Option.map_eq_some_iff.mp hlive
    rw [hmeets.cellId_eq] at hue
    simp [accepts, hmeets.cellId_eq, hmeets.harqId_eq, hue]
  cases hrecipient : e.recipient cellId fb with
  | none => exact absurd haccepts (List.find?_eq_none.mp hrecipient _ hslot)
  | some other =>
      obtain ⟨⟨hcell, hharq⟩, _⟩ := accepts_of_recipient hrecipient
      have hshared := HarqTimingTracker.mem_entriesWith.mpr
        ⟨_, hslot, List.mem_of_find?_eq_some hrecipient⟩
      rw [hmeets.sole other hshared hcell hharq]

theorem matched_of_recipient (hrun : (e.onHarqFeedback cellId fb).run none = .ok e')
    (hmeets : e.Meets cellId fb w) (hw : e.Filed w) (hlive : e.OwnerLive w.pending)
    (hrecipient : e.recipient cellId fb = some w.pending) : e.Matched cellId fb w e' := by
  have houtcome := onHarqFeedback_ok hrun
  rw [onHarqFeedback_run, hrecipient] at hrun
  rw [FeedbackOutcome, hrecipient] at houtcome
  obtain ⟨ue, hue, hptr⟩ := Option.map_eq_some_iff.mp hlive
  rw [hmeets.cellId_eq] at hue
  refine ⟨hrecipient, ⟨ue, hue, hptr, ?_⟩, ?_⟩
  · rw [houtcome.1.ueAt, if_pos ⟨rfl, rfl⟩, hue, hw.isDownlink, Option.map_some]
  · obtain rfl := Except.ok.inj hrun
    obtain ⟨_, cell, _, hlookup, _⟩ := accepts_of_recipient hrecipient
    simp only [receive, hlookup]
    split
    · rfl
    · rw [Statistics.countRetransmission]
      split <;> rfl

end Feedback

/-! ## Runs -/

def AcksFiled (s : SchedulerEngine π D × List AwaitedAck) : Prop :=
  Distinct s.1.harqTracker s.1.sent.length ∧ ∀ w ∈ s.2, s.1.Filed w

variable [Double D]

theorem SlotOutcome.filed {e e' : SchedulerEngine π D} {P : Platform} {cellId : CellId}
    {t : FrameTiming} {cell : CellContext} {slot : SlotContext} {dl ul : List TtiRequest}
    (h : e.SlotOutcome P cellId t cell slot dl ul e')
    (hdistinct : Distinct e.harqTracker e.sent.length) {w : AwaitedAck}
    (hw : w ∈ awaitedAcks e.config t e.sent.length (dl ++ ul)) : e'.Filed w := by
  obtain ⟨hpending, hdir, rfl, hdelay⟩ := mem_awaitedAcks hw
  refine ⟨hdir, hdelay, ?_, ?_⟩
  · rw [h.sent, List.length_append]
    exact request_lt_of_mem_pendingsOf hpending
  · intro s hs
    rw [h.tracker] at hs
    rcases mem_entriesAt_registerRequests hs with hold | ⟨r, hr, rfl, _, _, _, _, heq⟩
    · -- entries from before belong to earlier requests
      have hlt := hdistinct.request_lt s _ hold
      obtain ⟨_, _, _, _, k, hk, heq⟩ := mem_pendingsOf hpending
      have hrequest : w.pending.request = k := congrArg PendingFeedback.request heq
      omega
    · have hr_dir : r.isDownlink = true := by
        rw [← hdir, heq]
        rfl
      rw [TtiRequest.expectedSlot, (h.sends hr).timing, hr_dir]
      rfl

variable [IPolicyManager π D]

theorem Filed.next {e e' : SchedulerEngine π D} {i : Platform × Event π} {w : AwaitedAck}
    (hw : e.Filed w) (h : e.next i = some e') : e'.Filed w where
  isDownlink := hw.isDownlink
  delay_lt := hw.delay_lt
  request_lt := hw.request_lt.trans_le (length_sent_le h)
  slot_eq slot hslot := by
    rcases mem_entriesAt_next h hslot with
      hold | ⟨_, _, _, _, _, _, _, _, _, _, _, _, _, k, hk, heq⟩
    · exact hw.slot_eq slot hold
    · -- new entries belong to later requests
      have hlt := hw.request_lt
      have hrequest : w.pending.request = k := congrArg PendingFeedback.request heq
      omega

theorem AcksFiled.step {s s' : SchedulerEngine π D × List AwaitedAck} {i : Platform × Event π}
    (hs : AcksFiled s) (h : monitored next observeAcks s i = some s') : AcksFiled s' := by
  obtain ⟨hnext, hobserve⟩ := monitored_eq_some.mp h
  refine ⟨hs.1.step hnext, ?_⟩
  have hold : ∀ w ∈ s.2, s'.1.Filed w := fun w hw ↦ (hs.2 w hw).next hnext
  rw [hobserve, observeAcks]
  cases hev : i.2 with
  | slotIndication cellId t =>
      intro w hw
      rcases List.mem_append.mp hw with hw | hw
      · exact hold w hw
      · rcases sent_cases hnext with hsent | ⟨_, _, _, _, _, _, hev', houtcome⟩
        · rw [emitted_eq_nil hsent] at hw
          cases hw
        · cases hev.symm.trans hev'
          rw [houtcome.emitted_eq] at hw
          exact houtcome.filed hs.1 hw
  | _ => exact hold

/-- In every run, a feedback that arrives the configured number of slots after a downlink
transmission is matched to its process, if no other entry shares slot and process, exactly
where the configured number is four and the entry and the context are still there. -/
theorem honoursDelay_iff (config : SchedulerConfig) (is : List (Platform × Event π)) :
    Always (monitored next observeAcks) HonoursDelay
        ((create config : SchedulerEngine π D), []) is ↔
      Always (monitored next observeAcks) DelayFixed
        ((create config : SchedulerEngine π D), []) is := by
  refine always_iff AcksFiled ?_ ⟨distinct_create config, fun _ h ↦ by cases h⟩ is
  intro s i s' hs h
  refine ⟨?_, fun _ ↦ hs.step h⟩
  obtain ⟨hnext, _⟩ := monitored_eq_some.mp h
  have hrun := next_eq_some.mp hnext
  rw [HonoursDelay, DelayFixed]
  cases hev : i.2 with
  | harqFeedback cellId fb =>
      rw [hev] at hrun
      refine forall₂_congr fun w hw ↦ forall_congr' fun hmeets ↦ ⟨?_, ?_⟩
      · exact fun hmatched ↦ hmatched.delay_eq (hs.2 w hw) hmeets
      · rintro ⟨hdelay, hpending, hlive⟩
        exact matched_of_recipient hrun hmeets (hs.2 w hw) hlive
          (recipient_of_meets hmeets (hs.2 w hw) hdelay hpending hlive)
  | _ => exact Iff.rfl

end SchedulerEngine

/-! ## A delay of five slots -/

namespace RationalEngine

open SchedulerEngine

/-- One user with downlink data in the only cell, with a delay of `delay` slots configured,
and the acknowledgement of its transmission that many slots later. -/
def acknowledgedRun (delay : ℕ) : List (Platform × Event (BuiltinPolicy ℚ)) :=
  [(.plain, .addCell (.fdd 1 4) .cleared), (.plain, .ueConfig { rnti := 7, cellId := 1 }),
    (.plain, .dlData ⟨7, 1, 0, 1⟩), (.plain, .slotIndication 1 {}),
    (.plain, .harqFeedback 1 { harqId := 0, ack := true, feedbackTime := { slot := delay } })]

/-- Whether no timeout is counted at a feedback that meets a transmission. -/
def KeepsTimeouts (s : RationalEngine × List AwaitedAck)
    (i : Platform × Event (BuiltinPolicy ℚ)) (s' : RationalEngine × List AwaitedAck) : Prop :=
  match i.2 with
  | .harqFeedback cellId fb => ∀ w ∈ s.2, s.1.Meets cellId fb w →
      s'.1.stats.harqTimeouts = s.1.stats.harqTimeouts
  | _ => True

instance (s : RationalEngine × List AwaitedAck) (i : Platform × Event (BuiltinPolicy ℚ))
    (s' : RationalEngine × List AwaitedAck) : Decidable (KeepsTimeouts s i s') := by
  obtain ⟨P, ev⟩ := i
  refine Event.quietCases (motive := fun ev ↦ Decidable (KeepsTimeouts s (P, ev) s')) ?_ ?_ ?_ ev
  · exact fun _ _ ↦ isTrue trivial
  · intro cellId fb
    dsimp only [KeepsTimeouts]
    infer_instance
  · exact fun ev hquiet ↦ isTrue (by cases ev <;> trivial)

theorem keepsTimeouts_of_honoursDelay {s : RationalEngine × List AwaitedAck}
    {is : List (Platform × Event (BuiltinPolicy ℚ))}
    (h : Always (monitored next observeAcks) HonoursDelay s is) :
    Always (monitored next observeAcks) KeepsTimeouts s is := by
  refine h.imp (fun _ ↦ True) ?_ trivial
  intro s i s' _ _ hhonours
  refine ⟨trivial, ?_⟩
  rw [HonoursDelay] at hhonours
  rw [KeepsTimeouts]
  cases hev : i.2 with
  | harqFeedback cellId fb =>
      rw [hev] at hhonours
      exact fun w hw hmeets ↦ (hhonours w hw hmeets).timeouts
  | _ => trivial

/-- The acknowledgement of the transmission of slot 0 arrives in slot 5 as configured, and is
counted as a timeout. -/
theorem not_honoursDelay :
    ¬ Always (monitored next observeAcks) HonoursDelay
      ((create { harqAckOffsetSlots := 5 } : RationalEngine), []) (acknowledgedRun 5) := by
  intro h
  have htimeouts := keepsTimeouts_of_honoursDelay h
  revert htimeouts
  decide +kernel

end RationalEngine

end NrScheduler
