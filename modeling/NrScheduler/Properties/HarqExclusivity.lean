import NrScheduler.Engine.Transmissions

/-!
# Exclusive use of HARQ processes

A monitor keeps the transmissions whose feedback is outstanding.  A new transmission
should not use the process of one of them, and a NACK in the slot in which it is expected
should make the process ready for a retransmission, whether or not the tracker still has
the entry.
-/

namespace NrScheduler

open Runs

namespace SchedulerEngine

variable {π D : Type}

/-! ## Outstanding transmissions -/

/-- The event ends the wait for the feedback of a transmission: the feedback is processed,
or its user leaves. -/
def settles (e : SchedulerEngine π D) (pending : PendingFeedback) : Event π → Bool
  | .harqFeedback cellId fb => e.recipient cellId fb == some pending
  | .ueRelease release => pending.cellId == release.cellId && pending.rnti == release.rnti
  | .removeCell cellId => pending.cellId == cellId
  | _ => false

/-- The outstanding transmissions after an event. -/
def observeOutstanding (e : SchedulerEngine π D) (i : Platform × Event π)
    (e' : SchedulerEngine π D) (outstanding : List PendingFeedback) : List PendingFeedback :=
  outstanding.filter (fun pending ↦ !e.settles pending i.2) ++
    pendingsOf e.sent.length (e.emitted e')

/-- No new transmission of the requests uses the process of an outstanding one. -/
def Exclusive (outstanding : List PendingFeedback) (reqs : List TtiRequest) : Prop :=
  ∀ r ∈ reqs, ∀ pdu ∈ r.pdus, pdu.type = .newTx → ∀ pending ∈ outstanding,
    ¬ (pending.cellId = r.cellId ∧ pending.rnti = pdu.rnti ∧
      pending.isDownlink = r.isDownlink ∧ pending.harqId = pdu.harqId)

instance (outstanding : List PendingFeedback) (reqs : List TtiRequest) :
    Decidable (Exclusive outstanding reqs) := by
  unfold Exclusive
  infer_instance

/-- The slot in which the feedback for a transmission is expected, by the request that
carried it. -/
def expectedSlotOf (e : SchedulerEngine π D) (pending : PendingFeedback) : Option ℕ :=
  e.sent[pending.request]?.map TtiRequest.expectedSlot

/-- The transmissions that a feedback is about: the one whose entry receives it, and those of
its cell and process that wait for their feedback in this slot. -/
def addressees (e : SchedulerEngine π D) (outstanding : List PendingFeedback) (cellId : CellId)
    (fb : HarqFeedback) : List PendingFeedback :=
  (e.recipient cellId fb).toList ++ outstanding.filter fun pending ↦
    pending.cellId == cellId && pending.harqId == fb.harqId &&
      e.expectedSlotOf pending == some fb.feedbackTime.absoluteSlot

/-- The process of a transmission in the cell is ready for a retransmission. -/
def isArmed (e : SchedulerEngine π D) (cellId : CellId) (pending : PendingFeedback) : Bool :=
  ((e.ueAt cellId pending.rnti).bind fun ue ↦
    (ue.harq pending.isDownlink).getProcess pending.harqId).any HarqProcess.canRetransmit

/-- A NACK leaves the processes of the transmissions that it is about ready for a
retransmission. -/
def nackArms (e : SchedulerEngine π D) (outstanding : List PendingFeedback) (ev : Event π)
    (e' : SchedulerEngine π D) : Bool :=
  match ev with
  | .harqFeedback cellId fb =>
      fb.ack || (e.addressees outstanding cellId fb).all fun pending ↦ e'.isArmed cellId pending
  | _ => true

/-- What one event has to keep up. -/
def KeepsProcesses (s : SchedulerEngine π D × List PendingFeedback) (i : Platform × Event π)
    (s' : SchedulerEngine π D × List PendingFeedback) : Prop :=
  Exclusive s.2 (s.1.emitted s'.1) ∧ s.1.nackArms s.2 i.2 s'.1 = true

instance (s : SchedulerEngine π D × List PendingFeedback) (i : Platform × Event π)
    (s' : SchedulerEngine π D × List PendingFeedback) : Decidable (KeepsProcesses s i s') :=
  inferInstanceAs (Decidable (_ ∧ _))

/-- No user competes in a direction in which its process zero waits for feedback, and no
NACK is about a transmission. -/
def SparesProcesses (s : SchedulerEngine π D × List PendingFeedback) (i : Platform × Event π)
    (_ : SchedulerEngine π D × List PendingFeedback) : Prop :=
  match i.2 with
  | .slotIndication cellId t =>
      ∀ pending ∈ s.2, pending.cellId = cellId → pending.harqId = 0 →
        s.1.contends cellId t pending.isDownlink pending.rnti = false
  | .harqFeedback cellId fb => fb.ack = true ∨ s.1.addressees s.2 cellId fb = []
  | _ => True

instance (s : SchedulerEngine π D × List PendingFeedback) (i : Platform × Event π)
    (s' : SchedulerEngine π D × List PendingFeedback) : Decidable (SparesProcesses s i s') := by
  obtain ⟨P, ev⟩ := i
  refine Event.quietCases (motive := fun ev ↦ Decidable (SparesProcesses s (P, ev) s')) ?_ ?_ ?_ ev
  · intro cellId t
    dsimp only [SparesProcesses]
    infer_instance
  · intro cellId fb
    dsimp only [SparesProcesses]
    infer_instance
  · exact fun ev hquiet ↦ isTrue (by cases ev <;> trivial)

/-! ## Runs -/

variable [Double D] [IPolicyManager π D]

theorem exclusive_of_spares {e e' : SchedulerEngine π D} {i : Platform × Event π}
    {outstanding outstanding' : List PendingFeedback} (hinv : e.Consistent)
    (h : e.next i = some e')
    (hspares : SparesProcesses (e, outstanding) i (e', outstanding')) :
    Exclusive outstanding (e.emitted e') := by
  rintro r hr pdu hpdu _ pending hpending ⟨hcellId, hrnti, hdir, hharq⟩
  obtain ⟨cellId, t, cell, slot, dl, ul, hev, houtcome, hr⟩ := mem_emitted h hr
  obtain ⟨ue, d, start, width, hcontends, hue, hcandidate, heq, _⟩ := houtcome.contends hr hpdu
  have hidle := hinv.harq cellId pdu.rnti ue hue r.isDownlink
  have hprocess : pdu.harqId = 0 := heq ▸ (candidate_of_idle hidle hcandidate).2
  have hcell : r.cellId = cellId := houtcome.request_cellId hinv hr
  rw [SparesProcesses, hev] at hspares
  have hfree := hspares pending hpending (hcellId.trans hcell) (hharq.trans hprocess)
  rw [hrnti, hdir, hcontends] at hfree
  cases hfree

omit [Double D] [IPolicyManager π D] in
theorem isArmed_eq_false {e : SchedulerEngine π D} (hinv : e.Consistent) (cellId : CellId)
    (pending : PendingFeedback) : e.isArmed cellId pending = false := by
  rw [isArmed]
  cases hue : e.ueAt cellId pending.rnti with
  | none => rfl
  | some ue =>
      rw [Option.bind_some, hinv.harq cellId pending.rnti ue hue]
      simp only [HarqEntity.getProcess, HarqEntity.create]
      by_cases hlt : pending.harqId < 16
      · rw [Vector.getElem?_eq_getElem hlt, Vector.getElem_ofFn]
        rfl
      · rw [Vector.getElem?_eq_none (not_lt.mp hlt)]
        rfl

omit [Double D] [IPolicyManager π D] in
/-- An idle process stays idle whatever feedback arrives, so a NACK arms the processes that it
is about exactly if there are none. -/
theorem nackArms_iff {e e' : SchedulerEngine π D} {outstanding : List PendingFeedback}
    {cellId : CellId} {fb : HarqFeedback} (hinv : e'.Consistent) (hnack : fb.ack = false) :
    e.nackArms outstanding (.harqFeedback cellId fb) e' = true ↔
      e.addressees outstanding cellId fb = [] := by
  rw [nackArms, hnack, Bool.false_or, List.all_eq_true]
  constructor
  · intro h
    refine List.eq_nil_iff_forall_not_mem.mpr fun pending hpending ↦ ?_
    have harmed := h pending hpending
    rw [isArmed_eq_false hinv] at harmed
    cases harmed
  · intro h pending hpending
    rw [h] at hpending
    cases hpending

/-- While the transitions of a run spare the waiting processes, they keep up their
exclusive use. -/
theorem keepsProcesses_of_spares {config : SchedulerConfig} {is : List (Platform × Event π)}
    (h : Always (monitored next observeOutstanding) SparesProcesses
      ((create config : SchedulerEngine π D), []) is) :
    Always (monitored next observeOutstanding) KeepsProcesses
      ((create config : SchedulerEngine π D), []) is := by
  refine Always.imp (fun s ↦ s.1.Consistent) ?_ (consistent_create config) h
  intro s i s' hinv hstep hspares
  obtain ⟨hnext, _⟩ := monitored_eq_some.mp hstep
  refine ⟨hinv.step hnext, exclusive_of_spares hinv hnext hspares, ?_⟩
  cases hev : i.2 with
  | harqFeedback cellId fb =>
      rw [SparesProcesses, hev] at hspares
      cases hack : fb.ack with
      | true => simp only [nackArms, hack, Bool.true_or]
      | false =>
          have hnone := hspares.resolve_left (by rw [hack]; exact Bool.false_ne_true)
          exact (nackArms_iff (hinv.step hnext) hack).mpr hnone
  | _ => rfl

/-- One user with data in the buffer, and its first slot. -/
def firstSlot : List (Platform × Event (BuiltinPolicy ℚ)) :=
  [(.plain, .addCell (.fdd 1 4) .cleared), (.plain, .ueConfig { rnti := 7, cellId := 1 }),
    (.plain, .dlData ⟨7, 1, 0, 1⟩), (.plain, .slotIndication 1 {})]

/-- An ACK before the next slot of the user keeps the processes apart. -/
theorem keepsProcesses_of_ack :
    Always (monitored next observeOutstanding) KeepsProcesses
      ((create { strategy := .roundRobin, enableQos := false } : RationalEngine), [])
      (firstSlot ++ [(.plain, .harqFeedback 1
        { harqId := 0, ack := true, feedbackTime := { slot := 4 } }),
        (.plain, .slotIndication 1 { slot := 5 })]) :=
  keepsProcesses_of_spares (by decide +kernel)

/-- Two cells of 10 and of 20 slots in a frame: what the second one files drops the entry of
the first one. -/
def droppedEntry : List (Platform × Event (BuiltinPolicy ℚ)) :=
  [(.plain, .addCell (.fdd 1 4) .cleared), (.plain, .addCell (.fdd 2 4) .cleared),
    (.plain, .ueConfig { rnti := 7, cellId := 1 }), (.plain, .ueConfig { rnti := 8, cellId := 2 }),
    (.plain, .dlData ⟨7, 1, 0, 1⟩), (.plain, .dlData ⟨8, 2, 0, 1⟩),
    (.plain, .slotIndication 1 { sfn := 50 }),
    (.plain, .slotIndication 2 { sfn := 50, slotsPerFrame := 20 })]

/-- The next slot uses process zero again, and a NACK for the first slot arms nothing, be the
entry there or dropped. -/
theorem not_keepsProcesses :
    ¬ Always (monitored next observeOutstanding) KeepsProcesses
        ((create { strategy := .roundRobin, enableQos := false } : RationalEngine), [])
        (firstSlot ++ [(.plain, .slotIndication 1 { slot := 1 })]) ∧
    ¬ Always (monitored next observeOutstanding) KeepsProcesses
        ((create { strategy := .roundRobin, enableQos := false } : RationalEngine), [])
        (firstSlot ++ [(.plain, .harqFeedback 1
          { harqId := 0, ack := false, feedbackTime := { slot := 4 } })]) ∧
    ¬ Always (monitored next observeOutstanding) KeepsProcesses
        ((create { strategy := .roundRobin, enableQos := false } : RationalEngine), [])
        (droppedEntry ++ [(.plain, .harqFeedback 1
          { harqId := 0, ack := false, feedbackTime := { sfn := 50, slot := 4 } })]) := by
  refine ⟨?_, ?_, ?_⟩
  · decide +kernel
  · decide +kernel
  · decide +kernel

end SchedulerEngine

end NrScheduler
