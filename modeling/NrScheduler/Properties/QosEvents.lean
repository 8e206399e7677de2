import NrScheduler.Lib.Runs
import NrScheduler.Properties.FlowIsolation

/-!
# What the QoS engine counts

A transmission is late if the oldest packet that waits in its flow and direction has used up
more than the delay budget.  Late transmissions, priorities that are answered as critical, and
priorities that are answered with fewer bytes than asked for are counted, each once, since the
counters were reset.
-/

namespace NrScheduler

open LockMonad

/-! ## Packets that wait -/

/-- The delay budget of a flow, and when the oldest packet that waits in it arrived. -/
structure Waiting where
  pdbMs : ℕ
  since : Option ℕ

namespace Waiting

def arrive (now : ℕ) (w : Waiting) : Waiting := { w with since := some (w.since.getD now) }

def depart (w : Waiting) : Waiting := { w with since := none }

/-- The oldest packet has waited for longer than the budget allows. -/
def isLate (D : Type) [Double D] (w : Waiting) (now : ℕ) : Bool :=
  let waited : D := match w.since with
    | none => Double.ofNat 0
    | some arrival =>
        Double.div (Double.ofNat ((now - arrival) / 1000)) (Double.ofNat w.pdbMs)
  Double.lt (Double.ofNat 1) waited

end Waiting

/-- The packets that wait in each flow and direction, and how many were late. -/
structure PacketBook where
  flows : Rnti → ℕ → Bool → Option Waiting
  late : ℕ

namespace PacketBook

def empty : PacketBook := ⟨fun _ _ _ ↦ none, 0⟩

def revise (b : PacketBook) (rnti : Rnti) (qfi : ℕ) (g : Bool → Waiting → Waiting) :
    PacketBook :=
  { b with flows := fun r q isDl ↦
      if rnti = r ∧ qfi = q then (b.flows r q isDl).map (g isDl) else b.flows r q isDl }

/-- What is known after an operation. -/
def next (D : Type) [Double D] (b : PacketBook) (i : Platform × QosEngine.Operation D) :
    PacketBook :=
  match i.2 with
  | .registerFlow rnti params =>
      { b with flows := fun r q isDl ↦
          if rnti = r ∧ params.qfi = q then
            some ⟨params.characteristics.packetDelayBudgetMs, none⟩
          else b.flows r q isDl }
  | .removeFlow rnti qfi =>
      { b with flows := fun r q isDl ↦ if rnti = r ∧ qfi = q then none else b.flows r q isDl }
  | .removeUeFlows rnti =>
      { b with flows := fun r q isDl ↦ if rnti = r then none else b.flows r q isDl }
  | .notifyDataArrival rnti qfi isDl =>
      b.revise rnti qfi fun d ↦ if d = isDl then Waiting.arrive i.1.now else id
  | .notifyDataTransmitted rnti qfi isDl =>
      { b.revise rnti qfi fun d ↦ if d = isDl then Waiting.depart else id with
        late := b.late + if (b.flows rnti qfi isDl).any (·.isLate D i.1.now) then 1 else 0 }
  | .resetStatistics => { b with late := 0 }
  | _ => b

end PacketBook

def DelayTracker.waiting (t : DelayTracker) : Waiting :=
  ⟨t.pdbMs, if t.hasPendingData then some t.oldestPacketArrival else none⟩

theorem DelayTracker.waiting_packetArrived (t : DelayTracker) (now : ℕ) :
    (t.packetArrived now).waiting = t.waiting.arrive now := by
  rw [packetArrived]
  cases hpending : t.hasPendingData with
  | true => simp [waiting, Waiting.arrive, hpending]
  | false => simp [waiting, Waiting.arrive, hpending]

theorem DelayTracker.isLate_waiting (D : Type) [Double D] (t : DelayTracker) (now : ℕ) :
    t.waiting.isLate D now = Double.lt (Double.ofNat 1) (t.urgency now : D) := by
  rw [Waiting.isLate, waiting, urgency]
  cases t.hasPendingData <;> rfl

/-- Critical answers, throttled answers and late transmissions. -/
def QosStats.events {D : Type} (s : QosStats D) : ℕ × ℕ × ℕ :=
  (s.delayCriticalEvents, s.mbrThrottleEvents, s.pdbViolations)

namespace QosEngine

variable {D : Type} [Double D] {e e' : QosEngine D} {b : PacketBook} {rnti : Rnti} {qfi : ℕ}

/-- The book knows the packets that wait. -/
def Keeps (e : QosEngine D) (b : PacketBook) : Prop :=
  ∀ r q isDl, b.flows r q isDl = (e.flow? r q).map fun f ↦ (f.delayTracker isDl).waiting

omit [Double D] in
theorem Keeps.revise (h : e.Keeps b) {g : QosFlowState → QosFlowState}
    {w : Bool → Waiting → Waiting} (hrevises : e.Revises rnti qfi g e')
    (hw : ∀ f isDl, ((g f).delayTracker isDl).waiting = w isDl (f.delayTracker isDl).waiting) :
    e'.Keeps (b.revise rnti qfi w) := by
  intro r q isDl
  rw [hrevises.2, PacketBook.revise]
  dsimp only
  split
  · rw [h, Option.map_map, Option.map_map]
    exact congrArg (fun k ↦ (e.flow? r q).map k) (funext fun f ↦ (hw f isDl).symm)
  · exact h r q isDl

omit [Double D] in
/-- An operation that leaves the trackers alone leaves the book as it is. -/
theorem Keeps.revise_same (h : e.Keeps b) {g : QosFlowState → QosFlowState}
    (hrevises : e.Revises rnti qfi g e')
    (hsame : ∀ f isDl, (g f).delayTracker isDl = f.delayTracker isDl) : e'.Keeps b := by
  have hkeeps := h.revise (w := fun _ ↦ id) hrevises fun f isDl ↦ by rw [hsame, id]
  intro r q isDl
  rw [← hkeeps r q isDl, PacketBook.revise]
  simp

omit [Double D] in
theorem delayTracker_arrived_eq (now : ℕ) (isDl d : Bool) (f : QosFlowState) :
    ((arrived now isDl f).delayTracker d).waiting =
      (if d = isDl then Waiting.arrive now else id) (f.delayTracker d).waiting := by
  by_cases hd : d = isDl
  · rw [if_pos hd, hd, ← DelayTracker.waiting_packetArrived]
    cases isDl <;> rfl
  · rw [if_neg hd]
    cases isDl <;> cases d <;> first | rfl | exact (hd rfl).elim

theorem delayTracker_departed_eq (now : ℕ) (isDl d : Bool) (f : QosFlowState) :
    ((departed D now isDl f).delayTracker d).waiting =
      (if d = isDl then Waiting.depart else id) (f.delayTracker d).waiting := by
  have hsent : (departed D now isDl f).delayTracker d =
      (f.setDelayTracker isDl (f.delayTracker isDl).packetTransmitted).delayTracker d := by
    simp only [departed]
    split <;> rfl
  rw [hsent]
  by_cases hd : d = isDl
  · rw [if_pos hd, hd]
    cases isDl <;> rfl
  · rw [if_neg hd]
    cases isDl <;> cases d <;> first | rfl | exact (hd rfl).elim

omit [Double D] in
theorem waiting_newFlow (config : QosEngineConfig D) (now : ℕ) (params : QosFlowParams)
    (isDl : Bool) : ((newFlow config now params).delayTracker isDl).waiting =
      ⟨params.characteristics.packetDelayBudgetMs, none⟩ := by
  cases isDl with
  | true => simp only [newFlow, QosFlowState.delayTracker, DelayTracker.waiting]; rfl
  | false => simp only [newFlow, QosFlowState.delayTracker, DelayTracker.waiting]; rfl

/-- The book follows every operation. -/
theorem Keeps.next (h : e.Keeps b) {i : Platform × Operation D} (hnext : e.next i = some e') :
    e'.Keeps (b.next D i) := by
  obtain ⟨P, op⟩ := i
  cases op with
  | notifyDataArrival r q isDl =>
      exact h.revise (revises_next rfl hnext) fun f d ↦ delayTracker_arrived_eq P.now isDl d f
  | notifyDataTransmitted r q isDl =>
      exact h.revise (revises_next rfl hnext) fun f d ↦ delayTracker_departed_eq P.now isDl d f
  | calculatePriority r q isDl bufferBytes =>
      refine h.revise_same (revises_next rfl hnext) fun f d ↦ ?_
      split
      · cases isDl <;> cases d <;> rfl
      · rfl
  | getAllowedBytes r q isDl =>
      refine h.revise_same (revises_next rfl hnext) fun f d ↦ ?_
      cases isDl <;> cases d <;> rfl
  | reportTransmission r q isDl bytes =>
      refine h.revise_same (revises_next rfl hnext) fun f d ↦ ?_
      cases isDl <;> cases d <;> rfl
  | registerFlow rnti params =>
      intro r q isDl
      rw [(flow?_registerFlow hnext).2, PacketBook.next]
      dsimp only
      split
      · rw [Option.map_some, waiting_newFlow]
      · exact h r q isDl
  | removeFlow rnti qfi =>
      intro r q isDl
      rw [(flow?_removeFlow hnext).2, PacketBook.next]
      dsimp only
      split
      · rfl
      · exact h r q isDl
  | removeUeFlows rnti =>
      intro r q isDl
      rw [(flow?_removeUeFlows hnext).2, PacketBook.next]
      dsimp only
      split
      · rfl
      · exact h r q isDl
  | onSlotTick =>
      cases hnext
      intro r q isDl
      rw [PacketBook.next, h, flow?, flow?, AList.lookup_mapValues]
      cases e.flows.lookup r with
      | none => rfl
      | some ueFlows =>
          simp only [Option.map_some, Option.bind_some, AList.lookup_mapValues, Option.map_map]
          cases isDl <;> rfl
  | resetStatistics | updateConfig _ | getDelayCriticalFlows | getCurrentRate _ _ _
  | getGbrDeficit _ _ _ | getGbrDeficitFlows | getStatistics _ =>
      cases hnext
      exact h

/-! ## Counters -/

omit [Double D] in
theorem events_dropFlow (s : QosStats D) (f : QosFlowState) :
    (s.dropFlow f).events = s.events := by
  have hother : ∀ gbr total : ℕ,
      { s with gbrFlows := gbr, totalFlows := total : QosStats D }.events = s.events :=
    fun _ _ ↦ rfl
  exact hother _ _

omit [Double D] in
theorem events_foldl_dropFlow (fs : List (Sigma fun _ : ℕ ↦ QosFlowState)) (s : QosStats D) :
    (fs.foldl (fun s f ↦ s.dropFlow f.2) s).events = s.events := by
  induction fs generalizing s with
  | nil => rfl
  | cons f fs ih => rw [List.foldl_cons, ih, events_dropFlow]

/-- A priority that was asked for and what was answered. -/
def answered (e : QosEngine D) (i : Platform × Operation D) : Option (ℕ × QosPriorityResult D) :=
  match i.2 with
  | .calculatePriority rnti qfi isDl bufferBytes =>
      (ignoringLocks (e.calculatePriority i.1 rnti qfi isDl bufferBytes)).map fun answer ↦
        (bufferBytes, answer.1)
  | _ => none

/-- The priorities answered as critical, and those answered with fewer bytes than asked for. -/
structure Tally where
  critical : ℕ := 0
  throttled : ℕ := 0

def Tally.count (e : QosEngine D) (i : Platform × Operation D) (_ : QosEngine D) (t : Tally) :
    Tally :=
  match i.2, e.answered i with
  | .resetStatistics, _ => {}
  | _, none => t
  | _, some (asked, answer) =>
      { critical := t.critical + if answer.isDelayCritical then 1 else 0
        throttled := t.throttled + if answer.maxBytesAllowed < asked then 1 else 0 }

/-- The counters of the engine are those of the book and of the tally. -/
structure Counts (p : QosEngine D × Tally) (b : PacketBook) : Prop where
  keeps : p.1.Keeps b
  events : p.1.stats.events = (p.2.critical, p.2.throttled, b.late)

theorem ite_add_one (p : Prop) [Decidable p] (n : ℕ) :
    (if p then n + 1 else n) = n + if p then 1 else 0 := by
  split <;> rfl

theorem events_rankFlow (e : QosEngine D) (now : ℕ) (rnti : Rnti) (qfi : ℕ)
    (flow : QosFlowState) (isDl : Bool) (bufferBytes : ℕ) :
    let r := e.rankFlow now rnti qfi flow isDl bufferBytes
    r.2.stats.events =
      (e.stats.delayCriticalEvents + (if r.1.isDelayCritical then 1 else 0),
        e.stats.mbrThrottleEvents + (if r.1.maxBytesAllowed < bufferBytes then 1 else 0),
        e.stats.pdbViolations) := by
  intro r
  refine Prod.ext ?_ (Prod.ext ?_ rfl)
  · exact ite_add_one _ _
  · exact ite_add_one _ _

/-- A priority is answered for every flow, and what the answer says is counted. -/
theorem events_calculatePriority {P : Platform} {isDl : Bool} {bufferBytes : ℕ}
    (h : e.next (P, .calculatePriority rnti qfi isDl bufferBytes) = some e') :
    ∃ answer : QosPriorityResult D,
      e.answered (P, .calculatePriority rnti qfi isDl bufferBytes) = some (bufferBytes, answer) ∧
      e'.stats.events =
        (e.stats.delayCriticalEvents + (if answer.isDelayCritical then 1 else 0),
          e.stats.mbrThrottleEvents + (if answer.maxBytesAllowed < bufferBytes then 1 else 0),
          e.stats.pdbViolations) := by
  cases hflow : e.flow? rnti qfi with
  | none =>
      simp only [next, perform, calculatePriority, hflow] at h
      cases h
      refine ⟨.neutral bufferBytes, ?_, ?_⟩
      · simp only [answered, calculatePriority, hflow]
        rfl
      · have hall : ¬ (QosPriorityResult.neutral bufferBytes : QosPriorityResult D).maxBytesAllowed
            < bufferBytes := Nat.lt_irrefl bufferBytes
        rw [if_neg hall]
        rfl
  | some flow =>
      simp only [next, perform, calculatePriority, hflow] at h
      cases h
      refine ⟨(e.rankFlow P.now rnti qfi flow isDl bufferBytes).1, ?_, events_rankFlow ..⟩
      simp only [answered, calculatePriority, hflow]
      rfl

/-- A transmission is counted as late where the packets that wait were. -/
theorem events_notifyDataTransmitted (hkeeps : e.Keeps b) {P : Platform} {isDl : Bool}
    (h : e.next (P, .notifyDataTransmitted rnti qfi isDl) = some e') :
    e'.stats.events = (e.stats.delayCriticalEvents, e.stats.mbrThrottleEvents,
      e.stats.pdbViolations +
        if (b.flows rnti qfi isDl).any (·.isLate D P.now) then 1 else 0) := by
  cases hflow : e.flow? rnti qfi with
  | none =>
      simp only [next, perform, notifyDataTransmitted, hflow] at h
      cases h
      rw [hkeeps, hflow]
      rfl
  | some flow =>
      simp only [next, perform, notifyDataTransmitted, hflow] at h
      rw [hkeeps, hflow, Option.map_some, Option.any_some, DelayTracker.isLate_waiting]
      split at h
      · rename_i hover
        cases h
        rw [if_pos hover]
        rfl
      · rename_i hintime
        cases h
        rw [if_neg hintime]
        rfl

theorem events_removeFlow {P : Platform} (h : e.next (P, .removeFlow rnti qfi) = some e') :
    e'.stats.events = e.stats.events := by
  cases hflow : e.flow? rnti qfi with
  | none =>
      simp only [next, perform, removeFlow, hflow] at h
      cases h
      rfl
  | some flow =>
      simp only [next, perform, removeFlow, hflow] at h
      cases h
      exact events_dropFlow e.stats flow

theorem events_removeUeFlows {P : Platform} (h : e.next (P, .removeUeFlows rnti) = some e') :
    e'.stats.events = e.stats.events := by
  cases hue : e.flows.lookup rnti with
  | none =>
      simp only [next, perform, removeUeFlows, hue] at h
      cases h
      rfl
  | some ueFlows =>
      simp only [next, perform, removeUeFlows, hue] at h
      cases h
      exact events_foldl_dropFlow ueFlows.entries e.stats

theorem events_registerFlow {P : Platform} {params : QosFlowParams}
    (h : e.next (P, .registerFlow rnti params) = some e') :
    e'.stats.events = e.stats.events := by
  have hother : ∀ gbr total : ℕ,
      { e.stats with gbrFlows := gbr, totalFlows := total : QosStats D }.events =
        e.stats.events := fun _ _ ↦ rfl
  cases h
  exact hother _ _

theorem Counts.next {t : Tally} {i : Platform × Operation D} (h : Counts (e, t) b)
    (hnext : e.next i = some e') : Counts (e', t.count e i e') (b.next D i) := by
  refine ⟨h.keeps.next hnext, ?_⟩
  obtain ⟨P, op⟩ := i
  obtain ⟨hcritical, hevents⟩ := Prod.mk.inj h.events
  obtain ⟨hthrottled, hlate⟩ := Prod.mk.inj hevents
  cases op with
  | calculatePriority rnti qfi isDl bufferBytes =>
      obtain ⟨answer, hanswer, hcounted⟩ := events_calculatePriority hnext
      rw [hcounted, Tally.count, hanswer, hcritical, hthrottled, hlate]
      rfl
  | notifyDataTransmitted rnti qfi isDl =>
      rw [events_notifyDataTransmitted h.keeps hnext, hcritical, hthrottled, hlate]
      rfl
  | registerFlow rnti params => exact (events_registerFlow hnext).trans h.events
  | removeFlow rnti qfi => exact (events_removeFlow hnext).trans h.events
  | removeUeFlows rnti => exact (events_removeUeFlows hnext).trans h.events
  | getAllowedBytes rnti qfi isDl =>
      simp only [QosEngine.next, perform, getAllowedBytes] at hnext
      cases hflow : e.flow? rnti qfi <;> rw [hflow] at hnext <;> cases hnext <;> exact h.events
  | reportTransmission rnti qfi isDl _ | notifyDataArrival rnti qfi isDl =>
      simp only [QosEngine.next, perform, reportTransmission, notifyDataArrival] at hnext
      cases hflow : e.flow? rnti qfi <;> rw [hflow] at hnext <;> cases hnext <;> exact h.events
  | resetStatistics | onSlotTick | updateConfig _ | getDelayCriticalFlows | getCurrentRate _ _ _
  | getGbrDeficit _ _ _ | getGbrDeficitFlows | getStatistics _ =>
      cases hnext
      first | rfl | exact h.events

/-! ## Runs -/

/-- The statistics report the late transmissions, and the priorities answered as critical and
those answered with fewer bytes than asked for, since they were last reset. -/
theorem events_of_run {config : QosEngineConfig D} {is : List (Platform × Operation D)}
    {t : Tally}
    (h : is.foldlM (Runs.monitored next Tally.count) (create config, {}) = some (e, t))
    (memory : D) :
    (ignoringLocks (e.getStatistics memory)).map (fun s ↦
        (s.delayCriticalEvents, s.mbrThrottleEvents, s.pdbViolations)) =
      some (t.critical, t.throttled, (is.foldl (PacketBook.next D) .empty).late) := by
  have hstart : Counts (create config, {}) .empty := ⟨fun _ _ _ ↦ rfl, rfl⟩
  have hend : Counts (e, t) (is.foldl (PacketBook.next D) .empty) := by
    refine Runs.foldlM_followed ?_ hstart h
    rintro ⟨e₁, t₁⟩ b i ⟨e₂, t₂⟩ hcounts hstep
    obtain ⟨hnext, htally⟩ := Runs.monitored_eq_some.mp hstep
    obtain rfl : t₂ = t₁.count e₁ i e₂ := htally
    exact hcounts.next hnext
  exact congrArg some hend.events

/-- A second packet does not make the first one younger, and nothing is late twice. -/
theorem events_of_run_late :
    let params : QosFlowParams := ⟨1, ⟨.delayC, 19, 10⟩, 1000, 1000, 80000, 80000⟩
    let after (now : ℕ) (op : Operation ℚ) : Platform × Operation ℚ :=
      ({ Platform.plain with now := now }, op)
    let is := [after 0 (.registerFlow 7 params), after 0 (.notifyDataArrival 7 1 true),
      after 8000 (.notifyDataArrival 7 1 true), after 9000 (.calculatePriority 7 1 true 500),
      after 12000 (.notifyDataTransmitted 7 1 true), after 40000 (.notifyDataTransmitted 7 1 true)]
    ∃ p, is.foldlM (Runs.monitored next Tally.count) (create .standard, {}) = some p ∧
      (ignoringLocks (p.1.getStatistics 0)).map (fun s ↦
        (s.delayCriticalEvents, s.mbrThrottleEvents, s.pdbViolations)) = some (1, 1, 1) := by
  intro params after is
  have hrun : (is.foldlM (Runs.monitored next Tally.count) (create .standard, {})).any (fun p ↦
      p.2.critical == 1 && p.2.throttled == 1) = true := by
    decide +kernel
  have hlate : (is.foldl (PacketBook.next ℚ) .empty).late = 1 := by decide +kernel
  obtain ⟨⟨e, t⟩, hp, ht⟩ := (Option.any_eq_true _ _).mp hrun
  rw [Bool.and_eq_true, beq_iff_eq, beq_iff_eq] at ht
  refine ⟨(e, t), hp, ?_⟩
  rw [events_of_run hp, ht.1, ht.2, hlate]

end QosEngine

end NrScheduler
