import NrScheduler.Lib.Runs
import NrScheduler.Services.QosSpec

/-!
# The oldest packet of a flow

One flag and one time stand for the queue of the packets that have arrived and are not yet
transmitted.  A transmission clears the flag, so the two describe the head of the queue
exactly as long as every transmission finds no more than one packet.
-/

namespace NrScheduler

open LockMonad

variable {D : Type}

/-! ## The queue -/

namespace DelayTracker

variable {tracker : DelayTracker} {unsent : List ℕ}

/-- The tracker describes the head of a queue of arrival times, oldest first. -/
structure AtHead (tracker : DelayTracker) (unsent : List ℕ) : Prop where
  pending : tracker.hasPendingData = true ↔ unsent ≠ []
  arrival : ∀ a ∈ unsent.head?, tracker.oldestPacketArrival = a

theorem AtHead.packetArrived (h : tracker.AtHead unsent) (now : ℕ) :
    (tracker.packetArrived now).AtHead (unsent ++ [now]) := by
  cases unsent with
  | nil =>
      have hidle : ¬ tracker.hasPendingData = true := fun hpending ↦ h.pending.mp hpending rfl
      rw [DelayTracker.packetArrived, if_neg hidle]
      exact ⟨iff_of_true rfl (List.cons_ne_nil _ _), fun a ha ↦ Option.some.inj ha⟩
  | cons a rest =>
      have hpending : tracker.hasPendingData = true := h.pending.mpr (List.cons_ne_nil a rest)
      rw [DelayTracker.packetArrived, if_pos hpending]
      exact ⟨iff_of_true hpending (List.cons_ne_nil _ _), h.arrival⟩

/-- A transmission leaves nothing behind if it finds no more than one packet. -/
theorem AtHead.packetTransmitted (tracker : DelayTracker) (hlength : unsent.length ≤ 1) :
    tracker.packetTransmitted.AtHead unsent.tail := by
  have hempty : unsent.tail = [] := List.eq_nil_of_length_eq_zero (by
    rw [List.length_tail]
    omega)
  rw [hempty]
  exact ⟨iff_of_false Bool.false_ne_true fun hnil ↦ hnil rfl, fun a ha ↦ by cases ha⟩

variable (D) [Double D]

/-- Data is pending exactly if a packet is unsent, and the urgency is the share of the delay
budget that the oldest has waited, in whole milliseconds. -/
structure Tracks (tracker : DelayTracker) (unsent : List ℕ) : Prop where
  pending : tracker.hasPendingData = true ↔ unsent ≠ []
  urgency : ∀ a ∈ unsent.head?, ∀ t, (tracker.urgency t : D) =
    Double.div (Double.ofNat ((t - a) / 1000)) (Double.ofNat tracker.pdbMs)

variable {D}

theorem AtHead.tracks (h : tracker.AtHead unsent) : Tracks D tracker unsent where
  pending := h.pending
  urgency a ha t := by
    have hunsent : unsent ≠ [] := by
      rintro rfl
      cases ha
    rw [urgency, if_pos (h.pending.mpr hunsent), h.arrival a ha]

theorem length_le_one_of_tracks (h : Tracks D tracker.packetTransmitted unsent.tail) :
    unsent.length ≤ 1 := by
  have hempty : unsent.tail = [] := by
    by_contra hleft
    exact Bool.false_ne_true (h.pending.mpr hleft)
  have hlength := congrArg List.length hempty
  rw [List.length_tail, List.length_nil] at hlength
  omega

end DelayTracker

/-! ## Notifications -/

namespace QosEngine

variable {e e' : QosEngine D} {P : Platform} {op : Operation D} {rnti rnti' : Rnti}
variable {qfi qfi' : ℕ} {isDl isDl' : Bool} {flow : QosFlowState} {unsent : List ℕ}

def Operation.IsNotification : Operation D → Prop
  | .notifyDataArrival _ _ _ | .notifyDataTransmitted _ _ _ => True
  | _ => False

/-- The arrival times of the unsent packets of a flow in a direction; a transmission serves
the oldest of them. -/
def enqueue (rnti : Rnti) (qfi : ℕ) (isDl : Bool) (_ : QosEngine D)
    (i : Platform × Operation D) (_ : QosEngine D) (unsent : List ℕ) : List ℕ :=
  match i.2 with
  | .notifyDataArrival rnti' qfi' isDl' =>
      if rnti = rnti' ∧ qfi = qfi' ∧ isDl = isDl' then unsent ++ [i.1.now] else unsent
  | .notifyDataTransmitted rnti' qfi' isDl' =>
      if rnti = rnti' ∧ qfi = qfi' ∧ isDl = isDl' then unsent.tail else unsent
  | _ => unsent

theorem delayTracker_arrived (now : ℕ) (flow : QosFlowState) :
    (flow.setDelayTracker isDl' ((flow.delayTracker isDl').packetArrived now)).delayTracker isDl =
      if isDl = isDl' then (flow.delayTracker isDl).packetArrived now
      else flow.delayTracker isDl := by
  cases isDl <;> cases isDl' <;> rfl

/-- A notification updates its flow, if that is known, and counters. -/
inductive Notified (e : QosEngine D) (rnti : Rnti) (qfi : ℕ)
    (update : QosFlowState → QosFlowState) : QosEngine D → Prop
  | unknown (hflow : e.flow? rnti qfi = none) : Notified e rnti qfi update e
  | known {flow : QosFlowState} {stats : QosStats D} (hflow : e.flow? rnti qfi = some flow) :
      Notified e rnti qfi update { e.setFlow rnti qfi (update flow) with stats := stats }

theorem Notified.flow?_eq {update : QosFlowState → QosFlowState}
    (h : Notified e rnti' qfi' update e') (hflow : e.flow? rnti qfi = some flow) :
    e'.flow? rnti qfi = some (if rnti = rnti' ∧ qfi = qfi' then update flow else flow) := by
  by_cases hkey : rnti = rnti' ∧ qfi = qfi'
  · obtain ⟨rfl, rfl⟩ := hkey
    rw [if_pos ⟨rfl, rfl⟩]
    cases h with
    | unknown hnone =>
        rw [hnone] at hflow
        cases hflow
    | known hsome =>
        obtain rfl := Option.some.inj (hsome.symm.trans hflow)
        exact flow?_setFlow hflow
  · rw [if_neg hkey]
    cases h with
    | unknown => exact hflow
    | known => exact (flow?_setFlow_ne hkey _).trans hflow

/-- Where the update reaches one tracker, the notification reaches it in one flow. -/
theorem Notified.delayTracker (f : DelayTracker → DelayTracker)
    {update : QosFlowState → QosFlowState} (h : Notified e rnti' qfi' update e')
    (hflow : e.flow? rnti qfi = some flow) (hupdate : (update flow).delayTracker isDl =
      if isDl = isDl' then f (flow.delayTracker isDl) else flow.delayTracker isDl) :
    ∃ flow', e'.flow? rnti qfi = some flow' ∧ flow'.delayTracker isDl =
      if rnti = rnti' ∧ qfi = qfi' ∧ isDl = isDl' then f (flow.delayTracker isDl)
      else flow.delayTracker isDl := by
  refine ⟨_, h.flow?_eq hflow, ?_⟩
  by_cases hkey : rnti = rnti' ∧ qfi = qfi'
  · rw [if_pos hkey, hupdate]
    exact if_congr ⟨fun hdir ↦ ⟨hkey.1, hkey.2, hdir⟩, fun hall ↦ hall.2.2⟩ rfl rfl
  · rw [if_neg hkey, if_neg fun hall ↦ hkey ⟨hall.1, hall.2.1⟩]

theorem notified_arrival [Double D]
    (hnext : e.next (P, .notifyDataArrival rnti qfi isDl) = some e') :
    Notified e rnti qfi
      (fun flow ↦ flow.setDelayTracker isDl ((flow.delayTracker isDl).packetArrived P.now))
      e' := by
  simp only [next, perform, notifyDataArrival] at hnext
  cases hflow : e.flow? rnti qfi with
  | none =>
      rw [hflow] at hnext
      cases hnext
      exact .unknown hflow
  | some flow =>
      rw [hflow] at hnext
      cases hnext
      exact .known hflow

variable (D) in
/-- A packet that has waited longer than the delay budget counts as a violation. -/
def transmitted [Double D] (now : ℕ) (isDl : Bool) (flow : QosFlowState) : QosFlowState :=
  { flow.setDelayTracker isDl (flow.delayTracker isDl).packetTransmitted with
    pdbViolations :=
      if Double.lt (Double.ofNat 1) ((flow.delayTracker isDl).urgency now : D) then
        (flow.pdbViolations + 1) % 2 ^ 32
      else flow.pdbViolations }

theorem delayTracker_transmitted [Double D] (now : ℕ) (flow : QosFlowState) :
    (transmitted D now isDl' flow).delayTracker isDl =
      if isDl = isDl' then (flow.delayTracker isDl).packetTransmitted
      else flow.delayTracker isDl := by
  cases isDl <;> cases isDl' <;> rfl

theorem notified_transmission [Double D]
    (hnext : e.next (P, .notifyDataTransmitted rnti qfi isDl) = some e') :
    Notified e rnti qfi (transmitted D P.now isDl) e' := by
  simp only [next, perform, notifyDataTransmitted] at hnext
  cases hflow : e.flow? rnti qfi with
  | none =>
      rw [hflow] at hnext
      cases hnext
      exact .unknown hflow
  | some flow =>
      have hknown : ∀ stats, Notified e rnti qfi (transmitted D P.now isDl)
          { e.setFlow rnti qfi (transmitted D P.now isDl flow) with stats := stats } :=
        fun _ ↦ .known hflow
      rw [hflow] at hnext
      by_cases hlate :
          Double.lt (Double.ofNat 1) ((flow.delayTracker isDl).urgency P.now : D) = true
      · simp only [if_pos hlate] at hnext
        cases hnext
        rw [transmitted, if_pos hlate] at hknown
        exact hknown _
      · simp only [if_neg hlate] at hnext
        cases hnext
        rw [transmitted, if_neg hlate] at hknown
        cases isDl <;> exact hknown e.stats

variable [Double D]

/-- The tracker follows the queue of its flow and direction, and a packet that is transmitted
after its delay budget is counted. -/
structure FollowsQueue (rnti : Rnti) (qfi : ℕ) (isDl : Bool) (p : QosEngine D × List ℕ)
    (i : Platform × Operation D) (p' : QosEngine D × List ℕ) : Prop where
  tracks : ∃ flow, p'.1.flow? rnti qfi = some flow ∧
    DelayTracker.Tracks D (flow.delayTracker isDl) p'.2
  detects : i.2 = .notifyDataTransmitted rnti qfi isDl → ∀ a ∈ p.2.head?, ∀ flow flow',
    p.1.flow? rnti qfi = some flow → p'.1.flow? rnti qfi = some flow' →
    flow'.pdbViolations =
      if Double.lt (Double.ofNat 1) (Double.div (Double.ofNat ((i.1.now - a) / 1000))
        (Double.ofNat (flow.delayTracker isDl).pdbMs) : D) then
        (flow.pdbViolations + 1) % 2 ^ 32
      else flow.pdbViolations

/-- A transmission finds no more than one unsent packet. -/
def DrainsQueue (rnti : Rnti) (qfi : ℕ) (isDl : Bool) (unsent : List ℕ) : Operation D → Prop
  | .notifyDataTransmitted rnti' qfi' isDl' =>
      rnti = rnti' ∧ qfi = qfi' ∧ isDl = isDl' → unsent.length ≤ 1
  | _ => True

/-- The flow is known, and its tracker is at the head of the queue. -/
def AtHead (rnti : Rnti) (qfi : ℕ) (isDl : Bool) (p : QosEngine D × List ℕ) : Prop :=
  ∃ flow, p.1.flow? rnti qfi = some flow ∧ (flow.delayTracker isDl).AtHead p.2

omit [Double D] in
/-- A notification moves the tracker and the queue of its own flow and direction only. -/
theorem atHead_ite {p : Prop} [Decidable p] {tracker moved : DelayTracker} {unsent queue : List ℕ}
    (h : tracker.AtHead unsent) (hmoved : p → moved.AtHead queue) :
    (if p then moved else tracker).AtHead (if p then queue else unsent) := by
  by_cases hp : p
  · rw [if_pos hp, if_pos hp]
    exact hmoved hp
  · rw [if_neg hp, if_neg hp]
    exact h

/-- As long as transmissions drain the queue, the tracker stays at its head. -/
theorem AtHead.next {p : QosEngine D × List ℕ} {i : Platform × Operation D}
    (h : AtHead rnti qfi isDl p) (hop : i.2.IsNotification) (hnext : p.1.next i = some e')
    (hdrains : DrainsQueue rnti qfi isDl p.2 i.2) :
    AtHead rnti qfi isDl (e', enqueue rnti qfi isDl p.1 i e' p.2) := by
  obtain ⟨e, unsent⟩ := p
  obtain ⟨P, op⟩ := i
  obtain ⟨flow, hflow, hhead⟩ := h
  dsimp only at hnext hflow hhead hdrains
  cases op with
  | notifyDataArrival rnti' qfi' isDl' =>
      obtain ⟨flow', hflow', htracker⟩ := (notified_arrival hnext).delayTracker
        (fun tracker ↦ tracker.packetArrived P.now) hflow (delayTracker_arrived P.now flow)
      refine ⟨flow', hflow', ?_⟩
      rw [htracker]
      exact atHead_ite hhead fun _ ↦ hhead.packetArrived P.now
  | notifyDataTransmitted rnti' qfi' isDl' =>
      obtain ⟨flow', hflow', htracker⟩ := (notified_transmission hnext).delayTracker
        DelayTracker.packetTransmitted hflow (delayTracker_transmitted P.now flow)
      refine ⟨flow', hflow', ?_⟩
      rw [htracker]
      exact atHead_ite hhead fun hkey ↦ .packetTransmitted _ (hdrains hkey)
  | _ => exact hop.elim

theorem followsQueue_of_atHead {p p' : QosEngine D × List ℕ} {i : Platform × Operation D}
    (h : AtHead rnti qfi isDl p) (hnext : p.1.next i = some p'.1)
    (h' : AtHead rnti qfi isDl p') : FollowsQueue rnti qfi isDl p i p' := by
  obtain ⟨P, op⟩ := i
  obtain ⟨flow, hflow, hhead⟩ := h
  obtain ⟨flow', hflow', hhead'⟩ := h'
  refine ⟨⟨flow', hflow', hhead'.tracks⟩, ?_⟩
  rintro rfl a ha flow₁ flow₁' hflow₁ hflow₁'
  obtain rfl := Option.some.inj (hflow.symm.trans hflow₁)
  rw [(notified_transmission hnext).flow?_eq hflow, if_pos ⟨rfl, rfl⟩] at hflow₁'
  obtain rfl := Option.some.inj hflow₁'
  rw [← hhead.tracks.urgency a ha P.now]
  rfl

/-- If the tracker still follows the queue, a transmission found no more than one packet. -/
theorem drainsQueue_of_followsQueue {p : QosEngine D × List ℕ} {i : Platform × Operation D}
    (h : AtHead rnti qfi isDl p) (hnext : p.1.next i = some e')
    (hfollows : FollowsQueue rnti qfi isDl p i (e', enqueue rnti qfi isDl p.1 i e' p.2)) :
    DrainsQueue rnti qfi isDl p.2 i.2 := by
  obtain ⟨e, unsent⟩ := p
  obtain ⟨P, op⟩ := i
  obtain ⟨flow, hflow, -⟩ := h
  obtain ⟨⟨flow₁, hflow₁, htracks⟩, -⟩ := hfollows
  cases op with
  | notifyDataTransmitted rnti' qfi' isDl' =>
      intro hkey
      obtain ⟨flow', hflow', htracker⟩ := (notified_transmission hnext).delayTracker
        DelayTracker.packetTransmitted hflow (delayTracker_transmitted P.now flow)
      obtain rfl := Option.some.inj (hflow'.symm.trans hflow₁)
      rw [htracker] at htracks
      simp only [enqueue, if_pos hkey] at htracks
      exact DelayTracker.length_le_one_of_tracks htracks
  | _ => trivial

/-- Over every sequence of notifications, the tracker of a flow and direction follows its
queue exactly if every transmission finds no more than one unsent packet. -/
theorem followsQueue_iff_drainsQueue (hflow : e.flow? rnti qfi = some flow)
    (hidle : (flow.delayTracker isDl).hasPendingData = false) {is : List (Platform × Operation D)}
    (his : ∀ i ∈ is, i.2.IsNotification) :
    Runs.Always (Runs.monitored next (enqueue rnti qfi isDl)) (FollowsQueue rnti qfi isDl)
        (e, []) is ↔
      Runs.Always (Runs.monitored next (enqueue rnti qfi isDl))
        (fun p i _ ↦ DrainsQueue rnti qfi isDl p.2 i.2) (e, []) is := by
  refine Runs.always_iff_of_inputs (p := fun i ↦ i.2.IsNotification) (AtHead rnti qfi isDl) ?_
    ⟨flow, hflow, ?_⟩ his
  · rintro p i ⟨e', unsent'⟩ hop hhead hstep
    obtain ⟨hnext, hqueue⟩ := Runs.monitored_eq_some.mp hstep
    dsimp only at hnext hqueue
    subst hqueue
    have hdrains := drainsQueue_of_followsQueue hhead hnext
    exact ⟨⟨hdrains, fun h ↦ followsQueue_of_atHead hhead hnext (hhead.next hop hnext h)⟩,
      fun h ↦ hhead.next hop hnext (hdrains h)⟩
  · exact ⟨iff_of_false (by rw [hidle]; exact Bool.false_ne_true) fun hnil ↦ hnil rfl,
      fun a ha ↦ by cases ha⟩

/-! ## Two packets -/

instance (rnti : Rnti) (qfi : ℕ) (isDl : Bool) (unsent : List ℕ) (op : Operation D) :
    Decidable (DrainsQueue rnti qfi isDl unsent op) := by
  induction op using Operation.casesOn with
  | notifyDataTransmitted rnti' qfi' isDl' =>
      exact inferInstanceAs (Decidable (rnti = rnti' ∧ qfi = qfi' ∧ isDl = isDl' →
        unsent.length ≤ 1))
  | _ => exact isTrue trivial

instance (op : Operation D) : Decidable op.IsNotification := by
  induction op using Operation.casesOn with
  | notifyDataArrival | notifyDataTransmitted => exact isTrue trivial
  | _ => exact isFalse id

/-- A delay-critical flow with a budget of ten milliseconds. -/
def urgentParams : QosFlowParams := ⟨82, ⟨.delayC, 19, 10⟩, 0, 0, 0, 0⟩

def urgentFlow : QosFlowState := newFlow (.standard : QosEngineConfig ℚ) 0 urgentParams

def withUrgentFlow : QosEngine ℚ :=
  { create with
    flows := AList.insert 7 (AList.insert 82 urgentFlow ∅) ∅
    stats := { QosStats.zero with totalFlows := 1, gbrFlows := 1 } }

example : create.next (.plain, .registerFlow 7 urgentParams) = some withUrgentFlow := rfl

/-- A packet that arrives and `between` transmissions, then another packet and another
transmission. -/
def twoPackets (between : ℕ) : List (Platform × Operation ℚ) :=
  (.plain, .notifyDataArrival 7 82 true) ::
    List.replicate between ({ Platform.plain with now := 500 }, .notifyDataTransmitted 7 82 true) ++
    [({ Platform.plain with now := 1000 }, .notifyDataArrival 7 82 true),
      ({ Platform.plain with now := 2000 }, .notifyDataTransmitted 7 82 true)]

theorem followsQueue_inTurn :
    Runs.Always (Runs.monitored next (enqueue 7 82 true)) (FollowsQueue 7 82 true)
      (withUrgentFlow, []) (twoPackets 1) := by
  have hflow : withUrgentFlow.flow? 7 82 = some urgentFlow := rfl
  exact (followsQueue_iff_drainsQueue hflow rfl (by decide)).mpr (by decide +kernel)

/-- Where both packets arrive before the first transmission, the second one is forgotten. -/
theorem not_followsQueue :
    ¬ Runs.Always (Runs.monitored next (enqueue 7 82 true)) (FollowsQueue 7 82 true)
      (withUrgentFlow, []) (twoPackets 0) := by
  intro h
  have hpending : Runs.Always (Runs.monitored next (enqueue 7 82 true))
      (fun _ _ p' ↦ ∀ flow ∈ (p'.1.flow? 7 82).toList,
        (flow.delayTracker true).hasPendingData = true ↔ p'.2 ≠ [])
      (withUrgentFlow, []) (twoPackets 0) := by
    refine h.imp (fun _ ↦ True) (fun _ _ p' _ _ hfollows ↦ ⟨trivial, fun flow hmem ↦ ?_⟩) trivial
    obtain ⟨flow', hflow', htracks⟩ := hfollows.tracks
    obtain rfl := Option.some.inj ((Option.mem_toList.mp hmem).symm.trans hflow')
    exact htracks.pending
  exact absurd hpending (by decide +kernel)

end QosEngine

end NrScheduler
