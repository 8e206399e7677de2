import NrScheduler.Engine.Transmissions

/-!
# The window of pending feedback

A registration drops what lies more than 100 slots before it.  With the slots counted
without wrapping, the tracker should then hold exactly the unconsumed registrations that
lie at most 100 slots back.  It compares wrapped slot numbers, and the registrations of the
two directions do not come in the order of their slots.
-/

namespace NrScheduler

open LockMonad Runs

/-! ## The registrations of a run -/

/-- A registration with its expected slot, counted without wrapping. -/
structure Registration where
  slot : ℕ
  pending : PendingFeedback
  deriving DecidableEq, Repr

/-- The registrations that no feedback has consumed, and the slot of the latest one. -/
structure Ledger where
  outstanding : List Registration := []
  latest : Option ℕ := none

namespace Ledger

def register (l : Ledger) (r : Registration) : Ledger := ⟨l.outstanding ++ [r], some r.slot⟩

def consume (l : Ledger) (consumed : Option PendingFeedback) : Ledger :=
  { l with outstanding := l.outstanding.filter fun r ↦ some r.pending ≠ consumed }

/-- A registration for `slot`, made in the slot `now`, leaves the right entries in the
tracker: what already left the window stays outside, the wrapped slot numbers tell what
leaves it now, and what lies ahead stays in it. -/
structure Admits (cycle now : ℕ) (l : Ledger) (slot : ℕ) : Prop where
  expired : ∀ r ∈ l.outstanding, ∀ latest ∈ l.latest, r.slot + 100 < latest → r.slot + 100 < slot
  wrapped : ∀ r ∈ l.outstanding, (∀ latest ∈ l.latest, latest ≤ r.slot + 100) →
    (r.slot % cycle + 100 < slot % cycle ↔ r.slot + 100 < slot)
  ahead : ∀ r ∈ l.outstanding, now ≤ r.slot → slot ≤ r.slot + 100

end Ledger

/-! ## One registration -/

/-- A registration enters the tracker under its wrapped slot number. -/
def file (cycle : ℕ) (s : HarqTimingTracker × Ledger) (r : Registration) :
    HarqTimingTracker × Ledger :=
  (s.1.register (r.slot % cycle) r.pending, s.2.register r)

/-- The tracker holds exactly the outstanding registrations that lie at most 100 slots
before the latest one. -/
def HoldsWindow (cycle : ℕ) (s : HarqTimingTracker × Ledger) : Prop :=
  ∀ slot pending, pending ∈ s.1.entriesAt slot ↔
    ∃ r ∈ s.2.outstanding, r.pending = pending ∧ r.slot % cycle = slot ∧
      ∀ latest ∈ s.2.latest, latest ≤ r.slot + 100

/-- No outstanding registration whose slot has not passed is missing. -/
def LosesNone (cycle now : ℕ) (s : HarqTimingTracker × Ledger) : Prop :=
  ∀ r ∈ s.2.outstanding, now ≤ r.slot → r.pending ∈ s.1.entriesAt (r.slot % cycle)

/-- Entries stem from outstanding registrations. -/
def Sourced (cycle : ℕ) (s : HarqTimingTracker × Ledger) : Prop :=
  ∀ slot, ∀ pending ∈ s.1.entriesAt slot,
    ∃ r ∈ s.2.outstanding, r.pending = pending ∧ r.slot % cycle = slot

/-- Registrations are told apart by their entries, so the window can be checked one by one. -/
theorem holdsWindow_iff {cycle : ℕ} {s : HarqTimingTracker × Ledger}
    (hnodup : (s.2.outstanding.map Registration.pending).Nodup) :
    HoldsWindow cycle s ↔ Sourced cycle s ∧ ∀ r ∈ s.2.outstanding,
      (r.pending ∈ s.1.entriesAt (r.slot % cycle) ↔
        ∀ latest ∈ s.2.latest, latest ≤ r.slot + 100) := by
  constructor
  · intro hholds
    constructor
    · intro slot pending hpending
      obtain ⟨r, hr, hrpending, hslot, _⟩ := (hholds slot pending).mp hpending
      exact ⟨r, hr, hrpending, hslot⟩
    · intro r hr
      rw [hholds]
      constructor
      · rintro ⟨r', hr', hpending, _, hlatest⟩
        obtain rfl : r' = r := List.inj_on_of_nodup_map hnodup hr' hr hpending
        exact hlatest
      · intro hlatest
        exact ⟨r, hr, rfl, rfl, hlatest⟩
  · rintro ⟨hsourced, hkept⟩ slot pending
    constructor
    · intro hpending
      obtain ⟨r, hr, rfl, rfl⟩ := hsourced slot pending hpending
      exact ⟨r, hr, rfl, rfl, (hkept r hr).mp hpending⟩
    · rintro ⟨r, hr, rfl, rfl, hlatest⟩
      exact (hkept r hr).mpr hlatest

section File

variable {cycle : ℕ} {s : HarqTimingTracker × Ledger} {r : Registration}

theorem Sourced.file (h : Sourced cycle s) : Sourced cycle (file cycle s r) := by
  intro slot pending hpending
  have hstored : pending ∈ (s.1.register (r.slot % cycle) r.pending).entriesAt slot := hpending
  rw [HarqTimingTracker.entriesAt_register] at hstored
  have hold : pending ∈ s.1.entriesAt slot →
      ∃ r' ∈ s.2.outstanding ++ [r], r'.pending = pending ∧ r'.slot % cycle = slot := by
    intro hmem
    obtain ⟨r', hr', heq⟩ := h slot pending hmem
    exact ⟨r', List.mem_append_left _ hr', heq⟩
  split at hstored
  · cases hstored
  · split at hstored
    · rename_i hslot
      rcases List.mem_append.mp hstored with hmem | hmem
      · exact hold hmem
      · obtain rfl := List.mem_singleton.mp hmem
        exact ⟨r, List.mem_append_right _ (List.mem_singleton_self r), rfl, hslot.symm⟩
    · exact hold hstored

/-- An outstanding registration is kept by the next one if its wrapped slot number is. -/
theorem mem_entriesAt_file (hnodup : ((s.2.outstanding ++ [r]).map Registration.pending).Nodup)
    {q : Registration} (hq : q ∈ s.2.outstanding) :
    q.pending ∈ (file cycle s r).1.entriesAt (q.slot % cycle) ↔
      ¬ q.slot % cycle + 100 < r.slot % cycle ∧ q.pending ∈ s.1.entriesAt (q.slot % cycle) := by
  have hne : q.pending ≠ r.pending := by
    rw [List.map_append, List.nodup_append] at hnodup
    exact hnodup.2.2 _ (List.mem_map_of_mem hq) _ (List.mem_singleton_self _)
  have hregister := s.1.entriesAt_register (r.slot % cycle) (q.slot % cycle) r.pending
  rw [NrScheduler.file, hregister]
  by_cases hdrop : q.slot % cycle + 100 < r.slot % cycle
  · simp [hdrop]
  · by_cases hslot : q.slot % cycle = r.slot % cycle
    · simp [hslot, hne]
    · simp [hdrop, hslot]

theorem mem_entriesAt_file_self :
    r.pending ∈ (file cycle s r).1.entriesAt (r.slot % cycle) := by
  have hregister := s.1.entriesAt_register (r.slot % cycle) (r.slot % cycle) r.pending
  rw [NrScheduler.file, hregister]
  simp

/-- A registration keeps the window and loses nothing exactly if it is admitted. -/
theorem file_iff (now : ℕ) (hholds : HoldsWindow cycle s)
    (hnodup : ((s.2.outstanding ++ [r]).map Registration.pending).Nodup) :
    HoldsWindow cycle (file cycle s r) ∧ LosesNone cycle now (file cycle s r) ↔
      s.2.Admits cycle now r.slot := by
  have hnodup' : (s.2.outstanding.map Registration.pending).Nodup := by
    rw [List.map_append] at hnodup
    exact hnodup.of_append_left
  obtain ⟨hsourced, hkept⟩ := (holdsWindow_iff hnodup').mp hholds
  have hmem : ∀ q ∈ s.2.outstanding,
      (q.pending ∈ (file cycle s r).1.entriesAt (q.slot % cycle) ↔
        ¬ q.slot % cycle + 100 < r.slot % cycle ∧
          ∀ latest ∈ s.2.latest, latest ≤ q.slot + 100) := fun q hq ↦
    (mem_entriesAt_file hnodup hq).trans (and_congr_right fun _ ↦ hkept q hq)
  rw [holdsWindow_iff (s := file cycle s r) hnodup]
  constructor
  · rintro ⟨⟨_, hwindow⟩, hloses⟩
    have hiff : ∀ q ∈ s.2.outstanding, (¬ q.slot % cycle + 100 < r.slot % cycle ∧
        ∀ latest ∈ s.2.latest, latest ≤ q.slot + 100) ↔ r.slot ≤ q.slot + 100 := by
      intro q hq
      rw [← hmem q hq, hwindow q (List.mem_append_left _ hq)]
      exact ⟨fun h ↦ h r.slot rfl, fun h latest hlatest ↦ by cases hlatest; exact h⟩
    constructor
    case expired =>
      intro q hq latest hlatest hlt
      by_contra hle
      exact absurd (((hiff q hq).mpr (not_lt.mp hle)).2 latest hlatest) (not_le.mpr hlt)
    case wrapped =>
      intro q hq hlatest
      rw [← not_iff_not, not_lt (a := q.slot + 100), ← hiff q hq]
      exact ⟨fun h ↦ ⟨h, hlatest⟩, fun h ↦ h.1⟩
    case ahead =>
      intro q hq hnow
      rw [← hiff q hq, ← hmem q hq]
      exact hloses q (List.mem_append_left _ hq) hnow
  · intro hadmits
    have hiff : ∀ q ∈ s.2.outstanding,
        (q.pending ∈ (file cycle s r).1.entriesAt (q.slot % cycle) ↔ r.slot ≤ q.slot + 100) := by
      intro q hq
      rw [hmem q hq]
      constructor
      · rintro ⟨hwrapped, hlatest⟩
        exact not_lt.mp ((not_iff_not.mpr (hadmits.wrapped q hq hlatest)).mp hwrapped)
      · intro hle
        have hlatest : ∀ latest ∈ s.2.latest, latest ≤ q.slot + 100 := fun latest hmem' ↦
          not_lt.mp fun hlt ↦ absurd (hadmits.expired q hq latest hmem' hlt) (not_lt.mpr hle)
        exact ⟨fun hlt ↦ absurd ((hadmits.wrapped q hq hlatest).mp hlt) (not_lt.mpr hle), hlatest⟩
    refine ⟨⟨hsourced.file, ?_⟩, ?_⟩
    · intro q hq
      rcases List.mem_append.mp hq with hq | hq
      · rw [hiff q hq]
        exact ⟨fun h latest hlatest ↦ by cases hlatest; exact h, fun h ↦ h r.slot rfl⟩
      · obtain rfl := List.mem_singleton.mp hq
        exact ⟨fun _ latest hlatest ↦ by cases hlatest; exact Nat.le_add_right _ _,
          fun _ ↦ mem_entriesAt_file_self⟩
    · intro q hq hnow
      rcases List.mem_append.mp hq with hq | hq
      · exact (hiff q hq).mpr (hadmits.ahead q hq hnow)
      · obtain rfl := List.mem_singleton.mp hq
        exact mem_entriesAt_file_self

end File

/-! ## The registrations of one slot -/

/-- After each of the registrations the tracker holds the window and has lost nothing. -/
def WindowKept (cycle now : ℕ) (s : HarqTimingTracker × Ledger) (rs : List Registration) : Prop :=
  Always (fun s r ↦ some (file cycle s r))
    (fun _ _ s' ↦ HoldsWindow cycle s' ∧ LosesNone cycle now s') s rs

def Admitted (cycle now : ℕ) (s : HarqTimingTracker × Ledger) (rs : List Registration) : Prop :=
  Always (fun s r ↦ some (file cycle s r)) (fun s r _ ↦ s.2.Admits cycle now r.slot) s rs

theorem windowKept_iff {cycle : ℕ} (now : ℕ) {s : HarqTimingTracker × Ledger}
    {rs : List Registration} (hholds : HoldsWindow cycle s)
    (hnodup : ((s.2.outstanding ++ rs).map Registration.pending).Nodup) :
    WindowKept cycle now s rs ↔ Admitted cycle now s rs := by
  induction rs generalizing s with
  | nil => exact Iff.rfl
  | cons r rs ih =>
      rw [List.append_cons] at hnodup
      have hfirst : ((s.2.outstanding ++ [r]).map Registration.pending).Nodup := by
        rw [List.map_append] at hnodup
        exact hnodup.of_append_left
      rw [WindowKept, Admitted, always_cons_of_total, always_cons_of_total,
        ← file_iff now hholds hfirst]
      exact and_congr_right fun hkept ↦ ih hkept.1 hnodup

theorem WindowKept.end {cycle now : ℕ} {s : HarqTimingTracker × Ledger} {rs : List Registration}
    (hholds : HoldsWindow cycle s) (h : WindowKept cycle now s rs) :
    HoldsWindow cycle (rs.foldl (file cycle) s) := by
  induction rs generalizing s with
  | nil => exact hholds
  | cons r rs ih =>
      rw [WindowKept, always_cons_of_total] at h
      exact ih h.1.1 h.2

namespace SchedulerEngine

/-- The slots from a slot indication to the feedback for a direction. -/
def lead (config : SchedulerConfig) (isDl : Bool) : ℕ :=
  (if isDl then 0 else config.schedulingOffsetSlots) + feedbackOffset isDl

/-- The registrations that come with some requests sent in the slot `now`, the first of them
at position `index`. -/
def registrationsOf (config : SchedulerConfig) (now : ℕ) : ℕ → List TtiRequest → List Registration
  | _, [] => []
  | index, r :: rest =>
      (r.pendings index).map (Registration.mk (now + lead config r.isDownlink)) ++
        registrationsOf config now (index + 1) rest

theorem map_pending_registrationsOf (config : SchedulerConfig) (now index : ℕ)
    (reqs : List TtiRequest) :
    (registrationsOf config now index reqs).map Registration.pending = pendingsOf index reqs := by
  induction reqs generalizing index with
  | nil => rfl
  | cons r reqs ih =>
      rw [registrationsOf, pendingsOf, List.map_append, ih, List.map_map]
      exact congrArg (· ++ _) (List.map_id _)

theorem foldl_file_registrationsOf {config : SchedulerConfig} {cycle now : ℕ}
    {reqs : List TtiRequest}
    (hreqs : ∀ r ∈ reqs, r.expectedSlot = (now + lead config r.isDownlink) % cycle)
    (s : HarqTimingTracker × Ledger) (index : ℕ) :
    (registrationsOf config now index reqs).foldl (file cycle) s =
      (s.1.registerRequests index reqs,
        (registrationsOf config now index reqs).foldl Ledger.register s.2) := by
  induction reqs generalizing s index with
  | nil => rfl
  | cons r reqs ih =>
      have hfile : ∀ (l : List PendingFeedback) (s : HarqTimingTracker × Ledger),
          (l.map (Registration.mk (now + lead config r.isDownlink))).foldl (file cycle) s =
            (l.foldl (fun t pending ↦ t.register r.expectedSlot pending) s.1,
              (l.map (Registration.mk (now + lead config r.isDownlink))).foldl Ledger.register
                s.2) := by
        intro l
        rw [hreqs r List.mem_cons_self]
        induction l with
        | nil => exact fun _ ↦ rfl
        | cons pending l ihl => exact fun s ↦ ihl _
      rw [registrationsOf, List.foldl_append, hfile, List.foldl_append,
        ih fun r' hr' ↦ hreqs r' (List.mem_cons_of_mem r hr')]
      rfl

theorem nodup_pendingsOf {reqs : List TtiRequest} (index : ℕ)
    (hreqs : ∀ r ∈ reqs, (r.pdus.map TtiPdu.rnti).Nodup) : (pendingsOf index reqs).Nodup := by
  induction reqs generalizing index with
  | nil => exact List.nodup_nil
  | cons r reqs ih =>
      have hpendings : (r.pendings index).Nodup := by
        refine List.Nodup.of_map PendingFeedback.rnti ?_
        rw [TtiRequest.pendings, List.map_map]
        exact hreqs r List.mem_cons_self
      refine hpendings.append (ih _ fun r' hr' ↦ hreqs r' (List.mem_cons_of_mem r hr')) ?_
      -- the entries of a request carry its position
      intro pending hpending hlater
      obtain ⟨pdu, _, rfl⟩ := List.mem_map.mp hpending
      obtain ⟨r', _, pdu', _, k, hk, heq⟩ := mem_pendingsOf hlater
      have hindex : index = k := congrArg PendingFeedback.request heq
      omega

variable {π D : Type}

def registrations (e e' : SchedulerEngine π D) (now : ℕ) : List Registration :=
  registrationsOf e.config now e.sent.length (e.emitted e')

/-- The entry that a feedback takes out of the tracker. -/
def consumed (e : SchedulerEngine π D) (cellId : CellId) (fb : HarqFeedback) :
    Option PendingFeedback :=
  (e.recipient cellId fb).bind fun pending ↦
    (e.harqTracker.entriesAt fb.feedbackTime.absoluteSlot).find?
      (HarqTimingTracker.matchesUe pending.rnti (some fb.harqId))

theorem mem_entriesAt_feedback {e e' : SchedulerEngine π D} {cellId : CellId}
    {fb : HarqFeedback} (houtcome : e.FeedbackOutcome cellId fb e')
    (hdistinct : Distinct e.harqTracker e.sent.length) {slot : ℕ} {pending : PendingFeedback} :
    pending ∈ e'.harqTracker.entriesAt slot ↔
      pending ∈ e.harqTracker.entriesAt slot ∧ some pending ≠ e.consumed cellId fb := by
  rw [FeedbackOutcome] at houtcome
  rw [consumed]
  cases hrecipient : e.recipient cellId fb with
  | none =>
      rw [hrecipient] at houtcome
      rw [houtcome.2.2.tracker, Option.bind_none]
      exact ⟨fun h ↦ ⟨h, Option.some_ne_none _⟩, fun h ↦ h.1⟩
  | some received =>
      rw [hrecipient] at houtcome
      rw [houtcome.2.1, consume, HarqTimingTracker.entriesAt_remove, Option.bind_some]
      cases hfind : (e.harqTracker.entriesAt fb.feedbackTime.absoluteSlot).find?
          (HarqTimingTracker.matchesUe received.rnti (some fb.harqId)) with
      | none =>
          have hnone := List.find?_eq_none.mp hfind
          rw [List.eraseP_of_forall_not hnone]
          have hsame : (if slot = fb.feedbackTime.absoluteSlot then
              e.harqTracker.entriesAt fb.feedbackTime.absoluteSlot
              else e.harqTracker.entriesAt slot) = e.harqTracker.entriesAt slot := by
            split
            · rename_i hslot
              rw [hslot]
            · rfl
          rw [hsame]
          exact ⟨fun h ↦ ⟨h, Option.some_ne_none _⟩, fun h ↦ h.1⟩
      | some taken =>
          have htaken := List.mem_of_find?_eq_some hfind
          rw [(eraseP_eq_erase_iff htaken (List.find?_some hfind)).mpr hfind, Ne,
            Option.some.injEq]
          by_cases hslot : slot = fb.feedbackTime.absoluteSlot
          · rw [if_pos hslot, hslot, (hdistinct.nodup _).mem_erase_iff]
            exact and_comm
          · rw [if_neg hslot]
            refine ⟨fun h ↦ ⟨h, ?_⟩, fun h ↦ h.1⟩
            rintro rfl
            exact hslot (hdistinct.slot_unique _ _ _ h htaken)

/-! ## Runs -/

def observeLedger (e : SchedulerEngine π D) (i : SlottedEvent π) (e' : SchedulerEngine π D)
    (l : Ledger) : Ledger :=
  match i.2.2 with
  | .slotIndication _ _ => (e.registrations e' i.1).foldl Ledger.register l
  | .harqFeedback cellId fb => l.consume (e.consumed cellId fb)
  | _ => l

def books (s : SchedulerEngine π D × Ledger) : HarqTimingTracker × Ledger := (s.1.harqTracker, s.2)

/-- The tracker holds the window and has lost nothing after each registration, and it still
holds the window after every other event. -/
def KeepsWindow (slotsPerFrame : ℕ) (s : SchedulerEngine π D × Ledger) (i : SlottedEvent π)
    (s' : SchedulerEngine π D × Ledger) : Prop :=
  HoldsWindow (FrameTiming.cycle slotsPerFrame) (books s') ∧
  match i.2.2 with
  | .slotIndication _ _ =>
      WindowKept (FrameTiming.cycle slotsPerFrame) i.1 (books s) (s.1.registrations s'.1 i.1) ∧
      books s' = (s.1.registrations s'.1 i.1).foldl (file (FrameTiming.cycle slotsPerFrame))
        (books s)
  | _ => True

/-- Each registration of the slot is admitted. -/
def AdmitsRegistrations (slotsPerFrame : ℕ) (s : SchedulerEngine π D × Ledger)
    (i : SlottedEvent π) (s' : SchedulerEngine π D × Ledger) : Prop :=
  match i.2.2 with
  | .slotIndication _ _ =>
      Admitted (FrameTiming.cycle slotsPerFrame) i.1 (books s) (s.1.registrations s'.1 i.1)
  | _ => True

theorem foldl_register (rs : List Registration) (l : Ledger) :
    (rs.foldl Ledger.register l).outstanding = l.outstanding ++ rs := by
  induction rs generalizing l with
  | nil => exact (List.append_nil _).symm
  | cons r rs ih =>
      rw [List.foldl_cons, ih, Ledger.register, ← List.append_cons]

/-- Some registrations belong to the requests that a step sent, and they account for the
tracker after it. -/
structure Accounts (e : SchedulerEngine π D) (cycle : ℕ) (rs : List Registration)
    (e' : SchedulerEngine π D) : Prop where
  sent_le : e.sent.length ≤ e'.sent.length
  request_ge : ∀ r ∈ rs, e.sent.length ≤ r.pending.request
  request_lt : ∀ r ∈ rs, r.pending.request < e'.sent.length
  nodup : (rs.map Registration.pending).Nodup
  tracker : ∀ l : Ledger, rs.foldl (file cycle) (e.harqTracker, l) =
    (e'.harqTracker, rs.foldl Ledger.register l)

variable [Double D]

theorem Sends.expectedSlot_eq {e : SchedulerEngine π D} {P : Platform} {cell : CellContext}
    {t : FrameTiming} {r : TtiRequest} (h : e.Sends P cell t r) {slotsPerFrame now : ℕ}
    (hpos : 0 < slotsPerFrame) (hle : slotsPerFrame ≤ 256) (ht : t.IsAt slotsPerFrame now) :
    r.expectedSlot =
      (now + lead e.config r.isDownlink) % FrameTiming.cycle slotsPerFrame := by
  rw [TtiRequest.expectedSlot, h.timing, target, lead]
  cases r.isDownlink with
  | true => exact (ht.plus hpos hle _).absoluteSlot_eq.trans (by rw [if_pos rfl, Nat.zero_add])
  | false => exact ((ht.plus hpos hle _).plus hpos hle _).absoluteSlot_eq.trans (by
      rw [if_neg Bool.false_ne_true, Nat.add_assoc])

variable [IPolicyManager π D]

theorem registrations_slot {e e' : SchedulerEngine π D} {P : Platform} {cellId : CellId}
    {t : FrameTiming} (h : (e.onSlotIndication P cellId t).run none = .ok e')
    {slotsPerFrame now : ℕ} (hpos : 0 < slotsPerFrame) (hle : slotsPerFrame ≤ 256)
    (ht : t.IsAt slotsPerFrame now) :
    e.Accounts (FrameTiming.cycle slotsPerFrame) (e.registrations e' now) e' := by
  rcases onSlotIndication_ok h with ⟨_, heq⟩ | ⟨cell, slot, dl, ul, houtcome⟩
  · have hsent : e'.sent = e.sent := by rw [heq]
    have hnone : e.registrations e' now = [] := by
      rw [registrations, emitted_eq_nil hsent]
      rfl
    rw [hnone]
    constructor
    case sent_le => rw [hsent]
    case request_ge => exact fun _ hr ↦ by cases hr
    case request_lt => exact fun _ hr ↦ by cases hr
    case nodup => exact List.nodup_nil
    case tracker =>
      intro l
      rw [heq]
      rfl
  · have hregistrations : e.registrations e' now =
        registrationsOf e.config now e.sent.length (dl ++ ul) := by
      rw [registrations, houtcome.emitted_eq]
    have hlength : e'.sent.length = e.sent.length + (dl ++ ul).length := by
      rw [houtcome.sent, List.length_append]
    have hpending : ∀ r ∈ e.registrations e' now,
        r.pending ∈ pendingsOf e.sent.length (dl ++ ul) := by
      intro r hr
      rw [hregistrations] at hr
      rw [← map_pending_registrationsOf e.config now]
      exact List.mem_map_of_mem hr
    constructor
    case sent_le =>
      rw [hlength]
      exact Nat.le_add_right _ _
    case request_ge =>
      intro r hr
      obtain ⟨_, _, _, _, k, hk, heq⟩ := mem_pendingsOf (hpending r hr)
      rw [heq]
      exact hk
    case request_lt =>
      intro r hr
      rw [hlength]
      exact request_lt_of_mem_pendingsOf (hpending r hr)
    case nodup =>
      rw [hregistrations, map_pending_registrationsOf]
      exact nodup_pendingsOf _ fun r hr ↦ houtcome.nodup_rntis hr
    case tracker =>
      intro l
      rw [hregistrations, houtcome.tracker]
      exact foldl_file_registrationsOf
        (fun r hr ↦ (houtcome.sends hr).expectedSlot_eq hpos hle ht) _ _

/-! ### The invariant -/

/-- Outstanding registrations are told apart, they belong to requests sent, and the tracker
holds their window. -/
structure Booked (cycle : ℕ) (s : SchedulerEngine π D × Ledger) : Prop where
  distinct : Distinct s.1.harqTracker s.1.sent.length
  request_lt : ∀ r ∈ s.2.outstanding, r.pending.request < s.1.sent.length
  nodup : (s.2.outstanding.map Registration.pending).Nodup
  holds : HoldsWindow cycle (books s)

theorem booked_create (cycle : ℕ) (config : SchedulerConfig) :
    Booked cycle ((create config : SchedulerEngine π D), {}) where
  distinct := distinct_create config
  request_lt _ hr := by cases hr
  nodup := List.nodup_nil
  holds slot pending := by
    constructor
    · intro hpending
      cases hpending
    · rintro ⟨_, hr, _⟩
      cases hr

omit [Double D] [IPolicyManager π D] in
theorem Booked.nodup_append {cycle : ℕ} {s : SchedulerEngine π D × Ledger}
    (hs : Booked cycle s) {e' : SchedulerEngine π D} {rs : List Registration}
    (hrs : s.1.Accounts cycle rs e') :
    (((books s).2.outstanding ++ rs).map Registration.pending).Nodup := by
  rw [List.map_append]
  refine hs.nodup.append hrs.nodup ?_
  intro pending hold hnew
  obtain ⟨r, hr, rfl⟩ := List.mem_map.mp hold
  obtain ⟨r', hr', heq⟩ := List.mem_map.mp hnew
  have hlt := hs.request_lt r hr
  have hge := hrs.request_ge r' hr'
  rw [heq] at hge
  omega

omit [Double D] [IPolicyManager π D] in
theorem Booked.consume {cycle : ℕ} {s s' : SchedulerEngine π D × Ledger} {cellId : CellId}
    {fb : HarqFeedback} (hs : Booked cycle s) (houtcome : s.1.FeedbackOutcome cellId fb s'.1)
    (hobserve : s'.2 = s.2.consume (s.1.consumed cellId fb)) :
    HoldsWindow cycle (books s') := by
  intro slot pending
  have hmem : ∀ r, r ∈ s'.2.outstanding ↔
      r ∈ s.2.outstanding ∧ some r.pending ≠ s.1.consumed cellId fb := by
    intro r
    rw [hobserve, Ledger.consume, List.mem_filter, decide_eq_true_eq]
  have hlatest : s'.2.latest = s.2.latest := by rw [hobserve, Ledger.consume]
  have hold := hs.holds slot pending
  simp only [books] at hold ⊢
  rw [mem_entriesAt_feedback houtcome hs.distinct, hold, hlatest]
  constructor
  · rintro ⟨⟨r, hr, rfl, hrest⟩, hne⟩
    exact ⟨r, (hmem r).mpr ⟨hr, hne⟩, rfl, hrest⟩
  · rintro ⟨r, hr, rfl, hrest⟩
    exact ⟨⟨r, ((hmem r).mp hr).1, rfl, hrest⟩, ((hmem r).mp hr).2⟩

omit [Double D] [IPolicyManager π D] in
theorem Booked.append {cycle : ℕ} {s s' : SchedulerEngine π D × Ledger}
    {rs : List Registration} (hs : Booked cycle s) (hrs : s.1.Accounts cycle rs s'.1)
    (hobserve : s'.2 = rs.foldl Ledger.register s.2)
    (hdistinct : Distinct s'.1.harqTracker s'.1.sent.length)
    (hholds : HoldsWindow cycle (books s')) : Booked cycle s' where
  distinct := hdistinct
  request_lt r hr := by
    rw [hobserve, foldl_register] at hr
    rcases List.mem_append.mp hr with hold | hnew
    · exact (hs.request_lt r hold).trans_le hrs.sent_le
    · exact hrs.request_lt r hnew
  nodup := by
    rw [hobserve, foldl_register]
    exact hs.nodup_append hrs
  holds := hholds

/-- One event keeps the window exactly if its registrations are admitted. -/
theorem Booked.step {slotsPerFrame : ℕ} (hpos : 0 < slotsPerFrame) (hle : slotsPerFrame ≤ 256)
    {s s' : SchedulerEngine π D × Ledger} {i : SlottedEvent π}
    (htimed : IsTimed slotsPerFrame i) (hs : Booked (FrameTiming.cycle slotsPerFrame) s)
    (h : monitored (fun e i ↦ next e i.2) observeLedger s i = some s') :
    (KeepsWindow slotsPerFrame s i s' ↔ AdmitsRegistrations slotsPerFrame s i s') ∧
      (KeepsWindow slotsPerFrame s i s' → Booked (FrameTiming.cycle slotsPerFrame) s') := by
  obtain ⟨hnext, hobserve⟩ := monitored_eq_some.mp h
  have hdistinct := hs.distinct.step hnext
  have hrun := next_eq_some.mp hnext
  rw [observeLedger] at hobserve
  rw [IsTimed] at htimed
  rw [KeepsWindow, AdmitsRegistrations]
  cases hev : i.2.2 with
  | slotIndication cellId t =>
      rw [hev] at hrun hobserve htimed
      have hrs := registrations_slot hrun hpos hle htimed
      have hiff := windowKept_iff i.1 hs.holds (hs.nodup_append hrs)
      have hbooks : books s' = (s.1.registrations s'.1 i.1).foldl
          (file (FrameTiming.cycle slotsPerFrame)) (books s) := by
        rw [books, books, hrs.tracker, hobserve]
      simp only
      constructor
      · rw [← hiff]
        constructor
        · exact fun hkeeps ↦ hkeeps.2.1
        · intro hkept
          refine ⟨?_, hkept, hbooks⟩
          rw [hbooks]
          exact hkept.end hs.holds
      · exact fun hkeeps ↦ hs.append hrs hobserve hdistinct hkeeps.1
  | harqFeedback cellId fb =>
      rw [hev] at hrun hobserve
      have houtcome := onHarqFeedback_ok hrun
      have hholds := hs.consume houtcome hobserve
      refine ⟨⟨fun _ ↦ trivial, fun _ ↦ ⟨hholds, trivial⟩⟩, fun _ ↦ ⟨hdistinct, ?_, ?_, hholds⟩⟩
      · intro r hr
        rw [hobserve] at hr
        have hsent : s'.1.sent = s.1.sent := by
          rw [FeedbackOutcome] at houtcome
          split at houtcome
          · exact houtcome.2.2.sent
          · exact houtcome.2.2.1
        rw [hsent]
        exact hs.request_lt r (List.mem_of_mem_filter hr)
      · rw [hobserve]
        exact hs.nodup.sublist (List.filter_sublist.map _)
  | _ =>
      obtain ⟨htracker, hsent⟩ := handle_quiet hrun (by rw [hev]; rfl)
      rw [hev] at hobserve
      have hbooks : books s' = books s := by rw [books, books, htracker, hobserve]
      have hholds : HoldsWindow (FrameTiming.cycle slotsPerFrame) (books s') := hbooks ▸ hs.holds
      refine ⟨⟨fun _ ↦ trivial, fun _ ↦ ⟨hholds, trivial⟩⟩, fun _ ↦ ⟨hdistinct, ?_, ?_, hholds⟩⟩
      · rw [hobserve, hsent]
        exact hs.request_lt
      · rw [hobserve]
        exact hs.nodup

/-- Along every run, whatever the configuration and the cells, the tracker holds exactly the
window of unconsumed registrations and loses none before its slot has passed, if and only if
every registration is admitted. -/
theorem keepsWindow_iff {slotsPerFrame : ℕ} (hpos : 0 < slotsPerFrame)
    (hle : slotsPerFrame ≤ 256) (config : SchedulerConfig) {is : List (SlottedEvent π)}
    (htimed : ∀ i ∈ is, IsTimed slotsPerFrame i) :
    Always (monitored (fun e i ↦ next e i.2) observeLedger) (KeepsWindow slotsPerFrame)
        ((create config : SchedulerEngine π D), {}) is ↔
      Always (monitored (fun e i ↦ next e i.2) observeLedger) (AdmitsRegistrations slotsPerFrame)
        ((create config : SchedulerEngine π D), {}) is :=
  always_iff_of_inputs (Booked (FrameTiming.cycle slotsPerFrame))
    (fun _ _ _ htimed hs h ↦ hs.step hpos hle htimed h) (booked_create _ config) htimed

end SchedulerEngine

/-! ## Around the wrap -/

namespace RationalEngine

open SchedulerEngine

/-- One user with downlink data and a scheduling request in the only cell, and the given
slots, ten to a frame. -/
def soleUserRun (slots : List ℕ) : List (SlottedEvent (BuiltinPolicy ℚ)) :=
  [.addCell (.fdd 1 4) .cleared, .ueConfig { rnti := 7, cellId := 1 }, .dlData ⟨7, 1, 0, 1⟩,
      .sr ⟨7, 1⟩].map (fun ev ↦ (0, .plain, ev)) ++
    slots.map fun n ↦
      (n, .plain, .slotIndication 1 { sfn := n / 10 % FrameTiming.maxSfn, slot := n % 10 })

theorem keepsWindow_iff_soleUser :
    Always (monitored (fun (e : RationalEngine) i ↦ next e i.2) observeLedger) (KeepsWindow 10)
        (create {}, {}) (soleUserRun [10230, 10231]) ↔
      Always (monitored (fun (e : RationalEngine) i ↦ next e i.2) observeLedger)
        (AdmitsRegistrations 10) (create {}, {}) (soleUserRun [10230, 10231]) :=
  keepsWindow_iff (by decide) (by decide) {} (by decide +kernel)

/-- Whether the outstanding registrations are in the tracker as the window has them, and
nothing else under their slots. -/
def MatchesOutstanding (s : HarqTimingTracker × Ledger) : Prop :=
  ∀ r ∈ s.2.outstanding,
    ((∀ latest ∈ s.2.latest, latest ≤ r.slot + 100) →
      r.pending ∈ s.1.entriesAt (r.slot % FrameTiming.cycle 10)) ∧
    ∀ pending ∈ s.1.entriesAt (r.slot % FrameTiming.cycle 10), ∃ q ∈ s.2.outstanding,
      q.pending = pending ∧ ∀ latest ∈ s.2.latest, latest ≤ q.slot + 100

instance (s : HarqTimingTracker × Ledger) : Decidable (MatchesOutstanding s) := by
  unfold MatchesOutstanding
  infer_instance

theorem matchesOutstanding_of_keepsWindow {s : RationalEngine × Ledger}
    {is : List (SlottedEvent (BuiltinPolicy ℚ))}
    (h : Always (monitored (fun e i ↦ next e i.2) observeLedger) (KeepsWindow 10) s is) :
    Always (monitored (fun e i ↦ next e i.2) observeLedger)
      (fun _ _ s' ↦ MatchesOutstanding (books s')) s is := by
  refine h.imp (fun _ ↦ True) ?_ trivial
  intro s i s' _ _ hkeeps
  refine ⟨trivial, ?_⟩
  intro r hr
  constructor
  · intro hlatest
    exact (hkeeps.1 _ _).mpr ⟨r, hr, rfl, rfl, hlatest⟩
  · intro pending hpending
    obtain ⟨q, hq, hpending, _, hlatest⟩ := (hkeeps.1 _ _).mp hpending
    exact ⟨q, hq, hpending, hlatest⟩

/-- With the default configuration the registrations of slot 10230 are still matched in slot
10400, after the wrap; and with a scheduling offset of ten slots, the uplink registration of
slot 10230 is lost in the next one, eleven slots too early. -/
theorem not_keepsWindow :
    ¬ Always (monitored (fun (e : RationalEngine) i ↦ next e i.2) observeLedger)
        (KeepsWindow 10) (create {}, {}) (soleUserRun [10230, 10400]) ∧
    ¬ Always (monitored (fun (e : RationalEngine) i ↦ next e i.2) observeLedger)
        (KeepsWindow 10) (create { schedulingOffsetSlots := 10 }, {})
        (soleUserRun [10230, 10231]) := by
  constructor
  · intro h
    have hmatches := matchesOutstanding_of_keepsWindow h
    revert hmatches
    decide +kernel
  · intro h
    have hmatches := matchesOutstanding_of_keepsWindow h
    revert hmatches
    decide +kernel

end RationalEngine

end NrScheduler
