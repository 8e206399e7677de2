import NrScheduler.Properties.GrantCollision

/-!
# Uplink transmissions of different slots

A PUSCH transmission is allocated on the grid of the current slot and sent K2 slots later.
Every slot allocates from the first block on, so two slots with one target always collide:
what keeps transmissions apart is that the targets are different.
-/

namespace NrScheduler

open Runs

/-- A transmission with the slot it is for, counted without wrapping. -/
structure Booking where
  slot : ℕ
  pdu : TtiPdu

/-- In one slot the transmissions share no block on a common symbol. -/
def Booking.Apart (a b : Booking) : Prop :=
  a.slot = b.slot → ∀ sym rb,
    ¬ (ResourceGrid.Covers a.pdu.resource sym rb ∧ ResourceGrid.Covers b.pdu.resource sym rb)

/-- The transmission takes the first cell that the allocator hands out. -/
def Booking.CoversFirst (b : Booking) : Prop :=
  ResourceGrid.Covers b.pdu.resource DefaultResourceAllocator.startSymbol 0

/-- The uplink transmissions of a cell so far, and the targets of the slots for which its
users competed. -/
structure Bookings where
  booked : List Booking := []
  targets : List ℕ := []

namespace SchedulerEngine

variable {π D : Type}

def uplinkTarget (e : SchedulerEngine π D) (now : ℕ) : ℕ := now + e.config.schedulingOffsetSlots

def bookingsOf (slot : ℕ) (reqs : List TtiRequest) : List Booking :=
  (reqs.filter fun r ↦ r.isDownlink == false).flatMap fun r ↦ r.pdus.map (Booking.mk slot)

def observeBookings (cellId : CellId) (e : SchedulerEngine π D) (i : SlottedEvent π)
    (e' : SchedulerEngine π D) (b : Bookings) : Bookings :=
  match i.2.2 with
  | .slotIndication c t =>
      if c = cellId then
        { booked := b.booked ++ bookingsOf (e.uplinkTarget i.1) (e.emitted e')
          targets :=
            if e.competes i.2.1 c t false then e.uplinkTarget i.1 :: b.targets else b.targets }
      else b
  | _ => b

/-- The timing of a slot indication for the cell names its slot. -/
def IsTimedFor (cellId : CellId) (slotsPerFrame : ℕ) (i : SlottedEvent π) : Prop :=
  i.2.2.cellId? = some cellId → IsTimed slotsPerFrame i

instance (cellId : CellId) (slotsPerFrame : ℕ) (i : SlottedEvent π) :
    Decidable (IsTimedFor cellId slotsPerFrame i) :=
  inferInstanceAs (Decidable (_ → _))

/-- All uplink transmissions of the cell so far are apart, and the requests of the slot name
its target. -/
def BooksApart (cellId : CellId) (slotsPerFrame : ℕ) (s : SchedulerEngine π D × Bookings)
    (i : SlottedEvent π) (s' : SchedulerEngine π D × Bookings) : Prop :=
  s'.2.booked.Pairwise Booking.Apart ∧
  match i.2.2 with
  | .slotIndication c _ => c = cellId → ∀ r ∈ s.1.emitted s'.1, r.isDownlink = false →
      r.timing.IsAt slotsPerFrame (s.1.uplinkTarget i.1)
  | _ => True

/-- A slot for whose uplink users compete has another target than all before it. -/
def TargetsFresh (cellId : CellId) (s : SchedulerEngine π D × Bookings) (i : SlottedEvent π)
    (_ : SchedulerEngine π D × Bookings) : Prop :=
  match i.2.2 with
  | .slotIndication c t => c = cellId → s.1.competes i.2.1 c t false = true →
      s.1.uplinkTarget i.1 ∉ s.2.targets
  | _ => True

/-! ## The bookings of a slot -/

variable [Double D]

section Slot

variable {e e' : SchedulerEngine π D} {P : Platform} {cellId : CellId} {t : FrameTiming}
  {cell : CellContext} {slot : SlotContext} {dl ul : List TtiRequest} {target : ℕ}

theorem SlotOutcome.pairwise_bookingsOf (h : e.SlotOutcome P cellId t cell slot dl ul e') :
    (bookingsOf target (dl ++ ul)).Pairwise Booking.Apart := by
  obtain ⟨ranked, hranking, hul⟩ := h.ul_eq
  have hfilter := h.filter_direction false
  rw [if_neg Bool.false_ne_true] at hfilter
  rw [bookingsOf, hfilter, hul, openRequests, requests]
  split
  · split
    · exact List.Pairwise.nil
    · rw [List.flatMap_singleton, List.pairwise_map]
      refine (grantedPdus_pairwise e.config).imp ?_
      intro p q hle _
      exact not_covers_of_le hle
  · exact List.Pairwise.nil

theorem SlotOutcome.exists_coversFirst (h : e.SlotOutcome P cellId t cell slot dl ul e')
    (hcompetes : e.competes P cellId t false = true) :
    ∃ b ∈ bookingsOf target (dl ++ ul), b.slot = target ∧ b.CoversFirst := by
  obtain ⟨r, hr, hdir⟩ := h.exists_request_of_competes hcompetes
  obtain ⟨ranked, hranking, hpdus⟩ := (h.sends hr).pdus
  obtain ⟨pdu, hpdu, hstart⟩ :=
    exists_grantedPdu_first hranking (hpdus ▸ (h.sends hr).pdus_ne)
  obtain ⟨_, _, start, width, _, _, _, rfl, hpos, _⟩ := mem_grantedPdus hranking hpdu
  refine ⟨_, List.mem_flatMap.mpr ⟨r, List.mem_filter.mpr ⟨hr, ?_⟩,
    List.mem_map_of_mem (hpdus ▸ hpdu)⟩, rfl, ⟨le_rfl, ?_⟩, ?_⟩
  · rw [hdir, beq_self_eq_true]
  · change 2 < 2 + 12
    decide
  · change start = 0 at hstart
    change start ≤ 0 ∧ 0 < start + width
    omega

theorem SlotOutcome.competes_of_mem (h : e.SlotOutcome P cellId t cell slot dl ul e')
    {b : Booking} (hb : b ∈ bookingsOf target (dl ++ ul)) :
    b.slot = target ∧ e.competes P cellId t false = true := by
  obtain ⟨r, hr, hpdu⟩ := List.mem_flatMap.mp hb
  obtain ⟨hmem, hdir⟩ := List.mem_filter.mp hr
  obtain ⟨pdu, _, rfl⟩ := List.mem_map.mp hpdu
  exact ⟨rfl, beq_iff_eq.mp hdir ▸ h.competes hmem⟩

omit [Double D] in
theorem not_apart_of_coversFirst {a b : Booking} (hslot : a.slot = b.slot)
    (ha : a.CoversFirst) (hb : b.CoversFirst) : ¬ a.Apart b :=
  fun h ↦ h hslot _ _ ⟨ha, hb⟩

end Slot

/-! ## Runs -/

/-- The bookings are apart and made for the targets, and in each target one of them covers
the first cell. -/
structure Anchored (b : Bookings) : Prop where
  apart : b.booked.Pairwise Booking.Apart
  slot_mem : ∀ a ∈ b.booked, a.slot ∈ b.targets
  first : ∀ slot ∈ b.targets, ∃ a ∈ b.booked, a.slot = slot ∧ a.CoversFirst

theorem anchored_empty : Anchored {} where
  apart := List.Pairwise.nil
  slot_mem _ h := by cases h
  first _ h := by cases h

/-- The bookings of a slot stay apart from those before exactly if its target is fresh. -/
theorem Anchored.append {b : Bookings} (hb : Anchored b) {new : List Booking} (target : ℕ)
    (competes : Bool) (hnew : new.Pairwise Booking.Apart)
    (hslot : ∀ a ∈ new, a.slot = target ∧ competes = true)
    (hfirst : competes = true → ∃ a ∈ new, a.slot = target ∧ a.CoversFirst) :
    ((b.booked ++ new).Pairwise Booking.Apart ↔ (competes = true → target ∉ b.targets)) ∧
      ((b.booked ++ new).Pairwise Booking.Apart →
        Anchored ⟨b.booked ++ new, if competes then target :: b.targets else b.targets⟩) := by
  constructor
  · rw [List.pairwise_append]
    constructor
    · rintro ⟨_, _, hcross⟩ hcompetes hmem
      obtain ⟨a, ha, hslot_a, hfirst_a⟩ := hb.first target hmem
      obtain ⟨c, hc, hslot_c, hfirst_c⟩ := hfirst hcompetes
      exact not_apart_of_coversFirst (hslot_a.trans hslot_c.symm) hfirst_a hfirst_c
        (hcross a ha c hc)
    · intro hfresh
      refine ⟨hb.apart, hnew, fun a ha c hc hsame ↦ ?_⟩
      obtain ⟨hslot_c, hcompetes⟩ := hslot c hc
      exact absurd (hslot_c ▸ hsame ▸ hb.slot_mem a ha) (hfresh hcompetes)
  · intro hapart
    cases competes with
    | false =>
        have hnil : new = [] := List.eq_nil_iff_forall_not_mem.mpr fun a ha ↦ by
          cases (hslot a ha).2
        rw [hnil, List.append_nil]
        exact hb
    | true =>
        refine ⟨hapart, fun a ha ↦ ?_, fun slot hmem ↦ ?_⟩
        · rcases List.mem_append.mp ha with ha | ha
          · exact List.mem_cons_of_mem _ (hb.slot_mem a ha)
          · exact (hslot a ha).1 ▸ List.mem_cons_self
        · rcases List.mem_cons.mp hmem with rfl | hmem
          · obtain ⟨a, ha, hrest⟩ := hfirst rfl
            exact ⟨a, List.mem_append_right _ ha, hrest⟩
          · obtain ⟨a, ha, hrest⟩ := hb.first slot hmem
            exact ⟨a, List.mem_append_left _ ha, hrest⟩

variable [IPolicyManager π D]

theorem Anchored.slot {slotsPerFrame : ℕ} (hpos : 0 < slotsPerFrame) (hle : slotsPerFrame ≤ 256)
    {e e' : SchedulerEngine π D} {P : Platform} {cellId : CellId} {t : FrameTiming} {now : ℕ}
    {b : Bookings} (hb : Anchored b) (ht : t.IsAt slotsPerFrame now)
    (h : (e.onSlotIndication P cellId t).run none = .ok e') :
    ((b.booked ++ bookingsOf (e.uplinkTarget now) (e.emitted e')).Pairwise Booking.Apart ↔
      (e.competes P cellId t false = true → e.uplinkTarget now ∉ b.targets)) ∧
    ((b.booked ++ bookingsOf (e.uplinkTarget now) (e.emitted e')).Pairwise Booking.Apart →
      Anchored ⟨b.booked ++ bookingsOf (e.uplinkTarget now) (e.emitted e'),
        if e.competes P cellId t false then e.uplinkTarget now :: b.targets else b.targets⟩) ∧
    ∀ r ∈ e.emitted e', r.isDownlink = false →
      r.timing.IsAt slotsPerFrame (e.uplinkTarget now) := by
  rcases onSlotIndication_ok h with ⟨hnone, rfl⟩ | ⟨cell, slot, dl, ul, houtcome⟩
  · have hemitted : e.emitted { e with
        stats := { e.stats with slotsSkipped := e.stats.slotsSkipped + 1 } } = [] :=
      emitted_eq_nil rfl
    have hcompetes : e.competes P cellId t false = false := by
      rw [competes, hnone]
    rw [hemitted, hcompetes]
    have happend := hb.append (e.uplinkTarget now) false List.Pairwise.nil
      (fun _ ha ↦ by cases ha) (fun h ↦ by cases h)
    exact ⟨happend.1, happend.2, fun _ hr ↦ by cases hr⟩
  · rw [houtcome.emitted_eq]
    have happend := hb.append (e.uplinkTarget now) (e.competes P cellId t false)
      houtcome.pairwise_bookingsOf (fun _ ↦ houtcome.competes_of_mem) houtcome.exists_coversFirst
    refine ⟨happend.1, happend.2, fun r hr hdir ↦ ?_⟩
    rw [(houtcome.sends hr).timing, hdir]
    exact ht.plus hpos hle _

theorem Anchored.step {slotsPerFrame : ℕ} (hpos : 0 < slotsPerFrame) (hle : slotsPerFrame ≤ 256)
    {cellId : CellId} {s s' : SchedulerEngine π D × Bookings} {i : SlottedEvent π}
    (htimed : IsTimedFor cellId slotsPerFrame i) (hs : Anchored s.2)
    (h : monitored (fun e i ↦ next e i.2) (observeBookings cellId) s i = some s') :
    (BooksApart cellId slotsPerFrame s i s' ↔ TargetsFresh cellId s i s') ∧
      (BooksApart cellId slotsPerFrame s i s' → Anchored s'.2) := by
  obtain ⟨hnext, hobserve⟩ := monitored_eq_some.mp h
  have hrun := next_eq_some.mp hnext
  rw [observeBookings] at hobserve
  rw [IsTimedFor, IsTimed] at htimed
  rw [BooksApart, TargetsFresh]
  cases hev : i.2.2 with
  | slotIndication c t =>
      rw [hev] at hrun hobserve htimed
      by_cases hc : c = cellId
      · obtain ⟨hiff, hanchored, hnames⟩ := hs.slot hpos hle (htimed (congrArg some hc)) hrun
        simp only [if_pos hc] at hobserve
        simp only [hobserve]
        exact ⟨⟨fun h _ ↦ hiff.mp h.1, fun h ↦ ⟨hiff.mpr (h hc), fun _ ↦ hnames⟩⟩,
          fun h ↦ hanchored h.1⟩
      · simp only [if_neg hc] at hobserve
        rw [hobserve]
        exact ⟨⟨fun _ heq ↦ (hc heq).elim, fun _ ↦ ⟨hs.apart, fun heq ↦ (hc heq).elim⟩⟩,
          fun _ ↦ hs⟩
  | _ =>
      rw [hev] at hobserve
      rw [hobserve]
      exact ⟨⟨fun _ ↦ trivial, fun _ ↦ ⟨hs.apart, trivial⟩⟩, fun _ ↦ hs⟩

/-- In every run, the uplink transmissions of a cell that are for one slot share no block on
a common symbol, if and only if the slots for which its users compete have different
targets. -/
theorem booksApart_iff {slotsPerFrame : ℕ} (hpos : 0 < slotsPerFrame)
    (hle : slotsPerFrame ≤ 256) (cellId : CellId) (config : SchedulerConfig)
    {is : List (SlottedEvent π)} (htimed : ∀ i ∈ is, IsTimedFor cellId slotsPerFrame i) :
    Always (monitored (fun e i ↦ next e i.2) (observeBookings cellId))
        (BooksApart cellId slotsPerFrame) ((create config : SchedulerEngine π D), {}) is ↔
      Always (monitored (fun e i ↦ next e i.2) (observeBookings cellId))
        (TargetsFresh cellId) ((create config : SchedulerEngine π D), {}) is :=
  always_iff_of_inputs (fun s ↦ Anchored s.2)
    (fun _ _ _ htimed hs h ↦ hs.step hpos hle htimed h) anchored_empty htimed

end SchedulerEngine

/-! ## A lowered offset -/

namespace RationalEngine

open SchedulerEngine

/-- One user with a scheduling request in the only cell, and two slots in a row, before the
second of which the scheduling offset is set to `offset`. -/
def reconfiguredRun (offset : ℕ) : List (SlottedEvent (BuiltinPolicy ℚ)) :=
  [(0, .plain, .addCell (.fdd 1 4) .cleared), (0, .plain, .ueConfig { rnti := 7, cellId := 1 }),
    (0, .plain, .sr ⟨7, 1⟩), (0, .plain, .slotIndication 1 {}),
    (0, .plain, .updateConfig { schedulingOffsetSlots := offset }),
    (1, .plain, .slotIndication 1 { slot := 1 })]

theorem booksApart_iff_reconfigured :
    Always (monitored (fun (e : RationalEngine) i ↦ next e i.2) (observeBookings 1))
        (BooksApart 1 10) (create {}, {}) (reconfiguredRun 3) ↔
      Always (monitored (fun (e : RationalEngine) i ↦ next e i.2) (observeBookings 1))
        (TargetsFresh 1) (create {}, {}) (reconfiguredRun 3) :=
  booksApart_iff (by decide) (by decide) 1 {} (by decide +kernel)

/-- Whether no two bookings of one slot cover the first cell. -/
def FirstsApart (b : Bookings) : Prop :=
  b.booked.Pairwise fun a c ↦ a.slot = c.slot → ¬ (a.CoversFirst ∧ c.CoversFirst)

instance (b : Booking) : Decidable b.CoversFirst :=
  inferInstanceAs (Decidable ((_ ≤ _ ∧ _ < _) ∧ _ ≤ _ ∧ _ < _))

instance (b : Bookings) : Decidable (FirstsApart b) := by
  unfold FirstsApart
  infer_instance

theorem firstsApart_of_booksApart {s : RationalEngine × Bookings}
    {is : List (SlottedEvent (BuiltinPolicy ℚ))}
    (h : Always (monitored (fun e i ↦ next e i.2) (observeBookings 1)) (BooksApart 1 10) s is) :
    Always (monitored (fun e i ↦ next e i.2) (observeBookings 1))
      (fun _ _ s' ↦ FirstsApart s'.2) s is := by
  refine h.imp (fun _ ↦ True) ?_ trivial
  intro s i s' _ _ hbooks
  refine ⟨trivial, hbooks.1.imp ?_⟩
  intro a c hapart hslot
  exact hapart hslot _ _

/-- With the default offset of two slots, slot 0 allocates for slot 2; with an offset of one
slot, slot 1 allocates the same blocks for slot 2 again. -/
theorem not_booksApart :
    ¬ Always (monitored (fun (e : RationalEngine) i ↦ next e i.2) (observeBookings 1))
      (BooksApart 1 10) (create {}, {}) (reconfiguredRun 1) := by
  intro h
  have hfirsts := firstsApart_of_booksApart h
  revert hfirsts
  decide +kernel

end RationalEngine

end NrScheduler
