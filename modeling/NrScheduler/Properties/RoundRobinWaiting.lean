import NrScheduler.Engine.PolicyHistory
import NrScheduler.Engine.RoundRobinOrder
import NrScheduler.Lib.Runs

/-!
# Waiting under the round robin policy

A user with data that contends for a direction is passed over by each other user at most once
before it is served, within a second of slots.  The history is shared by both directions, so
"served" means that a PDU of either direction is sent.
-/

namespace NrScheduler

open Runs

/-! ## Time -/

/-- The slots follow each other, and all lie within a thousand slots from `start` on. -/
structure Clocked {π : Type} (start : ℕ) (is : List (Platform × Event π)) : Prop where
  forward : (is.filterMap fun i ↦ i.2.slotNumber).Pairwise (· ≤ ·)
  within : ∀ n ∈ is.filterMap fun i ↦ i.2.slotNumber, start ≤ n ∧ n < start + 1000

theorem Clocked.tail {π : Type} {start : ℕ} {i : Platform × Event π}
    {is : List (Platform × Event π)} (h : Clocked start (i :: is)) : Clocked start is := by
  have hsub : (is.filterMap fun i ↦ i.2.slotNumber).Sublist
      ((i :: is).filterMap fun i ↦ i.2.slotNumber) :=
    (List.sublist_cons_self i is).filterMap _
  exact ⟨h.forward.sublist hsub, fun n hn ↦ h.within n (hsub.subset hn)⟩

theorem Clocked.head {π : Type} {start : ℕ} {P : Platform} {c : CellId} {t : FrameTiming}
    {is : List (Platform × Event π)} (h : Clocked start ((P, .slotIndication c t) :: is)) :
    start ≤ t.absoluteSlot ∧ t.absoluteSlot < start + 1000 ∧
      ∀ n ∈ is.filterMap fun i ↦ i.2.slotNumber, t.absoluteSlot ≤ n := by
  obtain ⟨hstart, hend⟩ := h.within t.absoluteSlot List.mem_cons_self
  exact ⟨hstart, hend, (List.pairwise_cons.mp h.forward).1⟩

namespace SchedulerEngine

variable {D : Type} {e₀ e e' : SchedulerEngine (BuiltinPolicy D) D}

/-! ## Who waits and who is served -/

/-- The RNTIs that PDUs are sent to between two states of a run. -/
def servedRntis (e e' : SchedulerEngine (BuiltinPolicy D) D) : List Rnti :=
  (pdusIn (e.emitted e')).map TtiPdu.rnti

/-- The event is a slot of the cell with room in a direction that the user contends for with
data. -/
def waits (c : CellId) (isDl : Bool) (r : Rnti) (e : SchedulerEngine (BuiltinPolicy D) D)
    (i : Platform × Event (BuiltinPolicy D)) : Bool :=
  match i.2 with
  | .slotIndication c' t =>
      c' == c && e.contends c t isDl r && (e.cells.lookup c).any fun cell ↦
        decide (0 < cell.config.numRbs) && (cell.ueRepo.ue? r).any fun ue ↦ ue.buffer isDl != 0
  | _ => false

theorem waits_eq_true {c : CellId} {isDl : Bool} {r : Rnti}
    {i : Platform × Event (BuiltinPolicy D)} (h : waits c isDl r e i = true) :
    ∃ t cell ue, i.2 = .slotIndication c t ∧ e.cells.lookup c = some cell ∧
      0 < cell.config.numRbs ∧ cell.ueRepo.ue? r = some ue ∧ ue.buffer isDl ≠ 0 ∧
      e.contends c t isDl r = true := by
  rw [waits] at h
  split at h
  · rename_i c' t hev
    simp only [Bool.and_eq_true, beq_iff_eq, Option.any_eq_true, decide_eq_true_eq,
      bne_iff_ne] at h
    obtain ⟨⟨rfl, hcontends⟩, cell, hlookup, hrbs, ue, hue, hbuffer⟩ := h
    exact ⟨t, cell, ue, hev, hlookup, hrbs, hue, hbuffer, hcontends⟩
  · cases h

theorem mem_servedRntis_append {reqs more : List TtiRequest} (h : e.sent = e₀.sent ++ reqs)
    (h' : e'.sent = e.sent ++ more) (r : Rnti) :
    r ∈ servedRntis e₀ e' ↔ r ∈ servedRntis e₀ e ∨ r ∈ (pdusIn more).map TtiPdu.rnti := by
  rw [servedRntis, servedRntis, emitted_eq h, emitted_eq (h'.trans (by rw [h, List.append_assoc])),
    pdusIn, pdusIn, pdusIn, List.flatMap_append, List.map_append, List.mem_append]

variable [ExactDouble D]

/-! ## The run -/

/-- The run has sent to the user, and forgotten nothing. -/
def Served (e₀ : SchedulerEngine (BuiltinPolicy D) D) (r : Rnti)
    (e : SchedulerEngine (BuiltinPolicy D) D) : Prop :=
  (∃ reqs, e.sent = e₀.sent ++ reqs) ∧ r ∈ servedRntis e₀ e

theorem Served.next {i : Platform × Event (BuiltinPolicy D)} {r : Rnti} (h : Served e₀ r e)
    (hnext : e.next i = some e') : Served e₀ r e' := by
  obtain ⟨⟨reqs, hreqs⟩, hr⟩ := h
  obtain ⟨more, hmore⟩ := sent_extends hnext
  refine ⟨⟨reqs ++ more, by rw [hmore, hreqs, List.append_assoc]⟩, ?_⟩
  exact (mem_servedRntis_append hreqs hmore r).mpr (Or.inl hr)

/-- As long as the user waits, the history holds a recent slot for everyone served so far and
an older one, if any, for the user. -/
structure Passed (e₀ : SchedulerEngine (BuiltinPolicy D) D) (start : ℕ) (r : Rnti)
    (e : SchedulerEngine (BuiltinPolicy D) D)
    (is : List (Platform × Event (BuiltinPolicy D))) (p : RoundRobinPolicy) : Prop where
  consistent : e.Consistent
  config : e.config = e₀.config
  sent : ∃ reqs, e.sent = e₀.sent ++ reqs
  unserved : r ∉ servedRntis e₀ e
  keeps : ∀ i ∈ is, i.2.keepsPolicy = true
  clocked : Clocked start is
  policyManager : e.policyManager = .roundRobin p
  old : ∀ last, p.lastScheduled.lookup r = some last → last < start
  recent : ∀ v ∈ servedRntis e₀ e, ∃ last, p.lastScheduled.lookup v = some last ∧ start ≤ last ∧
    ∀ n ∈ is.filterMap fun i ↦ i.2.slotNumber, last ≤ n

variable {start : ℕ} {r : Rnti} {i : Platform × Event (BuiltinPolicy D)}
  {is : List (Platform × Event (BuiltinPolicy D))} {p : RoundRobinPolicy}

theorem age_eq {now last : ℕ} (hlast : last ≤ now) (hnow : now < 2 ^ 32) :
    (now + 2 ^ 32 - last) % 2 ^ 32 = now - last := by
  omega

omit [ExactDouble D] in
/-- The user that waits outranks everyone served so far. -/
theorem Passed.rank_lt {P : Platform} {c : CellId} {t : FrameTiming}
    (h : Passed e₀ start r e ((P, .slotIndication c t) :: is) p) (hstart : start + 1000 ≤ 2 ^ 32)
    {before : List TtiPdu} (hbefore : r ∉ before.map TtiPdu.rnti) {ue ue₁ : UeContext}
    (hue : ue.rnti = r) {isDl : Bool} (hbuffer : ue.buffer isDl ≠ 0)
    (hserved : ue₁.rnti ∈ servedRntis e₀ e ∨ ue₁.rnti ∈ before.map TtiPdu.rnti) :
    ((p.onSlotStart t).serve before).rank ue₁ isDl <
      ((p.onSlotStart t).serve before).rank ue isDl := by
  obtain ⟨hle, hlt, _⟩ := h.clocked.head
  have hnow : ((p.onSlotStart t).serve before).currentSlot = t.absoluteSlot :=
    RoundRobinPolicy.currentSlot_serve _ _
  -- what was served is younger than the start, and what waits is older
  have hyoung : ((p.onSlotStart t).serve before).rank ue₁ isDl ≤ t.absoluteSlot - start := by
    rw [RoundRobinPolicy.rank]
    split
    · exact Nat.zero_le _
    · obtain ⟨last, hlookup, hlast, hnext⟩ : ∃ last,
          ((p.onSlotStart t).serve before).lastScheduled.lookup ue₁.rnti = some last ∧
            start ≤ last ∧ last ≤ t.absoluteSlot := by
        rw [RoundRobinPolicy.lookup_serve]
        by_cases hmem : ue₁.rnti ∈ before.map TtiPdu.rnti
        · exact ⟨t.absoluteSlot, if_pos hmem, hle, le_rfl⟩
        · obtain ⟨last, hlookup, hlast, hnext⟩ := h.recent _ (hserved.resolve_right hmem)
          exact ⟨last, (if_neg hmem).trans hlookup, hlast, hnext _ List.mem_cons_self⟩
      simp only [hlookup, hnow]
      have hage := age_eq hnext (by omega)
      omega
  refine hyoung.trans_lt ?_
  rw [RoundRobinPolicy.rank, if_neg hbuffer, RoundRobinPolicy.lookup_serve, hue, if_neg hbefore]
  cases hlookup : p.lastScheduled.lookup r with
  | none =>
      change t.absoluteSlot - start < _
      simp only [RoundRobinPolicy.onSlotStart, hlookup]
      omega
  | some last =>
      have hold := h.old last hlookup
      simp only [RoundRobinPolicy.onSlotStart, hlookup, RoundRobinPolicy.currentSlot_serve]
      have hage : (t.absoluteSlot + 2 ^ 32 - last) % 2 ^ 32 = t.absoluteSlot - last :=
        age_eq (by omega) (by omega)
      omega

omit [ExactDouble D] in
/-- A slot that does not serve the user leaves it waiting. -/
theorem Passed.slot {P : Platform} {c : CellId} {t : FrameTiming}
    (h : Passed e₀ start r e ((P, .slotIndication c t) :: is) p) {reqs : List TtiRequest}
    (hinv : e'.Consistent) (hsent : Sent e (p.onSlotStart t) reqs e')
    (hunserved : r ∉ servedRntis e₀ e') :
    Passed e₀ start r e' is ((p.onSlotStart t).serve (pdusIn reqs)) := by
  obtain ⟨hle, _, hnext⟩ := h.clocked.head
  obtain ⟨earlier, hearlier⟩ := h.sent
  have hserved := mem_servedRntis_append hearlier hsent.sent
  refine
    { consistent := hinv
      config := hsent.config.trans h.config
      sent := ⟨earlier ++ reqs, by rw [hsent.sent, hearlier, List.append_assoc]⟩
      unserved := hunserved
      keeps := fun i hi ↦ h.keeps i (List.mem_cons_of_mem _ hi)
      clocked := h.clocked.tail
      policyManager := hsent.policyManager
      old := ?_
      recent := ?_ }
  · intro last hlast
    rw [RoundRobinPolicy.lookup_serve, if_neg fun hr ↦ hunserved ((hserved r).mpr (Or.inr hr))]
      at hlast
    exact h.old last hlast
  · intro v hv
    rw [RoundRobinPolicy.lookup_serve]
    by_cases hmem : v ∈ (pdusIn reqs).map TtiPdu.rnti
    · exact ⟨t.absoluteSlot, if_pos hmem, hle, hnext⟩
    · obtain ⟨last, hlookup, hlast, hlater⟩ := h.recent v (((hserved v).mp hv).resolve_right hmem)
      exact ⟨last, (if_neg hmem).trans hlookup, hlast,
        fun n hn ↦ hlater n (List.mem_cons_of_mem _ hn)⟩

omit [ExactDouble D] in
/-- An event that sends nothing and keeps the policy leaves the user waiting. -/
theorem Passed.quiet (h : Passed e₀ start r e (i :: is) p) (hinv : e'.Consistent)
    (hpolicy : e'.policyManager = e.policyManager) (hconfig : e'.config = e.config)
    (hsent : e'.sent = e.sent) : Passed e₀ start r e' is p := by
  have hserved : servedRntis e₀ e' = servedRntis e₀ e := by
    rw [servedRntis, servedRntis, emitted, emitted, hsent]
  refine
    { consistent := hinv
      config := hconfig.trans h.config
      sent := hsent ▸ h.sent
      unserved := hserved ▸ h.unserved
      keeps := fun i hi ↦ h.keeps i (List.mem_cons_of_mem _ hi)
      clocked := h.clocked.tail
      policyManager := hpolicy.trans h.policyManager
      old := h.old
      recent := ?_ }
  intro v hv
  obtain ⟨last, hlookup, hlast, hlater⟩ := h.recent v (hserved ▸ hv)
  refine ⟨last, hlookup, hlast, fun n hn ↦ hlater n ?_⟩
  have hsub : (is.filterMap fun i ↦ i.2.slotNumber).Sublist
      ((i :: is).filterMap fun i ↦ i.2.slotNumber) :=
    (List.sublist_cons_self i is).filterMap _
  exact hsub.subset hn

theorem servedRntis_subset_next (hsent : ∃ reqs, e.sent = e₀.sent ++ reqs)
    (hnext : e.next i = some e') :
    (servedRntis e₀ e).toFinset ⊆ (servedRntis e₀ e').toFinset := by
  obtain ⟨reqs, hreqs⟩ := hsent
  obtain ⟨more, hmore⟩ := sent_extends hnext
  intro v hv
  rw [List.mem_toFinset] at hv ⊢
  exact (mem_servedRntis_append hreqs hmore v).mpr (Or.inl hv)

/-- A step serves the user that waits, or it leaves it waiting and serves a new one if it is
a slot the user waits in. -/
theorem Passed.next {c : CellId} {isDl : Bool} (h : Passed e₀ start r e (i :: is) p)
    (hconfig : e₀.config.IsRoundRobin) (hlimit : 0 < e₀.config.limit isDl)
    (hstart : start + 1000 ≤ 2 ^ 32) (hnext : e.next i = some e') :
    Served e₀ r e' ∨ (∃ p', Passed e₀ start r e' is p') ∧
      (if waits c isDl r e i then 1 else 0) + (servedRntis e₀ e).toFinset.card ≤
        (servedRntis e₀ e').toFinset.card := by
  have hinv : e'.Consistent := h.consistent.step hnext
  have hsubset := servedRntis_subset_next h.sent hnext
  have hcard := Finset.card_le_card hsubset
  have hidle : waits c isDl r e i = false →
      (if waits c isDl r e i then 1 else 0) + (servedRntis e₀ e).toFinset.card ≤
        (servedRntis e₀ e').toFinset.card := by
    intro hwaits
    rw [hwaits, if_neg Bool.false_ne_true, Nat.zero_add]
    exact hcard
  by_cases hserved : r ∈ servedRntis e₀ e'
  · obtain ⟨reqs, hreqs⟩ := h.sent
    obtain ⟨more, hmore⟩ := sent_extends hnext
    exact Or.inl ⟨⟨reqs ++ more, by rw [hmore, hreqs, List.append_assoc]⟩, hserved⟩
  right
  cases hslot : i.2.slotNumber with
  | none =>
      obtain ⟨hpolicy, hsame, hsent⟩ :=
        next_quiet h.consistent hnext (h.keeps i List.mem_cons_self) hslot
      refine ⟨⟨p, h.quiet hinv hpolicy hsame hsent⟩, hidle (Bool.eq_false_iff.mpr ?_)⟩
      intro hwaits
      obtain ⟨t, _, _, hev, _⟩ := waits_eq_true hwaits
      rw [hev] at hslot
      cases hslot
  | some n =>
      obtain ⟨P, ev⟩ := i
      obtain ⟨c', t, rfl⟩ : ∃ c' t, ev = .slotIndication c' t := by
        cases ev with
        | slotIndication c' t => exact ⟨c', t, rfl⟩
        | _ => cases hslot
      have hrun := next_eq_some.mp hnext
      have hround : e.config.IsRoundRobin := h.config ▸ hconfig
      cases hlookup : e.cells.lookup c' with
      | none =>
          obtain rfl := Except.ok.inj ((onSlotIndication_skipped hlookup P t).symm.trans hrun)
          refine ⟨⟨p, h.quiet hinv rfl rfl rfl⟩, hidle (Bool.eq_false_iff.mpr ?_)⟩
          intro hwaits
          obtain ⟨_, cell, _, hev, hcell, _⟩ := waits_eq_true hwaits
          cases hev
          rw [hlookup] at hcell
          cases hcell
      | some cell =>
          obtain ⟨reqs, hsent, _⟩ := onSlotIndication_roundRobin hround h.policyManager hlookup hrun
          refine ⟨⟨_, h.slot hinv hsent hserved⟩, ?_⟩
          cases hwaits : waits c isDl r e (P, .slotIndication c' t) with
          | false => exact hwaits ▸ hidle hwaits
          | true =>
              obtain ⟨t', cell', ue, hev, hcell, hrbs, hue, hbuffer, hcontends⟩ :=
                waits_eq_true hwaits
              cases hev
              obtain ⟨reqs, before, hsent, hprefix, pdu, hpdu, ue₁, hue₁, hrank⟩ :=
                slot_first hround h.policyManager h.consistent hcell (h.config ▸ hlimit) hrbs hue
                  hcontends hrun
              obtain ⟨earlier, hearlier⟩ := h.sent
              have hmem := mem_servedRntis_append hearlier hsent.sent
              have hnew : pdu.rnti ∈ servedRntis e₀ e' :=
                (hmem pdu.rnti).mpr (Or.inr (List.mem_map_of_mem hpdu))
              have hbefore : r ∉ (pdusIn before).map TtiPdu.rnti := by
                intro hr
                obtain ⟨after, rfl⟩ := hprefix
                apply hserved
                refine (hmem r).mpr (Or.inr ?_)
                rw [pdusIn, List.flatMap_append, List.map_append]
                exact List.mem_append_left _ hr
              -- whoever is served first has not been served before
              have hfresh : pdu.rnti ∉ servedRntis e₀ e := by
                intro hold
                refine absurd hrank (not_le.mpr ?_)
                exact h.rank_lt hstart hbefore (UeRepository.ue?_rnti hue) hbuffer
                  (Or.inl (UeRepository.ue?_rnti hue₁ ▸ hold))
              have hlt := Finset.card_lt_card ((Finset.ssubset_iff_of_subset hsubset).mpr
                ⟨pdu.rnti, List.mem_toFinset.mpr hnew, fun hold ↦
                  hfresh (List.mem_toFinset.mp hold)⟩)
              rw [if_pos rfl]
              omega

theorem consistent_after (config : SchedulerConfig) (events : List (Event (BuiltinPolicy ℚ))) :
    (RationalEngine.after config events).Consistent := by
  rw [RationalEngine.after]
  cases hrun : (events.map fun ev ↦ (Platform.plain, ev)).foldlM next
      (create config : RationalEngine) with
  | none => exact consistent_create config
  | some e =>
      exact foldlM_of_stable (fun _ _ _ h hnext ↦ Consistent.step h hnext)
        (consistent_create config) hrun

/-- A user that is passed over in more slots than there are other users to serve is served
in one of them. -/
theorem served_of_waits {e₀ e' : SchedulerEngine (BuiltinPolicy D) D} {p : RoundRobinPolicy}
    {r : Rnti} {is : List (Platform × Event (BuiltinPolicy D))} (c : CellId) (start : ℕ)
    (isDl : Bool) (others : Finset Rnti) (hinv : e₀.Consistent)
    (hconfig : e₀.config.IsRoundRobin) (hlimit : 0 < e₀.config.limit isDl)
    (hpolicy : e₀.policyManager = .roundRobin p) (hstart : start + 1000 ≤ 2 ^ 32)
    (hold : ∀ last, p.lastScheduled.lookup r = some last → last < start)
    (hkeeps : ∀ i ∈ is, i.2.keepsPolicy = true) (hclocked : Clocked start is)
    (hrun : is.foldlM next e₀ = some e')
    (hothers : ∀ v ∈ servedRntis e₀ e', v ≠ r → v ∈ others)
    (hwaits : others.card < countMarked next (waits c isDl r) e₀ is) :
    r ∈ servedRntis e₀ e' := by
  have hnone : servedRntis e₀ e₀ = [] := by
    rw [servedRntis, emitted_eq_nil rfl]
    rfl
  have hpassed : Passed e₀ start r e₀ is p :=
    { consistent := hinv
      config := rfl
      sent := ⟨[], (List.append_nil _).symm⟩
      unserved := by simp [hnone]
      keeps := hkeeps
      clocked := hclocked
      policyManager := hpolicy
      old := hold
      recent := by simp [hnone] }
  have hreached : Served e₀ r e' ∨ countMarked next (waits c isDl r) e₀ is +
      (servedRntis e₀ e₀).toFinset.card ≤ (servedRntis e₀ e').toFinset.card :=
    reached_or_countMarked_le (fun e is ↦ ∃ p, Passed e₀ start r e is p) (Served e₀ r)
      (fun e ↦ (servedRntis e₀ e).toFinset.card)
      (fun _ _ _ hserved hnext ↦ hserved.next hnext)
      (fun _ _ _ _ h hnext ↦ h.elim fun _ h ↦ h.next hconfig hlimit hstart hnext)
      ⟨p, hpassed⟩ hrun
  rcases hreached with hserved | hcount
  · exact hserved.2
  · by_contra hr
    have hle : (servedRntis e₀ e').toFinset.card ≤ others.card := by
      apply Finset.card_le_card
      intro v hv
      have hv' := List.mem_toFinset.mp hv
      exact hothers v hv' fun heq ↦ hr (heq ▸ hv')
    omega

theorem served_of_waits_third :
    let user (rnti : Rnti) : List (Event (BuiltinPolicy ℚ)) :=
      [.ueConfig { rnti := rnti, cellId := 1 }, .dlData ⟨rnti, 1, 1, 100⟩]
    let slot (n : ℕ) : Event (BuiltinPolicy ℚ) := .slotIndication 1 { slot := n }
    let e₀ : RationalEngine := .after { strategy := .roundRobin, enableQos := false }
      (.addCell (.fdd 1 1) .cleared :: (user 7 ++ user 8 ++ user 9))
    ∃ e', (onPlain [slot 0, slot 1, slot 2]).foldlM next e₀ = some e' ∧
      7 ∈ servedRntis e₀ e' := by
  intro user slot e₀
  have hserved : ((onPlain [slot 0, slot 1, slot 2]).foldlM next e₀).any (fun e' ↦
      (servedRntis e₀ e').all (· ∈ [7, 8, 9])) = true := by
    decide +kernel
  obtain ⟨e', hrun, hrntis⟩ := (Option.any_eq_true _ _).mp hserved
  refine ⟨e', hrun, ?_⟩
  apply served_of_waits (p := {}) 1 0 true {8, 9} ?_ ⟨rfl, rfl, rfl⟩ (by decide +kernel) rfl
    (by decide) (by rintro _ ⟨⟩) (by decide) ⟨by decide, by decide⟩ hrun ?_ (by decide +kernel)
  · exact consistent_after _ _
  · intro v hv hne
    have hmem := of_decide_eq_true (List.all_eq_true.mp hrntis v hv)
    simp only [List.mem_cons, List.not_mem_nil, or_false, hne, false_or] at hmem
    simpa using hmem

end SchedulerEngine

end NrScheduler
