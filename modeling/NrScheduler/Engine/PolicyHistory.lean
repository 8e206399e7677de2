import NrScheduler.Engine.RoundRobinSlot
import NrScheduler.Engine.Transmissions
import NrScheduler.Lib.SlidingWindow

/-!
# What a policy remembers

Ranking leaves the built-in policies as they are.  What changes them is the slot they are shown
and each PDU that is sent, so all that a policy knows of its users is a part of the log of
transmissions.
-/

namespace NrScheduler

open LockMonad SlidingWindow

/-! ## The log of transmissions -/

/-- A PDU with the reading of the clock and the number of the slot when it was granted. -/
structure Transmission where
  time : ℕ
  slot : ℕ
  pdu : TtiPdu

/-- The transmissions to an RNTI, oldest first. -/
def sentTo (log : List Transmission) (rnti : Rnti) : List Transmission :=
  log.filter fun x ↦ x.pdu.rnti == rnti

theorem sentTo_concat (log : List Transmission) (x : Transmission) (rnti : Rnti) :
    sentTo (log ++ [x]) rnti =
      if rnti = x.pdu.rnti then sentTo log rnti ++ [x] else sentTo log rnti := by
  rw [sentTo, List.filter_append, List.filter_singleton]
  by_cases hrnti : rnti = x.pdu.rnti
  · rw [if_pos hrnti, hrnti, beq_self_eq_true]
    rfl
  · rw [if_neg hrnti, beq_false_of_ne (Ne.symm hrnti)]
    exact List.append_nil _

def TtiPdu.sentAt (P : Platform) (slot : ℕ) (pdu : TtiPdu) : Transmission := ⟨P.now, slot, pdu⟩

/-- Time and size, as the proportional fair policy keeps them. -/
def Transmission.sample (x : Transmission) : ℕ × ℕ := (x.time, x.pdu.tbSize)

variable {D : Type} [Double D]

/-! ## The policies -/

namespace ProportionalFairPolicy

def samplesOf (p : ProportionalFairPolicy D) (rnti : Rnti) : List (ℕ × ℕ) :=
  ((p.rateHistory.lookup rnti).map RateHistory.samples).getD []

/-- The samples are what is left of the transmissions after each of them has pushed older ones
out of the window, and the average is taken over the samples. -/
structure Tracks (p : ProportionalFairPolicy D) (log : List Transmission) : Prop where
  windowMs : p.windowMs = 1000
  samples : ∀ rnti, p.samplesOf rnti =
    ((sentTo log rnti).map Transmission.sample).foldl (push Prod.fst (1000 * 1000)) []
  average : ∀ rnti, p.getAverageRate rnti = computeAvgRate (p.samplesOf rnti)

theorem tracks_create (alpha : D) : ({ alpha := alpha } : ProportionalFairPolicy D).Tracks [] where
  windowMs := rfl
  samples _ := rfl
  average _ := rfl

theorem Tracks.updateHistory {p : ProportionalFairPolicy D} {log : List Transmission}
    (h : p.Tracks log) {P : Platform} {ue : UeContext} {x : Transmission} (htime : x.time = P.now)
    (hrnti : x.pdu.rnti = ue.rnti) :
    (p.updateHistory P ue x.pdu.tbSize).Tracks (log ++ [x]) := by
  have hlookup : ∀ rnti, (p.updateHistory P ue x.pdu.tbSize).rateHistory.lookup rnti =
      if rnti = x.pdu.rnti then
        some ⟨push Prod.fst (1000 * 1000) (p.samplesOf rnti) x.sample,
          computeAvgRate (push Prod.fst (1000 * 1000) (p.samplesOf rnti) x.sample)⟩
      else p.rateHistory.lookup rnti := by
    intro rnti
    rw [ProportionalFairPolicy.updateHistory, h.windowMs, hrnti]
    by_cases heq : rnti = ue.rnti
    · rw [if_pos heq, heq, AList.lookup_insert, push, Transmission.sample, htime]
      rfl
    · rw [if_neg heq, AList.lookup_insert_ne heq]
  refine ⟨h.windowMs, fun rnti ↦ ?_, fun rnti ↦ ?_⟩
  · rw [samplesOf, hlookup, sentTo_concat]
    by_cases heq : rnti = x.pdu.rnti
    · rw [if_pos heq, if_pos heq, List.map_append, List.foldl_append, ← h.samples]
      rfl
    · rw [if_neg heq, if_neg heq]
      exact h.samples rnti
  · rw [samplesOf, getAverageRate, hlookup]
    by_cases heq : rnti = x.pdu.rnti
    · rw [if_pos heq]
      rfl
    · rw [if_neg heq]
      exact h.average rnti

end ProportionalFairPolicy

namespace BuiltinPolicy

/-- The rates a policy measures, where it does. -/
def pfPolicy? : BuiltinPolicy D → Option (ProportionalFairPolicy D)
  | .proportionalFair p => some p
  | .qosAware p => some p.pfPolicy
  | .roundRobin _ | .maxThroughput => none

/-- All that a policy knows of the users is in the log. -/
structure Tracks (policy : BuiltinPolicy D) (log : List Transmission) : Prop where
  lastScheduled : ∀ p, policy = .roundRobin p → ∀ rnti,
    p.lastScheduled.lookup rnti = (sentTo log rnti).getLast?.map Transmission.slot
  rates : ∀ p, policy.pfPolicy? = some p → p.Tracks log

/-- A policy that counts slots has been shown this one. -/
def Shows (policy : BuiltinPolicy D) (slot : ℕ) : Prop :=
  ∀ p, policy = .roundRobin p → p.currentSlot = slot

theorem tracks_create (strategy : Strategy) :
    (createPolicyManager strategy : BuiltinPolicy D).Tracks [] := by
  refine ⟨fun p hp ↦ ?_, fun p hp ↦ ?_⟩
  · cases strategy with
    | roundRobin =>
        cases hp
        exact fun _ ↦ rfl
    | _ => cases hp
  · cases strategy with
    | roundRobin | maxThroughput => cases hp
    | _ =>
        cases hp
        exact ProportionalFairPolicy.tracks_create _

variable {policy : BuiltinPolicy D} {log : List Transmission} {slot : ℕ}

omit [Double D] in
theorem shows_onSlotStart (policy : BuiltinPolicy D) (t : FrameTiming) :
    (policy.onSlotStart t).Shows t.absoluteSlot := by
  intro p hp
  cases policy with
  | roundRobin _ =>
      cases hp
      rfl
  | _ => cases hp

theorem Tracks.onSlotStart (h : policy.Tracks log) (t : FrameTiming) :
    (policy.onSlotStart t).Tracks log := by
  cases policy with
  | roundRobin p =>
      refine ⟨?_, fun _ hp ↦ (by cases hp)⟩
      rintro _ ⟨⟩
      exact h.lastScheduled p rfl
  | _ => exact h

theorem Tracks.updateHistory (h : policy.Tracks log) {x : Transmission}
    (hshows : policy.Shows x.slot) {P : Platform} {ue : UeContext} (htime : x.time = P.now)
    (hrnti : x.pdu.rnti = ue.rnti) :
    (policy.updateHistory P ue x.pdu.tbSize).Tracks (log ++ [x]) ∧
      (policy.updateHistory P ue x.pdu.tbSize).Shows x.slot := by
  cases policy with
  | roundRobin p =>
      have hslot : p.currentSlot = x.slot := hshows p rfl
      refine ⟨⟨?_, fun _ hp ↦ (by cases hp)⟩, ?_⟩
      · rintro _ ⟨⟩ rnti
        rw [RoundRobinPolicy.updateHistory, sentTo_concat, hrnti]
        by_cases heq : rnti = ue.rnti
        · rw [if_pos heq, heq, AList.lookup_insert, List.getLast?_concat, hslot]
          rfl
        · rw [if_neg heq, AList.lookup_insert_ne heq]
          exact h.lastScheduled p rfl rnti
      · rintro _ ⟨⟩
        exact hslot
  | proportionalFair p =>
      refine ⟨⟨fun _ hp ↦ (by cases hp), ?_⟩, fun _ hp ↦ (by cases hp)⟩
      rintro _ ⟨⟩
      exact (h.rates p rfl).updateHistory htime hrnti
  | maxThroughput =>
      exact ⟨⟨fun _ hp ↦ (by cases hp), fun _ hp ↦ (by cases hp)⟩, fun _ hp ↦ (by cases hp)⟩
  | qosAware p =>
      refine ⟨⟨fun _ hp ↦ (by cases hp), ?_⟩, fun _ hp ↦ (by cases hp)⟩
      rintro _ ⟨⟩
      exact (h.rates p.pfPolicy rfl).updateHistory htime hrnti

end BuiltinPolicy

/-! ## Slots -/

/-- The slot number that the event shows to the policy. -/
def Event.slotNumber {π : Type} : Event π → Option ℕ
  | .slotIndication _ t => some t.absoluteSlot
  | _ => none

/-- The event leaves the policy in charge. -/
def Event.keepsPolicy {π : Type} : Event π → Bool
  | .setPolicyManager _ | .updateConfig _ => false
  | _ => true

namespace SchedulerEngine

variable {e e' : SchedulerEngine (BuiltinPolicy D) D} {P : Platform} {cell cell' : CellContext}
  {isDl : Bool} {log : List Transmission} {slot : ℕ}

/-- What has been sent to the users is in the log, and the slot is the one shown last. -/
structure Remembers (e : SchedulerEngine (BuiltinPolicy D) D) (slot : ℕ)
    (log : List Transmission) : Prop where
  tracks : e.policyManager.Tracks log
  shows : e.policyManager.Shows slot

theorem calculatePriority_keeps (e : SchedulerEngine (BuiltinPolicy D) D) (P : Platform)
    (cell : CellContext) (isDl : Bool) (d : SchedulingDecision D) :
    ∃ d' qos,
      (e.calculatePriority P cell isDl d).run none = .ok (d', { e with qosEngine := qos }) := by
  have hfind := cell.ueRepo.findByRnti_run d.rnti
  rw [calculatePriority, run_bind_of_ok hfind]
  cases cell.ueRepo.ue? d.rnti with
  | none => exact ⟨_, e.qosEngine, rfl⟩
  | some ue =>
      obtain ⟨d₁, qos, hqos, _⟩ :=
        e.rankByQos_run P ue isDl (e.policyManager.priority P ue cell isDl) d
      obtain ⟨d₂, hslice, _⟩ := { e with qosEngine := qos }.boostSlice_run ue (boostRetx d₁)
      exact ⟨d₂, qos, (run_bind_of_ok hqos).trans (run_bind_of_ok hslice)⟩

theorem calculatePriorities_keeps (P : Platform) (cell : CellContext) (isDl : Bool)
    (ds : List (SchedulingDecision D)) (e : SchedulerEngine (BuiltinPolicy D) D) :
    ∃ ds' qos, (calculatePriorities P cell isDl ds e).run none =
      .ok (ds', { e with qosEngine := qos }) := by
  induction ds generalizing e with
  | nil => exact ⟨[], e.qosEngine, rfl⟩
  | cons d ds ih =>
      obtain ⟨d', qos, hrun⟩ := e.calculatePriority_keeps P cell isDl d
      obtain ⟨ds', qos', hrest⟩ := ih { e with qosEngine := qos }
      refine ⟨d' :: ds', qos', ?_⟩
      rw [calculatePriorities, run_bind_of_ok hrun]
      exact run_bind_of_ok hrest

/-- Each grant that is reported to the policy is one more entry of the log. -/
theorem tracks_foldl_reportGrant (P : Platform) (cell : CellContext)
    (granted : List (SchedulingDecision D)) {policy : BuiltinPolicy D}
    (htracks : policy.Tracks log) (hshows : policy.Shows slot) :
    (granted.foldl (reportGrant P cell) policy).Tracks
        (log ++ (pdusOf cell granted).map (TtiPdu.sentAt P slot)) ∧
      (granted.foldl (reportGrant P cell) policy).Shows slot := by
  induction granted generalizing policy log with
  | nil => exact ⟨(List.append_nil log).symm ▸ htracks, hshows⟩
  | cons d granted ih =>
      rw [List.foldl_cons, reportGrant, pdusOf]
      cases hue : cell.ueRepo.ue? d.rnti with
      | none =>
          rw [List.filterMap_cons_none (by rw [hue]; rfl)]
          exact ih htracks hshows
      | some ue =>
          rw [List.filterMap_cons_some (by rw [hue]; rfl), List.map_cons, List.append_cons]
          have hrnti : ((pduOf d ue).sentAt P slot).pdu.rnti = ue.rnti :=
            (UeRepository.ue?_rnti hue).symm
          obtain ⟨htracks, hshows⟩ := htracks.updateHistory hshows rfl hrnti
          exact ih htracks hshows

/-- Serving a direction tells the policy of each grant, and sends what is granted. -/
theorem serve_policy (h : (e.serve P cell isDl).run none = .ok (cell', e')) :
    ∃ (ds : List (SchedulingDecision D)) (reqs : List TtiRequest),
      e'.sent = e.sent ++ reqs ∧ pdusIn reqs = pdusOf cell ds ∧
      e'.policyManager = ds.foldl (reportGrant P cell) e.policyManager := by
  rw [serve] at h
  split at h
  case isFalse =>
    cases h
    exact ⟨[], [], (List.append_nil _).symm, rfl, rfl⟩
  have hsame : e.scheduleFor P cell isDl = e.schedule P cell isDl := by
    cases isDl <;> rfl
  obtain ⟨ds', qos, hpriorities⟩ := calculatePriorities_keeps P cell isDl
    (e.candidates P cell isDl) e
  rw [hsame, ReaderT.run_bind, schedule_run, run_bind_of_ok hpriorities] at h
  obtain ⟨⟨ds, cell₁, e₁⟩, hloop, h⟩ := run_bind_eq_ok.mp h
  obtain ⟨granted, hds, hrepo, hreplay⟩ := allocateLoop_local hloop
  obtain rfl : ds = granted := hds
  obtain ⟨failures, hrun⟩ := hreplay _ rfl
  cases Except.ok.inj (hloop.symm.trans hrun)
  dsimp only at h
  by_cases hnil : ds = []
  · subst hnil
    cases h
    exact ⟨[], [], (List.append_nil _).symm, rfl, rfl⟩
  · rw [if_neg hnil] at h
    obtain ⟨r, hpdus, rfl, _⟩ := buildFor_local rfl h
    refine ⟨ds, [r], rfl, ?_, rfl⟩
    rw [pdusIn, List.flatMap_singleton, hpdus, pdusOf, pdusOf, hrepo]

theorem serve_remembers (h : e.Remembers slot log)
    (hserve : (e.serve P cell isDl).run none = .ok (cell', e')) :
    ∃ reqs, e'.sent = e.sent ++ reqs ∧
      e'.Remembers slot (log ++ (pdusIn reqs).map (TtiPdu.sentAt P slot)) := by
  obtain ⟨ds, reqs, hsent, hpdus, hpolicy⟩ := serve_policy hserve
  obtain ⟨htracks, hshows⟩ := tracks_foldl_reportGrant P cell ds h.tracks h.shows
  rw [← hpolicy, ← hpdus] at htracks
  exact ⟨reqs, hsent, htracks, hpolicy ▸ hshows⟩

/-- A slot shows its number to the policy, and adds to the log what it sends. -/
theorem onSlotIndication_remembers {c : CellId} {t : FrameTiming}
    (h : e.policyManager.Tracks log) (hslot : (e.onSlotIndication P c t).run none = .ok e') :
    e'.policyManager.Tracks
      (log ++ (pdusIn (e.emitted e')).map (TtiPdu.sentAt P t.absoluteSlot)) := by
  cases hlookup : e.cells.lookup c with
  | none =>
      have hskipped := Except.ok.inj ((onSlotIndication_skipped hlookup P t).symm.trans hslot)
      have hnone : e.emitted e' = [] := emitted_eq_nil (by rw [← hskipped])
      rw [hnone, ← hskipped]
      exact (List.append_nil log).symm ▸ h
  | some cell =>
      obtain ⟨slot, slices, qos, slices', cell₂, e₂, cell₃, e₃, _, _, hdl, hul, rfl⟩ :=
        onSlotIndication_served hlookup hslot
      have hbegin : Remembers (e.beginSlot t slices qos) t.absoluteSlot log :=
        ⟨h.onSlotStart t, e.policyManager.shows_onSlotStart t⟩
      obtain ⟨dl, hsentDl, hdl⟩ := serve_remembers hbegin hdl
      obtain ⟨ul, hsentUl, hul⟩ := serve_remembers hdl hul
      rw [List.append_assoc, ← List.map_append, pdusIn, pdusIn, ← List.flatMap_append] at hul
      have hsent : e₃.sent = e.sent ++ (dl ++ ul) := by
        rw [hsentUl, hsentDl, List.append_assoc]
        rfl
      rw [emitted_eq (by exact hsent)]
      exact hul.tracks

/-- An event that is no slot and leaves the policy in charge leaves it as it is. -/
theorem next_quiet {i : Platform × Event (BuiltinPolicy D)} (hinv : e.Consistent)
    (h : e.next i = some e') (hkeeps : i.2.keepsPolicy = true) (hslot : i.2.slotNumber = none) :
    e'.policyManager = e.policyManager ∧ e'.config = e.config ∧ e'.sent = e.sent := by
  have hrun := next_eq_some.mp h
  obtain ⟨P, ev⟩ := i
  cases hcell : ev.cellId? with
  | none =>
      cases ev with
      | start | stop | resetStatistics =>
          cases hrun
          exact ⟨rfl, rfl, rfl⟩
      | setPolicyManager _ | updateConfig _ => cases hkeeps
      | _ => cases hcell
  | some c =>
      cases hquiet : ev.isQuiet with
      | true =>
          have hlocal := handle_local hcell hquiet hrun
          exact ⟨hlocal.policyManager, hlocal.outside.config, (handle_quiet hrun hquiet).2⟩
      | false =>
          cases ev with
          | harqFeedback cellId fb =>
              obtain ⟨e₁, he₁, hsame⟩ := hinv.onHarqFeedback cellId fb
              obtain rfl : e₁ = e' := Except.ok.inj (he₁.symm.trans hrun)
              exact ⟨hsame.policyManager, hsame.config, hsame.sent⟩
          | slotIndication _ _ => cases hslot
          | _ => cases hquiet

theorem sent_extends {i : Platform × Event (BuiltinPolicy D)} (h : e.next i = some e') :
    ∃ more, e'.sent = e.sent ++ more := by
  rcases sent_cases h with hsent | ⟨_, _, _, _, dl, ul, _, houtcome⟩
  · exact ⟨[], hsent.trans (List.append_nil _).symm⟩
  · exact ⟨dl ++ ul, houtcome.sent⟩

end SchedulerEngine

end NrScheduler
