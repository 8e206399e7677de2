import NrScheduler.Engine.SlotAccounts

/-!
# Answers to scheduling requests

A user whose only uplink work is a scheduling request gets a minimum grant, and with it the
request is answered.  The engine never takes the request back, so that the user is served
again in every slot in which nothing else keeps it out.
-/

namespace NrScheduler

open LockMonad Runs

/-- A user is told apart by its RNTI and its context. -/
def UeContext.identity (ue : UeContext) : Rnti × UePtr := (ue.rnti, ue.ptr)

def TtiPdu.recipient (pdu : TtiPdu) : Rnti × UePtr := (pdu.rnti, pdu.owner)

/-- The uplink buffer is empty, no process is to be sent again, and a request is pending. -/
def UeContext.onlyRequests (ue : UeContext) : Bool :=
  decide (ue.totalUlBuffer = 0) && (ue.harq false).getRetxProcess.isNone &&
    ue.ulBufferStatus.srPending

namespace SchedulerEngine

variable {π D : Type}

/-- The uplink requests and transmissions that an event sent. -/
def uplinkPdus (e e' : SchedulerEngine π D) : List (CellId × TtiPdu) :=
  ((e.emitted e').filter fun r ↦ !r.isDownlink).flatMap fun r ↦ r.pdus.map (r.cellId, ·)

/-- The users whose scheduling request was answered, while nothing new is asked for. -/
abbrev Answered := List (Rnti × UePtr)

/-- A user asks anew, or gets a retransmission. -/
def forget (e : SchedulerEngine π D) (cellId : CellId) (rnti : Rnti) (answered : Answered) :
    Answered :=
  answered.filter fun u ↦ (e.ueAt cellId rnti).map UeContext.identity ≠ some u

def observeAnswers (e : SchedulerEngine π D) (i : Platform × Event π) (e' : SchedulerEngine π D)
    (answered : Answered) : Answered :=
  match i.2 with
  | .sr s => e.forget s.cellId s.rnti answered
  | .bsr b => if b.bufferSizeBytes = 0 then answered else e.forget b.cellId b.rnti answered
  | .slotIndication _ _ =>
      answered.filter (fun u ↦ ∀ p ∈ e.uplinkPdus e', p.2.type = .retx → p.2.recipient ≠ u) ++
        ((e.uplinkPdus e').filter fun p ↦
          (e.ueAt p.1 p.2.rnti).any UeContext.onlyRequests).map fun p ↦ p.2.recipient
  | _ => answered

/-- No user with an answered request gets another new transmission. -/
def AnswersOnce (s : SchedulerEngine π D × Answered) (_ : Platform × Event π)
    (s' : SchedulerEngine π D × Answered) : Prop :=
  ∀ p ∈ s.1.uplinkPdus s'.1, p.2.type ≠ .retx → p.2.recipient ∉ s.2

/-- What can keep a user out of an uplink slot besides its buffers: the pattern of the cell,
its own sleep, or its slice. -/
def bars (e : SchedulerEngine π D) (cell : CellContext) (t : FrameTiming) (ue : UeContext) :
    Bool :=
  !cell.isOpen false t || !ue.isInActiveTime ||
    (e.config.enableSlicing && !e.sliceOrchestrator.allows ue.rnti 1 false)

/-- In a slot with room in the uplink, the users with an answered request are kept out. -/
def BarsAnswered (s : SchedulerEngine π D × Answered) (i : Platform × Event π)
    (_ : SchedulerEngine π D × Answered) : Prop :=
  match i.2 with
  | .slotIndication cellId t =>
      ∀ cell ∈ s.1.cells.lookup cellId, 0 < s.1.config.limit false → 0 < cell.config.numRbs →
        ∀ ue ∈ cell.ueRepo.users i.1, ue.identity ∈ s.2 → s.1.bars cell t ue = true
  | _ => True

instance (s : SchedulerEngine π D × Answered) (i : Platform × Event π)
    (s' : SchedulerEngine π D × Answered) : Decidable (AnswersOnce s i s') := by
  unfold AnswersOnce
  infer_instance

instance (s s' : SchedulerEngine π D × Answered) (i : Platform × Event π) :
    Decidable (BarsAnswered s i s') := by
  obtain ⟨P, ev⟩ := i
  refine Event.quietCases (motive := fun ev ↦ Decidable (BarsAnswered s (P, ev) s')) ?_ ?_ ?_ ev
  · intro cellId t
    dsimp only [BarsAnswered]
    infer_instance
  · exact fun _ _ ↦ isTrue trivial
  · exact fun ev hquiet ↦ isTrue (by cases ev <;> trivial)

theorem mem_uplinkPdus {e e' : SchedulerEngine π D} {p : CellId × TtiPdu} :
    p ∈ e.uplinkPdus e' ↔
      ∃ r ∈ e.emitted e', r.isDownlink = false ∧ r.cellId = p.1 ∧ p.2 ∈ r.pdus := by
  simp only [uplinkPdus, List.mem_flatMap, List.mem_filter, List.mem_map, Bool.not_eq_true']
  constructor
  · rintro ⟨r, ⟨hr, hdir⟩, pdu, hpdu, rfl⟩
    exact ⟨r, hr, hdir, rfl, hpdu⟩
  · rintro ⟨r, hr, hdir, hcell, hpdu⟩
    exact ⟨r, ⟨hr, hdir⟩, p.2, hpdu, Prod.ext hcell rfl⟩

theorem contends_not_barred {e : SchedulerEngine π D} {cellId : CellId} {t : FrameTiming}
    {rnti : Rnti} {cell : CellContext} {ue : UeContext}
    (hlookup : e.cells.lookup cellId = some cell) (hue : cell.ueRepo.ue? rnti = some ue)
    (h : e.contends cellId t false rnti = true) : e.bars cell t ue = false := by
  obtain ⟨hopen, heligible, _⟩ := (contends_eq_true hlookup hue).mp h
  simp only [isEligible, Bool.and_eq_true, Bool.or_eq_true, Bool.not_eq_true'] at heligible
  obtain ⟨⟨hactive, _⟩, hslice⟩ := heligible
  rw [bars, hopen, hactive]
  rcases hslice with hslice | hslice <;> simp [hslice]

/-- Where the request is pending and the processes are idle, nothing else keeps a user out. -/
theorem contends_of_pending {e : SchedulerEngine π D} {cellId : CellId} {t : FrameTiming}
    {rnti : Rnti} {cell : CellContext} {ue : UeContext}
    (hlookup : e.cells.lookup cellId = some cell) (hue : cell.ueRepo.ue? rnti = some ue)
    (hidle : ue.harq false = .create 16) (hpending : ue.ulBufferStatus.srPending = true)
    (hbars : e.bars cell t ue = false) : e.contends cellId t false rnti = true := by
  have hdata : ue.hasData false = true := by
    simp [UeContext.hasData, hpending]
  have hfree : (ue.harq false).getFreeProcess.isSome = true := by
    rw [hidle]
    rfl
  simp only [bars, Bool.or_eq_false_iff, Bool.not_eq_false'] at hbars
  obtain ⟨⟨hopen, hactive⟩, hslice⟩ := hbars
  refine (contends_eq_true hlookup hue).mpr ⟨hopen, ?_, ?_⟩
  · rw [isEligible, hactive, hdata]
    revert hslice
    cases e.config.enableSlicing <;> simp
  · simp [hasCandidate, hdata, hfree]

variable [Double D] [IPolicyManager π D]

/-- An uplink transmission goes to a user that contends for it, in a slot with room. -/
theorem uplinkPdu_origin {e e' : SchedulerEngine π D} {i : Platform × Event π}
    (hinv : e.Consistent) (h : e.next i = some e') {p : CellId × TtiPdu}
    (hp : p ∈ e.uplinkPdus e') :
    ∃ t cell ue, i.2 = .slotIndication p.1 t ∧ e.cells.lookup p.1 = some cell ∧
      cell.ueRepo.ue? p.2.rnti = some ue ∧ p.2.recipient = ue.identity ∧
      e.contends p.1 t false p.2.rnti = true ∧
      0 < e.config.limit false ∧ 0 < cell.config.numRbs := by
  obtain ⟨r, hr, hdir, hcell, hpdu⟩ := mem_uplinkPdus.mp hp
  obtain ⟨cellId, t, cell, slot, dl, ul, hev, houtcome, hr⟩ := mem_emitted h hr
  obtain rfl : p.1 = cellId := hcell.symm.trans (houtcome.request_cellId hinv hr)
  obtain ⟨ue, d, start, width, hcontends, hue, _, heq, _⟩ := houtcome.contends hr hpdu
  obtain ⟨cell', hlookup, hmem⟩ := ueAt_eq_some.mp hue
  have hroom := ((competes_eq_true hlookup).mp (houtcome.competes hr)).1
  rw [hdir] at hcontends hroom
  refine ⟨t, cell', ue, hev, hlookup, hmem, ?_, hcontends, hroom⟩
  have howner : p.2.owner = ue.ptr := congrArg TtiPdu.owner heq
  rw [TtiPdu.recipient, UeContext.identity, howner, ueAt_rnti hue]

/-- While the users with an answered request are kept out of the uplink, none of them gets
another new transmission before it asks again. -/
theorem answersOnce_of_barred {config : SchedulerConfig} {is : List (Platform × Event π)}
    (h : Always (monitored next observeAnswers) BarsAnswered
      ((create config : SchedulerEngine π D), []) is) :
    Always (monitored next observeAnswers) AnswersOnce
      ((create config : SchedulerEngine π D), []) is := by
  refine Always.imp (fun s ↦ s.1.Consistent) ?_ (consistent_create config) h
  intro s i s' hinv hstep hbars
  obtain ⟨hnext, _⟩ := monitored_eq_some.mp hstep
  refine ⟨hinv.step hnext, ?_⟩
  intro p hp _ hanswered
  obtain ⟨t, cell, ue, hev, hlookup, hue, hrecipient, hcontends, hlimit, hrbs⟩ :=
    uplinkPdu_origin hinv hnext hp
  have hmem : ue ∈ cell.ueRepo.users i.1 := by
    rw [UeRepository.mem_users, UeRepository.ue?_rnti hue]
    exact hue
  rw [BarsAnswered, hev] at hbars
  have hbarred := hbars cell hlookup hlimit hrbs ue hmem (hrecipient ▸ hanswered)
  rw [contends_not_barred hlookup hue hcontends] at hbarred
  cases hbarred

/-! ## The request stays pending -/

/-- An event that does not replace a user leaves its request pending. -/
theorem handle_srPending {e e' : SchedulerEngine π D} {P : Platform} {ev : Event π}
    (h : (e.handle P ev).run none = .ok e') {c : CellId} {r : Rnti} {ue ue' : UeContext}
    (hkeep : ev.replaces c r = false) (hue : e.ueAt c r = some ue)
    (hue' : e'.ueAt c r = some ue') (hpending : ue.ulBufferStatus.srPending = true) :
    ue'.ulBufferStatus.srPending = true := by
  obtain ⟨f, hf, hmap⟩ := handle_reports h hkeep
  rw [hue, Option.map_some, hue'] at hmap
  rw [Option.some.inj hmap]
  cases hf with
  | silent | bsr | phr | csiUpdate => exact hpending
  | sr => rfl
  | dlData n =>
      change (ue.updateDlBuffer n.lcId n.bufferBytes).ulBufferStatus.srPending = true
      rw [UeContext.updateDlBuffer]
      split <;> exact hpending
  | harqFeedback _ fb _ isDl => cases isDl <;> exact hpending

/-- The users with an answered request still have it pending. -/
structure StillPending (s : SchedulerEngine π D × Answered) : Prop where
  consistent : s.1.Consistent
  created : ∀ u ∈ s.2, u.2.2 < s.1.created u.2.1
  pending : ∀ c r ue, s.1.ueAt c r = some ue → ue.identity ∈ s.2 →
    ue.ulBufferStatus.srPending = true

omit [Double D] [IPolicyManager π D] in
theorem mem_observeAnswers {e e' : SchedulerEngine π D} {i : Platform × Event π}
    {answered : Answered} {u : Rnti × UePtr} (h : u ∈ observeAnswers e i e' answered) :
    u ∈ answered ∨ ∃ p ∈ e.uplinkPdus e', p.2.recipient = u ∧
      ∃ ue, e.ueAt p.1 p.2.rnti = some ue ∧ ue.ulBufferStatus.srPending = true := by
  have hforget : ∀ cellId rnti, u ∈ e.forget cellId rnti answered → u ∈ answered :=
    fun _ _ hu ↦ List.mem_of_mem_filter hu
  rw [observeAnswers] at h
  split at h
  · exact Or.inl (hforget _ _ h)
  · split at h
    · exact Or.inl h
    · exact Or.inl (hforget _ _ h)
  · rcases List.mem_append.mp h with h | h
    · exact Or.inl (List.mem_of_mem_filter h)
    · obtain ⟨p, hp, rfl⟩ := List.mem_map.mp h
      obtain ⟨hp, honly⟩ := List.mem_filter.mp hp
      obtain ⟨ue, hue, honly⟩ := (Option.any_eq_true _ _).mp honly
      simp only [UeContext.onlyRequests, Bool.and_eq_true] at honly
      exact Or.inr ⟨p, hp, rfl, ue, hue, honly.2⟩
  · exact Or.inl h

theorem StillPending.step {s s' : SchedulerEngine π D × Answered} {i : Platform × Event π}
    (hs : StillPending s) (h : monitored next observeAnswers s i = some s') :
    StillPending s' := by
  obtain ⟨hnext, hobserve⟩ := monitored_eq_some.mp h
  have hrun := next_eq_some.mp hnext
  have husers := handle_users hrun
  -- the users answered now are known, and their request is pending
  have hanswered : ∀ u ∈ s'.2, u ∈ s.2 ∨ ∃ c r ue, s.1.ueAt c r = some ue ∧
      ue.identity = u ∧ ue.ulBufferStatus.srPending = true := by
    intro u hu
    rw [hobserve] at hu
    refine (mem_observeAnswers hu).imp_right ?_
    rintro ⟨p, hp, rfl, ue, hue, hpending⟩
    obtain ⟨_, cell, ue', _, hlookup, hue', hrecipient, _⟩ :=
      uplinkPdu_origin hs.consistent hnext hp
    obtain rfl := Option.some.inj (hue.symm.trans (ueAt_eq_some.mpr ⟨cell, hlookup, hue'⟩))
    exact ⟨p.1, p.2.rnti, ue, hue, hrecipient.symm, hpending⟩
  have hold : ∀ u ∈ s'.2, u.2.2 < s.1.created u.2.1 := by
    intro u hu
    rcases hanswered u hu with hmem | ⟨c, r, ue, hue, rfl, _⟩
    · exact hs.created u hmem
    · obtain ⟨hcell, hlt⟩ := hs.consistent.ptr c r ue hue
      exact hcell.symm ▸ hlt
  constructor
  case consistent => exact hs.consistent.step hnext
  case created => exact fun u hu ↦ (hold u hu).trans_le (husers.created _)
  case pending =>
    intro c r ue hue hmem
    rcases husers.origin hue with ⟨hkeep, ue₀, hue₀, hevolves⟩ | ⟨_, _, _, hconfigured, _⟩
    · have hsame : ue.identity = ue₀.identity := by
        rw [UeContext.identity, UeContext.identity, hevolves.ptr, ueAt_rnti hue,
          ueAt_rnti hue₀]
      have hpending : ue₀.ulBufferStatus.srPending = true := by
        rcases hanswered _ hmem with hmem | ⟨c₁, r₁, ue₁, hue₁, hidentity, hpending⟩
        · exact hs.pending c r ue₀ hue₀ (hsame ▸ hmem)
        · obtain ⟨hrnti, hptr⟩ := Prod.mk.inj (hidentity.trans hsame)
          have hc : c₁ = c := by
            rw [← (hs.consistent.ptr c₁ r₁ ue₁ hue₁).1, hptr, (hs.consistent.ptr c r ue₀ hue₀).1]
          have hr : r₁ = r := by
            rw [← ueAt_rnti hue₁, hrnti, ueAt_rnti hue₀]
          rw [hc, hr, hue₀] at hue₁
          rw [Option.some.inj hue₁]
          exact hpending
      exact handle_srPending hrun hkeep hue₀ hue hpending
    · have hlt := hold _ hmem
      rw [UeContext.identity, hconfigured.ptr] at hlt
      exact absurd hlt (lt_irrefl _)

/-- In a slot, the users with an answered request contend unless they are kept out. -/
def AnsweredContend (s : SchedulerEngine π D × Answered) (i : Platform × Event π)
    (_ : SchedulerEngine π D × Answered) : Prop :=
  match i.2 with
  | .slotIndication cellId t =>
      ∀ cell ∈ s.1.cells.lookup cellId, ∀ ue ∈ cell.ueRepo.users i.1, ue.identity ∈ s.2 →
        s.1.contends cellId t false ue.rnti = !s.1.bars cell t ue
  | _ => True

/-- In every run an answered request stays alive: the answer takes nobody out of the contest
for the next slots. -/
theorem always_answeredContend (config : SchedulerConfig) (is : List (Platform × Event π)) :
    Always (monitored next observeAnswers) AnsweredContend
      ((create config : SchedulerEngine π D), []) is := by
  refine always_of_invariant StillPending ?_ ⟨consistent_create config, by simp, by simp⟩ is
  intro s i s' hs h
  refine ⟨hs.step h, ?_⟩
  rw [AnsweredContend]
  cases hev : i.2 with
  | slotIndication cellId t =>
      intro cell hlookup ue hue hanswered
      have hmem := UeRepository.mem_users.mp hue
      have hueAt := ueAt_eq_some.mpr ⟨cell, hlookup, hmem⟩
      cases hbars : s.1.bars cell t ue with
      | true =>
          rw [Bool.not_true, ← Bool.not_eq_true]
          intro hcontends
          rw [contends_not_barred hlookup hmem hcontends] at hbars
          cases hbars
      | false =>
          exact contends_of_pending hlookup hmem (hs.consistent.harq _ _ ue hueAt false)
            (hs.pending _ _ ue hueAt hanswered) hbars
  | _ => trivial

end SchedulerEngine

/-! ## One request -/

namespace RationalEngine

open SchedulerEngine

/-- The only user sends a request, which the first slot answers. -/
def answeredRequest : List (Platform × Event (BuiltinPolicy ℚ)) :=
  [(.plain, .addCell (.fdd 1 4) .cleared), (.plain, .ueConfig { rnti := 7, cellId := 1 }),
    (.plain, .sr ⟨7, 1⟩), (.plain, .slotIndication 1 {})]

/-- A second request before the second slot may be answered in it. -/
theorem answersOnce_secondRequest :
    Always (monitored next observeAnswers) AnswersOnce
      ((create {} : RationalEngine), [])
      (answeredRequest ++ [(.plain, .sr ⟨7, 1⟩), (.plain, .slotIndication 1 { slot := 1 })]) :=
  answersOnce_of_barred (by decide +kernel)

/-- The request of the first slot is answered again in the second. -/
theorem not_answersOnce :
    ¬ Always (monitored next observeAnswers) AnswersOnce
      ((create {} : RationalEngine), [])
      (answeredRequest ++ [(.plain, .slotIndication 1 { slot := 1 })]) := by
  decide +kernel

end RationalEngine

end NrScheduler
