import NrScheduler.Engine.SlotAccounts

/-!
# Statistics against transmissions

The statistics are compared with the requests that were emitted since they were last reset.
They agree as long as no negative acknowledgement reaches a process: each one that does is
counted as a retransmission, although nothing was sent.
-/

namespace NrScheduler

open LockMonad Runs

/-- The bytes a cell has sent grow by those of the given transmissions. -/
def CellStatistics.GrowsBy (s : CellStatistics) (sent : Bool → List TtiPdu)
    (s' : CellStatistics) : Prop :=
  ∀ isDl, s'.totalBytes isDl = s.totalBytes isDl + bytesOf (sent isDl)

namespace SchedulerEngine

variable {π D : Type}

/-- No entry of the slot of the feedback accepts it. -/
def Unmatched (e : SchedulerEngine π D) (cellId : CellId) (fb : HarqFeedback) : Prop :=
  ∀ pending ∈ e.harqTracker.entriesAt fb.feedbackTime.absoluteSlot,
    e.accepts cellId fb pending = false

instance (e : SchedulerEngine π D) (cellId : CellId) (fb : HarqFeedback) :
    Decidable (e.Unmatched cellId fb) :=
  inferInstanceAs (Decidable (∀ pending ∈ _, _ = false))

theorem unmatched_iff {e : SchedulerEngine π D} {cellId : CellId} {fb : HarqFeedback} :
    e.Unmatched cellId fb ↔ e.recipient cellId fb = none := by
  simp only [Unmatched, recipient, List.find?_eq_none, Bool.not_eq_true]

/-- The requests emitted since the statistics were last reset. -/
def observeSent (e : SchedulerEngine π D) (i : Platform × Event π) (e' : SchedulerEngine π D)
    (since : List TtiRequest) : List TtiRequest :=
  match i.2 with
  | .resetStatistics => []
  | _ => since ++ e.emitted e'

/-- The statistics of the engine are those of the requests since the reset, and those of each
cell grow by the transmissions of the cell. -/
structure CountsExactly (s : SchedulerEngine π D × List TtiRequest) (_ : Platform × Event π)
    (s' : SchedulerEngine π D × List TtiRequest) : Prop where
  engine : ({} : Statistics).GrowsBy (directionPdus s'.2) s'.1.stats
  cells : ∀ c cell cell', s.1.cells.lookup c = some cell → s'.1.cells.lookup c = some cell' →
    cell.stats.GrowsBy (directionPdus ((s.1.emitted s'.1).filter fun r ↦ r.cellId == c))
      cell'.stats

/-- A negative acknowledgement reaches no process. -/
def NackUnmatched (s : SchedulerEngine π D × List TtiRequest) (i : Platform × Event π)
    (_ : SchedulerEngine π D × List TtiRequest) : Prop :=
  match i.2 with
  | .harqFeedback cellId fb => fb.ack = false → s.1.Unmatched cellId fb
  | _ => True

instance (s s' : SchedulerEngine π D × List TtiRequest) (i : Platform × Event π) :
    Decidable (NackUnmatched s i s') := by
  obtain ⟨P, ev⟩ := i
  refine Event.quietCases (motive := fun ev ↦ Decidable (NackUnmatched s (P, ev) s')) ?_ ?_ ?_ ev
  · exact fun _ _ ↦ isTrue trivial
  · intro cellId fb
    dsimp only [NackUnmatched]
    infer_instance
  · exact fun ev hquiet ↦ isTrue (by cases ev <;> trivial)

/-! ## Events that send nothing -/

/-- Cells that stay keep their statistics. -/
def KeepsTotals (e e' : SchedulerEngine π D) : Prop :=
  ∀ c cell cell', e.cells.lookup c = some cell → e'.cells.lookup c = some cell' →
    cell'.stats = cell.stats

theorem KeepsTotals.of_cells {e e' : SchedulerEngine π D} (h : e'.cells = e.cells) :
    e.KeepsTotals e' := by
  intro c cell cell' hcell hcell'
  rw [h, hcell] at hcell'
  rw [Option.some.inj hcell']

theorem KeepsTotals.of_insert {e e' : SchedulerEngine π D} {cellId : CellId}
    {new : CellContext} (hcells : e'.cells = e.cells.insert cellId new)
    (hstats : ∀ cell, e.cells.lookup cellId = some cell → new.stats = cell.stats) :
    e.KeepsTotals e' := by
  intro c cell cell' hcell hcell'
  rw [hcells] at hcell'
  by_cases hc : c = cellId
  · subst hc
    rw [AList.lookup_insert] at hcell'
    rw [← Option.some.inj hcell']
    exact hstats cell hcell
  · rw [AList.lookup_insert_ne hc, hcell] at hcell'
    rw [Option.some.inj hcell']

theorem KeepsTotals.of_update {e e' : SchedulerEngine π D} {cellId : CellId}
    {cell new : CellContext} (hlookup : e.cells.lookup cellId = some cell)
    (hcells : e'.cells = e.cells.insert cellId new) (hstats : new.stats = cell.stats) :
    e.KeepsTotals e' := by
  refine .of_insert hcells ?_
  intro cell₀ hcell₀
  rw [hstats, Option.some.inj (hlookup.symm.trans hcell₀)]

theorem updateUe_accounts {e e' : SchedulerEngine π D} {cellId : CellId} {rnti : Rnti}
    {check : Exec Unit} {f : UeContext → UeContext} {hf : ∀ ue, (f ue).rnti = ue.rnti}
    (h : (e.updateUe cellId rnti check f hf).run none = .ok e') :
    e'.stats = e.stats ∧ e.KeepsTotals e' := by
  rcases updateUe_cases h with ⟨_, rfl⟩ | ⟨cell, hlookup, rfl⟩
  · exact ⟨rfl, .of_cells rfl⟩
  · exact ⟨rfl, .of_update hlookup rfl rfl⟩

variable [Double D]

theorem onUeConfig_accounts {e e' : SchedulerEngine π D} {request : UeConfigRequest}
    (h : (e.onUeConfig request).run none = .ok e') :
    e'.stats = e.stats ∧ e.KeepsTotals e' := by
  rcases onUeConfig_cases h with ⟨_, rfl⟩ | ⟨cell, repo, slices, hlookup, _, rfl⟩
  · exact ⟨rfl, .of_cells rfl⟩
  · exact ⟨rfl, .of_update hlookup rfl rfl⟩

theorem onUeRelease_accounts {e e' : SchedulerEngine π D} {release : UeReleaseRequest}
    (h : (e.onUeRelease release).run none = .ok e') :
    e'.stats = e.stats ∧ e.KeepsTotals e' := by
  rcases onUeRelease_cases h with ⟨_, rfl⟩ | ⟨cell, qos, slices, hlookup, rfl⟩
  · exact ⟨rfl, .of_cells rfl⟩
  · exact ⟨rfl, .of_update hlookup rfl rfl⟩

variable [IPolicyManager π D]

theorem handle_quiet_accounts {e e' : SchedulerEngine π D} {P : Platform} {ev : Event π}
    (h : (e.handle P ev).run none = .ok e') (hquiet : ev.isQuiet = true) :
    (e'.stats = match ev with | .resetStatistics => {} | _ => e.stats) ∧ e.KeepsTotals e' := by
  cases ev with
  | addCell config memory =>
      obtain ⟨⟨added, e₁⟩, hadd, hrest⟩ := run_bind_eq_ok.mp h
      cases hrest
      rw [addCell, withLock_run_none] at hadd
      split at hadd
      · cases hadd
        exact ⟨rfl, .of_cells rfl⟩
      · rename_i hmem
        cases hadd
        refine ⟨rfl, .of_insert rfl ?_⟩
        intro cell hcell
        rw [AList.lookup_eq_none.mpr hmem] at hcell
        cases hcell
  | removeCell cellId =>
      cases h
      refine ⟨rfl, ?_⟩
      intro c cell cell' hcell hcell'
      by_cases hc : c = cellId
      · subst hc
        rw [AList.lookup_erase] at hcell'
        cases hcell'
      · rw [AList.lookup_erase_ne hc, hcell] at hcell'
        rw [Option.some.inj hcell']
  | slotIndication cellId t | harqFeedback cellId fb => cases hquiet
  | ueConfig request => exact onUeConfig_accounts h
  | ueRelease release => exact onUeRelease_accounts h
  | dlData n | bsr b | sr s | phr p | csiUpdate rnti cellId cqi => exact updateUe_accounts h
  | setPolicyManager policy | start | stop | rachIndication cellId | updateConfig config
  | resetStatistics =>
      cases h
      exact ⟨rfl, .of_cells rfl⟩

omit [Double D] [IPolicyManager π D] in
theorem receive_accounts {e : SchedulerEngine π D} {cellId : CellId} {fb : HarqFeedback}
    {pending : PendingFeedback} (h : e.recipient cellId fb = some pending) :
    (e.receive cellId fb pending).stats =
        (if fb.ack then e.stats else e.stats.countRetransmission pending.isDownlink) ∧
      (e.receive cellId fb pending).sent = e.sent ∧
      e.KeepsTotals (e.receive cellId fb pending) := by
  obtain ⟨_, cell, _, hlookup, _⟩ := accepts_of_recipient h
  rw [receive, hlookup]
  exact ⟨rfl, rfl, .of_update hlookup rfl rfl⟩

/-! ## Steps -/

/-- The statistics are those of the requests since the reset. -/
structure Settled (s : SchedulerEngine π D × List TtiRequest) : Prop where
  consistent : s.1.Consistent
  stats : ({} : Statistics).GrowsBy (directionPdus s.2) s.1.stats

section Steps

variable {s s' : SchedulerEngine π D × List TtiRequest} {i : Platform × Event π}

omit [Double D] [IPolicyManager π D] in
theorem CountsExactly.of_silent (hsent : s'.1.sent = s.1.sent) (hkeeps : s.1.KeepsTotals s'.1)
    (hengine : ({} : Statistics).GrowsBy (directionPdus s'.2) s'.1.stats) :
    CountsExactly s i s' where
  engine := hengine
  cells c cell cell' hcell hcell' isDl := by
    rw [emitted_eq_nil hsent, hkeeps c cell cell' hcell hcell']
    exact (Nat.add_zero _).symm

omit [Double D] [IPolicyManager π D] in
theorem Settled.of_silent (hs : Settled s) (hobserve : s'.2 = s.2 ++ s.1.emitted s'.1)
    (hsent : s'.1.sent = s.1.sent) (hstats : s.1.stats.SameScheduled s'.1.stats) :
    ({} : Statistics).GrowsBy (directionPdus s'.2) s'.1.stats := by
  rw [hobserve, emitted_eq_nil hsent, List.append_nil]
  exact hs.stats.congr ⟨rfl, rfl, rfl⟩ hstats

/-- A slot counts what it sends, and every request of it is one of its cell. -/
theorem Settled.slot {P : Platform} {cellId : CellId} {t : FrameTiming} (hs : Settled s)
    (hP : P.ShiftsDown) (h : (s.1.onSlotIndication P cellId t).run none = .ok s'.1)
    (hobserve : s'.2 = s.2 ++ s.1.emitted s'.1) : CountsExactly s i s' := by
  rcases onSlotIndication_ok h with ⟨_, hskipped⟩ | ⟨cell, slot, dl, ul, houtcome⟩
  · have hsent : s'.1.sent = s.1.sent := by rw [hskipped]
    refine .of_silent hsent (.of_cells (by rw [hskipped])) (hs.of_silent hobserve hsent ?_)
    rw [hskipped]
    exact ⟨rfl, rfl, rfl⟩
  · obtain ⟨hstats, cell', hcells, htotal, _⟩ := onSlotIndication_accounts houtcome.lookup h
    have hown : ∀ r ∈ s.1.emitted s'.1, r.cellId = cellId := by
      intro r hr
      rw [houtcome.emitted_eq] at hr
      exact houtcome.request_cellId hs.consistent hr
    constructor
    case engine =>
      have hsum := Statistics.counting_growsBy.trans hs.stats hstats
      rw [hobserve, funext (directionPdus_append s.2 (s.1.emitted s'.1))]
      exact hsum
    case cells =>
      intro c cell₀ cell₁ hcell₀ hcell₁ isDl
      rw [hcells] at hcell₁
      by_cases hc : c = cellId
      · subst hc
        rw [AList.lookup_insert] at hcell₁
        obtain rfl := Option.some.inj hcell₁
        obtain rfl := Option.some.inj (houtcome.lookup.symm.trans hcell₀)
        have hall : (s.1.emitted s'.1).filter (fun r ↦ r.cellId == c) = s.1.emitted s'.1 :=
          List.filter_eq_self.mpr fun r hr ↦ beq_iff_eq.mpr (hown r hr)
        rw [hall, htotal, Nat.mod_eq_of_lt (houtcome.bytesOf_lt hP isDl)]
      · rw [AList.lookup_insert_ne hc, hcell₀] at hcell₁
        obtain rfl := Option.some.inj hcell₁
        have hnone : (s.1.emitted s'.1).filter (fun r ↦ r.cellId == c) = [] := by
          refine List.filter_eq_nil_iff.mpr fun r hr hbeq ↦ hc ?_
          rw [← beq_iff_eq.mp hbeq, hown r hr]
        rw [hnone]
        exact (Nat.add_zero _).symm

omit [Double D] [IPolicyManager π D] in
/-- A feedback that is matched sends nothing, so a negative one is counted for nothing. -/
theorem Settled.feedback {cellId : CellId} {fb : HarqFeedback} (hs : Settled s)
    (h : (s.1.onHarqFeedback cellId fb).run none = .ok s'.1)
    (hobserve : s'.2 = s.2 ++ s.1.emitted s'.1) :
    CountsExactly s i s' ↔ (fb.ack = false → s.1.Unmatched cellId fb) := by
  rw [onHarqFeedback_run] at h
  have hs' := Except.ok.inj h
  rw [unmatched_iff]
  cases hrecipient : s.1.recipient cellId fb with
  | none =>
      rw [hrecipient] at hs'
      have hsent : s'.1.sent = s.1.sent := by rw [← hs', countTimeout]
      refine ⟨fun _ _ ↦ rfl, fun _ ↦ .of_silent hsent (.of_cells ?_) ?_⟩
      · rw [← hs', countTimeout]
      · refine hs.of_silent hobserve hsent ?_
        rw [← hs']
        exact ⟨rfl, rfl, rfl⟩
  | some pending =>
      rw [hrecipient] at hs'
      obtain ⟨hstats, hsent, hkeeps⟩ := receive_accounts hrecipient
      simp only at hs'
      rw [hs'] at hstats hsent hkeeps
      cases hack : fb.ack with
      | true =>
          rw [hack, if_pos rfl] at hstats
          have hexact : CountsExactly s i s' := by
            refine .of_silent hsent hkeeps (hs.of_silent hobserve hsent ?_)
            rw [hstats]
            exact ⟨rfl, rfl, rfl⟩
          exact iff_of_true hexact fun hnack ↦ by cases hnack
      | false =>
          rw [hack, if_neg Bool.false_ne_true] at hstats
          have hmore : s'.1.stats.retransmissions pending.isDownlink =
              s.1.stats.retransmissions pending.isDownlink + 1 := by
            rw [hstats]
            cases pending.isDownlink <;> rfl
          constructor
          · intro hexact
            have hnow := hexact.engine.retransmissions pending.isDownlink
            rw [hobserve, emitted_eq_nil hsent, List.append_nil,
              ← hs.stats.retransmissions, hmore] at hnow
            omega
          · intro hnone
            cases hnone rfl

theorem Settled.counts_iff (hs : Settled s) (hP : i.1.ShiftsDown)
    (h : monitored next observeSent s i = some s') :
    CountsExactly s i s' ↔ NackUnmatched s i s' := by
  obtain ⟨hnext, hobserve⟩ := monitored_eq_some.mp h
  have hrun := next_eq_some.mp hnext
  rw [observeSent] at hobserve
  rw [NackUnmatched]
  obtain ⟨P, ev⟩ := i
  cases hquiet : ev.isQuiet with
  | true =>
      obtain ⟨hstats, hkeeps⟩ := handle_quiet_accounts hrun hquiet
      have hsent := (handle_quiet hrun hquiet).2
      have hexact : CountsExactly s (P, ev) s' := by
        refine .of_silent hsent hkeeps ?_
        cases ev with
        | resetStatistics =>
            rw [hobserve, hstats]
            exact Statistics.counting_growsBy.refl {}
        | slotIndication | harqFeedback => cases hquiet
        | _ =>
            refine hs.of_silent hobserve hsent ?_
            rw [hstats]
            exact ⟨rfl, rfl, rfl⟩
      refine iff_of_true hexact ?_
      cases ev with
      | slotIndication | harqFeedback => cases hquiet
      | _ => trivial
  | false =>
      cases ev with
      | slotIndication cellId t => exact iff_of_true (hs.slot hP hrun hobserve) trivial
      | harqFeedback cellId fb => exact hs.feedback hrun hobserve
      | _ => cases hquiet

end Steps

/-- In every run on platforms whose shifts make no value larger, the statistics are exact
after every event, exactly where no negative acknowledgement reaches a process. -/
theorem countsExactly_iff (config : SchedulerConfig) {is : List (Platform × Event π)}
    (hP : ∀ i ∈ is, i.1.ShiftsDown) :
    Always (monitored next observeSent) CountsExactly
        ((create config : SchedulerEngine π D), []) is ↔
      Always (monitored next observeSent) NackUnmatched
        ((create config : SchedulerEngine π D), []) is := by
  refine always_iff_of_inputs Settled ?_ ?_ hP
  · intro s i s' hPi hs h
    refine ⟨hs.counts_iff hPi h, fun hexact ↦ ⟨?_, hexact.engine⟩⟩
    exact hs.consistent.step (monitored_eq_some.mp h).1
  · exact ⟨consistent_create config, Statistics.counting_growsBy.refl {}⟩

end SchedulerEngine

/-! ## A negative acknowledgement -/

namespace RationalEngine

open SchedulerEngine

/-- One user with downlink data in the only cell, its transmission, and the feedback on it
four slots later. -/
def feedbackRun (ack : Bool) : List (Platform × Event (BuiltinPolicy ℚ)) :=
  [(.plain, .addCell (.fdd 1 4) .cleared), (.plain, .ueConfig { rnti := 7, cellId := 1 }),
    (.plain, .dlData ⟨7, 1, 0, 1⟩), (.plain, .slotIndication 1 {}),
    (.plain, .harqFeedback 1 { harqId := 0, ack := ack, feedbackTime := { slot := 4 } })]

theorem countsExactly_acknowledged :
    Always (monitored next observeSent) CountsExactly
      ((create {} : RationalEngine), []) (feedbackRun true) := by
  have hP : ∀ i ∈ feedbackRun true, i.1.ShiftsDown := by
    intro i hi
    simp only [feedbackRun, List.mem_cons, List.not_mem_nil, or_false] at hi
    rcases hi with rfl | rfl | rfl | rfl | rfl <;> exact Platform.shiftsDown_plain
  refine (countsExactly_iff {} hP).mpr ?_
  decide +kernel

/-- The retransmissions counted since the reset are those emitted. -/
def CountsRetransmissions (_ : RationalEngine × List TtiRequest)
    (_ : Platform × Event (BuiltinPolicy ℚ)) (s' : RationalEngine × List TtiRequest) : Prop :=
  s'.1.stats.dlRetransmissions =
    (directionPdus s'.2 true).countP fun pdu ↦ pdu.type = .retx

instance (s : RationalEngine × List TtiRequest) (i : Platform × Event (BuiltinPolicy ℚ))
    (s' : RationalEngine × List TtiRequest) : Decidable (CountsRetransmissions s i s') :=
  inferInstanceAs (Decidable (_ = _))

/-- The engine counts a retransmission that it has not sent. -/
theorem not_countsExactly :
    ¬ Always (monitored next observeSent) CountsExactly
      ((create {} : RationalEngine), []) (feedbackRun false) := by
  intro h
  have hcount : Always (monitored next observeSent) CountsRetransmissions
      ((create {} : RationalEngine), []) (feedbackRun false) := by
    refine h.imp (fun _ ↦ True) ?_ trivial
    intro s i s' _ _ hexact
    exact ⟨trivial, (hexact.engine.retransmissions true).trans (Nat.zero_add _)⟩
  revert hcount
  decide +kernel

end RationalEngine

end NrScheduler
