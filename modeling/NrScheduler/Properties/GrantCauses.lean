import NrScheduler.Engine.ReportBook
import NrScheduler.Engine.Transmissions
import NrScheduler.Lib.WrappingSum

/-!
# Why a user is served

The users of a reachable state are those in the book of its run, each as it was configured last
and with the latest values reported since.  A transmission is always the first one of process
zero, to a user without DRX that has data by the latest reports.
-/

namespace NrScheduler

open LockMonad SchedulerEngine WrappingSum

variable {π D : Type}

/-! ## The users of a run -/

namespace SchedulerEngine

variable [Double D] [IPolicyManager π D]

/-- After every run, the users are those in its book, as the book has them. -/
theorem users_of_run {config : SchedulerConfig} {is : List (Platform × Event π)}
    {e : SchedulerEngine π D} (h : is.foldlM SchedulerEngine.next (create config) = some e)
    (c : CellId) (r : Rnti) :
    Option.Rel (UeContext.AsTold c r) (e.ueAt c r) ((book is).users c r) := by
  have husers := (listed_of_run h).users c r
  generalize e.ueAt c r = found at husers ⊢
  generalize (book is).users c r = known at husers ⊢
  cases husers with
  | none => exact .none
  | some hknown => exact .some hknown.asTold

/-- A user that comes back is known by what was reported since. -/
theorem users_of_run_again :
    let is : List (Platform × Event (BuiltinPolicy ℚ)) :=
      onPlain [.addCell (.fdd 1 4) .cleared, .ueConfig { rnti := 7, cellId := 1 },
        .dlData ⟨7, 1, 1, 100⟩, .ueRelease ⟨7, 1⟩, .ueConfig { rnti := 7, cellId := 1 },
        .dlData ⟨7, 1, 2, 50⟩, .slotIndication 1 {}]
    ∃ e : RationalEngine, is.foldlM SchedulerEngine.next (create {}) = some e ∧
      Option.Rel (UeContext.AsTold 1 7) (e.ueAt 1 7) ((book is).users 1 7) ∧
      ((book is).users 1 7).map (fun known ↦ known.2.length) = some 2 := by
  intro is
  have hsome : (is.foldlM SchedulerEngine.next (create {} : RationalEngine)).isSome = true := by
    decide +kernel
  obtain ⟨e, hrun⟩ := Option.isSome_iff_exists.mp hsome
  exact ⟨e, hrun, users_of_run hrun 1 7, by decide +kernel⟩

end SchedulerEngine

/-! ## Grants -/

/-- By the latest reports there is something to send. -/
def Event.HasCause (c : CellId) (r : Rnti) (reports : List (Event π)) (isDl : Bool) : Prop :=
  if isDl then ∃ lcId bytes, bytes ≠ 0 ∧
    Event.value c r reports (.dlBuffer lcId) = .bytes (some bytes)
  else (∃ lcgId bytes, bytes ≠ 0 ∧
      Event.value c r reports (.ulBuffer lcgId) = .bytes (some bytes)) ∨
    Event.value c r reports .srPending = .raised true

theorem UeContext.AsTold.hasCause {c : CellId} {r : Rnti} {ue : UeContext}
    {known : UeConfigRequest × List (Event π)} (h : ue.AsTold c r known) {isDl : Bool}
    (hdata : ue.hasData isDl = true) : Event.HasCause c r known.2 isDl := by
  cases isDl with
  | true =>
      rw [UeContext.hasData, if_pos rfl, decide_eq_true_eq, UeContext.totalDlBuffer] at hdata
      obtain ⟨⟨lcId, bytes⟩, hmem, hbytes⟩ := exists_ne_zero_of_foldl_pos
        (f := fun entry : Sigma fun _ : LcId ↦ ℕ ↦ entry.2) hdata
      refine ⟨lcId, bytes, hbytes, ?_⟩
      rw [← h.read]
      exact congrArg ReportValue.bytes (AList.mem_lookup_iff.mpr hmem)
  | false =>
      rw [UeContext.hasData, if_neg Bool.false_ne_true, Bool.or_eq_true, decide_eq_true_eq]
        at hdata
      rcases hdata with hbytes | hpending
      · left
        rw [UeContext.totalUlBuffer, BufferStatus.totalBuffer, ← Vector.foldl_toList] at hbytes
        obtain ⟨bytes, hmem, hne⟩ := exists_ne_zero_of_foldl_pos (f := id) hbytes
        obtain ⟨lcgId, hlt, rfl⟩ := Vector.mem_iff_getElem.mp (Vector.mem_toList_iff.mp hmem)
        refine ⟨lcgId, _, hne, ?_⟩
        rw [← h.read]
        exact congrArg ReportValue.bytes (Vector.getElem?_eq_getElem hlt)
      · right
        rw [← h.read]
        exact congrArg ReportValue.raised hpending

namespace SchedulerEngine

variable [Double D] [IPolicyManager π D]

/-- The transmission is a new one of the first process, to a user of the book that may be sent
to and has data. -/
structure Justified (b : Book π) (request : TtiRequest) (pdu : TtiPdu) : Prop where
  cause : ∃ known, b.users request.cellId pdu.rnti = some known ∧
    known.1.drxConfig.enabled = false ∧
    Event.HasCause request.cellId pdu.rnti known.2 request.isDownlink
  type : pdu.type = .newTx
  harqId : pdu.harqId = 0

/-- Whatever is sent in whatever slot of whatever run has its cause in the events before. -/
theorem justified_of_run {config : SchedulerConfig} {is : List (Platform × Event π)}
    {e e' : SchedulerEngine π D} (h : is.foldlM SchedulerEngine.next (create config) = some e)
    {i : Platform × Event π} (hnext : e.next i = some e') {request : TtiRequest}
    (hrequest : request ∈ e.emitted e') {pdu : TtiPdu} (hpdu : pdu ∈ request.pdus) :
    Justified (book is) request pdu := by
  have hinv := (listed_of_run h).consistent
  obtain ⟨cellId, t, cell, slot, dl, ul, _, houtcome, hmem⟩ := mem_emitted hnext hrequest
  obtain ⟨ue, d, start, width, hcontends, hue, hcandidate, hpduOf, _, _⟩ :=
    houtcome.contends hmem hpdu
  have hcell := houtcome.request_cellId hinv hmem
  have hknown := users_of_run h cellId pdu.rnti
  rw [hue] at hknown
  generalize hbook : (book is).users cellId pdu.rnti = found at hknown
  obtain htold | _ := hknown
  rename_i known
  -- no process waits, so the candidate is a new transmission
  have hretx : (ue.harq request.isDownlink).getRetxProcess = none := by
    rw [htold.harq]
    decide
  have hfree : (ue.harq request.isDownlink).getFreeProcess.map HarqProcess.id = some 0 := by
    rw [htold.harq]
    decide
  rw [candidate_newTx i.1 (by rw [hretx]; simp)] at hcandidate
  split at hcandidate
  case isFalse => cases hcandidate
  rename_i hdata
  obtain ⟨p, hp, rfl⟩ := Option.map_eq_some_iff.mp hcandidate
  have hue' := htold.rnti
  obtain ⟨cell', hlookup, hcellUe⟩ := ueAt_eq_some.mp hue
  obtain ⟨_, heligible, _⟩ := (contends_eq_true hlookup hcellUe).mp hcontends
  refine ⟨⟨known, hcell ▸ hbook, ?_, hcell ▸ htold.hasCause hdata⟩, ?_, ?_⟩
  · rw [isEligible, Bool.and_eq_true, Bool.and_eq_true, UeContext.isInActiveTime, htold.drxState,
      htold.drxConfig] at heligible
    cases hdrx : known.1.drxConfig.enabled with
    | false => rfl
    | true =>
        rw [hdrx] at heligible
        cases heligible.1.1
  · rw [hpduOf]
    rfl
  · rw [hp] at hfree
    rw [hpduOf]
    exact Option.some.inj hfree

/-- A user with data is sent them, and one that sleeps is not. -/
theorem justified_of_run_awake :
    let is : List (Platform × Event (BuiltinPolicy ℚ)) :=
      onPlain [.addCell (.fdd 1 4) .cleared, .ueConfig { rnti := 7, cellId := 1 },
        .ueConfig { rnti := 8, cellId := 1, drxConfig := { enabled := true } },
        .dlData ⟨7, 1, 1, 100⟩, .dlData ⟨8, 1, 1, 100⟩]
    ∃ e e' : RationalEngine, is.foldlM SchedulerEngine.next (create {}) = some e ∧
      e.next (.plain, .slotIndication 1 {}) = some e' ∧
      (e.emitted e').flatMap (fun request ↦ request.pdus.map TtiPdu.rnti) = [7] ∧
      ∀ request ∈ e.emitted e', ∀ pdu ∈ request.pdus, Justified (book is) request pdu := by
  intro is
  have hsome : (is.foldlM SchedulerEngine.next (create {} : RationalEngine)).any (fun e ↦
      (e.next (.plain, .slotIndication 1 {})).any fun e' ↦
        (e.emitted e').flatMap (fun request ↦ request.pdus.map TtiPdu.rnti) == [7]) = true := by
    decide +kernel
  obtain ⟨e, hrun, hslot⟩ := (Option.any_eq_true _ _).mp hsome
  obtain ⟨e', hnext, hrntis⟩ := (Option.any_eq_true _ _).mp hslot
  refine ⟨e, e', hrun, hnext, beq_iff_eq.mp hrntis, ?_⟩
  exact fun request hrequest pdu hpdu ↦ justified_of_run hrun hnext hrequest hpdu

end SchedulerEngine

end NrScheduler
