import NrScheduler.Engine.SlotSpec
import NrScheduler.Lib.Runs

/-!
# What one event does

With mutexes as no-ops, every event changes little: the users, the cell configurations
and the tracker are followed as functions, and each event gets one statement about them.
-/

namespace NrScheduler

open LockMonad

namespace SchedulerEngine

variable {π D : Type}

/-! ## The users and the cells as functions -/

def ueAt (e : SchedulerEngine π D) (cellId : CellId) (rnti : Rnti) : Option UeContext :=
  (e.cells.lookup cellId).bind fun cell ↦ cell.ueRepo.ue? rnti

def configAt (e : SchedulerEngine π D) (cellId : CellId) : Option CellConfig :=
  (e.cells.lookup cellId).map CellContext.config

theorem ueAt_eq_some {e : SchedulerEngine π D} {cellId : CellId} {rnti : Rnti}
    {ue : UeContext} : e.ueAt cellId rnti = some ue ↔
      ∃ cell, e.cells.lookup cellId = some cell ∧ cell.ueRepo.ue? rnti = some ue :=
  Option.bind_eq_some_iff

theorem ueAt_rnti {e : SchedulerEngine π D} {cellId : CellId} {rnti : Rnti} {ue : UeContext}
    (h : e.ueAt cellId rnti = some ue) : ue.rnti = rnti := by
  obtain ⟨cell, _, hue⟩ := ueAt_eq_some.mp h
  exact UeRepository.ue?_rnti hue

theorem ueAt_insert {e e' : SchedulerEngine π D} {cellId : CellId} {cell : CellContext}
    (h : e'.cells = e.cells.insert cellId cell) (c : CellId) (r : Rnti) :
    e'.ueAt c r = if c = cellId then cell.ueRepo.ue? r else e.ueAt c r := by
  rw [ueAt, h]
  by_cases hc : c = cellId
  · rw [if_pos hc, hc, AList.lookup_insert, Option.bind_some]
  · rw [if_neg hc, AList.lookup_insert_ne hc]
    rfl

theorem configAt_insert {e e' : SchedulerEngine π D} {cellId : CellId} {cell : CellContext}
    (h : e'.cells = e.cells.insert cellId cell) (c : CellId) :
    e'.configAt c = if c = cellId then some cell.config else e.configAt c := by
  rw [configAt, h]
  by_cases hc : c = cellId
  · rw [if_pos hc, hc, AList.lookup_insert, Option.map_some]
  · rw [if_neg hc, AList.lookup_insert_ne hc]
    rfl

theorem configAt_insert_same {e e' : SchedulerEngine π D} {cellId : CellId}
    {cell cell' : CellContext} (h : e'.cells = e.cells.insert cellId cell')
    (hlookup : e.cells.lookup cellId = some cell) (hconfig : cell'.config = cell.config) :
    e'.configAt = e.configAt := by
  funext c
  rw [configAt_insert h]
  by_cases hc : c = cellId
  · rw [if_pos hc, hc, configAt, hlookup, hconfig, Option.map_some]
  · rw [if_neg hc]

/-- The parts that only slots and feedback change, and the number of contexts created. -/
structure SameTracking (e e' : SchedulerEngine π D) : Prop where
  tracker : e'.harqTracker = e.harqTracker
  sent : e'.sent = e.sent
  created : e'.created = e.created

/-! ## Events that change one user -/

/-- What data, channel reports and feedback leave alone in a context. -/
structure Evolves (ue ue' : UeContext) : Prop where
  ptr : ue'.ptr = ue.ptr
  dlBwps : ue'.dlBwps = ue.dlBwps
  ulBwps : ue'.ulBwps = ue.ulBwps
  activeDlBwpId : ue'.activeDlBwpId = ue.activeDlBwpId
  activeUlBwpId : ue'.activeUlBwpId = ue.activeUlBwpId
  harq : ∀ isDl, ue'.harq isDl = ue.harq isDl ∨
    ∃ fb, ue'.harq isDl = (ue.harq isDl).processFeedback fb

theorem Evolves.refl (ue : UeContext) : Evolves ue ue where
  ptr := rfl
  dlBwps := rfl
  ulBwps := rfl
  activeDlBwpId := rfl
  activeUlBwpId := rfl
  harq _ := Or.inl rfl

/-- The event changes the context of one user by `f`, if there is one. -/
structure UpdatesUe (e : SchedulerEngine π D) (cellId : CellId) (rnti : Rnti)
    (f : UeContext → UeContext) (e' : SchedulerEngine π D) : Prop where
  ueAt : ∀ c r, e'.ueAt c r =
    if c = cellId ∧ r = rnti then (e.ueAt c r).map f else e.ueAt c r
  configAt : e'.configAt = e.configAt
  config : e'.config = e.config

theorem UpdatesUe.of_setCell {e : SchedulerEngine π D} {cellId : CellId} {rnti : Rnti}
    {f : UeContext → UeContext} {hf : ∀ ue, (f ue).rnti = ue.rnti} {cell : CellContext}
    {e' : SchedulerEngine π D} (hlookup : e.cells.lookup cellId = some cell)
    (hcells : e'.cells = e.cells.insert cellId
      { cell with ueRepo := cell.ueRepo.modifyUe rnti f hf })
    (hconfig : e'.config = e.config) : e.UpdatesUe cellId rnti f e' where
  ueAt c r := by
    have hue : ∀ r, e.ueAt cellId r = cell.ueRepo.ue? r := by
      intro r
      rw [SchedulerEngine.ueAt, hlookup, Option.bind_some]
    rw [ueAt_insert hcells]
    by_cases hc : c = cellId
    · subst hc
      rw [if_pos rfl, UeRepository.ue?_modifyUe, hue]
      by_cases hr : r = rnti
      · subst hr
        rw [if_pos rfl, if_pos ⟨rfl, rfl⟩]
      · rw [if_neg hr, if_neg fun h ↦ hr h.2]
    · rw [if_neg hc, if_neg fun h ↦ hc h.1]
  configAt := configAt_insert_same hcells hlookup rfl
  config := hconfig

theorem UpdatesUe.of_unknown {e : SchedulerEngine π D} {cellId : CellId} {rnti : Rnti}
    {f : UeContext → UeContext} (h : e.ueAt cellId rnti = none) :
    e.UpdatesUe cellId rnti f e where
  ueAt c r := by
    split
    · rename_i hcr
      rw [hcr.1, hcr.2, h, Option.map_none]
    · rfl
  configAt := rfl
  config := rfl

/-- An event for a cell or a user that is not known changes nothing. -/
theorem updateUe_unknown {e : SchedulerEngine π D} {cellId : CellId} {rnti : Rnti}
    (hue : e.ueAt cellId rnti = none) (check : Exec Unit) (f : UeContext → UeContext)
    (hf : ∀ ue, (f ue).rnti = ue.rnti) :
    (e.updateUe cellId rnti check f hf).run none = .ok e := by
  rw [updateUe, withLock_run_none]
  cases hlookup : e.cells.lookup cellId with
  | none => rfl
  | some cell =>
      have hnone : cell.ueRepo.ue? rnti = none := by
        rwa [ueAt, hlookup, Option.bind_some] at hue
      exact run_bind_of_ok ((cell.ueRepo.findByRnti_run rnti).trans (by rw [hnone]))

theorem updateUe_known {e : SchedulerEngine π D} {cellId : CellId} {rnti : Rnti}
    {cell : CellContext} {ue : UeContext}
    (hlookup : e.cells.lookup cellId = some cell) (hue : cell.ueRepo.ue? rnti = some ue)
    (check : Exec Unit) (f : UeContext → UeContext) (hf : ∀ ue, (f ue).rnti = ue.rnti) :
    (e.updateUe cellId rnti check f hf).run none = (do
      check
      return e.setCell cellId { cell with ueRepo := cell.ueRepo.modifyUe rnti f hf }).run
        none := by
  rw [updateUe, withLock_run_none, hlookup]
  exact run_bind_of_ok ((cell.ueRepo.findByRnti_run rnti).trans (by rw [hue]))

theorem updateUe_cases {e e' : SchedulerEngine π D} {cellId : CellId} {rnti : Rnti}
    {check : Exec Unit} {f : UeContext → UeContext} {hf : ∀ ue, (f ue).rnti = ue.rnti}
    (h : (e.updateUe cellId rnti check f hf).run none = .ok e') :
    (e.ueAt cellId rnti = none ∧ e' = e) ∨
      ∃ cell, e.cells.lookup cellId = some cell ∧
        e' = e.setCell cellId { cell with ueRepo := cell.ueRepo.modifyUe rnti f hf } := by
  cases hue : e.ueAt cellId rnti with
  | none =>
      exact Or.inl ⟨rfl, Except.ok.inj (h.symm.trans (updateUe_unknown hue check f hf))⟩
  | some ue =>
      obtain ⟨cell, hlookup, hcell⟩ := ueAt_eq_some.mp hue
      rw [updateUe_known hlookup hcell] at h
      obtain ⟨_, _, hrest⟩ := run_bind_eq_ok.mp h
      exact Or.inr ⟨cell, hlookup, (Except.ok.inj hrest).symm⟩

theorem updateUe_ok {e e' : SchedulerEngine π D} {cellId : CellId} {rnti : Rnti}
    {check : Exec Unit} {f : UeContext → UeContext} {hf : ∀ ue, (f ue).rnti = ue.rnti}
    (h : (e.updateUe cellId rnti check f hf).run none = .ok e') :
    e.UpdatesUe cellId rnti f e' ∧ e.SameTracking e' := by
  rcases updateUe_cases h with ⟨hue, rfl⟩ | ⟨cell, hlookup, rfl⟩
  · exact ⟨UpdatesUe.of_unknown hue, rfl, rfl, rfl⟩
  · exact ⟨UpdatesUe.of_setCell hlookup rfl rfl, rfl, rfl, rfl⟩

/-- A report about a group that does not exist is written out of range. -/
theorem onBsr_crash {e : SchedulerEngine π D} {b : BufferStatusReport}
    (hue : (e.ueAt b.cellId b.rnti).isSome) (hgroup : 8 ≤ b.lcgId) :
    (e.onBsr b).run none = .error (.crash .outOfRange) := by
  obtain ⟨ue, hue⟩ := Option.isSome_iff_exists.mp hue
  obtain ⟨cell, hlookup, hcell⟩ := ueAt_eq_some.mp hue
  rw [onBsr, updateUe_known hlookup hcell, if_neg (by omega)]
  exact run_bind_of_error rfl

/-! ## Feedback -/

/-- The entries whose process a feedback is applied to: same cell and process, and the user
is known. -/
def accepts (e : SchedulerEngine π D) (cellId : CellId) (fb : HarqFeedback)
    (pending : PendingFeedback) : Bool :=
  pending.cellId == cellId && pending.harqId == fb.harqId &&
    (e.ueAt cellId pending.rnti).isSome

/-- The entry whose process receives a feedback: the first acceptable one of its slot. -/
def recipient (e : SchedulerEngine π D) (cellId : CellId) (fb : HarqFeedback) :
    Option PendingFeedback :=
  (e.harqTracker.entriesAt fb.feedbackTime.absoluteSlot).find? (e.accepts cellId fb)

/-- The tracker after a feedback whose process was that of `pending`: its first entry with
the RNTI and the process is gone. -/
def consume (e : SchedulerEngine π D) (fb : HarqFeedback) (pending : PendingFeedback) :
    HarqTimingTracker :=
  e.harqTracker.remove fb.feedbackTime.absoluteSlot
    (HarqTimingTracker.matchesUe pending.rnti (some fb.harqId))

/-- The engine after a feedback that no entry accepts. -/
def countTimeout (e : SchedulerEngine π D) : SchedulerEngine π D :=
  { e with stats := { e.stats with harqTimeouts := e.stats.harqTimeouts + 1 } }

theorem processPending_rnti (fb : HarqFeedback) (pending : PendingFeedback) (ue : UeContext) :
    (ue.processHarqFeedback pending.isDownlink fb).rnti = ue.rnti :=
  processHarqFeedback_rnti ue pending.isDownlink fb

/-- The engine after a feedback for the process of `pending`. -/
def receive (e : SchedulerEngine π D) (cellId : CellId) (fb : HarqFeedback)
    (pending : PendingFeedback) : SchedulerEngine π D :=
  (e.cells.lookup cellId).elim e fun cell ↦
    { e.setCell cellId { cell with
        ueRepo := cell.ueRepo.modifyUe pending.rnti
          (fun ue ↦ ue.processHarqFeedback pending.isDownlink fb)
          (processPending_rnti fb pending) } with
      harqTracker := e.consume fb pending
      stats := if fb.ack then e.stats else e.stats.countRetransmission pending.isDownlink }

def FeedbackOutcome (e : SchedulerEngine π D) (cellId : CellId) (fb : HarqFeedback)
    (e' : SchedulerEngine π D) : Prop :=
  match e.recipient cellId fb with
  | none => e'.cells = e.cells ∧ e'.config = e.config ∧ e.SameTracking e'
  | some pending =>
      e.UpdatesUe cellId pending.rnti (·.processHarqFeedback pending.isDownlink fb) e' ∧
      e'.harqTracker = e.consume fb pending ∧ e'.sent = e.sent ∧ e'.created = e.created

theorem feedbackLoop_run (e : SchedulerEngine π D) (cellId : CellId) (fb : HarqFeedback)
    (l : List PendingFeedback) :
    (e.feedbackLoop cellId fb l).run none =
      .ok (match l.find? (e.accepts cellId fb) with
        | none => e.countTimeout
        | some pending => e.receive cellId fb pending) := by
  induction l with
  | nil => rfl
  | cons pending rest ih =>
      rw [feedbackLoop, List.find?_cons]
      by_cases hcell : pending.cellId = cellId
      · by_cases hharq : pending.harqId = fb.harqId
        · rw [if_neg (not_not.mpr hcell), if_neg (not_not.mpr hharq)]
          cases hlookup : e.cells.lookup cellId with
          | none =>
              have hreject : e.accepts cellId fb pending = false := by
                simp [accepts, ueAt, hlookup]
              rw [hreject]
              exact ih
          | some cell =>
              simp only
              rw [run_bind_of_ok (cell.ueRepo.findByRnti_run pending.rnti)]
              cases hue : cell.ueRepo.ue? pending.rnti with
              | none =>
                  have hreject : e.accepts cellId fb pending = false := by
                    simp [accepts, ueAt, hlookup, hue]
                  rw [hreject]
                  exact ih
              | some ue =>
                  have haccept : e.accepts cellId fb pending = true := by
                    simp [accepts, ueAt, hlookup, hue, hcell, hharq]
                  rw [haccept]
                  simp only [receive, hlookup]
                  rfl
        · have hreject : e.accepts cellId fb pending = false := by
            simp [accepts, hharq]
          rw [if_neg (not_not.mpr hcell), if_pos hharq, hreject]
          exact ih
      · have hreject : e.accepts cellId fb pending = false := by
          simp [accepts, hcell]
        rw [if_pos hcell, hreject]
        exact ih

theorem onHarqFeedback_run (e : SchedulerEngine π D) (cellId : CellId) (fb : HarqFeedback) :
    (e.onHarqFeedback cellId fb).run none =
      .ok (match e.recipient cellId fb with
        | none => e.countTimeout
        | some pending => e.receive cellId fb pending) := by
  rw [onHarqFeedback, withLock_run_none,
    run_bind_of_ok (HarqTimingTracker.getAllForSlot_run _ _)]
  exact e.feedbackLoop_run cellId fb _

theorem accepts_of_recipient {e : SchedulerEngine π D} {cellId : CellId} {fb : HarqFeedback}
    {pending : PendingFeedback} (h : e.recipient cellId fb = some pending) :
    (pending.cellId = cellId ∧ pending.harqId = fb.harqId) ∧
      ∃ cell ue, e.cells.lookup cellId = some cell ∧ cell.ueRepo.ue? pending.rnti = some ue := by
  have haccept := List.find?_some h
  simp only [accepts, Bool.and_eq_true, beq_iff_eq] at haccept
  obtain ⟨ue, hue⟩ := Option.isSome_iff_exists.mp haccept.2
  obtain ⟨cell, hlookup, hue⟩ := ueAt_eq_some.mp hue
  exact ⟨haccept.1, cell, ue, hlookup, hue⟩

theorem onHarqFeedback_ok {e e' : SchedulerEngine π D} {cellId : CellId} {fb : HarqFeedback}
    (h : (e.onHarqFeedback cellId fb).run none = .ok e') : e.FeedbackOutcome cellId fb e' := by
  rw [onHarqFeedback_run] at h
  obtain rfl := Except.ok.inj h
  rw [FeedbackOutcome]
  cases hrecipient : e.recipient cellId fb with
  | none => exact ⟨rfl, rfl, rfl, rfl, rfl⟩
  | some pending =>
      obtain ⟨_, cell, _, hlookup, _⟩ := accepts_of_recipient hrecipient
      dsimp only
      rw [receive, hlookup]
      exact ⟨UpdatesUe.of_setCell hlookup rfl rfl, rfl, rfl, rfl⟩

/-! ## Users over one event -/

/-- A context as a configuration request leaves it. -/
structure ConfiguredBy (request : UeConfigRequest) (ptr : UePtr) (ue : UeContext) : Prop where
  ptr : ue.ptr = ptr
  dlBwps : ue.dlBwps = request.dlBwps
  ulBwps : ue.ulBwps = request.ulBwps
  activeDlBwpId : ue.activeDlBwpId = 0
  activeUlBwpId : ue.activeUlBwpId = 0
  harq : ∀ isDl, ue.harq isDl = .create 16

end SchedulerEngine

/-- The event ends the life of the context filed under a cell and an RNTI. -/
def Event.replaces {π : Type} (c : CellId) (r : Rnti) : Event π → Bool
  | .removeCell cellId => cellId == c
  | .ueConfig request => request.cellId == c && request.rnti == r
  | .ueRelease release => release.cellId == c && release.rnti == r
  | _ => false

namespace SchedulerEngine

/-- The users after an event: each is one from before, possibly changed by reports, or
the one that the event configured. -/
structure UserOutcome (e : SchedulerEngine π D) (ev : Event π) (e' : SchedulerEngine π D) :
    Prop where
  kept : ∀ c r, ev.replaces c r = false → Option.Rel Evolves (e.ueAt c r) (e'.ueAt c r)
  replaced : ∀ c r ue, ev.replaces c r = true → e'.ueAt c r = some ue →
    ∃ request, ev = .ueConfig request ∧ ConfiguredBy request (c, e.created c) ue ∧
      e.created c < e'.created c
  created : ∀ c, e.created c ≤ e'.created c

/-- A context is one from before that reports may have changed, or it is the one that the
event configured. -/
theorem UserOutcome.origin {e e' : SchedulerEngine π D} {ev : Event π}
    (h : e.UserOutcome ev e') {c : CellId} {r : Rnti} {ue : UeContext}
    (hue : e'.ueAt c r = some ue) :
    (ev.replaces c r = false ∧ ∃ ue₀, e.ueAt c r = some ue₀ ∧ Evolves ue₀ ue) ∨
    ∃ request, ev = .ueConfig request ∧ ev.replaces c r = true ∧
      ConfiguredBy request (c, e.created c) ue ∧ e.created c < e'.created c := by
  cases hreplaces : ev.replaces c r with
  | false =>
      have hkept := h.kept c r hreplaces
      rw [hue] at hkept
      cases hue₀ : e.ueAt c r with
      | none =>
          rw [hue₀] at hkept
          cases hkept
      | some ue₀ =>
          rw [hue₀] at hkept
          cases hkept with
          | some hevolves => exact Or.inl ⟨rfl, ue₀, rfl, hevolves⟩
  | true =>
      obtain ⟨request, hev, hconfigured, hlt⟩ := h.replaced c r ue hreplaces hue
      exact Or.inr ⟨request, hev, rfl, hconfigured, hlt⟩

/-! ### Cells -/

theorem addCell_ok {e e' : SchedulerEngine π D} {config : CellConfig} {memory : SlotContext}
    {added : Bool} (h : (e.addCell config memory).run none = .ok (added, e')) :
    e'.ueAt = e.ueAt ∧ e.SameTracking e' ∧ e'.config = e.config ∧
      ∀ c, e'.configAt c =
        (e.configAt c).or (if c = config.cellId then some config else none) := by
  rw [addCell, withLock_run_none] at h
  by_cases hmem : config.cellId ∈ e.cells
  · rw [if_pos hmem] at h
    cases h
    refine ⟨rfl, ⟨rfl, rfl, rfl⟩, rfl, ?_⟩
    intro c
    by_cases hc : c = config.cellId
    · obtain ⟨cell, hcell⟩ := AList.exists_lookup hmem
      rw [hc, configAt, hcell]
      rfl
    · rw [if_neg hc, Option.or_none]
  · have hlookup : e.cells.lookup config.cellId = none := AList.lookup_eq_none.mpr hmem
    rw [if_neg hmem] at h
    cases h
    refine ⟨?_, ⟨rfl, rfl, rfl⟩, rfl, ?_⟩
    · funext c r
      rw [ueAt_insert rfl]
      by_cases hc : c = config.cellId
      · rw [if_pos hc, hc, ueAt, hlookup]
        rfl
      · rw [if_neg hc]
    · intro c
      rw [configAt_insert rfl]
      by_cases hc : c = config.cellId
      · rw [if_pos hc, if_pos hc, hc, configAt, hlookup]
        rfl
      · rw [if_neg hc, if_neg hc, Option.or_none]

theorem removeCell_ok {e e' : SchedulerEngine π D} {cellId : CellId}
    (h : (e.removeCell cellId).run none = .ok e') :
    (∀ c r, e'.ueAt c r = if cellId = c then none else e.ueAt c r) ∧ e.SameTracking e' ∧
      e'.config = e.config ∧
      ∀ c, e'.configAt c = if cellId = c then none else e.configAt c := by
  have hlookup : ∀ c, (e.cells.erase cellId).lookup c =
      if cellId = c then none else e.cells.lookup c := by
    intro c
    by_cases hc : cellId = c
    · rw [if_pos hc, ← hc, AList.lookup_erase]
    · rw [if_neg hc, AList.lookup_erase_ne fun heq ↦ hc heq.symm]
  cases h
  refine ⟨?_, ⟨rfl, rfl, rfl⟩, rfl, ?_⟩
  · intro c r
    rw [ueAt, hlookup]
    split <;> rfl
  · intro c
    rw [configAt, hlookup]
    split <;> rfl

/-! ### Configuration and release -/

theorem configureUe_newUe (request : UeConfigRequest) (repo : UeRepository) (ptr : UePtr) :
    ConfiguredBy request ptr (configureUe request (repo.newUe ptr request.rnti)) where
  ptr := rfl
  dlBwps := rfl
  ulBwps := rfl
  activeDlBwpId := rfl
  activeUlBwpId := rfl
  harq isDl := by cases isDl <;> rfl

variable [Double D]

theorem onUeConfig_cases {e e' : SchedulerEngine π D} {request : UeConfigRequest}
    (h : (e.onUeConfig request).run none = .ok e') :
    (e.cells.lookup request.cellId = none ∧ e' = e) ∨
      ∃ cell repo slices, e.cells.lookup request.cellId = some cell ∧
        (cell.ueRepo.createUe (request.cellId, e.created request.cellId) request.rnti).run none =
          .ok repo ∧
        e' = { e.setCell request.cellId { cell with
            ueRepo := repo.modifyUe request.rnti (configureUe request) fun _ ↦ rfl } with
          sliceOrchestrator := slices
          created := Function.update e.created request.cellId
            (e.created request.cellId + 1) } := by
  rw [onUeConfig, withLock_run_none] at h
  cases hlookup : e.cells.lookup request.cellId with
  | none =>
      rw [hlookup] at h
      exact Or.inl ⟨rfl, (Except.ok.inj h).symm⟩
  | some cell =>
      rw [hlookup] at h
      obtain ⟨repo, hrepo, h⟩ := run_bind_eq_ok.mp h
      obtain ⟨slices, _, h⟩ := run_bind_eq_ok.mp h
      exact Or.inr ⟨cell, repo, slices, rfl, hrepo, (Except.ok.inj h).symm⟩

theorem onUeConfig_ok {e e' : SchedulerEngine π D} {request : UeConfigRequest}
    (h : (e.onUeConfig request).run none = .ok e') :
    e'.harqTracker = e.harqTracker ∧ e'.sent = e.sent ∧ e'.config = e.config ∧
    e'.configAt = e.configAt ∧
    ((e.cells.lookup request.cellId = none ∧ e' = e) ∨
      ∃ ue, ConfiguredBy request (request.cellId, e.created request.cellId) ue ∧
        (∀ c r, e'.ueAt c r =
          if c = request.cellId ∧ r = request.rnti then some ue else e.ueAt c r) ∧
        e'.created = Function.update e.created request.cellId
          (e.created request.cellId + 1)) := by
  rcases onUeConfig_cases h with ⟨hlookup, rfl⟩ | ⟨cell, repo, slices, hlookup, hrepo, rfl⟩
  · exact ⟨rfl, rfl, rfl, rfl, Or.inl ⟨hlookup, rfl⟩⟩
  · let ptr : UePtr := (request.cellId, e.created request.cellId)
    let ue := configureUe request (cell.ueRepo.newUe ptr request.rnti)
    have hcreate : ∀ r, repo.ue? r =
        if r = request.rnti then some (cell.ueRepo.newUe ptr request.rnti)
        else cell.ueRepo.ue? r := by
      intro r
      cases hrepo
      exact cell.ueRepo.ue?_insertUe (cell.ueRepo.newUe ptr request.rnti) r
    have hmodify : ∀ r, (repo.modifyUe request.rnti (configureUe request) fun _ ↦ rfl).ue? r =
        if r = request.rnti then some ue else cell.ueRepo.ue? r := by
      intro r
      refine (repo.ue?_modifyUe request.rnti r (configureUe request) fun _ ↦ rfl).trans ?_
      rw [hcreate, hcreate, if_pos rfl]
      by_cases hr : r = request.rnti
      · rw [if_pos hr, if_pos hr]
        rfl
      · rw [if_neg hr, if_neg hr, if_neg hr]
    refine ⟨rfl, rfl, rfl, configAt_insert_same rfl hlookup rfl, Or.inr ?_⟩
    refine ⟨ue, configureUe_newUe request cell.ueRepo ptr, ?_, rfl⟩
    intro c r
    rw [ueAt_insert rfl]
    by_cases hc : c = request.cellId
    · rw [if_pos hc]
      refine (hmodify r).trans ?_
      by_cases hr : r = request.rnti
      · rw [if_pos hr, if_pos ⟨hc, hr⟩]
      · rw [if_neg hr, if_neg fun hcr ↦ hr hcr.2, hc, ueAt, hlookup, Option.bind_some]
    · rw [if_neg hc, if_neg fun hcr ↦ hc hcr.1]

theorem onUeRelease_cases {e e' : SchedulerEngine π D} {release : UeReleaseRequest}
    (h : (e.onUeRelease release).run none = .ok e') :
    (e.cells.lookup release.cellId = none ∧ e' = e) ∨
      ∃ cell qos slices, e.cells.lookup release.cellId = some cell ∧
        e' = { e.setCell release.cellId { cell with
            ueRepo := cell.ueRepo.eraseUe release.rnti } with
          qosEngine := qos, sliceOrchestrator := slices } := by
  rw [onUeRelease, withLock_run_none] at h
  cases hlookup : e.cells.lookup release.cellId with
  | none =>
      rw [hlookup] at h
      exact Or.inl ⟨rfl, (Except.ok.inj h).symm⟩
  | some cell =>
      rw [hlookup] at h
      obtain ⟨repo, hrepo, h⟩ := run_bind_eq_ok.mp h
      obtain ⟨qos, _, h⟩ := run_bind_eq_ok.mp h
      obtain ⟨slices, _, h⟩ := run_bind_eq_ok.mp h
      cases hrepo
      exact Or.inr ⟨cell, qos, slices, rfl, (Except.ok.inj h).symm⟩

theorem onUeRelease_ok {e e' : SchedulerEngine π D} {release : UeReleaseRequest}
    (h : (e.onUeRelease release).run none = .ok e') :
    (∀ c r, e'.ueAt c r =
      if release.cellId = c ∧ release.rnti = r then none else e.ueAt c r) ∧
    e'.configAt = e.configAt ∧ e.SameTracking e' ∧ e'.config = e.config := by
  rcases onUeRelease_cases h with ⟨hlookup, rfl⟩ | ⟨cell, qos, slices, hlookup, rfl⟩
  · refine ⟨?_, rfl, ⟨rfl, rfl, rfl⟩, rfl⟩
    intro c r
    by_cases hcr : release.cellId = c ∧ release.rnti = r
    · rw [if_pos hcr, ← hcr.1, ueAt, hlookup, Option.bind_none]
    · rw [if_neg hcr]
  · refine ⟨?_, configAt_insert_same rfl hlookup rfl, ⟨rfl, rfl, rfl⟩, rfl⟩
    intro c r
    rw [ueAt_insert rfl]
    by_cases hc : c = release.cellId
    · rw [if_pos hc]
      by_cases hr : r = release.rnti
      · rw [if_pos ⟨hc.symm, hr.symm⟩]
        exact (cell.ueRepo.ue?_eraseUe release.rnti r).trans (if_pos hr)
      · rw [if_neg fun hcr ↦ hr hcr.2.symm, hc, ueAt, hlookup, Option.bind_some]
        exact (cell.ueRepo.ue?_eraseUe release.rnti r).trans (if_neg hr)
    · rw [if_neg hc, if_neg fun hcr ↦ hc hcr.1.symm]

end SchedulerEngine

end NrScheduler
