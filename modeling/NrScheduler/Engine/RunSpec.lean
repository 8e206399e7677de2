import NrScheduler.Engine.StepSpec

/-!
# What every run preserves

The engine as a step function on events, the effect of an event on the users, the cells
and the tracker, and what holds in every state of a run.
-/

namespace NrScheduler

open LockMonad

/-! ## Contexts under reports -/

namespace SchedulerEngine

theorem evolves_updateDlBuffer (ue : UeContext) (lcId : LcId) (bytes : ℕ) :
    Evolves ue (ue.updateDlBuffer lcId bytes) := by
  unfold UeContext.updateDlBuffer
  split
  · constructor
    case harq => exact fun isDl ↦ Or.inl (by cases isDl <;> rfl)
    all_goals rfl
  · constructor
    case harq => exact fun isDl ↦ Or.inl (by cases isDl <;> rfl)
    all_goals rfl

theorem evolves_processHarqFeedback (ue : UeContext) (isDl : Bool) (fb : HarqFeedback) :
    Evolves ue (ue.processHarqFeedback isDl fb) := by
  cases isDl with
  | true =>
      constructor
      case harq =>
        intro dir
        cases dir with
        | true => exact Or.inr ⟨fb, rfl⟩
        | false => exact Or.inl rfl
      all_goals rfl
  | false =>
      constructor
      case harq =>
        intro dir
        cases dir with
        | true => exact Or.inl rfl
        | false => exact Or.inr ⟨fb, rfl⟩
      all_goals rfl

end SchedulerEngine

/-- The event neither registers a transmission nor consumes one. -/
def Event.isQuiet {π : Type} : Event π → Bool
  | .slotIndication _ _ | .harqFeedback _ _ => false
  | _ => true

/-- Slots and feedback are told apart, and all quiet events are treated alike. -/
def Event.quietCases {π : Type} {motive : Event π → Type}
    (slot : ∀ cellId t, motive (.slotIndication cellId t))
    (feedback : ∀ cellId fb, motive (.harqFeedback cellId fb))
    (quiet : ∀ ev, ev.isQuiet = true → motive ev) : ∀ ev, motive ev
  | .slotIndication cellId t => slot cellId t
  | .harqFeedback cellId fb => feedback cellId fb
  | .addCell _ _ | .removeCell _ | .setPolicyManager _ | .start | .stop | .ueConfig _
  | .ueRelease _ | .dlData _ | .bsr _ | .sr _ | .phr _ | .csiUpdate _ _ _ | .rachIndication _
  | .updateConfig _ | .resetStatistics => quiet _ rfl

/-- What the event may do to the context under a cell and an RNTI, if it keeps the context. -/
inductive Event.Reports {π : Type} : Event π → CellId → Rnti → (UeContext → UeContext) → Prop
  | silent (ev : Event π) (c : CellId) (r : Rnti) : Reports ev c r id
  | dlData (n : DlDataNotification) :
      Reports (.dlData n) n.cellId n.rnti fun ue ↦ ue.updateDlBuffer n.lcId n.bufferBytes
  | bsr (b : BufferStatusReport) :
      Reports (.bsr b) b.cellId b.rnti fun ue ↦ { ue with
        ulBufferStatus := { ue.ulBufferStatus with
          lcgBufferBytes :=
            ue.ulBufferStatus.lcgBufferBytes.setIfInBounds b.lcgId b.bufferSizeBytes
          reportTime := b.reportTime } }
  | sr (request : SchedulingRequest) :
      Reports (.sr request) request.cellId request.rnti fun ue ↦
        { ue with ulBufferStatus := { ue.ulBufferStatus with srPending := true } }
  | phr (p : PowerHeadroomReport) :
      Reports (.phr p) p.cellId p.rnti fun ue ↦ { ue with phr := p.phrValue, pCmax := p.pcmax }
  | csiUpdate (r : Rnti) (c : CellId) (cqi : ChannelQualityInfo) :
      Reports (.csiUpdate r c cqi) c r fun ue ↦ { ue with dlChannelQuality := cqi }
  | harqFeedback (c : CellId) (fb : HarqFeedback) (r : Rnti) (isDl : Bool) :
      Reports (.harqFeedback c fb) c r fun ue ↦ ue.processHarqFeedback isDl fb

theorem Event.Reports.evolves {π : Type} {ev : Event π} {c : CellId} {r : Rnti}
    {f : UeContext → UeContext} (h : ev.Reports c r f) (ue : UeContext) :
    SchedulerEngine.Evolves ue (f ue) := by
  cases h with
  | silent => exact .refl ue
  | dlData n => exact SchedulerEngine.evolves_updateDlBuffer ue n.lcId n.bufferBytes
  | harqFeedback _ fb _ isDl => exact SchedulerEngine.evolves_processHarqFeedback ue isDl fb
  | bsr | sr | phr | csiUpdate =>
      constructor
      case harq => exact fun isDl ↦ Or.inl (by cases isDl <;> rfl)
      all_goals rfl

/-- The event is addressed to the cell, or to the engine as a whole. -/
def Event.concerns {π : Type} (c : CellId) (ev : Event π) : Bool := ev.cellId?.all (· == c)

namespace SchedulerEngine

variable {π D : Type} [Double D] [IPolicyManager π D]

/-! ## Slots -/

omit [IPolicyManager π D] in
theorem SlotOutcome.ueAt_eq {e e' : SchedulerEngine π D} {P : Platform} {cellId : CellId}
    {t : FrameTiming} {cell : CellContext} {slot : SlotContext} {dl ul : List TtiRequest}
    (h : e.SlotOutcome P cellId t cell slot dl ul e') : e'.ueAt = e.ueAt := by
  obtain ⟨cell', hcells, _, hrepo⟩ := h.cells
  funext c r
  rw [ueAt_insert hcells]
  by_cases hc : c = cellId
  · rw [if_pos hc, hrepo, hc, ueAt, h.lookup, Option.bind_some]
  · rw [if_neg hc]

omit [IPolicyManager π D] in
theorem SlotOutcome.configAt_eq {e e' : SchedulerEngine π D} {P : Platform} {cellId : CellId}
    {t : FrameTiming} {cell : CellContext} {slot : SlotContext} {dl ul : List TtiRequest}
    (h : e.SlotOutcome P cellId t cell slot dl ul e') : e'.configAt = e.configAt := by
  obtain ⟨cell', hcells, hconfig, _⟩ := h.cells
  exact configAt_insert_same hcells h.lookup hconfig

theorem onSlotIndication_users {e e' : SchedulerEngine π D} {P : Platform} {cellId : CellId}
    {t : FrameTiming} (h : (e.onSlotIndication P cellId t).run none = .ok e') :
    e'.ueAt = e.ueAt ∧ e'.configAt = e.configAt ∧ e'.created = e.created := by
  rcases onSlotIndication_ok h with ⟨_, rfl⟩ | ⟨cell, slot, dl, ul, houtcome⟩
  · exact ⟨rfl, rfl, rfl⟩
  · exact ⟨houtcome.ueAt_eq, houtcome.configAt_eq, houtcome.created⟩

/-! ## All events -/

omit [Double D] [IPolicyManager π D] in
theorem UpdatesUe.reports {e e' : SchedulerEngine π D} {cellId : CellId} {rnti : Rnti}
    {f : UeContext → UeContext} {ev : Event π} (h : e.UpdatesUe cellId rnti f e')
    (hf : ev.Reports cellId rnti f) (c : CellId) (r : Rnti) :
    ∃ g, ev.Reports c r g ∧ e'.ueAt c r = (e.ueAt c r).map g := by
  by_cases hcr : c = cellId ∧ r = rnti
  · have hue := (h.ueAt c r).trans (if_pos hcr)
    obtain ⟨rfl, rfl⟩ := hcr
    exact ⟨f, hf, hue⟩
  · refine ⟨id, .silent ev c r, ?_⟩
    rw [Option.map_id, id]
    exact (h.ueAt c r).trans (if_neg hcr)

/-- A context that the event keeps is changed by what the event reports at most. -/
theorem handle_reports {e e' : SchedulerEngine π D} {P : Platform} {ev : Event π}
    (h : (e.handle P ev).run none = .ok e') {c : CellId} {r : Rnti}
    (hkeep : ev.replaces c r = false) :
    ∃ f, ev.Reports c r f ∧ e'.ueAt c r = (e.ueAt c r).map f := by
  have hsilent : e'.ueAt c r = e.ueAt c r →
      ∃ f, ev.Reports c r f ∧ e'.ueAt c r = (e.ueAt c r).map f := by
    intro hue
    refine ⟨id, .silent ev c r, ?_⟩
    rw [Option.map_id, id, hue]
  cases ev with
  | addCell config memory =>
      obtain ⟨⟨added, e₁⟩, hadd, hrest⟩ := run_bind_eq_ok.mp h
      cases hrest
      exact hsilent (congrFun (congrFun (addCell_ok hadd).1 c) r)
  | removeCell cellId =>
      have hne : ¬ cellId = c := by simpa [Event.replaces] using hkeep
      exact hsilent (((removeCell_ok h).1 c r).trans (if_neg hne))
  | slotIndication cellId t =>
      exact hsilent (congrFun (congrFun (onSlotIndication_users h).1 c) r)
  | ueConfig request =>
      have hne : ¬ (c = request.cellId ∧ r = request.rnti) := by
        rintro ⟨rfl, rfl⟩
        simp [Event.replaces] at hkeep
      obtain ⟨_, _, _, _, ⟨_, rfl⟩ | ⟨_, _, hue, _⟩⟩ := onUeConfig_ok h
      · exact hsilent rfl
      · exact hsilent ((hue c r).trans (if_neg hne))
  | ueRelease release =>
      have hne : ¬ (release.cellId = c ∧ release.rnti = r) := by
        rintro ⟨rfl, rfl⟩
        simp [Event.replaces] at hkeep
      exact hsilent (((onUeRelease_ok h).1 c r).trans (if_neg hne))
  | dlData n => exact (updateUe_ok h).1.reports (.dlData n) c r
  | bsr b => exact (updateUe_ok h).1.reports (.bsr b) c r
  | sr request => exact (updateUe_ok h).1.reports (.sr request) c r
  | phr p => exact (updateUe_ok h).1.reports (.phr p) c r
  | csiUpdate rnti cellId cqi => exact (updateUe_ok h).1.reports (.csiUpdate rnti cellId cqi) c r
  | harqFeedback cellId fb =>
      have houtcome := onHarqFeedback_ok h
      rw [FeedbackOutcome] at houtcome
      split at houtcome
      · refine hsilent ?_
        rw [ueAt, houtcome.1]
        rfl
      · rename_i pending _
        exact houtcome.1.reports (.harqFeedback cellId fb pending.rnti pending.isDownlink) c r
  | setPolicyManager policy | start | stop | rachIndication cellId | updateConfig config
  | resetStatistics =>
      cases h
      exact hsilent rfl

/-- A context under a cell and an RNTI that the event replaces is a new one. -/
theorem handle_replaced {e e' : SchedulerEngine π D} {P : Platform} {ev : Event π}
    (h : (e.handle P ev).run none = .ok e') {c : CellId} {r : Rnti} {ue : UeContext}
    (hreplaces : ev.replaces c r = true) (hue : e'.ueAt c r = some ue) :
    ∃ request, ev = .ueConfig request ∧ ConfiguredBy request (c, e.created c) ue ∧
      e.created c < e'.created c := by
  cases ev with
  | removeCell cellId =>
      have hc : cellId = c := by simpa [Event.replaces] using hreplaces
      rw [(removeCell_ok h).1, if_pos hc] at hue
      cases hue
  | ueRelease release =>
      have hcr : release.cellId = c ∧ release.rnti = r := by
        simpa [Event.replaces] using hreplaces
      rw [(onUeRelease_ok h).1, if_pos hcr] at hue
      cases hue
  | ueConfig request =>
      simp only [Event.replaces, Bool.and_eq_true, beq_iff_eq] at hreplaces
      obtain ⟨rfl, rfl⟩ := hreplaces
      obtain ⟨_, _, _, _, ⟨hlookup, rfl⟩ | ⟨ue', hconfigured, hueAt, hcreated⟩⟩ :=
        onUeConfig_ok h
      · rw [ueAt, hlookup] at hue
        cases hue
      · rw [hueAt, if_pos ⟨rfl, rfl⟩] at hue
        cases hue
        refine ⟨request, rfl, hconfigured, ?_⟩
        rw [hcreated, Function.update_self]
        exact Nat.lt_succ_self _
  | _ => cases hreplaces

/-- Only a configuration creates a context. -/
theorem handle_created {e e' : SchedulerEngine π D} {P : Platform} {ev : Event π}
    (h : (e.handle P ev).run none = .ok e') :
    e'.created = e.created ∨ ∃ request, ev = .ueConfig request ∧
      e'.created = Function.update e.created request.cellId (e.created request.cellId + 1) := by
  cases ev with
  | addCell config memory =>
      obtain ⟨⟨added, e₁⟩, hadd, hrest⟩ := run_bind_eq_ok.mp h
      cases hrest
      exact Or.inl (addCell_ok hadd).2.1.created
  | removeCell cellId => exact Or.inl (removeCell_ok h).2.1.created
  | slotIndication cellId t => exact Or.inl (onSlotIndication_users h).2.2
  | ueConfig request =>
      obtain ⟨_, _, _, _, ⟨_, rfl⟩ | ⟨_, _, _, hcreated⟩⟩ := onUeConfig_ok h
      · exact Or.inl rfl
      · exact Or.inr ⟨request, rfl, hcreated⟩
  | ueRelease release => exact Or.inl (onUeRelease_ok h).2.2.1.created
  | dlData n | bsr b | sr s | phr p | csiUpdate rnti cellId cqi =>
      exact Or.inl (updateUe_ok h).2.created
  | harqFeedback cellId fb =>
      have houtcome := onHarqFeedback_ok h
      rw [FeedbackOutcome] at houtcome
      split at houtcome
      · exact Or.inl houtcome.2.2.created
      · exact Or.inl houtcome.2.2.2
  | setPolicyManager policy | start | stop | rachIndication cellId | updateConfig config
  | resetStatistics =>
      cases h
      exact Or.inl rfl

theorem handle_users {e e' : SchedulerEngine π D} {P : Platform} {ev : Event π}
    (h : (e.handle P ev).run none = .ok e') : e.UserOutcome ev e' := by
  constructor
  case kept =>
    intro c r hkeep
    obtain ⟨f, hf, hue⟩ := handle_reports h hkeep
    rw [hue]
    cases e.ueAt c r with
    | none => exact Option.Rel.none
    | some ue => exact Option.Rel.some (hf.evolves ue)
  case replaced => exact fun c r ue hreplaces hue ↦ handle_replaced h hreplaces hue
  case created =>
    intro c
    rcases handle_created h with hsame | ⟨request, _, hcreated⟩
    · exact le_of_eq (congrFun hsame c).symm
    · rw [hcreated]
      by_cases hc : c = request.cellId
      · rw [hc, Function.update_self]
        exact Nat.le_succ _
      · rw [Function.update_of_ne hc]

theorem handle_configAt {e e' : SchedulerEngine π D} {P : Platform} {ev : Event π}
    (h : (e.handle P ev).run none = .ok e') {c : CellId} {cfg : CellConfig}
    (hcfg : e'.configAt c = some cfg) :
    e.configAt c = some cfg ∨ ∃ memory, ev = .addCell cfg memory ∧ cfg.cellId = c := by
  have hsame : e'.configAt = e.configAt → e.configAt c = some cfg := fun heq ↦
    (congrFun heq c).symm.trans hcfg
  cases ev with
  | addCell config memory =>
      obtain ⟨⟨added, e₁⟩, hadd, hrest⟩ := run_bind_eq_ok.mp h
      cases hrest
      obtain ⟨_, _, _, hconfigAt⟩ := addCell_ok hadd
      rw [hconfigAt, Option.or_eq_some_iff] at hcfg
      rcases hcfg with hold | ⟨_, hnew⟩
      · exact Or.inl hold
      · split at hnew
        · rename_i hc
          cases hnew
          exact Or.inr ⟨memory, rfl, hc.symm⟩
        · cases hnew
  | removeCell cellId =>
      obtain ⟨_, _, _, hconfigAt⟩ := removeCell_ok h
      rw [hconfigAt] at hcfg
      split at hcfg
      · cases hcfg
      · exact Or.inl hcfg
  | slotIndication cellId t => exact Or.inl (hsame (onSlotIndication_users h).2.1)
  | ueConfig request => exact Or.inl (hsame (onUeConfig_ok h).2.2.2.1)
  | ueRelease release => exact Or.inl (hsame (onUeRelease_ok h).2.1)
  | dlData n | bsr b | sr s | phr p | csiUpdate rnti cellId cqi =>
      exact Or.inl (hsame (updateUe_ok h).1.configAt)
  | harqFeedback cellId fb =>
      have houtcome := onHarqFeedback_ok h
      rw [FeedbackOutcome] at houtcome
      cases hrecipient : e.recipient cellId fb with
      | none =>
          rw [hrecipient] at houtcome
          refine Or.inl (hsame ?_)
          funext c
          rw [configAt, houtcome.1]
          rfl
      | some pending =>
          rw [hrecipient] at houtcome
          exact Or.inl (hsame houtcome.1.configAt)
  | setPolicyManager policy | start | stop | rachIndication cellId | updateConfig config
  | resetStatistics =>
      cases h
      exact Or.inl hcfg

/-- Only slots and feedback touch the tracker, and only slots send requests. -/
theorem handle_quiet {e e' : SchedulerEngine π D} {P : Platform} {ev : Event π}
    (h : (e.handle P ev).run none = .ok e') (hquiet : ev.isQuiet = true) :
    e'.harqTracker = e.harqTracker ∧ e'.sent = e.sent := by
  cases ev with
  | addCell config memory =>
      obtain ⟨⟨added, e₁⟩, hadd, hrest⟩ := run_bind_eq_ok.mp h
      cases hrest
      obtain ⟨_, hsame, _⟩ := addCell_ok hadd
      exact ⟨hsame.tracker, hsame.sent⟩
  | removeCell cellId =>
      obtain ⟨_, hsame, _⟩ := removeCell_ok h
      exact ⟨hsame.tracker, hsame.sent⟩
  | slotIndication cellId t | harqFeedback cellId fb => cases hquiet
  | ueConfig request =>
      obtain ⟨htracker, hsent, _⟩ := onUeConfig_ok h
      exact ⟨htracker, hsent⟩
  | ueRelease release =>
      obtain ⟨_, _, hsame, _⟩ := onUeRelease_ok h
      exact ⟨hsame.tracker, hsame.sent⟩
  | dlData n | bsr b | sr s | phr p | csiUpdate rnti cellId cqi =>
      obtain ⟨_, hsame⟩ := updateUe_ok h
      exact ⟨hsame.tracker, hsame.sent⟩
  | setPolicyManager policy | start | stop | rachIndication cellId | updateConfig config
  | resetStatistics =>
      cases h
      exact ⟨rfl, rfl⟩

/-! ## Runs -/

/-- The engine as a step function; each event comes with the choices of its platform. -/
def next (e : SchedulerEngine π D) (i : Platform × Event π) : Option (SchedulerEngine π D) :=
  match (e.handle i.1 i.2).run none with
  | .ok e' => some e'
  | .error _ => none

theorem next_eq_some {e e' : SchedulerEngine π D} {i : Platform × Event π} :
    e.next i = some e' ↔ (e.handle i.1 i.2).run none = .ok e' := by
  rw [next]
  cases (e.handle i.1 i.2).run none with
  | error f => simp
  | ok e₁ => simp

theorem onSlotIndication_of_next {e e' : SchedulerEngine π D} {P : Platform} {cellId : CellId}
    {t : FrameTiming} (h : e.next (P, .slotIndication cellId t) = some e') :
    (e.onSlotIndication P cellId t).run none = .ok e' :=
  next_eq_some.mp h

/-- What holds in every state of a run: cells are filed under their own identifier, user
contexts are told apart by their pointers, and no process ever left the idle state. -/
structure Consistent (e : SchedulerEngine π D) : Prop where
  cellId : ∀ c cfg, e.configAt c = some cfg → cfg.cellId = c
  ptr : ∀ c r ue, e.ueAt c r = some ue → ue.ptr.1 = c ∧ ue.ptr.2 < e.created c
  harq : ∀ c r ue, e.ueAt c r = some ue → ∀ isDl, ue.harq isDl = .create 16

theorem consistent_create (config : SchedulerConfig) :
    (create config : SchedulerEngine π D).Consistent where
  cellId _ _ h := by cases h
  ptr _ _ _ h := by cases h
  harq _ _ _ h := by cases h

theorem processFeedback_create (n : ℕ) (fb : HarqFeedback) :
    (HarqEntity.create n).processFeedback fb = .create n := by
  rw [HarqEntity.processFeedback]
  split
  · rw [if_neg]
    simp [HarqEntity.create]
  · rfl

theorem Consistent.step {e e' : SchedulerEngine π D} {i : Platform × Event π}
    (hinv : e.Consistent) (h : e.next i = some e') : e'.Consistent := by
  have hrun := next_eq_some.mp h
  have husers := handle_users hrun
  constructor
  case cellId =>
    intro c cfg hcfg
    rcases handle_configAt hrun hcfg with hold | ⟨_, _, hnew⟩
    · exact hinv.cellId c cfg hold
    · exact hnew
  case ptr =>
    intro c r ue hue
    rcases husers.origin hue with ⟨_, ue₀, hue₀, hevolves⟩ | ⟨request, _, _, hconfigured, hlt⟩
    · obtain ⟨hfst, hsnd⟩ := hinv.ptr c r ue₀ hue₀
      rw [hevolves.ptr]
      exact ⟨hfst, hsnd.trans_le (husers.created c)⟩
    · rw [hconfigured.ptr]
      exact ⟨rfl, hlt⟩
  case harq =>
    intro c r ue hue isDl
    rcases husers.origin hue with ⟨_, ue₀, hue₀, hevolves⟩ | ⟨request, _, _, hconfigured, _⟩
    · have hidle := hinv.harq c r ue₀ hue₀ isDl
      rcases hevolves.harq isDl with hsame | ⟨fb, hfeedback⟩
      · rw [hsame, hidle]
      · rw [hfeedback, hidle, processFeedback_create]
    · exact hconfigured.harq isDl

end SchedulerEngine

/-! ## Engines that compute -/

/-- The engine with the built-in policies over exact arithmetic. -/
abbrev RationalEngine := SchedulerEngine (BuiltinPolicy ℚ) ℚ

/-- The engine after some events on the plain platform, or a new one where an event
fails. -/
def RationalEngine.after (config : SchedulerConfig) (events : List (Event (BuiltinPolicy ℚ))) :
    RationalEngine :=
  ((events.map fun ev ↦ (Platform.plain, ev)).foldlM SchedulerEngine.next
    (SchedulerEngine.create config)).getD (SchedulerEngine.create config)

/-- A run of some events on the plain platform. -/
def SchedulerEngine.onPlain {π : Type} (events : List (Event π)) : List (Platform × Event π) :=
  events.map fun ev ↦ (.plain, ev)

end NrScheduler
