import NrScheduler.Engine.AlikeSlots
import NrScheduler.Engine.Locality

/-!
# Runs of engines that look alike

Every event keeps two engines alike, and some events keep an engine like it was.  So runs whose
other events agree send the same requests.
-/

namespace NrScheduler

open LockMonad

namespace SchedulerEngine

variable {π D : Type} {e f : SchedulerEngine π D} {cell cell' : CellContext}

/-! ## Reports and users -/

/-- A change of one user of each engine. -/
theorem Alike.updateUe (h : e.Alike f) (cellId : CellId) (rnti : Rnti) (check : Exec Unit)
    {g g' : UeContext → UeContext} (hg : ∀ ue, (g ue).rnti = ue.rnti)
    (hg' : ∀ ue, (g' ue).rnti = ue.rnti)
    (halike : ∀ ue ue', ue.Alike ue' → (g ue).Alike (g' ue')) :
    Coupled Alike (e.updateUe cellId rnti check g hg) (f.updateUe cellId rnti check g' hg') := by
  rw [SchedulerEngine.updateUe, SchedulerEngine.updateUe]
  refine .withLock _ ?_
  have hcells := h.cells cellId
  generalize e.cells.lookup cellId = found at hcells ⊢
  generalize f.cells.lookup cellId = found' at hcells ⊢
  cases hcells with
  | none => exact .pure h
  | some hcell =>
      refine (hcell.ueRepo.findByRnti rnti).bind ?_
      rintro _ _ (hue | _)
      case none => exact .pure h
      case some ue ue' =>
        exact .bind_left fun _ ↦ .pure
          (h.setCell cellId (hcell.setRepo (hcell.ueRepo.modifyUe rnti hg hg' halike)))

/-! ## Cells and users -/

theorem Alike.mem_iff (h : e.Alike f) (cellId : CellId) : cellId ∈ f.cells ↔ cellId ∈ e.cells := by
  have hcells := h.cells cellId
  rw [← AList.lookup_isSome, ← AList.lookup_isSome]
  generalize e.cells.lookup cellId = found at hcells ⊢
  generalize f.cells.lookup cellId = found' at hcells ⊢
  cases hcells with
  | none => exact Iff.rfl
  | some hcell => exact Iff.rfl

theorem Alike.addCell (h : e.Alike f) (config : CellConfig) (memory : SlotContext) :
    Coupled (fun p p' ↦ p.2.Alike p'.2) (e.addCell config memory) (f.addCell config memory) := by
  rw [SchedulerEngine.addCell, SchedulerEngine.addCell]
  refine .withLock _ (.ite (h.mem_iff config.cellId) (fun _ ↦ .pure h) fun _ ↦ .pure ?_)
  exact h.setCell config.cellId (.refl _)

theorem Alike.removeCell (h : e.Alike f) (cellId : CellId) :
    Coupled Alike (e.removeCell cellId) (f.removeCell cellId) := by
  refine .withLock _ (.pure ⟨h.config, fun c ↦ ?_, h.policyManager, h.sent,
    h.created, h.idle.of_services rfl rfl rfl, h.idle'.of_services rfl rfl rfl⟩)
  by_cases hc : c = cellId
  · rw [hc, AList.lookup_erase, AList.lookup_erase]
    exact .none
  · rw [AList.lookup_erase_ne hc, AList.lookup_erase_ne hc]
    exact h.cells c

variable [Double D]

/-- No slice is known, so no user is associated with one. -/
theorem Unsliced.registerSlice_run (h : e.Unsliced) (request : UeConfigRequest) :
    (e.registerSlice request).run none = .ok e.sliceOrchestrator := by
  rw [registerSlice]
  cases e.config.enableSlicing with
  | false => exact rfl
  | true =>
      have hrefused : (e.sliceOrchestrator.associateUe request.rnti request.sliceId).run none =
          .ok (false, e.sliceOrchestrator) := by
        rw [SliceOrchestrator.associateUe, withLock_run_none, h.sliceConfigs,
          if_neg (AList.notMem_empty _)]
        exact rfl
      exact run_bind_of_ok hrefused

theorem configureUe_alike (request : UeConfigRequest) {ue ue' : UeContext} (h : ue.Alike ue') :
    (configureUe request ue).Alike (configureUe request ue') := by
  have hunseen := h.unseen
  refine ⟨?_, h.dlBuffer⟩
  rw [configureUe, configureUe, hunseen]

omit [Double D] in
/-- The cell of a handler is rewritten, and the contexts counted. -/
theorem Alike.setUsers (h : e.Alike f) (cellId : CellId) (hcell : cell.Alike cell')
    (created : CellId → ℕ) :
    Alike { e.setCell cellId cell with created := created }
      { f.setCell cellId cell' with created := created } where
  config := h.config
  cells := (h.setCell cellId hcell).cells
  policyManager := h.policyManager
  sent := h.sent
  created := rfl
  idle := h.idle.of_services rfl rfl rfl
  idle' := h.idle'.of_services rfl rfl rfl

theorem Alike.onUeConfig (h : e.Alike f) (request : UeConfigRequest) :
    Coupled Alike (e.onUeConfig request) (f.onUeConfig request) := by
  rw [SchedulerEngine.onUeConfig, SchedulerEngine.onUeConfig, h.created]
  refine .withLock _ ?_
  have hcells := h.cells request.cellId
  generalize e.cells.lookup request.cellId = found at hcells ⊢
  generalize f.cells.lookup request.cellId = found' at hcells ⊢
  cases hcells with
  | none => exact .pure h
  | some hcell =>
      refine (hcell.ueRepo.createUe _ request.rnti).bind fun repo repo' hrepo ↦ ?_
      have hconfigured := hrepo.modifyUe (f := configureUe request) (g := configureUe request)
        request.rnti (fun _ ↦ rfl) (fun _ ↦ rfl) fun ue ue' hue ↦ configureUe_alike request hue
      refine .of_ok (run_bind_of_ok (h.idle.registerSlice_run request))
        (run_bind_of_ok (h.idle'.registerSlice_run request)) ?_
      exact h.setUsers request.cellId (hcell.setRepo hconfigured) _

omit [Double D] in
theorem Idle.removeUeFlows_run (h : e.Idle) (rnti : Rnti) :
    (e.qosEngine.removeUeFlows rnti).run none = .ok e.qosEngine := by
  rw [QosEngine.removeUeFlows, withLock_run_none, h.flows, AList.lookup_empty]
  exact rfl

theorem Unsliced.disassociateUe_run (h : e.Unsliced) (rnti : Rnti) :
    (e.sliceOrchestrator.disassociateUe rnti).run none = .ok e.sliceOrchestrator := by
  rw [SliceOrchestrator.disassociateUe, withLock_run_none, h.ueSliceMap, AList.lookup_empty]
  exact rfl

theorem Alike.onUeRelease (h : e.Alike f) (release : UeReleaseRequest) :
    Coupled Alike (e.onUeRelease release) (f.onUeRelease release) := by
  rw [SchedulerEngine.onUeRelease, SchedulerEngine.onUeRelease]
  refine .withLock _ ?_
  have hcells := h.cells release.cellId
  generalize e.cells.lookup release.cellId = found at hcells ⊢
  generalize f.cells.lookup release.cellId = found' at hcells ⊢
  cases hcells with
  | none => exact .pure h
  | some hcell =>
      have hrepo := hcell.ueRepo.eraseUe release.rnti
      refine Coupled.bind (R := UeRepository.Alike) (.pure hrepo) fun repo repo' hrepo ↦ ?_
      refine .of_ok ((run_bind_of_ok (h.idle.removeUeFlows_run release.rnti)).trans
          (run_bind_of_ok (h.idle.disassociateUe_run release.rnti)))
        ((run_bind_of_ok (h.idle'.removeUeFlows_run release.rnti)).trans
          (run_bind_of_ok (h.idle'.disassociateUe_run release.rnti))) ?_
      exact h.setCell release.cellId (hcell.setRepo hrepo)

/-! ## All events -/

end SchedulerEngine

/-- Events that may differ in the switches of the services only. -/
inductive Event.Alike {π : Type} : Event π → Event π → Prop
  | refl (ev : Event π) : Alike ev ev
  | updateConfig {config config' : SchedulerConfig} (h : config.Alike config') :
      Alike (.updateConfig config) (.updateConfig config')

/-- The event reaches what the scheduler reads. -/
def Event.counts {π : Type} : Event π → Bool
  | .phr _ | .harqFeedback _ _ | .start | .stop | .rachIndication _ | .resetStatistics => false
  | _ => true

namespace SchedulerEngine

variable {π D : Type} {e f : SchedulerEngine π D}

theorem Alike.updateConfig {D : Type} [IPolicyManager π D] {e f : SchedulerEngine π D}
    (h : e.Alike f) {config config' : SchedulerConfig} (hconfig : config.Alike config') :
    Coupled Alike (e.updateConfig config) (f.updateConfig config') := by
  have hstrategy : (IPolicyManager.createPolicyManager (D := D) config'.strategy : π) =
      IPolicyManager.createPolicyManager (D := D) config.strategy := by rw [hconfig.strategy]
  exact .withLock _ (.pure ⟨hconfig, h.cells, hstrategy, h.sent, h.created,
    h.idle.of_services rfl rfl rfl, h.idle'.of_services rfl rfl rfl⟩)

theorem Alike.handle [UnitDouble D] [IPolicyManager π D] [ReadsAlike π D] (h : e.Alike f)
    {P : Platform} (hP : P.Oblivious) {ev ev' : Event π} (hcounts : ev.counts = true)
    (hev : ev.Alike ev') : Coupled Alike (e.handle P ev) (f.handle P ev') := by
  cases hev with
  | updateConfig hconfig => exact h.updateConfig hconfig
  | refl =>
      cases ev with
      | addCell config memory => exact (h.addCell config memory).bind fun _ _ hadd ↦ .pure hadd
      | removeCell cellId => exact h.removeCell cellId
      | setPolicyManager policy => exact .pure (h.setPolicyManager rfl)
      | slotIndication cellId t => exact h.onSlotIndication hP cellId t
      | ueConfig request => exact h.onUeConfig request
      | ueRelease release => exact h.onUeRelease release
      | dlData n =>
          exact h.updateUe n.cellId n.rnti _ _ _ fun ue ue' hue ↦
            hue.updateDlBuffer n.lcId n.bufferBytes
      | bsr b =>
          refine h.updateUe b.cellId b.rnti _ _ _ fun ue ue' hue ↦ ⟨?_, hue.dlBuffer⟩
          rw [hue.unseen]
      | sr s =>
          refine h.updateUe s.cellId s.rnti _ _ _ fun ue ue' hue ↦ ⟨?_, hue.dlBuffer⟩
          rw [hue.unseen]
      | csiUpdate rnti cellId cqi =>
          refine h.updateUe cellId rnti _ _ _ fun ue ue' hue ↦ ⟨?_, hue.dlBuffer⟩
          rw [hue.unseen]
      | updateConfig config => exact h.updateConfig (.refl config)
      | phr _ | harqFeedback _ _ | start | stop | rachIndication _ | resetStatistics =>
          cases hcounts

/-! ## Events that do not count -/

/-- One engine rewrites a cell so that it still looks like that of the other. -/
theorem Alike.setCell_left (h : e.Alike f) {cellId : CellId} {cell cell' : CellContext}
    (hlookup : f.cells.lookup cellId = some cell') (hcell : cell.Alike cell') :
    (e.setCell cellId cell).Alike f where
  config := h.config
  cells c := by
    rw [SchedulerEngine.setCell]
    by_cases hc : c = cellId
    · rw [hc, AList.lookup_insert, hlookup]
      exact .some hcell
    · rw [AList.lookup_insert_ne hc]
      exact h.cells c
  policyManager := h.policyManager
  sent := h.sent
  created := h.created
  idle := h.idle.of_services rfl rfl rfl
  idle' := h.idle'

theorem Alike.onPhr (h : e.Alike f) (phr : PowerHeadroomReport) :
    ∃ e', (e.onPhr phr).run none = .ok e' ∧ e'.Alike f := by
  cases hue : e.ueAt phr.cellId phr.rnti with
  | none => exact ⟨e, updateUe_unknown hue _ _ _, h⟩
  | some ue =>
      obtain ⟨cell, hlookup, hcell⟩ := ueAt_eq_some.mp hue
      refine ⟨_, updateUe_known hlookup hcell _ _ _, ?_⟩
      have hcells := h.cells phr.cellId
      rw [hlookup] at hcells
      generalize hlookup' : f.cells.lookup phr.cellId = found at hcells
      cases hcells with
      | @some _ cell' hcell =>
          refine h.setCell_left hlookup' ?_
          refine hcell.setRepo (hcell.ueRepo.modifyUe_left _ _ fun ue ue' hue ↦ ⟨?_, hue.dlBuffer⟩)
          rw [hue.unseen]

/-- Feedback does not reach the services. -/
theorem services_onHarqFeedback {e' : SchedulerEngine π D} {cellId : CellId} {fb : HarqFeedback}
    (h : (e.onHarqFeedback cellId fb).run none = .ok e') :
    (e'.qosEngine, e'.sliceOrchestrator) = (e.qosEngine, e.sliceOrchestrator) := by
  rw [onHarqFeedback_run, Except.ok.injEq] at h
  subst h
  cases e.recipient cellId fb with
  | none => rfl
  | some pending =>
      dsimp only
      rw [receive]
      cases e.cells.lookup cellId with
      | none => rfl
      | some cell => rfl

/-- No process waits for the feedback, whoever it is for. -/
theorem Alike.onHarqFeedback (h : e.Alike f) (hinv : e.Consistent) (cellId : CellId)
    (fb : HarqFeedback) : ∃ e', (e.onHarqFeedback cellId fb).run none = .ok e' ∧ e'.Alike f := by
  obtain ⟨e', hrun, hsame⟩ := hinv.onHarqFeedback cellId fb
  obtain ⟨hqos, hslices⟩ := Prod.mk.inj (services_onHarqFeedback hrun)
  exact ⟨e', hrun,
    { config := hsame.config ▸ h.config
      cells := fun c ↦ hsame.lookup c ▸ h.cells c
      policyManager := h.policyManager.trans hsame.policyManager.symm
      sent := h.sent.trans hsame.sent.symm
      created := h.created.trans hsame.created.symm
      idle := h.idle.of_services (by rw [hqos]) (by rw [hslices]) (by rw [hslices])
      idle' := h.idle' }⟩

variable [UnitDouble D] [IPolicyManager π D]

theorem Alike.next_hidden (h : e.Alike f) (hinv : e.Consistent) {i : Platform × Event π}
    (hi : i.2.counts = false) : ∃ e', e.next i = some e' ∧ e'.Alike f := by
  have hhandled : ∃ e', (e.handle i.1 i.2).run none = .ok e' ∧ e'.Alike f := by
    obtain ⟨P, ev⟩ := i
    cases ev with
    | phr p => exact h.onPhr p
    | harqFeedback cellId fb => exact h.onHarqFeedback hinv cellId fb
    | start => exact ⟨_, rfl, h.setRunning true f.running⟩
    | stop => exact ⟨_, rfl, h.setRunning false f.running⟩
    | rachIndication cellId => exact ⟨e, rfl, h⟩
    | resetStatistics => exact ⟨_, rfl, h.setStats {} f.stats⟩
    | _ => cases hi
  obtain ⟨e', hrun, he'⟩ := hhandled
  exact ⟨e', next_eq_some.mpr hrun, he'⟩

variable [ReadsAlike π D]

theorem Alike.next (h : e.Alike f) {i j : Platform × Event π} (hP : i.1.Oblivious)
    (hcounts : i.2.counts = true) (hsame : j.1 = i.1) (hev : i.2.Alike j.2) :
    Option.Rel Alike (e.next i) (f.next j) := by
  have hhandled := h.handle hP hcounts hev
  rw [SchedulerEngine.next, SchedulerEngine.next, hsame]
  rw [Coupled] at hhandled
  generalize (e.handle i.1 i.2).run none = r at hhandled ⊢
  generalize (f.handle i.1 j.2).run none = r' at hhandled ⊢
  cases hhandled with
  | ok hresult => exact .some hresult
  | error _ => exact .none

/-! ## Runs -/

/-- Two inputs come from the same platform and are events alike. -/
structure SameInput (i j : Platform × Event π) : Prop where
  platform : j.1 = i.1
  oblivious : i.1.Oblivious
  event : i.2.Alike j.2

omit [UnitDouble D] [IPolicyManager π D] [ReadsAlike π D] in
theorem sameInput_filter_refl {is : List (Platform × Event π)} (hP : ∀ i ∈ is, i.1.Oblivious) :
    List.Forall₂ SameInput (is.filter fun i ↦ i.2.counts) (is.filter fun i ↦ i.2.counts) :=
  List.forall₂_same.mpr fun i hi ↦ ⟨rfl, hP i (List.mem_of_mem_filter hi), .refl i.2⟩

omit [UnitDouble D] [IPolicyManager π D] [ReadsAlike π D] in
theorem oblivious_onPlain {events : List (Event π)} {i : Platform × Event π}
    (hi : i ∈ onPlain events) : i.1.Oblivious := by
  obtain ⟨ev, _, rfl⟩ := List.mem_map.mp hi
  exact Platform.oblivious_plain

/-- Engines that look alike and are as runs leave them. -/
structure Twins (e f : SchedulerEngine π D) : Prop where
  alike : e.Alike f
  consistent : e.Consistent
  consistent' : f.Consistent

/-- The events that count decide how a run goes on. -/
theorem Twins.foldlM (h : e.Twins f) {is js : List (Platform × Event π)}
    (hinputs : List.Forall₂ SameInput (is.filter fun i ↦ i.2.counts)
      (js.filter fun j ↦ j.2.counts)) :
    Option.Rel Twins (is.foldlM SchedulerEngine.next e) (js.foldlM SchedulerEngine.next f) := by
  have hcounted := (List.forall₂_and_left _ _).mpr
    ⟨fun i (hi : i ∈ is.filter fun i ↦ i.2.counts) ↦ (List.mem_filter.mp hi).2, hinputs⟩
  refine Runs.aligned Twins (fun i ↦ i.2.counts) (fun j ↦ j.2.counts) ?_ ?_ ?_ h hcounted
  · rintro e f i j ⟨h, hinv, hinv'⟩ ⟨hi, hij⟩
    have hnext := h.next hij.oblivious hi hij.platform hij.event
    cases hleft : e.next i with
    | none =>
        rw [hleft] at hnext
        cases hright : f.next j with
        | none => exact .none
        | some f' =>
            rw [hright] at hnext
            cases hnext
    | some e' =>
        cases hright : f.next j with
        | none =>
            rw [hleft, hright] at hnext
            cases hnext
        | some f' =>
            rw [hleft, hright] at hnext
            obtain halike | _ := hnext
            exact .some ⟨halike, hinv.step hleft, hinv'.step hright⟩
  · rintro e f i ⟨h, hinv, hinv'⟩ hi
    obtain ⟨e', he', h'⟩ := h.next_hidden hinv hi
    exact ⟨e', he', h', hinv.step he', hinv'⟩
  · rintro e f j ⟨h, hinv, hinv'⟩ hj
    obtain ⟨f', hf', h'⟩ := h.symm.next_hidden hinv' hj
    exact ⟨f', hf', h'.symm, hinv, hinv'.step hf'⟩

omit [UnitDouble D] [ReadsAlike π D] in
theorem alike_create {D : Type} [Double D] [IPolicyManager π D] {config config' : SchedulerConfig}
    (h : config.Alike config') :
    (create config : SchedulerEngine π D).Alike (create config') where
  config := h
  cells _ := .none
  policyManager := by
    change IPolicyManager.createPolicyManager (D := D) config'.strategy = _
    rw [h.strategy]
    rfl
  sent := rfl
  created := rfl
  idle := ⟨⟨rfl, rfl⟩, rfl⟩
  idle' := ⟨⟨rfl, rfl⟩, rfl⟩

omit [UnitDouble D] [ReadsAlike π D] in
theorem twins_create {D : Type} [Double D] [IPolicyManager π D] {config config' : SchedulerConfig}
    (h : config.Alike config') : (create config : SchedulerEngine π D).Twins (create config') :=
  ⟨alike_create h, consistent_create config, consistent_create config'⟩

/-- The requests sent in a run, if it completes. -/
def sentBy (e : SchedulerEngine π D) (is : List (Platform × Event π)) :
    Option (List TtiRequest) :=
  (is.foldlM SchedulerEngine.next e).map sent

theorem Twins.sentBy (h : e.Twins f) {is js : List (Platform × Event π)}
    (hinputs : List.Forall₂ SameInput (is.filter fun i ↦ i.2.counts)
      (js.filter fun j ↦ j.2.counts)) : f.sentBy js = e.sentBy is := by
  have hruns := h.foldlM hinputs
  rw [SchedulerEngine.sentBy, SchedulerEngine.sentBy]
  generalize is.foldlM SchedulerEngine.next e = r at hruns ⊢
  generalize js.foldlM SchedulerEngine.next f = r' at hruns ⊢
  cases hruns with
  | none => rfl
  | some hresult => exact congrArg some hresult.alike.sent

end SchedulerEngine

end NrScheduler
