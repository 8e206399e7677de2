import NrScheduler.Engine.Transmissions

/-!
# What an event reads and writes

An event that is addressed to a cell leaves the other cells alone, and what it does to its
own cell depends on nothing but that cell.
-/

namespace NrScheduler

open LockMonad

namespace SchedulerEngine

variable {π D : Type}

/-- Only the cell `c` and what is counted for it may differ. -/
structure SameOutside (e : SchedulerEngine π D) (c : CellId) (e' : SchedulerEngine π D) :
    Prop where
  lookup : ∀ c' ≠ c, e'.cells.lookup c' = e.cells.lookup c'
  created : ∀ c' ≠ c, e'.created c' = e.created c'
  config : e'.config = e.config

/-- The engines agree on the cell `c` and on what is counted for it. -/
structure Matches (e : SchedulerEngine π D) (c : CellId) (f : SchedulerEngine π D) : Prop where
  lookup : f.cells.lookup c = e.cells.lookup c
  created : f.created c = e.created c

/-- The call `act` is about the cell `c` only. -/
structure LocalTo (act : SchedulerEngine π D → Exec (SchedulerEngine π D)) (c : CellId)
    (e e' : SchedulerEngine π D) : Prop where
  outside : e.SameOutside c e'
  policyManager : e'.policyManager = e.policyManager
  replay : ∀ f, e.Matches c f → ∃ f', (act f).run none = .ok f' ∧ e'.Matches c f'

theorem LocalTo.of_unchanged {act : SchedulerEngine π D → Exec (SchedulerEngine π D)}
    {c : CellId} {e : SchedulerEngine π D}
    (h : ∀ f, e.Matches c f → (act f).run none = .ok f) : LocalTo act c e e where
  outside := ⟨fun _ _ ↦ rfl, fun _ _ ↦ rfl, rfl⟩
  policyManager := rfl
  replay f hf := ⟨f, h f hf, hf⟩

theorem LocalTo.of_store {act : SchedulerEngine π D → Exec (SchedulerEngine π D)}
    {c : CellId} {e e' : SchedulerEngine π D} {cell : CellContext}
    (hcells : e'.cells = e.cells.insert c cell) (hcreated : e'.created = e.created)
    (hconfig : e'.config = e.config) (hpolicy : e'.policyManager = e.policyManager)
    (h : ∀ f, e.Matches c f → ∃ f', (act f).run none = .ok f' ∧
      f'.cells = f.cells.insert c cell ∧ f'.created = f.created) : LocalTo act c e e' where
  outside := by
    constructor
    case lookup =>
      intro c' hc'
      rw [hcells, AList.lookup_insert_ne hc']
    case created => exact fun c' _ ↦ congrFun hcreated c'
    case config => exact hconfig
  policyManager := hpolicy
  replay f hf := by
    obtain ⟨f', hrun, hcells', hcreated'⟩ := h f hf
    refine ⟨f', hrun, ?_, ?_⟩
    · rw [hcells', hcells, AList.lookup_insert, AList.lookup_insert]
    · rw [hcreated', hcreated, hf.created]

/-! ## Cells and users -/

theorem addCell_local {e e' : SchedulerEngine π D} {config : CellConfig} {memory : SlotContext}
    {added : Bool} (h : (e.addCell config memory).run none = .ok (added, e')) :
    LocalTo (fun e ↦ do return (← e.addCell config memory).2) config.cellId e e' := by
  have hrun : ∀ f : SchedulerEngine π D, e.Matches config.cellId f →
      (f.addCell config memory).run none = .ok (
        if (e.cells.lookup config.cellId).isSome then (false, f)
        else (true, f.setCell config.cellId (.create config memory))) := by
    intro f hf
    rw [addCell, withLock_run_none]
    by_cases hmem : config.cellId ∈ f.cells
    · have hsome := AList.lookup_isSome.mpr hmem
      rw [hf.lookup] at hsome
      rw [if_pos hmem, if_pos hsome]
      rfl
    · have hnone : ¬ (e.cells.lookup config.cellId).isSome = true := by
        rw [← hf.lookup]
        exact fun hsome ↦ hmem (AList.lookup_isSome.mp hsome)
      rw [if_neg hmem, if_neg hnone]
      rfl
  rw [hrun e ⟨rfl, rfl⟩] at h
  cases hknown : (e.cells.lookup config.cellId).isSome with
  | true =>
      rw [hknown] at h hrun
      cases h
      apply LocalTo.of_unchanged
      intro f hf
      exact run_bind_of_ok (hrun f hf)
  | false =>
      rw [hknown] at h hrun
      cases h
      refine LocalTo.of_store rfl rfl rfl rfl ?_
      intro f hf
      exact ⟨_, run_bind_of_ok (hrun f hf), rfl, rfl⟩

theorem removeCell_local {e e' : SchedulerEngine π D} {c : CellId}
    (h : (e.removeCell c).run none = .ok e') : LocalTo (fun e ↦ e.removeCell c) c e e' := by
  cases h
  constructor
  case outside =>
    refine ⟨fun c' hc' ↦ ?_, fun _ _ ↦ rfl, rfl⟩
    exact AList.lookup_erase_ne hc'
  case policyManager => rfl
  case replay =>
    intro f hf
    refine ⟨{ f with cells := f.cells.erase c }, rfl, ?_, hf.created⟩
    exact (AList.lookup_erase c f.cells).trans (AList.lookup_erase c e.cells).symm

theorem updateUe_local {e e' : SchedulerEngine π D} {c : CellId} {rnti : Rnti}
    {check : Exec Unit} {g : UeContext → UeContext} {hg : ∀ ue, (g ue).rnti = ue.rnti}
    (h : (e.updateUe c rnti check g hg).run none = .ok e') :
    LocalTo (fun e ↦ e.updateUe c rnti check g hg) c e e' := by
  cases hue : e.ueAt c rnti with
  | none =>
      have hrun : ∀ f : SchedulerEngine π D, e.Matches c f →
          (f.updateUe c rnti check g hg).run none = .ok f := by
        intro f hf
        apply updateUe_unknown
        rwa [ueAt, hf.lookup]
      rw [hrun e ⟨rfl, rfl⟩] at h
      cases h
      exact .of_unchanged hrun
  | some ue =>
      obtain ⟨cell, hlookup, hcell⟩ := ueAt_eq_some.mp hue
      have hrun : ∀ f : SchedulerEngine π D, e.Matches c f →
          (f.updateUe c rnti check g hg).run none = (do
            check
            return f.setCell c { cell with ueRepo := cell.ueRepo.modifyUe rnti g hg } :
              Exec (SchedulerEngine π D)).run none := fun f hf ↦
        updateUe_known (hf.lookup.trans hlookup) hcell check g hg
      rw [hrun e ⟨rfl, rfl⟩] at h
      obtain ⟨_, hcheck, hrest⟩ := run_bind_eq_ok.mp h
      cases hrest
      refine LocalTo.of_store rfl rfl rfl rfl ?_
      intro f hf
      exact ⟨_, (hrun f hf).trans (run_bind_of_ok hcheck), rfl, rfl⟩

section Services

variable [Double D]

theorem registerSlice_run (e : SchedulerEngine π D) (request : UeConfigRequest) :
    ∃ slices, (e.registerSlice request).run none = .ok slices := by
  rw [registerSlice]
  cases e.config.enableSlicing with
  | false => exact ⟨_, rfl⟩
  | true =>
      obtain ⟨r, hr⟩ : ∃ r, (e.sliceOrchestrator.associateUe request.rnti
          request.sliceId).run none = .ok r := by
        rw [SliceOrchestrator.associateUe, withLock_run_none]
        split
        · exact ⟨_, rfl⟩
        · exact ⟨_, rfl⟩
      exact ⟨_, run_bind_of_ok hr⟩

theorem onUeConfig_local {e e' : SchedulerEngine π D} {request : UeConfigRequest}
    (h : (e.onUeConfig request).run none = .ok e') :
    LocalTo (fun e ↦ e.onUeConfig request) request.cellId e e' := by
  cases hlookup : e.cells.lookup request.cellId with
  | none =>
      have hrun : ∀ f : SchedulerEngine π D, e.Matches request.cellId f →
          (f.onUeConfig request).run none = .ok f := by
        intro f hf
        rw [onUeConfig, withLock_run_none, hf.lookup, hlookup]
        rfl
      rw [hrun e ⟨rfl, rfl⟩] at h
      cases h
      exact .of_unchanged hrun
  | some cell =>
      -- the orchestrator of the engine may differ, but it only answers
      have hrun : ∀ f : SchedulerEngine π D, e.Matches request.cellId f →
          ∃ cell' f', (f.onUeConfig request).run none = .ok f' ∧
            (∃ ptr repo, ptr = (request.cellId, e.created request.cellId) ∧
              (cell.ueRepo.createUe ptr request.rnti).run none = .ok repo ∧
              cell' = { cell with
                ueRepo := repo.modifyUe request.rnti (configureUe request) fun _ ↦ rfl }) ∧
            f'.cells = f.cells.insert request.cellId cell' ∧
            f'.created = Function.update f.created request.cellId
              (e.created request.cellId + 1) ∧
            f'.config = f.config ∧ f'.policyManager = f.policyManager := by
        intro f hf
        obtain ⟨slices, hslices⟩ := f.registerSlice_run request
        rw [onUeConfig, withLock_run_none, hf.lookup, hlookup]
        refine ⟨_, _, run_bind_of_ok hslices, ⟨_, _, rfl, rfl, ?_⟩, rfl, ?_, rfl, rfl⟩
        · rw [hf.created]
        · rw [hf.created]
      obtain ⟨cell', e₁, he₁, ⟨ptr, repo, hptr, hrepo, hcell'⟩, hcells, hcreated, hconfig,
        hpolicy⟩ := hrun e ⟨rfl, rfl⟩
      rw [he₁] at h
      cases h
      constructor
      case outside =>
        refine ⟨fun c' hc' ↦ ?_, fun c' hc' ↦ ?_, hconfig⟩
        · rw [hcells, AList.lookup_insert_ne hc']
        · rw [hcreated, Function.update_of_ne hc']
      case policyManager => exact hpolicy
      case replay =>
        intro f hf
        obtain ⟨cell₂, f', hf', ⟨ptr₂, repo₂, hptr₂, hrepo₂, hcell₂⟩, hcells₂, hcreated₂, _⟩ :=
          hrun f hf
        have hsame : cell₂ = cell' := by
          rw [hptr₂, ← hptr, hrepo] at hrepo₂
          cases hrepo₂
          rw [hcell₂, hcell']
        refine ⟨f', hf', ?_, ?_⟩
        · rw [hcells₂, hcells, AList.lookup_insert, AList.lookup_insert, hsame]
        · rw [hcreated₂, hcreated, Function.update_self, Function.update_self]

theorem onUeRelease_local {e e' : SchedulerEngine π D} {release : UeReleaseRequest}
    (h : (e.onUeRelease release).run none = .ok e') :
    LocalTo (fun e ↦ e.onUeRelease release) release.cellId e e' := by
  cases hlookup : e.cells.lookup release.cellId with
  | none =>
      have hrun : ∀ f : SchedulerEngine π D, e.Matches release.cellId f →
          (f.onUeRelease release).run none = .ok f := by
        intro f hf
        rw [onUeRelease, withLock_run_none, hf.lookup, hlookup]
        rfl
      rw [hrun e ⟨rfl, rfl⟩] at h
      cases h
      exact .of_unchanged hrun
  | some cell =>
      have hrun : ∀ f : SchedulerEngine π D, e.Matches release.cellId f →
          ∃ qos slices, (f.onUeRelease release).run none = .ok {
            f.setCell release.cellId { cell with ueRepo := cell.ueRepo.eraseUe release.rnti } with
            qosEngine := qos, sliceOrchestrator := slices } := by
        intro f hf
        rw [onUeRelease, withLock_run_none, hf.lookup, hlookup]
        exact ⟨_, _, rfl⟩
      obtain ⟨qos, slices, he₁⟩ := hrun e ⟨rfl, rfl⟩
      rw [he₁] at h
      cases h
      refine LocalTo.of_store rfl rfl rfl rfl ?_
      intro f hf
      obtain ⟨qos', slices', hf'⟩ := hrun f hf
      exact ⟨_, hf', rfl, rfl⟩

end Services

/-! ## Feedback -/

/-- The engines have the same cells, the same policy and the same log. -/
structure SameCells (e e' : SchedulerEngine π D) : Prop where
  lookup : ∀ c, e'.cells.lookup c = e.cells.lookup c
  created : e'.created = e.created
  config : e'.config = e.config
  policyManager : e'.policyManager = e.policyManager
  sent : e'.sent = e.sent

theorem processHarqFeedback_idle {ue : UeContext} (hidle : ∀ isDl, ue.harq isDl = .create 16)
    (isDl : Bool) (fb : HarqFeedback) : ue.processHarqFeedback isDl fb = ue := by
  have hdrop : (ue.harq isDl).processFeedback fb = ue.harq isDl := by
    rw [hidle isDl, processFeedback_create]
  cases isDl with
  | true =>
      change { ue with dlHarq := (ue.harq true).processFeedback fb } = ue
      rw [hdrop]
      rfl
  | false =>
      change { ue with ulHarq := (ue.harq false).processFeedback fb } = ue
      rw [hdrop]
      rfl

/-- Feedback never fails, and in a consistent state it changes no cell. -/
theorem Consistent.onHarqFeedback {e : SchedulerEngine π D} (hinv : e.Consistent)
    (cellId : CellId) (fb : HarqFeedback) :
    ∃ e', (e.onHarqFeedback cellId fb).run none = .ok e' ∧ e.SameCells e' := by
  refine ⟨_, e.onHarqFeedback_run cellId fb, ?_⟩
  cases hrecipient : e.recipient cellId fb with
  | none => exact ⟨fun _ ↦ rfl, rfl, rfl, rfl, rfl⟩
  | some pending =>
      obtain ⟨_, cell, _, hlookup, _⟩ := accepts_of_recipient hrecipient
      simp only [receive, hlookup]
      refine ⟨fun c ↦ ?_, rfl, rfl, rfl, rfl⟩
      by_cases hc : c = cellId
      · subst hc
        rw [hlookup]
        refine (AList.lookup_insert _).trans ?_
        rw [UeRepository.modifyUe_eq_self]
        intro ue hue
        apply processHarqFeedback_idle
        exact hinv.harq c pending.rnti ue (ueAt_eq_some.mpr ⟨cell, hlookup, hue⟩)
      · exact AList.lookup_insert_ne hc

/-! ## All events of a cell -/

variable [Double D] [IPolicyManager π D]

theorem handle_local {e e' : SchedulerEngine π D} {P : Platform} {ev : Event π} {c : CellId}
    (hcell : ev.cellId? = some c) (hquiet : ev.isQuiet = true)
    (h : (e.handle P ev).run none = .ok e') : LocalTo (fun e ↦ e.handle P ev) c e e' := by
  cases ev with
  | addCell config memory =>
      cases hcell
      obtain ⟨⟨added, e₁⟩, hadd, hrest⟩ := run_bind_eq_ok.mp h
      cases hrest
      exact addCell_local hadd
  | removeCell cellId =>
      cases hcell
      exact removeCell_local h
  | ueConfig request =>
      cases hcell
      exact onUeConfig_local h
  | ueRelease release =>
      cases hcell
      exact onUeRelease_local h
  | dlData n | bsr b | sr s | phr p | csiUpdate rnti cellId cqi =>
      cases hcell
      exact updateUe_local h
  | rachIndication cellId =>
      cases h
      exact .of_unchanged fun _ _ ↦ rfl
  | slotIndication cellId t | harqFeedback cellId fb => cases hquiet
  | setPolicyManager policy | start | stop | updateConfig config | resetStatistics => cases hcell

end SchedulerEngine

end NrScheduler
