import NrScheduler.Engine.AlikeRuns
import NrScheduler.Engine.Faults

/-!
# The load of the scheduler

The part of the state that says what there is to schedule: the limits, the cells, their users and
their directions.  It evolves with the events alone, whatever the policy and the services do.
-/

namespace NrScheduler

open LockMonad

/-! ## Loads -/

/-- The configuration without what only concerns the ranks. -/
def SchedulerConfig.unranked (config : SchedulerConfig) : SchedulerConfig where
  schedulingOffsetSlots := config.schedulingOffsetSlots
  maxPdschPerTti := config.maxPdschPerTti
  maxPuschPerTti := config.maxPuschPerTti
  harqRetxPriority := config.harqRetxPriority

def UeContext.isReady (ue : UeContext) (isDl : Bool) : Bool :=
  ue.isInActiveTime && (ue.hasData isDl || (ue.harq isDl).getRetxProcess.isSome)

structure CellLoad where
  config : CellConfig
  ueRepo : UeRepository
  canSchedule : Bool → Bool

def CellContext.load (cell : CellContext) : CellLoad :=
  ⟨cell.config, cell.ueRepo, cell.currentSlot.canSchedule⟩

/-- The directions of a cell in the slot at `t`, where it can be begun. -/
def CellConfig.opens (cfg : CellConfig) (t : FrameTiming) (before : Bool → Bool) : Bool → Bool :=
  if cfg.isFdd then fun _ ↦ true
  else
    match cfg.tddPattern with
    | none => before
    | some pattern => fun isDl ↦
        match (SlotContext.patternEntry pattern t).run none with
        | .ok entry => decide (0 < if isDl then entry.numDlSymbols else entry.numUlSymbols)
        | .error _ => false

def CellLoad.begin (cell : CellLoad) (t : FrameTiming) : CellLoad :=
  { cell with canSchedule := cell.config.opens t cell.canSchedule }

structure Load where
  config : SchedulerConfig
  cells : CellId → Option CellLoad
  created : CellId → ℕ

namespace Load

def setCell (l : Load) (cellId : CellId) (cell : Option CellLoad) : Load :=
  { l with cells := Function.update l.cells cellId cell }

def mapUsers (l : Load) (cellId : CellId) (f : UeRepository → UeRepository) : Load :=
  l.setCell cellId ((l.cells cellId).map fun cell ↦ { cell with ueRepo := f cell.ueRepo })

theorem configureUe_rnti (request : UeConfigRequest) :
    ∀ ue, (SchedulerEngine.configureUe request ue).rnti = ue.rnti :=
  fun _ ↦ rfl

/-- A new context of the user, with what the request configures. -/
def configured (ptr : UePtr) (request : UeConfigRequest) (repo : UeRepository) : UeRepository :=
  UeRepository.modifyUe
    { repo.insertUe (repo.newUe ptr request.rnti) with
      nextUeId := (repo.nextUeId + 1) % 2 ^ 32
      ueById := repo.ueById.insert repo.nextUeId ptr }
    request.rnti (SchedulerEngine.configureUe request) (configureUe_rnti request)

/-- What a report tells about its user. -/
def reported {π : Type} : Event π → UeContext → UeContext
  | .dlData n, ue => ue.updateDlBuffer n.lcId n.bufferBytes
  | .bsr b, ue =>
      { ue with ulBufferStatus := { ue.ulBufferStatus with
          lcgBufferBytes := ue.ulBufferStatus.lcgBufferBytes.setIfInBounds b.lcgId b.bufferSizeBytes
          reportTime := b.reportTime } }
  | .sr _, ue => { ue with ulBufferStatus := { ue.ulBufferStatus with srPending := true } }
  | .phr p, ue => { ue with phr := p.phrValue, pCmax := p.pcmax }
  | .csiUpdate _ _ cqi, ue => { ue with dlChannelQuality := cqi }
  | _, ue => ue

theorem reported_rnti {π : Type} (ev : Event π) (ue : UeContext) :
    (reported ev ue).rnti = ue.rnti := by
  cases ev with
  | dlData n => exact SchedulerEngine.updateDlBuffer_rnti ue n.lcId n.bufferBytes
  | _ => rfl

/-- The report applied to its user, if the cell knows it. -/
def reportTo {π : Type} (l : Load) (cellId : CellId) (rnti : Rnti) (ev : Event π) : Load :=
  l.mapUsers cellId fun repo ↦ repo.modifyUe rnti (reported ev) (reported_rnti ev)

/-- The load after an event. -/
def next {π : Type} (l : Load) : Event π → Load
  | .addCell config memory =>
      l.setCell config.cellId
        ((l.cells config.cellId).or (some (CellContext.create config memory).load))
  | .removeCell cellId => l.setCell cellId none
  | .slotIndication cellId t => l.setCell cellId ((l.cells cellId).map fun cell ↦ cell.begin t)
  | .ueConfig request =>
      if (l.cells request.cellId).isNone then l
      else
        { l.mapUsers request.cellId
            (configured (request.cellId, l.created request.cellId) request) with
          created := Function.update l.created request.cellId (l.created request.cellId + 1) }
  | .ueRelease release => l.mapUsers release.cellId fun repo ↦ repo.eraseUe release.rnti
  | .dlData n => l.reportTo n.cellId n.rnti (.dlData n : Event π)
  | .bsr b => l.reportTo b.cellId b.rnti (.bsr b : Event π)
  | .sr request => l.reportTo request.cellId request.rnti (.sr request : Event π)
  | .phr p => l.reportTo p.cellId p.rnti (.phr p : Event π)
  | .csiUpdate rnti cellId cqi => l.reportTo cellId rnti (.csiUpdate rnti cellId cqi : Event π)
  | .updateConfig config => { l with config := config.unranked }
  | .setPolicyManager _ | .start | .stop | .harqFeedback _ _ | .rachIndication _
  | .resetStatistics => l

theorem ext_cells {l l' : Load} (hconfig : l'.config = l.config)
    (hcreated : l'.created = l.created) (hcells : ∀ c, l'.cells c = l.cells c) : l' = l := by
  obtain ⟨config, cells, created⟩ := l
  obtain ⟨config', cells', created'⟩ := l'
  obtain rfl : config' = config := hconfig
  obtain rfl : created' = created := hcreated
  obtain rfl : cells' = cells := funext hcells
  rfl

end Load

theorem SlotContext.canSchedule_of_initializeSlot {s slot : SlotContext} {cfg : CellConfig}
    {t : FrameTiming} (h : (s.initializeSlot cfg t).run none = .ok slot) :
    slot.canSchedule = cfg.opens t s.canSchedule := by
  rw [CellConfig.opens]
  cases hfdd : cfg.isFdd with
  | true =>
      rw [SlotContext.initializeSlot_of_fdd hfdd, run_pure_eq_ok] at h
      rw [← h, if_pos rfl]
      funext isDl
      cases isDl <;> rfl
  | false =>
      rw [if_neg Bool.false_ne_true]
      cases hpattern : cfg.tddPattern with
      | none =>
          rw [SlotContext.initializeSlot_of_none hfdd hpattern, run_pure_eq_ok] at h
          rw [← h]
          rfl
      | some pattern =>
          rw [SlotContext.initializeSlot_of_pattern hfdd hpattern] at h
          obtain ⟨entry, hentry, h⟩ := run_bind_eq_ok.mp h
          rw [run_pure_eq_ok] at h
          rw [← h]
          funext isDl
          simp only [hentry]
          cases isDl <;> rfl

/-! ## The load of a state -/

namespace SchedulerEngine

variable {π D : Type} {e e' : SchedulerEngine π D}

def load (e : SchedulerEngine π D) : Load :=
  ⟨e.config.unranked, fun c ↦ (e.cells.lookup c).map CellContext.load, e.created⟩

theorem Unsliced.of_same {f : SchedulerEngine π D} (h : e.Unsliced)
    (hsame : f.sliceOrchestrator.Registers e.sliceOrchestrator) : f.Unsliced :=
  ⟨hsame.1.trans h.sliceConfigs, hsame.2.trans h.ueSliceMap⟩

theorem load_of_insert {cellId : CellId} {cell : CellContext} (hconfig : e'.config = e.config)
    (hcells : e'.cells = e.cells.insert cellId cell) (hcreated : e'.created = e.created) :
    e'.load = e.load.setCell cellId (some cell.load) := by
  refine Load.ext_cells (congrArg SchedulerConfig.unranked hconfig) hcreated fun c ↦ ?_
  dsimp only [load, Load.setCell]
  rw [hcells]
  by_cases hc : c = cellId
  · rw [hc, AList.lookup_insert, Function.update_self, Option.map_some]
  · rw [AList.lookup_insert_ne hc, Function.update_of_ne hc]

theorem load_setCell (e : SchedulerEngine π D) (cellId : CellId) (cell : CellContext) :
    (e.setCell cellId cell).load = e.load.setCell cellId (some cell.load) := by
  refine load_of_insert ?_ ?_ ?_ <;> rfl

theorem load_cells {cellId : CellId} {cell : CellContext}
    (hlookup : e.cells.lookup cellId = some cell) : e.load.cells cellId = some cell.load :=
  congrArg (Option.map CellContext.load) hlookup

theorem load_cells_none {cellId : CellId} (hlookup : e.cells.lookup cellId = none) :
    e.load.cells cellId = none :=
  congrArg (Option.map CellContext.load) hlookup

theorem mapUsers_of_none {l : Load} {cellId : CellId} (h : l.cells cellId = none)
    (f : UeRepository → UeRepository) : l.mapUsers cellId f = l := by
  rw [Load.mapUsers, h, Load.setCell, Option.map_none, ← h, Function.update_eq_self]

theorem load_setUsers {cellId : CellId} {cell : CellContext}
    (hlookup : e.cells.lookup cellId = some cell) (f : UeRepository → UeRepository) :
    (e.setCell cellId { cell with ueRepo := f cell.ueRepo }).load = e.load.mapUsers cellId f := by
  rw [Load.mapUsers, load_cells hlookup, Option.map_some]
  exact load_setCell e cellId { cell with ueRepo := f cell.ueRepo }

theorem load_insert_self {cellId : CellId} {cell : CellContext}
    (hlookup : e.cells.lookup cellId = some cell) : (e.setCell cellId cell).load = e.load := by
  refine Load.ext_cells rfl rfl fun c ↦ congrArg (Option.map CellContext.load) ?_
  by_cases hc : c = cellId
  · rw [hc, hlookup]
    exact AList.lookup_insert e.cells
  · exact AList.lookup_insert_ne hc

theorem load_updateUe {cellId : CellId} {rnti : Rnti} {check : Exec Unit}
    {f : UeContext → UeContext} {hf : ∀ ue, (f ue).rnti = ue.rnti} (hun : e.Unsliced)
    (h : (e.updateUe cellId rnti check f hf).run none = .ok e') :
    e'.load = (e.load.mapUsers cellId fun repo ↦ repo.modifyUe rnti f hf) ∧ e'.Unsliced := by
  rcases updateUe_cases h with ⟨hue, rfl⟩ | ⟨cell, hlookup, rfl⟩
  · refine ⟨?_, hun⟩
    cases hlookup : e'.cells.lookup cellId with
    | none => exact (mapUsers_of_none (load_cells_none hlookup) _).symm
    | some cell =>
        -- an unknown user has no context to change
        have hself : cell.ueRepo.modifyUe rnti f hf = cell.ueRepo := by
          apply UeRepository.modifyUe_eq_self
          intro ue hcell
          rw [ueAt_eq_some.mpr ⟨cell, hlookup, hcell⟩] at hue
          cases hue
        rw [← load_setUsers hlookup fun repo ↦ repo.modifyUe rnti f hf, hself]
        exact (load_insert_self hlookup).symm
  · exact ⟨load_setUsers hlookup fun repo ↦ repo.modifyUe rnti f hf, hun.of_same ⟨rfl, rfl⟩⟩

variable [Double D]

theorem load_onUeConfig (hun : e.Unsliced) {request : UeConfigRequest}
    (h : (e.onUeConfig request).run none = .ok e') :
    e'.load = e.load.next (π := π) (.ueConfig request) ∧ e'.Unsliced := by
  rw [onUeConfig, withLock_run_none] at h
  rw [Load.next]
  cases hlookup : e.cells.lookup request.cellId with
  | none =>
      rw [hlookup] at h
      cases h
      rw [load_cells_none hlookup]
      exact ⟨rfl, hun⟩
  | some cell =>
      rw [hlookup] at h
      obtain ⟨repo, hrepo, h⟩ := run_bind_eq_ok.mp h
      obtain ⟨slices, hslices, h⟩ := run_bind_eq_ok.mp h
      rw [hun.registerSlice_run request, Except.ok.injEq] at hslices
      subst hslices
      cases hrepo
      cases h
      refine ⟨?_, hun.of_same ⟨rfl, rfl⟩⟩
      rw [← load_setUsers hlookup, load_cells hlookup]
      rfl

theorem load_onUeRelease (hun : e.Unsliced) {release : UeReleaseRequest}
    (h : (e.onUeRelease release).run none = .ok e') :
    e'.load = e.load.next (π := π) (.ueRelease release) ∧ e'.Unsliced := by
  rw [onUeRelease, withLock_run_none] at h
  rw [Load.next]
  cases hlookup : e.cells.lookup release.cellId with
  | none =>
      rw [hlookup] at h
      cases h
      exact ⟨(mapUsers_of_none (load_cells_none hlookup) _).symm, hun⟩
  | some cell =>
      rw [hlookup] at h
      obtain ⟨repo, hrepo, h⟩ := run_bind_eq_ok.mp h
      obtain ⟨qos, _, h⟩ := run_bind_eq_ok.mp h
      obtain ⟨slices, hslices, h⟩ := run_bind_eq_ok.mp h
      rw [hun.disassociateUe_run, Except.ok.injEq] at hslices
      subst hslices
      cases hrepo
      cases h
      refine ⟨?_, hun.of_same ⟨rfl, rfl⟩⟩
      rw [← load_setUsers hlookup]
      rfl

variable [IPolicyManager π D]

theorem load_onSlotIndication (hun : e.Unsliced) {P : Platform} {cellId : CellId}
    {t : FrameTiming} (h : (e.onSlotIndication P cellId t).run none = .ok e') :
    e'.load = e.load.next (π := π) (.slotIndication cellId t) ∧ e'.Unsliced := by
  rw [Load.next]
  cases hlookup : e.cells.lookup cellId with
  | none =>
      rw [onSlotIndication_skipped hlookup] at h
      cases h
      refine ⟨?_, hun.of_same ⟨rfl, rfl⟩⟩
      rw [Load.setCell, load_cells_none hlookup, Option.map_none, ← load_cells_none hlookup,
        Function.update_eq_self]
      rfl
  | some cell =>
      rw [onSlotIndication, withLock_run_none, hlookup] at h
      obtain ⟨cell₁, hadvance, h⟩ := run_bind_eq_ok.mp h
      obtain ⟨slot, hstart, hcell₁⟩ := run_bind_eq_ok.mp hadvance
      cases hcell₁
      obtain ⟨slices, hslices, h⟩ := run_bind_eq_ok.mp h
      obtain ⟨qos, _, h⟩ := run_bind_eq_ok.mp h
      obtain ⟨⟨cell₄, e₄⟩, hprocess, h⟩ := run_bind_eq_ok.mp h
      obtain ⟨⟨cell₂, e₂⟩, hdl, hprocess⟩ := run_bind_eq_ok.mp hprocess
      obtain ⟨⟨cell₃, e₃⟩, hul, hprocess⟩ := run_bind_eq_ok.mp hprocess
      obtain ⟨slices', hend, hprocess⟩ := run_bind_eq_ok.mp hprocess
      cases hslices
      cases hend
      cases hprocess
      cases h
      -- the uplink finds a new grid as well, and neither direction closes the other
      obtain ⟨_, hgrid⟩ := SlotContext.initializeSlot_ok hstart
      obtain ⟨_, hdl⟩ := serve_ok_of_create (hgrid true) hdl
      obtain ⟨_, hul⟩ := serve_ok_of_create (hdl.grid_create (hgrid false)) hul
      have hservices : e₃.sliceOrchestrator.Registers e.sliceOrchestrator := by
        rw [hul.sliceOrchestrator, hdl.sliceOrchestrator]
        exact ⟨rfl, rfl⟩
      have hslot : cell₃.currentSlot.canSchedule = slot.canSchedule :=
        funext fun d ↦ (hul.canSchedule d).trans (hdl.canSchedule d)
      have hcell : cell₃.countSlot.load = cell.load.begin t := by
        rw [CellLoad.begin, CellLoad.mk.injEq]
        refine ⟨hul.cellConfig.trans hdl.cellConfig, hul.ueRepo.trans hdl.ueRepo, ?_⟩
        exact hslot.trans (SlotContext.canSchedule_of_initializeSlot hstart)
      refine ⟨?_, hun.of_same hservices⟩
      rw [load_cells hlookup, Option.map_some, ← hcell]
      exact load_of_insert (hul.config.trans hdl.config)
        (congrArg (AList.insert cellId _) (hul.cells.trans hdl.cells))
        (hul.created.trans hdl.created)

/-- Every event takes the load of a state to that of the next one. -/
theorem load_handle (hinv : e.Consistent) (hun : e.Unsliced) {P : Platform} {ev : Event π}
    (h : (e.handle P ev).run none = .ok e') : e'.load = e.load.next ev ∧ e'.Unsliced := by
  cases ev with
  | addCell config memory =>
      obtain ⟨⟨added, e₁⟩, hadd, hrest⟩ := run_bind_eq_ok.mp h
      cases hrest
      rw [SchedulerEngine.addCell, withLock_run_none] at hadd
      rw [Load.next]
      by_cases hmem : config.cellId ∈ e.cells
      · rw [if_pos hmem] at hadd
        cases hadd
        obtain ⟨cell, hcell⟩ := Option.isSome_iff_exists.mp (AList.lookup_isSome.mpr hmem)
        refine ⟨?_, hun⟩
        rw [load_cells hcell, Option.some_or, ← load_cells hcell, Load.setCell,
          Function.update_eq_self]
      · rw [if_neg hmem] at hadd
        cases hadd
        refine ⟨?_, hun.of_same ⟨rfl, rfl⟩⟩
        rw [load_cells_none (AList.lookup_eq_none.mpr hmem), Option.none_or]
        exact load_setCell e config.cellId (CellContext.create config memory)
  | removeCell cellId =>
      cases h
      refine ⟨Load.ext_cells rfl rfl fun c ↦ ?_, hun.of_same ⟨rfl, rfl⟩⟩
      dsimp only [load, Load.next, Load.setCell]
      by_cases hc : c = cellId
      · rw [hc, AList.lookup_erase, Function.update_self, Option.map_none]
      · rw [AList.lookup_erase_ne hc, Function.update_of_ne hc]
  | slotIndication cellId t => exact load_onSlotIndication hun h
  | ueConfig request => exact load_onUeConfig hun h
  | ueRelease release => exact load_onUeRelease hun h
  | dlData _ | bsr _ | sr _ | phr _ | csiUpdate _ _ _ => exact load_updateUe hun h
  | harqFeedback cellId fb =>
      obtain ⟨e₁, he₁, hsame⟩ := hinv.onHarqFeedback cellId fb
      obtain rfl : e₁ = e' := Except.ok.inj (he₁.symm.trans h)
      refine ⟨Load.ext_cells (congrArg SchedulerConfig.unranked hsame.config) hsame.created
        fun c ↦ ?_, hun.of_same ?_⟩
      · exact congrArg (Option.map CellContext.load) (hsame.lookup c)
      · rw [(Prod.mk.inj (services_onHarqFeedback h)).2]
        exact ⟨rfl, rfl⟩
  | setPolicyManager _ | start | stop | rachIndication _ | updateConfig _ | resetStatistics =>
      cases h
      exact ⟨rfl, hun.of_same ⟨rfl, rfl⟩⟩

/-- A reachable state and the load that the events of its run made. -/
structure Bears (e : SchedulerEngine π D) (l : Load) : Prop where
  consistent : e.Consistent
  unsliced : e.Unsliced
  load : e.load = l

theorem Bears.next {l : Load} (h : e.Bears l) {i : Platform × Event π}
    (hnext : e.next i = some e') : e'.Bears (l.next i.2) := by
  obtain ⟨hload, hun⟩ := load_handle h.consistent h.unsliced (next_eq_some.mp hnext)
  exact ⟨h.consistent.step hnext, hun, h.load ▸ hload⟩

/-! ## Faults -/

theorem isOpen_eq (cell : CellContext) (isDl : Bool) (t : FrameTiming) :
    cell.isOpen isDl t =
      (cell.config.hasDirections && (cell.load.begin t).canSchedule isDl) := by
  rw [CellContext.isOpen]
  cases hdirections : cell.config.hasDirections with
  | true =>
      obtain ⟨slot, hslot⟩ := SlotContext.exists_initializeSlot_iff.mpr hdirections
      rw [hslot]
      exact congrFun (SlotContext.canSchedule_of_initializeSlot hslot) isDl
  | false =>
      split
      · rename_i slot hslot
        rw [SlotContext.exists_initializeSlot_iff.mp ⟨slot, hslot⟩] at hdirections
        cases hdirections
      · rfl

end SchedulerEngine

/-- Someone competes for the blocks of a direction. -/
def Load.Competes (l : Load) (cell : CellLoad) (t : FrameTiming) (isDl : Bool) : Prop :=
  (0 < l.config.limit isDl ∧ 0 < cell.config.numRbs) ∧
    cell.config.hasDirections = true ∧ (cell.begin t).canSchedule isDl = true ∧
    ∃ r ue, cell.ueRepo.ue? r = some ue ∧ ue.isReady isDl = true ∧
      SchedulerEngine.hasCandidate l.config isDl ue = true

/-- The event does no harm to a scheduler with this load. -/
def Load.Harmless {π : Type} (l : Load) : Event π → Prop
  | .bsr b => b.lcgId < 8 ∨ (l.cells b.cellId).bind (fun cell ↦ cell.ueRepo.ue? b.rnti) = none
  | .slotIndication cellId t => ∀ cell, l.cells cellId = some cell →
      cell.config.hasDirections = true ∧ ∀ isDl, l.Competes cell t isDl →
        cell.config.numRbs ≤ 273 ∧ t.slotsPerFrame ≠ 0
  | _ => True

namespace SchedulerEngine

variable {π D : Type} {e e' : SchedulerEngine π D}

theorem competes_iff (hun : e.Unsliced) {P : Platform} {cellId : CellId} {cell : CellContext}
    (hlookup : e.cells.lookup cellId = some cell) {t : FrameTiming} {isDl : Bool} :
    e.competes P cellId t isDl = true ↔ e.load.Competes cell.load t isDl := by
  rw [competes_eq_true hlookup, Load.Competes]
  refine and_congr Iff.rfl ?_
  constructor
  · rintro ⟨ue, hmem, hcontends⟩
    have hue := UeRepository.mem_users.mp hmem
    obtain ⟨hopen, heligible, hcandidate⟩ := (contends_eq_true hlookup hue).mp hcontends
    rw [isOpen_eq, Bool.and_eq_true] at hopen
    exact ⟨hopen.1, hopen.2, _, ue, hue, (hun.isEligible isDl ue).symm.trans heligible,
      hcandidate⟩
  · rintro ⟨hdirections, hopen, r, ue, hue, hready, hcandidate⟩
    have hue' : cell.ueRepo.ue? ue.rnti = some ue := (UeRepository.ue?_rnti hue).symm ▸ hue
    refine ⟨ue, UeRepository.mem_users.mpr hue', (contends_eq_true hlookup hue').mpr
      ⟨?_, (hun.isEligible isDl ue).trans hready, hcandidate⟩⟩
    rw [isOpen_eq, Bool.and_eq_true]
    exact ⟨hdirections, hopen⟩

/-- Which events do harm is a matter of the load. -/
theorem harmless_iff (hun : e.Unsliced) (i : Platform × Event π) :
    e.harmless i = true ↔ e.load.Harmless i.2 := by
  obtain ⟨P, ev⟩ := i
  cases ev with
  | bsr b =>
      rw [harmless, Bool.or_eq_true, decide_eq_true_eq, Option.isNone_iff_eq_none]
      refine or_congr Iff.rfl ?_
      rw [ueAt, load, Option.bind_map]
      exact Iff.rfl
  | slotIndication cellId t =>
      cases hlookup : e.cells.lookup cellId with
      | none =>
          have hnone := load_cells_none hlookup
          refine iff_of_true ?_ fun cell hcell ↦ ?_
          · rw [harmless]
            dsimp only
            rw [hlookup]
            rfl
          · rw [hnone] at hcell
            cases hcell
      | some cell =>
          rw [harmless_slotIndication hlookup]
          constructor
          · rintro ⟨hdirections, hfits⟩ cell' hcell'
            rw [load_cells hlookup] at hcell'
            cases hcell'
            exact ⟨hdirections, fun isDl h ↦ hfits isDl ((competes_iff hun hlookup).mpr h)⟩
          · intro h
            obtain ⟨hdirections, hfits⟩ := h cell.load (load_cells hlookup)
            exact ⟨hdirections, fun isDl h ↦ hfits isDl ((competes_iff hun hlookup).mp h)⟩
  | _ => exact iff_of_true rfl trivial

variable [Double D] [IPolicyManager π D]

theorem Bears.next_exists_iff {l : Load} (h : e.Bears l) (i : Platform × Event π) :
    (∃ e', e.next i = some e') ↔ l.Harmless i.2 := by
  rw [SchedulerEngine.next_exists_iff h.consistent, harmless_iff h.unsliced, h.load]

/-! ## Runs -/

/-- The load of a new scheduler. -/
def idleLoad (config : SchedulerConfig) : Load :=
  ⟨config.unranked, fun _ ↦ none, fun _ ↦ 0⟩

theorem bears_create (config : SchedulerConfig) :
    (create config : SchedulerEngine π D).Bears (idleLoad config) :=
  ⟨consistent_create config, ⟨rfl, rfl⟩, Load.ext_cells rfl rfl fun _ ↦ rfl⟩

/-- The load that the events of a run make. -/
def loadOf (config : SchedulerConfig) (is : List (Platform × Event π)) : Load :=
  is.foldl (fun l i ↦ l.next i.2) (idleLoad config)

theorem bears_of_run {config : SchedulerConfig} {is : List (Platform × Event π)}
    (h : is.foldlM SchedulerEngine.next (create config) = some e) :
    e.Bears (loadOf config is) := by
  apply Runs.foldlM_followed ?_ (bears_create config) h
  exact fun _ _ _ _ hbears hnext ↦ hbears.next hnext

end SchedulerEngine

end NrScheduler
