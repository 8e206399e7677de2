import NrScheduler.Engine.Locality
import NrScheduler.Engine.Transmissions

/-!
# Faults

Whether an event crashes the engine can be told from the state before it.  Only the group
of a buffer status report and the configuration of a cell that is scheduled can be at fault.
-/

namespace NrScheduler

open LockMonad

/-- A carrier that follows a pattern finds an entry for every slot. -/
def CellConfig.hasDirections (cfg : CellConfig) : Bool :=
  cfg.isFdd || cfg.tddPattern.all fun pattern ↦
    pattern.periodicitySlots != 0 && pattern.slotConfigs != []

theorem CellConfig.hasDirections_eq_true {cfg : CellConfig} :
    cfg.hasDirections = true ↔ (cfg.isFdd = false → ∀ pattern, cfg.tddPattern = some pattern →
      pattern.periodicitySlots ≠ 0 ∧ pattern.slotConfigs ≠ []) := by
  rw [hasDirections]
  cases cfg.isFdd with
  | true => simp
  | false => cases cfg.tddPattern <;> simp

/-- A slot can be begun exactly if the pattern has an entry for it. -/
theorem SlotContext.exists_initializeSlot_iff {cfg : CellConfig} {s : SlotContext}
    {t : FrameTiming} :
    (∃ slot, (s.initializeSlot cfg t).run none = .ok slot) ↔ cfg.hasDirections = true := by
  rw [CellConfig.hasDirections_eq_true]
  constructor
  · rintro ⟨slot, hslot⟩ hfdd pattern hpattern
    rw [initializeSlot_of_pattern hfdd hpattern] at hslot
    obtain ⟨entry, hentry, _⟩ := run_bind_eq_ok.mp hslot
    constructor
    · intro hzero
      rw [patternEntry, if_pos hzero] at hentry
      cases hentry
    · intro hempty
      rw [patternEntry, TddPattern.getConfig, hempty] at hentry
      split at hentry <;> cases hentry
  · exact fun h ↦ s.exists_initializeSlot h t

namespace SchedulerEngine

/-! ## One direction -/

section Serve

variable {π D : Type}

theorem exists_buildFor (e : SchedulerEngine π D) (cell : CellContext) (isDl : Bool)
    (ds : List (SchedulingDecision D)) (hspf : cell.currentSlot.timing.slotsPerFrame ≠ 0) :
    ∃ r, (e.buildFor cell isDl ds).run none = .ok r := by
  have hbuild : ∀ t : FrameTiming, t.slotsPerFrame = cell.currentSlot.timing.slotsPerFrame →
      ∃ r, (e.buildTtiRequest cell isDl t ds).run none = .ok r := by
    intro t ht
    rw [buildTtiRequest_run, if_neg fun hzero ↦ hspf (ht ▸ hzero.1)]
    exact ⟨_, rfl⟩
  cases isDl with
  | true => exact hbuild _ rfl
  | false =>
      obtain ⟨r, hr⟩ := hbuild (cell.currentSlot.timing.plus e.config.schedulingOffsetSlots) rfl
      refine ⟨r, (run_bind_of_ok ?_).trans hr⟩
      exact FrameTiming.advanced_run (Nat.pos_of_ne_zero hspf) _

variable [Double D] [IPolicyManager π D]

/-- Serving a direction on a new grid returns, where the blocks and the frame fit whatever
there is to send. -/
theorem exists_serve (e : SchedulerEngine π D) (P : Platform) {cell : CellContext} {isDl : Bool}
    {numSymbols : ℕ} (hgrid : cell.currentSlot.grid isDl = .create cell.config.numRbs numSymbols)
    (hfits : cell.currentSlot.canSchedule isDl = true → 0 < e.config.limit isDl →
      0 < cell.config.numRbs → e.candidates P cell isDl ≠ [] →
        cell.config.numRbs ≤ 273 ∧ cell.currentSlot.timing.slotsPerFrame ≠ 0) :
    ∃ cell' e', (e.serve P cell isDl).run none = .ok (cell', e') := by
  rw [serve]
  cases hopen : cell.currentSlot.canSchedule isDl with
  | false => exact ⟨cell, e, rfl⟩
  | true =>
      have hnum : (cell.currentSlot.grid isDl).numRbs = cell.config.numRbs := by
        rw [hgrid]
        rfl
      have hschedule : e.scheduleFor P cell isDl = e.schedule P cell isDl := by
        cases isDl <;> rfl
      obtain ⟨ranked, policy, qos, hrun, hranked⟩ :=
        calculatePriorities_run P cell isDl (e.candidates P cell isDl) e
      have hranking : e.IsRanking P cell isDl (sortByPriority P ranked) :=
        isRanking_sortByPriority hranked
      have hnil : e.candidates P cell isDl = [] → sortByPriority P ranked = [] := by
        intro hnone
        rw [IsRanking, hnone, List.perm_nil, List.map_eq_nil_iff] at hranking
        exact hranking
      rw [if_pos rfl, hschedule]
      by_cases hn : cell.config.numRbs ≤ 273
      case pos =>
        have hfree : DefaultResourceAllocator.FreeFrom (cell.currentSlot.grid isDl) 0 := by
          rw [hgrid]
          exact DefaultResourceAllocator.freeFrom_create _ _
        obtain ⟨g, failures, hloop⟩ := allocateLoop_run [] cell
          { e with policyManager := policy, qosEngine := qos } hranking.known hn hnum hfree
        have hall := (schedule_run e P cell isDl).trans ((run_bind_of_ok hrun).trans hloop)
        rw [ReaderT.run_bind, hall]
        change ∃ cell' e', (if _ = [] then _ else _ : Exec _).run none = _
        split
        · exact ⟨_, _, rfl⟩
        · -- something is granted, so there is a candidate, and room and a block for it
          rename_i hgranted
          rw [List.nil_append] at hgranted
          obtain ⟨piece, hpiece⟩ := List.exists_mem_of_ne_nil _ (mt List.map_eq_nil_iff.mpr
            hgranted)
          obtain ⟨_, hle, hpos, _⟩ := Carve.mem_carve hpiece
          have hlimit : 0 < e.config.limit isDl := by
            refine Nat.pos_of_ne_zero fun hzero ↦ hgranted ?_
            exact (congrArg (fun n ↦ grants P cell n 0 _) hzero).trans (grants_zero _ _ _ _)
          have hsome : e.candidates P cell isDl ≠ [] := by
            intro hnone
            rw [hnil hnone, grants_nil] at hgranted
            exact hgranted rfl
          have htiming := cell.currentSlot.timing_setGrid isDl g
          obtain ⟨r, hr⟩ := exists_buildFor _ (cell.setGrid isDl g) isDl _
            (htiming ▸ (hfits hopen hlimit (by omega) hsome).2)
          exact ⟨r.1, r.2, hr⟩
      case neg =>
        have hloop : (allocateLoop P isDl (sortByPriority P ranked) [] cell
            { e with policyManager := policy, qosEngine := qos }).run none = _ :=
          allocateLoop_oversize hranking.known (not_le.mp hn) hnum
        rw [if_pos] at hloop
        · have hall := (schedule_run e P cell isDl).trans ((run_bind_of_ok hrun).trans hloop)
          rw [ReaderT.run_bind, hall]
          exact ⟨_, _, rfl⟩
        · by_contra hboth
          obtain ⟨hne, hzero⟩ := not_or.mp hboth
          refine hn (hfits hopen (Nat.pos_of_ne_zero hzero) (by omega) ?_).1
          exact fun hnone ↦ hne (hnil hnone)

end Serve

/-! ## One event -/

variable {π D : Type} [Double D] [IPolicyManager π D]

/-- The event does not crash the engine. -/
def harmless (e : SchedulerEngine π D) (i : Platform × Event π) : Bool :=
  match i.2 with
  | .bsr b => decide (b.lcgId < 8) || (e.ueAt b.cellId b.rnti).isNone
  | .slotIndication c t =>
      (e.cells.lookup c).all fun cell ↦ cell.config.hasDirections &&
        [true, false].all fun isDl ↦ !e.competes i.1 c t isDl ||
          decide (cell.config.numRbs ≤ 273 ∧ t.slotsPerFrame ≠ 0)
  | _ => true

omit [Double D] [IPolicyManager π D] in
theorem harmless_slotIndication {e : SchedulerEngine π D} {P : Platform} {c : CellId}
    {t : FrameTiming} {cell : CellContext} (hlookup : e.cells.lookup c = some cell) :
    e.harmless (P, .slotIndication c t) = true ↔ cell.config.hasDirections = true ∧
      ∀ isDl, e.competes P c t isDl = true → cell.config.numRbs ≤ 273 ∧ t.slotsPerFrame ≠ 0 := by
  simp only [harmless, hlookup, Option.all_some, Bool.and_eq_true, List.all_cons, List.all_nil,
    Bool.and_true, Bool.or_eq_true, Bool.not_eq_true', decide_eq_true_eq, Bool.forall_bool]
  grind

theorem onSlotIndication_exists_iff (e : SchedulerEngine π D) (P : Platform) (c : CellId)
    (t : FrameTiming) : (∃ e', (e.onSlotIndication P c t).run none = .ok e') ↔
      e.harmless (P, .slotIndication c t) = true := by
  cases hlookup : e.cells.lookup c with
  | none =>
      refine iff_of_true ⟨_, onSlotIndication_skipped hlookup P t⟩ ?_
      simp only [harmless, hlookup, Option.all_none]
  | some cell =>
      rw [harmless_slotIndication hlookup]
      constructor
      · rintro ⟨e', h⟩
        rcases onSlotIndication_ok h with ⟨hnone, _⟩ | ⟨cell', slot, dl, ul, houtcome⟩
        · rw [hlookup] at hnone
          cases hnone
        · obtain rfl : cell = cell' := Option.some.inj (hlookup.symm.trans houtcome.lookup)
          refine ⟨SlotContext.exists_initializeSlot_iff.mp ⟨slot, houtcome.start⟩, ?_⟩
          intro isDl hcompetes
          obtain ⟨r, hr, _⟩ := houtcome.exists_request_of_competes hcompetes
          exact houtcome.fits (List.ne_nil_of_mem hr)
      · rintro ⟨hdirections, hfits⟩
        obtain ⟨slot, hslot⟩ := SlotContext.exists_initializeSlot_iff (s := cell.currentSlot)
          (t := t).mpr hdirections
        obtain ⟨rfl, hgrid⟩ := SlotContext.initializeSlot_ok hslot
        obtain ⟨slices, hslices⟩ :
            ∃ o, (e.sliceOrchestrator.onSlotStart slot.timing).run none = .ok o := ⟨_, rfl⟩
        obtain ⟨qos, hqos⟩ : ∃ o, (e.qosEngine.onSlotTick P).run none = .ok o := ⟨_, rfl⟩
        have hallows := SliceOrchestrator.onSlotStart_ok hslices
        -- an engine that agrees on what the candidates depend on serves either direction
        have hserves : ∀ (f : SchedulerEngine π D) (cell₁ : CellContext) (isDl : Bool),
            f.config = e.config → f.sliceOrchestrator.allows = e.sliceOrchestrator.allows →
            cell₁.ueRepo = cell.ueRepo → cell₁.config = cell.config →
            cell₁.currentSlot.timing = slot.timing →
            cell₁.currentSlot.canSchedule isDl = slot.canSchedule isDl →
            cell₁.currentSlot.grid isDl =
              .create cell₁.config.numRbs cell.config.symbolsPerSlot →
            ∃ cell₂ f', (f.serve P cell₁ isDl).run none = .ok (cell₂, f') := by
          intro f cell₁ isDl hconfig hallows hrepo hcell htiming hopen hgrid₁
          refine exists_serve f P hgrid₁ fun hopen₁ hlimit hrbs hne ↦ ?_
          rw [hcell] at hrbs
          rw [hcell, htiming]
          obtain ⟨d, hd⟩ := List.exists_mem_of_ne_nil _ hne
          obtain ⟨ue, hue, heligible, hcandidate⟩ := mem_candidates.mp hd
          have hrnti : ue.rnti = d.rnti := UeRepository.ue?_rnti hue
          rw [hrepo] at hue
          refine hfits isDl ((competes_eq_true hlookup).mpr ⟨⟨hconfig ▸ hlimit, hrbs⟩, ue, ?_, ?_⟩)
          · rw [UeRepository.mem_users, hrnti]
            exact hue
          · rw [hrnti, contends_eq_true hlookup hue]
            refine ⟨?_, ?_, ?_⟩
            · simp only [CellContext.isOpen, hslot]
              exact hopen ▸ hopen₁
            · rw [isEligible, ← hconfig, ← hallows]
              exact heligible
            · rw [← hconfig, ← candidate_isSome (D := D) f.config P, hcandidate]
              rfl
        obtain ⟨cell₂, e₂, hdl⟩ := hserves { e with
          policyManager := IPolicyManager.onSlotStart D e.policyManager slot.timing
          sliceOrchestrator := slices
          qosEngine := qos } { cell with currentSlot := slot } true rfl hallows rfl rfl rfl rfl
            (hgrid true)
        obtain ⟨_, houtcome⟩ := serve_ok_of_create (hgrid true) hdl
        obtain ⟨cell₃, e₃, hul⟩ := hserves e₂ cell₂ false houtcome.config
          ((congrArg _ houtcome.sliceOrchestrator).trans hallows) houtcome.ueRepo
          houtcome.cellConfig houtcome.timing (houtcome.canSchedule false)
          (houtcome.grid_create (hgrid false))
        obtain ⟨slices', hend⟩ : ∃ o, (e₃.sliceOrchestrator.onSlotEnd P).run none = .ok o :=
          ⟨_, rfl⟩
        exact ⟨_, onSlotIndication_of_served hlookup hslot hslices hqos hdl hul hend⟩

omit [Double D] [IPolicyManager π D] in
theorem exists_updateUe (e : SchedulerEngine π D) (cellId : CellId) (rnti : Rnti)
    {check : Exec Unit} (hcheck : (e.ueAt cellId rnti).isSome → check.run none = .ok ())
    (f : UeContext → UeContext) (hf : ∀ ue, (f ue).rnti = ue.rnti) :
    ∃ e', (e.updateUe cellId rnti check f hf).run none = .ok e' := by
  cases hue : e.ueAt cellId rnti with
  | none => exact ⟨e, updateUe_unknown hue check f hf⟩
  | some ue =>
      obtain ⟨cell, hlookup, hcell⟩ := ueAt_eq_some.mp hue
      rw [updateUe_known hlookup hcell]
      exact ⟨_, run_bind_of_ok (hcheck (by rw [hue]; rfl))⟩

/-- In a consistent state an event completes exactly if it is harmless. -/
theorem next_exists_iff {e : SchedulerEngine π D} (hinv : e.Consistent)
    (i : Platform × Event π) : (∃ e', e.next i = some e') ↔ e.harmless i = true := by
  obtain ⟨P, ev⟩ := i
  simp only [next_eq_some]
  cases ev with
  | slotIndication c t => exact e.onSlotIndication_exists_iff P c t
  | bsr b =>
      rw [harmless, Bool.or_eq_true, decide_eq_true_eq, Option.isNone_iff_eq_none]
      constructor
      · rintro ⟨e', h⟩
        by_contra hnot
        obtain ⟨hgroup, hue⟩ := not_or.mp hnot
        cases (onBsr_crash (Option.ne_none_iff_isSome.mp hue) (not_lt.mp hgroup)).symm.trans h
      · intro hsafe
        apply e.exists_updateUe
        intro hsome
        rcases hsafe with hgroup | hnone
        · rw [if_pos hgroup]
          rfl
        · rw [hnone] at hsome
          cases hsome
  | addCell config memory =>
      refine iff_of_true ?_ rfl
      rw [handle, addCell, ReaderT.run_bind, withLock_run_none]
      split <;> exact ⟨_, rfl⟩
  | ueConfig request =>
      refine iff_of_true ?_ rfl
      rw [handle, onUeConfig, withLock_run_none]
      cases e.cells.lookup request.cellId with
      | none => exact ⟨_, rfl⟩
      | some cell =>
          obtain ⟨slices, hslices⟩ := e.registerSlice_run request
          exact ⟨_, run_bind_of_ok hslices⟩
  | ueRelease release =>
      refine iff_of_true ?_ rfl
      rw [handle, onUeRelease, withLock_run_none]
      cases e.cells.lookup release.cellId with
      | none => exact ⟨_, rfl⟩
      | some cell => exact ⟨_, rfl⟩
  | dlData _ | sr _ | phr _ | csiUpdate _ _ _ =>
      exact iff_of_true (e.exists_updateUe _ _ (fun _ ↦ rfl) _ _) rfl
  | harqFeedback cellId fb =>
      obtain ⟨e', he', _⟩ := hinv.onHarqFeedback cellId fb
      exact iff_of_true ⟨e', he'⟩ rfl
  | removeCell _ | setPolicyManager _ | start | stop | rachIndication _ | updateConfig _
  | resetStatistics => exact iff_of_true ⟨_, rfl⟩ rfl

end SchedulerEngine

end NrScheduler
