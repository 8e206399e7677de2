import NrScheduler.Properties.SelfDeadlock

/-!
# Reports change one user

A report of the radio side is handled without a fault, and of all contexts it changes at most
the one it is about, provided a buffer status report names one of the eight groups.
-/

namespace NrScheduler

open LockMonad

variable {π D : Type}

/-- The events that report on users: buffers, requests, channels and feedback. -/
def Event.isReport : Event π → Bool
  | .dlData _ | .bsr _ | .sr _ | .phr _ | .csiUpdate _ _ _ | .harqFeedback _ _ => true
  | _ => false

/-- The report writes to a group of a known user that does not exist. -/
def Event.missesGroup (e : SchedulerEngine π D) : Event π → Bool
  | .bsr b => decide (8 ≤ b.lcgId) && (e.ueAt b.cellId b.rnti).isSome
  | _ => false

/-- All of a cell is the same but the contexts of the users in `changed`. -/
structure CellContext.AgreesBut (changed : Rnti → Prop) (cell cell' : CellContext) : Prop where
  config : cell'.config = cell.config
  currentSlot : cell'.currentSlot = cell.currentSlot
  stats : cell'.stats = cell.stats
  nextUeId : cell'.ueRepo.nextUeId = cell.ueRepo.nextUeId
  ueById : cell'.ueRepo.ueById = cell.ueRepo.ueById
  known : ∀ r, (cell'.ueRepo.ue? r).isSome = (cell.ueRepo.ue? r).isSome
  ue : ∀ r, ¬ changed r → cell'.ueRepo.ue? r = cell.ueRepo.ue? r

theorem CellContext.AgreesBut.refl (changed : Rnti → Prop) (cell : CellContext) :
    cell.AgreesBut changed cell :=
  ⟨rfl, rfl, rfl, rfl, rfl, fun _ ↦ rfl, fun _ _ ↦ rfl⟩

namespace SchedulerEngine

/-- The user an event is about: the known one it names, or the one of the first entry that
accepts the feedback. -/
def addressee (e : SchedulerEngine π D) : Event π → Option (CellId × Rnti)
  | .dlData n => (e.ueAt n.cellId n.rnti).map fun _ ↦ (n.cellId, n.rnti)
  | .bsr b => (e.ueAt b.cellId b.rnti).map fun _ ↦ (b.cellId, b.rnti)
  | .sr s => (e.ueAt s.cellId s.rnti).map fun _ ↦ (s.cellId, s.rnti)
  | .phr p => (e.ueAt p.cellId p.rnti).map fun _ ↦ (p.cellId, p.rnti)
  | .csiUpdate rnti cellId _ => (e.ueAt cellId rnti).map fun _ ↦ (cellId, rnti)
  | .harqFeedback cellId fb => (e.recipient cellId fb).map fun pending ↦ (cellId, pending.rnti)
  | _ => none

/-- Apart from the context of `target`, only the tracker and the statistics have changed. -/
structure ChangesOnly (target : Option (CellId × Rnti)) (e e' : SchedulerEngine π D) : Prop where
  cells : ∀ c, Option.Rel (CellContext.AgreesBut fun r ↦ target = some (c, r))
    (e.cells.lookup c) (e'.cells.lookup c)
  rest : e' = { e with cells := e'.cells, harqTracker := e'.harqTracker, stats := e'.stats }

variable {e e' : SchedulerEngine π D}

theorem ChangesOnly.of_cells_eq (target : Option (CellId × Rnti)) (hcells : e'.cells = e.cells)
    (hrest : e' = { e with
      cells := e'.cells, harqTracker := e'.harqTracker, stats := e'.stats }) :
    ChangesOnly target e e' where
  cells c := by
    rw [hcells]
    cases e.cells.lookup c with
    | none => exact .none
    | some cell => exact .some (.refl _ cell)
  rest := hrest

theorem ChangesOnly.of_modifyUe {cellId : CellId} {rnti : Rnti} {cell : CellContext}
    {f : UeContext → UeContext} {hf : ∀ ue, (f ue).rnti = ue.rnti}
    (hlookup : e.cells.lookup cellId = some cell)
    (hcells : e'.cells =
      e.cells.insert cellId { cell with ueRepo := cell.ueRepo.modifyUe rnti f hf })
    (hrest : e' = { e with
      cells := e'.cells, harqTracker := e'.harqTracker, stats := e'.stats }) :
    ChangesOnly (some (cellId, rnti)) e e' where
  cells c := by
    rw [hcells]
    by_cases hc : c = cellId
    · subst hc
      rw [AList.lookup_insert, hlookup]
      refine .some ⟨rfl, rfl, rfl, rfl, rfl, fun r ↦ ?_, fun r hr ↦ ?_⟩
      · simp only [UeRepository.ue?_modifyUe]
        split
        · simp [*]
        · rfl
      · have hne : r ≠ rnti := fun heq ↦ hr (by rw [heq])
        simp only [UeRepository.ue?_modifyUe, if_neg hne]
    · rw [AList.lookup_insert_ne hc]
      cases e.cells.lookup c with
      | none => exact .none
      | some cell => exact .some (.refl _ cell)
  rest := hrest

/-! ## One handler -/

/-- A handler whose check passes, or is not made, changes the user it names. -/
theorem updateUe_changesOnly {cellId : CellId} {rnti : Rnti} {check : Exec Unit}
    (hcheck : (e.ueAt cellId rnti).isSome → check.run none = .ok ())
    (f : UeContext → UeContext) (hf : ∀ ue, (f ue).rnti = ue.rnti) :
    ∃ e', (e.updateUe cellId rnti check f hf).run none = .ok e' ∧
      ChangesOnly ((e.ueAt cellId rnti).map fun _ ↦ (cellId, rnti)) e e' := by
  cases hue : e.ueAt cellId rnti with
  | none => exact ⟨e, updateUe_unknown hue check f hf, .of_cells_eq _ rfl rfl⟩
  | some ue =>
      obtain ⟨cell, hlookup, hcell⟩ := ueAt_eq_some.mp hue
      refine ⟨_, (updateUe_known hlookup hcell check f hf).trans
        (run_bind_of_ok (hcheck (by rw [hue]; rfl))), ?_⟩
      exact .of_modifyUe hlookup rfl rfl

theorem onHarqFeedback_changesOnly (e : SchedulerEngine π D) (cellId : CellId) (fb : HarqFeedback) :
    ∃ e', (e.onHarqFeedback cellId fb).run none = .ok e' ∧
      ChangesOnly ((e.recipient cellId fb).map fun pending ↦ (cellId, pending.rnti)) e e' := by
  refine ⟨_, e.onHarqFeedback_run cellId fb, ?_⟩
  cases hrecipient : e.recipient cellId fb with
  | none => exact .of_cells_eq _ rfl rfl
  | some pending =>
      obtain ⟨_, cell, _, hlookup, _⟩ := accepts_of_recipient hrecipient
      simp only [receive, hlookup, Option.elim_some]
      exact .of_modifyUe hlookup rfl rfl

variable [Double D] [IPolicyManager π D]

/-- With every mutex taken as the code takes it, the event is handled, and apart from the user it
is about only the tracker and the statistics change. -/
def HandlesLocally (e : SchedulerEngine π D) (P : Platform) (ev : Event π) : Prop :=
  ∃ e', (e.handle P ev).run (some []) = .ok e' ∧ ChangesOnly (e.addressee ev) e e'

theorem handle_run_locks (e : SchedulerEngine π D) (P : Platform) {ev : Event π}
    (hev : ev.isReport = true) : (e.handle P ev).run (some []) = (e.handle P ev).run none := by
  refine (e.footprint_handle P ev ?_).run_nil
  rintro cellId t rfl
  cases hev

theorem not_handlesLocally {P : Platform} {ev : Event π} (hev : ev.isReport = true)
    (hmisses : ev.missesGroup e = true) : ¬ e.HandlesLocally P ev := by
  rintro ⟨e', hrun, _⟩
  rw [handle_run_locks e P hev] at hrun
  cases ev with
  | bsr b =>
      simp only [Event.missesGroup, Bool.and_eq_true, decide_eq_true_eq] at hmisses
      cases (onBsr_crash hmisses.2 hmisses.1).symm.trans hrun
  | _ => cases hmisses

/-- A report is handled safely and locally unless it writes to a group that does not exist. -/
theorem handlesLocally_iff (e : SchedulerEngine π D) (P : Platform) {ev : Event π}
    (hev : ev.isReport = true) : e.HandlesLocally P ev ↔ ev.missesGroup e = false := by
  refine ⟨fun h ↦ Bool.eq_false_iff.mpr fun hmisses ↦ not_handlesLocally hev hmisses h,
    fun hreaches ↦ ?_⟩
  rw [HandlesLocally, handle_run_locks e P hev]
  cases ev with
  | bsr b =>
      refine updateUe_changesOnly (fun hknown ↦ ?_) _ _
      have hgroup : b.lcgId < 8 := by
        by_contra hge
        simp [Event.missesGroup, hknown, not_lt.mp hge] at hreaches
      rw [if_pos hgroup]
      rfl
  | dlData n | sr s | phr p | csiUpdate rnti cellId cqi =>
      exact updateUe_changesOnly (fun _ ↦ rfl) _ _
  | harqFeedback cellId fb => exact e.onHarqFeedback_changesOnly cellId fb
  | _ => cases hev

end SchedulerEngine

namespace RationalEngine

open SchedulerEngine

/-- An engine that knows user 7 of cell 1. -/
def ofOneUser : RationalEngine :=
  RationalEngine.after {}
    [.addCell (.fdd 1 106) .cleared, .ueConfig { rnti := 7, cellId := 1 }]

theorem handlesLocally_sr : HandlesLocally ofOneUser .plain (.sr ⟨7, 1⟩) ↔
    (Event.sr ⟨7, 1⟩).missesGroup ofOneUser = false :=
  handlesLocally_iff ofOneUser .plain rfl

/-- A report about group 8 of a known user writes behind the eight groups. -/
theorem not_handlesLocally_bsr : ¬ ∀ (e : RationalEngine) (P : Platform)
    (ev : Event (BuiltinPolicy ℚ)), ev.isReport = true → e.HandlesLocally P ev := by
  intro h
  refine not_handlesLocally rfl ?_ (h ofOneUser .plain (.bsr ⟨7, 1, 8, 100, {}⟩) rfl)
  decide +kernel

end RationalEngine

end NrScheduler
