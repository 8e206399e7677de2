import NrScheduler.Engine.RunSpec
import NrScheduler.Engine.ScheduleSpec
import NrScheduler.Lib.WrappingSum

/-!
# Buffer totals

A user is watched together with the sizes reported for it last.  Its totals tell whether
anything is left to send, unless the true total is a positive multiple of 2^32.
-/

namespace NrScheduler

open LockMonad Runs WrappingSum

/-- What changes the buffers of a user. -/
inductive BufferUpdate where
  | dlData (lcId : LcId) (bytes : ℕ)
  | bsr (lcgId bytes : ℕ) (reportTime : FrameTiming)
  | ulStatus (status : BufferStatus)
  | sr

/-- The sizes reported last, and whether a scheduling request came. -/
structure Reported where
  dl : LcId → ℕ
  ul : Fin 8 → ℕ
  sr : Bool

def Reported.HasData (r : Reported) (isDl : Bool) : Prop :=
  if isDl then ∃ lcId, r.dl lcId ≠ 0 else (∃ lcgId, r.ul lcgId ≠ 0) ∨ r.sr = true

namespace UeContext

def update (ue : UeContext) : BufferUpdate → Option UeContext
  | .dlData lcId bytes => some (ue.updateDlBuffer lcId bytes)
  | .bsr lcgId bytes reportTime =>
      if lcgId < 8 then
        some { ue with
          ulBufferStatus := { ue.ulBufferStatus with
            lcgBufferBytes := ue.ulBufferStatus.lcgBufferBytes.setIfInBounds lcgId bytes
            reportTime := reportTime } }
      else none
  | .ulStatus status => some (ue.updateUlBuffer status)
  | .sr => some { ue with ulBufferStatus := { ue.ulBufferStatus with srPending := true } }

/-- The buffers of a user, read as reports. -/
def reported (ue : UeContext) : Reported where
  dl lcId := (ue.dlBufferBytes.lookup lcId).getD 0
  ul lcgId := ue.ulBufferStatus.lcgBufferBytes[lcgId]
  sr := ue.ulBufferStatus.srPending

@[simp] theorem reported_dl (ue : UeContext) (lcId : LcId) :
    ue.reported.dl lcId = (ue.dlBufferBytes.lookup lcId).getD 0 := rfl

/-- The true sums of the buffer sizes. -/
def bytesOf (ue : UeContext) (isDl : Bool) : ℕ :=
  if isDl then (ue.dlBufferBytes.entries.map Sigma.snd).sum
  else (ue.ulBufferStatus.lcgBufferBytes.toList.map id).sum

end UeContext

/-- An update as the reports have it. -/
def Reported.observe (_ : UeContext) (update : BufferUpdate) (_ : UeContext) (r : Reported) :
    Reported :=
  match update with
  | .dlData lcId bytes => { r with dl := fun lc ↦ if lc = lcId then bytes else r.dl lc }
  | .bsr lcgId bytes _ => { r with ul := fun lcg ↦ if (lcg : ℕ) = lcgId then bytes else r.ul lcg }
  | .ulStatus status =>
      { r with ul := fun lcg ↦ status.lcgBufferBytes[lcg], sr := status.srPending }
  | .sr => { r with sr := true }

/-- The totals are zero exactly where nothing is reported, and neither the user nor the
eligibility filter of any engine takes it for empty where something is. -/
structure Honest (π D : Type) (ue : UeContext) (r : Reported) : Prop where
  dl : ue.totalDlBuffer = 0 ↔ ∀ lcId, r.dl lcId = 0
  ul : ue.totalUlBuffer = 0 ↔ ∀ lcgId, r.ul lcgId = 0
  pending : ue.hasPendingData = true ↔ r.HasData true ∨ r.HasData false
  eligible : ∀ isDl, r.HasData isDl → ∀ (e : SchedulerEngine π D) (P : Platform)
    (cell : CellContext), ue ∈ cell.ueRepo.users P → ue.isInActiveTime = true →
    (e.config.enableSlicing = true → e.sliceOrchestrator.allows ue.rnti 1 isDl = true) →
    ∃ eligible, ignoringLocks (e.getEligibleUes P cell isDl) = some eligible ∧ ue ∈ eligible

variable {ue ue' : UeContext} {r : Reported}

/-! ## Totals -/

theorem totalDlBuffer_eq_zero_iff :
    (ue.totalDlBuffer = 0 ↔ ∀ lcId, ue.reported.dl lcId = 0) ↔
      ¬ FullWrap (2 ^ 32) (ue.bytesOf true) := by
  have hall : (∀ lcId, ue.reported.dl lcId = 0) ↔ ∀ e ∈ ue.dlBufferBytes.entries, e.2 = 0 := by
    constructor
    · rintro h ⟨lcId, bytes⟩ he
      have hlookup : ue.dlBufferBytes.lookup lcId = some bytes := AList.mem_lookup_iff.mpr he
      have hzero := h lcId
      rwa [UeContext.reported_dl, hlookup] at hzero
    · intro h lcId
      rw [UeContext.reported_dl]
      cases hlookup : ue.dlBufferBytes.lookup lcId with
      | none => rfl
      | some bytes => exact h _ (AList.mem_lookup_iff.mp hlookup)
  rw [hall]
  exact foldl_eq_zero_iff (Nat.two_pow_pos 32) Sigma.snd ue.dlBufferBytes.entries

theorem totalUlBuffer_eq_zero_iff :
    (ue.totalUlBuffer = 0 ↔ ∀ lcgId, ue.reported.ul lcgId = 0) ↔
      ¬ FullWrap (2 ^ 32) (ue.bytesOf false) := by
  have hall : (∀ lcgId, ue.reported.ul lcgId = 0) ↔
      ∀ bytes ∈ ue.ulBufferStatus.lcgBufferBytes.toList, bytes = 0 := by
    constructor
    · intro h bytes hbytes
      obtain ⟨lcgId, hlt, rfl⟩ := Vector.mem_iff_getElem.mp (Vector.mem_toList_iff.mp hbytes)
      exact h ⟨lcgId, hlt⟩
    · intro h lcgId
      exact h _ (Vector.mem_toList_iff.mpr (Vector.getElem_mem lcgId.isLt))
  rw [hall, UeContext.totalUlBuffer, BufferStatus.totalBuffer, ← Vector.foldl_toList]
  exact foldl_eq_zero_iff (Nat.two_pow_pos 32) id ue.ulBufferStatus.lcgBufferBytes.toList

theorem hasData_iff (hdl : ¬ FullWrap (2 ^ 32) (ue.bytesOf true))
    (hul : ¬ FullWrap (2 ^ 32) (ue.bytesOf false)) (isDl : Bool) :
    ue.hasData isDl = true ↔ ue.reported.HasData isDl := by
  have hdl' := totalDlBuffer_eq_zero_iff.mpr hdl
  have hul' := totalUlBuffer_eq_zero_iff.mpr hul
  cases isDl with
  | true =>
      rw [UeContext.hasData, if_pos rfl, decide_eq_true_eq, Nat.pos_iff_ne_zero, Ne, hdl',
        not_forall]
      rfl
  | false =>
      rw [UeContext.hasData, if_neg Bool.false_ne_true, Bool.or_eq_true, decide_eq_true_eq,
        Nat.pos_iff_ne_zero, Ne, hul', not_forall]
      rfl

variable {π D : Type}

/-- A user with data passes the filter if the rest of it lets it pass. -/
theorem mem_eligible {isDl : Bool} (hdata : ue.hasData isDl = true) (e : SchedulerEngine π D)
    {P : Platform} {cell : CellContext} (huser : ue ∈ cell.ueRepo.users P)
    (hactive : ue.isInActiveTime = true)
    (hslice : e.config.enableSlicing = true →
      e.sliceOrchestrator.allows ue.rnti 1 isDl = true) :
    ∃ eligible, ignoringLocks (e.getEligibleUes P cell isDl) = some eligible ∧
      ue ∈ eligible := by
  refine ⟨_, ignoringLocks_eq_some.mpr (e.getEligibleUes_run P cell isDl),
    List.mem_filter.mpr ⟨huser, ?_⟩⟩
  rw [SchedulerEngine.isEligible, hactive, hdata, Bool.true_or, Bool.true_and, Bool.true_and]
  cases hslicing : e.config.enableSlicing with
  | false => rfl
  | true => exact hslice hslicing

theorem honest_iff : Honest π D ue ue.reported ↔
    ¬ FullWrap (2 ^ 32) (ue.bytesOf true) ∧ ¬ FullWrap (2 ^ 32) (ue.bytesOf false) := by
  constructor
  · intro h
    exact ⟨totalDlBuffer_eq_zero_iff.mp h.dl, totalUlBuffer_eq_zero_iff.mp h.ul⟩
  · rintro ⟨hdl, hul⟩
    refine ⟨totalDlBuffer_eq_zero_iff.mpr hdl, totalUlBuffer_eq_zero_iff.mpr hul, ?_, ?_⟩
    · rw [← hasData_iff hdl hul true, ← hasData_iff hdl hul false, ← Bool.or_eq_true]
      refine Eq.congr (Bool.or_assoc _ _ _) rfl
    · intro isDl hdata e P cell
      exact mem_eligible ((hasData_iff hdl hul isDl).mpr hdata) e

/-! ## Reports -/

theorem lookup_updateDlBuffer (ue : UeContext) (lcId : LcId) (bytes : ℕ) (lc : LcId) :
    ((ue.updateDlBuffer lcId bytes).dlBufferBytes.lookup lc).getD 0 =
      if lc = lcId then bytes else (ue.dlBufferBytes.lookup lc).getD 0 := by
  rw [UeContext.updateDlBuffer]
  by_cases hlc : lc = lcId
  · subst hlc
    by_cases hbytes : bytes = 0
    · simp [hbytes]
    · simp [hbytes]
  · by_cases hbytes : bytes = 0
    · simp [hbytes, hlc, AList.lookup_erase_ne hlc]
    · simp [hbytes, hlc, AList.lookup_insert_ne hlc]

/-- A user holds what was reported for it last. -/
theorem reported_update {update : BufferUpdate} (h : ue.update update = some ue') :
    ue'.reported = Reported.observe ue update ue' ue.reported := by
  cases update with
  | dlData lcId bytes =>
      obtain rfl := Option.some.inj h
      have hul : (ue.updateDlBuffer lcId bytes).ulBufferStatus = ue.ulBufferStatus := by
        rw [UeContext.updateDlBuffer]
        split <;> rfl
      rw [UeContext.reported, hul]
      simp only [lookup_updateDlBuffer]
      rfl
  | bsr lcgId bytes reportTime =>
      rw [UeContext.update] at h
      by_cases hlcg : lcgId < 8
      · rw [if_pos hlcg] at h
        obtain rfl := Option.some.inj h
        have hset : ∀ lcg : Fin 8,
            (ue.ulBufferStatus.lcgBufferBytes.setIfInBounds lcgId bytes)[lcg] =
              if (lcg : ℕ) = lcgId then bytes else ue.ulBufferStatus.lcgBufferBytes[lcg] := by
          intro lcg
          simp only [Fin.getElem_fin, Vector.getElem_setIfInBounds, eq_comm]
        rw [UeContext.reported]
        simp only [hset]
        rfl
      · rw [if_neg hlcg] at h
        cases h
  | ulStatus status =>
      obtain rfl := Option.some.inj h
      rfl
  | sr =>
      obtain rfl := Option.some.inj h
      rfl

/-- In every run of updates of a user with any buffers, the totals are honest throughout
exactly where neither true total ever is a positive multiple of 2^32. -/
theorem totals_honest_iff (ue : UeContext) (updates : List BufferUpdate) :
    Always (monitored UeContext.update Reported.observe)
        (fun _ _ s ↦ Honest π D s.1 s.2) (ue, ue.reported) updates ↔
      Always (monitored UeContext.update Reported.observe)
        (fun _ _ s ↦ ¬ FullWrap (2 ^ 32) (s.1.bytesOf true) ∧
          ¬ FullWrap (2 ^ 32) (s.1.bytesOf false)) (ue, ue.reported) updates := by
  refine always_iff (fun s : UeContext × Reported ↦ s.2 = s.1.reported) ?_ rfl updates
  intro s update s' hs hstep
  obtain ⟨hupdate, hobserve⟩ := monitored_eq_some.mp hstep
  have hs' : s'.2 = s'.1.reported := by
    rw [hobserve, hs]
    exact (reported_update hupdate).symm
  exact ⟨hs'.symm ▸ honest_iff, fun _ ↦ hs'⟩

/-- Two channels of two gigabytes each, and the user counts as empty. -/
theorem totals_of_two_channels :
    let ue : UeContext := { ptr := (1, 0), rnti := 7, ueId := 1 }
    let full := (ue.updateDlBuffer 1 (2 ^ 31)).updateDlBuffer 2 (2 ^ 31)
    full.totalDlBuffer = 0 ∧ full.hasPendingData = false ∧ full.hasData true = false ∧
      full.reported.dl 1 = 2 ^ 31 ∧ full.reported.dl 2 = 2 ^ 31 := by
  decide +kernel

/-! ## Events -/

/-- The update of a user that an event of the engine makes. -/
def Event.bufferUpdate : Event π → Option (CellId × Rnti × BufferUpdate)
  | .dlData n => some (n.cellId, n.rnti, .dlData n.lcId n.bufferBytes)
  | .bsr b => some (b.cellId, b.rnti, .bsr b.lcgId b.bufferSizeBytes b.reportTime)
  | .sr s => some (s.cellId, s.rnti, .sr)
  | _ => none

variable [Double D] [IPolicyManager π D]

/-- The engine makes the update of the user that the event names, and no other. -/
theorem ueAt_of_bufferUpdate {e e' : SchedulerEngine π D} {P : Platform} {ev : Event π}
    {cellId : CellId} {rnti : Rnti} {update : BufferUpdate}
    (hev : ev.bufferUpdate = some (cellId, rnti, update)) (h : e.next (P, ev) = some e')
    (c : CellId) (r : Rnti) : e'.ueAt c r =
      if c = cellId ∧ r = rnti then (e.ueAt c r).bind (·.update update) else e.ueAt c r := by
  have hrun := SchedulerEngine.next_eq_some.mp h
  cases ev with
  | dlData n =>
      cases hev
      rw [(SchedulerEngine.updateUe_ok hrun).1.ueAt]
      cases e.ueAt c r <;> rfl
  | bsr b =>
      cases hev
      rw [(SchedulerEngine.updateUe_ok hrun).1.ueAt]
      split
      · rename_i hcr
        obtain ⟨rfl, rfl⟩ := hcr
        cases hue : e.ueAt b.cellId b.rnti with
        | none => rfl
        | some ue =>
            have hgroup : b.lcgId < 8 := by
              by_contra hge
              cases (SchedulerEngine.onBsr_crash (by rw [hue]; rfl) (not_lt.mp hge)).symm.trans hrun
            rw [Option.map_some, Option.bind_some, UeContext.update, if_pos hgroup]
      · rfl
  | sr s =>
      cases hev
      rw [(SchedulerEngine.updateUe_ok hrun).1.ueAt]
      cases e.ueAt c r <;> rfl
  | _ => cases hev

end NrScheduler
