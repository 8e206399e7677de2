import NrScheduler.Core.UeContext
import NrScheduler.Core.ResourceGrid
import NrScheduler.Core.ControlChannel

/-!
# Cell context

The configuration of a cell, the context of its current slot and the cell itself.
-/

namespace NrScheduler

open LockMonad

/-! ## Configuration -/

inductive DuplexMode where
  | fdd
  | tdd
  deriving DecidableEq, Repr

structure TddSlotConfig where
  numDlSymbols : ℕ
  numGuardSymbols : ℕ
  numUlSymbols : ℕ
  deriving DecidableEq, Repr

structure TddPattern where
  periodicitySlots : ℕ
  slotConfigs : List TddSlotConfig
  deriving DecidableEq, Repr

/-- The entry of a slot of the pattern; an empty pattern is divided by. -/
def TddPattern.getConfig (p : TddPattern) (slotInPattern : ℕ) : Exec TddSlotConfig :=
  if p.slotConfigs.length = 0 then crash .divideByZero
  else
    match p.slotConfigs[slotInPattern % p.slotConfigs.length]? with
    | some c => pure c
    | none => crash .outOfRange

structure CellConfig where
  cellId : CellId
  numRbs : ℕ
  duplexMode : DuplexMode
  symbolsPerSlot : ℕ := 14
  tddPattern : Option TddPattern := none
  coreset0NumRbs : ℕ := 0
  coreset0NumSymbols : ℕ := 0
  maxPdschPerSlot : ℕ := 8
  maxPuschPerSlot : ℕ := 8
  maxPdcchPerSlot : ℕ := 8
  maxLayers : ℕ := 1
  deriving DecidableEq, Repr

namespace CellConfig

/-- A paired carrier of `numRbs` blocks with the defaults of the configuration. -/
def fdd (cellId : CellId) (numRbs : ℕ) : CellConfig :=
  { cellId := cellId, numRbs := numRbs, duplexMode := .fdd }

def isFdd (cfg : CellConfig) : Bool := cfg.duplexMode == .fdd

def isTdd (cfg : CellConfig) : Bool := cfg.duplexMode == .tdd

/-- The transmissions that the cell allows in a slot. -/
def maxPerSlot (cfg : CellConfig) (isDl : Bool) : ℕ :=
  if isDl then cfg.maxPdschPerSlot else cfg.maxPuschPerSlot

end CellConfig

/-! ## Slot context -/

structure SlotContext where
  timing : FrameTiming := {}
  dlGrid : ResourceGrid := .create
  ulGrid : ResourceGrid := .create
  ccePool : CcePool := .create 128
  canScheduleDl : Bool
  canScheduleUl : Bool
  tddConfig : TddSlotConfig
  remainingPdsch : ℕ := 0
  remainingPusch : ℕ := 0
  remainingPdcch : ℕ := 0
  dlBytesScheduled : ℕ := 0
  ulBytesScheduled : ℕ := 0
  uesScheduledDl : ℕ := 0
  uesScheduledUl : ℕ := 0
  deriving DecidableEq

namespace SlotContext

/-- What cleared memory holds. -/
def cleared : SlotContext :=
  { canScheduleDl := false, canScheduleUl := false, tddConfig := ⟨0, 0, 0⟩ }

def renew (s : SlotContext) (cfg : CellConfig) (t : FrameTiming) : SlotContext :=
  { s with
    timing := t
    dlGrid := .create cfg.numRbs cfg.symbolsPerSlot
    ulGrid := .create cfg.numRbs cfg.symbolsPerSlot
    ccePool := .create (cfg.coreset0NumRbs * cfg.coreset0NumSymbols)
    remainingPdsch := cfg.maxPdschPerSlot
    remainingPusch := cfg.maxPuschPerSlot
    remainingPdcch := cfg.maxPdcchPerSlot
    dlBytesScheduled := 0
    ulBytesScheduled := 0
    uesScheduledDl := 0
    uesScheduledUl := 0 }

/-- The entry of the pattern for a slot of the frame. -/
def patternEntry (pattern : TddPattern) (t : FrameTiming) : Exec TddSlotConfig :=
  if pattern.periodicitySlots = 0 then crash .divideByZero
  else pattern.getConfig (t.slot % pattern.periodicitySlots)

def initializeSlot (s : SlotContext) (cfg : CellConfig) (t : FrameTiming) : Exec SlotContext :=
  let s' := s.renew cfg t
  if cfg.isFdd then
    return { s' with
      canScheduleDl := true
      canScheduleUl := true
      tddConfig := ⟨14, 0, 14⟩ }
  else
    match cfg.tddPattern with
    | some pattern => do
        let entry ← patternEntry pattern t
        return { s' with
          tddConfig := entry
          canScheduleDl := decide (0 < entry.numDlSymbols)
          canScheduleUl := decide (0 < entry.numUlSymbols) }
    | none => return s' -- the direction flags keep what they held before

def canSchedule (s : SlotContext) (isDl : Bool) : Bool :=
  if isDl then s.canScheduleDl else s.canScheduleUl

def grid (s : SlotContext) (isDl : Bool) : ResourceGrid := if isDl then s.dlGrid else s.ulGrid

def setGrid (s : SlotContext) (isDl : Bool) (g : ResourceGrid) : SlotContext :=
  if isDl then { s with dlGrid := g } else { s with ulGrid := g }

def remaining (s : SlotContext) (isDl : Bool) : ℕ :=
  if isDl then s.remainingPdsch else s.remainingPusch

def bytesScheduled (s : SlotContext) (isDl : Bool) : ℕ :=
  if isDl then s.dlBytesScheduled else s.ulBytesScheduled

def countScheduled (s : SlotContext) (isDl : Bool) (bytes : ℕ) : SlotContext :=
  if isDl then
    { s with
      dlBytesScheduled := (s.dlBytesScheduled + bytes) % 2 ^ 32
      uesScheduledDl := (s.uesScheduledDl + 1) % 2 ^ 16 }
  else
    { s with
      ulBytesScheduled := (s.ulBytesScheduled + bytes) % 2 ^ 32
      uesScheduledUl := (s.uesScheduledUl + 1) % 2 ^ 16 }

end SlotContext

/-! ## Cell -/

/-- Totals of 64 bits, as plain numbers. -/
structure CellStatistics where
  totalDlBytes : ℕ := 0
  totalUlBytes : ℕ := 0
  totalSlotsProcessed : ℕ := 0
  deriving DecidableEq, Repr

def CellStatistics.totalBytes (s : CellStatistics) (isDl : Bool) : ℕ :=
  if isDl then s.totalDlBytes else s.totalUlBytes

structure CellContext where
  config : CellConfig
  ueRepo : UeRepository := .empty
  currentSlot : SlotContext
  stats : CellStatistics := {}

namespace CellContext

/-- A new cell; `memory` is what the uninitialised slot context holds. -/
def create (config : CellConfig) (memory : SlotContext) : CellContext :=
  { config := config
    currentSlot := {
      canScheduleDl := memory.canScheduleDl
      canScheduleUl := memory.canScheduleUl
      tddConfig := memory.tddConfig
      remainingPdsch := memory.remainingPdsch
      remainingPusch := memory.remainingPusch
      remainingPdcch := memory.remainingPdcch } }

/-- A new cell with one user. -/
def withUe (config : CellConfig) (ue : UeContext) : CellContext :=
  { create config .cleared with ueRepo := UeRepository.empty.insertUe ue }

def advanceToSlot (cell : CellContext) (timing : FrameTiming) : Exec CellContext := do
  let slot ← cell.currentSlot.initializeSlot cell.config timing
  return { cell with currentSlot := slot }

def countSlot (cell : CellContext) : CellContext :=
  { cell with
    stats := {
      totalSlotsProcessed := cell.stats.totalSlotsProcessed + 1
      totalDlBytes := cell.stats.totalDlBytes + cell.currentSlot.dlBytesScheduled
      totalUlBytes := cell.stats.totalUlBytes + cell.currentSlot.ulBytesScheduled } }

def setGrid (cell : CellContext) (isDl : Bool) (g : ResourceGrid) : CellContext :=
  { cell with currentSlot := cell.currentSlot.setGrid isDl g }

end CellContext

/-! ## Small facts -/

namespace SlotContext

@[simp] theorem grid_setGrid_self (s : SlotContext) (isDl : Bool) (g : ResourceGrid) :
    (s.setGrid isDl g).grid isDl = g := by
  cases isDl <;> rfl

@[simp] theorem grid_setGrid_not (s : SlotContext) (isDl : Bool) (g : ResourceGrid) :
    (s.setGrid isDl g).grid (!isDl) = s.grid (!isDl) := by
  cases isDl <;> rfl

@[simp] theorem timing_setGrid (s : SlotContext) (isDl : Bool) (g : ResourceGrid) :
    (s.setGrid isDl g).timing = s.timing := by
  cases isDl <;> rfl

@[simp] theorem ccePool_setGrid (s : SlotContext) (isDl : Bool) (g : ResourceGrid) :
    (s.setGrid isDl g).ccePool = s.ccePool := by
  cases isDl <;> rfl

@[simp] theorem canSchedule_setGrid (s : SlotContext) (isDl isDl' : Bool) (g : ResourceGrid) :
    (s.setGrid isDl g).canSchedule isDl' = s.canSchedule isDl' := by
  cases isDl <;> cases isDl' <;> rfl

@[simp] theorem canSchedule_countScheduled (s : SlotContext) (isDl isDl' : Bool) (bytes : ℕ) :
    (s.countScheduled isDl bytes).canSchedule isDl' = s.canSchedule isDl' := by
  cases isDl <;> cases isDl' <;> rfl

@[simp] theorem grid_countScheduled (s : SlotContext) (isDl isDl' : Bool) (bytes : ℕ) :
    (s.countScheduled isDl bytes).grid isDl' = s.grid isDl' := by
  cases isDl <;> cases isDl' <;> rfl

@[simp] theorem timing_countScheduled (s : SlotContext) (isDl : Bool) (bytes : ℕ) :
    (s.countScheduled isDl bytes).timing = s.timing := by
  cases isDl <;> rfl

@[simp] theorem remaining_setGrid (s : SlotContext) (isDl isDl' : Bool) (g : ResourceGrid) :
    (s.setGrid isDl g).remaining isDl' = s.remaining isDl' := by
  cases isDl <;> cases isDl' <;> rfl

@[simp] theorem remaining_countScheduled (s : SlotContext) (isDl isDl' : Bool) (bytes : ℕ) :
    (s.countScheduled isDl bytes).remaining isDl' = s.remaining isDl' := by
  cases isDl <;> cases isDl' <;> rfl

@[simp] theorem bytesScheduled_setGrid (s : SlotContext) (isDl isDl' : Bool) (g : ResourceGrid) :
    (s.setGrid isDl g).bytesScheduled isDl' = s.bytesScheduled isDl' := by
  cases isDl <;> cases isDl' <;> rfl

theorem bytesScheduled_countScheduled (s : SlotContext) (isDl isDl' : Bool) (bytes : ℕ) :
    (s.countScheduled isDl bytes).bytesScheduled isDl' =
      if isDl = isDl' then (s.bytesScheduled isDl' + bytes) % 2 ^ 32
      else s.bytesScheduled isDl' := by
  cases isDl <;> cases isDl' <;> rfl

theorem initializeSlot_of_fdd {cfg : CellConfig} (h : cfg.isFdd = true) (s : SlotContext)
    (t : FrameTiming) :
    s.initializeSlot cfg t = pure { s.renew cfg t with
      canScheduleDl := true
      canScheduleUl := true
      tddConfig := ⟨14, 0, 14⟩ } := if_pos h

theorem initializeSlot_of_pattern {cfg : CellConfig} (h : cfg.isFdd = false)
    {pattern : TddPattern} (hpattern : cfg.tddPattern = some pattern) (s : SlotContext)
    (t : FrameTiming) :
    s.initializeSlot cfg t = do
      let entry ← patternEntry pattern t
      return { s.renew cfg t with
        tddConfig := entry
        canScheduleDl := decide (0 < entry.numDlSymbols)
        canScheduleUl := decide (0 < entry.numUlSymbols) } := by
  simp only [initializeSlot, h, hpattern, Bool.false_eq_true, if_false]

theorem initializeSlot_of_none {cfg : CellConfig} (h : cfg.isFdd = false)
    (hpattern : cfg.tddPattern = none) (s : SlotContext) (t : FrameTiming) :
    s.initializeSlot cfg t = pure (s.renew cfg t) := by
  simp only [initializeSlot, h, hpattern, Bool.false_eq_true, if_false]

theorem exists_patternEntry {pattern : TddPattern} (hperiodicity : pattern.periodicitySlots ≠ 0)
    (hconfigs : pattern.slotConfigs ≠ []) (t : FrameTiming) :
    ∃ entry, (patternEntry pattern t).run none = .ok entry := by
  have hlength : pattern.slotConfigs.length ≠ 0 := by simpa using hconfigs
  have hlt : t.slot % pattern.periodicitySlots % pattern.slotConfigs.length <
      pattern.slotConfigs.length := Nat.mod_lt _ (Nat.pos_of_ne_zero hlength)
  refine ⟨pattern.slotConfigs[t.slot % pattern.periodicitySlots % pattern.slotConfigs.length], ?_⟩
  rw [patternEntry, if_neg hperiodicity, TddPattern.getConfig, if_neg hlength,
    List.getElem?_eq_getElem hlt]
  exact rfl

theorem exists_initializeSlot {cfg : CellConfig} (s : SlotContext)
    (h : cfg.isFdd = false → ∀ pattern, cfg.tddPattern = some pattern →
      pattern.periodicitySlots ≠ 0 ∧ pattern.slotConfigs ≠ []) (t : FrameTiming) :
    ∃ slot, (s.initializeSlot cfg t).run none = .ok slot := by
  cases hfdd : cfg.isFdd with
  | true => exact ⟨_, by rw [initializeSlot_of_fdd hfdd, run_pure_eq_ok]⟩
  | false =>
      cases hpattern : cfg.tddPattern with
      | none => exact ⟨_, by rw [initializeSlot_of_none hfdd hpattern, run_pure_eq_ok]⟩
      | some pattern =>
          obtain ⟨hperiodicity, hconfigs⟩ := h hfdd pattern hpattern
          obtain ⟨entry, hentry⟩ := exists_patternEntry hperiodicity hconfigs t
          rw [initializeSlot_of_pattern hfdd hpattern]
          exact ⟨_, run_bind_of_ok hentry⟩

/-- Nothing is left of the previous slot but, at most, its directions. -/
theorem initializeSlot_renew {s slot : SlotContext} {cfg : CellConfig} {t : FrameTiming}
    (h : (s.initializeSlot cfg t).run none = .ok slot) :
    ∃ dl ul entry, slot = { s.renew cfg t with
      canScheduleDl := dl
      canScheduleUl := ul
      tddConfig := entry } := by
  cases hfdd : cfg.isFdd with
  | true =>
      rw [initializeSlot_of_fdd hfdd, run_pure_eq_ok] at h
      exact ⟨_, _, _, h.symm⟩
  | false =>
      cases hpattern : cfg.tddPattern with
      | none =>
          rw [initializeSlot_of_none hfdd hpattern, run_pure_eq_ok] at h
          exact ⟨s.canScheduleDl, s.canScheduleUl, s.tddConfig, h.symm⟩
      | some pattern =>
          rw [initializeSlot_of_pattern hfdd hpattern, run_bind_eq_ok] at h
          obtain ⟨entry, _, hslot⟩ := h
          exact ⟨_, _, _, (run_pure_eq_ok.mp hslot).symm⟩

theorem initializeSlot_ok {s slot : SlotContext} {cfg : CellConfig} {t : FrameTiming}
    (h : (s.initializeSlot cfg t).run none = .ok slot) :
    slot.timing = t ∧ ∀ isDl, slot.grid isDl = .create cfg.numRbs cfg.symbolsPerSlot := by
  obtain ⟨dl, ul, entry, rfl⟩ := initializeSlot_renew h
  exact ⟨rfl, fun isDl ↦ by cases isDl <;> rfl⟩

/-- The counters of a slot begin at nothing sent. -/
theorem initializeSlot_counters {s slot : SlotContext} {cfg : CellConfig} {t : FrameTiming}
    (h : (s.initializeSlot cfg t).run none = .ok slot) (isDl : Bool) :
    slot.bytesScheduled isDl = 0 ∧ slot.remaining isDl = cfg.maxPerSlot isDl := by
  obtain ⟨dl, ul, entry, rfl⟩ := initializeSlot_renew h
  cases isDl with
  | true => exact ⟨rfl, rfl⟩
  | false => exact ⟨rfl, rfl⟩

end SlotContext

namespace CellContext

variable (cell : CellContext) (isDl : Bool) (g g' : ResourceGrid)

@[simp] theorem config_setGrid : (cell.setGrid isDl g).config = cell.config := rfl

@[simp] theorem ueRepo_setGrid : (cell.setGrid isDl g).ueRepo = cell.ueRepo := rfl

@[simp] theorem setGrid_setGrid :
    (cell.setGrid isDl g).setGrid isDl g' = cell.setGrid isDl g' := by
  cases isDl <;> rfl

@[simp] theorem setGrid_grid : cell.setGrid isDl (cell.currentSlot.grid isDl) = cell := by
  cases isDl <;> rfl

@[simp] theorem grid_setGrid_self : (cell.setGrid isDl g).currentSlot.grid isDl = g := by
  cases isDl <;> rfl

theorem totalBytes_countSlot : cell.countSlot.stats.totalBytes isDl =
    cell.stats.totalBytes isDl + cell.currentSlot.bytesScheduled isDl := by
  cases isDl <;> rfl

end CellContext

end NrScheduler
