import NrScheduler.Lib.LockMonad
import Mathlib.Algebra.GroupWithZero.Nat
import Mathlib.Data.Nat.Notation
import Mathlib.Tactic.Basic

/-!
# Core NR types

Frame timing, resource ranges and the records exchanged between the components.
Quantities are natural numbers; a conversion of the C++ code that can change a value is
written out as a remainder.  Identifiers that are only ever compared keep their width.
-/

namespace NrScheduler

open LockMonad

/-! ## Execution -/

/-- Undefined or terminating behaviour of the C++ code. -/
inductive Fault where
  | divideByZero
  | outOfRange
  | diverges
  deriving DecidableEq, Repr

/-- One mutex for each kind of component.  No operation touches two user repositories,
so the repositories of different cells can share a name. -/
inductive Mutex where
  | engine
  | ueRepository
  | sliceOrchestrator
  | qosEngine
  | harqTracker
  deriving DecidableEq, Repr

abbrev Exec := LockM Mutex Fault

abbrev Rnti := UInt16
abbrev CellId := UInt16
abbrev LcId := UInt8
abbrev SliceId := UInt32
abbrev HarqId := ℕ

/-- The identity of a user context object, what a shared pointer to it compares by: the
cell it was created in, and how many were created there before it. -/
abbrev UePtr := CellId × ℕ

/-! ## Timing -/

structure FrameTiming where
  sfn : ℕ := 0
  slot : ℕ := 0
  symbol : ℕ := 0
  slotsPerFrame : ℕ := 10
  deriving DecidableEq, Repr

namespace FrameTiming

def maxSfn : ℕ := 1024

def absoluteSlot (t : FrameTiming) : ℕ := t.sfn * t.slotsPerFrame + t.slot

/-- Timing advanced by `k` slots; the slot is stored in eight bits and the frame
advance in sixteen. -/
def plus (t : FrameTiming) (k : ℕ) : FrameTiming :=
  let totalSlots := t.slot + k
  { t with
    slot := totalSlots % t.slotsPerFrame % 2 ^ 8
    sfn := (t.sfn + totalSlots / t.slotsPerFrame % 2 ^ 16) % maxSfn }

def advanced (t : FrameTiming) (k : ℕ) : Exec FrameTiming :=
  if t.slotsPerFrame = 0 then crash .divideByZero else pure (t.plus k)

theorem advanced_run {t : FrameTiming} (hpos : 0 < t.slotsPerFrame) (k : ℕ) :
    (t.advanced k).run none = .ok (t.plus k) := by
  rw [advanced, if_neg hpos.ne']
  rfl

/-- The slots from `other` to `t`, the shorter way round the frame numbers. -/
def diff (t other : FrameTiming) : ℤ :=
  let thisAbs : ℤ := t.sfn * t.slotsPerFrame + t.slot
  let otherAbs : ℤ := other.sfn * other.slotsPerFrame + other.slot
  let d := thisAbs - otherAbs
  let halfCycle : ℤ := 512 * t.slotsPerFrame
  if halfCycle < d then d - 1024 * t.slotsPerFrame
  else if d < -halfCycle then d + 1024 * t.slotsPerFrame
  else d

end FrameTiming

/-! ## Resource ranges -/

structure BwpConfig where
  bwpId : ℕ
  startRb : ℕ
  numRbs : ℕ
  deriving DecidableEq, Repr

structure ResourceBlockRange where
  startRb : ℕ
  numRbs : ℕ
  deriving DecidableEq, Repr

/-- Last block of the range, computed in sixteen bits. -/
def ResourceBlockRange.endRb (r : ResourceBlockRange) : ℕ :=
  (r.startRb + r.numRbs + (2 ^ 16 - 1)) % 2 ^ 16

structure SymbolRange where
  startSymbol : ℕ
  numSymbols : ℕ
  deriving DecidableEq, Repr

/-- Last symbol of the range, computed in eight bits. -/
def SymbolRange.endSymbol (s : SymbolRange) : ℕ :=
  (s.startSymbol + s.numSymbols + (2 ^ 8 - 1)) % 2 ^ 8

structure TimeFrequencyResource where
  rbRange : ResourceBlockRange
  symbolRange : SymbolRange
  deriving DecidableEq, Repr

/-! ## Quality of service and channel state -/

inductive QosResourceType where
  | gbr
  | nonGbr
  | delayC
  deriving DecidableEq, Repr

structure QosCharacteristics where
  resourceType : QosResourceType
  priorityLevel : ℕ
  packetDelayBudgetMs : ℕ
  deriving DecidableEq, Repr

structure QosFlowParams where
  qfi : ℕ
  characteristics : QosCharacteristics
  gbrDlBps : ℕ
  gbrUlBps : ℕ
  mbrDlBps : ℕ
  mbrUlBps : ℕ
  deriving DecidableEq, Repr

structure ChannelQualityInfo where
  widebandCqi : ℕ := 0
  rankIndicator : ℕ := 0
  subbandCqi : List ℕ := []
  pmi : Option ℕ := none
  reportTime : FrameTiming := {}
  deriving DecidableEq, Repr

/-! ## HARQ, buffers and transport blocks -/

inductive HarqState where
  | idle
  | pending
  | nackReceived
  | complete
  deriving DecidableEq, Repr

structure HarqFeedback where
  harqId : HarqId
  ack : Bool
  dtx : Bool := false
  feedbackTime : FrameTiming
  deriving DecidableEq, Repr

structure BufferStatus where
  lcgBufferBytes : Vector ℕ 8 := Vector.replicate 8 0
  reportTime : FrameTiming := {}
  srPending : Bool := false
  deriving DecidableEq, Repr

/-- The sum over the logical channel groups, in 32-bit arithmetic. -/
def BufferStatus.totalBuffer (b : BufferStatus) : ℕ :=
  b.lcgBufferBytes.foldl (fun total bytes ↦ (total + bytes) % 2 ^ 32) 0

structure TransportBlockConfig where
  tbSizeBytes : ℕ := 0
  mcsIndex : ℕ := 0
  mcsTable : ℕ := 0
  rvIndex : ℕ := 0
  ndi : Bool := false
  numLayers : ℕ := 0
  deriving DecidableEq, Repr

end NrScheduler
