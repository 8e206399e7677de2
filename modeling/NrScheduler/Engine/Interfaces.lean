import NrScheduler.Core.CellContext

/-!
# Interfaces of the engine

The configuration of the engine, the events it takes from the MAC and the requests it
sends to the PHY.
-/

namespace NrScheduler

/-! ## Configuration -/

inductive Strategy where
  | roundRobin
  | proportionalFair
  | maxThroughput
  | qosAware
  | custom
  deriving DecidableEq, Repr

structure SchedulerConfig where
  strategy : Strategy := .proportionalFair
  schedulingOffsetSlots : ℕ := 2
  harqAckOffsetSlots : ℕ := 4
  maxPdschPerTti : ℕ := 16
  maxPuschPerTti : ℕ := 16
  enableQos : Bool := true
  harqRetxPriority : Bool := true
  enableSlicing : Bool := false
  deriving DecidableEq, Repr

def SchedulerConfig.limit (config : SchedulerConfig) (isDl : Bool) : ℕ :=
  if isDl then config.maxPdschPerTti else config.maxPuschPerTti

/-! ## Events from the MAC -/

structure UeConfigRequest where
  rnti : Rnti
  cellId : CellId
  sliceId : SliceId := 0
  dlBwps : List BwpConfig := []
  ulBwps : List BwpConfig := []
  logicalChannels : List LogicalChannelConfig := []
  drxConfig : DrxConfig := {}
  numDlHarqProcesses : ℕ := 16
  numUlHarqProcesses : ℕ := 16
  maxLayersDl : ℕ := 1
  maxLayersUl : ℕ := 1
  maxMcsDl : ℕ := 28
  maxMcsUl : ℕ := 28
  deriving DecidableEq, Repr

namespace UeConfigRequest

/-! The limits of a request by direction. -/

def bwps (request : UeConfigRequest) (isDl : Bool) : List BwpConfig :=
  if isDl then request.dlBwps else request.ulBwps

def maxMcs (request : UeConfigRequest) (isDl : Bool) : ℕ :=
  if isDl then request.maxMcsDl else request.maxMcsUl

def maxLayers (request : UeConfigRequest) (isDl : Bool) : ℕ :=
  if isDl then request.maxLayersDl else request.maxLayersUl

def numHarqProcesses (request : UeConfigRequest) (isDl : Bool) : ℕ :=
  if isDl then request.numDlHarqProcesses else request.numUlHarqProcesses

end UeConfigRequest

structure UeReleaseRequest where
  rnti : Rnti
  cellId : CellId
  deriving DecidableEq, Repr

structure DlDataNotification where
  rnti : Rnti
  cellId : CellId
  lcId : LcId
  bufferBytes : ℕ
  deriving DecidableEq, Repr

structure BufferStatusReport where
  rnti : Rnti
  cellId : CellId
  lcgId : ℕ
  bufferSizeBytes : ℕ
  reportTime : FrameTiming
  deriving DecidableEq, Repr

structure SchedulingRequest where
  rnti : Rnti
  cellId : CellId
  deriving DecidableEq, Repr

structure PowerHeadroomReport where
  rnti : Rnti
  cellId : CellId
  phrValue : ℤ
  pcmax : ℤ
  deriving DecidableEq, Repr

/-! ## Requests to the PHY -/

inductive DecisionType where
  | none
  | newTx
  | retx
  deriving DecidableEq, Repr

/-- A PDSCH or PUSCH transmission. -/
structure TtiPdu where
  rnti : Rnti
  rbAllocation : ResourceBlockRange
  symbolAllocation : SymbolRange
  mcs : ℕ
  rv : ℕ
  ndi : Bool
  harqId : HarqId
  numLayers : ℕ
  tbSize : ℕ
  /-- Ghost: the kind of the decision behind the transmission. -/
  type : DecisionType
  /-- Ghost: the user context the transmission was built for. -/
  owner : UePtr
  deriving DecidableEq, Repr

/-- A DL TTI request with its PDSCH PDUs, or a UL TTI request with its PUSCH PDUs. -/
structure TtiRequest where
  isDownlink : Bool
  timing : FrameTiming
  cellId : CellId
  pdus : List TtiPdu
  deriving DecidableEq, Repr

end NrScheduler
