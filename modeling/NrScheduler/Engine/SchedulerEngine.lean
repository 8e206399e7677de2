import NrScheduler.Engine.HarqTimingTracker
import NrScheduler.Engine.Policy
import NrScheduler.Engine.ResourceAllocator
import NrScheduler.Services.QosEngine
import NrScheduler.Services.SliceOrchestrator

/-!
# Scheduler engine

The engine that owns the cells and the components, its slot pipeline and its event
handlers.  What it sends to the PHY and to the result callbacks is kept in a log.
-/

namespace NrScheduler

open LockMonad

/-- Counters of 64 bits, which no feasible run makes wrap around, as plain numbers. -/
structure Statistics where
  slotsProcessed : ℕ := 0
  slotsSkipped : ℕ := 0
  dlBytesScheduled : ℕ := 0
  dlUesScheduled : ℕ := 0
  dlRetransmissions : ℕ := 0
  ulBytesScheduled : ℕ := 0
  ulUesScheduled : ℕ := 0
  ulRetransmissions : ℕ := 0
  allocationFailures : ℕ := 0
  harqTimeouts : ℕ := 0
  deriving DecidableEq, Repr

namespace Statistics

def countRetransmission (s : Statistics) (isDl : Bool) : Statistics :=
  if isDl then { s with dlRetransmissions := s.dlRetransmissions + 1 }
  else { s with ulRetransmissions := s.ulRetransmissions + 1 }

def countScheduled (s : Statistics) (isDl : Bool) (bytes : ℕ) : Statistics :=
  if isDl then
    { s with
      dlBytesScheduled := s.dlBytesScheduled + bytes
      dlUesScheduled := s.dlUesScheduled + 1 }
  else
    { s with
      ulBytesScheduled := s.ulBytesScheduled + bytes
      ulUesScheduled := s.ulUesScheduled + 1 }

end Statistics

structure SchedulerEngine (π D : Type) where
  config : SchedulerConfig
  running : Bool := false
  cells : AList (fun _ : CellId ↦ CellContext) := ∅
  policyManager : π
  qosEngine : QosEngine D
  sliceOrchestrator : SliceOrchestrator D
  harqTracker : HarqTimingTracker := {}
  stats : Statistics := {}
  /-- Ghost: the number of user contexts created so far in each cell. -/
  created : CellId → ℕ := fun _ ↦ 0
  /-- The requests sent so far. -/
  sent : List TtiRequest := []

variable {π D : Type} [Double D] [IPolicyManager π D]

/-- There is data to send in a direction, or in the uplink a scheduling request. -/
def UeContext.hasData (ue : UeContext) (isDl : Bool) : Bool :=
  if isDl then decide (0 < ue.totalDlBuffer)
  else decide (0 < ue.totalUlBuffer) || ue.ulBufferStatus.srPending

/-- The bytes a new transmission asks for; a scheduling request gets a minimum grant. -/
def UeContext.newTxBytes (ue : UeContext) (isDl : Bool) : ℕ :=
  if isDl then ue.totalDlBuffer else max ue.totalUlBuffer 100

/-- The lowest QFI among the logical channels, at most nine. -/
def UeContext.bestQfi (P : Platform) (ue : UeContext) : ℕ :=
  (P.hashOrder ue.logicalChannels.entries).foldl
    (fun best lc ↦ match lc.2.qosParams with
      | some q => min best q.qfi
      | none => best) 9

namespace SchedulerEngine

def create (config : SchedulerConfig) : SchedulerEngine π D where
  config := config
  policyManager := IPolicyManager.createPolicyManager (D := D) config.strategy
  qosEngine := .create
  sliceOrchestrator := .create

/-! ## Slot pipeline -/

def getEligibleUes (e : SchedulerEngine π D) (P : Platform) (cell : CellContext)
    (isDl : Bool) : Exec (List UeContext) :=
  cell.ueRepo.forEach P (fun eligible ue ↦ do
    if !ue.isInActiveTime then return eligible
    else if !ue.hasData isDl && (ue.harq isDl).getRetxProcess.isNone then return eligible
    else if e.config.enableSlicing then
      if ← e.sliceOrchestrator.isSchedulingAllowed ue.rnti 1 isDl then
        return eligible ++ [ue]
      else return eligible
    else return eligible ++ [ue]) []

/-- The decision for an eligible user, where there is one. -/
def candidate (config : SchedulerConfig) (P : Platform) (isDl : Bool) (ue : UeContext) :
    Option (SchedulingDecision D) :=
  let decision (type : DecisionType) (id : HarqId) (bytes : ℕ) : SchedulingDecision D :=
    { rnti := ue.rnti
      type := type
      tbConfig := P.uninitTbConfig isDl ue.rnti
      harqId := id
      priorityMetric := Double.ofNat 0
      bufferBytes := bytes }
  match (ue.harq isDl).getRetxProcess, config.harqRetxPriority with
  | some p, true => some (decision .retx p.id p.tbConfig.tbSizeBytes)
  | _, _ =>
      if !ue.hasData isDl then none
      else
        match (ue.harq isDl).getFreeProcess with
        | none => none
        | some p => some (decision .newTx p.id (ue.newTxBytes isDl))

/-- Rank a decision by the policy, and by the QoS engine where that is enabled. -/
def rankByQos (e : SchedulerEngine π D) (P : Platform) (ue : UeContext) (isDl : Bool)
    (base : D) (d : SchedulingDecision D) :
    Exec (SchedulingDecision D × SchedulerEngine π D) :=
  if e.config.enableQos then do
    let (result, qos) ← e.qosEngine.calculatePriority P ue.rnti (ue.bestQfi P) isDl d.bufferBytes
    return ({ d with
      priorityMetric := Double.mul base result.finalPriority
      qosPriority := if result.isDelayCritical then 1 else 2 },
      { e with qosEngine := qos })
  else return ({ d with priorityMetric := base, qosPriority := 5 }, e)

/-- Double the rank of a retransmission. -/
def boostRetx (d : SchedulingDecision D) : SchedulingDecision D :=
  if d.type = .retx then
    { d with priorityMetric := Double.mul d.priorityMetric (Double.ofNat 2) }
  else d

/-- Raise the rank by the priority of the slice where slicing is enabled. -/
def boostSlice (e : SchedulerEngine π D) (ue : UeContext) (d : SchedulingDecision D) :
    Exec (SchedulingDecision D) :=
  if e.config.enableSlicing then do
    let boost ← e.sliceOrchestrator.getPriorityBoost ue.rnti
    return { d with priorityMetric := Double.mul d.priorityMetric boost }
  else return d

/-- One round of the loop over the decisions. -/
def calculatePriority (e : SchedulerEngine π D) (P : Platform) (cell : CellContext)
    (isDl : Bool) (d : SchedulingDecision D) :
    Exec (SchedulingDecision D × SchedulerEngine π D) := do
  match ← cell.ueRepo.findByRnti d.rnti with
  | none => return ({ d with priorityMetric := Double.ofNat 0 }, e)
  | some ue =>
      let ranked : D × π := IPolicyManager.calculatePriority P e.policyManager ue cell isDl
      let (d, e) ← { e with policyManager := ranked.2 }.rankByQos P ue isDl ranked.1 d
      let d ← e.boostSlice ue (boostRetx d)
      return (d, e)

def calculatePriorities (P : Platform) (cell : CellContext) (isDl : Bool) :
    List (SchedulingDecision D) → SchedulerEngine π D →
      Exec (List (SchedulingDecision D) × SchedulerEngine π D)
  | [], e => return ([], e)
  | d :: rest, e => do
      let (d', e') ← e.calculatePriority P cell isDl d
      let (rest', e'') ← calculatePriorities P cell isDl rest e'
      return (d' :: rest', e'')

def allocateResources (P : Platform) (d : SchedulingDecision D) (cell : CellContext)
    (isDl : Bool) : Exec (Option (SchedulingDecision D × CellContext)) :=
  DefaultResourceAllocator.allocate P d cell isDl

/-- The loop over the sorted decisions; it ends when the limit of the slot is reached. -/
def allocateLoop (P : Platform) (isDl : Bool) :
    List (SchedulingDecision D) → List (SchedulingDecision D) → CellContext →
      SchedulerEngine π D →
      Exec (List (SchedulingDecision D) × CellContext × SchedulerEngine π D)
  | [], successful, cell, e => return (successful, cell, e)
  | d :: rest, successful, cell, e =>
      if e.config.limit isDl ≤ successful.length then return (successful, cell, e)
      else do
        match ← allocateResources P d cell isDl with
        | some (d', cell') =>
            let policy ← match ← cell'.ueRepo.findByRnti d'.rnti with
              | some ue => pure (IPolicyManager.updateHistory D P e.policyManager ue
                  d'.tbConfig.tbSizeBytes)
              | none => pure e.policyManager
            allocateLoop P isDl rest (successful ++ [d']) cell'
              { e with policyManager := policy }
        | none =>
            allocateLoop P isDl rest successful cell { e with
              stats := { e.stats with
                allocationFailures := e.stats.allocationFailures + 1 } }

/-- The common shape of `scheduleDl` and `scheduleUl`. -/
def schedule (e : SchedulerEngine π D) (P : Platform) (cell : CellContext) (isDl : Bool) :
    Exec (List (SchedulingDecision D) × CellContext × SchedulerEngine π D) := do
  let eligible ← e.getEligibleUes P cell isDl
  if eligible = [] then return ([], cell, e)
  else
    let decisions := eligible.filterMap (candidate e.config P isDl)
    let (decisions, e) ← calculatePriorities P cell isDl decisions e
    let sorted := P.sort (fun a b ↦ Double.lt b.priorityMetric a.priorityMetric) decisions
    allocateLoop P isDl sorted [] cell e

def scheduleDl (e : SchedulerEngine π D) (P : Platform) (cell : CellContext) :
    Exec (List (SchedulingDecision D) × CellContext × SchedulerEngine π D) :=
  e.schedule P cell true

def scheduleUl (e : SchedulerEngine π D) (P : Platform) (cell : CellContext) :
    Exec (List (SchedulingDecision D) × CellContext × SchedulerEngine π D) :=
  e.schedule P cell false

/-! ## Requests -/

def pduOf (d : SchedulingDecision D) (ue : UeContext) : TtiPdu where
  rnti := d.rnti
  rbAllocation := d.resources.rbRange
  symbolAllocation := d.resources.symbolRange
  mcs := d.tbConfig.mcsIndex
  rv := d.tbConfig.rvIndex
  ndi := d.tbConfig.ndi
  harqId := d.harqId
  numLayers := d.tbConfig.numLayers
  tbSize := d.tbConfig.tbSizeBytes
  type := d.type
  owner := ue.ptr

/-- The feedback a transmission of a request is waiting for. -/
def pendingOf (cellId : CellId) (isDl : Bool) (timing : FrameTiming) (request : ℕ)
    (pdu : TtiPdu) : PendingFeedback where
  cellId := cellId
  rnti := pdu.rnti
  harqId := pdu.harqId
  isDownlink := isDl
  txSlot := timing.absoluteSlot
  owner := pdu.owner
  request := request

/-- The slots from a transmission to its feedback: K1, or the delay of the CRC. -/
def feedbackOffset (isDl : Bool) : ℕ := if isDl then 4 else 2

def buildLoop (isDl : Bool) (timing : FrameTiming) :
    List (SchedulingDecision D) → List TtiPdu → CellContext → SchedulerEngine π D →
      Exec (List TtiPdu × CellContext × SchedulerEngine π D)
  | [], pdus, cell, e => return (pdus, cell, e)
  | d :: rest, pdus, cell, e => do
      match ← cell.ueRepo.findByRnti d.rnti with
      | none => buildLoop isDl timing rest pdus cell e
      | some ue =>
          let pdu := pduOf d ue
          let expected ← timing.advanced (feedbackOffset isDl)
          let tracker ← e.harqTracker.registerPending expected.absoluteSlot
            (pendingOf cell.config.cellId isDl timing e.sent.length pdu)
          let bytes := d.tbConfig.tbSizeBytes
          let counted := e.stats.countScheduled isDl bytes
          let stats := if d.type = .retx then counted.countRetransmission isDl else counted
          buildLoop isDl timing rest (pdus ++ [pdu])
            { cell with currentSlot := cell.currentSlot.countScheduled isDl bytes }
            { e with harqTracker := tracker, stats := stats }

/-- The common shape of `buildDlTtiRequest` and `buildUlTtiRequest`. -/
def buildTtiRequest (e : SchedulerEngine π D) (cell : CellContext) (isDl : Bool)
    (timing : FrameTiming) (decisions : List (SchedulingDecision D)) :
    Exec (CellContext × SchedulerEngine π D) := do
  let (pdus, cell, e) ← buildLoop isDl timing decisions [] cell e
  return (cell, { e with sent := e.sent ++ [⟨isDl, timing, cell.config.cellId, pdus⟩] })

def buildDlTtiRequest (e : SchedulerEngine π D) (cell : CellContext)
    (decisions : List (SchedulingDecision D)) : Exec (CellContext × SchedulerEngine π D) :=
  e.buildTtiRequest cell true cell.currentSlot.timing decisions

def buildUlTtiRequest (e : SchedulerEngine π D) (cell : CellContext)
    (decisions : List (SchedulingDecision D)) :
    Exec (CellContext × SchedulerEngine π D) := do
  let timing ← cell.currentSlot.timing.advanced e.config.schedulingOffsetSlots
  e.buildTtiRequest cell false timing decisions

def scheduleFor (e : SchedulerEngine π D) (P : Platform) (cell : CellContext) (isDl : Bool) :
    Exec (List (SchedulingDecision D) × CellContext × SchedulerEngine π D) :=
  if isDl then e.scheduleDl P cell else e.scheduleUl P cell

def buildFor (e : SchedulerEngine π D) (cell : CellContext) (isDl : Bool)
    (decisions : List (SchedulingDecision D)) : Exec (CellContext × SchedulerEngine π D) :=
  if isDl then e.buildDlTtiRequest cell decisions else e.buildUlTtiRequest cell decisions

/-- The part of a slot that serves one direction. -/
def serve (e : SchedulerEngine π D) (P : Platform) (cell : CellContext) (isDl : Bool) :
    Exec (CellContext × SchedulerEngine π D) :=
  if cell.currentSlot.canSchedule isDl then do
    let (decisions, cell, e) ← e.scheduleFor P cell isDl
    if decisions = [] then return (cell, e) else e.buildFor cell isDl decisions
  else return (cell, e)

def processSlot (e : SchedulerEngine π D) (P : Platform) (cell : CellContext) :
    Exec (CellContext × SchedulerEngine π D) := do
  let (cell, e) ← e.serve P cell true
  let (cell, e) ← e.serve P cell false
  let slices ← e.sliceOrchestrator.onSlotEnd P
  return (cell.countSlot, { e with sliceOrchestrator := slices })

def setCell (e : SchedulerEngine π D) (cellId : CellId) (cell : CellContext) :
    SchedulerEngine π D :=
  { e with cells := e.cells.insert cellId cell }

def onSlotIndication (e : SchedulerEngine π D) (P : Platform) (cellId : CellId)
    (timing : FrameTiming) : Exec (SchedulerEngine π D) :=
  withLock .engine do
    match e.cells.lookup cellId with
    | none => return { e with
        stats := { e.stats with slotsSkipped := e.stats.slotsSkipped + 1 } }
    | some cell =>
        let cell ← cell.advanceToSlot timing
        let policy := IPolicyManager.onSlotStart D e.policyManager timing
        let slices ← e.sliceOrchestrator.onSlotStart timing
        let qos ← e.qosEngine.onSlotTick P
        let e := { e with
          policyManager := policy, sliceOrchestrator := slices, qosEngine := qos }
        let (cell, e) ← e.processSlot P cell
        let e := e.setCell cellId cell
        return { e with
          stats := { e.stats with slotsProcessed := e.stats.slotsProcessed + 1 } }

/-! ## Cells and control -/

def addCell (e : SchedulerEngine π D) (config : CellConfig) (memory : SlotContext) :
    Exec (Bool × SchedulerEngine π D) :=
  withLock .engine do
    if config.cellId ∈ e.cells then return (false, e)
    else return (true, e.setCell config.cellId (.create config memory))

def removeCell (e : SchedulerEngine π D) (cellId : CellId) : Exec (SchedulerEngine π D) :=
  withLock .engine do return { e with cells := e.cells.erase cellId }

def setPolicyManager (e : SchedulerEngine π D) (policy : π) : Exec (SchedulerEngine π D) :=
  return { e with policyManager := policy }

def start (e : SchedulerEngine π D) : Exec (Bool × SchedulerEngine π D) :=
  return (!e.running, { e with running := true })

def stop (e : SchedulerEngine π D) : Exec (SchedulerEngine π D) :=
  return { e with running := false }

def getStatistics (e : SchedulerEngine π D) : Exec Statistics := return e.stats

def resetStatistics (e : SchedulerEngine π D) : Exec (SchedulerEngine π D) :=
  return { e with stats := {} }

def updateConfig (e : SchedulerEngine π D) (config : SchedulerConfig) :
    Exec (SchedulerEngine π D) :=
  withLock .engine do
    return { e with
      config := config
      policyManager := IPolicyManager.createPolicyManager (D := D) config.strategy }

/-! ## User events -/

/-- The fields a configuration request sets in a new context. -/
def configureUe (request : UeConfigRequest) (ue : UeContext) : UeContext :=
  { ue with
    sliceId := request.sliceId
    dlBwps := request.dlBwps
    ulBwps := request.ulBwps
    drxConfig := request.drxConfig
    logicalChannels := request.logicalChannels.foldl
      (fun channels lc ↦ channels.insert lc.lcId lc) ue.logicalChannels }

/-- Register a user with the slice orchestrator, where slicing is enabled. -/
def registerSlice (e : SchedulerEngine π D) (request : UeConfigRequest) :
    Exec (SliceOrchestrator D) :=
  if e.config.enableSlicing then do
    let (_, slices) ← e.sliceOrchestrator.associateUe request.rnti request.sliceId
    return slices
  else return e.sliceOrchestrator

def onUeConfig (e : SchedulerEngine π D) (request : UeConfigRequest) :
    Exec (SchedulerEngine π D) :=
  withLock .engine do
    match e.cells.lookup request.cellId with
    | none => return e
    | some cell =>
        let repo ← cell.ueRepo.createUe (request.cellId, e.created request.cellId) request.rnti
        let repo := repo.modifyUe request.rnti (configureUe request) fun _ ↦ rfl
        let slices ← e.registerSlice request
        return { e.setCell request.cellId { cell with ueRepo := repo } with
          sliceOrchestrator := slices
          created := Function.update e.created request.cellId
            (e.created request.cellId + 1) }

def onUeRelease (e : SchedulerEngine π D) (release : UeReleaseRequest) :
    Exec (SchedulerEngine π D) :=
  withLock .engine do
    match e.cells.lookup release.cellId with
    | none => return e
    | some cell =>
        let repo ← cell.ueRepo.removeUe release.rnti
        let qos ← e.qosEngine.removeUeFlows release.rnti
        let slices ← e.sliceOrchestrator.disassociateUe release.rnti
        return { e.setCell release.cellId { cell with ueRepo := repo } with
          qosEngine := qos, sliceOrchestrator := slices }

/-- The common shape of the handlers that change one user: `check` is what can go wrong
once the user is found, `f` the change. -/
def updateUe (e : SchedulerEngine π D) (cellId : CellId) (rnti : Rnti) (check : Exec Unit)
    (f : UeContext → UeContext) (hf : ∀ ue, (f ue).rnti = ue.rnti) :
    Exec (SchedulerEngine π D) :=
  withLock .engine do
    match e.cells.lookup cellId with
    | none => return e
    | some cell =>
        match ← cell.ueRepo.findByRnti rnti with
        | none => return e
        | some _ =>
            check
            return e.setCell cellId { cell with ueRepo := cell.ueRepo.modifyUe rnti f hf }

theorem updateDlBuffer_rnti (ue : UeContext) (lcId : LcId) (bytes : ℕ) :
    (ue.updateDlBuffer lcId bytes).rnti = ue.rnti := by
  unfold UeContext.updateDlBuffer
  split <;> rfl

def onDlData (e : SchedulerEngine π D) (n : DlDataNotification) : Exec (SchedulerEngine π D) :=
  e.updateUe n.cellId n.rnti (pure ()) (fun ue ↦ ue.updateDlBuffer n.lcId n.bufferBytes)
    fun ue ↦ updateDlBuffer_rnti ue n.lcId n.bufferBytes

/-- The group index is not checked before the access. -/
def onBsr (e : SchedulerEngine π D) (bsr : BufferStatusReport) : Exec (SchedulerEngine π D) :=
  e.updateUe bsr.cellId bsr.rnti
    (if bsr.lcgId < 8 then pure () else crash .outOfRange)
    (fun ue ↦ { ue with
      ulBufferStatus := { ue.ulBufferStatus with
        lcgBufferBytes :=
          ue.ulBufferStatus.lcgBufferBytes.setIfInBounds bsr.lcgId bsr.bufferSizeBytes
        reportTime := bsr.reportTime } })
    fun _ ↦ rfl

def onSr (e : SchedulerEngine π D) (sr : SchedulingRequest) : Exec (SchedulerEngine π D) :=
  e.updateUe sr.cellId sr.rnti (pure ())
    (fun ue ↦ { ue with ulBufferStatus := { ue.ulBufferStatus with srPending := true } })
    fun _ ↦ rfl

def onPhr (e : SchedulerEngine π D) (phr : PowerHeadroomReport) : Exec (SchedulerEngine π D) :=
  e.updateUe phr.cellId phr.rnti (pure ())
    (fun ue ↦ { ue with phr := phr.phrValue, pCmax := phr.pcmax }) fun _ ↦ rfl

def onCsiUpdate (e : SchedulerEngine π D) (rnti : Rnti) (cellId : CellId)
    (cqi : ChannelQualityInfo) : Exec (SchedulerEngine π D) :=
  e.updateUe cellId rnti (pure ()) (fun ue ↦ { ue with dlChannelQuality := cqi }) fun _ ↦ rfl

theorem processHarqFeedback_rnti (ue : UeContext) (isDl : Bool) (fb : HarqFeedback) :
    (ue.processHarqFeedback isDl fb).rnti = ue.rnti := by
  cases isDl <;> rfl

/-- The loop over the entries of the feedback slot. -/
def feedbackLoop (e : SchedulerEngine π D) (cellId : CellId) (fb : HarqFeedback) :
    List PendingFeedback → Exec (SchedulerEngine π D)
  | [] => return { e with
      stats := { e.stats with harqTimeouts := e.stats.harqTimeouts + 1 } }
  | pending :: rest =>
      if pending.cellId ≠ cellId then feedbackLoop e cellId fb rest
      else if pending.harqId ≠ fb.harqId then feedbackLoop e cellId fb rest
      else
        match e.cells.lookup cellId with
        | none => feedbackLoop e cellId fb rest
        | some cell => do
            match ← cell.ueRepo.findByRnti pending.rnti with
            | none => feedbackLoop e cellId fb rest
            | some _ =>
                let repo := cell.ueRepo.modifyUe pending.rnti
                  (fun ue ↦ ue.processHarqFeedback pending.isDownlink fb)
                  fun ue ↦ processHarqFeedback_rnti ue pending.isDownlink fb
                let (_, tracker) ← e.harqTracker.findAndRemove fb.feedbackTime.absoluteSlot
                  pending.rnti (some fb.harqId)
                return { e.setCell cellId { cell with ueRepo := repo } with
                  harqTracker := tracker
                  stats := if fb.ack then e.stats
                    else e.stats.countRetransmission pending.isDownlink }

def onHarqFeedback (e : SchedulerEngine π D) (cellId : CellId) (fb : HarqFeedback) :
    Exec (SchedulerEngine π D) :=
  withLock .engine do
    let pendingList ← e.harqTracker.getAllForSlot fb.feedbackTime.absoluteSlot
    e.feedbackLoop cellId fb pendingList

/-- Handling random access is left to the RAR scheduling, which does not exist. -/
def onRachIndication (e : SchedulerEngine π D) (_cellId : CellId) :
    Exec (SchedulerEngine π D) := return e

/-! ## Events -/

end SchedulerEngine

/-- The calls that change the engine. -/
inductive Event (π : Type) where
  | addCell (config : CellConfig) (memory : SlotContext)
  | removeCell (cellId : CellId)
  | setPolicyManager (policy : π)
  | start
  | stop
  | slotIndication (cellId : CellId) (timing : FrameTiming)
  | ueConfig (request : UeConfigRequest)
  | ueRelease (release : UeReleaseRequest)
  | dlData (notification : DlDataNotification)
  | bsr (bsr : BufferStatusReport)
  | sr (sr : SchedulingRequest)
  | phr (phr : PowerHeadroomReport)
  | csiUpdate (rnti : Rnti) (cellId : CellId) (cqi : ChannelQualityInfo)
  | harqFeedback (cellId : CellId) (fb : HarqFeedback)
  | rachIndication (cellId : CellId)
  | updateConfig (config : SchedulerConfig)
  | resetStatistics

def Event.cellId? : Event π → Option CellId
  | .addCell config _ => some config.cellId
  | .removeCell cellId => some cellId
  | .slotIndication cellId _ => some cellId
  | .ueConfig request => some request.cellId
  | .ueRelease release => some release.cellId
  | .dlData n => some n.cellId
  | .bsr b => some b.cellId
  | .sr s => some s.cellId
  | .phr p => some p.cellId
  | .csiUpdate _ cellId _ => some cellId
  | .harqFeedback cellId _ => some cellId
  | .rachIndication cellId => some cellId
  | .setPolicyManager _ | .start | .stop | .updateConfig _ | .resetStatistics => none

namespace SchedulerEngine

def handle (e : SchedulerEngine π D) (P : Platform) : Event π → Exec (SchedulerEngine π D)
  | .addCell config memory => do return (← e.addCell config memory).2
  | .removeCell cellId => e.removeCell cellId
  | .setPolicyManager policy => e.setPolicyManager policy
  | .start => do return (← e.start).2
  | .stop => e.stop
  | .slotIndication cellId timing => e.onSlotIndication P cellId timing
  | .ueConfig request => e.onUeConfig request
  | .ueRelease release => e.onUeRelease release
  | .dlData n => e.onDlData n
  | .bsr b => e.onBsr b
  | .sr s => e.onSr s
  | .phr p => e.onPhr p
  | .csiUpdate rnti cellId cqi => e.onCsiUpdate rnti cellId cqi
  | .harqFeedback cellId fb => e.onHarqFeedback cellId fb
  | .rachIndication cellId => e.onRachIndication cellId
  | .updateConfig config => e.updateConfig config
  | .resetStatistics => e.resetStatistics

end SchedulerEngine

end NrScheduler
