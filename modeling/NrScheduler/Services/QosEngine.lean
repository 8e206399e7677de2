import NrScheduler.Lib.AListModify
import NrScheduler.Lib.Double
import NrScheduler.Core.Platform

/-!
# QoS engine

Flows by user and QFI with their token buckets, rate windows and delay trackers.
Times are readings of the steady clock in microseconds.
-/

namespace NrScheduler

open LockMonad

variable {D : Type} [Double D]

/-! ## Signed arithmetic -/

/-- A result in 64 signed bits, which wraps around. -/
def toInt64 (n : ℤ) : ℤ := Int.bmod n (2 ^ 64)

theorem toInt64_of_fits {n : ℤ} (hlow : -2 ^ 63 ≤ n) (hhigh : n < 2 ^ 63) : toInt64 n = n :=
  Int.bmod_eq_of_le (by omega) (by omega)

/-- A result that is not too small can only wrap around to a smaller one. -/
theorem toInt64_le {n : ℤ} (hlow : -2 ^ 63 ≤ n) : toInt64 n ≤ n := by
  by_cases hhigh : n < 2 ^ 63
  · exact (toInt64_of_fits hlow hhigh).le
  · have hlt : toInt64 n < ((2 ^ 64 : ℕ) + 1) / 2 := Int.bmod_lt (by decide)
    omega

/-! ## Flow state -/

structure QosEngineConfig (D : Type) where
  gbrEnforcementStrictness : D
  gbrMeasurementWindowMs : ℕ := 100
  delayMarginFactor : D
  enableMbrEnforcement : Bool := true
  tokenBucketDepthMs : ℕ := 10
  delayUrgencyWeight : D
  gbrDeficitWeight : D

def QosEngineConfig.standard : QosEngineConfig D where
  gbrEnforcementStrictness := Double.ratio 95 100
  delayMarginFactor := Double.ratio 8 10
  delayUrgencyWeight := Double.ofNat 2
  gbrDeficitWeight := Double.ratio 3 2

structure TokenBucket where
  tokens : ℤ
  bucketSize : ℤ
  fillRateBps : ℤ
  lastUpdate : ℕ
  deriving DecidableEq, Repr

namespace TokenBucket

def update (b : TokenBucket) (now : ℕ) : TokenBucket :=
  let elapsed : ℤ := now - b.lastUpdate
  let newTokens := (toInt64 (b.fillRateBps * elapsed)).tdiv 1000000
  { b with
    tokens := min (toInt64 (b.tokens + newTokens)) b.bucketSize
    lastUpdate := now }

def consume (b : TokenBucket) (bytes : ℤ) : Bool × TokenBucket :=
  if bytes ≤ b.tokens then (true, { b with tokens := toInt64 (b.tokens - bytes) }) else (false, b)

def available (b : TokenBucket) : ℤ := b.tokens

/-- A full bucket; its size is computed in 64 bits, and its rate is stored as a signed number. -/
def full (rateBps depthMs now : ℕ) : TokenBucket :=
  let size : ℤ := (rateBps * depthMs % 2 ^ 64 / 8000 : ℕ)
  ⟨size, size, toInt64 rateBps, now⟩

end TokenBucket

structure GbrTracker where
  /-- Times and bytes, oldest first. -/
  history : List (ℕ × ℕ) := []
  windowMs : ℕ := 100
  deriving DecidableEq, Repr

namespace GbrTracker

def addSample (t : GbrTracker) (now bytes : ℕ) : GbrTracker :=
  { t with
    history := (t.history ++ [(now, bytes)]).dropWhile
      fun s ↦ decide (s.1 + t.windowMs * 1000 < now) }

def currentRateBps (t : GbrTracker) : ℕ :=
  match t.history.head?, t.history.getLast? with
  | some oldest, some newest =>
      if t.history.length < 2 then 0
      else
        let durationMs := (newest.1 - oldest.1) / 1000
        if durationMs = 0 then 0
        else (t.history.map Prod.snd).sum * 8000 % 2 ^ 64 / durationMs
  | _, _ => 0

end GbrTracker

structure DelayTracker where
  pdbMs : ℕ
  oldestPacketArrival : ℕ := 0
  hasPendingData : Bool := false
  deriving DecidableEq, Repr

namespace DelayTracker

def packetArrived (t : DelayTracker) (now : ℕ) : DelayTracker :=
  if t.hasPendingData then t
  else { t with oldestPacketArrival := now, hasPendingData := true }

def packetTransmitted (t : DelayTracker) : DelayTracker := { t with hasPendingData := false }

def urgency (t : DelayTracker) (now : ℕ) : D :=
  if t.hasPendingData then
    Double.div (Double.ofNat ((now - t.oldestPacketArrival) / 1000)) (Double.ofNat t.pdbMs)
  else Double.ofNat 0

variable (D) in
def isCritical (t : DelayTracker) (now : ℕ) : Bool :=
  Double.lt (Double.ratio 8 10) (t.urgency now : D)

end DelayTracker

structure QosFlowState where
  qfi : ℕ
  params : QosFlowParams
  dlBucket : TokenBucket
  ulBucket : TokenBucket
  dlGbrTracker : GbrTracker := {}
  ulGbrTracker : GbrTracker := {}
  dlDelayTracker : DelayTracker
  ulDelayTracker : DelayTracker
  totalDlBytes : ℕ := 0
  totalUlBytes : ℕ := 0
  pdbViolations : ℕ := 0
  deriving DecidableEq, Repr

namespace QosFlowState

def bucket (f : QosFlowState) (isDl : Bool) : TokenBucket := if isDl then f.dlBucket else f.ulBucket

def setBucket (f : QosFlowState) (isDl : Bool) (b : TokenBucket) : QosFlowState :=
  if isDl then { f with dlBucket := b } else { f with ulBucket := b }

def gbrTracker (f : QosFlowState) (isDl : Bool) : GbrTracker :=
  if isDl then f.dlGbrTracker else f.ulGbrTracker

def setGbrTracker (f : QosFlowState) (isDl : Bool) (t : GbrTracker) : QosFlowState :=
  if isDl then { f with dlGbrTracker := t } else { f with ulGbrTracker := t }

def delayTracker (f : QosFlowState) (isDl : Bool) : DelayTracker :=
  if isDl then f.dlDelayTracker else f.ulDelayTracker

def setDelayTracker (f : QosFlowState) (isDl : Bool) (t : DelayTracker) : QosFlowState :=
  if isDl then { f with dlDelayTracker := t } else { f with ulDelayTracker := t }

def gbrBps (f : QosFlowState) (isDl : Bool) : ℕ :=
  if isDl then f.params.gbrDlBps else f.params.gbrUlBps

def isGbr (f : QosFlowState) : Bool :=
  f.params.characteristics.resourceType == .gbr ||
    f.params.characteristics.resourceType == .delayC

def countBytes (f : QosFlowState) (isDl : Bool) (bytes : ℕ) : QosFlowState :=
  if isDl then { f with totalDlBytes := (f.totalDlBytes + bytes) % 2 ^ 64 }
  else { f with totalUlBytes := (f.totalUlBytes + bytes) % 2 ^ 64 }

/-- The rate of a direction lies below the enforced part of the guarantee. -/
def belowGuarantee (f : QosFlowState) (strictness : D) (isDl : Bool) : Bool :=
  Double.lt (Double.ofNat (f.gbrTracker isDl).currentRateBps)
    (Double.mul (Double.ofNat (f.gbrBps isDl)) strictness)

end QosFlowState

/-! ## Engine state -/

/-- The flow counters, which also go down, wrap around in 64 bits.  The event counters only go
up, and are plain numbers. -/
structure QosStats (D : Type) where
  totalFlows : ℕ := 0
  gbrFlows : ℕ := 0
  delayCriticalEvents : ℕ := 0
  pdbViolations : ℕ := 0
  mbrThrottleEvents : ℕ := 0
  totalDelayMargin : D
  delaySamples : ℕ := 0

namespace QosStats

def zero : QosStats D := { totalDelayMargin := Double.ofNat 0 }

/-- Counters go down in 64 bits. -/
def down (n : ℕ) : ℕ := (n + (2 ^ 64 - 1)) % 2 ^ 64

def dropFlow (s : QosStats D) (f : QosFlowState) : QosStats D :=
  { s with
    gbrFlows := if f.params.characteristics.resourceType = .gbr then down s.gbrFlows
      else s.gbrFlows
    totalFlows := down s.totalFlows }

end QosStats

structure QosEngine (D : Type) where
  config : QosEngineConfig D
  flows : AList (fun _ : Rnti ↦ AList fun _ : ℕ ↦ QosFlowState) := ∅
  stats : QosStats D

structure QosPriorityResult (D : Type) where
  basePriority : D
  gbrFactor : D
  delayFactor : D
  finalPriority : D
  isGbr : Bool := false
  isDelayCritical : Bool := false
  minBytesRequired : ℕ := 0
  maxBytesAllowed : ℕ

/-- The result for an unknown flow. -/
def QosPriorityResult.neutral (bufferBytes : ℕ) : QosPriorityResult D where
  basePriority := Double.ofNat 1
  gbrFactor := Double.ofNat 1
  delayFactor := Double.ofNat 1
  finalPriority := Double.ofNat 1
  maxBytesAllowed := bufferBytes

namespace QosEngine

def create (config : QosEngineConfig D := .standard) : QosEngine D :=
  { config := config, stats := .zero }

def flow? (e : QosEngine D) (rnti : Rnti) (qfi : ℕ) : Option QosFlowState :=
  (e.flows.lookup rnti).bind fun ueFlows ↦ ueFlows.lookup qfi

def setFlow (e : QosEngine D) (rnti : Rnti) (qfi : ℕ) (f : QosFlowState) : QosEngine D :=
  { e with flows := e.flows.modify rnti fun ueFlows ↦ ueFlows.modify qfi fun _ ↦ f }

/-! ### Flow management -/

def newFlow (config : QosEngineConfig D) (now : ℕ) (params : QosFlowParams) : QosFlowState :=
  let chars := params.characteristics
  let limited := chars.resourceType = .gbr ∨ chars.resourceType = .delayC
  let bucket := fun rateBps ↦ TokenBucket.full rateBps config.tokenBucketDepthMs now
  { qfi := params.qfi
    params := params
    dlBucket := bucket (if limited then params.mbrDlBps else 1000000000)
    ulBucket := bucket (if limited then params.mbrUlBps else 1000000000)
    dlGbrTracker := { windowMs := config.gbrMeasurementWindowMs }
    ulGbrTracker := { windowMs := config.gbrMeasurementWindowMs }
    dlDelayTracker := { pdbMs := chars.packetDelayBudgetMs }
    ulDelayTracker := { pdbMs := chars.packetDelayBudgetMs } }

def registerFlow (e : QosEngine D) (P : Platform) (rnti : Rnti) (params : QosFlowParams) :
    Exec (QosEngine D) :=
  withLock .qosEngine do
    let flow := newFlow e.config P.now params
    return { e with
      flows := e.flows.insert rnti (((e.flows.lookup rnti).getD ∅).insert params.qfi flow)
      stats := { e.stats with
        gbrFlows := if flow.isGbr then (e.stats.gbrFlows + 1) % 2 ^ 64 else e.stats.gbrFlows
        totalFlows := (e.stats.totalFlows + 1) % 2 ^ 64 } }

def removeFlow (e : QosEngine D) (rnti : Rnti) (qfi : ℕ) : Exec (QosEngine D) :=
  withLock .qosEngine do
    return match e.flow? rnti qfi with
      | none => e
      | some flow =>
          { e with
            flows := e.flows.modify rnti fun ueFlows ↦ ueFlows.erase qfi
            stats := e.stats.dropFlow flow }

def removeUeFlows (e : QosEngine D) (rnti : Rnti) : Exec (QosEngine D) :=
  withLock .qosEngine do
    return match e.flows.lookup rnti with
      | none => e
      | some ueFlows =>
          { e with
            flows := e.flows.erase rnti
            stats := ueFlows.entries.foldl (fun s f ↦ s.dropFlow f.2) e.stats }

/-! ### Priority -/

/-- The boost of a flow below its guaranteed rate, and the bytes it then asks for. -/
def gbrBoost (config : QosEngineConfig D) (flow : QosFlowState) (isDl : Bool) : D × ℕ :=
  if flow.isGbr && flow.belowGuarantee config.gbrEnforcementStrictness isDl then
    let gbr := flow.gbrBps isDl
    let rate := (flow.gbrTracker isDl).currentRateBps
    let deficitRatio := Double.sub (Double.ofNat 1)
      (Double.div (Double.ofNat rate) (Double.ofNat gbr))
    (Double.add (Double.ofNat 1) (Double.mul deficitRatio config.gbrDeficitWeight),
      gbr / 8000 % 2 ^ 32)
  else (Double.ofNat 1, 0)

/-- The boost of a flow close to its delay budget. -/
def delayBoost (config : QosEngineConfig D) (urgency : D) : D :=
  if Double.lt config.delayMarginFactor urgency then
    Double.add (Double.ofNat 1)
      (Double.mul (Double.sub urgency config.delayMarginFactor) config.delayUrgencyWeight)
  else Double.ofNat 1

/-- The priority of a known flow, with the bucket refilled and the events counted. -/
def rankFlow (e : QosEngine D) (now : ℕ) (rnti : Rnti) (qfi : ℕ) (flow : QosFlowState)
    (isDl : Bool) (bufferBytes : ℕ) : QosPriorityResult D × QosEngine D :=
  let base := Double.div (Double.ofNat 128)
    (Double.ofNat flow.params.characteristics.priorityLevel)
  let gbr := gbrBoost e.config flow isDl
  let urgency : D := (flow.delayTracker isDl).urgency now
  let critical := Double.lt e.config.delayMarginFactor urgency
  let delay := delayBoost e.config urgency
  let enforce := e.config.enableMbrEnforcement
  let bucket := (flow.bucket isDl).update now
  let maxBytes :=
    if enforce then min bufferBytes (bucket.available % 2 ^ 32).toNat else bufferBytes
  let e' := if enforce then e.setFlow rnti qfi (flow.setBucket isDl bucket) else e
  let pending := (flow.delayTracker isDl).hasPendingData
  ({ basePriority := base
     gbrFactor := gbr.1
     delayFactor := delay
     finalPriority := Double.mul (Double.mul base gbr.1) delay
     isGbr := flow.isGbr
     isDelayCritical := critical
     minBytesRequired := gbr.2
     maxBytesAllowed := maxBytes },
   { e' with stats := { e.stats with
      delayCriticalEvents :=
        if critical then e.stats.delayCriticalEvents + 1 else e.stats.delayCriticalEvents
      mbrThrottleEvents :=
        if maxBytes < bufferBytes then e.stats.mbrThrottleEvents + 1
        else e.stats.mbrThrottleEvents
      totalDelayMargin :=
        if pending then Double.add e.stats.totalDelayMargin (Double.sub (Double.ofNat 1) urgency)
        else e.stats.totalDelayMargin
      delaySamples := if pending then e.stats.delaySamples + 1 else e.stats.delaySamples } })

def calculatePriority (e : QosEngine D) (P : Platform) (rnti : Rnti) (qfi : ℕ) (isDl : Bool)
    (bufferBytes : ℕ) : Exec (QosPriorityResult D × QosEngine D) :=
  withLock .qosEngine do
    return match e.flow? rnti qfi with
      | none => (.neutral bufferBytes, e)
      | some flow => e.rankFlow P.now rnti qfi flow isDl bufferBytes

/-! ### Rates and delays -/

def getAllowedBytes (e : QosEngine D) (P : Platform) (rnti : Rnti) (qfi : ℕ) (isDl : Bool) :
    Exec (ℕ × QosEngine D) :=
  withLock .qosEngine do
    return match e.flow? rnti qfi with
      | none => (2 ^ 32 - 1, e)
      | some flow =>
          let bucket := (flow.bucket isDl).update P.now
          ((max 0 bucket.available).toNat % 2 ^ 32,
            e.setFlow rnti qfi (flow.setBucket isDl bucket))

def reportTransmission (e : QosEngine D) (P : Platform) (rnti : Rnti) (qfi : ℕ) (isDl : Bool)
    (bytes : ℕ) : Exec (QosEngine D) :=
  withLock .qosEngine do
    return match e.flow? rnti qfi with
      | none => e
      | some flow =>
          let bucket := (flow.bucket isDl).update P.now
          let bucket := { bucket with tokens := toInt64 (bucket.tokens - bytes) }
          let tracker := (flow.gbrTracker isDl).addSample P.now bytes
          e.setFlow rnti qfi
            (((flow.setBucket isDl bucket).setGbrTracker isDl tracker).countBytes isDl bytes)

def notifyDataArrival (e : QosEngine D) (P : Platform) (rnti : Rnti) (qfi : ℕ) (isDl : Bool) :
    Exec (QosEngine D) :=
  withLock .qosEngine do
    return match e.flow? rnti qfi with
      | none => e
      | some flow =>
          e.setFlow rnti qfi
            (flow.setDelayTracker isDl ((flow.delayTracker isDl).packetArrived P.now))

def notifyDataTransmitted (e : QosEngine D) (P : Platform) (rnti : Rnti) (qfi : ℕ)
    (isDl : Bool) : Exec (QosEngine D) :=
  withLock .qosEngine do
    return match e.flow? rnti qfi with
      | none => e
      | some flow =>
          let tracker := flow.delayTracker isDl
          let sent := flow.setDelayTracker isDl tracker.packetTransmitted
          if Double.lt (Double.ofNat 1) (tracker.urgency P.now : D) then
            let counted := { sent with pdbViolations := (flow.pdbViolations + 1) % 2 ^ 32 }
            { e.setFlow rnti qfi counted with
              stats := { e.stats with pdbViolations := e.stats.pdbViolations + 1 } }
          else e.setFlow rnti qfi sent

/-- The flows that satisfy `p`, in the order the two hash maps are walked. -/
def listFlows (e : QosEngine D) (P : Platform) (p : QosFlowState → Bool) : List (Rnti × ℕ) :=
  (P.hashOrder e.flows.entries).flatMap fun ue ↦
    ((P.hashOrder ue.2.entries).filter fun f ↦ p f.2).map fun f ↦ (ue.1, f.1)

def getDelayCriticalFlows (e : QosEngine D) (P : Platform) : Exec (List (Rnti × ℕ)) :=
  withLock .qosEngine do
    return e.listFlows P fun flow ↦
      flow.dlDelayTracker.isCritical D P.now || flow.ulDelayTracker.isCritical D P.now

def getCurrentRate (e : QosEngine D) (rnti : Rnti) (qfi : ℕ) (isDl : Bool) : Exec ℕ :=
  withLock .qosEngine do
    return ((e.flow? rnti qfi).map fun flow ↦ (flow.gbrTracker isDl).currentRateBps).getD 0

def getGbrDeficit (e : QosEngine D) (rnti : Rnti) (qfi : ℕ) (isDl : Bool) : Exec ℤ :=
  withLock .qosEngine do
    return match e.flow? rnti qfi with
      | none => 0
      | some flow =>
          if flow.isGbr then toInt64 (flow.gbrBps isDl - (flow.gbrTracker isDl).currentRateBps)
          else 0

def getGbrDeficitFlows (e : QosEngine D) (P : Platform) : Exec (List (Rnti × ℕ)) :=
  withLock .qosEngine do
    let strictness := e.config.gbrEnforcementStrictness
    return e.listFlows P fun flow ↦
      flow.isGbr && (flow.belowGuarantee strictness true || flow.belowGuarantee strictness false)

/-! ### Statistics, configuration and slots -/

structure Statistics (D : Type) where
  totalFlows : ℕ
  gbrFlows : ℕ
  delayCriticalEvents : ℕ
  pdbViolations : ℕ
  mbrThrottleEvents : ℕ
  avgDelayMargin : D
  gbrSatisfactionRatio : D

/-- The statistics; `memory` is what the margin holds while there are no samples. -/
def getStatistics (e : QosEngine D) (memory : D) : Exec (Statistics D) :=
  withLock .qosEngine do
    let flows := e.flows.entries.flatMap fun ue ↦ ue.2.entries.map fun f ↦ f.2
    let gbrFlows := flows.filter QosFlowState.isGbr
    let satisfied := gbrFlows.filter fun flow ↦
      Double.le
        (Double.mul (Double.ofNat (flow.gbrBps true)) e.config.gbrEnforcementStrictness)
        (Double.ofNat flow.dlGbrTracker.currentRateBps)
    return {
      totalFlows := e.stats.totalFlows
      gbrFlows := e.stats.gbrFlows
      delayCriticalEvents := e.stats.delayCriticalEvents
      pdbViolations := e.stats.pdbViolations
      mbrThrottleEvents := e.stats.mbrThrottleEvents
      avgDelayMargin :=
        if 0 < e.stats.delaySamples then
          Double.div e.stats.totalDelayMargin (Double.ofNat e.stats.delaySamples)
        else memory
      gbrSatisfactionRatio :=
        if 0 < gbrFlows.length then
          Double.div (Double.ofNat satisfied.length) (Double.ofNat gbrFlows.length)
        else Double.ofNat 1 }

def resetStatistics (e : QosEngine D) : Exec (QosEngine D) :=
  withLock .qosEngine do return { e with stats := .zero }

def updateConfig (e : QosEngine D) (config : QosEngineConfig D) : Exec (QosEngine D) :=
  withLock .qosEngine do return { e with config := config }

def tickFlow (now : ℕ) (flow : QosFlowState) : QosFlowState :=
  { flow with dlBucket := flow.dlBucket.update now, ulBucket := flow.ulBucket.update now }

def onSlotTick (e : QosEngine D) (P : Platform) : Exec (QosEngine D) :=
  withLock .qosEngine do
    return { e with
      flows := e.flows.mapValues fun ueFlows ↦ ueFlows.mapValues (tickFlow P.now) }

end QosEngine

/-! ## 5QI table -/

/-- Standard characteristics of a 5QI; an unknown one is best effort. -/
def get5qiCharacteristics (fiveqi : ℕ) : QosCharacteristics :=
  match fiveqi with
  | 1 => ⟨.gbr, 20, 100⟩
  | 2 => ⟨.gbr, 40, 150⟩
  | 3 => ⟨.gbr, 30, 50⟩
  | 4 => ⟨.gbr, 50, 300⟩
  | 5 => ⟨.nonGbr, 10, 100⟩
  | 6 => ⟨.nonGbr, 60, 300⟩
  | 7 => ⟨.nonGbr, 70, 100⟩
  | 8 => ⟨.nonGbr, 80, 300⟩
  | 9 => ⟨.nonGbr, 90, 300⟩
  | 82 => ⟨.delayC, 19, 10⟩
  | 83 => ⟨.delayC, 22, 10⟩
  | 84 => ⟨.delayC, 24, 30⟩
  | 85 => ⟨.delayC, 21, 5⟩
  | _ => ⟨.nonGbr, 90, 300⟩

/-- Nothing is divided by zero for a flow with standard characteristics. -/
theorem get5qiCharacteristics_pos (fiveqi : ℕ) :
    0 < (get5qiCharacteristics fiveqi).priorityLevel ∧
      0 < (get5qiCharacteristics fiveqi).packetDelayBudgetMs := by
  unfold get5qiCharacteristics
  split <;> decide

end NrScheduler
