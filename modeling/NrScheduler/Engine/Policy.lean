import NrScheduler.Engine.Interfaces
import NrScheduler.Lib.Double

/-!
# Scheduling policies

The interface of a policy manager and the four policies that come with the scheduler.
-/

namespace NrScheduler

/-- A policy manager with state `π`.  A policy may update its state while it computes a
priority; `create` is the factory the engine builds its policy with. -/
class IPolicyManager (π D : Type) where
  calculatePriority : Platform → π → UeContext → CellContext → Bool → D × π
  updateHistory : Platform → π → UeContext → ℕ → π
  onSlotStart : π → FrameTiming → π
  createPolicyManager : Strategy → π

def UeContext.buffer (ue : UeContext) (isDl : Bool) : ℕ :=
  if isDl then ue.totalDlBuffer else ue.totalUlBuffer

variable {D : Type} [Double D]

/-! ## Round robin -/

structure RoundRobinPolicy where
  currentSlot : ℕ := 0
  lastScheduled : AList (fun _ : Rnti ↦ ℕ) := ∅

namespace RoundRobinPolicy

def calculatePriority (p : RoundRobinPolicy) (ue : UeContext) (isDl : Bool) : D :=
  if ue.buffer isDl = 0 then Double.ofNat 0
  else
    match p.lastScheduled.lookup ue.rnti with
    | none => Double.ofNat 1000
    | some last => Double.ofNat ((p.currentSlot + 2 ^ 32 - last) % 2 ^ 32)

def updateHistory (p : RoundRobinPolicy) (ue : UeContext) : RoundRobinPolicy :=
  { p with lastScheduled := p.lastScheduled.insert ue.rnti p.currentSlot }

def onSlotStart (p : RoundRobinPolicy) (timing : FrameTiming) : RoundRobinPolicy :=
  { p with currentSlot := timing.absoluteSlot }

end RoundRobinPolicy

/-! ## Proportional fair -/

structure RateHistory (D : Type) where
  /-- Times in microseconds and bytes, oldest first. -/
  samples : List (ℕ × ℕ)
  cachedAvgRate : D

structure ProportionalFairPolicy (D : Type) where
  alpha : D
  windowMs : ℕ := 1000
  rateHistory : AList (fun _ : Rnti ↦ RateHistory D) := ∅

namespace ProportionalFairPolicy

def estimateInstantaneousRate (P : Platform) (ue : UeContext) (cell : CellContext) : D :=
  let maxRbs := cell.config.numRbs / 4
  Double.mul (Double.ofNat (P.tbsTableLookup ue.mcsFromCqi maxRbs 1)) (Double.ofNat 1000)

def getAverageRate (p : ProportionalFairPolicy D) (rnti : Rnti) : D :=
  match p.rateHistory.lookup rnti with
  | none => Double.ofNat 1
  | some history => history.cachedAvgRate

def computeAvgRate (samples : List (ℕ × ℕ)) : D :=
  if samples.length < 2 then Double.ofNat 1
  else
    let totalBytes := (samples.map Prod.snd).sum
    let first := (samples.head?.map Prod.fst).getD 0
    let last := (samples.getLast?.map Prod.fst).getD 0
    let durationMs := (last - first) / 1000
    if durationMs = 0 then Double.ofNat 1
    else
      Double.div (Double.mul (Double.ofNat totalBytes) (Double.ofNat 8000))
        (Double.ofNat durationMs)

def calculatePriority (P : Platform) (p : ProportionalFairPolicy D) (ue : UeContext)
    (cell : CellContext) (isDl : Bool) : D :=
  let buffer := ue.buffer isDl
  if buffer = 0 then Double.ofNat 0
  else
    let instRate : D := estimateInstantaneousRate P ue cell
    let avgRate := p.getAverageRate ue.rnti
    let avgRate := if Double.lt avgRate (Double.ofNat 1) then Double.ofNat 1 else avgRate
    let pfMetric := Double.div instRate (Double.pow avgRate p.alpha)
    let bufferFactor := Double.log2 (Double.add (Double.ofNat 1)
      (Double.div (Double.ofNat buffer) (Double.ofNat 1000)))
    Double.mul pfMetric bufferFactor

def updateHistory (P : Platform) (p : ProportionalFairPolicy D) (ue : UeContext)
    (bytes : ℕ) : ProportionalFairPolicy D :=
  let samples := ((p.rateHistory.lookup ue.rnti).map RateHistory.samples).getD []
  let samples := (samples ++ [(P.now, bytes)]).dropWhile
    fun s ↦ decide (s.1 + p.windowMs * 1000 < P.now)
  { p with
    rateHistory := p.rateHistory.insert ue.rnti ⟨samples, computeAvgRate samples⟩ }

end ProportionalFairPolicy

/-! ## Maximum throughput and QoS awareness -/

def maxThroughputPriority (ue : UeContext) (isDl : Bool) : D :=
  let buffer := ue.buffer isDl
  if buffer = 0 then Double.ofNat 0
  else
    Double.mul (Double.ofNat ue.effectiveCqi)
      (Double.min (Double.div (Double.ofNat buffer) (Double.ofNat 1000)) (Double.ofNat 10))

structure QosAwarePolicy (D : Type) where
  pfPolicy : ProportionalFairPolicy D
  qosWeight : D

namespace QosAwarePolicy

def boostStep (qosBoost : D) (lc : LogicalChannelConfig) : D :=
  let lcBoost := Double.div (Double.ofNat 17) (Double.ofNat (lc.priority + 1))
  let qosBoost := Double.max qosBoost lcBoost
  match lc.qosParams with
  | some q =>
      if q.characteristics.resourceType = .gbr then Double.mul qosBoost (Double.ratio 3 2)
      else qosBoost
  | none => qosBoost

def qosBoost (P : Platform) (ue : UeContext) : D :=
  (P.hashOrder ue.logicalChannels.entries).foldl (fun b e ↦ boostStep b e.2) (Double.ofNat 1)

def calculatePriority (P : Platform) (p : QosAwarePolicy D) (ue : UeContext)
    (cell : CellContext) (isDl : Bool) : D :=
  Double.mul (p.pfPolicy.calculatePriority P ue cell isDl)
    (Double.pow (qosBoost P ue) p.qosWeight)

end QosAwarePolicy

/-! ## The policies behind the interface -/

inductive BuiltinPolicy (D : Type) where
  | roundRobin (p : RoundRobinPolicy)
  | proportionalFair (p : ProportionalFairPolicy D)
  | maxThroughput
  | qosAware (p : QosAwarePolicy D)

namespace BuiltinPolicy

def createPolicyManager : Strategy → BuiltinPolicy D
  | .roundRobin => .roundRobin {}
  | .maxThroughput => .maxThroughput
  | .proportionalFair | .custom => .proportionalFair { alpha := Double.ofNat 1 }
  | .qosAware => .qosAware ⟨{ alpha := Double.ratio 8 10 }, Double.ofNat 2⟩

def priority (P : Platform) (policy : BuiltinPolicy D) (ue : UeContext) (cell : CellContext)
    (isDl : Bool) : D :=
  match policy with
  | .roundRobin p => p.calculatePriority ue isDl
  | .proportionalFair p => p.calculatePriority P ue cell isDl
  | .maxThroughput => maxThroughputPriority ue isDl
  | .qosAware p => p.calculatePriority P ue cell isDl

def updateHistory (P : Platform) (policy : BuiltinPolicy D) (ue : UeContext) (bytes : ℕ) :
    BuiltinPolicy D :=
  match policy with
  | .roundRobin p => .roundRobin (p.updateHistory ue)
  | .proportionalFair p => .proportionalFair (p.updateHistory P ue bytes)
  | .maxThroughput => .maxThroughput
  | .qosAware p => .qosAware { p with pfPolicy := p.pfPolicy.updateHistory P ue bytes }

def onSlotStart (policy : BuiltinPolicy D) (timing : FrameTiming) : BuiltinPolicy D :=
  match policy with
  | .roundRobin p => .roundRobin (p.onSlotStart timing)
  | other => other

end BuiltinPolicy

instance : IPolicyManager (BuiltinPolicy D) D where
  calculatePriority P policy ue cell isDl := (policy.priority P ue cell isDl, policy)
  updateHistory P policy ue bytes := policy.updateHistory P ue bytes
  onSlotStart policy timing := policy.onSlotStart timing
  createPolicyManager strategy := BuiltinPolicy.createPolicyManager strategy

end NrScheduler
