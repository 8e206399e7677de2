import NrScheduler.Core.CellContext
import NrScheduler.Lib.Double

/-!
# Slice orchestrator

Slices, the users associated with them and the block budgets of the current slot.
-/

namespace NrScheduler

open LockMonad

variable {D : Type} [Double D]

/-! ## Slices and budgets -/

structure SliceSlaConfig (D : Type) where
  guaranteedRbs : ℕ
  maxRbs : ℕ
  resourceShare : D
  maxLatencyMs : ℕ
  slicePriority : ℕ
  strictIsolation : Bool
  preemptible : Bool

structure SliceConfig (D : Type) where
  sliceId : SliceId
  sla : SliceSlaConfig D

/-- A slice without a limit, which others can borrow from. -/
def SliceConfig.shared (sliceId : SliceId) (guaranteedRbs slicePriority : ℕ)
    (resourceShare : D) : SliceConfig D where
  sliceId := sliceId
  sla := {
    guaranteedRbs := guaranteedRbs
    maxRbs := 0
    resourceShare := resourceShare
    maxLatencyMs := 100
    slicePriority := slicePriority
    strictIsolation := false
    preemptible := true }

structure WindowStats where
  bytesDl : ℕ := 0
  bytesUl : ℕ := 0
  uesScheduledDl : ℕ := 0
  uesScheduledUl : ℕ := 0
  deriving DecidableEq, Repr

structure SliceState (D : Type) where
  sliceId : SliceId
  active : Bool
  currentRbsDl : ℕ := 0
  currentRbsUl : ℕ := 0
  connectedUes : ℕ := 0
  avgLatencyMs : D
  currentWindow : WindowStats := {}

/-- What the map creates for an absent slice. -/
def SliceState.zero : SliceState D :=
  { sliceId := 0, active := false, avgLatencyMs := Double.ofNat 0 }

structure SliceResourceBudget where
  sliceId : SliceId
  availableRbsDl : ℕ
  availableRbsUl : ℕ
  usedRbsDl : ℕ := 0
  usedRbsUl : ℕ := 0
  borrowedRbs : ℤ := 0
  deriving DecidableEq, Repr

namespace SliceResourceBudget

def available (b : SliceResourceBudget) (isDl : Bool) : ℕ :=
  if isDl then b.availableRbsDl else b.availableRbsUl

def used (b : SliceResourceBudget) (isDl : Bool) : ℕ := if isDl then b.usedRbsDl else b.usedRbsUl

/-- The remaining blocks of a direction, in 16-bit arithmetic. -/
def remaining (b : SliceResourceBudget) (isDl : Bool) : ℕ :=
  (b.available isDl + 2 ^ 16 - b.used isDl) % 2 ^ 16

def addAvailable (b : SliceResourceBudget) (isDl : Bool) (rbs : ℕ) : SliceResourceBudget :=
  if isDl then { b with availableRbsDl := (b.availableRbsDl + rbs) % 2 ^ 16 }
  else { b with availableRbsUl := (b.availableRbsUl + rbs) % 2 ^ 16 }

def addUsed (b : SliceResourceBudget) (isDl : Bool) (rbs : ℕ) : SliceResourceBudget :=
  if isDl then { b with usedRbsDl := (b.usedRbsDl + rbs) % 2 ^ 16 }
  else { b with usedRbsUl := (b.usedRbsUl + rbs) % 2 ^ 16 }

/-- The value of a 16-bit pattern read as a signed number. -/
def toInt16 (n : ℤ) : ℤ := Int.bmod n (2 ^ 16)

def addBorrowed (b : SliceResourceBudget) (rbs : ℤ) : SliceResourceBudget :=
  { b with borrowedRbs := toInt16 (b.borrowedRbs + rbs) }

end SliceResourceBudget

/-- The counters have 64 bits and do not wrap around in a feasible run. -/
structure SliceStats (D : Type) where
  totalSlaViolations : ℕ := 0
  resourceBorrowingEvents : ℕ := 0
  totalUtilization : D
  utilizationSamples : ℕ := 0

structure SliceOrchestrator (D : Type) where
  sliceConfigs : AList (fun _ : SliceId ↦ SliceConfig D) := ∅
  sliceStates : AList (fun _ : SliceId ↦ SliceState D) := ∅
  ueSliceMap : AList (fun _ : Rnti ↦ SliceId) := ∅
  currentBudgets : AList (fun _ : SliceId ↦ SliceResourceBudget) := ∅
  sharedPoolDl : ℕ := 0
  sharedPoolUl : ℕ := 0
  stats : SliceStats D
  currentTiming : FrameTiming := {}

namespace SliceOrchestrator

def create : SliceOrchestrator D := { stats := { totalUtilization := Double.ofNat 0 } }

/-! ## Slice management -/

/-- Create a slice; `memory` is what its uninitialised state holds. -/
def createSlice (o : SliceOrchestrator D) (config : SliceConfig D) (memory : SliceState D) :
    Exec (Bool × SliceOrchestrator D) :=
  withLock .sliceOrchestrator do
    if config.sliceId ∈ o.sliceConfigs then return (false, o)
    else
      let state := { memory with sliceId := config.sliceId, active := true }
      return (true, { o with
        sliceConfigs := o.sliceConfigs.insert config.sliceId config
        sliceStates := o.sliceStates.insert config.sliceId state })

def updateSlice (o : SliceOrchestrator D) (sliceId : SliceId) (config : SliceConfig D) :
    Exec (Bool × SliceOrchestrator D) :=
  withLock .sliceOrchestrator do
    if sliceId ∈ o.sliceConfigs then
      return (true, { o with sliceConfigs := o.sliceConfigs.modify sliceId fun _ ↦ config })
    else return (false, o)

def deleteSlice (o : SliceOrchestrator D) (sliceId : SliceId) :
    Exec (Bool × SliceOrchestrator D) :=
  withLock .sliceOrchestrator do
    if o.ueSliceMap.entries.any fun e ↦ e.2 == sliceId then return (false, o)
    else
      return (true, { o with
        sliceConfigs := o.sliceConfigs.erase sliceId
        sliceStates := o.sliceStates.erase sliceId
        currentBudgets := o.currentBudgets.erase sliceId })

def getSliceConfig (o : SliceOrchestrator D) (sliceId : SliceId) :
    Exec (Option (SliceConfig D)) :=
  withLock .sliceOrchestrator do return o.sliceConfigs.lookup sliceId

def getAllSlices (o : SliceOrchestrator D) (P : Platform) : Exec (List SliceId) :=
  withLock .sliceOrchestrator do return (P.hashOrder o.sliceConfigs.entries).map Sigma.fst

/-! ## Users of a slice -/

def associateUe (o : SliceOrchestrator D) (rnti : Rnti) (sliceId : SliceId) :
    Exec (Bool × SliceOrchestrator D) :=
  withLock .sliceOrchestrator do
    if sliceId ∈ o.sliceConfigs then
      let state := (o.sliceStates.lookup sliceId).getD .zero
      let state := { state with connectedUes := (state.connectedUes + 1) % 2 ^ 32 }
      return (true, { o with
        ueSliceMap := o.ueSliceMap.insert rnti sliceId
        sliceStates := o.sliceStates.insert sliceId state })
    else return (false, o)

def disassociateUe (o : SliceOrchestrator D) (rnti : Rnti) : Exec (SliceOrchestrator D) :=
  withLock .sliceOrchestrator do
    return match o.ueSliceMap.lookup rnti with
      | none => o
      | some sliceId =>
          let state := (o.sliceStates.lookup sliceId).getD .zero
          let state := { state with connectedUes := state.connectedUes - 1 }
          { o with
            ueSliceMap := o.ueSliceMap.erase rnti
            sliceStates := o.sliceStates.insert sliceId state }

def getUeSlice (o : SliceOrchestrator D) (rnti : Rnti) : Exec (Option SliceId) :=
  withLock .sliceOrchestrator do return o.ueSliceMap.lookup rnti

def getSliceUes (o : SliceOrchestrator D) (P : Platform) (sliceId : SliceId) :
    Exec (List Rnti) :=
  withLock .sliceOrchestrator do
    return ((P.hashOrder o.ueSliceMap.entries).filter fun e ↦ e.2 == sliceId).map Sigma.fst

/-! ## Budgets -/

/-- One round of the first pass; the accumulator holds the blocks handed out so far. -/
def guaranteeRound (totalRbs : ℕ)
    (acc : ℕ × ℕ × AList fun _ : SliceId ↦ SliceResourceBudget)
    (e : Sigma fun _ : SliceId ↦ SliceConfig D) :
    ℕ × ℕ × AList fun _ : SliceId ↦ SliceResourceBudget :=
  let (allocatedDl, allocatedUl, budgets) := acc
  let dl := min e.2.sla.guaranteedRbs ((totalRbs + 2 ^ 16 - allocatedDl) % 2 ^ 16)
  let ul := min e.2.sla.guaranteedRbs ((totalRbs + 2 ^ 16 - allocatedUl) % 2 ^ 16)
  let budget := { sliceId := e.1, availableRbsDl := dl, availableRbsUl := ul }
  ((allocatedDl + dl) % 2 ^ 16, (allocatedUl + ul) % 2 ^ 16, budgets.insert e.1 budget)

/-- The blocks a slice gets from the shared pool of a direction. -/
def extraRbs (sla : SliceSlaConfig D) (pool : ℕ) (shareRatio : D) (available : ℕ) : ℕ :=
  let extra := Double.toNat (Double.mul (Double.ofNat pool) shareRatio) % 2 ^ 16
  if 0 < sla.maxRbs then min extra ((sla.maxRbs + 2 ^ 16 - available) % 2 ^ 16) else extra

/-- One round of the second pass. -/
def shareRound (o : SliceOrchestrator D) (totalShare : D) (poolDl poolUl : ℕ)
    (budgets : AList fun _ : SliceId ↦ SliceResourceBudget) (sliceId : SliceId) :
    AList fun _ : SliceId ↦ SliceResourceBudget :=
  match o.sliceConfigs.lookup sliceId with
  | none => budgets
  | some config =>
      let shareRatio := Double.div config.sla.resourceShare totalShare
      budgets.modify sliceId fun b ↦
        (b.addAvailable true (extraRbs config.sla poolDl shareRatio b.availableRbsDl)).addAvailable
          false (extraRbs config.sla poolUl shareRatio b.availableRbsUl)

/-- The budgets of a slot, and the shared pools of the two directions. -/
def computeBudgets (o : SliceOrchestrator D) (P : Platform) (totalRbs : ℕ) :
    ℕ × ℕ × AList fun _ : SliceId ↦ SliceResourceBudget :=
  let slices := P.hashOrder o.sliceConfigs.entries
  let (allocatedDl, allocatedUl, budgets) := slices.foldl (guaranteeRound totalRbs) (0, 0, ∅)
  let poolDl := (totalRbs + 2 ^ 16 - allocatedDl) % 2 ^ 16
  let poolUl := (totalRbs + 2 ^ 16 - allocatedUl) % 2 ^ 16
  let totalShare := slices.foldl (fun sum e ↦ Double.add sum e.2.sla.resourceShare)
    (Double.ofNat 0)
  if (0 < poolDl ∨ 0 < poolUl) ∧ Double.lt (Double.ofNat 0) totalShare then
    (poolDl, poolUl, ((P.hashOrder budgets.entries).map Sigma.fst).foldl
      (o.shareRound totalShare poolDl poolUl) budgets)
  else (poolDl, poolUl, budgets)

def calculateBudgets (o : SliceOrchestrator D) (P : Platform) (cell : CellContext) :
    Exec (AList (fun _ : SliceId ↦ SliceResourceBudget) × SliceOrchestrator D) :=
  withLock .sliceOrchestrator do
    let (poolDl, poolUl, budgets) := o.computeBudgets P cell.config.numRbs
    return (budgets, { o with
      currentBudgets := budgets
      sharedPoolDl := poolDl
      sharedPoolUl := poolUl })

def getBudget (o : SliceOrchestrator D) (sliceId : SliceId) : Exec SliceResourceBudget :=
  withLock .sliceOrchestrator do
    return (o.currentBudgets.lookup sliceId).getD ⟨0, 0, 0, 0, 0, 0⟩

/-- Borrow from the listed slices until `toBorrow` blocks are found; the number is what is
borrowed so far. -/
def borrowLoop (sliceId : SliceId) (config : SliceConfig D) (toBorrow : ℕ) (isDl : Bool) :
    List SliceId → ℕ → SliceOrchestrator D → ℕ × SliceOrchestrator D
  | [], borrowed, o => (borrowed, o)
  | otherId :: rest, borrowed, o =>
      match o.sliceConfigs.lookup otherId, o.currentBudgets.lookup otherId with
      | some other, some budget =>
          let toTake := min (toBorrow - borrowed) (budget.remaining isDl)
          if otherId = sliceId ∨ !other.sla.preemptible ∨
              other.sla.slicePriority ≤ config.sla.slicePriority ∨ toTake = 0 then
            borrowLoop sliceId config toBorrow isDl rest borrowed o
          else
            let lent := o.currentBudgets.modify otherId fun b ↦ b.addUsed isDl toTake
            let taken := lent.modify sliceId fun b ↦
              (b.addAvailable isDl toTake).addBorrowed toTake
            let o' := { o with
              currentBudgets := taken
              stats := { o.stats with
                resourceBorrowingEvents := o.stats.resourceBorrowingEvents + 1 } }
            if toBorrow ≤ borrowed + toTake then (borrowed + toTake, o')
            else borrowLoop sliceId config toBorrow isDl rest (borrowed + toTake) o'
      | _, _ => borrowLoop sliceId config toBorrow isDl rest borrowed o

def requestResources (o : SliceOrchestrator D) (P : Platform) (sliceId : SliceId)
    (rbsNeeded : ℕ) (isDl : Bool) : Exec (ℕ × SliceOrchestrator D) :=
  withLock .sliceOrchestrator do
    return match o.currentBudgets.lookup sliceId, o.sliceConfigs.lookup sliceId with
      | some budget, some config =>
          let remaining := budget.remaining isDl
          if rbsNeeded ≤ remaining then (rbsNeeded, o)
          else if config.sla.strictIsolation then (remaining, o)
          else
            let others := (P.hashOrder o.currentBudgets.entries).map Sigma.fst
            let r := borrowLoop sliceId config (rbsNeeded - remaining) isDl others 0 o
            ((remaining + r.1) % 2 ^ 16, r.2)
      | _, _ => (0, o)

def returnResources (o : SliceOrchestrator D) (sliceId : SliceId) (rbsUnused : ℕ)
    (isDl : Bool) : Exec (SliceOrchestrator D) :=
  withLock .sliceOrchestrator do
    if sliceId ∈ o.currentBudgets then
      let pooled :=
        if isDl then { o with sharedPoolDl := (o.sharedPoolDl + rbsUnused) % 2 ^ 16 }
        else { o with sharedPoolUl := (o.sharedPoolUl + rbsUnused) % 2 ^ 16 }
      return { pooled with
        currentBudgets := o.currentBudgets.modify sliceId fun b ↦
          if 0 < b.borrowedRbs then
            b.addBorrowed (-min b.borrowedRbs (SliceResourceBudget.toInt16 rbsUnused))
          else b }
    else return o

/-! ## Scheduling support -/

def getPriorityBoost (o : SliceOrchestrator D) (rnti : Rnti) : Exec D :=
  withLock .sliceOrchestrator do
    return match (o.ueSliceMap.lookup rnti).bind fun id ↦ o.sliceConfigs.lookup id with
      | none => Double.ofNat 1
      | some config => Double.div (Double.ofNat 256) (Double.ofNat config.sla.slicePriority)

/-- The budget of the slice of a user, where it has one. -/
def ueBudget (o : SliceOrchestrator D) (rnti : Rnti) : Option SliceResourceBudget :=
  (o.ueSliceMap.lookup rnti).bind fun id ↦ o.currentBudgets.lookup id

/-- The gate behind `isSchedulingAllowed`: a user without a budget always passes. -/
def allows (o : SliceOrchestrator D) (rnti : Rnti) (rbs : ℕ) (isDl : Bool) : Bool :=
  match o.ueBudget rnti with
  | none => true
  | some budget => decide (rbs ≤ budget.remaining isDl)

def isSchedulingAllowed (o : SliceOrchestrator D) (rnti : Rnti) (rbs : ℕ) (isDl : Bool) :
    Exec Bool :=
  withLock .sliceOrchestrator do return o.allows rnti rbs isDl

def getSlicesByPriority (o : SliceOrchestrator D) (P : Platform) : Exec (List SliceId) :=
  withLock .sliceOrchestrator do
    let slices := (P.hashOrder o.sliceConfigs.entries).map fun e ↦ (e.1, e.2.sla.slicePriority)
    return (P.sort (fun a b ↦ decide (a.2 < b.2)) slices).map Prod.fst

/-! ## Monitoring -/

def getSliceState (o : SliceOrchestrator D) (sliceId : SliceId) : Exec (Option (SliceState D)) :=
  withLock .sliceOrchestrator do return o.sliceStates.lookup sliceId

def violates (o : SliceOrchestrator D) (e : Sigma fun _ : SliceId ↦ SliceState D) : Bool :=
  match o.sliceConfigs.lookup e.1 with
  | none => false
  | some config => Double.lt (Double.ofNat config.sla.maxLatencyMs) e.2.avgLatencyMs

def checkSlaCompliance (o : SliceOrchestrator D) (P : Platform) : Exec (List SliceId) :=
  withLock .sliceOrchestrator do
    return ((P.hashOrder o.sliceStates.entries).filter o.violates).map Sigma.fst

def SliceState.report (s : SliceState D) (isDl : Bool) (rbs bytes : ℕ) : SliceState D :=
  let w := s.currentWindow
  if isDl then
    { s with
      currentRbsDl := rbs
      currentWindow := { w with
        bytesDl := (w.bytesDl + bytes) % 2 ^ 64
        uesScheduledDl := (w.uesScheduledDl + 1) % 2 ^ 32 } }
  else
    { s with
      currentRbsUl := rbs
      currentWindow := { w with
        bytesUl := (w.bytesUl + bytes) % 2 ^ 64
        uesScheduledUl := (w.uesScheduledUl + 1) % 2 ^ 32 } }

def reportScheduling (o : SliceOrchestrator D) (rnti : Rnti) (rbs bytes : ℕ) (isDl : Bool) :
    Exec (SliceOrchestrator D) :=
  withLock .sliceOrchestrator do
    return match o.ueSliceMap.lookup rnti with
      | none => o
      | some sliceId =>
          { o with
            currentBudgets := o.currentBudgets.modify sliceId fun b ↦ b.addUsed isDl rbs
            sliceStates := o.sliceStates.modify sliceId fun s ↦
              SliceState.report s isDl rbs bytes }

structure Statistics (D : Type) where
  totalSlices : ℕ
  activeSlices : ℕ
  totalSlaViolations : ℕ
  avgResourceUtilization : D
  resourceBorrowingEvents : ℕ
  isolationEfficiency : D

/-- The statistics; `memory` is what the utilisation holds while there are no samples. -/
def getStatistics (o : SliceOrchestrator D) (P : Platform) (memory : D) : Exec (Statistics D) :=
  withLock .sliceOrchestrator do
    let budgets := P.hashOrder o.currentBudgets.entries
    let totalBorrowed : D := budgets.foldl
      (fun sum e ↦ Double.add sum (Double.ofNat e.2.borrowedRbs.natAbs)) (Double.ofNat 0)
    let totalUsed : D := budgets.foldl
      (fun sum e ↦ Double.add sum (Double.ofNat (e.2.usedRbsDl + e.2.usedRbsUl)))
      (Double.ofNat 0)
    return {
      totalSlices := o.sliceConfigs.entries.length
      activeSlices := o.sliceStates.entries.length
      totalSlaViolations := o.stats.totalSlaViolations
      avgResourceUtilization :=
        if 0 < o.stats.utilizationSamples then
          Double.div o.stats.totalUtilization (Double.ofNat o.stats.utilizationSamples)
        else memory
      resourceBorrowingEvents := o.stats.resourceBorrowingEvents
      isolationEfficiency :=
        if Double.lt (Double.ofNat 0) totalUsed then
          Double.sub (Double.ofNat 1) (Double.div totalBorrowed totalUsed)
        else Double.ofNat 1 }

/-! ## Slots -/

def onSlotStart (o : SliceOrchestrator D) (timing : FrameTiming) : Exec (SliceOrchestrator D) :=
  withLock .sliceOrchestrator do
    return { o with
      currentTiming := timing
      sliceStates := o.sliceStates.mapValues fun s ↦
        { s with currentRbsDl := 0, currentRbsUl := 0 } }

omit [Double D] in
/-- The start of a slot leaves the gate of `isSchedulingAllowed` as it was. -/
theorem onSlotStart_ok {o o' : SliceOrchestrator D} {timing : FrameTiming}
    (h : (o.onSlotStart timing).run none = .ok o') : o'.allows = o.allows := by
  cases h
  rfl

/-- The part of their budgets that the slices have used, averaged over the slices. -/
def slotUtilization (o : SliceOrchestrator D) (P : Platform) : D :=
  let sum := (P.hashOrder o.currentBudgets.entries).foldl
    (fun sum e ↦
      if 0 < e.2.availableRbsDl then
        Double.add sum
          (Double.div (Double.ofNat e.2.usedRbsDl) (Double.ofNat e.2.availableRbsDl))
      else sum)
    (Double.ofNat 0)
  if o.currentBudgets.entries = [] then sum
  else Double.div sum (Double.ofNat o.currentBudgets.entries.length)

def onSlotEnd (o : SliceOrchestrator D) (P : Platform) : Exec (SliceOrchestrator D) :=
  withLock .sliceOrchestrator do
    let utilization := o.slotUtilization P
    -- a public member function, which locks the same mutex again
    let violating ← o.checkSlaCompliance P
    return { o with
      stats := { o.stats with
        totalUtilization := Double.add o.stats.totalUtilization utilization
        utilizationSamples := o.stats.utilizationSamples + 1
        totalSlaViolations := o.stats.totalSlaViolations + violating.length } }

end SliceOrchestrator

end NrScheduler
