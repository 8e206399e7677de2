import NrScheduler.Services.QosEngine
import NrScheduler.Services.SliceOrchestrator

/-!
# The services as state machines

Every public operation of the QoS engine and of the slice orchestrator is a step from one
state to the next.  In a run the mutexes are no-ops.
-/

namespace NrScheduler

open LockMonad

variable {D : Type}

/-- The public operations of a slice orchestrator. -/
inductive SliceOrchestrator.Operation (D : Type) where
  | createSlice (config : SliceConfig D) (memory : SliceState D)
  | updateSlice (sliceId : SliceId) (config : SliceConfig D)
  | deleteSlice (sliceId : SliceId)
  | getSliceConfig (sliceId : SliceId)
  | getAllSlices
  | associateUe (rnti : Rnti) (sliceId : SliceId)
  | disassociateUe (rnti : Rnti)
  | getUeSlice (rnti : Rnti)
  | getSliceUes (sliceId : SliceId)
  | calculateBudgets (cell : CellContext)
  | getBudget (sliceId : SliceId)
  | requestResources (sliceId : SliceId) (rbsNeeded : ℕ) (isDl : Bool)
  | returnResources (sliceId : SliceId) (rbsUnused : ℕ) (isDl : Bool)
  | getPriorityBoost (rnti : Rnti)
  | isSchedulingAllowed (rnti : Rnti) (rbs : ℕ) (isDl : Bool)
  | getSlicesByPriority
  | getSliceState (sliceId : SliceId)
  | checkSlaCompliance
  | reportScheduling (rnti : Rnti) (rbs bytes : ℕ) (isDl : Bool)
  | getStatistics (memory : D)
  | onSlotStart (timing : FrameTiming)
  | onSlotEnd

/-- The public operations of a QoS engine that take its mutex. -/
inductive QosEngine.Operation (D : Type) where
  | registerFlow (rnti : Rnti) (params : QosFlowParams)
  | removeFlow (rnti : Rnti) (qfi : ℕ)
  | removeUeFlows (rnti : Rnti)
  | calculatePriority (rnti : Rnti) (qfi : ℕ) (isDl : Bool) (bufferBytes : ℕ)
  | getAllowedBytes (rnti : Rnti) (qfi : ℕ) (isDl : Bool)
  | reportTransmission (rnti : Rnti) (qfi : ℕ) (isDl : Bool) (bytes : ℕ)
  | notifyDataArrival (rnti : Rnti) (qfi : ℕ) (isDl : Bool)
  | notifyDataTransmitted (rnti : Rnti) (qfi : ℕ) (isDl : Bool)
  | getDelayCriticalFlows
  | getCurrentRate (rnti : Rnti) (qfi : ℕ) (isDl : Bool)
  | getGbrDeficit (rnti : Rnti) (qfi : ℕ) (isDl : Bool)
  | getGbrDeficitFlows
  | getStatistics (memory : D)
  | resetStatistics
  | updateConfig (config : QosEngineConfig D)
  | onSlotTick

variable [Double D]

/-- The state of the orchestrator after an operation; queries leave it as it is. -/
def SliceOrchestrator.perform (o : SliceOrchestrator D) (P : Platform) :
    Operation D → Exec (SliceOrchestrator D)
  | .createSlice config memory => do return (← o.createSlice config memory).2
  | .updateSlice sliceId config => do return (← o.updateSlice sliceId config).2
  | .deleteSlice sliceId => do return (← o.deleteSlice sliceId).2
  | .getSliceConfig sliceId => do let _ ← o.getSliceConfig sliceId; return o
  | .getAllSlices => do let _ ← o.getAllSlices P; return o
  | .associateUe rnti sliceId => do return (← o.associateUe rnti sliceId).2
  | .disassociateUe rnti => o.disassociateUe rnti
  | .getUeSlice rnti => do let _ ← o.getUeSlice rnti; return o
  | .getSliceUes sliceId => do let _ ← o.getSliceUes P sliceId; return o
  | .calculateBudgets cell => do return (← o.calculateBudgets P cell).2
  | .getBudget sliceId => do let _ ← o.getBudget sliceId; return o
  | .requestResources sliceId rbsNeeded isDl => do
      return (← o.requestResources P sliceId rbsNeeded isDl).2
  | .returnResources sliceId rbsUnused isDl => o.returnResources sliceId rbsUnused isDl
  | .getPriorityBoost rnti => do let _ ← o.getPriorityBoost rnti; return o
  | .isSchedulingAllowed rnti rbs isDl => do
      let _ ← o.isSchedulingAllowed rnti rbs isDl
      return o
  | .getSlicesByPriority => do let _ ← o.getSlicesByPriority P; return o
  | .getSliceState sliceId => do let _ ← o.getSliceState sliceId; return o
  | .checkSlaCompliance => do let _ ← o.checkSlaCompliance P; return o
  | .reportScheduling rnti rbs bytes isDl => o.reportScheduling rnti rbs bytes isDl
  | .getStatistics memory => do let _ ← o.getStatistics P memory; return o
  | .onSlotStart timing => o.onSlotStart timing
  | .onSlotEnd => o.onSlotEnd P

def QosEngine.perform (e : QosEngine D) (P : Platform) : Operation D → Exec (QosEngine D)
  | .registerFlow rnti params => e.registerFlow P rnti params
  | .removeFlow rnti qfi => e.removeFlow rnti qfi
  | .removeUeFlows rnti => e.removeUeFlows rnti
  | .calculatePriority rnti qfi isDl bufferBytes => do
      return (← e.calculatePriority P rnti qfi isDl bufferBytes).2
  | .getAllowedBytes rnti qfi isDl => do return (← e.getAllowedBytes P rnti qfi isDl).2
  | .reportTransmission rnti qfi isDl bytes => e.reportTransmission P rnti qfi isDl bytes
  | .notifyDataArrival rnti qfi isDl => e.notifyDataArrival P rnti qfi isDl
  | .notifyDataTransmitted rnti qfi isDl => e.notifyDataTransmitted P rnti qfi isDl
  | .getDelayCriticalFlows => do let _ ← e.getDelayCriticalFlows P; return e
  | .getCurrentRate rnti qfi isDl => do let _ ← e.getCurrentRate rnti qfi isDl; return e
  | .getGbrDeficit rnti qfi isDl => do let _ ← e.getGbrDeficit rnti qfi isDl; return e
  | .getGbrDeficitFlows => do let _ ← e.getGbrDeficitFlows P; return e
  | .getStatistics memory => do let _ ← e.getStatistics memory; return e
  | .resetStatistics => e.resetStatistics
  | .updateConfig config => e.updateConfig config
  | .onSlotTick => e.onSlotTick P

/-! ## Runs -/

def SliceOrchestrator.next (o : SliceOrchestrator D) (i : Platform × Operation D) :
    Option (SliceOrchestrator D) :=
  ignoringLocks (o.perform i.1 i.2)

def QosEngine.next (e : QosEngine D) (i : Platform × Operation D) : Option (QosEngine D) :=
  ignoringLocks (e.perform i.1 i.2)

end NrScheduler
