import NrScheduler.Engine.Load
import NrScheduler.Engine.ServingSpec

/-!
# What is asked for

The users of a cell that are ready ask for transmissions, whoever is served first.  What they ask
for follows from the load.
-/

namespace NrScheduler

open LockMonad SchedulerEngine

/-- A cell with the load and nothing scheduled. -/
def CellLoad.toCell (cell : CellLoad) : CellContext :=
  { CellContext.create cell.config .cleared with ueRepo := cell.ueRepo }

/-- What a candidate asks for. -/
def SchedulerEngine.askOf {D : Type} (P : Platform) (cell : CellContext)
    (d : SchedulingDecision D) : Option TtiPdu :=
  pduOfPiece P cell ⟨d, 0, demand P cell d⟩

section Asks

variable (D : Type) [Double D]

def CellLoad.candidates (cell : CellLoad) (config : SchedulerConfig) (P : Platform)
    (isDl : Bool) : List (SchedulingDecision D) :=
  ((cell.ueRepo.users P).filter fun ue ↦ ue.isReady isDl).filterMap (candidate config P isDl)

/-- The transmissions that the users of a cell ask for, each with all its blocks. -/
def CellLoad.asks (cell : CellLoad) (config : SchedulerConfig) (P : Platform) (isDl : Bool) :
    List TtiPdu :=
  (cell.candidates D config P isDl).filterMap (askOf P cell.toCell)

namespace Load

def asks (l : Load) (P : Platform) (cell : CellLoad) (isDl : Bool) : List TtiPdu :=
  cell.asks D l.config P isDl

/-- The request for all that is asked for in a direction. -/
def requestsOf (l : Load) (P : Platform) (cell : CellLoad) (t : FrameTiming) (isDl : Bool) :
    List TtiRequest :=
  if (cell.begin t).canSchedule isDl = true ∧ l.asks D P cell isDl ≠ [] then
    [⟨isDl, target l.config isDl t, cell.config.cellId, l.asks D P cell isDl⟩]
  else []

def requests (l : Load) (P : Platform) (cellId : CellId) (t : FrameTiming) : List TtiRequest :=
  match l.cells cellId with
  | none => []
  | some cell => l.requestsOf D P cell t true ++ l.requestsOf D P cell t false

/-- The open directions have room for all that is asked for. -/
def Fits (l : Load) (P : Platform) (cellId : CellId) (t : FrameTiming) : Prop :=
  ∀ cell ∈ l.cells cellId, ∀ isDl, (cell.begin t).canSchedule isDl = true →
    ((l.asks D P cell isDl).map fun pdu ↦ pdu.rbAllocation.numRbs).sum ≤ cell.config.numRbs ∧
      (l.asks D P cell isDl).length ≤ l.config.limit isDl

instance (l : Load) (P : Platform) (cellId : CellId) (t : FrameTiming) :
    Decidable (l.Fits D P cellId t) := by
  unfold Fits
  infer_instance

end Load

end Asks

namespace SchedulerEngine

variable {π D : Type} [Double D] {e : SchedulerEngine π D} {P : Platform} {cell : CellContext}
  {isDl : Bool}

theorem load_candidates (hun : e.Unsliced) :
    cell.load.candidates D e.config.unranked P isDl = e.candidates P cell isDl := by
  have hready : e.isEligible isDl = fun ue ↦ ue.isReady isDl := by
    funext ue
    exact hun.isEligible isDl ue
  rw [candidates, hready]
  rfl

theorem asks_eq (hun : e.Unsliced) : cell.load.asks D e.config.unranked P isDl =
    (e.candidates P cell isDl).filterMap (askOf P cell) := by
  rw [CellLoad.asks, load_candidates hun]
  rfl

theorem exists_askOf {d : SchedulingDecision D} (hd : d ∈ e.candidates P cell isDl) :
    ∃ pdu, askOf P cell d = some pdu ∧ pdu.rbAllocation.numRbs = demand P cell d := by
  obtain ⟨ue, hue, _⟩ := mem_candidates.mp hd
  have hask : askOf P cell d = some (pduOf
      (DefaultResourceAllocator.record P d ue cell ⟨0, demand P cell d⟩) ue) := by
    rw [askOf, pduOfPiece, hue, Option.map_some]
  exact ⟨_, hask, rfl⟩

/-- As many transmissions are asked for as there are candidates, each with its demand. -/
theorem map_numRbs_asks :
    (((e.candidates P cell isDl).filterMap (askOf P cell)).map
      fun pdu ↦ pdu.rbAllocation.numRbs) = (e.candidates P cell isDl).map (demand P cell) := by
  rw [List.map_filterMap, ← List.filterMap_eq_map]
  apply List.filterMap_congr
  intro d hd
  obtain ⟨pdu, hpdu, hrbs⟩ := exists_askOf hd
  rw [hpdu, Option.map_some, hrbs]
  rfl

/-- What is sent in a direction has the widths of the pieces. -/
theorem map_numRbs_grantedPdus {ranked : List (SchedulingDecision D)}
    (h : e.IsRanking P cell isDl ranked) :
    ((grantedPdus e.config P cell isDl ranked).map fun pdu ↦ pdu.rbAllocation.numRbs) =
      (Carve.carve (demand P cell) cell.config.numRbs (e.config.limit isDl) 0 ranked).map
        Carve.Piece.width := by
  rw [grantedPdus, List.map_filterMap, ← List.filterMap_eq_map]
  apply List.filterMap_congr
  intro p hp
  obtain ⟨ue, hue⟩ := h.known p.item (Carve.items_sublist.subset (List.mem_map_of_mem hp))
  rw [pduOfPiece, hue]
  rfl

end SchedulerEngine

end NrScheduler
