import NrScheduler.Engine.ScheduleSpec

/-!
# The allocation loop on any occupancy

The loop serves one decision after the other with what it needs of the grid, or with the
widest run that is left.  It goes on after a failure, but a decision only fails where no block is
free, and then all decisions after it fail too.
-/

namespace NrScheduler

open LockMonad DefaultResourceAllocator

namespace CellContext

/-- The grids have the size of the carrier. -/
def GridsMatch (cell : CellContext) : Prop :=
  ∀ isDl, (cell.currentSlot.grid isDl).numRbs = cell.config.numRbs

theorem gridsMatch_advanceToSlot {before cell : CellContext} {t : FrameTiming}
    (h : (before.advanceToSlot t).run none = .ok cell) : cell.GridsMatch := by
  obtain ⟨slot, hslot, heq⟩ := run_bind_eq_ok.mp h
  obtain rfl := run_pure_eq_ok.mp heq
  intro isDl
  exact congrArg ResourceGrid.numRbs ((SlotContext.initializeSlot_ok hslot).2 isDl)

end CellContext

/-! ## Servings -/

/-- A decision that is served, and the grid it finds. -/
structure Serving (D : Type) where
  decision : SchedulingDecision D
  grid : ResourceGrid

namespace Serving

variable {D : Type} (P : Platform) (cell : CellContext) (t : Serving D)

/-- The blocks that the decision gets. -/
def width : ℕ := min (SchedulerEngine.demand P cell t.decision) (widest t.grid)

def start : ℕ := (t.grid.firstFit startSymbol numSymbols (t.width P cell)).getD 0

def gridAfter : ResourceGrid := t.grid.fill (resource (t.start P cell) (t.width P cell))

/-- The decision with the blocks it got. -/
def granted : SchedulingDecision D :=
  SchedulerEngine.grantOf P cell ⟨t.decision, t.start P cell, t.width P cell⟩

@[simp] theorem rnti_granted : (t.granted P cell).rnti = t.decision.rnti :=
  SchedulerEngine.rnti_grantOf P cell _

theorem granted_eq {ue : UeContext} (hue : cell.ueRepo.ue? t.decision.rnti = some ue) :
    t.granted P cell = record P t.decision ue cell ⟨t.start P cell, t.width P cell⟩ := by
  simp only [granted, SchedulerEngine.grantOf, hue]

/-- What is served depends on the users of the cell and its configuration alone. -/
@[simp] theorem granted_setGrid (isDl : Bool) (g : ResourceGrid) :
    granted P (cell.setGrid isDl g) = (granted P cell : Serving D → SchedulingDecision D) := rfl

@[simp] theorem gridAfter_setGrid (isDl : Bool) (g : ResourceGrid) :
    gridAfter P (cell.setGrid isDl g) = (gridAfter P cell : Serving D → ResourceGrid) := rfl

end Serving

namespace SchedulerEngine

variable {π D : Type} {P : Platform} {cell : CellContext} {limit : ℕ} {g : ResourceGrid}
  {ranked : List (SchedulingDecision D)}

/-- The decisions are served as long as there are free blocks and the limit is not reached. -/
def servings (P : Platform) (cell : CellContext) : (limit : ℕ) → ResourceGrid →
    List (SchedulingDecision D) → List (Serving D)
  | 0, _, _ => []
  | _ + 1, _, [] => []
  | limit + 1, g, d :: ranked =>
      if widest g = 0 then []
      else ⟨d, g⟩ :: servings P cell limit (Serving.gridAfter P cell ⟨d, g⟩) ranked

/-- The grid after a sequence of servings. -/
def gridAfter (P : Platform) (cell : CellContext) (g : ResourceGrid) (ts : List (Serving D)) :
    ResourceGrid :=
  ts.foldl (fun _ t ↦ t.gridAfter P cell) g

@[simp] theorem servings_setGrid (isDl : Bool) (g' : ResourceGrid) :
    servings P (cell.setGrid isDl g') limit g ranked = servings P cell limit g ranked := by
  fun_induction servings P cell limit g ranked with
  | case1 => rfl
  | case2 => rfl
  | case3 limit g d ranked hfull => rw [servings, if_pos hfull]
  | case4 limit g d ranked hfree ih =>
      rw [servings, if_neg hfree, Serving.gridAfter_setGrid, ih]

/-- No decision is passed over. -/
theorem servings_prefix : (servings P cell limit g ranked).map Serving.decision <+: ranked := by
  fun_induction servings P cell limit g ranked with
  | case1 => exact List.nil_prefix
  | case2 => exact List.nil_prefix
  | case3 => exact List.nil_prefix
  | case4 limit g d ranked hfree ih =>
      rw [List.map_cons]
      exact (List.prefix_cons_inj d).mpr ih

/-- The servings end with the decisions, at the limit, or where no block is free. -/
theorem servings_end : (servings P cell limit g ranked).length = ranked.length ∨
    (servings P cell limit g ranked).length = limit ∨
      widest (gridAfter P cell g (servings P cell limit g ranked)) = 0 := by
  fun_induction servings P cell limit g ranked with
  | case1 => exact Or.inr (Or.inl rfl)
  | case2 => exact Or.inl rfl
  | case3 limit g d ranked hfull => exact Or.inr (Or.inr hfull)
  | case4 limit g d ranked hfree ih =>
      rw [List.length_cons, List.length_cons, gridAfter, List.foldl_cons]
      exact ih.imp (congrArg (· + 1)) (Or.imp_left (congrArg (· + 1)))

@[simp] theorem numRbs_gridAfter :
    (gridAfter P cell g (servings P cell limit g ranked)).numRbs = g.numRbs := by
  fun_induction servings P cell limit g ranked with
  | case1 => rfl
  | case2 => rfl
  | case3 => rfl
  | case4 limit g d ranked hfree ih =>
      rw [gridAfter, List.foldl_cons]
      exact ih.trans (ResourceGrid.numRbs_fill _ _)

/-! ## The loop takes the servings -/

section Loop

variable {isDl : Bool} {d : SchedulingDecision D}

theorem demand_pos {ue : UeContext} (hue : cell.ueRepo.ue? d.rnti = some ue) :
    0 < demand P cell d := by
  simp only [demand, hue]
  exact one_le_requiredRbs P d.bufferBytes ue cell

theorem allocate_full {ue : UeContext} (hue : cell.ueRepo.ue? d.rnti = some ue)
    (hn : cell.config.numRbs ≤ 273)
    (hnum : (cell.currentSlot.grid isDl).numRbs = cell.config.numRbs)
    (hfull : widest (cell.currentSlot.grid isDl) = 0) :
    (allocateResources P d cell isDl).run none = .ok none := by
  rw [allocateResources, allocate_run hue hn rfl hnum rfl, hfull, Nat.min_zero, if_pos rfl]

theorem allocate_serving {t : Serving D} {ue : UeContext}
    (hue : cell.ueRepo.ue? t.decision.rnti = some ue) (hn : cell.config.numRbs ≤ 273)
    (hgrid : cell.currentSlot.grid isDl = t.grid) (hnum : t.grid.numRbs = cell.config.numRbs)
    (hfree : widest t.grid ≠ 0) :
    (allocateResources P t.decision cell isDl).run none =
      .ok (some (t.granted P cell, cell.setGrid isDl (t.gridAfter P cell))) := by
  have hdemand := demand_pos (P := P) hue
  have hpos : 0 < t.width P cell := by
    rw [Serving.width]
    omega
  have hwidth : t.width P cell =
      min (requiredRbs P t.decision.bufferBytes ue cell) (widest t.grid) := by
    simp only [Serving.width, demand, hue]
  obtain ⟨start, hstart⟩ := exists_firstFit hpos (min_le_right _ _)
  have hfirst : t.start P cell = start := by
    rw [Serving.start, hstart, Option.getD_some]
  rw [allocateResources, allocate_run hue hn hgrid hnum hwidth, if_neg hpos.ne', hstart,
    Option.map_some, Serving.gridAfter, t.granted_eq P cell hue, hfirst]

variable [IPolicyManager π D]

/-- Where no block is free, the loop only counts its failures. -/
theorem allocateLoop_full (successful : List (SchedulingDecision D)) (cell : CellContext)
    (e : SchedulerEngine π D) (hranked : ∀ d ∈ ranked, ∃ ue, cell.ueRepo.ue? d.rnti = some ue)
    (hn : cell.config.numRbs ≤ 273)
    (hnum : (cell.currentSlot.grid isDl).numRbs = cell.config.numRbs)
    (hfull : widest (cell.currentSlot.grid isDl) = 0) :
    ∃ failures, (allocateLoop P isDl ranked successful cell e).run none =
      .ok (successful, cell, { e with
        stats := { e.stats with allocationFailures := failures } }) := by
  induction ranked generalizing e with
  | nil => exact ⟨e.stats.allocationFailures, rfl⟩
  | cons d ranked ih =>
      obtain ⟨ue, hue⟩ := hranked d List.mem_cons_self
      by_cases hlimit : e.config.limit isDl ≤ successful.length
      · exact ⟨e.stats.allocationFailures, allocateLoop_stop hlimit⟩
      · rw [allocateLoop_refused hlimit (allocate_full hue hn hnum hfull)]
        exact ih _ fun d' hd' ↦ hranked d' (List.mem_cons_of_mem d hd')

/-- The loop grants the servings, on any occupancy. -/
theorem allocateLoop_servings (successful : List (SchedulingDecision D)) (cell : CellContext)
    (e : SchedulerEngine π D) (hranked : ∀ d ∈ ranked, ∃ ue, cell.ueRepo.ue? d.rnti = some ue)
    (hn : cell.config.numRbs ≤ 273)
    (hgrid : cell.currentSlot.grid isDl = g) (hnum : g.numRbs = cell.config.numRbs)
    (hlimit : limit = e.config.limit isDl - successful.length) :
    ∃ policy failures, (allocateLoop P isDl ranked successful cell e).run none =
      .ok (successful ++ (servings P cell limit g ranked).map (Serving.granted P cell),
        cell.setGrid isDl (gridAfter P cell g (servings P cell limit g ranked)),
        { e with
          policyManager := policy
          stats := { e.stats with allocationFailures := failures } }) := by
  induction ranked generalizing successful cell e g limit with
  | nil =>
      refine ⟨e.policyManager, e.stats.allocationFailures, ?_⟩
      have hnone : servings P cell limit g ([] : List (SchedulingDecision D)) = [] := by
        cases limit <;> rfl
      rw [hnone, List.map_nil, List.append_nil, gridAfter, List.foldl_nil, ← hgrid,
        CellContext.setGrid_grid]
      rfl
  | cons d ranked ih =>
      obtain ⟨⟨ue, hue⟩, hrest⟩ := List.forall_mem_cons.mp hranked
      cases limit with
      | zero =>
          refine ⟨e.policyManager, e.stats.allocationFailures, ?_⟩
          rw [allocateLoop_stop (by omega), servings, List.map_nil, List.append_nil, gridAfter,
            List.foldl_nil, ← hgrid, CellContext.setGrid_grid]
      | succ limit =>
          by_cases hfull : widest g = 0
          · obtain ⟨failures, hrun⟩ := allocateLoop_full (P := P) successful cell e hranked hn
              (hgrid ▸ hnum) (hgrid ▸ hfull)
            refine ⟨e.policyManager, failures, ?_⟩
            rw [hrun, servings, if_pos hfull, List.map_nil, List.append_nil, gridAfter,
              List.foldl_nil, ← hgrid, CellContext.setGrid_grid]
          · -- the granted decision and the grid are kept as variables
            obtain ⟨d', hd'⟩ : ∃ d', d' = Serving.granted P cell ⟨d, g⟩ := ⟨_, rfl⟩
            obtain ⟨g', hg'⟩ : ∃ g', g' = Serving.gridAfter P cell ⟨d, g⟩ := ⟨_, rfl⟩
            have halloc : (allocateResources P d cell isDl).run none =
                .ok (some (d', cell.setGrid isDl g')) := by
              rw [hd', hg']
              exact allocate_serving (t := ⟨d, g⟩) hue hn hgrid hnum hfull
            have hnum' : g'.numRbs = cell.config.numRbs := by
              rw [hg', Serving.gridAfter, ResourceGrid.numRbs_fill]
              exact hnum
            have hleft : limit = e.config.limit isDl - (successful ++ [d']).length := by
              rw [List.length_append, List.length_singleton]
              omega
            obtain ⟨policy, failures, hrun⟩ := ih (successful ++ [d']) (cell.setGrid isDl g')
              { e with policyManager := reportGrant P cell e.policyManager d' }
              hrest hn (cell.grid_setGrid_self isDl g') hnum' hleft
            refine ⟨policy, failures, ?_⟩
            rw [allocateLoop_granted (by omega) halloc rfl, hrun, servings, if_neg hfull, ← hg']
            simp only [List.append_assoc, List.singleton_append, List.map_cons, gridAfter,
              List.foldl_cons, CellContext.setGrid_setGrid, servings_setGrid,
              Serving.granted_setGrid, Serving.gridAfter_setGrid, ← hd', ← hg']

end Loop

/-! ## The whole direction -/

section Direction

variable {isDl : Bool} [Double D] [IPolicyManager π D] {e e₁ : SchedulerEngine π D}

/-- The servings of a direction, from the candidates with their ranks. -/
def directionServings (e : SchedulerEngine π D) (P : Platform) (cell : CellContext) (isDl : Bool)
    (ranked : List (SchedulingDecision D)) : List (Serving D) :=
  servings P cell (e.config.limit isDl) (cell.currentSlot.grid isDl) (sortByPriority P ranked)

theorem isRanking_of_calculatePriorities
    (hranked : (calculatePriorities P cell isDl (e.candidates P cell isDl) e).run none =
      .ok (ranked, e₁)) : e.IsRanking P cell isDl (sortByPriority P ranked) := by
  obtain ⟨ds, policy, qos, hrun, hunranked⟩ :=
    calculatePriorities_run P cell isDl (e.candidates P cell isDl) e
  obtain ⟨rfl, rfl⟩ := Prod.mk.inj (Except.ok.inj (hranked.symm.trans hrun))
  exact isRanking_sortByPriority hunranked

/-- Scheduling a direction grants its servings and sends nothing yet. -/
theorem scheduleFor_run (hn : cell.config.numRbs ≤ 273) (hgrids : cell.GridsMatch)
    (hranked : (calculatePriorities P cell isDl (e.candidates P cell isDl) e).run none =
      .ok (ranked, e₁)) :
    ∃ e', (e.scheduleFor P cell isDl).run none =
        .ok ((e.directionServings P cell isDl ranked).map (Serving.granted P cell),
          cell.setGrid isDl (gridAfter P cell (cell.currentSlot.grid isDl)
            (e.directionServings P cell isDl ranked)), e') ∧
      e'.config = e.config ∧ e'.sent = e.sent := by
  have hranking := isRanking_of_calculatePriorities hranked
  obtain ⟨ds, policy, qos, hrun, _⟩ :=
    calculatePriorities_run P cell isDl (e.candidates P cell isDl) e
  obtain ⟨_, rfl⟩ := Prod.mk.inj (Except.ok.inj (hranked.symm.trans hrun))
  obtain ⟨policy', failures, hloop⟩ := allocateLoop_servings [] cell
    { e with policyManager := policy, qosEngine := qos } hranking.known hn rfl (hgrids isDl) rfl
  have hschedule : e.scheduleFor P cell isDl = e.schedule P cell isDl := by
    cases isDl <;> rfl
  rw [hschedule, schedule_run, run_bind_of_ok hranked]
  exact ⟨_, hloop, rfl, rfl⟩

end Direction

end SchedulerEngine

end NrScheduler
