import NrScheduler.Engine.RunSpec

/-!
# Isolation of slices in a slot

The blocks granted to the users of a slice in one slot should not exceed what is left of
its budget.  The gate only asks for one block per user and grants are not reported, so this
holds for every policy exactly where the demand of the slice cannot exceed its budget.
-/

namespace NrScheduler

open LockMonad

/-- The cell at the start of its slot, as far as a direction is concerned. -/
def CellContext.fresh (cell : CellContext) (isDl : Bool) : CellContext :=
  cell.setGrid isDl (.create cell.config.numRbs cell.config.symbolsPerSlot)

variable {D : Type}

def SliceOrchestrator.inSlice (o : SliceOrchestrator D) (slice : SliceId) (rnti : Rnti) : Bool :=
  o.ueSliceMap.lookup rnti == some slice

/-- The blocks that the decisions grant to the users of a slice. -/
def SliceOrchestrator.granted (o : SliceOrchestrator D) (slice : SliceId)
    (ds : List (SchedulingDecision D)) : ℕ :=
  ((ds.filter fun d ↦ o.inSlice slice d.rnti).map fun d ↦ d.resources.rbRange.numRbs).sum

/-- No slice with a budget is granted more than what is left of it. -/
def SliceOrchestrator.WithinBudgets (o : SliceOrchestrator D) (isDl : Bool)
    (ds : List (SchedulingDecision D)) : Prop :=
  ∀ slice, ∀ budget ∈ o.currentBudgets.lookup slice,
    o.granted slice ds ≤ budget.remaining isDl

namespace SchedulerEngine

variable {π₀ π : Type}

/-- The engine differs at most in its policy, in its limits and in its components other
than the slices. -/
structure Alternative (e₀ : SchedulerEngine π₀ D) (e : SchedulerEngine π D) : Prop where
  config : ∃ pdsch pusch, e.config =
    { e₀.config with maxPdschPerTti := pdsch, maxPuschPerTti := pusch }
  sliceOrchestrator : e.sliceOrchestrator = e₀.sliceOrchestrator

section Definitions

variable [Double D]

/-- Whatever the policy, the limits and the order of equal ranks, the grants of a slot stay
within the budgets. -/
def SliceIsolated (e₀ : SchedulerEngine π₀ D) (P : Platform) (cell : CellContext)
    (isDl : Bool) : Prop :=
  ∀ (π : Type) [IPolicyManager π D] (e : SchedulerEngine π D) (s : Sorting)
    (r : List (SchedulingDecision D) × CellContext × SchedulerEngine π D),
    e₀.Alternative e →
    (e.scheduleFor (P.withSorting s) (cell.fresh isDl) isDl).run none = .ok r →
    e₀.sliceOrchestrator.WithinBudgets isDl r.1

def sliceDemand (e : SchedulerEngine π D) (P : Platform) (cell : CellContext) (isDl : Bool)
    (slice : SliceId) : ℕ :=
  Carve.demandOf (demand P cell) (fun d ↦ e.sliceOrchestrator.inSlice slice d.rnti)
    (e.candidates P cell isDl)

/-- The demand of each slice, as far as the cell can serve it, is left in its budget. -/
def DemandWithinBudgets (e : SchedulerEngine π D) (P : Platform) (cell : CellContext)
    (isDl : Bool) : Prop :=
  ∀ slice, ∀ budget ∈ e.sliceOrchestrator.currentBudgets.lookup slice,
    min cell.config.numRbs (e.sliceDemand P cell isDl slice) ≤ budget.remaining isDl

theorem Alternative.candidates {e₀ : SchedulerEngine π₀ D} {e : SchedulerEngine π D}
    (h : e₀.Alternative e) (P : Platform) (cell : CellContext) (isDl : Bool) :
    e.candidates P cell isDl = e₀.candidates P cell isDl := by
  obtain ⟨pdsch, pusch, hconfig⟩ := h.config
  have heligible : e.isEligible isDl = e₀.isEligible isDl := by
    funext ue
    rw [isEligible, isEligible, hconfig, h.sliceOrchestrator]
  rw [SchedulerEngine.candidates, SchedulerEngine.candidates, heligible, hconfig]
  rfl

/-! ## Grants as pieces of the line -/

omit [Double D] in
theorem granted_grants (o : SliceOrchestrator D) (slice : SliceId) {P : Platform}
    {cell : CellContext} {ranked : List (SchedulingDecision D)}
    (hranked : ∀ d ∈ ranked, ∃ ue, cell.ueRepo.ue? d.rnti = some ue) (limit : ℕ) :
    o.granted slice (grants P cell limit 0 ranked) =
      Carve.total (fun d ↦ o.inSlice slice d.rnti)
        (Carve.carve (demand P cell) cell.config.numRbs limit 0 ranked) := by
  have hfilter : (fun d ↦ o.inSlice slice d.rnti) ∘ grantOf P cell =
      fun p : Carve.Piece (SchedulingDecision D) ↦ o.inSlice slice p.item.rnti := by
    funext p
    rw [Function.comp_apply, rnti_grantOf]
  rw [SliceOrchestrator.granted, grants, List.filter_map, hfilter, List.map_map, Carve.total]
  congr 1
  apply List.map_congr_left
  intro p hp
  have hitem : p.item ∈ ranked :=
    Carve.items_sublist.subset (List.mem_map_of_mem (List.mem_filter.mp hp).1)
  obtain ⟨ue, hue⟩ := hranked p.item hitem
  rw [Function.comp_apply, grantOf, hue]
  rfl

theorem IsRanking.sliceDemand {e : SchedulerEngine π D} {P : Platform} {cell : CellContext}
    {isDl : Bool} {ranked : List (SchedulingDecision D)} (h : e.IsRanking P cell isDl ranked)
    (slice : SliceId) :
    Carve.demandOf (demand P cell) (fun d ↦ e.sliceOrchestrator.inSlice slice d.rnti) ranked =
      e.sliceDemand P cell isDl slice := by
  have hperm := (((List.Perm.filter (fun d ↦ e.sliceOrchestrator.inSlice slice d.rnti) h).map
    (demand P cell))).sum_eq
  rw [List.filter_map, List.map_map] at hperm
  exact hperm

theorem freeFrom_fresh (cell : CellContext) (isDl : Bool) :
    ((cell.fresh isDl).currentSlot.grid isDl).numRbs = (cell.fresh isDl).config.numRbs ∧
      DefaultResourceAllocator.FreeFrom ((cell.fresh isDl).currentSlot.grid isDl) 0 := by
  rw [CellContext.fresh, CellContext.grid_setGrid_self]
  exact ⟨rfl, DefaultResourceAllocator.freeFrom_create _ _⟩

omit [Double D] in
theorem demand_withSorting (P : Platform) (s : Sorting) (cell : CellContext) :
    (demand (P.withSorting s) cell : SchedulingDecision D → ℕ) = demand P cell := by
  funext d
  simp only [demand, DefaultResourceAllocator.requiredRbs, Platform.minRbsForTbs_withSorting]

theorem sliceIsolated_of_demand {e₀ : SchedulerEngine π₀ D} {P : Platform} {cell : CellContext}
    {isDl : Bool} (h : e₀.DemandWithinBudgets P cell isDl) : e₀.SliceIsolated P cell isDl := by
  rintro π _ e s ⟨ds, cell', e'⟩ halternative hrun slice budget hbudget
  have hschedule : e.scheduleFor (P.withSorting s) (cell.fresh isDl) isDl =
      e.schedule (P.withSorting s) (cell.fresh isDl) isDl := by
    cases isDl <;> rfl
  rw [hschedule] at hrun
  obtain ⟨hnum, hfree⟩ := freeFrom_fresh cell isDl
  obtain ⟨ranked, g, policy, qos, failures, hranking, rfl, _⟩ := schedule_ok hnum hfree hrun
  have hdemand : e.sliceDemand (P.withSorting s) (cell.fresh isDl) isDl slice =
      e₀.sliceDemand P cell isDl slice := by
    rw [sliceDemand, sliceDemand, halternative.sliceOrchestrator, halternative.candidates,
      demand_withSorting]
    rfl
  rw [granted_grants _ _ hranking.known]
  have htotal := @Carve.total_le _ (demand (P.withSorting s) (cell.fresh isDl))
    cell.config.numRbs (e.config.limit isDl) 0 ranked
    (fun d ↦ e₀.sliceOrchestrator.inSlice slice d.rnti)
  rw [← halternative.sliceOrchestrator, hranking.sliceDemand, hdemand] at htotal
  rw [← halternative.sliceOrchestrator]
  exact htotal.trans (h slice budget hbudget)

end Definitions

/-! ## A policy that ranks all users equal -/

/-- The policy whose every rank is zero. -/
structure ZeroPolicy where

instance [Double D] : IPolicyManager ZeroPolicy D where
  calculatePriority _ policy _ _ _ := (Double.ofNat 0, policy)
  updateHistory _ policy _ _ := policy
  onSlotStart policy _ := policy
  createPolicyManager _ := ⟨⟩

section ZeroPolicy

variable [NullDouble D]

/-- Neither QoS nor a boost moves a decision away from rank zero. -/
theorem calculatePriority_null {e e' : SchedulerEngine ZeroPolicy D} {P : Platform}
    {cell : CellContext} {isDl : Bool} {d d' : SchedulingDecision D}
    (h : (e.calculatePriority P cell isDl d).run none = .ok (d', e')) :
    NullDouble.IsNull d'.priorityMetric := by
  have hretx : ∀ d : SchedulingDecision D, NullDouble.IsNull d.priorityMetric →
      NullDouble.IsNull (boostRetx d).priorityMetric := by
    intro d hd
    rw [boostRetx]
    split
    · exact NullDouble.isNull_mul _ _ hd
    · exact hd
  rw [calculatePriority, run_bind_of_ok (cell.ueRepo.findByRnti_run d.rnti)] at h
  cases hue : cell.ueRepo.ue? d.rnti with
  | none =>
      rw [hue] at h
      cases h
      exact NullDouble.isNull_zero
  | some ue =>
      rw [hue] at h
      obtain ⟨⟨d₁, e₁⟩, hqos, h⟩ := run_bind_eq_ok.mp h
      obtain ⟨d₂, hslice, h⟩ := run_bind_eq_ok.mp h
      cases h
      have hd₁ : NullDouble.IsNull d₁.priorityMetric := by
        rw [rankByQos] at hqos
        split at hqos
        · cases hqos
          exact NullDouble.isNull_mul _ _ NullDouble.isNull_zero
        · cases hqos
          exact NullDouble.isNull_zero
      rw [boostSlice] at hslice
      split at hslice
      · cases hslice
        exact NullDouble.isNull_mul _ _ (hretx d₁ hd₁)
      · cases hslice
        exact hretx d₁ hd₁

theorem calculatePriorities_null {P : Platform} {cell : CellContext} {isDl : Bool}
    {ds ds' : List (SchedulingDecision D)} {e e' : SchedulerEngine ZeroPolicy D}
    (h : (calculatePriorities P cell isDl ds e).run none = .ok (ds', e')) :
    ∀ d ∈ ds', NullDouble.IsNull d.priorityMetric := by
  induction ds generalizing e ds' with
  | nil =>
      cases h
      intro d hd
      cases hd
  | cons d ds ih =>
      rw [calculatePriorities] at h
      obtain ⟨⟨d₁, e₁⟩, hone, h⟩ := run_bind_eq_ok.mp h
      obtain ⟨⟨rest, e₂⟩, hrest, h⟩ := run_bind_eq_ok.mp h
      cases h
      intro d' hd'
      rcases List.mem_cons.mp hd' with rfl | hd'
      · exact calculatePriority_null hone
      · exact ih hrest d' hd'

theorem calculatePriorities_withSorting (P : Platform) (s : Sorting) (cell : CellContext)
    (isDl : Bool) (ds : List (SchedulingDecision D)) (e : SchedulerEngine ZeroPolicy D) :
    calculatePriorities (P.withSorting s) cell isDl ds e =
      calculatePriorities P cell isDl ds e := by
  have hone : ∀ (e : SchedulerEngine ZeroPolicy D) (d : SchedulingDecision D),
      e.calculatePriority (P.withSorting s) cell isDl d = e.calculatePriority P cell isDl d :=
    fun _ _ ↦ rfl
  induction ds generalizing e with
  | nil => rfl
  | cons d ds ih => simp only [calculatePriorities, hone, ih]

/-- With equal ranks a sort may serve one slice before all others, which then gets all that
it asks for and the cell has. -/
theorem exists_first_slice {e : SchedulerEngine ZeroPolicy D} {P : Platform}
    {cell : CellContext} {isDl : Bool} (hn : cell.config.numRbs ≤ 273)
    (hlimit : (e.candidates P cell isDl).length ≤ e.config.limit isDl) (slice : SliceId) :
    ∃ (s : Sorting) (ds : List (SchedulingDecision D)) (cell' : CellContext)
      (e' : SchedulerEngine ZeroPolicy D),
      (e.scheduleFor (P.withSorting s) (cell.fresh isDl) isDl).run none = .ok (ds, cell', e') ∧
        min cell.config.numRbs (e.sliceDemand P cell isDl slice) ≤
          e.sliceOrchestrator.granted slice ds := by
  obtain ⟨ranked, policy, qos, hrun, hmap⟩ :=
    calculatePriorities_run P (cell.fresh isDl) isDl (e.candidates P cell isDl) e
  have hranking : e.IsRanking P cell isDl ranked := by
    rw [IsRanking, hmap]
    exact isRanking_candidates
  let p : SchedulingDecision D → Bool := fun d ↦ e.sliceOrchestrator.inSlice slice d.rnti
  let first := ranked.filter p ++ ranked.filter fun d ↦ !p d
  let lt : SchedulingDecision D → SchedulingDecision D → Bool :=
    fun a b ↦ Double.lt b.priorityMetric a.priorityMetric
  have hperm : first.Perm ranked := List.filter_append_perm p ranked
  have hnull := calculatePriorities_null hrun
  have hequal : ∀ a ∈ ranked, ∀ b ∈ ranked, lt a b = false := fun a ha b hb ↦
    NullDouble.lt_eq_false _ _ (hnull b hb) (hnull a ha)
  obtain ⟨s, hsort⟩ := P.toSorting.exists_sort_eq hperm hequal
  have hsorted : sortByPriority (P.withSorting s) ranked = first := hsort
  have hknown : ∀ d ∈ first, ∃ ue, (cell.fresh isDl).ueRepo.ue? d.rnti = some ue :=
    fun d hd ↦ hranking.known d (hperm.mem_iff.mp hd)
  obtain ⟨hnum, hfree⟩ := freeFrom_fresh cell isDl
  obtain ⟨g, failures, hloop⟩ := @allocateLoop_run _ _ _ (P.withSorting s) isDl first
    [] (cell.fresh isDl) { e with policyManager := policy, qosEngine := qos } 0 hknown hn hnum
    hfree
  have hschedule : (e.scheduleFor (P.withSorting s) (cell.fresh isDl) isDl).run none =
      (allocateLoop (P.withSorting s) isDl first [] (cell.fresh isDl)
        { e with policyManager := policy, qosEngine := qos }).run none := by
    have hsame : e.scheduleFor (P.withSorting s) (cell.fresh isDl) isDl =
        e.schedule (P.withSorting s) (cell.fresh isDl) isDl := by
      cases isDl <;> rfl
    rw [hsame, schedule_run, calculatePriorities_withSorting]
    refine (run_bind_of_ok hrun).trans ?_
    rw [hsorted]
  refine ⟨s, _, _, _, hschedule.trans hloop, ?_⟩
  have hlength : (ranked.filter p).length ≤ e.config.limit isDl := by
    have hranked : ranked.length = (e.candidates P cell isDl).length := by
      have h := congrArg List.length hmap
      rwa [List.length_map, List.length_map] at h
    exact (List.length_filter_le p ranked).trans (hranked ▸ hlimit)
  have htotal := @Carve.le_total_of_first _ (demand P cell) cell.config.numRbs
    (e.config.limit isDl) 0 (ranked.filter p) p (ranked.filter fun d ↦ !p d)
    (fun d hd ↦ (List.mem_filter.mp hd).2) hlength
  rw [List.nil_append, granted_grants _ _ hknown, demand_withSorting, ← hranking.sliceDemand]
  exact htotal

/-- The grants of a slot stay within the budgets, whatever the policy, the limits and the
order of equal ranks, exactly where the demand of each slice does. -/
theorem sliceIsolated_iff (e₀ : SchedulerEngine π₀ D) (P : Platform) (cell : CellContext)
    (isDl : Bool) (hn : cell.config.numRbs ≤ 273) :
    e₀.SliceIsolated P cell isDl ↔ e₀.DemandWithinBudgets P cell isDl := by
  refine ⟨?_, sliceIsolated_of_demand⟩
  intro hisolated slice budget hbudget
  let n := (e₀.candidates P cell isDl).length
  let e : SchedulerEngine ZeroPolicy D := {
    config := { e₀.config with maxPdschPerTti := n, maxPuschPerTti := n }
    policyManager := ⟨⟩
    qosEngine := e₀.qosEngine
    sliceOrchestrator := e₀.sliceOrchestrator }
  have halternative : e₀.Alternative e := ⟨⟨n, n, rfl⟩, rfl⟩
  have hlimit : (e.candidates P cell isDl).length ≤ e.config.limit isDl := by
    rw [halternative.candidates]
    cases isDl <;> exact le_rfl
  obtain ⟨s, ds, cell', e', hrun, hgranted⟩ := exists_first_slice hn hlimit slice
  have hdemand : e.sliceDemand P cell isDl slice = e₀.sliceDemand P cell isDl slice := by
    rw [sliceDemand, sliceDemand, halternative.sliceOrchestrator, halternative.candidates]
  rw [← hdemand]
  exact hgranted.trans (hisolated ZeroPolicy e s _ halternative hrun slice budget hbudget)

end ZeroPolicy

/-- A slice with one block left and one user. -/
def oneBlockLeft : RationalEngine :=
  { create { strategy := .roundRobin, enableQos := false, enableSlicing := true } with
    sliceOrchestrator := { SliceOrchestrator.create with
      ueSliceMap := AList.insert 7 1 ∅
      currentBudgets := AList.insert 1
        { sliceId := 1, availableRbsDl := 1, availableRbsUl := 1 } ∅ } }

/-- The cell of that user, with data in its buffer. -/
def cellOfUser (bytes : ℕ) : CellContext :=
  (RationalEngine.after {} [.addCell (.fdd 1 4) .cleared, .ueConfig { rnti := 7, cellId := 1 },
    .dlData ⟨7, 1, 0, bytes⟩]).cells.lookup 1 |>.getD (.create (.fdd 1 4) .cleared)

theorem sliceIsolated_iff_oneBlockLeft :
    oneBlockLeft.SliceIsolated Platform.plain (cellOfUser 1) true ↔
      oneBlockLeft.DemandWithinBudgets Platform.plain (cellOfUser 1) true :=
  sliceIsolated_iff oneBlockLeft Platform.plain (cellOfUser 1) true (by decide +kernel)

/-- The user asks for four blocks and gets them. -/
theorem not_withinBudgets :
    ∃ r, (oneBlockLeft.scheduleDl Platform.plain ((cellOfUser 1000).fresh true)).run none =
        .ok r ∧ ¬ oneBlockLeft.sliceOrchestrator.WithinBudgets true r.1 := by
  have hgranted : ((oneBlockLeft.scheduleDl Platform.plain
      ((cellOfUser 1000).fresh true)).run none).toOption.map
        (fun r ↦ oneBlockLeft.sliceOrchestrator.granted 1 r.1) = some 4 := by
    decide +kernel
  obtain ⟨r, hr, hfour⟩ := Option.map_eq_some_iff.mp hgranted
  refine ⟨r, ?_, ?_⟩
  · cases hrun : (oneBlockLeft.scheduleDl Platform.plain
      ((cellOfUser 1000).fresh true)).run none with
    | error f =>
        rw [hrun] at hr
        cases hr
    | ok r' =>
        rw [hrun] at hr
        exact congrArg Except.ok (Option.some.inj hr)
  · intro hwithin
    have hle := hwithin 1 { sliceId := 1, availableRbsDl := 1, availableRbsUl := 1 } rfl
    rw [hfour] at hle
    exact absurd hle (by decide)

end SchedulerEngine

end NrScheduler
