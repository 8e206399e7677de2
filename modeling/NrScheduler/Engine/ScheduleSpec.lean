import NrScheduler.Engine.SchedulerEngine
import NrScheduler.Lib.Carve

/-!
# What scheduling one direction does

With mutexes as no-ops, scheduling ranks the candidate decisions of the eligible users and
carves the blocks of the cell among them.
-/

namespace NrScheduler

open LockMonad

def SchedulingDecision.unranked {D : Type} [Double D] (d : SchedulingDecision D) :
    SchedulingDecision D :=
  { d with priorityMetric := Double.ofNat 0, qosPriority := 0 }

namespace SchedulerEngine

variable {π D : Type}

/-! ## Eligible users and candidates -/

/-- The filter of `getEligibleUes`. -/
def isEligible (e : SchedulerEngine π D) (isDl : Bool) (ue : UeContext) : Bool :=
  ue.isInActiveTime && (ue.hasData isDl || (ue.harq isDl).getRetxProcess.isSome) &&
    (!e.config.enableSlicing || e.sliceOrchestrator.allows ue.rnti 1 isDl)

theorem getEligibleUes_run (e : SchedulerEngine π D) (P : Platform) (cell : CellContext)
    (isDl : Bool) :
    (e.getEligibleUes P cell isDl).run none =
      .ok ((cell.ueRepo.users P).filter (e.isEligible isDl)) := by
  apply UeRepository.forEach_run_filter
  intro acc ue
  have hallows : (e.sliceOrchestrator.isSchedulingAllowed ue.rnti 1 isDl).run none =
      .ok (e.sliceOrchestrator.allows ue.rnti 1 isDl) := rfl
  rw [isEligible]
  cases ue.isInActiveTime with
  | false => rfl
  | true =>
      have hwork : (!ue.hasData isDl && (ue.harq isDl).getRetxProcess.isNone) =
          !(ue.hasData isDl || (ue.harq isDl).getRetxProcess.isSome) := by
        cases ue.hasData isDl <;> cases (ue.harq isDl).getRetxProcess <;> rfl
      rw [hwork]
      cases ue.hasData isDl || (ue.harq isDl).getRetxProcess.isSome with
      | false => rfl
      | true =>
          cases e.config.enableSlicing with
          | false => rfl
          | true =>
              refine (run_bind_of_ok hallows).trans ?_
              cases e.sliceOrchestrator.allows ue.rnti 1 isDl <;> rfl

variable [Double D]

/-- The candidate decisions of a direction, in the order the users are visited. -/
def candidates (e : SchedulerEngine π D) (P : Platform) (cell : CellContext) (isDl : Bool) :
    List (SchedulingDecision D) :=
  ((cell.ueRepo.users P).filter (e.isEligible isDl)).filterMap (candidate e.config P isDl)

theorem candidate_eq_some {config : SchedulerConfig} {P : Platform} {isDl : Bool}
    {ue : UeContext} {d : SchedulingDecision D} (h : candidate config P isDl ue = some d) :
    d.rnti = ue.rnti ∧ d.unranked = d := by
  unfold candidate at h
  split at h
  · cases h
    exact ⟨rfl, rfl⟩
  · split at h
    · cases h
    · split at h
      · cases h
      · cases h
        exact ⟨rfl, rfl⟩

/-- A retransmission is the candidate where there is one and it has priority. -/
theorem candidate_retx {config : SchedulerConfig} {P : Platform} {isDl : Bool} {ue : UeContext}
    {p : HarqProcess} (hprio : config.harqRetxPriority = true)
    (hp : (ue.harq isDl).getRetxProcess = some p) :
    (candidate config P isDl ue : Option (SchedulingDecision D)) =
      some {
        rnti := ue.rnti
        type := .retx
        tbConfig := P.uninitTbConfig isDl ue.rnti
        harqId := p.id
        priorityMetric := Double.ofNat 0
        bufferBytes := p.tbConfig.tbSizeBytes } := by
  simp only [candidate, hp, hprio]

/-- Otherwise it is a new transmission, where there are data and a free process. -/
theorem candidate_newTx {config : SchedulerConfig} {isDl : Bool} {ue : UeContext}
    (P : Platform)
    (h : ¬ (config.harqRetxPriority = true ∧ (ue.harq isDl).getRetxProcess.isSome = true)) :
    (candidate config P isDl ue : Option (SchedulingDecision D)) =
      if ue.hasData isDl = true then (ue.harq isDl).getFreeProcess.map fun p ↦ {
        rnti := ue.rnti
        type := .newTx
        tbConfig := P.uninitTbConfig isDl ue.rnti
        harqId := p.id
        priorityMetric := Double.ofNat 0
        bufferBytes := ue.newTxBytes isDl }
      else none := by
  rw [candidate]
  split
  · rename_i p hretx hprio
    exact absurd ⟨hprio, by rw [hretx]; rfl⟩ h
  · cases ue.hasData isDl with
    | false => rfl
    | true => cases (ue.harq isDl).getFreeProcess <;> rfl

theorem mem_candidates {e : SchedulerEngine π D} {P : Platform} {cell : CellContext}
    {isDl : Bool} {d : SchedulingDecision D} :
    d ∈ e.candidates P cell isDl ↔ ∃ ue, cell.ueRepo.ue? d.rnti = some ue ∧
      e.isEligible isDl ue = true ∧ candidate e.config P isDl ue = some d := by
  rw [candidates, List.mem_filterMap]
  constructor
  · rintro ⟨ue, hue, hd⟩
    obtain ⟨hmem, heligible⟩ := List.mem_filter.mp hue
    refine ⟨ue, ?_, heligible, hd⟩
    rw [(candidate_eq_some hd).1]
    exact UeRepository.mem_users.mp hmem
  · rintro ⟨ue, hue, heligible, hd⟩
    refine ⟨ue, List.mem_filter.mpr ⟨UeRepository.mem_users.mpr ?_, heligible⟩, hd⟩
    rw [← (candidate_eq_some hd).1]
    exact hue

theorem candidates_nodup (e : SchedulerEngine π D) (P : Platform) (cell : CellContext)
    (isDl : Bool) : ((e.candidates P cell isDl).map SchedulingDecision.rnti).Nodup := by
  have hsub : ((e.candidates P cell isDl).map SchedulingDecision.rnti).Sublist
      ((cell.ueRepo.users P).map UeContext.rnti) := by
    rw [candidates]
    have hfilter : ((cell.ueRepo.users P).filter (e.isEligible isDl)).Sublist
        (cell.ueRepo.users P) := List.filter_sublist
    refine List.Sublist.trans ?_ (hfilter.map UeContext.rnti)
    induction (cell.ueRepo.users P).filter (e.isEligible isDl) with
    | nil => exact List.Sublist.refl _
    | cons ue ues ih =>
        cases hd : (candidate e.config P isDl ue : Option (SchedulingDecision D)) with
        | none =>
            rw [List.filterMap_cons_none hd]
            exact ih.cons _
        | some d =>
            rw [List.filterMap_cons_some hd, List.map_cons, List.map_cons,
              (candidate_eq_some hd).1]
            exact ih.cons_cons _
  exact hsub.nodup (cell.ueRepo.users_nodup P)

/-! ## Ranking -/

theorem rankByQos_run (e : SchedulerEngine π D) (P : Platform) (ue : UeContext) (isDl : Bool)
    (base : D) (d : SchedulingDecision D) :
    ∃ d' qos, (e.rankByQos P ue isDl base d).run none = .ok (d', { e with qosEngine := qos }) ∧
      d'.unranked = d.unranked := by
  rw [rankByQos]
  cases e.config.enableQos with
  | false => exact ⟨_, e.qosEngine, rfl, rfl⟩
  | true => exact ⟨_, _, rfl, rfl⟩

theorem unranked_boostRetx (d : SchedulingDecision D) : (boostRetx d).unranked = d.unranked := by
  unfold boostRetx
  split <;> rfl

theorem boostSlice_run (e : SchedulerEngine π D) (ue : UeContext) (d : SchedulingDecision D) :
    ∃ d', (e.boostSlice ue d).run none = .ok d' ∧ d'.unranked = d.unranked := by
  rw [boostSlice]
  cases e.config.enableSlicing with
  | false => exact ⟨_, rfl, rfl⟩
  | true => exact ⟨_, rfl, rfl⟩

variable [IPolicyManager π D]

theorem calculatePriority_run (e : SchedulerEngine π D) (P : Platform) (cell : CellContext)
    (isDl : Bool) (d : SchedulingDecision D) :
    ∃ d' policy qos, (e.calculatePriority P cell isDl d).run none =
        .ok (d', { e with policyManager := policy, qosEngine := qos }) ∧
      d'.unranked = d.unranked := by
  have hfind := cell.ueRepo.findByRnti_run d.rnti
  rw [calculatePriority, run_bind_of_ok hfind]
  cases cell.ueRepo.ue? d.rnti with
  | none => exact ⟨_, e.policyManager, e.qosEngine, rfl, rfl⟩
  | some ue =>
      let ranked : D × π := IPolicyManager.calculatePriority P e.policyManager ue cell isDl
      obtain ⟨d₁, qos, hqos, hd₁⟩ :=
        { e with policyManager := ranked.2 }.rankByQos_run P ue isDl ranked.1 d
      obtain ⟨d₂, hslice, hd₂⟩ :=
        { e with policyManager := ranked.2, qosEngine := qos }.boostSlice_run ue (boostRetx d₁)
      refine ⟨d₂, ranked.2, qos, ?_, ?_⟩
      · refine (run_bind_of_ok hqos).trans ?_
        exact run_bind_of_ok hslice
      · rw [hd₂, unranked_boostRetx, hd₁]

theorem calculatePriorities_run (P : Platform) (cell : CellContext) (isDl : Bool)
    (ds : List (SchedulingDecision D)) (e : SchedulerEngine π D) :
    ∃ ds' policy qos, (calculatePriorities P cell isDl ds e).run none =
        .ok (ds', { e with policyManager := policy, qosEngine := qos }) ∧
      ds'.map SchedulingDecision.unranked = ds.map SchedulingDecision.unranked := by
  induction ds generalizing e with
  | nil => exact ⟨[], e.policyManager, e.qosEngine, rfl, rfl⟩
  | cons d ds ih =>
      obtain ⟨d', policy, qos, hrun, hd⟩ := e.calculatePriority_run P cell isDl d
      obtain ⟨ds', policy', qos', hrest, hds⟩ :=
        ih { e with policyManager := policy, qosEngine := qos }
      refine ⟨d' :: ds', policy', qos', ?_, ?_⟩
      · rw [calculatePriorities, run_bind_of_ok hrun]
        simp only
        rw [run_bind_of_ok hrest]
        rfl
      · rw [List.map_cons, List.map_cons, hd, hds]

/-! ## Carving the blocks -/

def demand (P : Platform) (cell : CellContext) (d : SchedulingDecision D) : ℕ :=
  match cell.ueRepo.ue? d.rnti with
  | some ue => DefaultResourceAllocator.requiredRbs P d.bufferBytes ue cell
  | none => 0

/-- The decision after it got a piece of the line of blocks. -/
def grantOf (P : Platform) (cell : CellContext) (p : Carve.Piece (SchedulingDecision D)) :
    SchedulingDecision D :=
  match cell.ueRepo.ue? p.item.rnti with
  | some ue => DefaultResourceAllocator.record P p.item ue cell ⟨p.start, p.width⟩
  | none => p.item

omit [Double D] in
@[simp] theorem rnti_grantOf (P : Platform) (cell : CellContext)
    (p : Carve.Piece (SchedulingDecision D)) : (grantOf P cell p).rnti = p.item.rnti := by
  unfold grantOf
  split <;> rfl

/-- The policy after it was told of a granted decision. -/
def reportGrant (P : Platform) (cell : CellContext) (policy : π) (d : SchedulingDecision D) : π :=
  match cell.ueRepo.ue? d.rnti with
  | some ue => IPolicyManager.updateHistory D P policy ue d.tbConfig.tbSizeBytes
  | none => policy

def grants (P : Platform) (cell : CellContext) (limit next : ℕ)
    (ranked : List (SchedulingDecision D)) : List (SchedulingDecision D) :=
  (Carve.carve (demand P cell) cell.config.numRbs limit next ranked).map (grantOf P cell)

omit [Double D] in
theorem grants_nil (P : Platform) (cell : CellContext) (limit next : ℕ) :
    grants P cell limit next ([] : List (SchedulingDecision D)) = [] := by
  rw [grants, Carve.carve_nil, List.map_nil]

omit [Double D] in
theorem grants_zero (P : Platform) (cell : CellContext) (next : ℕ)
    (ranked : List (SchedulingDecision D)) : grants P cell 0 next ranked = [] := by
  rw [grants, Carve.carve_zero, List.map_nil]

omit [Double D] in
/-- A decision is granted what is left of its demand, and skipped if that is nothing. -/
theorem grants_cons {P : Platform} {cell : CellContext} {d : SchedulingDecision D}
    {ue : UeContext} {width next : ℕ} (hue : cell.ueRepo.ue? d.rnti = some ue)
    (hwidth : width = min (demand P cell d) (cell.config.numRbs - next)) (m : ℕ)
    (ranked : List (SchedulingDecision D)) :
    grants P cell (m + 1) next (d :: ranked) =
      if width = 0 then grants P cell (m + 1) next ranked
      else DefaultResourceAllocator.record P d ue cell ⟨next, width⟩ ::
        grants P cell m (next + width) ranked := by
  rcases Carve.carve_cons (demand P cell) cell.config.numRbs (m + 1) next d ranked with
    ⟨hw, heq⟩ | ⟨hzero, _⟩ | ⟨m', hm', hw, heq⟩
  · rw [if_pos (hwidth.trans hw), grants, heq, grants]
  · cases hzero
  · obtain rfl : m = m' := Nat.succ.inj hm'
    rw [← hwidth] at hw heq
    rw [if_neg hw, grants, heq, List.map_cons, grants]
    simp only [grantOf, hue]

/-! ## The allocation loop -/

section Loop

variable {P : Platform} {isDl : Bool} {d : SchedulingDecision D}
  {ranked successful : List (SchedulingDecision D)} {cell : CellContext}
  {e : SchedulerEngine π D}

omit [Double D] in
theorem allocateLoop_stop (hlimit : e.config.limit isDl ≤ successful.length) :
    (allocateLoop P isDl ranked successful cell e).run none = .ok (successful, cell, e) := by
  cases ranked with
  | nil => rfl
  | cons d ranked =>
      rw [allocateLoop, if_pos hlimit]
      rfl

omit [Double D] in
theorem allocateLoop_refused (hlimit : ¬ e.config.limit isDl ≤ successful.length)
    (halloc : (allocateResources P d cell isDl).run none = .ok none) :
    (allocateLoop P isDl (d :: ranked) successful cell e).run none =
      (allocateLoop P isDl ranked successful cell { e with
        stats := { e.stats with
          allocationFailures := e.stats.allocationFailures + 1 } }).run none := by
  rw [allocateLoop, if_neg hlimit]
  exact run_bind_of_ok halloc

omit [Double D] in
theorem allocateLoop_granted {d' : SchedulingDecision D} {cell' : CellContext}
    (hlimit : ¬ e.config.limit isDl ≤ successful.length)
    (halloc : (allocateResources P d cell isDl).run none = .ok (some (d', cell')))
    (hrepo : cell'.ueRepo = cell.ueRepo) :
    (allocateLoop P isDl (d :: ranked) successful cell e).run none =
      (allocateLoop P isDl ranked (successful ++ [d']) cell'
        { e with policyManager := reportGrant P cell e.policyManager d' }).run none := by
  rw [allocateLoop, if_neg hlimit]
  refine (run_bind_of_ok halloc).trans ?_
  refine (run_bind_of_ok (cell'.ueRepo.findByRnti_run d'.rnti)).trans ?_
  rw [reportGrant, ← hrepo]
  cases cell'.ueRepo.ue? d'.rnti with
  | none => rfl
  | some ue => rfl

end Loop

omit [Double D] in
/-- The loop grants the pieces of the line from the first free block on. -/
theorem allocateLoop_run {P : Platform} {isDl : Bool} {ranked : List (SchedulingDecision D)}
    (successful : List (SchedulingDecision D)) (cell : CellContext) (e : SchedulerEngine π D)
    {next : ℕ} (hranked : ∀ d ∈ ranked, ∃ ue, cell.ueRepo.ue? d.rnti = some ue)
    (hn : cell.config.numRbs ≤ 273)
    (hnum : (cell.currentSlot.grid isDl).numRbs = cell.config.numRbs)
    (hfree : DefaultResourceAllocator.FreeFrom (cell.currentSlot.grid isDl) next) :
    ∃ g failures, (allocateLoop P isDl ranked successful cell e).run none =
      .ok (successful ++ grants P cell (e.config.limit isDl - successful.length) next ranked,
        cell.setGrid isDl g,
        { e with
          policyManager :=
            (grants P cell (e.config.limit isDl - successful.length) next ranked).foldl
              (reportGrant P cell) e.policyManager
          stats := { e.stats with allocationFailures := failures } }) := by
  induction ranked generalizing successful cell e next with
  | nil =>
      refine ⟨cell.currentSlot.grid isDl, e.stats.allocationFailures, ?_⟩
      rw [grants_nil, List.append_nil, List.foldl_nil, CellContext.setGrid_grid]
      rfl
  | cons d ranked ih =>
      obtain ⟨⟨ue, hue⟩, hrest⟩ := List.forall_mem_cons.mp hranked
      by_cases hlimit : e.config.limit isDl ≤ successful.length
      · refine ⟨cell.currentSlot.grid isDl, e.stats.allocationFailures, ?_⟩
        rw [allocateLoop_stop hlimit, Nat.sub_eq_zero_of_le hlimit, grants_zero, List.append_nil,
          List.foldl_nil, CellContext.setGrid_grid]
      · obtain ⟨m, hm⟩ : ∃ m, e.config.limit isDl - successful.length = m + 1 :=
          ⟨e.config.limit isDl - successful.length - 1, by omega⟩
        obtain ⟨width, hwidth⟩ : ∃ width, width =
            min (demand P cell d) (cell.config.numRbs - next) := ⟨_, rfl⟩
        have hdemand : demand P cell d =
            DefaultResourceAllocator.requiredRbs P d.bufferBytes ue cell := by
          simp only [demand, hue]
        obtain ⟨halloc, hfilled⟩ := DefaultResourceAllocator.allocate_run_freeFrom hue hn
          hnum hfree (hwidth.trans (congrArg (min · _) hdemand))
        rw [hm, grants_cons hue hwidth]
        by_cases hw : width = 0
        · -- nothing is left, so the decision fails and nothing else changes
          rw [if_pos hw] at halloc
          rw [if_pos hw, allocateLoop_refused hlimit halloc, ← hm]
          exact ih successful cell { e with
            stats := { e.stats with allocationFailures := e.stats.allocationFailures + 1 } }
            hrest hn hnum hfree
        · rw [if_neg hw] at halloc
          -- the filled grid is kept as a variable, for no conversion should evaluate it
          obtain ⟨g', hg'⟩ : ∃ g', g' = (cell.currentSlot.grid isDl).fill
            (DefaultResourceAllocator.resource next width) := ⟨_, rfl⟩
          rw [← hg'] at halloc hfilled
          let d' := DefaultResourceAllocator.record P d ue cell ⟨next, width⟩
          have hgrid : (cell.setGrid isDl g').currentSlot.grid isDl = g' :=
            cell.grid_setGrid_self isDl g'
          have hnum' : ((cell.setGrid isDl g').currentSlot.grid isDl).numRbs =
              (cell.setGrid isDl g').config.numRbs := by
            rw [hgrid, hg', ResourceGrid.numRbs_fill]
            exact hnum
          have hfree' : DefaultResourceAllocator.FreeFrom
              ((cell.setGrid isDl g').currentSlot.grid isDl) (next + width) := by
            rw [hgrid]
            exact hfilled hw
          obtain ⟨g, failures, hrun⟩ := ih (successful ++ [d']) (cell.setGrid isDl g')
            { e with policyManager := reportGrant P cell e.policyManager d' } hrest hn hnum' hfree'
          have hleft : e.config.limit isDl - (successful ++ [d']).length = m := by
            rw [List.length_append, List.length_singleton]
            omega
          refine ⟨g, failures, ?_⟩
          rw [if_neg hw, allocateLoop_granted hlimit halloc rfl, hrun]
          simp only [hleft, List.append_assoc, List.singleton_append, List.foldl_cons,
            CellContext.setGrid_setGrid]
          rfl

omit [Double D] in
/-- A cell with more blocks than the bitmaps hold only survives granting nothing. -/
theorem allocateLoop_oversize {P : Platform} {isDl : Bool}
    {ranked : List (SchedulingDecision D)} {cell : CellContext} {e : SchedulerEngine π D}
    (hranked : ∀ d ∈ ranked, ∃ ue, cell.ueRepo.ue? d.rnti = some ue)
    (hn : 273 < cell.config.numRbs)
    (hnum : (cell.currentSlot.grid isDl).numRbs = cell.config.numRbs) :
    (allocateLoop P isDl ranked [] cell e).run none =
      if ranked = [] ∨ e.config.limit isDl = 0 then .ok ([], cell, e)
      else .error (.crash .outOfRange) := by
  cases ranked with
  | nil => rfl
  | cons d ranked =>
      obtain ⟨ue, hue⟩ := hranked d List.mem_cons_self
      by_cases hlimit : e.config.limit isDl = 0
      · rw [if_pos (Or.inr hlimit), allocateLoop_stop (Nat.le_of_eq hlimit)]
      · have hpos : ¬ e.config.limit isDl ≤ 0 := fun h ↦ hlimit (Nat.le_zero.mp h)
        have hsome : ¬ (d :: ranked = [] ∨ e.config.limit isDl = 0) := by
          rintro (h | h)
          · cases h
          · exact hlimit h
        rw [allocateLoop, List.length_nil, if_neg hpos, if_neg hsome]
        exact run_bind_of_error (DefaultResourceAllocator.allocate_crash hue hn hnum)

/-! ## The whole direction -/

/-- The decisions of a direction as they are sorted for the allocation. -/
def sortByPriority (P : Platform) (ds : List (SchedulingDecision D)) :
    List (SchedulingDecision D) :=
  P.sort (fun a b ↦ Double.lt b.priorityMetric a.priorityMetric) ds

theorem schedule_run (e : SchedulerEngine π D) (P : Platform) (cell : CellContext)
    (isDl : Bool) :
    (e.schedule P cell isDl).run none =
      (do
        let r ← calculatePriorities P cell isDl (e.candidates P cell isDl) e
        allocateLoop P isDl (sortByPriority P r.1) [] cell r.2 : Exec _).run none := by
  rw [schedule, run_bind_of_ok (e.getEligibleUes_run P cell isDl)]
  by_cases hnil : (cell.ueRepo.users P).filter (e.isEligible isDl) = []
  · have hsort : sortByPriority P ([] : List (SchedulingDecision D)) = [] :=
      List.Perm.eq_nil (P.sort_perm _ [])
    rw [if_pos hnil, candidates, hnil, List.filterMap_nil]
    refine Eq.trans ?_ (run_bind_of_ok rfl).symm
    rw [hsort]
    rfl
  · rw [if_neg hnil]
    rfl

omit [IPolicyManager π D] in
/-- The list holds the candidates of a direction, each with some rank. -/
def IsRanking (e : SchedulerEngine π D) (P : Platform) (cell : CellContext) (isDl : Bool)
    (ranked : List (SchedulingDecision D)) : Prop :=
  (ranked.map SchedulingDecision.unranked).Perm (e.candidates P cell isDl)

omit [IPolicyManager π D] in
/-- The blocks that the candidates of a direction can reach, in whatever order. -/
def reach (e : SchedulerEngine π D) (P : Platform) (cell : CellContext) (isDl : Bool) : ℕ :=
  min cell.config.numRbs ((e.candidates P cell isDl).map (demand P cell)).sum

section IsRanking

omit [IPolicyManager π D]

variable {e : SchedulerEngine π D} {P : Platform} {cell : CellContext} {isDl : Bool}
  {ranked : List (SchedulingDecision D)}

theorem IsRanking.mem (h : e.IsRanking P cell isDl ranked) {d : SchedulingDecision D}
    (hd : d ∈ ranked) : ∃ ue, cell.ueRepo.ue? d.rnti = some ue ∧ e.isEligible isDl ue = true ∧
      candidate e.config P isDl ue = some d.unranked :=
  mem_candidates.mp (h.mem_iff.mp (List.mem_map_of_mem hd))

theorem IsRanking.known (h : e.IsRanking P cell isDl ranked) :
    ∀ d ∈ ranked, ∃ ue, cell.ueRepo.ue? d.rnti = some ue := by
  intro d hd
  obtain ⟨ue, hue, _⟩ := h.mem hd
  exact ⟨ue, hue⟩

theorem IsRanking.exists_of_candidate (h : e.IsRanking P cell isDl ranked)
    {d : SchedulingDecision D} (hd : d ∈ e.candidates P cell isDl) :
    ∃ d' ∈ ranked, d'.unranked = d :=
  List.mem_map.mp (h.mem_iff.mpr hd)

theorem IsRanking.sum_demand (h : e.IsRanking P cell isDl ranked) :
    (ranked.map (demand P cell)).sum = ((e.candidates P cell isDl).map (demand P cell)).sum := by
  have hperm := (h.map (demand P cell)).sum_eq
  rw [List.map_map] at hperm
  exact hperm

theorem IsRanking.rnti_nodup (h : e.IsRanking P cell isDl ranked) :
    (ranked.map SchedulingDecision.rnti).Nodup := by
  have hperm := h.map SchedulingDecision.rnti
  rw [List.map_map] at hperm
  exact hperm.nodup_iff.mpr (e.candidates_nodup P cell isDl)

theorem isRanking_candidates : e.IsRanking P cell isDl (e.candidates P cell isDl) := by
  have hself : (e.candidates P cell isDl).map SchedulingDecision.unranked =
      e.candidates P cell isDl := by
    refine (List.map_congr_left ?_).trans (List.map_id _)
    intro d hd
    obtain ⟨ue, _, _, hcandidate⟩ := mem_candidates.mp hd
    exact (candidate_eq_some hcandidate).2
  rw [IsRanking, hself]

/-- A list that ranks the candidates in the order of the visit can be sorted. -/
theorem isRanking_sortByPriority {ds : List (SchedulingDecision D)}
    (h : ds.map SchedulingDecision.unranked =
      (e.candidates P cell isDl).map SchedulingDecision.unranked) :
    e.IsRanking P cell isDl (sortByPriority P ds) := by
  refine ((P.sort_perm _ ds).map SchedulingDecision.unranked).trans ?_
  rw [h]
  exact isRanking_candidates

end IsRanking

/-- Where scheduling returns, the granted decisions are the pieces carved from the line of
blocks for some ranking of the candidates. -/
theorem schedule_ok {e e' : SchedulerEngine π D} {P : Platform} {cell cell' : CellContext}
    {isDl : Bool} {ds : List (SchedulingDecision D)}
    (hnum : (cell.currentSlot.grid isDl).numRbs = cell.config.numRbs)
    (hfree : DefaultResourceAllocator.FreeFrom (cell.currentSlot.grid isDl) 0)
    (h : (e.schedule P cell isDl).run none = .ok (ds, cell', e')) :
    ∃ ranked g policy qos failures, e.IsRanking P cell isDl ranked ∧
      ds = grants P cell (e.config.limit isDl) 0 ranked ∧
      (ds ≠ [] → cell.config.numRbs ≤ 273) ∧
      cell' = cell.setGrid isDl g ∧
      e' = { e with
        policyManager := policy
        qosEngine := qos
        stats := { e.stats with allocationFailures := failures } } := by
  obtain ⟨ranked, policy, qos, hrun, hranked⟩ :=
    calculatePriorities_run P cell isDl (e.candidates P cell isDl) e
  have hranking : e.IsRanking P cell isDl (sortByPriority P ranked) :=
    isRanking_sortByPriority hranked
  rw [schedule_run, run_bind_of_ok hrun] at h
  by_cases hn : cell.config.numRbs ≤ 273
  · obtain ⟨g, failures, hloop⟩ := allocateLoop_run [] cell
      { e with policyManager := policy, qosEngine := qos } hranking.known hn hnum hfree
    rw [hloop] at h
    cases h
    exact ⟨_, g, _, qos, failures, hranking, rfl, fun _ ↦ hn, rfl, rfl⟩
  · rw [allocateLoop_oversize hranking.known (by omega) hnum] at h
    split at h
    · rename_i hempty
      cases h
      refine ⟨_, cell.currentSlot.grid isDl, policy, qos, e.stats.allocationFailures,
        hranking, ?_, fun hne ↦ (hne rfl).elim, (cell.setGrid_grid isDl).symm, rfl⟩
      rcases hempty with hempty | hzero
      · rw [hempty, grants_nil]
      · change e.config.limit isDl = 0 at hzero
        rw [hzero, grants_zero]
    · cases h

end SchedulerEngine

end NrScheduler
