import NrScheduler.Services.Operations

/-!
# What the operations of the slice orchestrator do

Queries and refused operations leave the orchestrator as it is; every other operation has
one effect, stated here once for all invariants of its runs.
-/

namespace NrScheduler

open LockMonad

variable {D : Type} [Double D]

namespace SliceOrchestrator

/-! ## Budgets -/

def guaranteePass (o : SliceOrchestrator D) (P : Platform) (totalRbs : ℕ) :
    ℕ × ℕ × AList fun _ : SliceId ↦ SliceResourceBudget :=
  (P.hashOrder o.sliceConfigs.entries).foldl (guaranteeRound totalRbs) (0, 0, ∅)

/-- The sum of the shares, in the order the slices are visited. -/
def totalShare (o : SliceOrchestrator D) (P : Platform) : D :=
  (P.hashOrder o.sliceConfigs.entries).foldl (fun sum e ↦ Double.add sum e.2.sla.resourceShare)
    (Double.ofNat 0)

theorem computeBudgets_eq (o : SliceOrchestrator D) (P : Platform) (totalRbs : ℕ) :
    (o.computeBudgets P totalRbs).2.2 =
      let g := o.guaranteePass P totalRbs
      let poolDl := (totalRbs + 2 ^ 16 - g.1) % 2 ^ 16
      let poolUl := (totalRbs + 2 ^ 16 - g.2.1) % 2 ^ 16
      if (0 < poolDl ∨ 0 < poolUl) ∧ Double.lt (Double.ofNat 0) (o.totalShare P) = true then
        ((P.hashOrder g.2.2.entries).map Sigma.fst).foldl
          (o.shareRound (o.totalShare P) poolDl poolUl) g.2.2
      else g.2.2 := by
  -- stated for variables, so that no conversion evaluates the remainders of the pools
  have hbudgets : ∀ (poolDl poolUl : ℕ) (budgets : AList fun _ : SliceId ↦ SliceResourceBudget),
      (poolDl, poolUl, budgets).2.2 = budgets := fun _ _ _ ↦ rfl
  simp only [computeBudgets, guaranteePass, totalShare]
  split
  case isTrue h => exact (hbudgets _ _ _).trans (if_pos h).symm
  case isFalse h => exact (hbudgets _ _ _).trans (if_neg h).symm

theorem computeBudgets_cases (o : SliceOrchestrator D) (P : Platform) (totalRbs : ℕ) :
    let g := o.guaranteePass P totalRbs
    let poolDl := (totalRbs + 2 ^ 16 - g.1) % 2 ^ 16
    let poolUl := (totalRbs + 2 ^ 16 - g.2.1) % 2 ^ 16
    (o.computeBudgets P totalRbs).2.2 = g.2.2 ∨
      Double.lt (Double.ofNat 0) (o.totalShare P) = true ∧
        (o.computeBudgets P totalRbs).2.2 =
          ((P.hashOrder g.2.2.entries).map Sigma.fst).foldl
            (o.shareRound (o.totalShare P) poolDl poolUl) g.2.2 := by
  intro g poolDl poolUl
  rw [computeBudgets_eq]
  by_cases h : (0 < poolDl ∨ 0 < poolUl) ∧ Double.lt (Double.ofNat 0) (o.totalShare P) = true
  · exact Or.inr ⟨h.2, if_pos h⟩
  · exact Or.inl (if_neg h)

omit [Double D] in
theorem mem_guaranteePass {totalRbs : ℕ} {l : List (Sigma fun _ : SliceId ↦ SliceConfig D)}
    {acc : ℕ × ℕ × AList fun _ : SliceId ↦ SliceResourceBudget} {id : SliceId} :
    id ∈ (l.foldl (guaranteeRound totalRbs) acc).2.2 ↔ id ∈ l.keys ∨ id ∈ acc.2.2 := by
  induction l generalizing acc with
  | nil => simp
  | cons e l ih => simp [ih, guaranteeRound, List.keys, or_left_comm, or_assoc]

theorem mem_shareRound {o : SliceOrchestrator D} {share : D} {poolDl poolUl : ℕ}
    {budgets : AList fun _ : SliceId ↦ SliceResourceBudget} {sliceId id : SliceId} :
    id ∈ o.shareRound share poolDl poolUl budgets sliceId ↔ id ∈ budgets := by
  rw [shareRound]
  split <;> simp

theorem mem_sharePass {o : SliceOrchestrator D} {share : D} {poolDl poolUl : ℕ}
    {budgets : AList fun _ : SliceId ↦ SliceResourceBudget} {ids : List SliceId} {id : SliceId} :
    id ∈ ids.foldl (o.shareRound share poolDl poolUl) budgets ↔ id ∈ budgets := by
  induction ids generalizing budgets with
  | nil => rfl
  | cons _ ids ih => rw [List.foldl_cons, ih, mem_shareRound]

theorem mem_computeBudgets {o : SliceOrchestrator D} {P : Platform} {totalRbs : ℕ}
    {id : SliceId} : id ∈ (o.computeBudgets P totalRbs).2.2 ↔ id ∈ o.sliceConfigs := by
  have hfirst : id ∈ (o.guaranteePass P totalRbs).2.2 ↔ id ∈ o.sliceConfigs := by
    rw [guaranteePass, mem_guaranteePass]
    simp [List.keys, AList.mem_keys, AList.keys, P.mem_hashOrder]
  rcases o.computeBudgets_cases P totalRbs with h | ⟨_, h⟩
  · rw [h, hfirst]
  · rw [h, mem_sharePass, hfirst]

def budgeted (o : SliceOrchestrator D) (P : Platform) (cell : CellContext) :
    SliceOrchestrator D :=
  { o with
    currentBudgets := (o.computeBudgets P cell.config.numRbs).2.2
    sharedPoolDl := (o.computeBudgets P cell.config.numRbs).1
    sharedPoolUl := (o.computeBudgets P cell.config.numRbs).2.1 }

theorem calculateBudgets_run (o : SliceOrchestrator D) (P : Platform) (cell : CellContext) :
    (o.calculateBudgets P cell).run none =
      .ok ((o.budgeted P cell).currentBudgets, o.budgeted P cell) := by
  rw [calculateBudgets, withLock_run_none, budgeted]
  cases o.computeBudgets P cell.config.numRbs with
  | mk poolDl rest => rfl

theorem currentBudgets_budgeted (o : SliceOrchestrator D) (P : Platform) (cell : CellContext) :
    (o.budgeted P cell).currentBudgets = (o.computeBudgets P cell.config.numRbs).2.2 := by
  have hfield : ∀ (budgets : AList fun _ : SliceId ↦ SliceResourceBudget) (poolDl poolUl : ℕ),
      ({ o with
        currentBudgets := budgets
        sharedPoolDl := poolDl
        sharedPoolUl := poolUl } : SliceOrchestrator D).currentBudgets = budgets :=
    fun _ _ _ ↦ rfl
  exact hfield _ _ _

/-- Calculating budgets changes budgets and pools and nothing else. -/
theorem budgeted_frame (o : SliceOrchestrator D) (P : Platform) (cell : CellContext) :
    ∃ budgets poolDl poolUl, o.budgeted P cell =
        { o with
          currentBudgets := budgets
          sharedPoolDl := poolDl
          sharedPoolUl := poolUl } ∧
      ∀ id, id ∈ budgets ↔ id ∈ o.sliceConfigs :=
  ⟨_, _, _, rfl, fun _ ↦ mem_computeBudgets⟩

/-! ## Borrowing -/

omit [Double D] in
/-- Borrowing changes budgets and statistics and nothing else, and adds no budget. -/
theorem borrowLoop_frame {sliceId : SliceId} {config : SliceConfig D} {toBorrow : ℕ}
    {isDl : Bool} {others : List SliceId} {borrowed : ℕ} {o : SliceOrchestrator D} :
    ∃ budgets stats,
      (borrowLoop sliceId config toBorrow isDl others borrowed o).2 =
        { o with currentBudgets := budgets, stats := stats } ∧
      ∀ id, id ∈ budgets ↔ id ∈ o.currentBudgets := by
  induction others generalizing borrowed o with
  | nil => exact ⟨o.currentBudgets, o.stats, rfl, fun _ ↦ Iff.rfl⟩
  | cons otherId rest ih =>
      simp only [borrowLoop]
      split
      · split
        · exact ih
        · split
          · exact ⟨_, _, rfl, fun id ↦ by simp⟩
          · obtain ⟨budgets, stats, h, hmem⟩ := ih
            refine ⟨budgets, stats, h, fun id ↦ ?_⟩
            rw [hmem]
            simp
      · exact ih

/-! ## Effects -/

/-- The operation is a query, or a change that the orchestrator refuses. -/
def idles (o : SliceOrchestrator D) : Operation D → Bool
  | .createSlice config _ => decide (config.sliceId ∈ o.sliceConfigs)
  | .updateSlice sliceId _ => decide (sliceId ∉ o.sliceConfigs)
  | .deleteSlice sliceId => o.ueSliceMap.entries.any fun e ↦ e.2 == sliceId
  | .associateUe _ sliceId => decide (sliceId ∉ o.sliceConfigs)
  | .disassociateUe rnti => decide (rnti ∉ o.ueSliceMap)
  | .returnResources sliceId _ _ => decide (sliceId ∉ o.currentBudgets)
  | .reportScheduling rnti _ _ _ => decide (rnti ∉ o.ueSliceMap)
  | .calculateBudgets _ | .requestResources _ _ _ | .onSlotStart _ | .onSlotEnd => false
  | _ => true

/-- What an operation that is not idle does. -/
inductive Effect (o : SliceOrchestrator D) (P : Platform) :
    Operation D → SliceOrchestrator D → Prop
  | created {config memory} (h : config.sliceId ∉ o.sliceConfigs) :
      Effect o P (.createSlice config memory) { o with
        sliceConfigs := o.sliceConfigs.insert config.sliceId config
        sliceStates := o.sliceStates.insert config.sliceId
          { memory with sliceId := config.sliceId, active := true } }
  | updated {sliceId config} (h : sliceId ∈ o.sliceConfigs) :
      Effect o P (.updateSlice sliceId config)
        { o with sliceConfigs := o.sliceConfigs.modify sliceId fun _ ↦ config }
  | deleted {sliceId} (h : ∀ rnti, o.ueSliceMap.lookup rnti ≠ some sliceId) :
      Effect o P (.deleteSlice sliceId) { o with
        sliceConfigs := o.sliceConfigs.erase sliceId
        sliceStates := o.sliceStates.erase sliceId
        currentBudgets := o.currentBudgets.erase sliceId }
  | associated {rnti sliceId state} (h : sliceId ∈ o.sliceConfigs)
      (hstate : state = (o.sliceStates.lookup sliceId).getD .zero) :
      Effect o P (.associateUe rnti sliceId) { o with
        ueSliceMap := o.ueSliceMap.insert rnti sliceId
        sliceStates := o.sliceStates.insert sliceId
          { state with connectedUes := (state.connectedUes + 1) % 2 ^ 32 } }
  | disassociated {rnti sliceId state} (h : o.ueSliceMap.lookup rnti = some sliceId)
      (hstate : state = (o.sliceStates.lookup sliceId).getD .zero) :
      Effect o P (.disassociateUe rnti) { o with
        ueSliceMap := o.ueSliceMap.erase rnti
        sliceStates := o.sliceStates.insert sliceId
          { state with connectedUes := state.connectedUes - 1 } }
  | budgeted {cell} : Effect o P (.calculateBudgets cell) (o.budgeted P cell)
  | granted {sliceId rbsNeeded isDl} : Effect o P (.requestResources sliceId rbsNeeded isDl) o
  | borrowed {sliceId rbsNeeded isDl config toBorrow others}
      (hbudget : sliceId ∈ o.currentBudgets)
      (hconfig : o.sliceConfigs.lookup sliceId = some config) :
      Effect o P (.requestResources sliceId rbsNeeded isDl)
        (borrowLoop sliceId config toBorrow isDl others 0 o).2
  | returned {sliceId rbsUnused isDl poolDl poolUl} :
      Effect o P (.returnResources sliceId rbsUnused isDl) { o with
        currentBudgets := o.currentBudgets.modify sliceId fun b ↦
          if 0 < b.borrowedRbs then
            b.addBorrowed (-min b.borrowedRbs (SliceResourceBudget.toInt16 rbsUnused))
          else b
        sharedPoolDl := poolDl
        sharedPoolUl := poolUl }
  | reported {rnti sliceId rbs bytes isDl} (h : o.ueSliceMap.lookup rnti = some sliceId) :
      Effect o P (.reportScheduling rnti rbs bytes isDl) { o with
        currentBudgets := o.currentBudgets.modify sliceId fun b ↦ b.addUsed isDl rbs
        sliceStates := o.sliceStates.modify sliceId fun s ↦
          SliceState.report s isDl rbs bytes }
  | slotStarted {timing} : Effect o P (.onSlotStart timing) { o with
      currentTiming := timing
      sliceStates := o.sliceStates.mapValues fun s ↦
        { s with currentRbsDl := 0, currentRbsUl := 0 } }
  | slotEnded {stats} : Effect o P .onSlotEnd { o with stats := stats }

omit [Double D] in
theorem any_ueSliceMap_iff {o : SliceOrchestrator D} {sliceId : SliceId} :
    (o.ueSliceMap.entries.any fun e ↦ e.2 == sliceId) = true ↔
      ∃ rnti, o.ueSliceMap.lookup rnti = some sliceId := by
  simp only [List.any_eq_true, beq_iff_eq]
  constructor
  · rintro ⟨⟨rnti, id⟩, hmem, rfl⟩
    exact ⟨rnti, AList.mem_lookup_iff.mpr hmem⟩
  · rintro ⟨rnti, h⟩
    exact ⟨⟨rnti, sliceId⟩, AList.mem_lookup_iff.mp h, rfl⟩

/-- Every operation returns; it is idle and changes nothing, or it has its effect. -/
theorem next_spec (o : SliceOrchestrator D) (P : Platform) (op : Operation D) :
    ∃ o', o.next (P, op) = some o' ∧
      (o.idles op = true ∧ o' = o ∨ o.idles op = false ∧ Effect o P op o') := by
  cases op with
  | createSlice config memory =>
      simp only [next, perform, createSlice, idles]
      by_cases h : config.sliceId ∈ o.sliceConfigs
      · simp only [if_pos h]
        exact ⟨o, rfl, Or.inl ⟨decide_eq_true h, rfl⟩⟩
      · simp only [if_neg h]
        exact ⟨_, rfl, Or.inr ⟨decide_eq_false h, .created h⟩⟩
  | updateSlice sliceId config =>
      simp only [next, perform, updateSlice, idles]
      by_cases h : sliceId ∈ o.sliceConfigs
      · simp only [if_pos h]
        exact ⟨_, rfl, Or.inr ⟨decide_eq_false (not_not.mpr h), .updated h⟩⟩
      · simp only [if_neg h]
        exact ⟨o, rfl, Or.inl ⟨decide_eq_true h, rfl⟩⟩
  | deleteSlice sliceId =>
      simp only [next, perform, deleteSlice, idles]
      by_cases h : (o.ueSliceMap.entries.any fun e ↦ e.2 == sliceId) = true
      · simp only [if_pos h]
        exact ⟨o, rfl, Or.inl ⟨h, rfl⟩⟩
      · simp only [if_neg h]
        refine ⟨_, rfl, Or.inr ⟨Bool.eq_false_iff.mpr h, .deleted fun rnti hrnti ↦ ?_⟩⟩
        exact h (any_ueSliceMap_iff.mpr ⟨rnti, hrnti⟩)
  | associateUe rnti sliceId =>
      simp only [next, perform, associateUe, idles]
      by_cases h : sliceId ∈ o.sliceConfigs
      · simp only [if_pos h]
        exact ⟨_, rfl, Or.inr ⟨decide_eq_false (not_not.mpr h), .associated h rfl⟩⟩
      · simp only [if_neg h]
        exact ⟨o, rfl, Or.inl ⟨decide_eq_true h, rfl⟩⟩
  | disassociateUe rnti =>
      simp only [next, perform, disassociateUe, idles]
      cases h : o.ueSliceMap.lookup rnti with
      | none => exact ⟨o, rfl, Or.inl ⟨decide_eq_true (AList.lookup_eq_none.mp h), rfl⟩⟩
      | some sliceId =>
          have hmem : rnti ∈ o.ueSliceMap := AList.mem_of_lookup h
          exact ⟨_, rfl, Or.inr ⟨decide_eq_false (not_not.mpr hmem), .disassociated h rfl⟩⟩
  | calculateBudgets cell =>
      have hrun : (o.perform P (.calculateBudgets cell)).run none = .ok (o.budgeted P cell) :=
        run_bind_of_ok (o.calculateBudgets_run P cell)
      exact ⟨_, ignoringLocks_eq_some.mpr hrun, Or.inr ⟨rfl, .budgeted⟩⟩
  | requestResources sliceId rbsNeeded isDl =>
      simp only [next, perform, requestResources]
      split
      · rename_i budget config hbudget hconfig
        split
        · exact ⟨o, rfl, Or.inr ⟨rfl, .granted⟩⟩
        · split
          · exact ⟨o, rfl, Or.inr ⟨rfl, .granted⟩⟩
          · have hmem : sliceId ∈ o.currentBudgets := AList.mem_of_lookup hbudget
            exact ⟨_, rfl, Or.inr ⟨rfl, .borrowed hmem hconfig⟩⟩
      · exact ⟨o, rfl, Or.inr ⟨rfl, .granted⟩⟩
  | returnResources sliceId rbsUnused isDl =>
      simp only [next, perform, returnResources, idles]
      by_cases h : sliceId ∈ o.currentBudgets
      · simp only [if_pos h]
        refine ⟨_, rfl, Or.inr ⟨decide_eq_false (not_not.mpr h), ?_⟩⟩
        cases isDl with
        | true => exact .returned
        | false => exact .returned
      · simp only [if_neg h]
        exact ⟨o, rfl, Or.inl ⟨decide_eq_true h, rfl⟩⟩
  | reportScheduling rnti rbs bytes isDl =>
      simp only [next, perform, reportScheduling, idles]
      cases h : o.ueSliceMap.lookup rnti with
      | none => exact ⟨o, rfl, Or.inl ⟨decide_eq_true (AList.lookup_eq_none.mp h), rfl⟩⟩
      | some sliceId =>
          have hmem : rnti ∈ o.ueSliceMap := AList.mem_of_lookup h
          exact ⟨_, rfl, Or.inr ⟨decide_eq_false (not_not.mpr hmem), .reported h⟩⟩
  | onSlotStart timing => exact ⟨_, rfl, Or.inr ⟨rfl, .slotStarted⟩⟩
  | onSlotEnd => exact ⟨_, rfl, Or.inr ⟨rfl, .slotEnded⟩⟩
  | _ => exact ⟨o, rfl, Or.inl ⟨rfl, rfl⟩⟩

end SliceOrchestrator

end NrScheduler
