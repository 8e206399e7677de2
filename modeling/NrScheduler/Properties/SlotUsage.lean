import NrScheduler.Properties.BlockTransfers
import NrScheduler.Services.BudgetValues

/-!
# The usage of a slot

The blocks reported in a slot are kept twice: the budget of a slice adds them up, while its
state keeps the last report.  The two agree exactly if in each direction no report but the
last has blocks.
-/

namespace NrScheduler

open LockMonad

variable {D : Type}

def SliceState.currentRbs (s : SliceState D) (isDl : Bool) : ℕ :=
  if isDl then s.currentRbsDl else s.currentRbsUl

namespace SliceOrchestrator

/-! ## Reports -/

structure Report where
  rnti : Rnti
  rbs : ℕ
  bytes : ℕ
  isDl : Bool

def Report.operation (r : Report) : Operation D := .reportScheduling r.rnti r.rbs r.bytes r.isDl

/-- The blocks reported for the users of a slice in a direction, in the order of the reports. -/
def reportedRbs (ueSliceMap : AList fun _ : Rnti ↦ SliceId) (reports : List (Platform × Report))
    (id : SliceId) (isDl : Bool) : List ℕ :=
  (reports.filter fun r ↦
    decide (ueSliceMap.lookup r.2.rnti = some id) && r.2.isDl == isDl).map fun r ↦ r.2.rbs

/-- A slot in which nothing is borrowed. -/
def slotRun (P P' : Platform) (timing : FrameTiming) (cell : CellContext)
    (reports : List (Platform × Report)) : List (Platform × Operation D) :=
  (P, .onSlotStart timing) :: (P', .calculateBudgets cell) ::
    reports.map fun r ↦ (r.1, r.2.operation)

/-- The state and the budget of every slice agree with what was reported. -/
def UsageAgrees (o : SliceOrchestrator D) (reported : SliceId → Bool → List ℕ) : Prop :=
  ∀ id s b, o.sliceStates.lookup id = some s → o.currentBudgets.lookup id = some b →
    ∀ isDl, (reported id isDl).sum < 2 ^ 16 →
      s.currentRbs isDl = b.used isDl ∧ b.used isDl = (reported id isDl).sum

/-- For every slice, no report of a direction but the last has blocks. -/
def LastReportOnly (o : SliceOrchestrator D) (reported : SliceId → Bool → List ℕ) : Prop :=
  ∀ id ∈ o.sliceStates.keys, id ∈ o.sliceConfigs → ∀ isDl, (reported id isDl).sum < 2 ^ 16 →
    ∀ rbs ∈ (reported id isDl).dropLast, rbs = 0

variable {ueSliceMap : AList fun _ : Rnti ↦ SliceId} {reports : List (Platform × Report)}
variable {id : SliceId} {isDl isDl' : Bool}

theorem reportedRbs_concat (r : Platform × Report) :
    reportedRbs ueSliceMap (reports ++ [r]) id isDl =
      if ueSliceMap.lookup r.2.rnti = some id ∧ r.2.isDl = isDl then
        reportedRbs ueSliceMap reports id isDl ++ [r.2.rbs]
      else reportedRbs ueSliceMap reports id isDl := by
  simp only [reportedRbs, List.filter_append, List.map_append, List.filter_cons, List.filter_nil,
    Bool.and_eq_true, decide_eq_true_eq, beq_iff_eq]
  split
  · rfl
  · exact List.append_nil _

theorem getLast_eq_sum_iff {l : List ℕ} :
    l.getLast?.getD 0 = l.sum ↔ ∀ n ∈ l.dropLast, n = 0 := by
  rcases List.eq_nil_or_concat l with rfl | ⟨init, last, rfl⟩
  · simp
  · simp only [List.concat_eq_append, List.getLast?_append, List.getLast?_singleton,
      List.sum_append, List.sum_singleton, List.dropLast_concat]
    rw [← List.sum_eq_zero_iff]
    simp

/-! ## What is recorded -/

/-- The states keep the last of the reports, and the budgets their sum. -/
structure Recorded (o : SliceOrchestrator D) (reports : List (Platform × Report))
    (o' : SliceOrchestrator D) : Prop where
  ueSliceMap : o'.ueSliceMap = o.ueSliceMap
  states : ∀ id, id ∈ o'.sliceStates ↔ id ∈ o.sliceStates
  budgets : ∀ id, id ∈ o'.currentBudgets ↔ id ∈ o.sliceConfigs
  current : ∀ id s, o'.sliceStates.lookup id = some s → ∀ isDl,
    s.currentRbs isDl = (reportedRbs o.ueSliceMap reports id isDl).getLast?.getD 0
  used : ∀ id b, o'.currentBudgets.lookup id = some b → ∀ isDl,
    b.used isDl = (reportedRbs o.ueSliceMap reports id isDl).sum % 2 ^ 16

@[simp] theorem currentRbs_report (s : SliceState D) (rbs bytes : ℕ) :
    (SliceState.report s isDl rbs bytes).currentRbs isDl' =
      if isDl = isDl' then rbs else s.currentRbs isDl' := by
  cases isDl <;> cases isDl' <;> rfl

theorem used_addUsed (b : SliceResourceBudget) (rbs : ℕ) :
    (b.addUsed isDl rbs).used isDl' =
      if isDl = isDl' then (b.used isDl' + rbs) % 2 ^ 16 else b.used isDl' := by
  cases isDl <;> cases isDl' <;> rfl

variable [Double D] {o o' : SliceOrchestrator D} {P P' : Platform}

/-- A slot starts with nothing recorded. -/
theorem recorded_nil (o : SliceOrchestrator D) (P P' : Platform) (timing : FrameTiming)
    {cell : CellContext} (hnum : cell.config.numRbs < 2 ^ 16) :
    ∃ o₁, o.next (P, .onSlotStart timing) = some o₁ ∧
      ∃ o₂, o₁.next (P', .calculateBudgets cell) = some o₂ ∧ Recorded o [] o₂ := by
  obtain ⟨o₁, hstart, ⟨hidle, -⟩ | ⟨-, ⟨⟩⟩⟩ := o.next_spec P (.onSlotStart timing)
  · cases hidle
  refine ⟨_, hstart, ?_⟩
  set o₁ : SliceOrchestrator D := { o with
    currentTiming := timing
    sliceStates := o.sliceStates.mapValues fun s ↦
      { s with currentRbsDl := 0, currentRbsUl := 0 } }
  obtain ⟨o₂, hbudgets, ⟨hidle, -⟩ | ⟨-, ⟨⟩⟩⟩ := o₁.next_spec P' (.calculateBudgets cell)
  · cases hidle
  refine ⟨_, hbudgets, ?_⟩
  have hconfigs : o₁.sliceConfigs = o.sliceConfigs := rfl
  constructor
  case ueSliceMap => rfl
  case states => exact fun id ↦ AList.mem_mapValues
  case budgets =>
    intro id
    rw [currentBudgets_budgeted, mem_computeBudgets, hconfigs]
  case current =>
    intro id s hs isDl
    rw [show (o₁.budgeted P' cell).sliceStates = o₁.sliceStates from rfl,
      AList.lookup_mapValues] at hs
    obtain ⟨s₀, -, rfl⟩ := Option.map_eq_some_iff.mp hs
    cases isDl <;> rfl
  case used =>
    intro id b hb isDl
    rw [currentBudgets_budgeted, lookup_computeBudgets o₁ P' hnum] at hb
    obtain ⟨config, -, rfl⟩ := Option.map_eq_some_iff.mp hb
    cases isDl <;> rfl

theorem Recorded.report {recorded : List (Platform × Report)} (h : Recorded o recorded o')
    (r : Platform × Report) :
    ∃ o'', o'.next (r.1, r.2.operation) = some o'' ∧ Recorded o (recorded ++ [r]) o'' := by
  obtain ⟨o'', hnext, ⟨hidle, rfl⟩ | ⟨-, heffect⟩⟩ := o'.next_spec r.1 r.2.operation
  · refine ⟨o'', hnext, ?_⟩
    have hnone : o.ueSliceMap.lookup r.2.rnti = none := by
      rw [← h.ueSliceMap]
      exact AList.lookup_eq_none.mpr (of_decide_eq_true hidle)
    have hsame : ∀ id isDl, reportedRbs o.ueSliceMap (recorded ++ [r]) id isDl =
        reportedRbs o.ueSliceMap recorded id isDl := by
      intro id isDl
      rw [reportedRbs_concat, hnone, if_neg (by simp)]
    constructor
    case ueSliceMap => exact h.ueSliceMap
    case states => exact h.states
    case budgets => exact h.budgets
    case current => simpa only [hsame] using h.current
    case used => simpa only [hsame] using h.used
  · obtain ⟨P, rnti, rbs, bytes, isDl⟩ := r
    cases heffect with
    | @reported _ sliceId _ _ _ hue =>
        refine ⟨_, hnext, ?_⟩
        rw [h.ueSliceMap] at hue
        constructor
        case ueSliceMap => exact h.ueSliceMap
        case states => exact fun id ↦ AList.mem_modify.trans (h.states id)
        case budgets => exact fun id ↦ AList.mem_modify.trans (h.budgets id)
        case current =>
          intro id s hs isDl'
          rw [reportedRbs_concat]
          obtain ⟨s₀, hs₀, ⟨hid, rfl⟩ | ⟨rfl, rfl⟩⟩ := AList.exists_of_lookup_modify hs
          · rw [hue, if_neg fun hboth ↦ hid (Option.some.inj hboth.1).symm]
            exact h.current id _ hs₀ isDl'
          · rw [currentRbs_report]
            by_cases hdir : isDl = isDl'
            · rw [if_pos hdir, if_pos ⟨hue, hdir⟩, List.getLast?_concat, Option.getD_some]
            · rw [if_neg hdir, if_neg fun hboth ↦ hdir hboth.2]
              exact h.current id s₀ hs₀ isDl'
        case used =>
          intro id b hb isDl'
          rw [reportedRbs_concat]
          obtain ⟨b₀, hb₀, ⟨hid, rfl⟩ | ⟨rfl, rfl⟩⟩ := AList.exists_of_lookup_modify hb
          · rw [hue, if_neg fun hboth ↦ hid (Option.some.inj hboth.1).symm]
            exact h.used id _ hb₀ isDl'
          · rw [used_addUsed, h.used id b₀ hb₀ isDl']
            by_cases hdir : isDl = isDl'
            · rw [if_pos hdir, if_pos ⟨hue, hdir⟩, List.sum_append, List.sum_singleton,
                Nat.mod_add_mod]
            · rw [if_neg hdir, if_neg fun hboth ↦ hdir hboth.2]

/-- A slot runs to its end, and all its reports are recorded. -/
theorem exists_recorded (o : SliceOrchestrator D) (P P' : Platform) (timing : FrameTiming)
    (cell : CellContext) (hnum : cell.config.numRbs < 2 ^ 16)
    (reports : List (Platform × Report)) :
    ∃ o', (slotRun P P' timing cell reports).foldlM next o = some o' ∧ Recorded o reports o' := by
  obtain ⟨o₁, hstart, o₂, hbudgets, hnil⟩ := o.recorded_nil P P' timing hnum
  rw [slotRun, List.foldlM_cons, hstart, Option.bind_eq_bind, Option.bind_some, List.foldlM_cons,
    hbudgets, Option.bind_eq_bind, Option.bind_some]
  induction reports using List.reverseRecOn with
  | nil => exact ⟨o₂, rfl, hnil⟩
  | append_singleton reports r ih =>
      obtain ⟨o₃, hrun, hrecorded⟩ := ih
      obtain ⟨o₄, hnext, hrecorded'⟩ := hrecorded.report r
      refine ⟨o₄, ?_, hrecorded'⟩
      rw [List.map_append, List.foldlM_append, hrun, Option.bind_eq_bind, Option.bind_some]
      simpa using hnext

omit [Double D] in
theorem Recorded.usageAgrees_iff (h : Recorded o reports o') :
    o'.UsageAgrees (reportedRbs o.ueSliceMap reports) ↔
      o.LastReportOnly (reportedRbs o.ueSliceMap reports) := by
  constructor
  · intro hagrees id hstate hconfig isDl hsum
    obtain ⟨s, hs⟩ := AList.exists_lookup ((h.states id).mpr (AList.mem_keys.mpr hstate))
    obtain ⟨b, hb⟩ := AList.exists_lookup ((h.budgets id).mpr hconfig)
    obtain ⟨hsame, hused⟩ := hagrees id s b hs hb isDl hsum
    rw [← getLast_eq_sum_iff, ← h.current id s hs isDl, hsame, hused]
  · intro hlast id s b hs hb isDl hsum
    have hstate : id ∈ o.sliceStates :=
      (h.states id).mp (AList.mem_of_lookup hs)
    have hconfig := (h.budgets id).mp (AList.mem_of_lookup hb)
    have hused : b.used isDl = (reportedRbs o.ueSliceMap reports id isDl).sum := by
      rw [h.used id b hb isDl, Nat.mod_eq_of_lt hsum]
    refine ⟨?_, hused⟩
    rw [hused, h.current id s hs isDl]
    exact getLast_eq_sum_iff.mpr (hlast id (AList.mem_keys.mp hstate) hconfig isDl hsum)

/-- The usage of a slot agrees in its two records exactly if no report but the last of a slice
and direction has blocks. -/
theorem usageAgrees_iff_lastReportOnly (o : SliceOrchestrator D) (P P' : Platform)
    (timing : FrameTiming) (cell : CellContext) (hnum : cell.config.numRbs < 2 ^ 16)
    (reports : List (Platform × Report)) :
    ∃ o', (slotRun P P' timing cell reports).foldlM next o = some o' ∧
      (o'.UsageAgrees (reportedRbs o.ueSliceMap reports) ↔
        o.LastReportOnly (reportedRbs o.ueSliceMap reports)) := by
  obtain ⟨o', hrun, hrecorded⟩ := o.exists_recorded P P' timing cell hnum reports
  exact ⟨o', hrun, hrecorded.usageAgrees_iff⟩

/-! ## A slice with two users -/

/-- A slice of five blocks with the users 7 and 8. -/
def twoUsers : SliceOrchestrator ℚ :=
  { create with
    sliceConfigs := AList.insert 1 (.shared 1 5 10 1) ∅
    sliceStates := AList.insert 1 { SliceState.zero with
      sliceId := 1
      active := true
      connectedUes := 2 } ∅
    ueSliceMap := AList.insert 8 1 (AList.insert 7 1 ∅) }

example : [(Platform.plain, Operation.createSlice (.shared 1 5 10 1) .zero),
    (.plain, .associateUe 7 1), (.plain, .associateUe 8 1)].foldlM next create = some twoUsers :=
  rfl

def reportsOf (dl : List (Rnti × ℕ)) : List (Platform × Report) :=
  dl.map fun r ↦ (.plain, ⟨r.1, r.2, 100, true⟩)

instance (o : SliceOrchestrator D) (reported : SliceId → Bool → List ℕ) :
    Decidable (o.LastReportOnly reported) :=
  -- Over the list: the instance for finite types would run through all the identifiers.
  List.decidableBAll _ _

theorem usageAgrees_oneReport :
    ∃ o', (slotRun .plain .plain {} (.create (.fdd 1 10) .cleared)
        (reportsOf [(7, 0), (8, 4)])).foldlM next twoUsers = some o' ∧
      o'.UsageAgrees (reportedRbs twoUsers.ueSliceMap (reportsOf [(7, 0), (8, 4)])) := by
  obtain ⟨o', hrun, hiff⟩ := usageAgrees_iff_lastReportOnly twoUsers .plain .plain {}
    (.create (.fdd 1 10) .cleared) (by decide) (reportsOf [(7, 0), (8, 4)])
  exact ⟨o', hrun, hiff.mpr (by decide)⟩

/-- After reports of three and of four blocks the budget counts seven, and the state four. -/
theorem not_usageAgrees :
    ∃ o', (slotRun .plain .plain {} (.create (.fdd 1 10) .cleared)
        (reportsOf [(7, 3), (8, 4)])).foldlM next twoUsers = some o' ∧
      ¬ o'.UsageAgrees (reportedRbs twoUsers.ueSliceMap (reportsOf [(7, 3), (8, 4)])) := by
  obtain ⟨o', hrun, hrecorded⟩ := twoUsers.exists_recorded .plain .plain {}
    (.create (.fdd 1 10) .cleared) (by decide) (reportsOf [(7, 3), (8, 4)])
  refine ⟨o', hrun, fun h ↦ ?_⟩
  obtain ⟨s, hs⟩ := AList.exists_lookup ((hrecorded.states 1).mpr (by decide))
  obtain ⟨b, hb⟩ := AList.exists_lookup ((hrecorded.budgets 1).mpr (by decide))
  obtain ⟨hsame, hused⟩ := h 1 s b hs hb true (by decide)
  rw [hrecorded.current 1 s hs true, hused] at hsame
  exact absurd hsame (by decide)

end SliceOrchestrator

end NrScheduler
