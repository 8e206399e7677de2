import NrScheduler.Services.BudgetValues

/-!
# The cap of a slice

The second pass respects `max_rbs` through a 16-bit difference, the first one not at all.
A slice keeps to its cap exactly if what it is granted of its guarantee does.
-/

namespace NrScheduler

open LockMonad

namespace SliceOrchestrator

/-- Every budget of a slice with a cap keeps to the cap in both directions. -/
def Capped {D : Type} (o : SliceOrchestrator D) (budgets : Budgets) : Prop :=
  ∀ id config b, o.sliceConfigs.lookup id = some config → budgets.lookup id = some b →
    0 < config.sla.maxRbs → ∀ isDl, b.available isDl ≤ config.sla.maxRbs

/-- Every slice with a cap is granted no more than that of its guarantee, where the slices
visited before have left `left` blocks. -/
def GuaranteesCapped {D : Type} : ℕ → List (Sigma fun _ : SliceId ↦ SliceConfig D) → Prop
  | _, [] => True
  | left, e :: rest =>
      (0 < e.2.sla.maxRbs → min e.2.sla.guaranteedRbs left ≤ e.2.sla.maxRbs) ∧
        GuaranteesCapped (left - e.2.sla.guaranteedRbs) rest

instance decidableGuaranteesCapped {D : Type} :
    ∀ (left : ℕ) (slices : List (Sigma fun _ : SliceId ↦ SliceConfig D)),
      Decidable (GuaranteesCapped left slices)
  | _, [] => isTrue trivial
  | left, e :: rest =>
      have := decidableGuaranteesCapped (left - e.2.sla.guaranteedRbs) rest
      inferInstanceAs (Decidable (_ ∧ _))

theorem guaranteesCapped_iff {D : Type} {slices : List (Sigma fun _ : SliceId ↦ SliceConfig D)}
    {left : ℕ} (hnodup : slices.NodupKeys) : GuaranteesCapped left slices ↔
      ∀ e ∈ slices, 0 < e.2.sla.maxRbs →
        FirstCome.grant left (demands slices) e.1 ≤ e.2.sla.maxRbs := by
  induction slices generalizing left with
  | nil => simp [GuaranteesCapped]
  | cons e rest ih =>
      obtain ⟨hnotin, hrest⟩ := List.nodupKeys_cons.mp hnodup
      have hfirst : FirstCome.grant left (demands (e :: rest)) e.1 =
          min e.2.sla.guaranteedRbs left := if_pos rfl
      have hothers : ∀ e' ∈ rest, FirstCome.grant left (demands (e :: rest)) e'.1 =
          FirstCome.grant (left - e.2.sla.guaranteedRbs) (demands rest) e'.1 := by
        intro e' he'
        refine if_neg fun heq : e'.1 = e.1 ↦ hnotin ?_
        rw [← heq]
        exact List.mem_keys_of_mem he'
      rw [GuaranteesCapped, ih hrest, List.forall_mem_cons, hfirst]
      apply and_congr_right'
      exact forall₂_congr fun e' he' ↦ by rw [hothers e' he']

section Budgets

variable {o : SliceOrchestrator ℚ} {P : Platform} {totalRbs : ℕ} {id : SliceId}
variable {config : SliceConfig ℚ}

theorem share_le_pool (hshares : ∀ id config, o.sliceConfigs.lookup id = some config →
      0 ≤ config.sla.resourceShare) (hpositive : 0 < o.totalShare P)
    (hconfig : o.sliceConfigs.lookup id = some config) (pool : ℕ) :
    Shares.share pool o.shareOf (o.totalShare P) id ≤ pool := by
  have hnonneg : ∀ id ∈ o.sliceConfigs.keys, 0 ≤ o.shareOf id := by
    intro id _
    rw [shareOf]
    cases h : o.sliceConfigs.lookup id with
    | none => exact le_rfl
    | some config => exact hshares id config h
  have hsum : (o.sliceConfigs.keys.map o.shareOf).sum = o.totalShare P :=
    sum_shareOf o.sliceConfigs.keys_nodup fun id ↦ AList.mem_keys.symm
  have hid : id ∈ o.sliceConfigs.keys :=
    AList.mem_keys.mp (AList.mem_of_lookup hconfig)
  refine le_trans ?_ (Shares.sum_share_le hnonneg hpositive hsum.le)
  exact List.single_le_sum (fun _ _ ↦ Nat.zero_le _) _ (List.mem_map_of_mem hid)

/-- The budget exceeds the cap exactly if what is granted of the guarantee does. -/
theorem budgetRbs_le_iff (htotal : totalRbs < 2 ^ 16)
    (hshares : ∀ id config, o.sliceConfigs.lookup id = some config →
      0 ≤ config.sla.resourceShare)
    (hconfig : o.sliceConfigs.lookup id = some config) (hmax : 0 < config.sla.maxRbs) :
    o.budgetRbs P totalRbs id config.sla ≤ config.sla.maxRbs ↔
      FirstCome.grant totalRbs (demands (P.hashOrder o.sliceConfigs.entries)) id ≤
        config.sla.maxRbs := by
  set guarantees := demands (P.hashOrder o.sliceConfigs.entries) with hguarantees
  simp only [budgetRbs, ← hguarantees]
  split
  case isFalse => exact Iff.rfl
  case isTrue h =>
    have hpositive : 0 < o.totalShare P := of_decide_eq_true h.2
    have hmem : (id, config.sla.guaranteedRbs) ∈ guarantees :=
      List.mem_map.mpr ⟨⟨id, config⟩, P.mem_hashOrder.mpr (AList.mem_lookup_iff.mp hconfig), rfl⟩
    have hnodup : (guarantees.map Prod.fst).Nodup := by
      rw [hguarantees, map_fst_demands]
      exact (List.perm_nodupKeys (P.hashOrder_perm _)).mpr o.sliceConfigs.nodupKeys
    have hgranted : FirstCome.grant totalRbs guarantees id ≤ FirstCome.total guarantees :=
      (FirstCome.grant_le_demand hnodup hmem).trans (FirstCome.le_total hmem)
    set granted := FirstCome.grant totalRbs guarantees id
    set pool := totalRbs - FirstCome.total guarantees with hpool
    have hextra : extraRbs config.sla pool (Double.div config.sla.resourceShare (o.totalShare P))
        granted ≤ pool :=
      (extraRbs_le hconfig pool granted).trans (share_le_pool hshares hpositive hconfig pool)
    -- the share is added to what was granted without wrapping around
    rw [extraRbs, if_pos hmax] at hextra ⊢
    generalize (Double.toNat (Double.mul (Double.ofNat pool)
      (Double.div config.sla.resourceShare (o.totalShare P)))) % 2 ^ 16 = share at hextra ⊢
    omega

/-- The budgets of a slot keep to the caps exactly if the guarantees do. -/
theorem capped_iff_guaranteesCapped {o' : SliceOrchestrator ℚ} {cell : CellContext}
    {budgets : Budgets} (hnum : cell.config.numRbs < 2 ^ 16)
    (hshares : ∀ id config, o.sliceConfigs.lookup id = some config →
      0 ≤ config.sla.resourceShare)
    (hcalculate : (o.calculateBudgets P cell).run none = .ok (budgets, o')) :
    o.Capped budgets ↔
      GuaranteesCapped cell.config.numRbs (P.hashOrder o.sliceConfigs.entries) := by
  have hnodup := (List.perm_nodupKeys (P.hashOrder_perm _)).mpr o.sliceConfigs.nodupKeys
  rw [calculateBudgets_run] at hcalculate
  obtain ⟨rfl, -⟩ := Prod.mk.inj (Except.ok.inj hcalculate)
  rw [guaranteesCapped_iff hnodup, currentBudgets_budgeted]
  have hvalue : ∀ id config, o.sliceConfigs.lookup id = some config →
      (o.computeBudgets P cell.config.numRbs).2.2.lookup id =
        some (unusedBudget id (o.budgetRbs P cell.config.numRbs id config.sla)) := by
    intro id config hconfig
    rw [lookup_computeBudgets o P hnum, hconfig, Option.map_some]
  constructor
  · intro h e he hmax
    have hconfig : o.sliceConfigs.lookup e.1 = some e.2 :=
      AList.mem_lookup_iff.mpr (P.mem_hashOrder.mp he)
    exact (budgetRbs_le_iff hnum hshares hconfig hmax).mp
      (h e.1 e.2 _ hconfig (hvalue _ _ hconfig) hmax true)
  · intro h id config b hconfig hb hmax isDl
    obtain rfl := Option.some.inj ((hvalue id config hconfig).symm.trans hb)
    have hmem : ⟨id, config⟩ ∈ P.hashOrder o.sliceConfigs.entries :=
      P.mem_hashOrder.mpr (AList.mem_lookup_iff.mp hconfig)
    have hle := (budgetRbs_le_iff hnum hshares hconfig hmax).mpr (h _ hmem hmax)
    cases isDl <;> exact hle

end Budgets

/-- In every order the guarantees keep to the caps exactly if each does on its own. -/
theorem forall_guaranteesCapped_iff {D : Type} {o : SliceOrchestrator D} {totalRbs : ℕ} :
    (∀ P : Platform, GuaranteesCapped totalRbs (P.hashOrder o.sliceConfigs.entries)) ↔
      ∀ e ∈ o.sliceConfigs.entries, 0 < e.2.sla.maxRbs →
        min e.2.sla.guaranteedRbs totalRbs ≤ e.2.sla.maxRbs := by
  constructor
  · intro h e he
    -- an order in which the slice comes first
    obtain ⟨before, after, hsplit⟩ := List.append_of_mem he
    have hperm : (e :: (before ++ after)).Perm o.sliceConfigs.entries := by
      rw [hsplit]
      exact List.perm_middle.symm
    obtain ⟨P, hP⟩ := Platform.exists_hashOrder_eq .plain hperm
    have hfirst := h P
    rw [hP, GuaranteesCapped] at hfirst
    exact hfirst.1
  · intro h P
    have hall : ∀ e ∈ P.hashOrder o.sliceConfigs.entries, 0 < e.2.sla.maxRbs →
        min e.2.sla.guaranteedRbs totalRbs ≤ e.2.sla.maxRbs :=
      fun e he ↦ h e (P.mem_hashOrder.mp he)
    suffices hleft : ∀ left ≤ totalRbs,
        GuaranteesCapped left (P.hashOrder o.sliceConfigs.entries) from hleft totalRbs le_rfl
    generalize P.hashOrder o.sliceConfigs.entries = slices at hall
    induction slices with
    | nil => exact fun _ _ ↦ trivial
    | cons e rest ih =>
        intro left hle
        refine ⟨fun hmax ↦ ?_, ih (fun e' he' ↦ hall e' (List.mem_cons_of_mem e he')) _
          ((Nat.sub_le _ _).trans hle)⟩
        exact (min_le_min_left _ hle).trans (hall e List.mem_cons_self hmax)

/-! ## A slice that is guaranteed more than its cap -/

/-- One slice with the given guarantee and a cap of ten blocks. -/
def cappedSlice (guaranteedRbs : ℕ) : SliceOrchestrator ℚ :=
  let config : SliceConfig ℚ := .shared 1 guaranteedRbs 10 1
  { create with
    sliceConfigs := AList.insert 1 { config with sla := { config.sla with maxRbs := 10 } } ∅ }

theorem cappedSlice_shares (guaranteedRbs : ℕ) (id : SliceId) (config : SliceConfig ℚ)
    (h : (cappedSlice guaranteedRbs).sliceConfigs.lookup id = some config) :
    0 ≤ config.sla.resourceShare := by
  by_cases hid : id = 1
  · subst hid
    rw [cappedSlice, AList.lookup_insert] at h
    obtain rfl := Option.some.inj h
    exact zero_le_one
  · rw [cappedSlice, AList.lookup_insert_ne hid] at h
    cases h

/-- With five guaranteed blocks of twenty, the share stops at the cap. -/
theorem capped_five : ∃ budgets o',
    ((cappedSlice 5).calculateBudgets .plain (.create (.fdd 1 20) .cleared)).run none =
      .ok (budgets, o') ∧ (cappedSlice 5).Capped budgets := by
  have hcalculate := (cappedSlice 5).calculateBudgets_run .plain (.create (.fdd 1 20) .cleared)
  exact ⟨_, _, hcalculate,
    (capped_iff_guaranteesCapped (by decide) (cappedSlice_shares 5) hcalculate).mpr (by decide)⟩

/-- With fifteen, the slice gets all twenty blocks. -/
theorem not_capped : ∃ budgets o',
    ((cappedSlice 15).calculateBudgets .plain (.create (.fdd 1 20) .cleared)).run none =
      .ok (budgets, o') ∧ ¬ (cappedSlice 15).Capped budgets := by
  refine ⟨_, _, (cappedSlice 15).calculateBudgets_run .plain _, fun h ↦ ?_⟩
  have hbudget : ((cappedSlice 15).budgeted .plain
      (.create (.fdd 1 20) .cleared)).currentBudgets.lookup 1 = some ⟨1, 20, 20, 0, 0, 0⟩ := by
    decide +kernel
  exact absurd (h 1 _ _ (AList.lookup_insert _) hbudget (by decide) true) (by decide)

end SliceOrchestrator

end NrScheduler
