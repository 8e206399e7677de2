import NrScheduler.Services.BudgetValues
import Mathlib.Data.List.Perm.Basic

/-!
# Budgets and the order of the hash maps

The guarantees are served first come, first served, in the order in which a hash map is
visited.  With exact shares the budgets depend on that order exactly where the guarantees
exceed the cell and more than one slice has any.
-/

namespace NrScheduler

open LockMonad

namespace SliceOrchestrator

variable {o : SliceOrchestrator ℚ} {totalRbs : ℕ}

/-- The budgets of a slot, slice by slice, do not depend on the platform. -/
def HashOrderFree (o : SliceOrchestrator ℚ) (cell : CellContext) : Prop :=
  ∀ (P P' : Platform) (budgets budgets' : Budgets) (o₁ o₁' : SliceOrchestrator ℚ),
    (o.calculateBudgets P cell).run none = .ok (budgets, o₁) →
    (o.calculateBudgets P' cell).run none = .ok (budgets', o₁') →
    ∀ id, budgets.lookup id = budgets'.lookup id

/-- The guarantees fit the cell, or there is nothing to hand out, or at most one slice has a
guarantee. -/
def GuaranteesUncontended (o : SliceOrchestrator ℚ) (totalRbs : ℕ) : Prop :=
  (o.sliceConfigs.sumOf fun config ↦ config.sla.guaranteedRbs) ≤ totalRbs ∨ totalRbs = 0 ∨
    ∀ e ∈ o.sliceConfigs.entries, ∀ e' ∈ o.sliceConfigs.entries,
      0 < e.2.sla.guaranteedRbs → 0 < e'.2.sla.guaranteedRbs → e.1 = e'.1

/-- On every platform a slice gets what those that are visited before it leave of the cell, up
to its own guarantee. -/
def ServedInOrder (o : SliceOrchestrator ℚ) (cell : CellContext) : Prop :=
  ∀ (P : Platform) (budgets : Budgets) (o₁ : SliceOrchestrator ℚ),
    (o.calculateBudgets P cell).run none = .ok (budgets, o₁) →
    ∀ before e after, P.hashOrder o.sliceConfigs.entries = before ++ e :: after →
      ∃ b, budgets.lookup e.1 = some b ∧ ∀ isDl, b.available isDl =
        min e.2.sla.guaranteedRbs (cell.config.numRbs - guaranteedSum before)

theorem total_demands_eq (slices : List (Sigma fun _ : SliceId ↦ SliceConfig ℚ)) :
    FirstCome.total (demands slices) = guaranteedSum slices := by
  rw [FirstCome.total, demands, List.map_map]
  rfl

theorem total_demands (o : SliceOrchestrator ℚ) (P : Platform) :
    FirstCome.total (demands (P.hashOrder o.sliceConfigs.entries)) =
      o.sliceConfigs.sumOf fun config ↦ config.sla.guaranteedRbs := by
  rw [total_demands_eq]
  exact ((P.hashOrder_perm _).map _).sum_eq

theorem totalShare_perm (o : SliceOrchestrator ℚ) (P P' : Platform) :
    o.totalShare P = o.totalShare P' := by
  rw [totalShare_eq, totalShare_eq]
  exact (((P.hashOrder_perm _).trans (P'.hashOrder_perm _).symm).map _).sum_eq

/-- The same grants give the same budgets. -/
theorem budgetRbs_congr {P P' : Platform} {id : SliceId}
    (h : FirstCome.grant totalRbs (demands (P.hashOrder o.sliceConfigs.entries)) id =
      FirstCome.grant totalRbs (demands (P'.hashOrder o.sliceConfigs.entries)) id)
    (sla : SliceSlaConfig ℚ) : o.budgetRbs P totalRbs id sla = o.budgetRbs P' totalRbs id sla := by
  simp only [budgetRbs, h, total_demands, o.totalShare_perm P P']

/-- Where the guarantees exceed the cell, nothing is left to share. -/
theorem budgetRbs_of_exceeding (P : Platform)
    (hlt : totalRbs < o.sliceConfigs.sumOf fun config ↦ config.sla.guaranteedRbs) (id : SliceId)
    (sla : SliceSlaConfig ℚ) : o.budgetRbs P totalRbs id sla =
      FirstCome.grant totalRbs (demands (P.hashOrder o.sliceConfigs.entries)) id := by
  simp only [budgetRbs, total_demands]
  rw [if_neg]
  intro h
  omega

theorem demands_nodup (o : SliceOrchestrator ℚ) :
    ((demands o.sliceConfigs.entries).map Prod.fst).Nodup := by
  rw [map_fst_demands]
  exact o.sliceConfigs.keys_nodup

/-- The order of the slices matters for what they are granted as that of their demands does. -/
theorem forall_grant_iff : (∀ (P : Platform) (id : SliceId),
      FirstCome.grant totalRbs (demands (P.hashOrder o.sliceConfigs.entries)) id =
        FirstCome.grant totalRbs (demands o.sliceConfigs.entries) id) ↔
      o.GuaranteesUncontended totalRbs := by
  have hsole : (∀ a n b m, (a, n) ∈ demands o.sliceConfigs.entries →
        (b, m) ∈ demands o.sliceConfigs.entries → 0 < n → 0 < m → a = b) ↔
      ∀ e ∈ o.sliceConfigs.entries, ∀ e' ∈ o.sliceConfigs.entries,
        0 < e.2.sla.guaranteedRbs → 0 < e'.2.sla.guaranteedRbs → e.1 = e'.1 := by
    constructor
    · intro h e he e' he'
      exact h _ _ _ _ (List.mem_map_of_mem he) (List.mem_map_of_mem he')
    · intro h a n b m ha hb
      obtain ⟨e, he, heq⟩ := List.mem_map.mp ha
      obtain ⟨e', he', heq'⟩ := List.mem_map.mp hb
      cases heq
      cases heq'
      exact h e he e' he'
  have htotal : FirstCome.total (demands o.sliceConfigs.entries) =
      o.sliceConfigs.sumOf fun config ↦ config.sla.guaranteedRbs := total_demands o .plain
  rw [GuaranteesUncontended, ← hsole, ← htotal, ← FirstCome.grant_perm_iff o.demands_nodup]
  constructor
  · intro h demands' hperm id
    -- every order of the demands is that of some platform
    have hcomp : Relation.Comp
        (· = List.map
          (fun e : Sigma fun _ : SliceId ↦ SliceConfig ℚ ↦ (e.1, e.2.sla.guaranteedRbs)) ·)
        List.Perm demands' o.sliceConfigs.entries := by
      rw [List.eq_map_comp_perm]
      exact hperm
    obtain ⟨slices, rfl, hslices⟩ := hcomp
    obtain ⟨P, hP⟩ := Platform.exists_hashOrder_eq .plain hslices
    have hgrant := h P id
    rwa [hP] at hgrant
  · intro h P id
    exact h _ ((P.hashOrder_perm _).map _) id

/-- A slice is granted what those that are visited before it leave. -/
theorem grant_of_hashOrder {P : Platform}
    {before after : List (Sigma fun _ : SliceId ↦ SliceConfig ℚ)}
    {e : Sigma fun _ : SliceId ↦ SliceConfig ℚ}
    (horder : P.hashOrder o.sliceConfigs.entries = before ++ e :: after) :
    FirstCome.grant totalRbs (demands (P.hashOrder o.sliceConfigs.entries)) e.1 =
      min e.2.sla.guaranteedRbs (totalRbs - guaranteedSum before) := by
  have hkeys := (List.perm_nodupKeys (P.hashOrder_perm _)).mpr o.sliceConfigs.nodupKeys
  rw [horder, List.NodupKeys, List.keys, List.map_append, List.map_cons] at hkeys
  have hnotin : e.1 ∉ (demands before).map Prod.fst := by
    rw [map_fst_demands]
    exact fun hbefore ↦ (List.nodup_append.mp hkeys).2.2 _ hbefore _ List.mem_cons_self rfl
  rw [horder, demands, List.map_append, List.map_cons, ← total_demands_eq]
  exact FirstCome.grant_append hnotin

/-- Guarantees that exceed the cell are served first come, first served. -/
theorem servedInOrder_of_exceeding {cell : CellContext} (hnum : cell.config.numRbs < 2 ^ 16)
    (hlt : cell.config.numRbs < o.sliceConfigs.sumOf fun config ↦ config.sla.guaranteedRbs) :
    o.ServedInOrder cell := by
  intro P budgets o₁ hcalculate before e after horder
  rw [calculateBudgets_run] at hcalculate
  obtain ⟨rfl, -⟩ := Prod.mk.inj (Except.ok.inj hcalculate)
  have hmem : e ∈ o.sliceConfigs.entries := by
    rw [← (P.hashOrder_perm o.sliceConfigs.entries).mem_iff, horder]
    exact List.mem_append_right _ List.mem_cons_self
  have hconfig : o.sliceConfigs.lookup e.1 = some e.2 := AList.mem_lookup_iff.mpr hmem
  refine ⟨unusedBudget e.1 (o.budgetRbs P cell.config.numRbs e.1 e.2.sla), ?_, ?_⟩
  · rw [currentBudgets_budgeted, lookup_computeBudgets o P hnum, hconfig, Option.map_some]
  · intro isDl
    rw [budgetRbs_of_exceeding P hlt, grant_of_hashOrder horder]
    cases isDl <;> rfl

/-- The budgets of a slot do not depend on the order of the hash maps exactly if the
guarantees of the slices do not contend.  Those that exceed the cell are served in that
order. -/
theorem hashOrderFree_iff {cell : CellContext} (hnum : cell.config.numRbs < 2 ^ 16) :
    (o.HashOrderFree cell ↔ o.GuaranteesUncontended cell.config.numRbs) ∧
      (cell.config.numRbs < (o.sliceConfigs.sumOf fun config ↦ config.sla.guaranteedRbs) →
        o.ServedInOrder cell) := by
  refine ⟨?_, servedInOrder_of_exceeding hnum⟩
  have hvalue : ∀ P id, (o.budgeted P cell).currentBudgets.lookup id =
      (o.sliceConfigs.lookup id).map fun config ↦
        unusedBudget id (o.budgetRbs P cell.config.numRbs id config.sla) := by
    intro P id
    rw [currentBudgets_budgeted, lookup_computeBudgets o P hnum]
  rw [← forall_grant_iff]
  constructor
  · intro h P id
    by_cases hfits : (o.sliceConfigs.sumOf fun config ↦ config.sla.guaranteedRbs) ≤
        cell.config.numRbs
    · exact forall_grant_iff.mpr (Or.inl hfits) P id
    have hlt := not_le.mp hfits
    have hsame := h P .plain _ _ _ _ (o.calculateBudgets_run P cell)
      (o.calculateBudgets_run .plain cell) id
    rw [hvalue, hvalue] at hsame
    cases hconfig : o.sliceConfigs.lookup id with
    | none =>
        have hnone : ∀ P : Platform,
            id ∉ (demands (P.hashOrder o.sliceConfigs.entries)).map Prod.fst := by
          intro P
          rw [map_fst_demands]
          exact ((P.hashOrder_perm _).map Sigma.fst).mem_iff.not.mpr
            (AList.lookup_eq_none.mp hconfig)
        rw [FirstCome.grant_of_notMem (hnone P)]
        exact (FirstCome.grant_of_notMem (hnone .plain)).symm
    | some config =>
        rw [hconfig, Option.map_some, Option.map_some, budgetRbs_of_exceeding P hlt,
          budgetRbs_of_exceeding .plain hlt] at hsame
        exact congrArg SliceResourceBudget.availableRbsDl (Option.some.inj hsame)
  · intro h P P' budgets budgets' o₁ o₁' hcalculate hcalculate' id
    rw [calculateBudgets_run] at hcalculate hcalculate'
    obtain ⟨rfl, -⟩ := Prod.mk.inj (Except.ok.inj hcalculate)
    obtain ⟨rfl, -⟩ := Prod.mk.inj (Except.ok.inj hcalculate')
    rw [hvalue, hvalue]
    simp only [budgetRbs_congr ((h P id).trans (h P' id).symm)]

/-! ## Two slices -/

/-- Two slices that are each guaranteed eight blocks. -/
def twoGuarantees : SliceOrchestrator ℚ :=
  { create with sliceConfigs := (AList.insert 2 (.shared 2 8 200 1) ∅).insert 1 (.shared 1 8 10 1) }

/-- Sixteen blocks are enough for both, and ten are given to them in their order. -/
theorem hashOrderFree_sixteenBlocks :
    twoGuarantees.HashOrderFree (.create (.fdd 1 16) .cleared) ∧
      twoGuarantees.ServedInOrder (.create (.fdd 1 10) .cleared) :=
  ⟨(hashOrderFree_iff (by decide)).1.mpr (Or.inl (by decide)),
    (hashOrderFree_iff (by decide)).2 (by decide)⟩

/-- In a cell of ten blocks the slice that is visited first gets eight. -/
theorem not_hashOrderFree : ¬ twoGuarantees.HashOrderFree (.create (.fdd 1 10) .cleared) := by
  intro h
  have hsame := h .plain { Platform.plain with
      hashOrder := List.reverse
      hashOrder_perm := List.reverse_perm } _ _ _ _
    (twoGuarantees.calculateBudgets_run _ _) (twoGuarantees.calculateBudgets_run _ _) 1
  revert hsame
  decide +kernel

end SliceOrchestrator

end NrScheduler
