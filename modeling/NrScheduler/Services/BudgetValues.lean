import NrScheduler.Lib.FirstCome
import NrScheduler.Services.BudgetSpec

/-!
# The value of every budget

The two passes in closed form, for any arithmetic of shares: the guarantees are served
first come, first served, in the order in which the slices are visited, and what they leave
is shared.  Both directions get the same.
-/

namespace NrScheduler

namespace SliceOrchestrator

variable {D : Type}

/-! ## The first pass -/

section Guarantees

variable {totalRbs : ℕ} {slices : List (Sigma fun _ : SliceId ↦ SliceConfig D)}
variable {acc : ℕ × ℕ × Budgets} {id : SliceId}

/-- What the slices are guaranteed, in the order in which they are visited. -/
def demands (slices : List (Sigma fun _ : SliceId ↦ SliceConfig D)) : List (SliceId × ℕ) :=
  slices.map fun e ↦ (e.1, e.2.sla.guaranteedRbs)

theorem map_fst_demands (slices : List (Sigma fun _ : SliceId ↦ SliceConfig D)) :
    (demands slices).map Prod.fst = slices.keys := by
  rw [demands, List.map_map]
  rfl

def unusedBudget (id : SliceId) (rbs : ℕ) : SliceResourceBudget where
  sliceId := id
  availableRbsDl := rbs
  availableRbsUl := rbs

/-- Both directions hand out the same in the first pass. -/
theorem guaranteeFold_spec (htotal : totalRbs < 2 ^ 16) (hnodup : slices.NodupKeys) {left : ℕ}
    (hleft : left ≤ totalRbs) (hacc : ∀ isDl, handedOut acc isDl + left = totalRbs) :
    (∀ isDl, handedOut (slices.foldl (guaranteeRound totalRbs) acc) isDl +
      (left - FirstCome.total (demands slices)) = totalRbs) ∧
    ∀ id, (slices.foldl (guaranteeRound totalRbs) acc).2.2.lookup id =
      if id ∈ slices.keys then
        some (unusedBudget id (FirstCome.grant left (demands slices) id))
      else acc.2.2.lookup id := by
  induction slices generalizing acc left with
  | nil => exact ⟨hacc, fun id ↦ rfl⟩
  | cons e rest ih =>
      obtain ⟨hnotin, hrest⟩ := List.nodupKeys_cons.mp hnodup
      have hgiven : ∀ isDl, handOut totalRbs acc e.2.sla.guaranteedRbs isDl =
          min e.2.sla.guaranteedRbs left := by
        intro isDl
        have h := hacc isDl
        rw [handOut_eq htotal (by omega)]
        congr 1
        omega
      have hround : ∀ isDl, handedOut (guaranteeRound totalRbs acc e) isDl +
          (left - e.2.sla.guaranteedRbs) = totalRbs := by
        intro isDl
        have h := hacc isDl
        rw [handedOut_guaranteeRound, hgiven]
        omega
      obtain ⟨hhanded, hlookup⟩ := ih hrest ((Nat.sub_le _ _).trans hleft) hround
      refine ⟨fun isDl ↦ ?_, fun id ↦ ?_⟩
      · have h := hhanded isDl
        rw [Nat.sub_sub] at h
        exact h
      · rw [List.foldl_cons, hlookup, budgets_guaranteeRound]
        by_cases hid : id = e.1
        · subst hid
          have hbudget : newBudget totalRbs acc e.1 e.2.sla.guaranteedRbs =
              unusedBudget e.1 (min e.2.sla.guaranteedRbs left) := by
            rw [newBudget, hgiven, hgiven]
            rfl
          have hgrant : FirstCome.grant left (demands (e :: rest)) e.1 =
              min e.2.sla.guaranteedRbs left := if_pos rfl
          have hmem : e.1 ∈ List.keys (e :: rest) := by
            rw [List.keys_cons]
            exact List.mem_cons_self
          rw [if_neg hnotin, AList.lookup_insert, if_pos hmem, hbudget, hgrant]
        · have hgrant : FirstCome.grant left (demands (e :: rest)) id =
              FirstCome.grant (left - e.2.sla.guaranteedRbs) (demands rest) id := if_neg hid
          have hmem : id ∈ List.keys (e :: rest) ↔ id ∈ rest.keys := by
            rw [List.keys_cons, List.mem_cons, or_iff_right hid]
          rw [AList.lookup_insert_ne hid, hgrant]
          simp only [hmem]

end Guarantees

/-! ## The second pass -/

section Sharing

variable [Double D] {o : SliceOrchestrator D} {poolDl poolUl : ℕ} {share : D}

/-- A budget with its slice's shares of the two pools. -/
def addShares (o : SliceOrchestrator D) (share : D) (poolDl poolUl : ℕ) (id : SliceId)
    (b : SliceResourceBudget) : SliceResourceBudget :=
  match o.sliceConfigs.lookup id with
  | none => b
  | some config =>
      let shareRatio := Double.div config.sla.resourceShare share
      (b.addAvailable true (extraRbs config.sla poolDl shareRatio b.availableRbsDl)).addAvailable
        false (extraRbs config.sla poolUl shareRatio b.availableRbsUl)

theorem shareRound_eq_modify (budgets : Budgets) (id : SliceId) :
    o.shareRound share poolDl poolUl budgets id =
      budgets.modify id (o.addShares share poolDl poolUl id) := by
  rw [shareRound]
  cases hconfig : o.sliceConfigs.lookup id with
  | none =>
      refine (AList.modify_eq_self fun b _ ↦ ?_).symm
      rw [addShares, hconfig]
  | some config =>
      refine congrArg (AList.modify id · budgets) (funext fun b ↦ ?_)
      rw [addShares, hconfig]

/-- Every slice is visited once, and gets its shares then. -/
theorem lookup_sharePass {ids : List SliceId} (hnodup : ids.Nodup) (budgets : Budgets)
    (id : SliceId) :
    (ids.foldl (o.shareRound share poolDl poolUl) budgets).lookup id =
      if id ∈ ids then (budgets.lookup id).map (o.addShares share poolDl poolUl id)
      else budgets.lookup id := by
  induction ids generalizing budgets with
  | nil => exact (if_neg List.not_mem_nil).symm
  | cons id' rest ih =>
      obtain ⟨hnotin, hrest⟩ := List.nodup_cons.mp hnodup
      rw [List.foldl_cons, ih hrest, shareRound_eq_modify, AList.lookup_modify]
      by_cases hid : id = id'
      · subst hid
        rw [if_neg hnotin, if_pos rfl, if_pos List.mem_cons_self]
      · rw [if_neg hid]
        simp only [List.mem_cons, hid, false_or]

end Sharing

/-! ## Both passes -/

section Values

variable [Double D]

/-- The blocks of a slice in either direction: what it is granted of its guarantee, and its
share of what all guarantees leave. -/
def budgetRbs (o : SliceOrchestrator D) (P : Platform) (totalRbs : ℕ) (id : SliceId)
    (sla : SliceSlaConfig D) : ℕ :=
  let guarantees := demands (P.hashOrder o.sliceConfigs.entries)
  let granted := FirstCome.grant totalRbs guarantees id
  let pool := totalRbs - FirstCome.total guarantees
  if 0 < pool ∧ Double.lt (Double.ofNat 0) (o.totalShare P) = true then
    (granted + extraRbs sla pool (Double.div sla.resourceShare (o.totalShare P)) granted) % 2 ^ 16
  else granted

theorem budgetRbs_lt (o : SliceOrchestrator D) (P : Platform) {totalRbs : ℕ}
    (htotal : totalRbs < 2 ^ 16) (id : SliceId) (sla : SliceSlaConfig D) :
    o.budgetRbs P totalRbs id sla < 2 ^ 16 := by
  simp only [budgetRbs]
  split
  · exact Nat.mod_lt _ (Nat.two_pow_pos 16)
  · exact (FirstCome.grant_le _ _ _).trans_lt htotal

/-- Every slice has a budget, and none of it is used. -/
theorem lookup_computeBudgets (o : SliceOrchestrator D) (P : Platform) {totalRbs : ℕ}
    (htotal : totalRbs < 2 ^ 16) (id : SliceId) :
    (o.computeBudgets P totalRbs).2.2.lookup id = (o.sliceConfigs.lookup id).map fun config ↦
      unusedBudget id (o.budgetRbs P totalRbs id config.sla) := by
  have hperm := P.hashOrder_perm o.sliceConfigs.entries
  have hnodup := (List.perm_nodupKeys hperm).mpr o.sliceConfigs.nodupKeys
  have hstart : ∀ isDl, handedOut ((0, 0, ∅) : ℕ × ℕ × Budgets) isDl + totalRbs = totalRbs := by
    intro isDl
    cases isDl <;> exact Nat.zero_add _
  obtain ⟨hhanded, hlookup⟩ := guaranteeFold_spec htotal hnodup le_rfl hstart
  have hpool : ∀ isDl, (totalRbs + 2 ^ 16 - handedOut (o.guaranteePass P totalRbs) isDl) % 2 ^ 16 =
      totalRbs - FirstCome.total (demands (P.hashOrder o.sliceConfigs.entries)) := by
    intro isDl
    have h := hhanded isDl
    rw [guaranteePass]
    omega
  have hkeys : id ∈ (P.hashOrder o.sliceConfigs.entries).keys ↔ id ∈ o.sliceConfigs :=
    (hperm.map Sigma.fst).mem_iff
  have hfirst : (o.guaranteePass P totalRbs).2.2.lookup id =
      (o.sliceConfigs.lookup id).map fun _ ↦ unusedBudget id
        (FirstCome.grant totalRbs (demands (P.hashOrder o.sliceConfigs.entries)) id) := by
    rw [guaranteePass, hlookup]
    cases hconfig : o.sliceConfigs.lookup id with
    | none =>
        rw [if_neg (hkeys.not.mpr (AList.lookup_eq_none.mp hconfig))]
        exact AList.lookup_empty id
    | some config =>
        have hmem : id ∈ o.sliceConfigs := AList.mem_of_lookup hconfig
        rw [if_pos (hkeys.mpr hmem), Option.map_some]
  rw [computeBudgets_eq]
  have hdl := hpool true
  have hul := hpool false
  simp only [handedOut, if_true, Bool.false_eq_true, if_false] at hdl hul
  simp only [hdl, hul, or_self]
  split
  case isTrue h =>
    set g := o.guaranteePass P totalRbs
    have hids : ((P.hashOrder g.2.2.entries).map Sigma.fst).Perm g.2.2.keys :=
      (P.hashOrder_perm _).map _
    rw [lookup_sharePass (hids.nodup_iff.mpr g.2.2.keys_nodup), hfirst]
    cases hconfig : o.sliceConfigs.lookup id with
    | none => simp
    | some config =>
        have hmem : id ∈ (P.hashOrder g.2.2.entries).map Sigma.fst := by
          rw [hids.mem_iff, ← AList.mem_keys, ← AList.lookup_isSome, hfirst, hconfig]
          rfl
        rw [if_pos hmem, Option.map_some, Option.map_some, Option.map_some, addShares, hconfig]
        simp only [budgetRbs, if_pos h]
        rfl
  case isFalse h =>
    rw [hfirst]
    cases o.sliceConfigs.lookup id with
    | none => rfl
    | some config => simp only [Option.map_some, budgetRbs, if_neg h]

end Values

end SliceOrchestrator

end NrScheduler
