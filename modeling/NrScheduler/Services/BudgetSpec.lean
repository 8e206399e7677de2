import NrScheduler.Lib.Shares
import NrScheduler.Services.OrchestratorSpec
import Mathlib.Data.List.Induction

/-!
# The budgets of a slot

The first pass hands out what the slices are guaranteed, the second one shares the rest.
With exact arithmetic the two passes hand out no more than the cell has, and no 16-bit sum
wraps around.
-/

namespace NrScheduler

namespace SliceResourceBudget

variable (b : SliceResourceBudget) (isDl isDl' : Bool) (rbs : ℕ)

@[simp] theorem used_addAvailable : (b.addAvailable isDl rbs).used isDl' = b.used isDl' := by
  cases isDl <;> cases isDl' <;> rfl

@[simp] theorem available_addAvailable_self :
    (b.addAvailable isDl rbs).available isDl = (b.available isDl + rbs) % 2 ^ 16 := by
  cases isDl <;> rfl

@[simp] theorem available_addAvailable_not :
    (b.addAvailable isDl rbs).available (!isDl) = b.available (!isDl) := by
  cases isDl <;> rfl

@[simp] theorem available_addUsed : (b.addUsed isDl rbs).available isDl' = b.available isDl' := by
  cases isDl <;> cases isDl' <;> rfl

@[simp] theorem used_addUsed_self :
    (b.addUsed isDl rbs).used isDl = (b.used isDl + rbs) % 2 ^ 16 := by
  cases isDl <;> rfl

@[simp] theorem used_addUsed_not : (b.addUsed isDl rbs).used (!isDl) = b.used (!isDl) := by
  cases isDl <;> rfl

@[simp] theorem available_addBorrowed (n : ℤ) :
    (b.addBorrowed n).available isDl = b.available isDl := rfl

@[simp] theorem used_addBorrowed (n : ℤ) : (b.addBorrowed n).used isDl = b.used isDl := rfl

end SliceResourceBudget

namespace SliceOrchestrator

abbrev Budgets := AList fun _ : SliceId ↦ SliceResourceBudget

def availableSum (budgets : Budgets) (isDl : Bool) : ℕ := budgets.sumOf (·.available isDl)

/-! ## The first pass -/

section Guarantees

variable {D : Type} {totalRbs : ℕ}

def handedOut (acc : ℕ × ℕ × Budgets) (isDl : Bool) : ℕ := if isDl then acc.1 else acc.2.1

def guaranteedSum (slices : List (Sigma fun _ : SliceId ↦ SliceConfig D)) : ℕ :=
  (slices.map fun e ↦ e.2.sla.guaranteedRbs).sum

/-- What the first pass has done for the slices visited so far. -/
structure Guaranteed (totalRbs : ℕ) (slices : List (Sigma fun _ : SliceId ↦ SliceConfig D))
    (acc : ℕ × ℕ × Budgets) : Prop where
  keys : ∀ id, id ∈ acc.2.2 ↔ id ∈ slices.keys
  sum : ∀ isDl, availableSum acc.2.2 isDl = handedOut acc isDl
  le : ∀ isDl, handedOut acc isDl ≤ totalRbs
  unused : ∀ id b, acc.2.2.lookup id = some b → ∀ isDl, b.used isDl = 0
  honoured : guaranteedSum slices ≤ totalRbs →
    (∀ isDl, handedOut acc isDl = guaranteedSum slices) ∧
    ∀ e ∈ slices, ∀ b, acc.2.2.lookup e.1 = some b →
      ∀ isDl, b.available isDl = e.2.sla.guaranteedRbs

theorem guaranteed_nil : Guaranteed (D := D) totalRbs [] (0, 0, ∅) where
  keys id := by simp
  sum isDl := by cases isDl <;> rfl
  le isDl := by cases isDl <;> exact Nat.zero_le _
  unused id b h := by simp at h
  honoured _ := ⟨fun isDl ↦ by cases isDl <;> rfl, by simp⟩

def handOut (totalRbs : ℕ) (acc : ℕ × ℕ × Budgets) (guaranteedRbs : ℕ) (isDl : Bool) : ℕ :=
  min guaranteedRbs ((totalRbs + 2 ^ 16 - handedOut acc isDl) % 2 ^ 16)

theorem handOut_eq (htotal : totalRbs < 2 ^ 16) {acc : ℕ × ℕ × Budgets} {isDl : Bool}
    (hle : handedOut acc isDl ≤ totalRbs) (guaranteedRbs : ℕ) :
    handOut totalRbs acc guaranteedRbs isDl =
      min guaranteedRbs (totalRbs - handedOut acc isDl) := by
  rw [handOut]
  congr 1
  omega

def newBudget (totalRbs : ℕ) (acc : ℕ × ℕ × Budgets) (id : SliceId) (guaranteedRbs : ℕ) :
    SliceResourceBudget where
  sliceId := id
  availableRbsDl := handOut totalRbs acc guaranteedRbs true
  availableRbsUl := handOut totalRbs acc guaranteedRbs false

theorem available_newBudget (acc : ℕ × ℕ × Budgets) (id : SliceId) (guaranteedRbs : ℕ)
    (isDl : Bool) : (newBudget totalRbs acc id guaranteedRbs).available isDl =
      handOut totalRbs acc guaranteedRbs isDl := by
  cases isDl <;> simp [newBudget, SliceResourceBudget.available]

variable {slices : List (Sigma fun _ : SliceId ↦ SliceConfig D)} {acc : ℕ × ℕ × Budgets}
variable {e : Sigma fun _ : SliceId ↦ SliceConfig D}

theorem budgets_guaranteeRound : (guaranteeRound totalRbs acc e).2.2 =
    acc.2.2.insert e.1 (newBudget totalRbs acc e.1 e.2.sla.guaranteedRbs) := rfl

theorem handedOut_guaranteeRound (isDl : Bool) :
    handedOut (guaranteeRound totalRbs acc e) isDl =
      (handedOut acc isDl + handOut totalRbs acc e.2.sla.guaranteedRbs isDl) % 2 ^ 16 := by
  cases isDl <;> rfl

theorem Guaranteed.round (htotal : totalRbs < 2 ^ 16) (h : Guaranteed totalRbs slices acc)
    (hnew : e.1 ∉ slices.keys) :
    Guaranteed totalRbs (slices ++ [e]) (guaranteeRound totalRbs acc e) := by
  have hfresh : e.1 ∉ acc.2.2 := fun hmem ↦ hnew ((h.keys e.1).mp hmem)
  have hhand := fun isDl ↦ handOut_eq htotal (h.le isDl) e.2.sla.guaranteedRbs
  have hhanded : ∀ isDl, handedOut (guaranteeRound totalRbs acc e) isDl =
      handedOut acc isDl + handOut totalRbs acc e.2.sla.guaranteedRbs isDl := by
    intro isDl
    have hle := h.le isDl
    rw [handedOut_guaranteeRound, hhand]
    omega
  constructor
  · intro id
    simp [budgets_guaranteeRound, h.keys, List.keys, or_comm]
  · intro isDl
    have hsum := h.sum isDl
    rw [availableSum] at hsum
    rw [availableSum, budgets_guaranteeRound, AList.sumOf_insert_of_notMem hfresh,
      available_newBudget, hsum, hhanded]
  · intro isDl
    have hle := h.le isDl
    rw [hhanded, hhand]
    omega
  · intro id b hb isDl
    rw [budgets_guaranteeRound] at hb
    by_cases hid : id = e.1
    · subst hid
      rw [AList.lookup_insert] at hb
      obtain rfl := Option.some.inj hb
      cases isDl <;> rfl
    · rw [AList.lookup_insert_ne hid] at hb
      exact h.unused id b hb isDl
  · intro hfits
    have hsum : guaranteedSum (slices ++ [e]) =
        guaranteedSum slices + e.2.sla.guaranteedRbs := by
      simp [guaranteedSum]
    obtain ⟨hhanded₀, hhonoured⟩ := h.honoured (by omega)
    have hgiven : ∀ isDl, handOut totalRbs acc e.2.sla.guaranteedRbs isDl =
        e.2.sla.guaranteedRbs := by
      intro isDl
      rw [hhand, hhanded₀]
      omega
    refine ⟨fun isDl ↦ by rw [hhanded, hhanded₀, hgiven, hsum], fun e' he' b hb isDl ↦ ?_⟩
    rw [budgets_guaranteeRound] at hb
    rcases List.mem_append.mp he' with he' | he'
    · have hne : e'.1 ≠ e.1 := fun heq ↦ hnew (heq ▸ List.mem_keys_of_mem he')
      rw [AList.lookup_insert_ne hne] at hb
      exact hhonoured e' he' b hb isDl
    · obtain rfl := List.mem_singleton.mp he'
      rw [AList.lookup_insert] at hb
      obtain rfl := Option.some.inj hb
      rw [available_newBudget, hgiven]

theorem guaranteed_foldl (htotal : totalRbs < 2 ^ 16) (hnodup : slices.NodupKeys) :
    Guaranteed totalRbs slices (slices.foldl (guaranteeRound totalRbs) (0, 0, ∅)) := by
  induction slices using List.reverseRecOn with
  | nil => exact guaranteed_nil
  | append_singleton slices e ih =>
      have hkeys : (slices.keys ++ [e.1]).Nodup := by
        have hkeys := hnodup
        rwa [List.NodupKeys, List.keys, List.map_append] at hkeys
      obtain ⟨hslices, -, hdisjoint⟩ := List.nodup_append.mp hkeys
      rw [List.foldl_append, List.foldl_cons, List.foldl_nil]
      refine (ih hslices).round htotal fun hmem ↦ ?_
      exact hdisjoint e.1 hmem e.1 (List.mem_singleton_self e.1) rfl

end Guarantees

/-! ## The second pass -/

section Sharing

variable {o : SliceOrchestrator ℚ} {totalRbs poolDl poolUl : ℕ} {total : ℚ}

/-- The share of a slice; one that is not configured has none. -/
def shareOf (o : SliceOrchestrator ℚ) (id : SliceId) : ℚ :=
  ((o.sliceConfigs.lookup id).map fun config ↦ config.sla.resourceShare).getD 0

def poolOf (poolDl poolUl : ℕ) (isDl : Bool) : ℕ := if isDl then poolDl else poolUl

theorem extraRbs_le {config : SliceConfig ℚ} {id : SliceId}
    (h : o.sliceConfigs.lookup id = some config) (pool available : ℕ) :
    extraRbs config.sla pool (Double.div config.sla.resourceShare total) available ≤
      Shares.share pool o.shareOf total id := by
  have hshare : Shares.share pool o.shareOf total id =
      Double.toNat (Double.mul (Double.ofNat pool : ℚ)
        (Double.div config.sla.resourceShare total)) := by
    rw [Shares.share, shareOf, h]
    rfl
  rw [extraRbs, hshare]
  split
  · exact (Nat.min_le_left _ _).trans (Nat.mod_le _ _)
  · exact Nat.mod_le _ _

/-- Every budget is still there, with at least as many blocks and as few of them used. -/
def Grown (budgets budgets' : Budgets) : Prop :=
  ∀ id b, budgets.lookup id = some b → ∃ b', budgets'.lookup id = some b' ∧
    ∀ isDl, b.available isDl ≤ b'.available isDl ∧ b'.used isDl = b.used isDl

theorem Grown.refl (budgets : Budgets) : Grown budgets budgets :=
  fun _ b hb ↦ ⟨b, hb, fun _ ↦ ⟨le_rfl, rfl⟩⟩

theorem Grown.trans {budgets₁ budgets₂ budgets₃ : Budgets} (h₁ : Grown budgets₁ budgets₂)
    (h₂ : Grown budgets₂ budgets₃) : Grown budgets₁ budgets₃ := by
  intro id b hb
  obtain ⟨b₂, hb₂, hle₂⟩ := h₁ id b hb
  obtain ⟨b₃, hb₃, hle₃⟩ := h₂ id b₂ hb₂
  exact ⟨b₃, hb₃, fun isDl ↦
    ⟨(hle₂ isDl).1.trans (hle₃ isDl).1, (hle₃ isDl).2.trans (hle₂ isDl).2⟩⟩

theorem Grown.modify {budgets : Budgets} {id : SliceId} {b : SliceResourceBudget}
    {f : SliceResourceBudget → SliceResourceBudget} (hb : budgets.lookup id = some b)
    (hf : ∀ isDl, b.available isDl ≤ (f b).available isDl ∧ (f b).used isDl = b.used isDl) :
    Grown budgets (budgets.modify id f) := by
  intro id' b' hb'
  rw [AList.lookup_modify]
  by_cases hid : id' = id
  · subst hid
    obtain rfl := Option.some.inj (hb.symm.trans hb')
    exact ⟨f b, by simp [hb], hf⟩
  · exact ⟨b', by rw [if_neg hid, hb'], fun _ ↦ ⟨le_rfl, rfl⟩⟩

theorem Grown.exists_lookup {budgets budgets' : Budgets} (h : Grown budgets budgets')
    (hkeys : ∀ id, id ∈ budgets ↔ id ∈ budgets') {id : SliceId} {b' : SliceResourceBudget}
    (hb' : budgets'.lookup id = some b') : ∃ b, budgets.lookup id = some b ∧
      ∀ isDl, b.available isDl ≤ b'.available isDl ∧ b'.used isDl = b.used isDl := by
  have hmem : id ∈ budgets := (hkeys id).mpr (AList.mem_of_lookup hb')
  obtain ⟨b, hb⟩ := AList.exists_lookup hmem
  obtain ⟨b'', hb'', hle⟩ := h id b hb
  obtain rfl := Option.some.inj (hb'.symm.trans hb'')
  exact ⟨b, hb, hle⟩

/-- A round that cannot wrap around adds a part of the pool to one budget. -/
theorem shareRound_spec {budgets : Budgets} {id : SliceId}
    (hfits : ∀ isDl, availableSum budgets isDl +
      Shares.share (poolOf poolDl poolUl isDl) o.shareOf total id < 2 ^ 16) :
    (∀ isDl, availableSum (o.shareRound total poolDl poolUl budgets id) isDl ≤
      availableSum budgets isDl + Shares.share (poolOf poolDl poolUl isDl) o.shareOf total id) ∧
      Grown budgets (o.shareRound total poolDl poolUl budgets id) := by
  rw [shareRound]
  cases hconfig : o.sliceConfigs.lookup id with
  | none => exact ⟨fun isDl ↦ Nat.le_add_right _ _, .refl budgets⟩
  | some config =>
      cases hb : budgets.lookup id with
      | none =>
          simp only [AList.modify_of_notMem (AList.lookup_eq_none.mp hb)]
          exact ⟨fun isDl ↦ Nat.le_add_right _ _, .refl budgets⟩
      | some b =>
          dsimp only
          set f := fun b : SliceResourceBudget ↦ (b.addAvailable true (extraRbs config.sla poolDl
            (Double.div config.sla.resourceShare total) b.availableRbsDl)).addAvailable false
              (extraRbs config.sla poolUl (Double.div config.sla.resourceShare total)
                b.availableRbsUl) with hf
          have hbudget : ∀ isDl, b.available isDl ≤ (f b).available isDl ∧
              (f b).available isDl ≤ b.available isDl +
                Shares.share (poolOf poolDl poolUl isDl) o.shareOf total id := by
            intro isDl
            have hextra := @extraRbs_le o total config id hconfig (poolOf poolDl poolUl isDl)
              (b.available isDl)
            have hb' : b.available isDl ≤ availableSum budgets isDl := 
              AList.le_sumOf (f := (·.available isDl)) hb
            have hlt := hfits isDl
            have havailable : (f b).available isDl = (b.available isDl +
                extraRbs config.sla (poolOf poolDl poolUl isDl)
                  (Double.div config.sla.resourceShare total) (b.available isDl)) % 2 ^ 16 := by
              cases isDl <;> rfl
            rw [havailable]
            omega
          have hused : ∀ isDl, (f b).used isDl = b.used isDl := by simp [hf]
          refine ⟨fun isDl ↦ ?_, .modify hb fun isDl ↦ ⟨(hbudget isDl).1, hused isDl⟩⟩
          have hsum := AList.sumOf_modify hb f (·.available isDl)
          have hle := (hbudget isDl).2
          simp only [availableSum]
          omega

/-- The second pass hands out no more than the shares of the pool, and takes nothing away. -/
theorem sharePass_spec {budgets : Budgets} {ids : List SliceId} (htotal : totalRbs < 2 ^ 16)
    (hfits : ∀ isDl, availableSum budgets isDl +
      (ids.map (Shares.share (poolOf poolDl poolUl isDl) o.shareOf total)).sum ≤ totalRbs) :
    (∀ isDl, availableSum (ids.foldl (o.shareRound total poolDl poolUl) budgets) isDl ≤
      totalRbs) ∧ Grown budgets (ids.foldl (o.shareRound total poolDl poolUl) budgets) := by
  induction ids generalizing budgets with
  | nil => exact ⟨hfits, .refl budgets⟩
  | cons id ids ih =>
      simp only [List.map_cons, List.sum_cons] at hfits
      obtain ⟨hround, hgrown⟩ := @shareRound_spec o poolDl poolUl total budgets id fun isDl ↦ by
        have := hfits isDl
        omega
      obtain ⟨hrest, hgrown'⟩ := @ih (o.shareRound total poolDl poolUl budgets id) fun isDl ↦ by
        have := hround isDl
        have := hfits isDl
        omega
      exact ⟨hrest, hgrown.trans hgrown'⟩

/-! ## Both passes -/

theorem totalShare_eq (o : SliceOrchestrator ℚ) (P : Platform) : o.totalShare P =
    ((P.hashOrder o.sliceConfigs.entries).map fun e ↦ e.2.sla.resourceShare).sum := by
  have hfold : ∀ (l : List (Sigma fun _ : SliceId ↦ SliceConfig ℚ)) (a : ℚ),
      l.foldl (fun sum e ↦ Double.add sum e.2.sla.resourceShare) a =
        a + (l.map fun e ↦ e.2.sla.resourceShare).sum := by
    intro l
    induction l with
    | nil => simp
    | cons e l ih =>
        intro a
        rw [List.foldl_cons, ih, List.map_cons, List.sum_cons, ← add_assoc]
        rfl
  rw [totalShare, hfold]
  exact (congrArg (· + _) Nat.cast_zero).trans (zero_add _)

theorem sum_shareOf {P : Platform} {ids : List SliceId} (hnodup : ids.Nodup)
    (hids : ∀ id, id ∈ ids ↔ id ∈ o.sliceConfigs) : (ids.map o.shareOf).sum = o.totalShare P := by
  have hperm : ids.Perm ((P.hashOrder o.sliceConfigs.entries).map Sigma.fst) := by
    have hkeys : ((P.hashOrder o.sliceConfigs.entries).map Sigma.fst).Perm o.sliceConfigs.keys :=
      (P.hashOrder_perm _).map _
    refine (List.perm_ext_iff_of_nodup hnodup ?_).mpr fun id ↦ ?_
    · exact hkeys.nodup_iff.mpr o.sliceConfigs.keys_nodup
    · rw [hids, hkeys.mem_iff, AList.mem_keys]
  rw [totalShare_eq, (hperm.map o.shareOf).sum_eq, List.map_map]
  refine congrArg List.sum (List.map_congr_left fun e he ↦ ?_)
  have hlookup : o.sliceConfigs.lookup e.1 = some e.2 :=
    AList.mem_lookup_iff.mpr (P.mem_hashOrder.mp he)
  rw [Function.comp_apply, shareOf, hlookup]
  rfl

/-- Budgets that fit a cell of `totalRbs` blocks. -/
structure BudgetsFit (o : SliceOrchestrator ℚ) (totalRbs : ℕ) (budgets : Budgets) : Prop where
  keys : ∀ id, id ∈ budgets ↔ id ∈ o.sliceConfigs
  fits : ∀ isDl, availableSum budgets isDl ≤ totalRbs
  unused : ∀ id b, budgets.lookup id = some b → ∀ isDl, b.used isDl = 0
  honoured : (o.sliceConfigs.sumOf fun config ↦ config.sla.guaranteedRbs) ≤ totalRbs →
    ∀ id config b, o.sliceConfigs.lookup id = some config → budgets.lookup id = some b →
      ∀ isDl, config.sla.guaranteedRbs ≤ b.available isDl

theorem budgetsFit_guaranteePass (o : SliceOrchestrator ℚ) (P : Platform)
    (htotal : totalRbs < 2 ^ 16) :
    o.BudgetsFit totalRbs (o.guaranteePass P totalRbs).2.2 ∧
      ∀ isDl, availableSum (o.guaranteePass P totalRbs).2.2 isDl =
        handedOut (o.guaranteePass P totalRbs) isDl := by
  have hperm := P.hashOrder_perm o.sliceConfigs.entries
  have h := guaranteed_foldl htotal ((List.perm_nodupKeys hperm).mpr o.sliceConfigs.nodupKeys)
  refine ⟨⟨fun id ↦ ?_, fun isDl ↦ ?_, h.unused, fun hfits id config b hconfig hb isDl ↦ ?_⟩,
    h.sum⟩
  · exact (h.keys id).trans (hperm.map Sigma.fst).mem_iff
  · exact (h.sum isDl).trans_le (h.le isDl)
  · have hsum : guaranteedSum (P.hashOrder o.sliceConfigs.entries) =
        o.sliceConfigs.sumOf fun config ↦ config.sla.guaranteedRbs := (hperm.map _).sum_eq
    have hmem : ⟨id, config⟩ ∈ P.hashOrder o.sliceConfigs.entries :=
      P.mem_hashOrder.mpr (AList.mem_lookup_iff.mp hconfig)
    exact ((h.honoured (hsum.trans_le hfits)).2 ⟨id, config⟩ hmem b hb isDl).ge

/-- With exact shares that are not negative, both passes do. -/
theorem budgetsFit_computeBudgets (P : Platform) (htotal : totalRbs < 2 ^ 16)
    (hshares : ∀ id config, o.sliceConfigs.lookup id = some config →
      0 ≤ config.sla.resourceShare) :
    o.BudgetsFit totalRbs (o.computeBudgets P totalRbs).2.2 := by
  obtain ⟨hfit, hhanded⟩ := o.budgetsFit_guaranteePass P htotal
  set g := o.guaranteePass P totalRbs with hg
  rcases o.computeBudgets_cases P totalRbs with h | ⟨hpositive, h⟩
  · rwa [h]
  · set ids := (P.hashOrder g.2.2.entries).map Sigma.fst with hids
    have hkeys : ids.Perm g.2.2.keys := (P.hashOrder_perm _).map _
    have hnonneg : ∀ id, 0 ≤ o.shareOf id := by
      intro id
      rw [shareOf]
      cases hconfig : o.sliceConfigs.lookup id with
      | none => exact le_rfl
      | some config => exact hshares id config hconfig
    have hsum : (ids.map o.shareOf).sum = o.totalShare P :=
      sum_shareOf (hkeys.nodup_iff.mpr g.2.2.keys_nodup) fun id ↦ by
        rw [hkeys.mem_iff, ← AList.mem_keys, hfit.keys]
    have hpool : ∀ isDl, (ids.map (Shares.share
        (poolOf ((totalRbs + 2 ^ 16 - g.1) % 2 ^ 16) ((totalRbs + 2 ^ 16 - g.2.1) % 2 ^ 16) isDl)
        o.shareOf (o.totalShare P))).sum ≤ totalRbs - handedOut g isDl := by
      intro isDl
      refine (Shares.sum_share_le (fun id _ ↦ hnonneg id) (of_decide_eq_true hpositive)
        hsum.le).trans ?_
      have hle := (hhanded isDl).symm.trans_le (hfit.fits isDl)
      cases isDl <;> simp only [poolOf, handedOut, if_true, Bool.false_eq_true, if_false]
        at hle ⊢ <;> omega
    obtain ⟨hshared, hgrown⟩ := @sharePass_spec o totalRbs _ _ (o.totalShare P) g.2.2 ids htotal
      fun isDl ↦ by
        have hle := (hhanded isDl).symm.trans_le (hfit.fits isDl)
        rw [hhanded]
        exact (Nat.add_le_add_left (hpool isDl) _).trans (Nat.add_sub_cancel' hle).le
    rw [h]
    refine ⟨fun id ↦ mem_sharePass.trans (hfit.keys id), hshared, ?_, ?_⟩
    · intro id b' hb' isDl
      obtain ⟨b, hb, hle⟩ := hgrown.exists_lookup (fun id ↦ mem_sharePass.symm) hb'
      exact (hle isDl).2.trans (hfit.unused id b hb isDl)
    · intro hguaranteed id config b' hconfig hb' isDl
      obtain ⟨b, hb, hle⟩ := hgrown.exists_lookup (fun id ↦ mem_sharePass.symm) hb'
      exact (hfit.honoured hguaranteed id config b hconfig hb isDl).trans (hle isDl).1

end Sharing

end SliceOrchestrator

end NrScheduler
