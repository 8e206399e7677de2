import NrScheduler.Properties.RbConservation

/-!
# Exact borrowing

A request is met from what the slice has left, and then from what the preemptible slices
below it have left.  The loop takes greedily and stops early, but the total depends on
neither the order in which the slices are visited nor where it stops: every block that the
slice gains is one that a slice below it has lost.
-/

namespace NrScheduler

open LockMonad

namespace SliceOrchestrator

variable {D : Type} {o o' : SliceOrchestrator D} {isDl : Bool} {id other : SliceId}

/-! ## What is borrowed -/

/-- A slice has gained `gain` blocks in one direction, and the slices that lent them have
lost as many. -/
structure Borrows (o o' : SliceOrchestrator D) (isDl : Bool) (id : SliceId)
    (lent : SliceId → ℕ) (gain : ℕ) : Prop where
  collected : accounts o'.currentBudgets isDl =
    (accounts o.currentBudgets isDl).collect id lent gain
  balanced : ∑ other ∈ o.currentBudgets.keys.toFinset, lent other = gain
  otherDirection : accounts o'.currentBudgets (!isDl) = accounts o.currentBudgets (!isDl)
  untouched : ∀ other, other ≠ id → lent other = 0 →
    o'.currentBudgets.lookup other = o.currentBudgets.lookup other
  keys : o'.currentBudgets.keys = o.currentBudgets.keys
  configs : o'.sliceConfigs = o.sliceConfigs

theorem Borrows.refl (o : SliceOrchestrator D) (isDl : Bool) (id : SliceId) :
    o.Borrows o isDl id 0 0 where
  collected := (Accounts.collect_zero _ id).symm
  balanced := Finset.sum_const_zero
  otherDirection := rfl
  untouched _ _ _ := rfl
  keys := rfl
  configs := rfl

theorem Borrows.trans {o₁ : SliceOrchestrator D} {f g : SliceId → ℕ} {m n : ℕ}
    (h₁ : o.Borrows o₁ isDl id f m) (h₂ : o₁.Borrows o' isDl id g n) :
    o.Borrows o' isDl id (f + g) (m + n) := by
  constructor
  case collected => rw [h₂.collected, h₁.collected, Accounts.collect_collect]
  case balanced =>
    have hsum := h₂.balanced
    rw [h₁.keys] at hsum
    simp only [Pi.add_apply, Finset.sum_add_distrib, h₁.balanced, hsum]
  case otherDirection => exact h₂.otherDirection.trans h₁.otherDirection
  case untouched =>
    intro other hne hnone
    obtain ⟨hf, hg⟩ := Nat.add_eq_zero_iff.mp hnone
    exact (h₂.untouched other hne hg).trans (h₁.untouched other hne hf)
  case keys => exact h₂.keys.trans h₁.keys
  case configs => exact h₂.configs.trans h₁.configs

theorem Borrows.lendable_eq {lent : SliceId → ℕ} {gain : ℕ} (h : o.Borrows o' isDl id lent gain)
    (hnone : lent other = 0) : o'.lendable isDl id other = o.lendable isDl id other := by
  by_cases hid : other = id
  · rw [hid, lendable_self, lendable_self]
  · rw [lendable, lendable, mayPreempt, mayPreempt, h.configs, h.untouched other hid hnone]

section Loop

variable {total toBorrow borrowed : ℕ} {config : SliceConfig D} {others : List SliceId}

theorem BudgetsBounded.borrows_take (h : o.BudgetsBounded total) (htotal : total < 2 ^ 16)
    (hid : id ∈ o.currentBudgets) {rbs : ℕ} (hpos : 0 < rbs)
    (hrbs : rbs ≤ o.lendable isDl id other) :
    o.Borrows (o.take isDl id other rbs) isDl id (Pi.single other rbs) rbs := by
  obtain ⟨b, hb⟩ := AList.exists_lookup hid
  obtain ⟨bOther, hbOther, hlendable, _, hranks⟩ := exists_of_lendable (hpos.trans_le hrbs)
  rw [hlendable] at hrbs
  constructor
  case collected =>
    rw [← Accounts.lend_eq_collect]
    exact h.accounts_lend htotal hb hbOther hranks hrbs
  case balanced => rw [Finset.sum_pi_single', if_pos (mem_keys_of_lookup hbOther)]
  case otherDirection => exact accounts_lend_other _ id other isDl rbs
  case untouched =>
    intro other' hne hnone
    have hother : other' ≠ other := by
      rintro rfl
      rw [Pi.single_eq_same] at hnone
      omega
    exact (AList.lookup_modify_ne hne _ _).trans (AList.lookup_modify_ne hother _ _)
  case keys => exact (AList.keys_modify _ _ _).trans (AList.keys_modify _ _ _)
  case configs => rfl

/-- The loop borrows all that can be lent, up to what is needed. -/
theorem BudgetsBounded.borrows_borrowLoop (h : o.BudgetsBounded total) (htotal : total < 2 ^ 16)
    (hid : id ∈ o.currentBudgets) (hconfig : o.sliceConfigs.lookup id = some config)
    (isDl : Bool) (hnodup : others.Nodup) (hle : borrowed ≤ toBorrow) :
    let r := SliceOrchestrator.borrowLoop id config toBorrow isDl others borrowed o
    r.1 = min toBorrow (borrowed + (others.map (o.lendable isDl id)).sum) ∧
      ∃ lent, (∀ other, lent other ≤ o.lendable isDl id other) ∧
        (∀ other ∉ others, lent other = 0) ∧
        o.Borrows r.2 isDl id lent (r.1 - borrowed) := by
  induction others generalizing borrowed o with
  | nil =>
      refine ⟨(Nat.min_eq_right hle).symm, 0, fun _ ↦ Nat.zero_le _, fun _ _ ↦ rfl, ?_⟩
      rw [SliceOrchestrator.borrowLoop, Nat.sub_self]
      exact Borrows.refl o isDl id
  | cons other rest ih =>
      obtain ⟨hother, hrest⟩ := List.nodup_cons.mp hnodup
      rw [borrowLoop_cons hconfig, List.map_cons, List.sum_cons]
      set toTake := min (toBorrow - borrowed) (o.lendable isDl id other) with htake
      by_cases hnone : toTake = 0
      · obtain ⟨hvalue, lent, hlent, hout, hborrows⟩ := ih h hid hconfig hrest hle
        rw [if_pos hnone]
        refine ⟨hvalue.trans (by omega), lent, hlent, fun x hx ↦ ?_, hborrows⟩
        exact hout x fun hmem ↦ hx (List.mem_cons_of_mem _ hmem)
      rw [if_neg hnone]
      have hpos : 0 < toTake := Nat.pos_of_ne_zero hnone
      have htaken := h.borrows_take htotal hid hpos (Nat.min_le_right _ _)
      have hsingle : ∀ x, (Pi.single other toTake : SliceId → ℕ) x ≤ o.lendable isDl id x := by
        intro x
        by_cases hx : x = other
        · subst hx
          rw [Pi.single_eq_same]
          exact Nat.min_le_right _ _
        · rw [Pi.single_eq_of_ne hx]
          exact Nat.zero_le _
      by_cases henough : toBorrow ≤ borrowed + toTake
      · rw [if_pos henough]
        refine ⟨by dsimp only; omega, Pi.single other toTake, hsingle, fun x hx ↦ ?_, ?_⟩
        · exact Pi.single_eq_of_ne (List.ne_of_not_mem_cons hx) _
        · rwa [Nat.add_sub_cancel_left]
      · rw [if_neg henough]
        have hid' : id ∈ (o.take isDl id other toTake).currentBudgets :=
          AList.mem_modify.mpr (AList.mem_modify.mpr hid)
        obtain ⟨hvalue, lent, hlent, hout, hborrows⟩ :=
          ih (h.take htotal hid hpos (Nat.min_le_right _ _)).bounded hid' hconfig hrest
            (Nat.le_of_not_le henough)
        -- the slices still to be visited can lend what they could lend before
        have hkept : ∀ x, x ≠ other →
            (o.take isDl id other toTake).lendable isDl id x = o.lendable isDl id x :=
          fun x hx ↦ htaken.lendable_eq (Pi.single_eq_of_ne hx _)
        rw [List.map_congr_left fun x hx ↦ hkept x (ne_of_mem_of_not_mem hx hother)] at hvalue
        refine ⟨by omega, Pi.single other toTake + lent, fun x ↦ ?_, fun x hx ↦ ?_, ?_⟩
        · by_cases hx : x = other
          · rw [hx, Pi.add_apply, hout other hother, Nat.add_zero]
            exact hsingle other
          · rw [Pi.add_apply, Pi.single_eq_of_ne hx, Nat.zero_add, ← hkept x hx]
            exact hlent x
        · rw [Pi.add_apply, hout x fun hmem ↦ hx (List.mem_cons_of_mem _ hmem),
            Pi.single_eq_of_ne (List.ne_of_not_mem_cons hx)]
        · have hsplit : ∀ n, borrowed + toTake ≤ n →
              n - borrowed = toTake + (n - (borrowed + toTake)) := by omega
          rw [hsplit _ (by omega)]
          exact htaken.trans hborrows

theorem Borrows.exists_remaining {b : SliceResourceBudget} {lent : SliceId → ℕ} {gain : ℕ}
    (hborrows : o.Borrows o' isDl id lent gain) (h : o.BudgetsBounded total)
    (h' : o'.BudgetsBounded total) (htotal : total < 2 ^ 16)
    (hb : o.currentBudgets.lookup id = some b) (hlent : lent id = 0) :
    ∃ b', o'.currentBudgets.lookup id = some b' ∧
      b'.remaining isDl = b.remaining isDl + gain := by
  have hmem : id ∈ o'.currentBudgets := by
    rw [AList.mem_keys, hborrows.keys, ← AList.mem_keys, ← AList.lookup_isSome, hb]
    rfl
  obtain ⟨b', hb'⟩ := AList.exists_lookup hmem
  refine ⟨b', hb', ?_⟩
  rw [h'.remaining_eq htotal hb', h.remaining_eq htotal hb, hborrows.collected]
  exact Accounts.left_collect_self hlent ((h isDl).spent_le id (mem_keys_of_lookup hb))

end Loop

/-- A request gets what the slice and those below it have left, and no slice loses a block
that the slice does not gain. -/
theorem requestResources_exact {budget : SliceResourceBudget} {config : SliceConfig D}
    (hwithin : ∀ id b, o.currentBudgets.lookup id = some b →
      ∀ isDl, b.used isDl ≤ b.available isDl)
    (hsum : ∀ isDl, availableSum o.currentBudgets isDl ≤ 65535)
    (hbudget : o.currentBudgets.lookup id = some budget)
    (hconfig : o.sliceConfigs.lookup id = some config) (P : Platform) (rbsNeeded : ℕ)
    (isDl : Bool) :
    ∃ r o', (o.requestResources P id rbsNeeded isDl).run none = .ok (r, o') ∧
      r = min rbsNeeded (budget.remaining isDl + if config.sla.strictIsolation then 0 else
        ∑ other ∈ o.currentBudgets.keys.toFinset, o.lendable isDl id other) ∧
      (∃ budget', o'.currentBudgets.lookup id = some budget' ∧ r ≤ budget'.remaining isDl) ∧
      ∃ lent, (∀ other, lent other ≤ o.lendable isDl id other) ∧
        o.Borrows o' isDl id lent (r - budget.remaining isDl) := by
  have hbounded : o.BudgetsBounded 65535 := budgetsBounded_of_sumOf_le hwithin hsum
  by_cases hleft : rbsNeeded ≤ budget.remaining isDl
  · refine ⟨rbsNeeded, o, ?_, by omega, ⟨budget, hbudget, hleft⟩, 0, fun _ ↦ Nat.zero_le _, ?_⟩
    · simp only [requestResources, hbudget, hconfig, if_pos hleft]
      rfl
    · rw [Nat.sub_eq_zero_of_le hleft]
      exact Borrows.refl o isDl id
  by_cases hstrict : config.sla.strictIsolation = true
  · refine ⟨budget.remaining isDl, o, ?_, ?_, ⟨budget, hbudget, le_rfl⟩, 0,
      fun _ ↦ Nat.zero_le _, ?_⟩
    · simp only [requestResources, hbudget, hconfig, if_neg hleft, if_pos hstrict]
      rfl
    · rw [if_pos hstrict]
      omega
    · rw [Nat.sub_self]
      exact Borrows.refl o isDl id
  set others := (P.hashOrder o.currentBudgets.entries).map Sigma.fst with hothers
  have hkeys : others.Perm o.currentBudgets.keys := (P.hashOrder_perm _).map _
  have hid : id ∈ o.currentBudgets := AList.mem_of_lookup hbudget
  obtain ⟨hvalue, lent, hlent, _, hborrows⟩ :=
    hbounded.borrows_borrowLoop (by decide) hid hconfig isDl
      (hkeys.nodup_iff.mpr o.currentBudgets.keys_nodup)
      (Nat.zero_le (rbsNeeded - budget.remaining isDl))
  set r := borrowLoop id config (rbsNeeded - budget.remaining isDl) isDl others 0 o with hr
  have hbounded' : r.2.BudgetsBounded 65535 :=
    (hbounded.borrowLoop (by decide) hconfig hid).bounded
  have htotal : (others.map (o.lendable isDl id)).sum =
      ∑ other ∈ o.currentBudgets.keys.toFinset, o.lendable isDl id other := by
    rw [List.sum_toFinset _ o.currentBudgets.keys_nodup]
    exact (hkeys.map _).sum_eq
  have hself : lent id = 0 := Nat.le_zero.mp ((hlent id).trans_eq lendable_self)
  obtain ⟨budget', hbudget', hremaining⟩ :=
    hborrows.exists_remaining hbounded hbounded' (by decide) hbudget hself
  have hlt : budget'.remaining isDl < 2 ^ 16 := Nat.mod_lt _ (by decide)
  rw [htotal] at hvalue
  rw [Nat.sub_zero] at hremaining hborrows
  refine ⟨budget.remaining isDl + r.1, r.2, ?_, ?_, ⟨budget', hbudget', hremaining.ge⟩, lent,
    hlent, ?_⟩
  · simp only [requestResources, hbudget, hconfig, if_neg hleft, if_neg hstrict]
    rw [← hothers, ← hr, Nat.mod_eq_of_lt (hremaining ▸ hlt)]
    rfl
  · rw [if_neg hstrict]
    omega
  · rwa [Nat.add_sub_cancel_left]

/-- The first slice may preempt the second one, and the third one lends nothing. -/
def threeSlices : SliceOrchestrator ℚ :=
  let kept : SliceConfig ℚ := .shared 3 5 200 1
  { create with
    sliceConfigs := ((AList.insert 3 { kept with sla := { kept.sla with preemptible := false } }
      ∅).insert 2 (.shared 2 5 200 1)).insert 1 (.shared 1 5 10 1)
    currentBudgets := ((AList.insert 3 ⟨3, 6, 6, 0, 0, 0⟩ ∅).insert 2 ⟨2, 8, 8, 3, 0, 0⟩).insert 1
      ⟨1, 5, 5, 2, 0, 0⟩ }

theorem requestResources_exact_threeSlices :
    ∃ r o', (threeSlices.requestResources .plain 1 20 true).run none = .ok (r, o') ∧ r = 8 ∧
      (∃ budget', o'.currentBudgets.lookup 1 = some budget' ∧ r ≤ budget'.remaining true) ∧
      ∃ lent, (∀ other, lent other ≤ threeSlices.lendable true 1 other) ∧
        threeSlices.Borrows o' true 1 lent (r - 3) := by
  have hwithin : ∀ e ∈ threeSlices.currentBudgets.entries,
      ∀ isDl, e.2.used isDl ≤ e.2.available isDl := by decide
  obtain ⟨r, o', hrun, hr, hafter⟩ := requestResources_exact
    (fun id b h ↦ hwithin ⟨id, b⟩ (AList.mem_lookup_iff.mp h)) (by decide)
    (rfl : threeSlices.currentBudgets.lookup 1 = some ⟨1, 5, 5, 2, 0, 0⟩)
    (rfl : threeSlices.sliceConfigs.lookup 1 = some (.shared 1 5 10 1)) .plain 20 true
  exact ⟨r, o', hrun, hr.trans (by decide +kernel), hafter⟩

end SliceOrchestrator

end NrScheduler
