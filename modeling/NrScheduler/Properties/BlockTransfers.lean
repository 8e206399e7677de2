import NrScheduler.Properties.RbConservation

/-!
# Transfers between budgets

What a request does, in any state: it takes blocks from one slice after another, each time
no more than that slice can lend.  Beside the 16-bit fields of the budgets, accounts without
a limit count the blocks that are borrowed, lent and reported.
-/

namespace NrScheduler

open LockMonad

namespace SliceOrchestrator

variable {D : Type} {o o' : SliceOrchestrator D} {isDl : Bool} {id other : SliceId} {n : ℕ}

/-! ## Counters and arguments -/

/-- What a 16-bit counter has grown by. -/
def growth (n n' : ℕ) : ℕ := (n' + 2 ^ 16 - n) % 2 ^ 16

theorem growth_eq {x d : ℕ} (h : d < 2 ^ 16) : growth (x % 2 ^ 16) ((x + d) % 2 ^ 16) = d := by
  rw [growth]
  omega

/-- The arguments have the ranges of their types. -/
def Operation.FitsTypes : Operation D → Prop
  | .calculateBudgets cell => cell.config.numRbs < 2 ^ 16
  | .requestResources _ rbsNeeded _ => rbsNeeded < 2 ^ 16
  | .returnResources _ rbsUnused _ => rbsUnused < 2 ^ 16
  | .reportScheduling _ rbs bytes _ => rbs < 2 ^ 16 ∧ bytes < 2 ^ 32
  | _ => True

instance (op : Operation D) : Decidable op.FitsTypes := by
  induction op using Operation.casesOn with
  | calculateBudgets cell => exact inferInstanceAs (Decidable (cell.config.numRbs < 2 ^ 16))
  | requestResources _ rbsNeeded _ => exact inferInstanceAs (Decidable (rbsNeeded < 2 ^ 16))
  | returnResources _ rbsUnused _ => exact inferInstanceAs (Decidable (rbsUnused < 2 ^ 16))
  | reportScheduling _ rbs bytes _ =>
      exact inferInstanceAs (Decidable (rbs < 2 ^ 16 ∧ bytes < 2 ^ 32))
  | _ => exact isTrue trivial

/-! ## Takes -/

/-- A slice takes `n` blocks in all. -/
inductive Takes (isDl : Bool) (id : SliceId) :
    SliceOrchestrator D → ℕ → SliceOrchestrator D → Prop
  | refl {o : SliceOrchestrator D} : Takes isDl id o 0 o
  | take {o o' : SliceOrchestrator D} {other : SliceId} {rbs n : ℕ} (hpos : 0 < rbs)
      (hrbs : rbs ≤ o.lendable isDl id other)
      (hrest : Takes isDl id (o.take isDl id other rbs) n o') : Takes isDl id o (rbs + n) o'

theorem Takes.eq_of_zero (h : Takes isDl id o 0 o') : o' = o := by
  generalize hn : 0 = n at h
  cases h with
  | refl => rfl
  | take hpos => omega

theorem Takes.keys_eq (h : Takes isDl id o n o') :
    o'.currentBudgets.keys = o.currentBudgets.keys := by
  induction h with
  | refl => rfl
  | take _ _ _ ih => exact ih.trans ((AList.keys_modify ..).trans (AList.keys_modify ..))

theorem lookup_take (hne : other ≠ id) (rbs : ℕ) (x : SliceId) :
    (o.take isDl id other rbs).currentBudgets.lookup x =
      if x = id then
        (o.currentBudgets.lookup x).map fun b ↦ (b.addAvailable isDl rbs).addBorrowed rbs
      else if x = other then (o.currentBudgets.lookup x).map fun b ↦ b.addUsed isDl rbs
      else o.currentBudgets.lookup x := by
  rw [take, AList.lookup_modify]
  by_cases hid : x = id
  · subst hid
    rw [if_pos rfl, if_pos rfl, AList.lookup_modify_ne hne.symm]
  · rw [if_neg hid, if_neg hid, AList.lookup_modify]
    by_cases hother : x = other
    · rw [if_pos hother, if_pos hother, hother]
    · rw [if_neg hother, if_neg hother]

section Loop

variable {config : SliceConfig D} {toBorrow borrowed : ℕ} {others : List SliceId}

theorem borrowLoop_takes (hconfig : o.sliceConfigs.lookup id = some config)
    (hle : borrowed ≤ toBorrow) :
    let r := borrowLoop id config toBorrow isDl others borrowed o
    borrowed ≤ r.1 ∧ r.1 ≤ toBorrow ∧ Takes isDl id o (r.1 - borrowed) r.2 := by
  induction others generalizing borrowed o with
  | nil =>
      refine ⟨le_rfl, hle, ?_⟩
      rw [borrowLoop, Nat.sub_self]
      exact .refl
  | cons other rest ih =>
      rw [borrowLoop_cons hconfig]
      set toTake := min (toBorrow - borrowed) (o.lendable isDl id other) with htake
      by_cases hnone : toTake = 0
      · rw [if_pos hnone]
        exact ih hconfig hle
      rw [if_neg hnone]
      have hpos := Nat.pos_of_ne_zero hnone
      have hlend : toTake ≤ o.lendable isDl id other := Nat.min_le_right _ _
      by_cases henough : toBorrow ≤ borrowed + toTake
      · rw [if_pos henough]
        refine ⟨Nat.le_add_right _ _, by dsimp only; omega, ?_⟩
        rw [Nat.add_sub_cancel_left]
        exact .take hpos hlend .refl
      · rw [if_neg henough]
        obtain ⟨hmore, hless, htakes⟩ :=
          ih (o := o.take isDl id other toTake) hconfig (Nat.le_of_not_le henough)
        refine ⟨by omega, hless, ?_⟩
        have hsplit : ∀ m, borrowed + toTake ≤ m →
            m - borrowed = toTake + (m - (borrowed + toTake)) := by omega
        rw [hsplit _ hmore]
        exact .take hpos hlend htakes

/-- The loop borrows nothing only if no slice can lend. -/
theorem lendable_eq_zero_of_borrowLoop (hconfig : o.sliceConfigs.lookup id = some config)
    (hlt : borrowed < toBorrow)
    (hnone : (borrowLoop id config toBorrow isDl others borrowed o).1 = borrowed) :
    ∀ other ∈ others, o.lendable isDl id other = 0 := by
  induction others with
  | nil => exact fun other h ↦ (List.not_mem_nil h).elim
  | cons other rest ih =>
      rw [borrowLoop_cons hconfig] at hnone
      set toTake := min (toBorrow - borrowed) (o.lendable isDl id other) with htake
      by_cases hzero : toTake = 0
      · rw [if_pos hzero] at hnone
        rintro other' hmem
        rcases List.mem_cons.mp hmem with rfl | hmem
        · omega
        · exact ih hnone other' hmem
      · rw [if_neg hzero] at hnone
        by_cases henough : toBorrow ≤ borrowed + toTake
        · rw [if_pos henough] at hnone
          dsimp only at hnone
          omega
        · rw [if_neg henough] at hnone
          have hmore : borrowed + toTake ≤ (borrowLoop id config toBorrow isDl rest
              (borrowed + toTake) (o.take isDl id other toTake)).1 :=
            (borrowLoop_takes (o := o.take isDl id other toTake) hconfig
              (Nat.le_of_not_le henough)).1
          omega

end Loop

/-- The blocks that a request lacks and is allowed to borrow. -/
def shortfall (o : SliceOrchestrator D) (id : SliceId) (rbsNeeded : ℕ) (isDl : Bool) : ℕ :=
  match o.currentBudgets.lookup id, o.sliceConfigs.lookup id with
  | some budget, some config =>
      if config.sla.strictIsolation then 0 else rbsNeeded - budget.remaining isDl
  | _, _ => 0

theorem shortfall_le (o : SliceOrchestrator D) (id : SliceId) (rbsNeeded : ℕ) (isDl : Bool) :
    o.shortfall id rbsNeeded isDl ≤ rbsNeeded := by
  rw [shortfall]
  split
  · split <;> omega
  · exact Nat.zero_le _

variable [Double D]

/-- A request takes blocks up to its shortfall, and none only if there is no shortfall or no
slice can lend. -/
theorem next_requestResources (o : SliceOrchestrator D) (P : Platform) (id : SliceId)
    (rbsNeeded : ℕ) (isDl : Bool) :
    ∃ n o', o.next (P, .requestResources id rbsNeeded isDl) = some o' ∧ Takes isDl id o n o' ∧
      n ≤ o.shortfall id rbsNeeded isDl ∧
      (n = 0 → o.shortfall id rbsNeeded isDl = 0 ∨ ∀ other, o.lendable isDl id other = 0) := by
  simp only [next, perform, requestResources, shortfall]
  cases hbudget : o.currentBudgets.lookup id with
  | none => exact ⟨0, o, rfl, .refl, Nat.zero_le _, fun _ ↦ Or.inl rfl⟩
  | some budget =>
      cases hconfig : o.sliceConfigs.lookup id with
      | none => exact ⟨0, o, rfl, .refl, Nat.zero_le _, fun _ ↦ Or.inl rfl⟩
      | some config =>
          dsimp only
          by_cases hleft : rbsNeeded ≤ budget.remaining isDl
          · rw [if_pos hleft]
            refine ⟨0, o, rfl, .refl, Nat.zero_le _, fun _ ↦ Or.inl ?_⟩
            rw [Nat.sub_eq_zero_of_le hleft, ite_self]
          by_cases hstrict : config.sla.strictIsolation = true
          · rw [if_neg hleft, if_pos hstrict]
            exact ⟨0, o, rfl, .refl, Nat.zero_le _, fun _ ↦ Or.inl (if_pos hstrict)⟩
          rw [if_neg hleft, if_neg hstrict, if_neg hstrict]
          set toBorrow := rbsNeeded - budget.remaining isDl with hto
          set others := (P.hashOrder o.currentBudgets.entries).map Sigma.fst
          set loop := borrowLoop id config toBorrow isDl others 0 o
          obtain ⟨-, hle, htakes⟩ :
              0 ≤ loop.1 ∧ loop.1 ≤ toBorrow ∧ Takes isDl id o (loop.1 - 0) loop.2 :=
            borrowLoop_takes hconfig (Nat.zero_le _)
          refine ⟨_, _, rfl, htakes, hle, fun hzero ↦ Or.inr fun other ↦ ?_⟩
          by_contra hlend
          obtain ⟨b, hb, -⟩ := exists_of_lendable (Nat.pos_of_ne_zero hlend)
          have hmem : other ∈ (P.hashOrder o.currentBudgets.entries).map Sigma.fst :=
            List.mem_map.mpr ⟨⟨other, b⟩, P.mem_hashOrder.mpr (AList.mem_lookup_iff.mp hb), rfl⟩
          exact hlend (lendable_eq_zero_of_borrowLoop hconfig (by omega) hzero other hmem)

/-! ## What a step does to the budgets -/

/-- The operation leaves every budget as it is, or deletes one. -/
def SparesBudgets (o : SliceOrchestrator D) : Operation D → Prop
  | .calculateBudgets _ | .requestResources _ _ _ | .returnResources _ _ _ => False
  | .reportScheduling rnti _ _ _ => o.ueSliceMap.lookup rnti = none
  | _ => True

inductive BudgetStep (o : SliceOrchestrator D) (P : Platform) :
    Operation D → SliceOrchestrator D → Prop
  | calculated {cell} : BudgetStep o P (.calculateBudgets cell) (o.budgeted P cell)
  | requested {id : SliceId} {rbsNeeded n : ℕ} {isDl : Bool} {o' : SliceOrchestrator D}
      (htakes : Takes isDl id o n o')
      (hle : n ≤ o.shortfall id rbsNeeded isDl)
      (hnone : n = 0 → o.shortfall id rbsNeeded isDl = 0 ∨ ∀ other, o.lendable isDl id other = 0) :
      BudgetStep o P (.requestResources id rbsNeeded isDl) o'
  | returned {id : SliceId} {rbsUnused : ℕ} {isDl : Bool} {o' : SliceOrchestrator D}
      (hbudgets : o'.currentBudgets = o.currentBudgets.modify id fun b ↦
          if 0 < b.borrowedRbs then
            b.addBorrowed (-min b.borrowedRbs (SliceResourceBudget.toInt16 rbsUnused))
          else b) :
      BudgetStep o P (.returnResources id rbsUnused isDl) o'
  | reported {rnti : Rnti} {id : SliceId} {rbs bytes : ℕ} {isDl : Bool}
      {o' : SliceOrchestrator D} (hue : o.ueSliceMap.lookup rnti = some id)
      (hmap : o'.ueSliceMap = o.ueSliceMap)
      (hbudgets : o'.currentBudgets = o.currentBudgets.modify id fun b ↦ b.addUsed isDl rbs) :
      BudgetStep o P (.reportScheduling rnti rbs bytes isDl) o'
  | spared {op : Operation D} {o' : SliceOrchestrator D} (hspares : o.SparesBudgets op)
      (hkept : ∀ id b, o'.currentBudgets.lookup id = some b → o.currentBudgets.lookup id = some b) :
      BudgetStep o P op o'

theorem budgetStep_of_next {P : Platform} {op : Operation D} (hnext : o.next (P, op) = some o') :
    BudgetStep o P op o' := by
  have hrequested : ∀ {id rbsNeeded isDl}, op = .requestResources id rbsNeeded isDl →
      BudgetStep o P op o' := by
    rintro id rbsNeeded isDl rfl
    obtain ⟨n, o₁, hnext₁, htakes, hle, hnone⟩ := o.next_requestResources P id rbsNeeded isDl
    obtain rfl := Option.some.inj (hnext.symm.trans hnext₁)
    exact .requested htakes hle hnone
  obtain ⟨o₁, hnext₁, ⟨hidle, hsame⟩ | ⟨-, heffect⟩⟩ := o.next_spec P op
  · obtain rfl := Option.some.inj (hnext.symm.trans hnext₁)
    subst hsame
    have hkept : ∀ id b, o'.currentBudgets.lookup id = some b →
        o'.currentBudgets.lookup id = some b := fun _ _ hb ↦ hb
    cases op with
    | calculateBudgets => cases hidle
    | requestResources => cases hidle
    | returnResources id rbsUnused isDl =>
        have hno : id ∉ o'.currentBudgets := of_decide_eq_true hidle
        exact .returned (AList.modify_of_notMem hno _).symm
    | reportScheduling rnti =>
        exact .spared (AList.lookup_eq_none.mpr (of_decide_eq_true hidle)) hkept
    | _ => exact .spared trivial hkept
  · obtain rfl := Option.some.inj (hnext.symm.trans hnext₁)
    cases heffect with
    | deleted =>
        refine .spared trivial fun id b hb ↦ ?_
        have hmem := AList.mem_of_lookup hb
        rwa [AList.lookup_erase_ne (AList.mem_erase.mp hmem).1] at hb
    | budgeted => exact .calculated
    | granted => exact hrequested rfl
    | borrowed => exact hrequested rfl
    | returned => exact .returned rfl
    | reported hue => exact .reported hue rfl rfl
    | _ => exact .spared trivial fun _ _ hb ↦ hb

end SliceOrchestrator

end NrScheduler
