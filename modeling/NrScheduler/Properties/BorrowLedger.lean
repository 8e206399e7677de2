import NrScheduler.Properties.BlockTransfers
import NrScheduler.Services.BudgetValues

/-!
# The ledger of borrowed blocks

The field `borrowed_rbs` is to be positive for what a slice has borrowed and negative for
what it has lent, so that the ledger balances.  A lender's field is never changed, so the
ledger balances only as long as nothing is borrowed.  A slice's own field stays below what
it has taken unless a return is so large that its signed value is negative.
-/

namespace NrScheduler

open LockMonad

namespace SliceOrchestrator

variable {D : Type} {o o' : SliceOrchestrator D} {isDl : Bool} {id other : SliceId} {n : ℕ}
variable {taken : SliceId → ℕ}

/-! ## The ledger -/

def borrowedSum (budgets : Budgets) : ℤ := (budgets.entries.map fun e ↦ e.2.borrowedRbs).sum

/-- What every slice has taken from others since the budgets were calculated. -/
def countTaken (o : SliceOrchestrator D) (i : Platform × Operation D) (o' : SliceOrchestrator D)
    (taken : SliceId → ℕ) : SliceId → ℕ :=
  match i.2 with
  | .calculateBudgets _ => fun _ ↦ 0
  | .requestResources id _ isDl =>
      let before := (accounts o.currentBudgets isDl).limit id
      let after := (accounts o'.currentBudgets isDl).limit id
      Function.update taken id (taken id + growth before after)
  | _ => taken

def BorrowedWithin (o : SliceOrchestrator D) (taken : SliceId → ℕ) : Prop :=
  ∀ id b, o.currentBudgets.lookup id = some b → b.borrowedRbs ≤ taken id

/-- What is borrowed and what is lent add up to zero, and no slice owes more than it took. -/
structure LedgerBalances (o : SliceOrchestrator D) (taken : SliceId → ℕ) : Prop where
  balanced : borrowedSum o.currentBudgets = 0
  within : o.BorrowedWithin taken

/-- A request finds all it needs, or may not borrow, or finds nobody who can lend. -/
def BorrowsNothing (o : SliceOrchestrator D) : Operation D → Prop
  | .requestResources id rbsNeeded isDl =>
      o.shortfall id rbsNeeded isDl = 0 ∨ ∀ other, o.lendable isDl id other = 0
  | _ => True

theorem borrowedSum_eq {budgets : Budgets} {v : ℤ} (hid : id ∈ budgets)
    (h : ∀ x b, budgets.lookup x = some b → b.borrowedRbs = if x = id then v else 0) :
    borrowedSum budgets = v := by
  have hmap : (budgets.entries.map fun e ↦ e.2.borrowedRbs) =
      budgets.keys.map fun x ↦ if x = id then v else 0 := by
    rw [AList.keys, List.keys, List.map_map]
    refine List.map_congr_left fun e he ↦ ?_
    exact h e.1 e.2 (AList.mem_lookup_iff.mpr he)
  rw [borrowedSum, hmap, ← List.sum_toFinset _ budgets.keys_nodup, Finset.sum_ite_eq', if_pos]
  exact List.mem_toFinset.mpr (AList.mem_keys.mp hid)

theorem borrowedSum_eq_zero {budgets : Budgets}
    (h : ∀ x b, budgets.lookup x = some b → b.borrowedRbs = 0) : borrowedSum budgets = 0 := by
  refine List.sum_eq_zero fun v hv ↦ ?_
  obtain ⟨e, he, rfl⟩ := List.mem_map.mp hv
  exact h e.1 e.2 (AList.mem_lookup_iff.mpr he)

/-! ## What a request writes -/

/-- The budget of a slice that has taken `n` blocks. -/
structure Charged (isDl : Bool) (n : ℕ) (b b' : SliceResourceBudget) : Prop where
  borrowed : b'.borrowedRbs = SliceResourceBudget.toInt16 (b.borrowedRbs + n)
  available : b'.available isDl = (b.available isDl + n) % 2 ^ 16
  other : b'.available (!isDl) = b.available (!isDl)

theorem charged_take (isDl : Bool) (b : SliceResourceBudget) (rbs : ℕ) :
    Charged isDl rbs b ((b.addAvailable isDl rbs).addBorrowed rbs) where
  borrowed := by cases isDl <;> rfl
  available := by simp
  other := by simp

theorem Charged.trans {b b₁ b₂ : SliceResourceBudget} {m : ℕ} (h₁ : Charged isDl m b b₁)
    (h₂ : Charged isDl n b₁ b₂) : Charged isDl (m + n) b b₂ := by
  constructor
  · rw [h₂.borrowed, h₁.borrowed, SliceResourceBudget.toInt16, SliceResourceBudget.toInt16,
      SliceResourceBudget.toInt16, Int.bmod_add_bmod, Nat.cast_add, Int.add_assoc]
  · rw [h₂.available, h₁.available, Nat.mod_add_mod, Nat.add_assoc]
  · rw [h₂.other, h₁.other]

/-- The slice that takes blocks is charged with them. -/
theorem Takes.exists_charged (h : Takes isDl id o n o') (hpos : 0 < n) {b' : SliceResourceBudget}
    (hb' : o'.currentBudgets.lookup id = some b') :
    ∃ b, o.currentBudgets.lookup id = some b ∧ Charged isDl n b b' := by
  induction h with
  | refl => exact absurd hpos (Nat.lt_irrefl 0)
  | @take o o' other rbs n hrbspos hrbs hrest ih =>
      obtain ⟨-, -, -, hne, -⟩ := exists_of_lendable (hrbspos.trans_le hrbs)
      have hfirst : ∀ b₁, (o.take isDl id other rbs).currentBudgets.lookup id = some b₁ →
          ∃ b, o.currentBudgets.lookup id = some b ∧ Charged isDl rbs b b₁ := by
        intro b₁ hb₁
        rw [lookup_take hne, if_pos rfl] at hb₁
        obtain ⟨b, hb, rfl⟩ := Option.map_eq_some_iff.mp hb₁
        exact ⟨b, hb, charged_take isDl b rbs⟩
      rcases Nat.eq_zero_or_pos n with rfl | hn
      · obtain rfl := hrest.eq_of_zero
        exact hfirst b' hb'
      · obtain ⟨b₁, hb₁, hlater⟩ := ih hn hb'
        obtain ⟨b, hb, hcharged⟩ := hfirst b₁ hb₁
        exact ⟨b, hb, hcharged.trans hlater⟩

/-- No other slice is, neither charged nor credited. -/
theorem Takes.exists_uncharged (h : Takes isDl id o n o') {x : SliceId} (hx : x ≠ id)
    {b' : SliceResourceBudget} (hb' : o'.currentBudgets.lookup x = some b') :
    ∃ b, o.currentBudgets.lookup x = some b ∧ b'.borrowedRbs = b.borrowedRbs ∧
      ∀ isDl', b'.available isDl' = b.available isDl' := by
  induction h with
  | refl => exact ⟨b', hb', rfl, fun _ ↦ rfl⟩
  | @take o o' other rbs n hpos hrbs _ ih =>
      obtain ⟨-, -, -, hne, -⟩ := exists_of_lendable (hpos.trans_le hrbs)
      obtain ⟨b₁, hb₁, hborrowed, havailable⟩ := ih hb'
      rw [lookup_take hne, if_neg hx] at hb₁
      by_cases hother : x = other
      · rw [if_pos hother] at hb₁
        obtain ⟨b, hb, rfl⟩ := Option.map_eq_some_iff.mp hb₁
        refine ⟨b, hb, hborrowed.trans ?_, fun isDl' ↦ (havailable isDl').trans (by simp)⟩
        cases isDl <;> rfl
      · rw [if_neg hother] at hb₁
        exact ⟨b₁, hb₁, hborrowed, havailable⟩

theorem mem_budgets_of_shortfall {rbsNeeded : ℕ} (h : 0 < o.shortfall id rbsNeeded isDl) :
    id ∈ o.currentBudgets := by
  cases hb : o.currentBudgets.lookup id with
  | some b => exact AList.mem_of_lookup hb
  | none =>
      rw [shortfall, hb] at h
      exact absurd h (Nat.lt_irrefl 0)

@[simp] theorem borrowedRbs_addUsed (b : SliceResourceBudget) (rbs : ℕ) :
    (b.addUsed isDl rbs).borrowedRbs = b.borrowedRbs := by
  cases isDl <;> rfl

variable [Double D] {P : Platform} {op : Operation D}

theorem exists_unused_of_budgeted {cell : CellContext} (hnum : cell.config.numRbs < 2 ^ 16)
    {b : SliceResourceBudget} (hb : (o.budgeted P cell).currentBudgets.lookup id = some b) :
    ∃ rbs < 2 ^ 16, b = unusedBudget id rbs := by
  rw [currentBudgets_budgeted, lookup_computeBudgets o P hnum] at hb
  obtain ⟨config, -, rfl⟩ := Option.map_eq_some_iff.mp hb
  exact ⟨_, o.budgetRbs_lt P hnum id config.sla, rfl⟩

/-! ## The balance -/

def NoneBorrowed (o : SliceOrchestrator D) : Prop :=
  ∀ id b, o.currentBudgets.lookup id = some b → b.borrowedRbs = 0

theorem NoneBorrowed.next (h : o.NoneBorrowed) (htypes : op.FitsTypes)
    (hnext : o.next (P, op) = some o') (hnothing : o.BorrowsNothing op) : o'.NoneBorrowed := by
  intro id b' hb'
  cases budgetStep_of_next hnext with
  | calculated =>
      obtain ⟨rbs, -, rfl⟩ := exists_unused_of_budgeted htypes hb'
      rfl
  | @requested sliceId rbsNeeded n isDl _ htakes hle hnone =>
      have hzero : n = 0 := by
        rcases hnothing with hno | hno
        · omega
        · cases htakes with
          | refl => rfl
          | take hpos hrbs =>
              rw [hno] at hrbs
              omega
      subst hzero
      obtain rfl := htakes.eq_of_zero
      exact h id b' hb'
  | returned hbudgets =>
      rw [hbudgets] at hb'
      obtain ⟨b, hb, ⟨-, rfl⟩ | ⟨rfl, rfl⟩⟩ := AList.exists_of_lookup_modify hb'
      · exact h id _ hb
      · have hzero := h id b hb
        rw [if_neg (by omega)]
        exact hzero
  | reported _ _ hbudgets =>
      rw [hbudgets] at hb'
      obtain ⟨b, hb, ⟨-, rfl⟩ | ⟨rfl, rfl⟩⟩ := AList.exists_of_lookup_modify hb'
      · exact h id _ hb
      · rw [borrowedRbs_addUsed]
        exact h id b hb
  | spared _ hkept => exact h id b' (hkept id b' hb')

/-- A ledger in which only one slice has borrowed does not balance. -/
theorem borrowsNothing_of_balanced (h : o.NoneBorrowed) (htypes : op.FitsTypes)
    (hnext : o.next (P, op) = some o') (hsum : borrowedSum o'.currentBudgets = 0) :
    o.BorrowsNothing op := by
  cases budgetStep_of_next hnext with
  | @requested id rbsNeeded n isDl _ htakes hle hnone =>
      rcases Nat.eq_zero_or_pos n with rfl | hpos
      · exact hnone rfl
      have hn : n < 2 ^ 16 := hle.trans_lt ((o.shortfall_le _ _ _).trans_lt htypes)
      have hid : id ∈ o'.currentBudgets := by
        rw [AList.mem_keys, htakes.keys_eq, ← AList.mem_keys]
        exact mem_budgets_of_shortfall (hpos.trans_le hle)
      have hcharged : borrowedSum o'.currentBudgets = SliceResourceBudget.toInt16 n := by
        refine borrowedSum_eq hid fun x b' hb' ↦ ?_
        by_cases hx : x = id
        · subst hx
          obtain ⟨b, hb, hb''⟩ := htakes.exists_charged hpos hb'
          rw [if_pos rfl, hb''.borrowed, h x b hb, Int.zero_add]
        · obtain ⟨b, hb, hborrowed, -⟩ := htakes.exists_uncharged hx hb'
          rw [if_neg hx, hborrowed, h x b hb]
      rw [hcharged, SliceResourceBudget.toInt16, Int.bmod] at hsum
      split at hsum <;> omega
  | spared hspares =>
      cases op with
      | requestResources => exact hspares.elim
      | _ => trivial
  | _ => trivial

/-- The ledger balances throughout a run exactly if no request of the run borrows. -/
theorem ledgerBalances_iff_borrowsNothing {is : List (Platform × Operation D)}
    (htypes : ∀ i ∈ is, i.2.FitsTypes) :
    Runs.Always (Runs.monitored next countTaken) (fun _ _ p' ↦ LedgerBalances p'.1 p'.2)
        (create, fun _ ↦ 0) is ↔
      Runs.Always (Runs.monitored next countTaken) (fun p i _ ↦ p.1.BorrowsNothing i.2)
        (create, fun _ ↦ 0) is := by
  refine Runs.always_iff_of_inputs (p := fun i ↦ i.2.FitsTypes) (fun p ↦ p.1.NoneBorrowed) ?_ ?_
    htypes
  · rintro ⟨o, taken⟩ ⟨P, op⟩ ⟨o', taken'⟩ hop hnone hstep
    have hnext := (Runs.monitored_eq_some.mp hstep).1
    have hnothing : LedgerBalances o' taken' → o.BorrowsNothing op := fun h ↦
      borrowsNothing_of_balanced hnone hop hnext h.balanced
    refine ⟨⟨hnothing, fun h ↦ ?_⟩, fun h ↦ hnone.next hop hnext (hnothing h)⟩
    have hnone' := hnone.next hop hnext h
    refine ⟨borrowedSum_eq_zero hnone', fun id b hb ↦ ?_⟩
    rw [hnone' id b hb]
    exact Int.natCast_nonneg _
  · intro id b hb
    simp [create] at hb

/-! ## What a slice owes -/

/-- A return to a slice that has borrowed is read as a number that is not negative, or the
difference leaves the field, or it is covered by what the slice has taken. -/
def ReturnsWithin (o : SliceOrchestrator D) (taken : SliceId → ℕ) : Operation D → Prop
  | .returnResources id rbsUnused _ => ∀ b, o.currentBudgets.lookup id = some b →
      0 < b.borrowedRbs → rbsUnused < 2 ^ 15 ∨
        2 ^ 15 ≤ b.borrowedRbs + (2 ^ 16 - rbsUnused) ∨
        b.borrowedRbs + (2 ^ 16 - rbsUnused) ≤ taken id
  | _ => True

/-- The fields have the ranges of their types. -/
def InRange (o : SliceOrchestrator D) : Prop :=
  ∀ id b, o.currentBudgets.lookup id = some b →
    (-2 ^ 15 ≤ b.borrowedRbs ∧ b.borrowedRbs < 2 ^ 15) ∧ ∀ isDl, b.available isDl < 2 ^ 16

omit [Double D] in
theorem toInt16_mem (v : ℤ) :
    -2 ^ 15 ≤ SliceResourceBudget.toInt16 v ∧ SliceResourceBudget.toInt16 v < 2 ^ 15 := by
  rw [SliceResourceBudget.toInt16, Int.bmod]
  split <;> omega

omit [Double D] in
theorem toInt16_le {v : ℤ} (h : -2 ^ 15 ≤ v) : SliceResourceBudget.toInt16 v ≤ v := by
  rw [SliceResourceBudget.toInt16, Int.bmod]
  split <;> omega

omit [Double D] in
/-- A return makes a debt larger exactly if its argument is read as a negative number and
the sum still fits the field. -/
theorem toInt16_return_le_iff {v t : ℤ} {rbsUnused : ℕ} (hpos : 0 < v) (hlt : v < 2 ^ 15)
    (hle : v ≤ t) (hunused : rbsUnused < 2 ^ 16) :
    SliceResourceBudget.toInt16 (v + -min v (SliceResourceBudget.toInt16 rbsUnused)) ≤ t ↔
      rbsUnused < 2 ^ 15 ∨ 2 ^ 15 ≤ v + (2 ^ 16 - rbsUnused) ∨ v + (2 ^ 16 - rbsUnused) ≤ t := by
  by_cases hsmall : rbsUnused < 2 ^ 15
  · have hunsigned : SliceResourceBudget.toInt16 rbsUnused = rbsUnused := by
      rw [SliceResourceBudget.toInt16, Int.bmod]
      split <;> omega
    rw [hunsigned]
    have hle' := toInt16_le (v := v + -min v rbsUnused) (by omega)
    exact ⟨fun _ ↦ Or.inl hsmall, fun _ ↦ by omega⟩
  · have hnegative : SliceResourceBudget.toInt16 rbsUnused = rbsUnused - 2 ^ 16 := by
      rw [SliceResourceBudget.toInt16, Int.bmod]
      split <;> omega
    have hmin : v + -min v ((rbsUnused : ℤ) - 2 ^ 16) = v + (2 ^ 16 - rbsUnused) := by omega
    rw [hnegative, hmin, or_iff_right hsmall]
    rw [SliceResourceBudget.toInt16, Int.bmod]
    split <;> omega

theorem InRange.next (h : o.InRange) (htypes : op.FitsTypes) (hnext : o.next (P, op) = some o') :
    o'.InRange := by
  intro id b' hb'
  cases budgetStep_of_next hnext with
  | calculated =>
      obtain ⟨rbs, hrbs, rfl⟩ := exists_unused_of_budgeted htypes hb'
      refine ⟨?_, fun isDl ↦ by cases isDl <;> exact hrbs⟩
      simp [unusedBudget]
  | @requested sliceId rbsNeeded n isDl _ htakes hle hnone =>
      rcases Nat.eq_zero_or_pos n with rfl | hpos
      · obtain rfl := htakes.eq_of_zero
        exact h id b' hb'
      by_cases hid : id = sliceId
      · subst hid
        obtain ⟨b, hb, hcharged⟩ := htakes.exists_charged hpos hb'
        rw [hcharged.borrowed]
        refine ⟨toInt16_mem _, fun isDl' ↦ ?_⟩
        rcases Bool.eq_or_eq_not isDl' isDl with rfl | rfl
        · rw [hcharged.available]
          exact Nat.mod_lt _ (Nat.two_pow_pos 16)
        · rw [hcharged.other]
          exact (h id b hb).2 _
      · obtain ⟨b, hb, hborrowed, havailable⟩ := htakes.exists_uncharged hid hb'
        rw [hborrowed]
        exact ⟨(h id b hb).1, fun isDl' ↦ (havailable isDl').trans_lt ((h id b hb).2 isDl')⟩
  | returned hbudgets =>
      rw [hbudgets] at hb'
      obtain ⟨b, hb, ⟨-, rfl⟩ | ⟨rfl, rfl⟩⟩ := AList.exists_of_lookup_modify hb'
      · exact h id _ hb
      · split
        · exact ⟨toInt16_mem _, fun isDl ↦ (h id b hb).2 isDl⟩
        · exact h id b hb
  | reported _ _ hbudgets =>
      rw [hbudgets] at hb'
      obtain ⟨b, hb, ⟨-, rfl⟩ | ⟨rfl, rfl⟩⟩ := AList.exists_of_lookup_modify hb'
      · exact h id _ hb
      · rw [borrowedRbs_addUsed]
        refine ⟨(h id b hb).1, fun isDl ↦ ?_⟩
        rw [SliceResourceBudget.available_addUsed]
        exact (h id b hb).2 isDl
  | spared _ hkept => exact h id b' (hkept id b' hb')

omit [Double D] in
theorem countTaken_requestResources (sliceId : SliceId) (rbsNeeded : ℕ) (isDl : Bool) :
    countTaken o (P, .requestResources sliceId rbsNeeded isDl) o' taken =
      Function.update taken sliceId (taken sliceId +
        growth ((accounts o.currentBudgets isDl).limit sliceId)
          ((accounts o'.currentBudgets isDl).limit sliceId)) := rfl

omit [Double D] in
theorem le_countTaken (hop : ∀ cell, op ≠ .calculateBudgets cell) (id : SliceId) :
    taken id ≤ countTaken o (P, op) o' taken id := by
  cases op with
  | calculateBudgets cell => exact absurd rfl (hop cell)
  | requestResources sliceId _ isDl =>
      rw [countTaken_requestResources]
      by_cases hid : id = sliceId
      · rw [hid, Function.update_self]
        exact Nat.le_add_right _ _
      · rw [Function.update_of_ne hid]
  | _ => exact le_rfl

/-- A step keeps every debt below what was taken exactly if a return is within it. -/
theorem borrowedWithin_next_iff (hrange : o.InRange) (hwithin : o.BorrowedWithin taken)
    (htypes : op.FitsTypes) (hnext : o.next (P, op) = some o') :
    o'.BorrowedWithin (countTaken o (P, op) o' taken) ↔ o.ReturnsWithin taken op := by
  cases budgetStep_of_next hnext with
  | calculated =>
      refine iff_of_true (fun id b' hb' ↦ ?_) trivial
      obtain ⟨rbs, -, rfl⟩ := exists_unused_of_budgeted htypes hb'
      exact le_rfl
  | @requested sliceId rbsNeeded n isDl _ htakes hle hnone =>
      refine iff_of_true (fun id b' hb' ↦ ?_) trivial
      rcases Nat.eq_zero_or_pos n with rfl | hpos
      · obtain rfl := htakes.eq_of_zero
        exact (hwithin id b' hb').trans (Nat.cast_le.mpr (le_countTaken (by rintro _ ⟨⟩) id))
      by_cases hid : id = sliceId
      · subst hid
        obtain ⟨b, hb, hcharged⟩ := htakes.exists_charged hpos hb'
        have hn : n < 2 ^ 16 := hle.trans_lt ((o.shortfall_le _ _ _).trans_lt htypes)
        have hgrowth := growth_eq (x := b.available isDl) hn
        rw [Nat.mod_eq_of_lt ((hrange id b hb).2 isDl), ← hcharged.available] at hgrowth
        rw [countTaken_requestResources, Function.update_self, limit_accounts hb,
          limit_accounts hb', hgrowth, hcharged.borrowed]
        have hfloor := (hrange id b hb).1.1
        have hceil := hwithin id b hb
        have := toInt16_le (v := b.borrowedRbs + n) (by omega)
        push_cast
        omega
      · obtain ⟨b, hb, hborrowed, -⟩ := htakes.exists_uncharged hid hb'
        rw [hborrowed]
        exact (hwithin id b hb).trans (Nat.cast_le.mpr (le_countTaken (by rintro _ ⟨⟩) id))
  | @returned sliceId rbsUnused isDl _ hbudgets =>
      constructor
      · intro h b hb hpos
        have hb' : o'.currentBudgets.lookup sliceId =
            some (b.addBorrowed (-min b.borrowedRbs (SliceResourceBudget.toInt16 rbsUnused))) := by
          rw [hbudgets, AList.lookup_modify, if_pos rfl, hb, Option.map_some, if_pos hpos]
        exact (toInt16_return_le_iff hpos (hrange _ b hb).1.2 (hwithin _ b hb) htypes).mp
          (h _ _ hb')
      · intro h id b' hb'
        rw [hbudgets] at hb'
        obtain ⟨b, hb, ⟨-, rfl⟩ | ⟨rfl, rfl⟩⟩ := AList.exists_of_lookup_modify hb'
        · exact hwithin id _ hb
        · split
          case isTrue hpos =>
            exact (toInt16_return_le_iff hpos (hrange _ b hb).1.2 (hwithin _ b hb) htypes).mpr
              (h b hb hpos)
          case isFalse => exact hwithin id b hb
  | reported _ _ hbudgets =>
      refine iff_of_true (fun id b' hb' ↦ ?_) trivial
      rw [hbudgets] at hb'
      obtain ⟨b, hb, ⟨-, rfl⟩ | ⟨rfl, rfl⟩⟩ := AList.exists_of_lookup_modify hb'
      · exact hwithin id _ hb
      · rw [borrowedRbs_addUsed]
        exact hwithin id b hb
  | spared hspares hkept =>
      refine iff_of_true (fun id b' hb' ↦ ?_) ?_
      · exact (hwithin id b' (hkept id b' hb')).trans
          (Nat.cast_le.mpr (le_countTaken (fun cell hop ↦ by subst hop; exact hspares) id))
      · cases op with
        | returnResources => exact hspares.elim
        | _ => trivial

/-- No debt exceeds what was taken throughout a run exactly if no return exceeds it. -/
theorem borrowedWithin_iff_returnsWithin {is : List (Platform × Operation D)}
    (htypes : ∀ i ∈ is, i.2.FitsTypes) :
    Runs.Always (Runs.monitored next countTaken) (fun _ _ p' ↦ p'.1.BorrowedWithin p'.2)
        (create, fun _ ↦ 0) is ↔
      Runs.Always (Runs.monitored next countTaken) (fun p i _ ↦ p.1.ReturnsWithin p.2 i.2)
        (create, fun _ ↦ 0) is := by
  refine Runs.always_iff_of_inputs (p := fun i ↦ i.2.FitsTypes)
    (fun p ↦ p.1.InRange ∧ p.1.BorrowedWithin p.2) ?_ ⟨?_, ?_⟩ htypes
  · rintro ⟨o, taken⟩ ⟨P, op⟩ ⟨o', taken'⟩ hop ⟨hrange, hwithin⟩ hstep
    obtain ⟨hnext, htaken⟩ := Runs.monitored_eq_some.mp hstep
    dsimp only at hop hrange hwithin hnext htaken ⊢
    subst htaken
    exact ⟨borrowedWithin_next_iff hrange hwithin hop hnext,
      fun h ↦ ⟨hrange.next hop hnext, h⟩⟩
  · exact fun id b hb ↦ absurd hb (by simp [create])
  · exact fun id b hb ↦ absurd hb (by simp [create])

/-! ## Two runs with a return -/

omit [Double D] in
theorem borrowsNothing_requestResources_iff {rbsNeeded : ℕ} :
    o.BorrowsNothing (.requestResources id rbsNeeded isDl) ↔
      o.shortfall id rbsNeeded isDl = 0 ∨
        ∀ e ∈ o.currentBudgets.entries, o.lendable isDl id e.1 = 0 := by
  refine or_congr Iff.rfl ⟨fun h e _ ↦ h e.1, fun h other ↦ ?_⟩
  by_contra hlend
  obtain ⟨b, hb, -⟩ := exists_of_lendable (Nat.pos_of_ne_zero hlend)
  exact hlend (h ⟨other, b⟩ (AList.mem_lookup_iff.mp hb))

instance (o : SliceOrchestrator D) (op : Operation D) : Decidable (o.BorrowsNothing op) := by
  induction op using Operation.casesOn with
  | requestResources => exact decidable_of_iff _ borrowsNothing_requestResources_iff.symm
  | _ => exact isTrue trivial

/-- Two slices of five blocks each; the first requests some, and returns two. -/
def requestAndReturn (rbsNeeded : ℕ) : List (Platform × Operation ℚ) :=
  [(.plain, .createSlice (.shared 1 5 10 1) .zero),
    (.plain, .createSlice (.shared 2 5 200 1) .zero),
    (.plain, .calculateBudgets (.create (.fdd 1 10) .cleared)),
    (.plain, .requestResources 1 rbsNeeded true), (.plain, .returnResources 1 2 true)]

theorem ledgerBalances_fiveNeeded :
    Runs.Always (Runs.monitored next countTaken) (fun _ _ p' ↦ LedgerBalances p'.1 p'.2)
      (create, fun _ ↦ 0) (requestAndReturn 5) :=
  (ledgerBalances_iff_borrowsNothing (by decide)).mpr (by decide +kernel)

/-- Three blocks are borrowed, and no field says that the other slice has lent them. -/
theorem not_ledgerBalances :
    ¬ Runs.Always (Runs.monitored next countTaken) (fun _ _ p' ↦ LedgerBalances p'.1 p'.2)
      (create, fun _ ↦ 0) (requestAndReturn 8) := by
  intro h
  have hbalanced : Runs.Always (Runs.monitored next countTaken)
      (fun _ _ p' ↦ borrowedSum p'.1.currentBudgets = 0) (create, fun _ ↦ 0)
      (requestAndReturn 8) :=
    h.imp (fun _ ↦ True) (fun _ _ _ _ _ hledger ↦ ⟨trivial, hledger.balanced⟩) trivial
  exact absurd hbalanced (by decide +kernel)

end SliceOrchestrator

end NrScheduler
