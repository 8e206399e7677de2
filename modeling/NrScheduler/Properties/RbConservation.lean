import NrScheduler.Lib.Accounts
import NrScheduler.Lib.Runs
import NrScheduler.Services.BudgetSpec
import Mathlib.Algebra.BigOperators.Group.Finset.Basic

/-!
# Conservation of resource blocks across slices

The budgets of a slot fit the cell and honour the guarantees.  From there on blocks are
borrowed and reported; per direction the budgets are accounts that lend to slices of
higher priority, so no block is lost or counted twice, and no 16-bit counter wraps around.
-/

namespace NrScheduler

open LockMonad

namespace SliceOrchestrator

/-- The budgets of a slot fit the cell, and honour all guarantees that fit together. -/
theorem calculateBudgets_fit (o : SliceOrchestrator ℚ) (P : Platform) (cell : CellContext)
    (hnum : cell.config.numRbs < 2 ^ 16)
    (hshares : ∀ id config, o.sliceConfigs.lookup id = some config →
      0 ≤ config.sla.resourceShare) :
    ∃ budgets o', (o.calculateBudgets P cell).run none = .ok (budgets, o') ∧
      o'.currentBudgets = budgets ∧ o.BudgetsFit cell.config.numRbs budgets := by
  refine ⟨_, _, o.calculateBudgets_run P cell, rfl, ?_⟩
  rw [currentBudgets_budgeted]
  exact budgetsFit_computeBudgets P hnum hshares

section Conservation

variable {D : Type}

/-! ## Budgets as accounts -/

def accounts (budgets : Budgets) (isDl : Bool) : Accounts SliceId where
  limit id := ((budgets.lookup id).map (·.available isDl)).getD 0
  spent id := ((budgets.lookup id).map (·.used isDl)).getD 0

/-- Slices of higher priority have smaller numbers. -/
def rank (o : SliceOrchestrator D) (id : SliceId) : ℕ :=
  ((o.sliceConfigs.lookup id).map fun config ↦ config.sla.slicePriority).getD 0

def remainingSum (o : SliceOrchestrator D) (isDl : Bool) : ℕ :=
  o.currentBudgets.sumOf (·.remaining isDl)

/-- The accounts of both directions are bounded. -/
def BudgetsBounded (o : SliceOrchestrator D) (total : ℕ) : Prop :=
  ∀ isDl, (accounts o.currentBudgets isDl).Bounded o.rank o.currentBudgets.keys.toFinset total

theorem sumOf_eq_sum (budgets : Budgets) (f : SliceResourceBudget → ℕ) :
    budgets.sumOf f = ∑ id ∈ budgets.keys.toFinset, ((budgets.lookup id).map f).getD 0 := by
  rw [List.sum_toFinset _ budgets.keys_nodup, AList.sumOf, AList.keys, List.keys, List.map_map]
  refine congrArg List.sum (List.map_congr_left fun e he ↦ ?_)
  have hlookup : budgets.lookup e.1 = some e.2 := AList.mem_lookup_iff.mpr he
  simp [hlookup]

variable {o : SliceOrchestrator D} {total : ℕ} {id : SliceId} {b : SliceResourceBudget}

theorem mem_keys_of_lookup (h : o.currentBudgets.lookup id = some b) :
    id ∈ o.currentBudgets.keys.toFinset :=
  List.mem_toFinset.mpr (AList.mem_keys.mp (AList.mem_of_lookup h))

theorem BudgetsBounded.budget (h : o.BudgetsBounded total)
    (hb : o.currentBudgets.lookup id = some b) (isDl : Bool) :
    b.used isDl ≤ b.available isDl ∧ b.available isDl ≤ total := by
  have hspent := (h isDl).spent_le id (mem_keys_of_lookup hb)
  have hlimit := (h isDl).limit_le id (mem_keys_of_lookup hb)
  simp only [accounts, hb, Option.map_some, Option.getD_some] at hspent hlimit
  omega

theorem BudgetsBounded.remaining_eq (h : o.BudgetsBounded total) (htotal : total < 2 ^ 16)
    (hb : o.currentBudgets.lookup id = some b) (isDl : Bool) :
    b.remaining isDl = (accounts o.currentBudgets isDl).left id := by
  obtain ⟨hused, hle⟩ := h.budget hb isDl
  simp only [SliceResourceBudget.remaining, Accounts.left, accounts, hb, Option.map_some,
    Option.getD_some]
  omega

theorem BudgetsBounded.remainingSum_eq (h : o.BudgetsBounded total) (htotal : total < 2 ^ 16)
    (isDl : Bool) : o.remainingSum isDl =
      ∑ id ∈ o.currentBudgets.keys.toFinset, (accounts o.currentBudgets isDl).left id := by
  rw [remainingSum, sumOf_eq_sum]
  refine Finset.sum_congr rfl fun id hid ↦ ?_
  have hmem : id ∈ o.currentBudgets := AList.mem_keys.mpr (List.mem_toFinset.mp hid)
  obtain ⟨b, hb⟩ := AList.exists_lookup hmem
  rw [hb, Option.map_some, Option.getD_some, h.remaining_eq htotal hb]

theorem budgetsBounded_of_sumOf_le
    (hwithin : ∀ id b, o.currentBudgets.lookup id = some b →
      ∀ isDl, b.used isDl ≤ b.available isDl)
    (hsum : ∀ isDl, o.currentBudgets.sumOf (·.available isDl) ≤ total) :
    o.BudgetsBounded total := by
  intro isDl
  refine Accounts.bounded_of_sum_le (fun id _ ↦ ?_) ?_
  · cases hb : o.currentBudgets.lookup id with
    | none => simp [accounts, hb]
    | some b => simp [accounts, hb, hwithin id b hb]
  · exact (sumOf_eq_sum o.currentBudgets (·.available isDl)).symm.trans_le (hsum isDl)

/-! ## Steps -/

theorem measure_modify {budgets : Budgets} (hb : budgets.lookup id = some b)
    (f : SliceResourceBudget → SliceResourceBudget) (g : SliceResourceBudget → ℕ) :
    (fun id' ↦ (((budgets.modify id f).lookup id').map g).getD 0) =
      Function.update (fun id' ↦ ((budgets.lookup id').map g).getD 0) id (g (f b)) := by
  funext id'
  rw [AList.lookup_modify]
  by_cases hid : id' = id
  · subst hid
    simp [hb]
  · simp [hid]

theorem accounts_modify {budgets : Budgets} (hb : budgets.lookup id = some b)
    (f : SliceResourceBudget → SliceResourceBudget) (isDl : Bool) :
    accounts (budgets.modify id f) isDl =
      { limit := Function.update (accounts budgets isDl).limit id ((f b).available isDl)
        spent := Function.update (accounts budgets isDl).spent id ((f b).used isDl) } := by
  simp only [accounts, measure_modify hb]

theorem limit_accounts {budgets : Budgets} (hb : budgets.lookup id = some b) (isDl : Bool) :
    (accounts budgets isDl).limit id = b.available isDl := by
  simp [accounts, hb]

theorem spent_accounts {budgets : Budgets} (hb : budgets.lookup id = some b) (isDl : Bool) :
    (accounts budgets isDl).spent id = b.used isDl := by
  simp [accounts, hb]

theorem accounts_modify_of_same {budgets : Budgets} {isDl : Bool}
    {f : SliceResourceBudget → SliceResourceBudget}
    (hf : ∀ b, (f b).available isDl = b.available isDl ∧ (f b).used isDl = b.used isDl) :
    accounts (budgets.modify id f) isDl = accounts budgets isDl := by
  cases hb : budgets.lookup id with
  | none => rw [AList.modify_of_notMem (AList.lookup_eq_none.mp hb)]
  | some b =>
      rw [accounts_modify hb, (hf b).1, (hf b).2, ← limit_accounts hb, ← spent_accounts hb]
      simp

/-- The state after a step, with its budgets bounded and `spent` blocks fewer left. -/
structure Conserves (total : ℕ) (spent : Bool → ℕ) (o o' : SliceOrchestrator D) : Prop where
  bounded : o'.BudgetsBounded total
  remaining : ∀ isDl, o'.remainingSum isDl + spent isDl = o.remainingSum isDl

theorem Conserves.trans {o o₁ o₂ : SliceOrchestrator D}
    (h₁ : Conserves total (fun _ ↦ 0) o o₁) (h₂ : Conserves total (fun _ ↦ 0) o₁ o₂) :
    Conserves total (fun _ ↦ 0) o o₂ :=
  ⟨h₂.bounded, fun isDl ↦ (h₂.remaining isDl).trans (h₁.remaining isDl)⟩

theorem BudgetsBounded.conserves_of_same (h : o.BudgetsBounded total) (htotal : total < 2 ^ 16)
    {o' : SliceOrchestrator D} (hrank : o'.rank = o.rank)
    (hkeys : o'.currentBudgets.keys = o.currentBudgets.keys)
    (haccounts : ∀ isDl, accounts o'.currentBudgets isDl = accounts o.currentBudgets isDl) :
    Conserves total (fun _ ↦ 0) o o' := by
  have h' : o'.BudgetsBounded total := by
    intro isDl
    rw [haccounts, hrank, hkeys]
    exact h isDl
  refine ⟨h', fun isDl ↦ ?_⟩
  rw [h'.remainingSum_eq htotal, h.remainingSum_eq htotal, haccounts, hkeys, Nat.add_zero]

theorem BudgetsBounded.conserves (h : o.BudgetsBounded total) (htotal : total < 2 ^ 16)
    {o' : SliceOrchestrator D} {isDl : Bool} {n : ℕ} (hrank : o'.rank = o.rank)
    (hkeys : o'.currentBudgets.keys = o.currentBudgets.keys)
    (hother : accounts o'.currentBudgets (!isDl) = accounts o.currentBudgets (!isDl))
    (hbounded : (accounts o'.currentBudgets isDl).Bounded o.rank
      o.currentBudgets.keys.toFinset total)
    (hsum : ∑ id ∈ o.currentBudgets.keys.toFinset, (accounts o'.currentBudgets isDl).left id + n =
      ∑ id ∈ o.currentBudgets.keys.toFinset, (accounts o.currentBudgets isDl).left id) :
    Conserves total (fun isDl' ↦ if isDl' = isDl then n else 0) o o' := by
  have h' : o'.BudgetsBounded total := by
    intro isDl'
    rw [hrank, hkeys]
    rcases Bool.eq_or_eq_not isDl' isDl with rfl | rfl
    · exact hbounded
    · rw [hother]
      exact h _
  refine ⟨h', fun isDl' ↦ ?_⟩
  rw [h'.remainingSum_eq htotal, h.remainingSum_eq htotal, hkeys]
  rcases Bool.eq_or_eq_not isDl' isDl with rfl | rfl
  · rw [if_pos rfl, hsum]
  · rw [if_neg (Bool.not_ne_self isDl), hother, Nat.add_zero]

/-- A slice reports blocks that its budget has left. -/
theorem BudgetsBounded.report (h : o.BudgetsBounded total) (htotal : total < 2 ^ 16)
    (hb : o.currentBudgets.lookup id = some b) {isDl : Bool} {rbs : ℕ}
    (hrbs : rbs ≤ b.remaining isDl) {o' : SliceOrchestrator D} (hrank : o'.rank = o.rank)
    (hbudgets : o'.currentBudgets = o.currentBudgets.modify id fun b ↦ b.addUsed isDl rbs) :
    Conserves total (fun isDl' ↦ if isDl' = isDl then rbs else 0) o o' := by
  rw [h.remaining_eq htotal hb isDl] at hrbs
  obtain ⟨hused, hle⟩ := h.budget hb isDl
  have hspend : accounts o'.currentBudgets isDl =
      (accounts o.currentBudgets isDl).spend id rbs := by
    have hleft := hrbs
    rw [Accounts.left, limit_accounts hb, spent_accounts hb] at hleft
    have hnowrap : (b.used isDl + rbs) % 2 ^ 16 = b.used isDl + rbs := by omega
    rw [hbudgets, accounts_modify hb, SliceResourceBudget.available_addUsed,
      SliceResourceBudget.used_addUsed_self, hnowrap, Accounts.spend, ← limit_accounts hb,
      Function.update_eq_self, spent_accounts hb]
  refine h.conserves htotal hrank (by rw [hbudgets, AList.keys_modify]) ?_ ?_ ?_
  · rw [hbudgets]
    exact accounts_modify_of_same fun b ↦ by simp
  · rw [hspend]
    exact (h isDl).spend hrbs
  · rw [hspend]
    exact Accounts.sum_spend (mem_keys_of_lookup hb) hrbs

theorem BudgetsBounded.accounts_lend (h : o.BudgetsBounded total) (htotal : total < 2 ^ 16)
    {other : SliceId} {bOther : SliceResourceBudget} (hb : o.currentBudgets.lookup id = some b)
    (hbOther : o.currentBudgets.lookup other = some bOther) (hranks : o.rank id < o.rank other)
    {isDl : Bool} {rbs : ℕ} (hrbs : rbs ≤ bOther.remaining isDl) :
    accounts ((o.currentBudgets.modify other fun b ↦ b.addUsed isDl rbs).modify id fun b ↦
        (b.addAvailable isDl rbs).addBorrowed rbs) isDl =
      (accounts o.currentBudgets isDl).lend id other rbs := by
  rw [h.remaining_eq htotal hbOther isDl] at hrbs
  have hne : id ≠ other := fun heq ↦ absurd hranks (heq ▸ lt_irrefl _)
  have havailable : (b.available isDl + rbs) % 2 ^ 16 = b.available isDl + rbs := by
    have hlimit := ((h isDl).lend (mem_keys_of_lookup hbOther) hranks hrbs).limit_le id
      (mem_keys_of_lookup hb)
    rw [Accounts.limit_lend_self, limit_accounts hb] at hlimit
    omega
  have hused : (bOther.used isDl + rbs) % 2 ^ 16 = bOther.used isDl + rbs := by
    obtain ⟨_, hle⟩ := h.budget hbOther isDl
    rw [Accounts.left, limit_accounts hbOther, spent_accounts hbOther] at hrbs
    omega
  have hb' : (o.currentBudgets.modify other fun b ↦ b.addUsed isDl rbs).lookup id = some b := by
    rw [AList.lookup_modify_ne hne, hb]
  have hspent : Function.update (accounts o.currentBudgets isDl).spent other
      (bOther.used isDl + rbs) id = b.used isDl := by
    rw [Function.update_of_ne hne, spent_accounts hb]
  rw [accounts_modify hb', accounts_modify hbOther]
  simp only [SliceResourceBudget.available_addBorrowed, SliceResourceBudget.used_addBorrowed,
    SliceResourceBudget.available_addAvailable_self, SliceResourceBudget.used_addAvailable,
    SliceResourceBudget.available_addUsed, SliceResourceBudget.used_addUsed_self,
    havailable, hused]
  rw [Accounts.lend, ← hspent, Function.update_eq_self, ← limit_accounts hbOther,
    Function.update_eq_self, limit_accounts hb, spent_accounts hbOther]

theorem accounts_lend_other (budgets : Budgets) (id other : SliceId) (isDl : Bool) (rbs : ℕ) :
    accounts ((budgets.modify other fun b ↦ b.addUsed isDl rbs).modify id fun b ↦
      (b.addAvailable isDl rbs).addBorrowed rbs) (!isDl) = accounts budgets (!isDl) := by
  rw [accounts_modify_of_same, accounts_modify_of_same]
  · exact fun b ↦ by simp
  · exact fun b ↦ by simp

/-- A slice lends blocks that its budget has left to one of higher priority. -/
theorem BudgetsBounded.lend (h : o.BudgetsBounded total) (htotal : total < 2 ^ 16)
    {other : SliceId} {bOther : SliceResourceBudget} (hb : o.currentBudgets.lookup id = some b)
    (hbOther : o.currentBudgets.lookup other = some bOther) (hranks : o.rank id < o.rank other)
    {isDl : Bool} {rbs : ℕ} (hrbs : rbs ≤ bOther.remaining isDl) {o' : SliceOrchestrator D}
    (hrank : o'.rank = o.rank) (hbudgets : o'.currentBudgets =
      (o.currentBudgets.modify other fun b ↦ b.addUsed isDl rbs).modify id fun b ↦
        (b.addAvailable isDl rbs).addBorrowed rbs) :
    Conserves total (fun _ ↦ 0) o o' := by
  have hlend := h.accounts_lend htotal hb hbOther hranks hrbs
  rw [← hbudgets] at hlend
  rw [h.remaining_eq htotal hbOther isDl] at hrbs
  have hne : id ≠ other := fun heq ↦ absurd hranks (heq ▸ lt_irrefl _)
  have hconserves : Conserves total (fun isDl' ↦ if isDl' = isDl then 0 else 0) o o' := by
    refine h.conserves htotal hrank ?_ ?_ ?_ ?_
    · rw [hbudgets, AList.keys_modify, AList.keys_modify]
    · rw [hbudgets, accounts_lend_other]
    · rw [hlend]
      exact (h isDl).lend (mem_keys_of_lookup hbOther) hranks hrbs
    · rw [hlend]
      exact Accounts.sum_lend (h isDl) (mem_keys_of_lookup hb) (mem_keys_of_lookup hbOther) hne
        hrbs
  simpa using hconserves

/-! ## Borrowing -/

section Borrowing

variable {isDl : Bool} {other : SliceId} {config : SliceConfig D} {toBorrow borrowed : ℕ}

/-- A slice preempts the preemptible ones whose priority has a larger number. -/
def mayPreempt (o : SliceOrchestrator D) (id other : SliceId) : Bool :=
  match o.sliceConfigs.lookup id, o.sliceConfigs.lookup other with
  | some config, some otherConfig =>
      decide (other ≠ id) && otherConfig.sla.preemptible &&
        decide (config.sla.slicePriority < otherConfig.sla.slicePriority)
  | _, _ => false

def lendable (o : SliceOrchestrator D) (isDl : Bool) (id other : SliceId) : ℕ :=
  if o.mayPreempt id other then
    ((o.currentBudgets.lookup other).map (·.remaining isDl)).getD 0
  else 0

/-- The state after the slice has taken blocks from another one. -/
def take (o : SliceOrchestrator D) (isDl : Bool) (id other : SliceId) (rbs : ℕ) :
    SliceOrchestrator D :=
  { o with
    currentBudgets := (o.currentBudgets.modify other fun b ↦ b.addUsed isDl rbs).modify id fun b ↦
      (b.addAvailable isDl rbs).addBorrowed rbs
    stats := { o.stats with
      resourceBorrowingEvents := o.stats.resourceBorrowingEvents + 1 } }

theorem lendable_self : o.lendable isDl id id = 0 := by
  rw [lendable, mayPreempt]
  split <;> simp

theorem exists_of_lendable (h : 0 < o.lendable isDl id other) : ∃ b,
    o.currentBudgets.lookup other = some b ∧ o.lendable isDl id other = b.remaining isDl ∧
      other ≠ id ∧ o.rank id < o.rank other := by
  have hmay : o.mayPreempt id other = true := by
    by_contra hnot
    rw [lendable, if_neg hnot] at h
    exact Nat.lt_irrefl 0 h
  cases hb : o.currentBudgets.lookup other with
  | none =>
      rw [lendable, if_pos hmay, hb] at h
      exact (Nat.lt_irrefl 0 h).elim
  | some b =>
      have hlendable : o.lendable isDl id other = b.remaining isDl := by
        rw [lendable, if_pos hmay, hb, Option.map_some, Option.getD_some]
      refine ⟨b, rfl, hlendable, ?_⟩
      rw [mayPreempt] at hmay
      split at hmay
      case h_1 config otherConfig hconfig hother =>
        simp only [Bool.and_eq_true, decide_eq_true_eq] at hmay
        obtain ⟨⟨hne, _⟩, hlt⟩ := hmay
        exact ⟨hne, by simpa [rank, hconfig, hother] using hlt⟩
      case h_2 => cases hmay

theorem borrowLoop_cons {rest : List SliceId}
    (hconfig : o.sliceConfigs.lookup id = some config) :
    borrowLoop id config toBorrow isDl (other :: rest) borrowed o =
      let toTake := min (toBorrow - borrowed) (o.lendable isDl id other)
      if toTake = 0 then borrowLoop id config toBorrow isDl rest borrowed o
      else if toBorrow ≤ borrowed + toTake then (borrowed + toTake, o.take isDl id other toTake)
      else
        borrowLoop id config toBorrow isDl rest (borrowed + toTake)
          (o.take isDl id other toTake) := by
  rw [borrowLoop]
  cases hother : o.sliceConfigs.lookup other with
  | none =>
      have hnone : o.lendable isDl id other = 0 := by
        rw [lendable, mayPreempt, hconfig, hother]
        rfl
      simp [hnone]
  | some otherConfig =>
      cases hb : o.currentBudgets.lookup other with
      | none =>
          have hnone : o.lendable isDl id other = 0 := by
            rw [lendable, hb]
            exact ite_self 0
          simp [hnone]
      | some b =>
          have hlendable : o.lendable isDl id other = if o.mayPreempt id other then
              b.remaining isDl else 0 := by
            rw [lendable, hb, Option.map_some, Option.getD_some]
          have hmay : o.mayPreempt id other = (decide (other ≠ id) &&
              otherConfig.sla.preemptible &&
                decide (config.sla.slicePriority < otherConfig.sla.slicePriority)) := by
            rw [mayPreempt, hconfig, hother]
          rw [hlendable, hmay]
          dsimp only
          generalize b.remaining isDl = rbs
          by_cases hid : other = id
          · simp [hid]
          cases hpreemptible : otherConfig.sla.preemptible with
          | false => simp [hid]
          | true =>
              by_cases hlt : config.sla.slicePriority < otherConfig.sla.slicePriority
              · simp [hid, hlt, Nat.not_le.mpr hlt, take]
              · simp [hid, hlt, Nat.not_lt.mp hlt]

theorem BudgetsBounded.take (h : o.BudgetsBounded total) (htotal : total < 2 ^ 16)
    (hid : id ∈ o.currentBudgets) {rbs : ℕ} (hpos : 0 < rbs)
    (hrbs : rbs ≤ o.lendable isDl id other) :
    Conserves total (fun _ ↦ 0) o (o.take isDl id other rbs) := by
  obtain ⟨b, hb⟩ := AList.exists_lookup hid
  obtain ⟨bOther, hbOther, hlendable, _, hranks⟩ := exists_of_lendable (hpos.trans_le hrbs)
  rw [hlendable] at hrbs
  exact h.lend htotal hb hbOther hranks hrbs rfl rfl

theorem BudgetsBounded.borrowLoop (h : o.BudgetsBounded total) (htotal : total < 2 ^ 16)
    (hconfig : o.sliceConfigs.lookup id = some config) (hid : id ∈ o.currentBudgets)
    {others : List SliceId} :
    Conserves total (fun _ ↦ 0) o
      (SliceOrchestrator.borrowLoop id config toBorrow isDl others borrowed o).2 := by
  induction others generalizing borrowed o with
  | nil => exact ⟨h, fun _ ↦ rfl⟩
  | cons other rest ih =>
      rw [borrowLoop_cons hconfig]
      set toTake := min (toBorrow - borrowed) (o.lendable isDl id other)
      by_cases hnone : toTake = 0
      · rw [if_pos hnone]
        exact ih h hconfig hid
      rw [if_neg hnone]
      have htaken := h.take htotal hid (Nat.pos_of_ne_zero hnone) (Nat.min_le_right _ _)
      split
      · exact htaken
      · apply htaken.trans
        exact ih htaken.bounded hconfig (AList.mem_modify.mpr (AList.mem_modify.mpr hid))

end Borrowing

/-! ## Runs -/

/-- The slices and their budgets are not set up anew, and no report exceeds the budget. -/
def KeepsToBudgets (o : SliceOrchestrator D) : Operation D → Prop
  | .createSlice _ _ | .updateSlice _ _ | .deleteSlice _ | .calculateBudgets _ => False
  | .reportScheduling rnti rbs _ isDl => o.allows rnti rbs isDl = true
  | _ => True

/-- The blocks that an operation reports in a direction against a budget. -/
def reported (o : SliceOrchestrator D) (isDl : Bool) : Operation D → ℕ
  | .reportScheduling rnti rbs _ isDl' =>
      if (o.ueBudget rnti).isSome = true ∧ isDl = isDl' then rbs else 0
  | _ => 0

def countReported (o : SliceOrchestrator D) (i : Platform × Operation D)
    (_ : SliceOrchestrator D) (count : Bool → ℕ) (isDl : Bool) : ℕ :=
  count isDl + o.reported isDl i.2

variable [Double D]

/-- Every operation that keeps to the budgets conserves the blocks. -/
theorem BudgetsBounded.next (h : o.BudgetsBounded total) (htotal : total < 2 ^ 16)
    {o' : SliceOrchestrator D} {P : Platform} {op : Operation D}
    (hnext : o.next (P, op) = some o') (hkeeps : o.KeepsToBudgets op) :
    Conserves total (fun isDl ↦ o.reported isDl op) o o' := by
  obtain ⟨o₁, hnext₁, ⟨hidle, hsame⟩ | ⟨_, heffect⟩⟩ := o.next_spec P op
  · obtain rfl := Option.some.inj (hnext.symm.trans hnext₁)
    subst hsame
    have hreported : (fun isDl ↦ o'.reported isDl op) = fun _ ↦ 0 := by
      funext isDl
      cases op with
      | reportScheduling rnti =>
          have hno : o'.ueSliceMap.lookup rnti = none :=
            AList.lookup_eq_none.mpr (of_decide_eq_true hidle)
          simp [reported, ueBudget, hno]
      | _ => rfl
    rw [hreported]
    exact ⟨h, fun _ ↦ rfl⟩
  · obtain rfl := Option.some.inj (hnext.symm.trans hnext₁)
    cases heffect with
    | created => exact hkeeps.elim
    | updated => exact hkeeps.elim
    | deleted => exact hkeeps.elim
    | budgeted => exact hkeeps.elim
    | borrowed hbudget hconfig => exact h.borrowLoop htotal hconfig hbudget
    | returned =>
        refine h.conserves_of_same htotal rfl (AList.keys_modify ..) fun isDl ↦ ?_
        refine accounts_modify_of_same fun b ↦ ?_
        split <;> simp
    | @reported rnti sliceId rbs bytes isDl hslice =>
        have hue : o.ueBudget rnti = o.currentBudgets.lookup sliceId := by
          rw [ueBudget, hslice, Option.bind_some]
        cases hb : o.currentBudgets.lookup sliceId with
        | none =>
            have hreported : (fun isDl' ↦ o.reported isDl'
                (.reportScheduling rnti rbs bytes isDl)) = fun _ ↦ 0 := by
              funext isDl'
              simp [reported, hue, hb]
            rw [hreported]
            refine h.conserves_of_same htotal rfl (AList.keys_modify ..) fun isDl' ↦ ?_
            dsimp only
            rw [AList.modify_of_notMem (AList.lookup_eq_none.mp hb)]
        | some b =>
            have hreported : (fun isDl' ↦ o.reported isDl'
                (.reportScheduling rnti rbs bytes isDl)) =
                  fun isDl' ↦ if isDl' = isDl then rbs else 0 := by
              funext isDl'
              simp [reported, hue, hb]
            have hrbs : rbs ≤ b.remaining isDl := by
              rw [KeepsToBudgets, allows, hue, hb] at hkeeps
              exact of_decide_eq_true hkeeps
            rw [hreported]
            exact h.report htotal hb hrbs rfl rfl
    | _ => exact h.conserves_of_same htotal rfl rfl fun _ ↦ rfl

end Conservation

/-- Every budget covers what is used of it, and the blocks left and reported in a direction
are as many as there were. -/
structure Conserved (sum : Bool → ℕ) (o : SliceOrchestrator ℚ) (count : Bool → ℕ) : Prop where
  within : ∀ id b, o.currentBudgets.lookup id = some b →
    ∀ isDl, b.used isDl ≤ b.available isDl
  conserved : ∀ isDl, o.remainingSum isDl + count isDl = sum isDl

theorem BudgetsFit.bounded {o o₁ : SliceOrchestrator ℚ} {totalRbs : ℕ}
    (h : o.BudgetsFit totalRbs o₁.currentBudgets) : o₁.BudgetsBounded totalRbs := by
  refine budgetsBounded_of_sumOf_le (fun id b hb isDl ↦ ?_) h.fits
  rw [h.unused id b hb]
  exact Nat.zero_le _

/-- After the budgets of a slot are calculated, no sequence of operations that keeps to them
uses more of a budget than it has, and the blocks left and the blocks reported always add up
to those left at first, which are no more than the cell has. -/
theorem rbs_conserved {o o₁ : SliceOrchestrator ℚ} {P : Platform} {cell : CellContext}
    {budgets : Budgets} (hnum : cell.config.numRbs ≤ 273)
    (hshares : ∀ id config, o.sliceConfigs.lookup id = some config →
      0 ≤ config.sla.resourceShare)
    (hcalculate : (o.calculateBudgets P cell).run none = .ok (budgets, o₁))
    {is : List (Platform × Operation ℚ)}
    (hkeeps : Runs.Always (Runs.monitored next countReported)
      (fun p i _ ↦ p.1.KeepsToBudgets i.2) (o₁, fun _ ↦ 0) is) :
    (∀ isDl, o₁.remainingSum isDl ≤ cell.config.numRbs) ∧
      o₁.Conserved o₁.remainingSum (fun _ ↦ 0) ∧
      Runs.Always (Runs.monitored next countReported)
        (fun _ _ p' ↦ p'.1.Conserved o₁.remainingSum p'.2) (o₁, fun _ ↦ 0) is := by
  have htotal : cell.config.numRbs < 2 ^ 16 := by omega
  have hfit : o.BudgetsFit cell.config.numRbs o₁.currentBudgets := by
    rw [calculateBudgets_run] at hcalculate
    obtain ⟨-, rfl⟩ := Prod.mk.inj (Except.ok.inj hcalculate)
    rw [currentBudgets_budgeted]
    exact budgetsFit_computeBudgets P htotal hshares
  have hbounded := hfit.bounded
  have hwithin : ∀ {o' : SliceOrchestrator ℚ}, o'.BudgetsBounded cell.config.numRbs →
      ∀ id b, o'.currentBudgets.lookup id = some b → ∀ isDl, b.used isDl ≤ b.available isDl :=
    fun h _ _ hb isDl ↦ (h.budget hb isDl).1
  refine ⟨fun isDl ↦ ?_, ⟨hwithin hbounded, fun _ ↦ rfl⟩, ?_⟩
  · rw [hbounded.remainingSum_eq htotal]
    refine (Finset.sum_le_sum fun id _ ↦ Nat.sub_le _ _).trans ?_
    exact (sumOf_eq_sum o₁.currentBudgets (·.available isDl)).symm.trans_le (hfit.fits isDl)
  · refine hkeeps.imp (fun p ↦ p.1.BudgetsBounded cell.config.numRbs ∧
      ∀ isDl, p.1.remainingSum isDl + p.2 isDl = o₁.remainingSum isDl) ?_
      ⟨hbounded, fun _ ↦ rfl⟩
    rintro ⟨o', count⟩ ⟨P', op⟩ ⟨o'', count'⟩ ⟨hbounded', hsum⟩ hstep hop
    obtain ⟨hnext, hcount⟩ := Runs.monitored_eq_some.mp hstep
    obtain ⟨hbounded'', hremaining⟩ := hbounded'.next htotal hnext hop
    have hsum' : ∀ isDl, o''.remainingSum isDl + count' isDl = o₁.remainingSum isDl := by
      intro isDl
      have hbefore := hsum isDl
      have hafter := hremaining isDl
      have hadded : count' isDl = count isDl + o'.reported isDl op := congrFun hcount isDl
      dsimp only at hbefore hafter
      omega
    exact ⟨⟨hbounded'', hsum'⟩, hwithin hbounded'', hsum'⟩

/-! ## Two slices -/

/-- A slice of high priority with a user, and one to borrow from. -/
def twoSlices : SliceOrchestrator ℚ :=
  { create with
    sliceConfigs := (AList.insert 2 (.shared 2 5 200 1) ∅).insert 1 (.shared 1 5 10 1)
    ueSliceMap := AList.insert 7 1 ∅ }

theorem twoSlices_shares (id : SliceId) (config : SliceConfig ℚ)
    (h : twoSlices.sliceConfigs.lookup id = some config) : 0 ≤ config.sla.resourceShare := by
  have hmem : (⟨id, config⟩ : Sigma fun _ : SliceId ↦ SliceConfig ℚ) ∈
      [⟨1, .shared 1 5 10 1⟩, ⟨2, .shared 2 5 200 1⟩] := AList.mem_lookup_iff.mp h
  simp only [List.mem_cons, List.not_mem_nil, or_false, Sigma.mk.injEq, heq_eq_eq] at hmem
  rcases hmem with ⟨rfl, rfl⟩ | ⟨rfl, rfl⟩
  · exact zero_le_one
  · exact zero_le_one

instance (o : SliceOrchestrator ℚ) (op : Operation ℚ) : Decidable (o.KeepsToBudgets op) := by
  cases op with
  | createSlice => exact isFalse id
  | updateSlice => exact isFalse id
  | deleteSlice => exact isFalse id
  | calculateBudgets => exact isFalse id
  | reportScheduling rnti rbs bytes isDl =>
      exact inferInstanceAs (Decidable (o.allows rnti rbs isDl = true))
  | _ => exact isTrue trivial

theorem calculateBudgets_fit_twoSlices :
    ∃ budgets o', (twoSlices.calculateBudgets .plain (.create (.fdd 1 20) .cleared)).run none =
        .ok (budgets, o') ∧ o'.currentBudgets = budgets ∧ twoSlices.BudgetsFit 20 budgets :=
  twoSlices.calculateBudgets_fit .plain (.create (.fdd 1 20) .cleared) (by decide)
    twoSlices_shares

/-- The first slice borrows all that the second one has, and its user reports it. -/
theorem rbs_conserved_twoSlices :
    ∃ budgets o₁, (twoSlices.calculateBudgets .plain (.create (.fdd 1 20) .cleared)).run none =
        .ok (budgets, o₁) ∧
      (∀ isDl, o₁.remainingSum isDl ≤ 20) ∧ o₁.Conserved o₁.remainingSum (fun _ ↦ 0) ∧
      Runs.Always (Runs.monitored next countReported)
        (fun _ _ p' ↦ p'.1.Conserved o₁.remainingSum p'.2) (o₁, fun _ ↦ 0)
        [(.plain, .requestResources 1 18 true), (.plain, .reportScheduling 7 18 1000 true),
          (.plain, .returnResources 1 2 true)] :=
  ⟨_, _, twoSlices.calculateBudgets_run .plain _, rbs_conserved (by decide) twoSlices_shares
    (twoSlices.calculateBudgets_run .plain _) (by decide +kernel)⟩

end SliceOrchestrator

end NrScheduler
