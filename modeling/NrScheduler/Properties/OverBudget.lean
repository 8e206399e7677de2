import NrScheduler.Properties.BlockTransfers
import NrScheduler.Services.BudgetValues

/-!
# Slices over their budgets

The gate of `is_scheduling_allowed` compares with a 16-bit difference, which wraps around
where more is used than available: a slice that has reported more than it had left passes
with almost any number of blocks.  As long as no report exceeds what is left, the gate is
sound, whatever is borrowed.
-/

namespace NrScheduler

open LockMonad

namespace SliceOrchestrator

variable {D : Type} {o o' : SliceOrchestrator D} {isDl : Bool} {id other : SliceId} {n : ℕ}
variable {A : Bool → Accounts SliceId}

/-! ## Accounts without a limit -/

/-- The accounts after a step: they start with the budgets of a slot, are charged with what
is reported, and a request changes them by as much as the counters of the budgets. -/
def book (o : SliceOrchestrator D) (i : Platform × Operation D) (o' : SliceOrchestrator D)
    (A : Bool → Accounts SliceId) (isDl : Bool) : Accounts SliceId :=
  match i.2 with
  | .calculateBudgets _ => accounts o'.currentBudgets isDl
  | .reportScheduling rnti rbs _ isDl' =>
      match o.ueSliceMap.lookup rnti with
      | none => A isDl
      | some id => if isDl = isDl' then (A isDl).spend id rbs else A isDl
  | .requestResources _ _ _ =>
      let before := accounts o.currentBudgets isDl
      let after := accounts o'.currentBudgets isDl
      { limit id := (A isDl).limit id + growth (before.limit id) (after.limit id)
        spent id := (A isDl).spent id + growth (before.spent id) (after.spent id) }
  | _ => A isDl

/-- Whenever the gate lets a user pass, its slice has that many blocks left. -/
def GuardSound (o : SliceOrchestrator D) (A : Bool → Accounts SliceId) : Prop :=
  ∀ rnti id, o.ueSliceMap.lookup rnti = some id → id ∈ o.currentBudgets → ∀ rbs isDl,
    (o.isSchedulingAllowed rnti rbs isDl).run none = .ok true →
      (A isDl).spent id + rbs ≤ (A isDl).limit id

/-- A report does not exceed what the slice has left. -/
def ReportsWithin (o : SliceOrchestrator D) (A : Bool → Accounts SliceId) : Operation D → Prop
  | .reportScheduling rnti rbs _ isDl =>
      ∀ id, o.ueSliceMap.lookup rnti = some id → id ∈ o.currentBudgets →
        (A isDl).spent id + rbs ≤ (A isDl).limit id
  | _ => True

/-- The fields of the budgets are the accounts modulo 65536, and no account is overdrawn. -/
structure Booked (A : Bool → Accounts SliceId) (o : SliceOrchestrator D) : Prop where
  available : ∀ id b, o.currentBudgets.lookup id = some b →
    ∀ isDl, b.available isDl = (A isDl).limit id % 2 ^ 16
  used : ∀ id b, o.currentBudgets.lookup id = some b →
    ∀ isDl, b.used isDl = (A isDl).spent id % 2 ^ 16
  within : ∀ id ∈ o.currentBudgets, ∀ isDl, (A isDl).spent id ≤ (A isDl).limit id

theorem Booked.congr {A' : Bool → Accounts SliceId} (h : Booked A o)
    (hsame : ∀ id ∈ o.currentBudgets, ∀ isDl,
      (A' isDl).limit id = (A isDl).limit id ∧ (A' isDl).spent id = (A isDl).spent id) :
    Booked A' o := by
  constructor
  case available =>
    intro id b hb isDl
    rw [(hsame id (AList.mem_of_lookup hb) isDl).1, h.available id b hb]
  case used =>
    intro id b hb isDl
    rw [(hsame id (AList.mem_of_lookup hb) isDl).2, h.used id b hb]
  case within =>
    intro id hid isDl
    rw [(hsame id hid isDl).1, (hsame id hid isDl).2]
    exact h.within id hid isDl

/-- A step that changes no field of the accounts, and adds no budget. -/
theorem Booked.of_lookup (h : Booked A o)
    (hbudgets : ∀ id b', o'.currentBudgets.lookup id = some b' →
      ∃ b, o.currentBudgets.lookup id = some b ∧
        ∀ isDl, b'.available isDl = b.available isDl ∧ b'.used isDl = b.used isDl) :
    Booked A o' := by
  constructor
  case available =>
    intro id b' hb' isDl
    obtain ⟨b, hb, hsame⟩ := hbudgets id b' hb'
    rw [(hsame isDl).1, h.available id b hb]
  case used =>
    intro id b' hb' isDl
    obtain ⟨b, hb, hsame⟩ := hbudgets id b' hb'
    rw [(hsame isDl).2, h.used id b hb]
  case within =>
    intro id hid isDl
    obtain ⟨b', hb'⟩ := AList.exists_lookup hid
    obtain ⟨b, hb, -⟩ := hbudgets id b' hb'
    exact h.within id (AList.mem_of_lookup hb) isDl

/-- What a budget has remaining is what its account has left, modulo 65536. -/
theorem Booked.remaining_le (h : Booked A o) {b : SliceResourceBudget}
    (hb : o.currentBudgets.lookup id = some b) (isDl : Bool) :
    (A isDl).spent id + b.remaining isDl ≤ (A isDl).limit id := by
  have hwithin := h.within id (AList.mem_of_lookup hb) isDl
  rw [SliceResourceBudget.remaining, h.available id b hb, h.used id b hb]
  omega

theorem Booked.guardSound (h : Booked A o) : GuardSound o A := by
  intro rnti id hue hid rbs isDl hallowed
  obtain ⟨b, hb⟩ := AList.exists_lookup hid
  have hremaining : rbs ≤ b.remaining isDl := by
    have hallows : o.allows rnti rbs isDl = true := Except.ok.inj hallowed
    rw [allows, ueBudget, hue, Option.bind_some, hb] at hallows
    exact of_decide_eq_true hallows
  have hleft := h.remaining_le hb isDl
  omega

/-! ## Requests -/

/-- The accounts of one direction, with blocks collected for a slice. -/
def collectIn (A : Bool → Accounts SliceId) (isDl : Bool) (id : SliceId) (lent : SliceId → ℕ)
    (n : ℕ) (isDl' : Bool) : Accounts SliceId :=
  if isDl' = isDl then (A isDl').collect id lent n else A isDl'

/-- An amount that is raised for one slice in one direction. -/
theorem raised_eq (f : SliceId → ℕ) (isDl' : Bool) (x : SliceId) :
    (if isDl' = isDl then Function.update f id (f id + n) else f) x =
      f x + if isDl' = isDl ∧ x = id then n else 0 := by
  by_cases hd : isDl' = isDl
  · by_cases hx : x = id
    · rw [if_pos hd, if_pos ⟨hd, hx⟩, hx]
      exact Function.update_self ..
    · rw [if_pos hd, if_neg fun h ↦ hx h.2]
      exact Function.update_of_ne hx ..
  · rw [if_neg hd, if_neg fun h ↦ hd h.1, Nat.add_zero]

theorem limit_collectIn (A : Bool → Accounts SliceId) (lent : SliceId → ℕ) (isDl' : Bool)
    (x : SliceId) : (collectIn A isDl id lent n isDl').limit x =
      (A isDl').limit x + if isDl' = isDl ∧ x = id then n else 0 := by
  rw [← raised_eq, collectIn]
  split <;> rfl

theorem spent_collectIn (A : Bool → Accounts SliceId) (lent : SliceId → ℕ) (isDl' : Bool)
    (x : SliceId) : (collectIn A isDl id lent n isDl').spent x =
      (A isDl').spent x + if isDl' = isDl then lent x else 0 := by
  rw [collectIn]
  by_cases hd : isDl' = isDl
  · rw [if_pos hd, if_pos hd]
    rfl
  · rw [if_neg hd, if_neg hd, Nat.add_zero]

theorem collectIn_collectIn (A : Bool → Accounts SliceId) (f g : SliceId → ℕ) (m n : ℕ) :
    collectIn (collectIn A isDl id f m) isDl id g n = collectIn A isDl id (f + g) (m + n) := by
  funext isDl'
  by_cases hd : isDl' = isDl
  · simp only [collectIn, if_pos hd, Accounts.collect_collect]
  · simp only [collectIn, if_neg hd]

/-- What the fields of a budget change by when another one takes blocks. -/
theorem exists_of_lookup_take (hne : other ≠ id) {rbs : ℕ} {x : SliceId}
    {b' : SliceResourceBudget} (hb' : (o.take isDl id other rbs).currentBudgets.lookup x = some b')
    (isDl' : Bool) : ∃ b, o.currentBudgets.lookup x = some b ∧
      (b'.available isDl' = b.available isDl' ∧ ¬(isDl' = isDl ∧ x = id) ∨
        b'.available isDl' = (b.available isDl' + rbs) % 2 ^ 16 ∧ isDl' = isDl ∧ x = id) ∧
      (b'.used isDl' = b.used isDl' ∧ ¬(isDl' = isDl ∧ x = other) ∨
        b'.used isDl' = (b.used isDl' + rbs) % 2 ^ 16 ∧ isDl' = isDl ∧ x = other) := by
  rw [lookup_take hne] at hb'
  by_cases hid : x = id
  · rw [if_pos hid] at hb'
    obtain ⟨b, hb, rfl⟩ := Option.map_eq_some_iff.mp hb'
    have hother : x ≠ other := fun h ↦ hne (h.symm.trans hid)
    refine ⟨b, hb, ?_, Or.inl ⟨by simp, fun h ↦ hother h.2⟩⟩
    rcases Bool.eq_or_eq_not isDl' isDl with rfl | rfl
    · exact Or.inr ⟨by simp, rfl, hid⟩
    · exact Or.inl ⟨by simp, fun h ↦ Bool.not_ne_self _ h.1⟩
  · rw [if_neg hid] at hb'
    by_cases hother : x = other
    · rw [if_pos hother] at hb'
      obtain ⟨b, hb, rfl⟩ := Option.map_eq_some_iff.mp hb'
      refine ⟨b, hb, Or.inl ⟨by simp, fun h ↦ hid h.2⟩, ?_⟩
      rcases Bool.eq_or_eq_not isDl' isDl with rfl | rfl
      · exact Or.inr ⟨by simp, rfl, hother⟩
      · exact Or.inl ⟨by simp, fun h ↦ Bool.not_ne_self _ h.1⟩
    · rw [if_neg hother] at hb'
      exact ⟨b', hb', Or.inl ⟨rfl, fun h ↦ hid h.2⟩, Or.inl ⟨rfl, fun h ↦ hother h.2⟩⟩

theorem Booked.take (h : Booked A o) {rbs : ℕ} (hpos : 0 < rbs)
    (hrbs : rbs ≤ o.lendable isDl id other) :
    Booked (collectIn A isDl id (Pi.single other rbs) rbs) (o.take isDl id other rbs) := by
  obtain ⟨bOther, hbOther, hlendable, hne, -⟩ := exists_of_lendable (hpos.trans_le hrbs)
  rw [hlendable] at hrbs
  have hlent : ∀ x, (Pi.single other rbs : SliceId → ℕ) x = if x = other then rbs else 0 :=
    fun x ↦ Pi.single_apply _ _ _
  constructor
  case available =>
    intro x b' hb' isDl'
    obtain ⟨b, hb, havailable, -⟩ := exists_of_lookup_take hne hb' isDl'
    have hold := h.available x b hb isDl'
    rw [limit_collectIn]
    rcases havailable with ⟨hsame, hnot⟩ | ⟨hmore, hself⟩
    · rw [if_neg hnot, hsame, hold, Nat.add_zero]
    · rw [if_pos hself, hmore, hold, Nat.mod_add_mod]
  case used =>
    intro x b' hb' isDl'
    obtain ⟨b, hb, -, hused⟩ := exists_of_lookup_take hne hb' isDl'
    have hold := h.used x b hb isDl'
    rw [spent_collectIn, hlent]
    rcases hused with ⟨hsame, hnot⟩ | ⟨hmore, hd, hx⟩
    · have hzero : (if isDl' = isDl then if x = other then rbs else 0 else 0) = 0 := by
        by_cases hd : isDl' = isDl
        · rw [if_pos hd, if_neg fun hx ↦ hnot ⟨hd, hx⟩]
        · rw [if_neg hd]
      rw [hzero, hsame, hold, Nat.add_zero]
    · rw [if_pos hd, if_pos hx, hmore, hold, Nat.mod_add_mod]
  case within =>
    intro x hx isDl'
    have hx' : x ∈ o.currentBudgets := AList.mem_modify.mp (AList.mem_modify.mp hx)
    have hold := h.within x hx' isDl'
    rw [limit_collectIn, spent_collectIn, hlent]
    by_cases hlender : isDl' = isDl ∧ x = other
    · obtain ⟨rfl, rfl⟩ := hlender
      have hleft := h.remaining_le hbOther isDl'
      rw [if_pos rfl, if_pos rfl]
      omega
    · have hzero : (if isDl' = isDl then if x = other then rbs else 0 else 0) = 0 := by
        by_cases hd : isDl' = isDl
        · rw [if_pos hd, if_neg fun hx ↦ hlender ⟨hd, hx⟩]
        · rw [if_neg hd]
      omega

theorem Booked.takes (h : Booked A o) (htakes : Takes isDl id o n o') :
    ∃ lent, (∀ x, lent x ≤ n) ∧ Booked (collectIn A isDl id lent n) o' := by
  induction htakes generalizing A with
  | refl =>
      refine ⟨0, fun _ ↦ le_rfl, h.congr fun x _ isDl' ↦ ?_⟩
      rw [limit_collectIn, spent_collectIn]
      simp
  | @take o o' other rbs n hpos hrbs _ ih =>
      obtain ⟨lent, hlent, hbooked⟩ := ih (h.take hpos hrbs)
      rw [collectIn_collectIn] at hbooked
      refine ⟨_, fun x ↦ ?_, hbooked⟩
      have hsingle : (Pi.single other rbs : SliceId → ℕ) x ≤ rbs := by
        rw [Pi.single_apply]
        split <;> omega
      have hle := hlent x
      rw [Pi.add_apply]
      omega

/-- The growth of the counters is what the accounts change by. -/
theorem Booked.growth_eq {lent : SliceId → ℕ} (h : Booked A o)
    (h' : Booked (collectIn A isDl id lent n) o') (hn : n < 2 ^ 16) (hlent : ∀ x, lent x ≤ n)
    (hkeys : o'.currentBudgets.keys = o.currentBudgets.keys) {x : SliceId}
    (hx : x ∈ o'.currentBudgets) (isDl' : Bool) :
    let before := accounts o.currentBudgets isDl'
    let after := accounts o'.currentBudgets isDl'
    (A isDl').limit x + growth (before.limit x) (after.limit x) =
        (collectIn A isDl id lent n isDl').limit x ∧
      (A isDl').spent x + growth (before.spent x) (after.spent x) =
        (collectIn A isDl id lent n isDl').spent x := by
  have hmem : x ∈ o.currentBudgets := by rwa [AList.mem_keys, ← hkeys, ← AList.mem_keys]
  obtain ⟨b, hb⟩ := AList.exists_lookup hmem
  obtain ⟨b', hb'⟩ := AList.exists_lookup hx
  dsimp only
  rw [limit_accounts hb, limit_accounts hb', spent_accounts hb, spent_accounts hb',
    h.available x b hb, h.used x b hb, h'.available x b' hb', h'.used x b' hb',
    limit_collectIn, spent_collectIn, SliceOrchestrator.growth_eq, SliceOrchestrator.growth_eq]
  · exact ⟨rfl, rfl⟩
  · have hle := hlent x
    split <;> omega
  · split <;> omega

/-! ## Steps -/

variable [Double D] {P : Platform} {op : Operation D}

omit [Double D] in
theorem Booked.request (h : Booked A o) {rbsNeeded : ℕ} (hn : n < 2 ^ 16)
    (htakes : Takes isDl id o n o') :
    Booked (book o (P, .requestResources id rbsNeeded isDl) o' A) o' := by
  obtain ⟨lent, hlent, hbooked⟩ := h.takes htakes
  exact hbooked.congr fun x hx isDl' ↦ h.growth_eq hbooked hn hlent htakes.keys_eq hx isDl'

theorem booked_budgeted (o : SliceOrchestrator D) (P : Platform) {cell : CellContext}
    (hnum : cell.config.numRbs < 2 ^ 16) :
    Booked (accounts (o.budgeted P cell).currentBudgets) (o.budgeted P cell) := by
  have hvalue : ∀ id b, (o.budgeted P cell).currentBudgets.lookup id = some b →
      ∀ isDl, b.available isDl < 2 ^ 16 ∧ b.used isDl = 0 := by
    intro id b hb isDl
    rw [currentBudgets_budgeted, lookup_computeBudgets o P hnum] at hb
    obtain ⟨config, -, rfl⟩ := Option.map_eq_some_iff.mp hb
    have hlt := o.budgetRbs_lt P hnum id config.sla
    cases isDl
    · exact ⟨hlt, rfl⟩
    · exact ⟨hlt, rfl⟩
  constructor
  case available =>
    intro id b hb isDl
    rw [limit_accounts hb, Nat.mod_eq_of_lt (hvalue id b hb isDl).1]
  case used =>
    intro id b hb isDl
    rw [spent_accounts hb, (hvalue id b hb isDl).2, Nat.zero_mod]
  case within =>
    intro id hid isDl
    obtain ⟨b, hb⟩ := AList.exists_lookup hid
    rw [spent_accounts hb, (hvalue id b hb isDl).2]
    exact Nat.zero_le _

omit [Double D] in
theorem Booked.report (h : Booked A o) {rnti : Rnti} {rbs : ℕ} (bytes : ℕ)
    (hue : o.ueSliceMap.lookup rnti = some id)
    (hwithin : id ∈ o.currentBudgets → (A isDl).spent id + rbs ≤ (A isDl).limit id)
    (hbudgets : o'.currentBudgets = o.currentBudgets.modify id fun b ↦ b.addUsed isDl rbs) :
    Booked (book o (P, .reportScheduling rnti rbs bytes isDl) o' A) o' := by
  have hlimit : ∀ isDl' x,
      (book o (P, .reportScheduling rnti rbs bytes isDl) o' A isDl').limit x =
        (A isDl').limit x := by
    intro isDl' x
    simp only [book, hue]
    split <;> rfl
  have hspent : ∀ isDl' x,
      (book o (P, .reportScheduling rnti rbs bytes isDl) o' A isDl').spent x =
        (A isDl').spent x + if isDl' = isDl ∧ x = id then rbs else 0 := by
    intro isDl' x
    rw [← raised_eq]
    simp only [book, hue]
    split <;> rfl
  constructor
  case available =>
    intro x b' hb' isDl'
    rw [hbudgets] at hb'
    rw [hlimit]
    obtain ⟨b, hb, ⟨-, rfl⟩ | ⟨-, rfl⟩⟩ := AList.exists_of_lookup_modify hb'
    · exact h.available x _ hb isDl'
    · rw [SliceResourceBudget.available_addUsed]
      exact h.available x b hb isDl'
  case used =>
    intro x b' hb' isDl'
    rw [hbudgets] at hb'
    rw [hspent]
    obtain ⟨b, hb, ⟨hx, rfl⟩ | ⟨hx, rfl⟩⟩ := AList.exists_of_lookup_modify hb'
    · rw [if_neg fun hboth ↦ hx hboth.2, h.used x _ hb, Nat.add_zero]
    · have hold := h.used x b hb isDl'
      rcases Bool.eq_or_eq_not isDl' isDl with rfl | rfl
      · rw [if_pos ⟨rfl, hx⟩, SliceResourceBudget.used_addUsed_self, hold, Nat.mod_add_mod]
      · rw [if_neg fun hboth ↦ Bool.not_ne_self _ hboth.1, SliceResourceBudget.used_addUsed_not,
          hold, Nat.add_zero]
  case within =>
    intro x hx isDl'
    have hmem : x ∈ o.currentBudgets := by rwa [hbudgets, AList.mem_modify] at hx
    rw [hlimit, hspent]
    by_cases hboth : isDl' = isDl ∧ x = id
    · obtain ⟨rfl, rfl⟩ := hboth
      rw [if_pos ⟨rfl, rfl⟩]
      exact hwithin hmem
    · rw [if_neg hboth]
      exact h.within x hmem isDl'

/-- While reports stay within what is left, the fields of the budgets are the accounts modulo
65536, and no account is overdrawn. -/
theorem Booked.next (h : Booked A o) (htypes : op.FitsTypes) (hnext : o.next (P, op) = some o')
    (hwithin : o.ReportsWithin A op) : Booked (book o (P, op) o' A) o' := by
  cases budgetStep_of_next hnext with
  | calculated => exact booked_budgeted o P htypes
  | requested htakes hle =>
      exact h.request (hle.trans_lt ((o.shortfall_le _ _ _).trans_lt htypes)) htakes
  | returned hbudgets =>
      refine h.of_lookup fun id b' hb' ↦ ?_
      rw [hbudgets] at hb'
      obtain ⟨b, hb, ⟨-, rfl⟩ | ⟨-, rfl⟩⟩ := AList.exists_of_lookup_modify hb'
      · exact ⟨_, hb, fun _ ↦ ⟨rfl, rfl⟩⟩
      · refine ⟨b, hb, fun isDl' ↦ ?_⟩
        split <;> simp
  | reported hue _ hbudgets => exact h.report _ hue (hwithin _ hue) hbudgets
  | spared hspares hkept =>
      have hbook : book o (P, op) o' A = A := by
        cases op with
        | calculateBudgets => exact hspares.elim
        | requestResources => exact hspares.elim
        | reportScheduling rnti =>
            have hno : o.ueSliceMap.lookup rnti = none := hspares
            funext isDl
            simp only [book, hno]
        | _ => rfl
      rw [hbook]
      exact h.of_lookup fun id b' hb' ↦ ⟨b', hkept id b' hb', fun _ ↦ ⟨rfl, rfl⟩⟩

/-! ## Runs -/

omit [Double D] in
theorem allows_zero (o : SliceOrchestrator D) (rnti : Rnti) (isDl : Bool) :
    o.allows rnti 0 isDl = true := by
  rw [allows]
  split
  · rfl
  · exact decide_eq_true (Nat.zero_le _)

/-- If the gate is sound after a report, the report has not exceeded what was left. -/
theorem reportsWithin_of_guardSound (hnext : o.next (P, op) = some o')
    (hsound : GuardSound o' (book o (P, op) o' A)) : o.ReportsWithin A op := by
  cases budgetStep_of_next hnext with
  | @reported rnti id rbs bytes isDl _ hue hmap hbudgets =>
      intro id' hue' hid
      obtain rfl := Option.some.inj (hue.symm.trans hue')
      have hid' : id ∈ o'.currentBudgets := by rwa [hbudgets, AList.mem_modify]
      have hleft := hsound rnti id (by rw [hmap, hue]) hid' 0 isDl
        (congrArg Except.ok (allows_zero _ rnti isDl))
      simpa [book, hue, Accounts.spend] using hleft
  | spared hspares =>
      cases op with
      | reportScheduling rnti =>
          intro id hue
          have hno : o.ueSliceMap.lookup rnti = none := hspares
          rw [hno] at hue
          cases hue
      | _ => trivial
  | _ => trivial

/-- The gate is sound throughout a run exactly if no report of the run exceeds what the slice
has left. -/
theorem guardSound_iff_reportsWithin {is : List (Platform × Operation D)}
    (htypes : ∀ i ∈ is, i.2.FitsTypes) :
    Runs.Always (Runs.monitored next book) (fun _ _ p' ↦ GuardSound p'.1 p'.2)
        (create, accounts ∅) is ↔
      Runs.Always (Runs.monitored next book) (fun p i _ ↦ p.1.ReportsWithin p.2 i.2)
        (create, accounts ∅) is := by
  refine Runs.always_iff_of_inputs (p := fun i ↦ i.2.FitsTypes) (fun p ↦ Booked p.2 p.1) ?_ ?_
    htypes
  · rintro ⟨o, A⟩ ⟨P, op⟩ ⟨o', A'⟩ hop hbooked hstep
    obtain ⟨hnext, hbook⟩ := Runs.monitored_eq_some.mp hstep
    dsimp only at hop hbooked hnext hbook ⊢
    subst hbook
    have hwithin : GuardSound o' (book o (P, op) o' A) → o.ReportsWithin A op :=
      reportsWithin_of_guardSound hnext
    exact ⟨⟨hwithin, fun h ↦ (hbooked.next hop hnext h).guardSound⟩,
      fun h ↦ hbooked.next hop hnext (hwithin h)⟩
  · constructor
    case available => exact fun id b hb ↦ absurd hb (by simp [create])
    case used => exact fun id b hb ↦ absurd hb (by simp [create])
    case within => exact fun id hid ↦ absurd hid (by simp [create])

/-! ## A run with borrowing -/

omit [Double D] in
theorem guardSound_iff_remaining {o : SliceOrchestrator D} : GuardSound o A ↔
    ∀ e ∈ o.ueSliceMap.entries, ∀ b ∈ (o.currentBudgets.lookup e.2).toList, ∀ isDl,
      (A isDl).spent e.2 + b.remaining isDl ≤ (A isDl).limit e.2 := by
  simp only [Option.mem_toList]
  constructor
  · intro h e he b hb isDl
    have hue : o.ueSliceMap.lookup e.1 = some e.2 := AList.mem_lookup_iff.mpr he
    have hallows : o.allows e.1 (b.remaining isDl) isDl = true := by
      rw [allows, ueBudget, hue, Option.bind_some, hb]
      exact decide_eq_true le_rfl
    exact h e.1 e.2 hue (AList.mem_of_lookup hb) _ isDl (congrArg Except.ok hallows)
  · intro h rnti id hue hid rbs isDl hallowed
    obtain ⟨b, hb⟩ := AList.exists_lookup hid
    have hallows : o.allows rnti rbs isDl = true := Except.ok.inj hallowed
    rw [allows, ueBudget, hue, Option.bind_some, hb] at hallows
    have hleft := h ⟨rnti, id⟩ (AList.mem_lookup_iff.mp hue) b hb isDl
    have hremaining := of_decide_eq_true hallows
    dsimp only at hleft
    omega

instance (o : SliceOrchestrator D) (A : Bool → Accounts SliceId) : Decidable (GuardSound o A) :=
  -- Over the lists: the instance for finite types would run through all the identifiers.
  @decidable_of_iff _ _ guardSound_iff_remaining.symm (List.decidableBAll _ _)

instance (o : SliceOrchestrator D) (A : Bool → Accounts SliceId) (op : Operation D) :
    Decidable (o.ReportsWithin A op) := by
  induction op using Operation.casesOn with
  | reportScheduling rnti rbs bytes isDl =>
      refine @decidable_of_iff _ (∀ id ∈ (o.ueSliceMap.lookup rnti).toList,
        id ∈ o.currentBudgets → (A isDl).spent id + rbs ≤ (A isDl).limit id) ?_
        (List.decidableBAll _ _)
      simp only [Option.mem_toList]
      exact Iff.rfl
  | _ => exact isTrue trivial

/-- A slice of five blocks borrows three more from a second one, and its user reports. -/
def borrowAndReport (reported : ℕ) : List (Platform × Operation ℚ) :=
  [(.plain, .createSlice (.shared 1 5 10 1) .zero),
    (.plain, .createSlice (.shared 2 5 200 1) .zero),
    (.plain, .associateUe 7 1), (.plain, .calculateBudgets (.create (.fdd 1 10) .cleared)),
    (.plain, .requestResources 1 8 true), (.plain, .reportScheduling 7 reported 100 true)]

theorem guardSound_eightReported :
    Runs.Always (Runs.monitored next book) (fun _ _ p' ↦ GuardSound p'.1 p'.2)
      (create, accounts ∅) (borrowAndReport 8) :=
  (guardSound_iff_reportsWithin (by decide)).mpr (by decide +kernel)

/-- The user reports one block more than the eight, and passes the gate with 65535 further. -/
theorem not_guardSound :
    ¬ Runs.Always (Runs.monitored next book) (fun _ _ p' ↦ GuardSound p'.1 p'.2)
      (create, accounts ∅) (borrowAndReport 9) := by
  decide +kernel

end SliceOrchestrator

end NrScheduler
