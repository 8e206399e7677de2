import NrScheduler.Lib.Runs
import NrScheduler.Services.OrchestratorSpec

/-!
# Strictly isolated slices

A slice that neither borrows nor can be borrowed from, as the template for low latency has it, does
not notice the traffic of the other slices, nor what they borrow from each other and give back.
-/

namespace NrScheduler

open LockMonad

variable {D : Type} [Double D]

/-! ## Templates -/

namespace SliceOrchestrator

def createEmbbTemplate (id : SliceId) : SliceConfig D where
  sliceId := id
  sla := {
    guaranteedRbs := 10
    maxRbs := 0
    resourceShare := Double.ratio 5 10
    maxLatencyMs := 100
    slicePriority := 100
    strictIsolation := false
    preemptible := true }

def createUrllcTemplate (id : SliceId) : SliceConfig D where
  sliceId := id
  sla := {
    guaranteedRbs := 20
    maxRbs := 50
    resourceShare := Double.ratio 3 10
    maxLatencyMs := 10
    slicePriority := 10
    strictIsolation := true
    preemptible := false }

def createMmtcTemplate (id : SliceId) : SliceConfig D where
  sliceId := id
  sla := {
    guaranteedRbs := 5
    maxRbs := 30
    resourceShare := Double.ratio 2 10
    maxLatencyMs := 1000
    slicePriority := 150
    strictIsolation := false
    preemptible := true }

end SliceOrchestrator

/-- The slice takes nothing from others, and they take nothing from it. -/
def SliceConfig.isStrict (config : SliceConfig D) : Bool :=
  config.sla.strictIsolation && !config.sla.preemptible

namespace SliceOrchestrator

/-! ## The operations -/

namespace Operation

/-- The slice stays strict, and none of the `others` becomes a user of it. -/
def respects (s : SliceId) (others : Rnti → Bool) : Operation D → Bool
  | .createSlice config _ => config.sliceId != s || config.isStrict
  | .updateSlice sliceId config => sliceId != s || config.isStrict
  | .associateUe rnti sliceId => sliceId != s || !others rnti
  | _ => true

/-- The operation is no traffic of the `others`, no borrowing, and no query. -/
def matters (s : SliceId) (others : Rnti → Bool) : Operation D → Bool
  | .createSlice _ _ | .updateSlice _ _ | .deleteSlice _ | .associateUe _ _ | .disassociateUe _
  | .calculateBudgets _ | .onSlotStart _ | .onSlotEnd => true
  | .returnResources sliceId _ _ => sliceId == s
  | .reportScheduling rnti _ _ _ => !others rnti
  | _ => false

end Operation

/-! ## What is seen of a slice -/

/-- Two orchestrators with the same slices and users, and the same account of the slice. -/
structure SameSlice (s : SliceId) (o o' : SliceOrchestrator D) : Prop where
  sliceConfigs : o'.sliceConfigs = o.sliceConfigs
  ueSliceMap : o'.ueSliceMap = o.ueSliceMap
  budget : o'.currentBudgets.lookup s = o.currentBudgets.lookup s
  state : o'.sliceStates.lookup s = o.sliceStates.lookup s

/-- The slice is strict, if it exists, and none of the `others` is a user of it. -/
structure Isolated (s : SliceId) (others : Rnti → Bool) (o : SliceOrchestrator D) : Prop where
  strict : ∀ config, o.sliceConfigs.lookup s = some config → config.isStrict = true
  apart : ∀ rnti, others rnti = true → o.ueSliceMap.lookup rnti ≠ some s

variable {s : SliceId} {others : Rnti → Bool} {o o' o₁ o₁' : SliceOrchestrator D} {P : Platform}
  {op : Operation D}

omit [Double D] in
theorem SameSlice.refl (s : SliceId) (o : SliceOrchestrator D) : SameSlice s o o :=
  ⟨rfl, rfl, rfl, rfl⟩

omit [Double D] in
theorem SameSlice.trans (h : SameSlice s o o') (h' : SameSlice s o' o₁) : SameSlice s o o₁ :=
  ⟨h'.sliceConfigs.trans h.sliceConfigs, h'.ueSliceMap.trans h.ueSliceMap,
    h'.budget.trans h.budget, h'.state.trans h.state⟩

omit [Double D] in
theorem SameSlice.symm (h : SameSlice s o o') : SameSlice s o' o :=
  ⟨h.sliceConfigs.symm, h.ueSliceMap.symm, h.budget.symm, h.state.symm⟩

/-! ## Borrowing -/

omit [Double D] in
/-- Whoever borrows leaves the budget of a strict slice as it is. -/
theorem sameSlice_borrowLoop {borrower : SliceId} (hborrower : borrower ≠ s)
    {config : SliceConfig D} {toBorrow : ℕ} {isDl : Bool} {lenders : List SliceId}
    {borrowed : ℕ}
    (hstrict : ∀ config, o.sliceConfigs.lookup s = some config → config.isStrict = true) :
    SameSlice s o (borrowLoop borrower config toBorrow isDl lenders borrowed o).2 := by
  induction lenders generalizing borrowed o with
  | nil => exact .refl s o
  | cons lender rest ih =>
      rw [borrowLoop]
      split
      · rename_i other budget hother _
        dsimp only
        split
        · exact ih hstrict
        · rename_i hlends
          -- the lender can be taken from, so it is another slice
          have hlender : lender ≠ s := by
            rintro rfl
            have h := hstrict other hother
            rw [SliceConfig.isStrict, Bool.and_eq_true] at h
            exact hlends (Or.inr (Or.inl h.2))
          have htaken : ∀ stats, SameSlice s o { o with
              currentBudgets := (o.currentBudgets.modify lender fun b ↦
                b.addUsed isDl (min (toBorrow - borrowed) (budget.remaining isDl))).modify
                  borrower fun b ↦ (b.addAvailable isDl
                    (min (toBorrow - borrowed) (budget.remaining isDl))).addBorrowed
                      (min (toBorrow - borrowed) (budget.remaining isDl) : ℕ)
              stats := stats } := by
            intro stats
            refine ⟨rfl, rfl, ?_, rfl⟩
            dsimp only
            rw [AList.lookup_modify_ne hborrower.symm, AList.lookup_modify_ne hlender.symm]
          split
          · exact htaken _
          · exact (htaken _).trans (ih hstrict)
      · exact ih hstrict

/-! ## One operation -/

theorem Isolated.effect (h : Isolated s others o) (hop : op.respects s others = true)
    (heffect : Effect o P op o₁) : Isolated s others o₁ := by
  cases heffect with
  | @created config memory _ =>
      refine ⟨fun config' hconfig' ↦ ?_, h.apart⟩
      by_cases hs : s = config.sliceId
      · subst hs
        rw [AList.lookup_insert, Option.some.injEq] at hconfig'
        subst hconfig'
        simpa [Operation.respects] using hop
      · rw [AList.lookup_insert_ne hs] at hconfig'
        exact h.strict config' hconfig'
  | @updated sliceId config _ =>
      refine ⟨fun config' hconfig' ↦ ?_, h.apart⟩
      rw [AList.lookup_modify] at hconfig'
      by_cases hs : s = sliceId
      · subst hs
        rw [if_pos rfl] at hconfig'
        obtain ⟨_, _, rfl⟩ := Option.map_eq_some_iff.mp hconfig'
        simpa [Operation.respects] using hop
      · rw [if_neg hs] at hconfig'
        exact h.strict config' hconfig'
  | @deleted sliceId _ =>
      refine ⟨fun config' hconfig' ↦ ?_, h.apart⟩
      by_cases hs : s = sliceId
      · rw [hs, AList.lookup_erase] at hconfig'
        cases hconfig'
      · rw [AList.lookup_erase_ne hs] at hconfig'
        exact h.strict config' hconfig'
  | @associated rnti sliceId state _ _ =>
      refine ⟨h.strict, fun r hr hslice ↦ ?_⟩
      by_cases hrnti : r = rnti
      · subst hrnti
        rw [AList.lookup_insert, Option.some.injEq] at hslice
        subst hslice
        simp [Operation.respects, hr] at hop
      · rw [AList.lookup_insert_ne hrnti] at hslice
        exact h.apart r hr hslice
  | @disassociated rnti sliceId state _ _ =>
      refine ⟨h.strict, fun r hr hslice ↦ ?_⟩
      by_cases hrnti : r = rnti
      · rw [hrnti, AList.lookup_erase] at hslice
        cases hslice
      · rw [AList.lookup_erase_ne hrnti] at hslice
        exact h.apart r hr hslice
  | borrowed _ _ =>
      obtain ⟨budgets, stats, hframe, _⟩ := borrowLoop_frame (D := D)
      rw [hframe]
      exact ⟨h.strict, h.apart⟩
  | budgeted | granted | returned | reported _ | slotStarted | slotEnded =>
      exact ⟨h.strict, h.apart⟩

/-- The slice itself is refused what it does not have, and others do not borrow from it. -/
theorem Isolated.requestResources (h : Isolated s others o) {sliceId : SliceId} {rbsNeeded : ℕ}
    {isDl : Bool} (hnext : o.next (P, .requestResources sliceId rbsNeeded isDl) = some o₁) :
    SameSlice s o o₁ := by
  simp only [next, perform, SliceOrchestrator.requestResources] at hnext
  split at hnext
  · rename_i budget config _ hconfig
    split at hnext
    · cases hnext
      exact .refl s o
    · split at hnext
      · cases hnext
        exact .refl s o
      · rename_i hborrows
        have hs : sliceId ≠ s := by
          rintro rfl
          have hstrict := h.strict config hconfig
          rw [SliceConfig.isStrict, Bool.and_eq_true] at hstrict
          exact hborrows hstrict.1
        cases hnext
        exact sameSlice_borrowLoop hs h.strict
  · cases hnext
    exact .refl s o

/-- An operation that does not matter to the slice leaves it as it is. -/
theorem Isolated.hidden (h : Isolated s others o) (hop : op.matters s others = false)
    (hnext : o.next (P, op) = some o₁) : SameSlice s o o₁ := by
  obtain ⟨o₂, hnext₂, ⟨_, rfl⟩ | ⟨_, heffect⟩⟩ := o.next_spec P op
  · obtain rfl : o₂ = o₁ := Option.some.inj (hnext₂.symm.trans hnext)
    exact .refl s o₂
  · obtain rfl : o₂ = o₁ := Option.some.inj (hnext₂.symm.trans hnext)
    cases heffect with
    | granted => exact .refl s o
    | borrowed _ _ => exact h.requestResources hnext
    | @returned sliceId rbsUnused isDl poolDl poolUl =>
        have hs : s ≠ sliceId := by
          rintro rfl
          simp [Operation.matters] at hop
        exact ⟨rfl, rfl, AList.lookup_modify_ne hs _ _, rfl⟩
    | @reported rnti sliceId rbs bytes isDl hslice =>
        have hother : others rnti = true := by simpa [Operation.matters] using hop
        have hs : s ≠ sliceId := by
          rintro rfl
          exact h.apart rnti hother hslice
        exact ⟨rfl, rfl, AList.lookup_modify_ne hs _ _, AList.lookup_modify_ne hs _ _⟩
    | _ => cases hop

theorem computeBudgets_congr (h : o'.sliceConfigs = o.sliceConfigs) (P : Platform)
    (totalRbs : ℕ) : o'.computeBudgets P totalRbs = o.computeBudgets P totalRbs := by
  have hround : o'.shareRound = o.shareRound := by
    funext totalShare poolDl poolUl budgets sliceId
    rw [shareRound, shareRound, h]
  rw [computeBudgets, computeBudgets, h, hround]

/-- An operation that matters does the same to the slice wherever the slice is the same. -/
theorem SameSlice.effect (h : SameSlice s o o') (hop : op.matters s others = true)
    (heffect : Effect o P op o₁) (heffect' : Effect o' P op o₁') : SameSlice s o₁ o₁' := by
  obtain ⟨hconfigs, husers, hbudget, hstate⟩ := h
  cases heffect with
  | created _ =>
      cases heffect' with
      | created _ =>
          exact ⟨by rw [hconfigs], husers, hbudget, AList.lookup_insert_congr hstate fun _ ↦ rfl⟩
  | updated _ =>
      cases heffect' with
      | updated _ => exact ⟨by rw [hconfigs], husers, hbudget, hstate⟩
  | deleted _ =>
      cases heffect' with
      | deleted _ =>
          exact ⟨by rw [hconfigs], husers, AList.lookup_erase_congr hbudget,
            AList.lookup_erase_congr hstate⟩
  | associated _ hold =>
      cases heffect' with
      | associated _ hold' =>
          refine ⟨hconfigs, by rw [husers], hbudget, AList.lookup_insert_congr hstate fun hs ↦ ?_⟩
          rw [hold', hold, ← hs, hstate]
  | disassociated hslice hold =>
      cases heffect' with
      | disassociated hslice' hold' =>
          rw [husers, hslice, Option.some.injEq] at hslice'
          subst hslice'
          refine ⟨hconfigs, by rw [husers], hbudget, AList.lookup_insert_congr hstate fun hs ↦ ?_⟩
          rw [hold', hold, ← hs, hstate]
  | budgeted =>
      cases heffect' with
      | budgeted =>
          refine ⟨hconfigs, husers, ?_, hstate⟩
          rw [currentBudgets_budgeted, currentBudgets_budgeted, computeBudgets_congr hconfigs]
  | returned =>
      cases heffect' with
      | returned => exact ⟨hconfigs, husers, AList.lookup_modify_congr hbudget _, hstate⟩
  | reported hslice =>
      cases heffect' with
      | reported hslice' =>
          rw [husers, hslice, Option.some.injEq] at hslice'
          subst hslice'
          exact ⟨hconfigs, husers, AList.lookup_modify_congr hbudget _,
            AList.lookup_modify_congr hstate _⟩
  | slotStarted =>
      cases heffect' with
      | slotStarted =>
          refine ⟨hconfigs, husers, hbudget, ?_⟩
          dsimp only
          rw [AList.lookup_mapValues, AList.lookup_mapValues, hstate]
  | slotEnded =>
      cases heffect' with
      | slotEnded => exact ⟨hconfigs, husers, hbudget, hstate⟩
  | _ => cases hop

theorem SameSlice.next (h : SameSlice s o o') (hop : op.matters s others = true) :
    ∃ o₁ o₁', o.next (P, op) = some o₁ ∧ o'.next (P, op) = some o₁' ∧ SameSlice s o₁ o₁' := by
  obtain ⟨o₁, hnext, heffect⟩ := o.next_spec P op
  obtain ⟨o₁', hnext', heffect'⟩ := o'.next_spec P op
  refine ⟨o₁, o₁', hnext, hnext', ?_⟩
  have hbudgeted : s ∈ o'.currentBudgets ↔ s ∈ o.currentBudgets := by
    rw [← AList.lookup_isSome, ← AList.lookup_isSome, h.budget]
  have hidles : o'.idles op = o.idles op := by
    cases op with
    | returnResources sliceId _ _ =>
        obtain rfl : sliceId = s := beq_iff_eq.mp hop
        exact decide_eq_decide.mpr (not_congr hbudgeted)
    | createSlice _ _ | updateSlice _ _ | deleteSlice _ | associateUe _ _ | disassociateUe _
    | reportScheduling _ _ _ _ => simp only [idles, h.sliceConfigs, h.ueSliceMap]
    | _ => rfl
  rcases heffect with ⟨_, rfl⟩ | ⟨hbusy, heffect⟩
  · rcases heffect' with ⟨_, rfl⟩ | ⟨hbusy', _⟩
    · exact h
    · rw [hidles] at hbusy'
      simp_all
  · rcases heffect' with ⟨hidle', _⟩ | ⟨_, heffect'⟩
    · rw [hidles, hbusy] at hidle'
      cases hidle'
    · exact h.effect hop heffect heffect'

theorem Isolated.next (h : Isolated s others o) (hop : op.respects s others = true)
    (hnext : o.next (P, op) = some o₁) : Isolated s others o₁ := by
  obtain ⟨o₂, hnext₂, ⟨_, rfl⟩ | ⟨_, heffect⟩⟩ := o.next_spec P op
  · obtain rfl : o₂ = o₁ := Option.some.inj (hnext₂.symm.trans hnext)
    exact h
  · obtain rfl : o₂ = o₁ := Option.some.inj (hnext₂.symm.trans hnext)
    exact h.effect hop heffect

/-! ## Runs -/

omit [Double D] in
theorem SameSlice.allows (h : SameSlice s o o') {rnti : Rnti}
    (hslice : o.ueSliceMap.lookup rnti = some s) (rbs : ℕ) (isDl : Bool) :
    o'.allows rnti rbs isDl = o.allows rnti rbs isDl := by
  rw [SliceOrchestrator.allows, SliceOrchestrator.allows, ueBudget, ueBudget, h.ueSliceMap,
    hslice, Option.bind_some, Option.bind_some, h.budget]

/-- In two runs that only differ in the traffic of users outside of a strict slice, in what is
borrowed, and in what other slices give back, the slice has the same account and its users get the
same verdicts. -/
theorem sameSlice_of_run {is js : List (Platform × Operation D)}
    (hsame : (is.filter fun i ↦ i.2.matters s others) = js.filter fun j ↦ j.2.matters s others)
    (hrespects : ∀ i ∈ is, i.2.respects s others = true) (h : is.foldlM next create = some o)
    (h' : js.foldlM next create = some o') :
    SameSlice s o o' ∧ ∀ rnti rbs isDl, o.ueSliceMap.lookup rnti = some s →
      o'.allows rnti rbs isDl = o.allows rnti rbs isDl := by
  have hstart : Isolated s others (create : SliceOrchestrator D) :=
    ⟨fun _ hnone ↦ (by cases hnone), fun _ _ hnone ↦ (by cases hnone)⟩
  have hhidden : ∀ op : Operation D, op.matters s others = false →
      op.respects s others = true := by
    intro op hop
    cases op with
    | createSlice _ _ | updateSlice _ _ | associateUe _ _ => cases hop
    | _ => rfl
  have hruns : Option.Rel
      (fun o o' ↦ SameSlice s o o' ∧ Isolated s others o ∧ Isolated s others o')
      (is.foldlM next create) (js.foldlM next create) := by
    have hinputs : List.Forall₂ (fun i k : Platform × Operation D ↦
        k = i ∧ i.2.matters s others = true ∧ i.2.respects s others = true)
        (is.filter fun i ↦ i.2.matters s others) (js.filter fun j ↦ j.2.matters s others) := by
      rw [← hsame]
      refine List.forall₂_same.mpr fun i hi ↦ ⟨rfl, (List.mem_filter.mp hi).2, ?_⟩
      exact hrespects i (List.mem_filter.mp hi).1
    refine Runs.aligned _ (fun i ↦ i.2.matters s others) (fun j ↦ j.2.matters s others)
      ?_ ?_ ?_ ⟨.refl s _, hstart, hstart⟩ hinputs
    · rintro o o' ⟨P, op⟩ _ ⟨hslice, ho, ho'⟩ ⟨rfl, hmatters, hop⟩
      obtain ⟨o₁, o₁', hnext, hnext', hslice₁⟩ := hslice.next (P := P) hmatters
      rw [hnext, hnext']
      exact .some ⟨hslice₁, ho.next hop hnext, ho'.next hop hnext'⟩
    · rintro o o' ⟨P, op⟩ ⟨hslice, ho, ho'⟩ hop
      obtain ⟨o₁, hnext, _⟩ := o.next_spec P op
      exact ⟨o₁, hnext, (ho.hidden hop hnext).symm.trans hslice, ho.next (hhidden op hop) hnext,
        ho'⟩
    · rintro o o' ⟨P, op⟩ ⟨hslice, ho, ho'⟩ hop
      obtain ⟨o₁', hnext, _⟩ := o'.next_spec P op
      exact ⟨o₁', hnext, hslice.trans (ho'.hidden hop hnext), ho,
        ho'.next (hhidden op hop) hnext⟩
  rw [h, h'] at hruns
  obtain ⟨hslice, _⟩ | _ := hruns
  exact ⟨hslice, fun rnti rbs isDl hue ↦ hslice.allows hue rbs isDl⟩

/-- The low-latency slice keeps what it has left, though the others use and borrow all of theirs. -/
theorem sameSlice_of_run_templates :
    let shared : List (Operation ℚ) :=
      [.createSlice (createUrllcTemplate 1) .zero, .createSlice (createEmbbTemplate 2) .zero,
        .createSlice (createMmtcTemplate 3) .zero, .associateUe 7 1, .associateUe 8 2,
        .calculateBudgets (.create (.fdd 1 100) .cleared), .reportScheduling 7 12 100 true]
    let traffic : List (Operation ℚ) :=
      [.reportScheduling 8 30 1000 true, .requestResources 2 60 true,
        .reportScheduling 8 30 1000 true, .requestResources 1 90 true]
    let is := shared.map fun op ↦ (Platform.plain, op)
    let js := (shared ++ traffic).map fun op ↦ (Platform.plain, op)
    ∃ o o' : SliceOrchestrator ℚ, is.foldlM next create = some o ∧
      js.foldlM next create = some o' ∧ o'.allows 8 1 true ≠ o.allows 8 1 true ∧
      o'.allows 7 20 true = true ∧ SameSlice 1 o o' := by
  intro shared traffic is js
  have hverdicts : (is.foldlM next create).any (fun o ↦ (js.foldlM next create).any fun o' ↦
      o'.allows 8 1 true != o.allows 8 1 true && o'.allows 7 20 true) = true := by
    decide +kernel
  obtain ⟨o, ho, hverdicts⟩ := (Option.any_eq_true _ _).mp hverdicts
  obtain ⟨o', ho', hverdicts⟩ := (Option.any_eq_true _ _).mp hverdicts
  obtain ⟨hother, hown⟩ := Bool.and_eq_true_iff.mp hverdicts
  have hsame : (is.filter fun i ↦ i.2.matters 1 fun rnti ↦ rnti != 7) =
      js.filter fun j ↦ j.2.matters 1 fun rnti ↦ rnti != 7 := rfl
  have hrespects : ∀ i ∈ is, i.2.respects 1 (fun rnti ↦ rnti != 7) = true := by decide
  exact ⟨o, o', ho, ho', bne_iff_ne.mp hother, hown,
    (sameSlice_of_run hsame hrespects ho ho').1⟩

end SliceOrchestrator

end NrScheduler
