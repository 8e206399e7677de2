import NrScheduler.Lib.Runs
import NrScheduler.Properties.SliceIntegrity

/-!
# What the SLA monitor sees

The latency of a slice is what its memory held when it was created, and no operation measures
it.  So the monitor sees the configuration and the associations that keep a slice from being
deleted, and nothing of the traffic.
-/

namespace NrScheduler

variable {D : Type} [Double D]

/-! ## The registry -/

/-- For each slice the limit configured last and the latency found at its creation. -/
structure SlaRegistry (D : Type) where
  slas : AList (fun _ : SliceId ↦ ℕ × D) := ∅
  users : AList (fun _ : Rnti ↦ SliceId) := ∅
  violations : ℕ := 0

namespace SlaRegistry

def violating (r : SlaRegistry D) : List SliceId :=
  (r.slas.entries.filter fun e ↦ Double.lt (Double.ofNat e.2.1) e.2.2).map Sigma.fst

def next (r : SlaRegistry D) : SliceOrchestrator.Operation D → SlaRegistry D
  | .createSlice config memory =>
      if config.sliceId ∈ r.slas then r
      else
        { r with
          slas := r.slas.insert config.sliceId (config.sla.maxLatencyMs, memory.avgLatencyMs) }
  | .updateSlice sliceId config =>
      { r with slas := r.slas.modify sliceId fun s ↦ (config.sla.maxLatencyMs, s.2) }
  | .deleteSlice sliceId =>
      if r.users.entries.any fun e ↦ e.2 == sliceId then r
      else { r with slas := r.slas.erase sliceId }
  | .associateUe rnti sliceId =>
      if sliceId ∈ r.slas then { r with users := r.users.insert rnti sliceId } else r
  | .disassociateUe rnti => { r with users := r.users.erase rnti }
  | .onSlotEnd => { r with violations := r.violations + r.violating.length }
  | _ => r

end SlaRegistry

namespace SliceOrchestrator

/-- The registry has the slices, their users and the count of the monitor. -/
structure Enrolled (o : SliceOrchestrator D) (r : SlaRegistry D) : Prop extends Linked o where
  slas : ∀ id, r.slas.lookup id = (o.sliceConfigs.lookup id).bind fun config ↦
    (o.sliceStates.lookup id).map fun state ↦ (config.sla.maxLatencyMs, state.avgLatencyMs)
  sameUsers : r.users = o.ueSliceMap
  violations : r.violations = o.stats.totalSlaViolations

variable {o o' : SliceOrchestrator D} {r : SlaRegistry D} {P : Platform} {op : Operation D}

omit [Double D] in
theorem Enrolled.mem_iff (h : o.Enrolled r) (id : SliceId) : id ∈ r.slas ↔ id ∈ o.sliceConfigs := by
  rw [← AList.lookup_isSome, h.slas, ← AList.lookup_isSome]
  cases hconfig : o.sliceConfigs.lookup id with
  | none => rfl
  | some config =>
      obtain ⟨state, hstate⟩ := AList.exists_lookup
        ((h.states id).mp (AList.mem_of_lookup hconfig))
      rw [hstate]
      rfl

/-! ## The verdict -/

/-- The monitor names the slices that the registry finds in violation. -/
theorem Enrolled.violating (h : o.Enrolled r) (P : Platform) :
    (((P.hashOrder o.sliceStates.entries).filter o.violates).map Sigma.fst).Perm r.violating := by
  have hkeys : ((P.hashOrder o.sliceStates.entries).map Sigma.fst).Nodup :=
    ((P.hashOrder_perm _).map Sigma.fst).nodup_iff.mpr o.sliceStates.nodupKeys
  refine (List.perm_ext_iff_of_nodup (hkeys.sublist (List.filter_sublist.map _))
    (r.slas.keys_nodup.sublist (List.filter_sublist.map _))).mpr fun id ↦ ?_
  have hstates : ∀ state, (⟨id, state⟩ : Sigma fun _ : SliceId ↦ SliceState D) ∈
      P.hashOrder o.sliceStates.entries ↔ o.sliceStates.lookup id = some state :=
    fun state ↦ (P.mem_hashOrder).trans AList.mem_lookup_iff.symm
  have hslas : ∀ sla, (⟨id, sla⟩ : Sigma fun _ : SliceId ↦ ℕ × D) ∈ r.slas.entries ↔
      r.slas.lookup id = some sla :=
    fun sla ↦ AList.mem_lookup_iff.symm
  constructor
  · intro hid
    obtain ⟨⟨id', state⟩, hmem, heq⟩ := List.mem_map.mp hid
    obtain rfl : id' = id := heq
    obtain ⟨hmem, hviolates⟩ := List.mem_filter.mp hmem
    have hstate := (hstates state).mp hmem
    cases hconfig : o.sliceConfigs.lookup id' with
    | none =>
        rw [violates, hconfig] at hviolates
        cases hviolates
    | some config =>
        rw [violates, hconfig] at hviolates
        refine List.mem_map.mpr ⟨⟨id', config.sla.maxLatencyMs, state.avgLatencyMs⟩,
          List.mem_filter.mpr ⟨(hslas _).mpr ?_, hviolates⟩, rfl⟩
        rw [h.slas, hconfig, hstate]
        rfl
  · intro hid
    obtain ⟨⟨id', sla⟩, hmem, heq⟩ := List.mem_map.mp hid
    obtain rfl : id' = id := heq
    obtain ⟨hmem, hviolates⟩ := List.mem_filter.mp hmem
    have hsla := (hslas sla).mp hmem
    rw [h.slas] at hsla
    obtain ⟨config, hconfig, hsla⟩ := Option.bind_eq_some_iff.mp hsla
    obtain ⟨state, hstate, rfl⟩ := Option.map_eq_some_iff.mp hsla
    refine List.mem_map.mpr ⟨⟨id', state⟩, List.mem_filter.mpr ⟨(hstates state).mpr hstate, ?_⟩,
      rfl⟩
    rw [violates, hconfig]
    exact hviolates

theorem checkSlaCompliance_run (o : SliceOrchestrator D) (P : Platform) :
    (o.checkSlaCompliance P).run none =
      .ok (((P.hashOrder o.sliceStates.entries).filter o.violates).map Sigma.fst) := rfl

/-! ## One operation -/

omit [Double D] in
theorem borrowLoop_violations {sliceId : SliceId} {config : SliceConfig D} {toBorrow : ℕ}
    {isDl : Bool} {others : List SliceId} {borrowed : ℕ} :
    (borrowLoop sliceId config toBorrow isDl others borrowed o).2.stats.totalSlaViolations =
      o.stats.totalSlaViolations := by
  fun_induction borrowLoop sliceId config toBorrow isDl others borrowed o with
  | case1 => rfl
  | case2 _ _ _ _ _ _ _ _ _ _ ih => exact ih
  | case3 => rfl
  | case4 _ _ _ _ _ _ _ _ _ _ _ _ _ _ ih => exact ih
  | case5 _ _ _ _ _ ih => exact ih

omit [Double D] in
/-- Where limits and latencies stay as they are, the registry keeps them. -/
theorem Enrolled.of_same {r' : SlaRegistry D} (h : o.Enrolled r) (hlinked : o'.Linked)
    (hconfigs : o'.sliceConfigs = o.sliceConfigs)
    (hlatency : ∀ id, (o'.sliceStates.lookup id).map SliceState.avgLatencyMs =
      (o.sliceStates.lookup id).map SliceState.avgLatencyMs)
    (hslas : r'.slas = r.slas) (husers : r'.users = o'.ueSliceMap)
    (hviolations : r'.violations = o'.stats.totalSlaViolations) : o'.Enrolled r' := by
  refine ⟨hlinked, fun id ↦ ?_, husers, hviolations⟩
  rw [hslas, h.slas, hconfigs]
  congr 1
  funext config
  have hpair := congrArg (Option.map fun latency ↦ (config.sla.maxLatencyMs, latency))
    (hlatency id)
  rw [Option.map_map, Option.map_map] at hpair
  exact hpair.symm

/-- Counting users leaves the latencies as they are. -/
theorem Linked.latency_insert (h : o.Linked) {sliceId : SliceId} (hmem : sliceId ∈ o.sliceConfigs)
    {state : SliceState D} (hstate : state = (o.sliceStates.lookup sliceId).getD .zero)
    (ues : ℕ) (id : SliceId) :
    ((o.sliceStates.insert sliceId { state with connectedUes := ues }).lookup id).map
        SliceState.avgLatencyMs =
      (o.sliceStates.lookup id).map SliceState.avgLatencyMs := by
  by_cases hid : id = sliceId
  · obtain ⟨known, hknown⟩ := AList.exists_lookup ((h.states sliceId).mp hmem)
    rw [hid, AList.lookup_insert, hstate, hknown]
    rfl
  · rw [AList.lookup_insert_ne hid]

/-- An operation that does nothing does nothing to the registry either. -/
theorem Enrolled.idle (h : o.Enrolled r) (hidle : o.idles op = true) : o.Enrolled (r.next op) := by
  have hsame : r.next op = r := by
    cases op with
    | createSlice config memory =>
        exact if_pos ((h.mem_iff _).mpr (of_decide_eq_true hidle))
    | updateSlice sliceId config =>
        have hnot : sliceId ∉ r.slas := fun hmem ↦
          of_decide_eq_true hidle ((h.mem_iff _).mp hmem)
        rw [SlaRegistry.next, AList.modify_of_notMem hnot]
    | deleteSlice sliceId =>
        refine if_pos ?_
        rw [h.sameUsers]
        exact hidle
    | associateUe rnti sliceId =>
        exact if_neg fun hmem ↦ of_decide_eq_true hidle ((h.mem_iff _).mp hmem)
    | disassociateUe rnti =>
        have hnot : rnti ∉ r.users := h.sameUsers ▸ of_decide_eq_true hidle
        have herase : r.users.erase rnti = r.users :=
          AList.ext (List.kerase_of_notMem_keys hnot)
        rw [SlaRegistry.next, herase]
    | onSlotEnd => cases hidle
    | _ => rfl
  exact hsame.symm ▸ h

/-- What an operation does to the slices and their users, the registry does too. -/
theorem Enrolled.effect (h : o.Enrolled r) (heffect : Effect o P op o') (hend : op ≠ .onSlotEnd) :
    o'.Enrolled (r.next op) := by
  have hlinked := h.toLinked.effect heffect
  cases heffect with
  | @created config memory hnot =>
      rw [SlaRegistry.next, if_neg fun hmem ↦ hnot ((h.mem_iff _).mp hmem)]
      refine ⟨hlinked, fun id ↦ ?_, h.sameUsers, h.violations⟩
      by_cases hid : id = config.sliceId
      · rw [hid, AList.lookup_insert, AList.lookup_insert, AList.lookup_insert]
        rfl
      · rw [AList.lookup_insert_ne hid, AList.lookup_insert_ne hid, AList.lookup_insert_ne hid]
        exact h.slas id
  | @updated sliceId config hmem =>
      refine ⟨hlinked, fun id ↦ ?_, h.sameUsers, h.violations⟩
      rw [SlaRegistry.next, AList.lookup_modify, AList.lookup_modify, h.slas, h.slas]
      by_cases hid : id = sliceId
      · rw [if_pos hid, if_pos hid, hid]
        cases o.sliceConfigs.lookup sliceId with
        | none => rfl
        | some config' => cases o.sliceStates.lookup sliceId <;> rfl
      · rw [if_neg hid, if_neg hid]
  | @deleted sliceId hnone =>
      have hany : ¬ (r.users.entries.any fun e ↦ e.2 == sliceId) = true := by
        rw [h.sameUsers, any_ueSliceMap_iff]
        exact fun ⟨rnti, hrnti⟩ ↦ hnone rnti hrnti
      rw [SlaRegistry.next, if_neg hany]
      refine ⟨hlinked, fun id ↦ ?_, h.sameUsers, h.violations⟩
      by_cases hid : id = sliceId
      · rw [hid, AList.lookup_erase, AList.lookup_erase]
        rfl
      · rw [AList.lookup_erase_ne hid, AList.lookup_erase_ne hid, AList.lookup_erase_ne hid]
        exact h.slas id
  | @associated rnti sliceId state hmem hstate =>
      rw [SlaRegistry.next, if_pos ((h.mem_iff _).mpr hmem)]
      exact h.of_same hlinked rfl (h.toLinked.latency_insert hmem hstate _) rfl
        (congrArg (AList.insert rnti sliceId) h.sameUsers) h.violations
  | @disassociated rnti sliceId state hslice hstate =>
      exact h.of_same hlinked rfl (h.toLinked.latency_insert (h.users rnti sliceId hslice) hstate _)
        rfl (congrArg (AList.erase rnti) h.sameUsers) h.violations
  | budgeted | granted | returned =>
      exact h.of_same hlinked rfl (fun _ ↦ rfl) rfl h.sameUsers h.violations
  | @borrowed sliceId _ isDl config toBorrow others _ _ =>
      have hviolations : r.violations =
          (borrowLoop sliceId config toBorrow isDl others 0 o).2.stats.totalSlaViolations :=
        h.violations.trans borrowLoop_violations.symm
      obtain ⟨budgets, stats, hframe, _⟩ := borrowLoop_frame (D := D)
      rw [hframe] at hlinked hviolations ⊢
      exact h.of_same hlinked rfl (fun _ ↦ rfl) rfl h.sameUsers hviolations
  | @reported rnti sliceId rbs bytes isDl hslice =>
      refine h.of_same hlinked rfl (fun id ↦ ?_) rfl h.sameUsers h.violations
      rw [AList.lookup_modify]
      by_cases hid : id = sliceId
      · rw [if_pos hid, hid, Option.map_map]
        congr 1
        funext state
        cases isDl <;> rfl
      · rw [if_neg hid]
  | slotStarted =>
      refine h.of_same hlinked rfl (fun id ↦ ?_) rfl h.sameUsers h.violations
      dsimp only
      rw [AList.lookup_mapValues, Option.map_map]
      rfl
  | slotEnded => exact absurd rfl hend

theorem Enrolled.next (h : o.Enrolled r) {i : Platform × Operation D} (hnext : o.next i = some o') :
    o'.Enrolled (r.next i.2) := by
  obtain ⟨P, op⟩ := i
  by_cases hend : op = .onSlotEnd
  · subst hend
    obtain rfl : _ = o' := Option.some.inj hnext
    refine ⟨⟨h.states, h.budgets, h.users⟩, h.slas, h.sameUsers, ?_⟩
    change r.violations + r.violating.length = o.stats.totalSlaViolations + _
    rw [h.violations, ← (h.violating P).length_eq]
  · obtain ⟨o₁, hnext₁, heffect⟩ := o.next_spec P op
    obtain rfl : o₁ = o' := Option.some.inj (hnext₁.symm.trans hnext)
    rcases heffect with ⟨hidle, rfl⟩ | ⟨_, heffect⟩
    · exact h.idle hidle
    · exact h.effect heffect hend

/-! ## Runs -/

/-- The registry of a run. -/
def registry (is : List (Platform × Operation D)) : SlaRegistry D :=
  is.foldl (fun r i ↦ r.next i.2) {}

/-- After every run the monitor finds the slices in violation that the registry of the run does,
and has counted as many. -/
theorem violating_of_run {is : List (Platform × Operation D)}
    (h : is.foldlM next create = some o) (P : Platform) :
    ∃ ids, (o.checkSlaCompliance P).run none = .ok ids ∧ ids.Perm (registry is).violating ∧
      o.stats.totalSlaViolations = (registry is).violations := by
  have hstart : (create : SliceOrchestrator D).Enrolled {} :=
    ⟨linked_create, fun _ ↦ rfl, rfl, rfl⟩
  have hend : o.Enrolled (registry is) :=
    Runs.foldlM_followed (fun _ _ _ _ hrel hnext ↦ hrel.next hnext) hstart h
  exact ⟨_, checkSlaCompliance_run o P, hend.violating P, hend.violations.symm⟩

/-- What the memory held when a slice was created is held against it in every slot. -/
theorem violating_of_run_stale :
    let slice (id : SliceId) (limit : ℕ) : SliceConfig ℚ :=
      { sliceId := id, sla := { (SliceConfig.shared id 5 9 0).sla with maxLatencyMs := limit } }
    let ops : List (Operation ℚ) :=
      [.createSlice (slice 1 10) { (.zero : SliceState ℚ) with avgLatencyMs := 50 },
        .createSlice (slice 2 10) (.zero : SliceState ℚ), .associateUe 7 1, .associateUe 8 2,
        .calculateBudgets (.create (.fdd 1 100) .cleared), .reportScheduling 7 5 1000 true,
        .onSlotEnd, .deleteSlice 1, .reportScheduling 8 90 100000 true, .onSlotEnd,
        .updateSlice 1 (slice 1 100), .onSlotEnd]
    let is := ops.map fun op ↦ (Platform.plain, op)
    ∃ o : SliceOrchestrator ℚ, is.foldlM next create = some o ∧
      (o.checkSlaCompliance .plain).run none = .ok [] ∧ o.stats.totalSlaViolations = 2 := by
  intro slice ops is
  have hsome : (is.foldlM next (create : SliceOrchestrator ℚ)).isSome = true := by
    decide +kernel
  obtain ⟨o, hrun⟩ := Option.isSome_iff_exists.mp hsome
  obtain ⟨ids, hcheck, hperm, hcount⟩ := violating_of_run hrun .plain
  have hnone : (registry is).violating = [] := by decide +kernel
  have htwo : (registry is).violations = 2 := by decide +kernel
  obtain rfl : ids = [] := List.perm_nil.mp (hnone ▸ hperm)
  exact ⟨o, hrun, hcheck, hcount.trans htwo⟩

end SliceOrchestrator

end NrScheduler
