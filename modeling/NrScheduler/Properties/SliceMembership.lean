import NrScheduler.Properties.SliceIntegrity

/-!
# The user counters of the slices

Each slice counts its users beside the map from users to slices.  The two agree as long as
no user is associated twice and the memory of a new slice holds zero users.
-/

namespace NrScheduler

open LockMonad

variable {D : Type}

namespace SliceOrchestrator

def userCount (o : SliceOrchestrator D) (id : SliceId) : ℕ :=
  o.ueSliceMap.sumOf fun slice ↦ if slice = id then 1 else 0

/-- Whatever slice one asks for, its state counts as many users as the query lists. -/
def CountsUsers (o : SliceOrchestrator D) : Prop :=
  ∀ P id state ues, (o.getSliceState id).run none = .ok (some state) →
    (o.getSliceUes P id).run none = .ok ues → state.connectedUes = ues.length

theorem length_of_getSliceUes {o : SliceOrchestrator D} {P : Platform} {id : SliceId}
    {ues : List Rnti} (h : (o.getSliceUes P id).run none = .ok ues) :
    ues.length = o.userCount id := by
  cases h
  have hperm := ((P.hashOrder_perm o.ueSliceMap.entries).filter fun e ↦ e.2 == id).length_eq
  rw [List.length_map, hperm, userCount, AList.sumOf]
  induction o.ueSliceMap.entries with
  | nil => rfl
  | cons e l ih =>
      by_cases he : e.2 = id
      · simp [he, ih, Nat.add_comm]
      · simp [he, ih]

theorem countsUsers_iff {o : SliceOrchestrator D} : o.CountsUsers ↔
    ∀ id state, o.sliceStates.lookup id = some state → state.connectedUes = o.userCount id := by
  constructor
  · intro h id state hstate
    rw [h .plain id state _ (by rw [getSliceState, withLock_run_none, hstate]; rfl) rfl]
    exact length_of_getSliceUes (P := .plain) rfl
  · intro h P id state ues hstate hues
    rw [length_of_getSliceUes hues]
    exact h id state (run_pure_eq_ok.mp hstate)

/-- A slice starts without users in its memory, and no user is associated twice. -/
def JoinsOnce (o : SliceOrchestrator D) : Operation D → Prop
  | .createSlice config memory => config.sliceId ∉ o.sliceConfigs → memory.connectedUes = 0
  | .associateUe rnti sliceId => sliceId ∈ o.sliceConfigs → rnti ∉ o.ueSliceMap
  | _ => True

/-! ## Counting users -/

theorem userCount_eq_zero {o : SliceOrchestrator D} (h : o.Linked) {id : SliceId}
    (hid : id ∉ o.sliceConfigs) : o.userCount id = 0 := by
  rw [userCount, AList.sumOf_congr (g := fun _ ↦ 0)]
  · simp [AList.sumOf]
  · intro rnti slice hslice
    rw [if_neg]
    rintro rfl
    exact hid (h.users rnti slice hslice)

theorem userCount_le (o : SliceOrchestrator D) (id : SliceId) : o.userCount id ≤ 2 ^ 16 := by
  have hlength := AList.length_entries_le (s := o.ueSliceMap) (n := 2 ^ 16)
    (fun a b h ↦ UInt16.toNat_inj.mp h) fun rnti _ ↦ rnti.toNat_lt
  have hones : o.userCount id ≤ o.ueSliceMap.entries.length * 1 :=
    AList.sumOf_le_mul fun _ slice _ ↦ by split <;> simp
  omega

theorem userCount_erase {o : SliceOrchestrator D} {rnti : Rnti} {slice : SliceId}
    (h : o.ueSliceMap.lookup rnti = some slice) (id : SliceId) :
    ((o.ueSliceMap.erase rnti).sumOf fun slice ↦ if slice = id then 1 else 0) +
      (if slice = id then 1 else 0) = o.userCount id := by
  have herase := AList.sumOf_erase rnti o.ueSliceMap fun slice ↦ if slice = id then 1 else 0
  rwa [h] at herase

/-! ## The counters -/

theorem CountsUsers.of_same {o o' : SliceOrchestrator D} (h : o.CountsUsers)
    (husers : o'.ueSliceMap = o.ueSliceMap)
    (hstates : ∀ id state', o'.sliceStates.lookup id = some state' →
      ∃ state, o.sliceStates.lookup id = some state ∧
        state'.connectedUes = state.connectedUes) : o'.CountsUsers := by
  rw [countsUsers_iff] at h ⊢
  intro id state' hstate'
  obtain ⟨state, hstate, heq⟩ := hstates id state' hstate'
  rw [heq, h id state hstate, userCount, userCount, husers]

theorem countsUsers_iff_of_insert {o o' : SliceOrchestrator D} {id : SliceId}
    {state : SliceState D} (hstates : o'.sliceStates = o.sliceStates.insert id state)
    (hother : ∀ id' state', id' ≠ id → o.sliceStates.lookup id' = some state' →
      state'.connectedUes = o'.userCount id') :
    o'.CountsUsers ↔ state.connectedUes = o'.userCount id := by
  rw [countsUsers_iff, hstates]
  constructor
  · intro hcounts
    exact hcounts id state (AList.lookup_insert _)
  · intro hstate id' state' hlookup
    by_cases heq : id' = id
    · subst heq
      rw [AList.lookup_insert] at hlookup
      exact Option.some.inj hlookup ▸ hstate
    · rw [AList.lookup_insert_ne heq] at hlookup
      exact hother id' state' heq hlookup

theorem CountsUsers.exists_state {o : SliceOrchestrator D} (h : o.CountsUsers)
    (hlinked : o.Linked) {id : SliceId} (hid : id ∈ o.sliceConfigs) :
    ∃ state, o.sliceStates.lookup id = some state ∧ state.connectedUes = o.userCount id := by
  have hsome := AList.lookup_isSome.mpr ((hlinked.states id).mp hid)
  obtain ⟨state, hstate⟩ := Option.isSome_iff_exists.mp hsome
  exact ⟨state, hstate, countsUsers_iff.mp h id state hstate⟩

/-- Associating a user again spoils a counter: the one of its slice, which it joins a second
time, or the one of the slice it leaves. -/
theorem CountsUsers.not_associated {o : SliceOrchestrator D} (h : o.CountsUsers)
    (hlinked : o.Linked) {rnti : Rnti} {old sliceId : SliceId}
    (hold : o.ueSliceMap.lookup rnti = some old) {state : SliceState D}
    (hstate : state.connectedUes = o.userCount sliceId) :
    ¬ CountsUsers { o with
      ueSliceMap := o.ueSliceMap.insert rnti sliceId
      sliceStates := o.sliceStates.insert sliceId
        { state with connectedUes := (state.connectedUes + 1) % 2 ^ 32 } } := by
  intro hnew
  rw [countsUsers_iff] at hnew
  have hinsert := AList.sumOf_insert rnti o.ueSliceMap
    (fun slice ↦ if slice = old then 1 else 0) sliceId
  rw [hold, Option.map_some, Option.getD_some, if_pos rfl] at hinsert
  by_cases heq : sliceId = old
  · -- its own slice counts it once more
    subst heq
    have hcount := hnew sliceId _ (AList.lookup_insert _)
    have hle := o.userCount_le sliceId
    rw [if_pos rfl] at hinsert
    simp only [userCount, Nat.reducePow] at hcount hstate hle
    omega
  · -- the slice it leaves still counts it
    obtain ⟨left, hleft, hcounted⟩ := h.exists_state hlinked (hlinked.users rnti old hold)
    have hcount := hnew old left (by rw [AList.lookup_insert_ne (Ne.symm heq), hleft])
    rw [if_neg heq] at hinsert
    simp only [userCount] at hcount hcounted
    omega

variable [Double D]

theorem countsUsers_effect_iff {o o' : SliceOrchestrator D} {P : Platform} {op : Operation D}
    (hlinked : o.Linked) (h : o.CountsUsers) (heffect : o.Effect P op o') :
    o'.CountsUsers ↔ o.JoinsOnce op := by
  have hcounts := countsUsers_iff.mp h
  cases heffect with
  | @created config memory hnew =>
      refine Iff.trans (countsUsers_iff_of_insert (o := o) rfl fun id' state' _ ↦
        hcounts id' state') ?_
      have hzero : o.userCount config.sliceId = 0 := userCount_eq_zero hlinked hnew
      change memory.connectedUes = o.userCount config.sliceId ↔ _
      simp [hzero, JoinsOnce, hnew]
  | @associated rnti sliceId state hmem hstate =>
      obtain ⟨state₀, hstate₀, hcount⟩ := h.exists_state hlinked hmem
      obtain rfl : state = state₀ := by rw [hstate, hstate₀]; rfl
      cases hold : o.ueSliceMap.lookup rnti with
      | some old =>
          refine iff_of_false (h.not_associated hlinked hold hcount) fun hjoins ↦ ?_
          exact hjoins hmem (AList.mem_of_lookup hold)
      | none =>
          have hfresh : rnti ∉ o.ueSliceMap := AList.lookup_eq_none.mp hold
          refine iff_of_true ?_ fun _ ↦ hfresh
          refine (countsUsers_iff_of_insert rfl ?_).mpr ?_
          · intro id' state' hne hlookup
            rw [hcounts id' state' hlookup]
            simp [userCount, AList.sumOf_insert_of_notMem hfresh, hne.symm]
          · have hle := o.userCount_le sliceId
            simp only [userCount, AList.sumOf_insert_of_notMem hfresh, if_pos] at hcount hle ⊢
            omega
  | @disassociated rnti sliceId state hlookup hstate =>
      obtain ⟨state₀, hstate₀, hcount⟩ :=
        h.exists_state hlinked (hlinked.users rnti sliceId hlookup)
      obtain rfl : state = state₀ := by rw [hstate, hstate₀]; rfl
      refine iff_of_true ?_ trivial
      refine (countsUsers_iff_of_insert rfl ?_).mpr ?_
      · intro id' state' hne hlookup'
        have herase := userCount_erase hlookup id'
        rw [if_neg hne.symm] at herase
        exact (hcounts id' state' hlookup').trans herase.symm
      · have herase := userCount_erase hlookup sliceId
        simp only [if_pos] at herase
        simp only [userCount] at herase hcount ⊢
        omega
  | deleted =>
      refine iff_of_true (h.of_same rfl fun id state' hstate' ↦ ⟨state', ?_, rfl⟩) trivial
      have hmem := AList.mem_lookup_iff.mp hstate'
      exact AList.mem_lookup_iff.mpr ((List.kerase_sublist _ _).subset hmem)
  | reported =>
      refine iff_of_true (h.of_same rfl fun id state' hstate' ↦ ?_) trivial
      obtain ⟨state, hstate, ⟨-, rfl⟩ | ⟨-, rfl⟩⟩ := AList.exists_of_lookup_modify hstate'
      · exact ⟨_, hstate, rfl⟩
      · exact ⟨state, hstate, by rw [SliceState.report]; split <;> rfl⟩
  | slotStarted =>
      refine iff_of_true (h.of_same rfl fun id state' hstate' ↦ ?_) trivial
      rw [AList.lookup_mapValues] at hstate'
      obtain ⟨state, hstate, rfl⟩ := Option.map_eq_some_iff.mp hstate'
      exact ⟨state, hstate, rfl⟩
  | @budgeted cell =>
      obtain ⟨budgets, poolDl, poolUl, hframe, _⟩ := o.budgeted_frame P cell
      rw [hframe]
      exact iff_of_true (h.of_same rfl fun id state' hstate' ↦ ⟨state', hstate', rfl⟩) trivial
  | @borrowed sliceId _ isDl config toBorrow others =>
      obtain ⟨budgets, stats, hloop, _⟩ :=
        @borrowLoop_frame _ sliceId config toBorrow isDl others 0 o
      rw [hloop]
      exact iff_of_true (h.of_same rfl fun id state' hstate' ↦ ⟨state', hstate', rfl⟩) trivial
  | _ => exact iff_of_true (h.of_same rfl fun id state' hstate' ↦ ⟨state', hstate', rfl⟩) trivial

/-- In every run the counters agree with the map from users to slices after every step
exactly where no step associates a user that has a slice, and every slice is created in
memory that holds no users. -/
theorem countsUsers_iff_joinsOnce (is : List (Platform × Operation D)) :
    Runs.Always next (fun _ _ o' ↦ o'.CountsUsers) create is ↔
      Runs.Always next (fun o i _ ↦ o.JoinsOnce i.2) create is := by
  have hcreate : (create : SliceOrchestrator D).CountsUsers :=
    countsUsers_iff.mpr fun id state h ↦ by simp [create] at h
  refine Runs.always_iff (fun o ↦ o.Linked ∧ o.CountsUsers) ?_ ⟨linked_create, hcreate⟩ is
  rintro o ⟨P, op⟩ o' ⟨hlinked, hcounts⟩ hnext
  obtain ⟨o₁, hnext₁, ⟨hidle, rfl⟩ | ⟨_, heffect⟩⟩ := o.next_spec P op
  · obtain rfl := Option.some.inj (hnext.symm.trans hnext₁)
    refine ⟨iff_of_true hcounts ?_, fun h ↦ ⟨hlinked, h⟩⟩
    -- a refused operation joins no user to a slice
    cases op with
    | createSlice => exact fun hnew ↦ absurd (of_decide_eq_true hidle) hnew
    | associateUe => exact fun hmem ↦ absurd hmem (of_decide_eq_true hidle)
    | _ => trivial
  · obtain rfl := Option.some.inj (hnext.symm.trans hnext₁)
    exact ⟨countsUsers_effect_iff hlinked hcounts heffect, fun h ↦ ⟨hlinked.effect heffect, h⟩⟩

/-- A user configured twice counts as two users of its slice. -/
theorem not_countsUsers : ¬ Runs.Always next (fun _ _ o' ↦ o'.CountsUsers)
    (create : SliceOrchestrator ℚ)
    [(.plain, .createSlice (.shared 1 10 128 1) .zero), (.plain, .associateUe 7 1),
      (.plain, .associateUe 7 1)] := by
  intro h
  obtain ⟨-, h⟩ := h _ rfl
  obtain ⟨-, h⟩ := h _ rfl
  obtain ⟨hcounts, -⟩ := h _ rfl
  have htwo := hcounts .plain 1 _ _ rfl rfl
  exact absurd htwo (by decide +kernel)

end SliceOrchestrator

end NrScheduler
