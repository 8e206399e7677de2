import NrScheduler.Core.UeContext
import NrScheduler.Lib.Runs

/-!
# The two indexes of a user repository

A repository files every context by RNTI and by number.  Both indexes hold the same contexts
as long as a new context replaces in both the same one, or none.
-/

namespace NrScheduler

open LockMonad Runs

inductive RepoCall
  | createUe (rnti : Rnti)
  | removeUe (rnti : Rnti)
  deriving DecidableEq, Repr

/-- The repository of a cell and the contexts it has created. -/
structure UeHistory (cellId : CellId) where
  repo : UeRepository := .empty
  created : List UeContext := []

namespace UeHistory

variable {cellId : CellId}

/-- A new object is different from those there have been. -/
def newPtr (h : UeHistory cellId) : UePtr := (cellId, h.created.length)

def newUe (h : UeHistory cellId) (rnti : Rnti) : UeContext := h.repo.newUe h.newPtr rnti

def step (h : UeHistory cellId) : RepoCall → Option (UeHistory cellId)
  | .createUe rnti =>
      (ignoringLocks (h.repo.createUe h.newPtr rnti)).map fun repo ↦
        ⟨repo, h.newUe rnti :: h.created⟩
  | .removeUe rnti =>
      (ignoringLocks (h.repo.removeUe rnti)).map fun repo ↦ ⟨repo, h.created⟩

def foundById (h : UeHistory cellId) (u : UeContext) : Prop :=
  (h.repo.findById u.ueId).run none = .ok (some u.ptr)

def foundByRnti (h : UeHistory cellId) (u : UeContext) : Prop :=
  ∃ ue, (h.repo.findByRnti u.rnti).run none = .ok (some ue) ∧ ue.ptr = u.ptr

/-- The indexes hold the same contexts, and each one under both of its keys or none. -/
structure Agrees (h : UeHistory cellId) : Prop where
  sameContexts : ∀ ptr, (∃ id, h.repo.ueById.lookup id = some ptr) ↔
    ∃ rnti ue, h.repo.ue? rnti = some ue ∧ ue.ptr = ptr
  sameKeys : ∀ u ∈ h.created, h.foundById u ↔ h.foundByRnti u

/-- No user has the RNTI of the new context or its number, or one user has both. -/
def ReplacesOne (h : UeHistory cellId) : RepoCall → Prop
  | .createUe rnti => ∀ r ue, h.repo.ue? r = some ue → (r = rnti ↔ ue.ueId = h.repo.nextUeId)
  | .removeUe _ => True

/-! ## What an index holds -/

/-- The indexes refer to contexts that were created, under their own keys. -/
structure Sound (h : UeHistory cellId) : Prop where
  byRnti : ∀ rnti ue, h.repo.ue? rnti = some ue → ue ∈ h.created
  byId : ∀ id ptr, h.repo.ueById.lookup id = some ptr →
    ∃ u ∈ h.created, u.ueId = id ∧ u.ptr = ptr
  ptr_lt : ∀ u ∈ h.created, u.ptr.2 < h.created.length
  ptr_inj : ∀ u ∈ h.created, ∀ v ∈ h.created, u.ptr = v.ptr → u = v

variable {h : UeHistory cellId}

theorem foundById_iff {u : UeContext} :
    h.foundById u ↔ h.repo.ueById.lookup u.ueId = some u.ptr := run_pure_eq_ok

theorem Sound.foundByRnti_iff (hsound : h.Sound) {u : UeContext} (hu : u ∈ h.created) :
    h.foundByRnti u ↔ h.repo.ue? u.rnti = some u := by
  constructor
  · rintro ⟨ue, hue, hptr⟩
    have hlookup : h.repo.ue? u.rnti = some ue := run_pure_eq_ok.mp hue
    rwa [hsound.ptr_inj ue (hsound.byRnti _ ue hlookup) u hu hptr] at hlookup
  · intro hu'
    exact ⟨u, run_pure_eq_ok.mpr hu', rfl⟩

/-- Contexts that are found under both keys or none are the same in both indexes. -/
theorem Sound.agrees_iff (hsound : h.Sound) :
    h.Agrees ↔ ∀ u ∈ h.created,
      h.repo.ueById.lookup u.ueId = some u.ptr ↔ h.repo.ue? u.rnti = some u := by
  constructor
  · intro hagrees u hu
    rw [← foundById_iff, hagrees.sameKeys u hu, hsound.foundByRnti_iff hu]
  · intro hkeys
    refine ⟨fun ptr ↦ ⟨?_, ?_⟩, fun u hu ↦ ?_⟩
    · rintro ⟨id, hid⟩
      obtain ⟨u, hu, rfl, rfl⟩ := hsound.byId id ptr hid
      exact ⟨u.rnti, u, (hkeys u hu).mp hid, rfl⟩
    · rintro ⟨rnti, ue, hue, rfl⟩
      have hown : h.repo.ue? ue.rnti = some ue := by rwa [UeRepository.ue?_rnti hue]
      exact ⟨ue.ueId, (hkeys ue (hsound.byRnti rnti ue hue)).mpr hown⟩
    · rw [foundById_iff, hsound.foundByRnti_iff hu]
      exact hkeys u hu

/-! ## One call -/

theorem sound_empty : ({} : UeHistory cellId).Sound where
  byRnti rnti ue hue := by cases hue
  byId id ptr hid := by cases hid
  ptr_lt u hu := by cases hu
  ptr_inj u hu := by cases hu

theorem agrees_empty : ({} : UeHistory cellId).Agrees :=
  sound_empty.agrees_iff.mpr fun u hu ↦ by cases hu

/-- The history after the next context. -/
def create (h : UeHistory cellId) (rnti : Rnti) : UeHistory cellId where
  repo := { h.repo.insertUe (h.newUe rnti) with
    nextUeId := (h.repo.nextUeId + 1) % 2 ^ 32
    ueById := h.repo.ueById.insert h.repo.nextUeId h.newPtr }
  created := h.newUe rnti :: h.created

def remove (h : UeHistory cellId) (rnti : Rnti) : UeHistory cellId :=
  { h with repo := h.repo.eraseUe rnti }

theorem step_createUe (h : UeHistory cellId) (rnti : Rnti) :
    h.step (.createUe rnti) = some (h.create rnti) := rfl

theorem step_removeUe (h : UeHistory cellId) (rnti : Rnti) :
    h.step (.removeUe rnti) = some (h.remove rnti) := rfl

theorem ue?_create (h : UeHistory cellId) (rnti r : Rnti) :
    (h.create rnti).repo.ue? r =
      if r = rnti then some (h.newUe rnti) else h.repo.ue? r :=
  h.repo.ue?_insertUe _ r

theorem lookup_create (h : UeHistory cellId) (rnti : Rnti) (id : ℕ) :
    (h.create rnti).repo.ueById.lookup id =
      if id = h.repo.nextUeId then some h.newPtr else h.repo.ueById.lookup id := by
  by_cases hid : id = h.repo.nextUeId
  · rw [if_pos hid, hid]
    exact AList.lookup_insert _
  · rw [if_neg hid]
    exact AList.lookup_insert_ne hid

theorem Sound.ne_newPtr (hsound : h.Sound) {u : UeContext} (hu : u ∈ h.created) :
    u.ptr ≠ h.newPtr := by
  intro heq
  have hlt := hsound.ptr_lt u hu
  rw [heq] at hlt
  exact hlt.false

theorem Sound.create (hsound : h.Sound) (rnti : Rnti) : (h.create rnti).Sound where
  byRnti r ue hue := by
    rw [ue?_create] at hue
    split at hue
    · exact Option.some.inj hue ▸ List.mem_cons_self
    · exact List.mem_cons_of_mem _ (hsound.byRnti r ue hue)
  byId id ptr hid := by
    rw [lookup_create] at hid
    split at hid
    · rename_i hnext
      exact ⟨_, List.mem_cons_self, hnext.symm, Option.some.inj hid⟩
    · obtain ⟨u, hu, hkeys⟩ := hsound.byId id ptr hid
      exact ⟨u, List.mem_cons_of_mem _ hu, hkeys⟩
  ptr_lt u hu := by
    rcases List.mem_cons.mp hu with rfl | hu
    · exact Nat.lt_succ_self _
    · exact (hsound.ptr_lt u hu).trans (Nat.lt_succ_self _)
  ptr_inj u hu v hv hptr := by
    rcases List.mem_cons.mp hu with rfl | hu'
    · rcases List.mem_cons.mp hv with rfl | hv'
      · rfl
      · exact absurd hptr.symm (hsound.ne_newPtr hv')
    · rcases List.mem_cons.mp hv with rfl | hv'
      · exact absurd hptr (hsound.ne_newPtr hu')
      · exact hsound.ptr_inj u hu' v hv' hptr

theorem agrees_create_iff (hsound : h.Sound) (hagrees : h.Agrees) (rnti : Rnti) :
    (h.create rnti).Agrees ↔ h.ReplacesOne (.createUe rnti) := by
  have hkeys := hsound.agrees_iff.mp hagrees
  have hnew : ∀ u ∈ h.created, u ≠ h.newUe rnti := by
    rintro u hu rfl
    exact (hsound.ptr_lt _ hu).false
  rw [(hsound.create rnti).agrees_iff]
  constructor
  · intro hkeys' r ue hue
    have hmem := hsound.byRnti r ue hue
    obtain rfl : ue.rnti = r := UeRepository.ue?_rnti hue
    have hid := (hkeys ue hmem).mpr hue
    have hboth := hkeys' ue (List.mem_cons_of_mem _ hmem)
    rw [lookup_create, ue?_create, hid, hue] at hboth
    by_cases hrnti : ue.rnti = rnti
    · have hlost : some (h.newUe rnti) ≠ some ue :=
        fun heq ↦ hnew ue hmem (Option.some.inj heq).symm
      by_contra hne
      have hnext : ue.ueId ≠ h.repo.nextUeId := fun heq ↦ hne (iff_of_true hrnti heq)
      rw [if_pos hrnti, if_neg hnext] at hboth
      exact hlost (hboth.mp rfl)
    · by_contra hne
      have hnext : ue.ueId = h.repo.nextUeId := by
        by_contra hnext
        exact hne (iff_of_false hrnti hnext)
      rw [if_neg hrnti, if_pos hnext] at hboth
      exact hsound.ne_newPtr hmem (Option.some.inj (hboth.mpr rfl)).symm
  · intro hone u hu
    rw [lookup_create, ue?_create]
    rcases List.mem_cons.mp hu with rfl | hu
    · exact iff_of_true (if_pos rfl) (if_pos rfl)
    · have hptr : some h.newPtr ≠ some u.ptr :=
        fun heq ↦ hsound.ne_newPtr hu (Option.some.inj heq).symm
      have hcontext : some (h.newUe rnti) ≠ some u :=
        fun heq ↦ hnew u hu (Option.some.inj heq).symm
      by_cases hfound : h.repo.ue? u.rnti = some u
      · have hid := (hkeys u hu).mpr hfound
        by_cases hrnti : u.rnti = rnti
        · rw [if_pos hrnti, if_pos ((hone _ u hfound).mp hrnti)]
          exact iff_of_false hptr hcontext
        · rw [if_neg hrnti, if_neg (mt (hone _ u hfound).mpr hrnti)]
          exact iff_of_true hid hfound
      · have hid := mt (hkeys u hu).mp hfound
        refine iff_of_false ?_ ?_
        · split
          · exact hptr
          · exact hid
        · split
          · exact hcontext
          · exact hfound

theorem lookup_of_remove {rnti : Rnti} {id : ℕ} {ptr : UePtr}
    (hid : (h.remove rnti).repo.ueById.lookup id = some ptr) :
    h.repo.ueById.lookup id = some ptr := by
  change (h.repo.eraseUe rnti).ueById.lookup id = some ptr at hid
  cases hvictim : h.repo.ue? rnti with
  | none => rwa [UeRepository.ueById_eraseUe_of_none hvictim] at hid
  | some victim =>
      rw [UeRepository.ueById_eraseUe_of_some hvictim] at hid
      by_cases hsame : id = victim.ueId
      · rw [hsame, AList.lookup_erase] at hid
        cases hid
      · rwa [AList.lookup_erase_ne hsame] at hid

theorem lookup_remove (hsound : h.Sound) (hagrees : h.Agrees) (rnti : Rnti) {u : UeContext}
    (hu : u ∈ h.created) (hfound : h.repo.ue? u.rnti = some u) :
    (h.remove rnti).repo.ueById.lookup u.ueId = if u.rnti = rnti then none else some u.ptr := by
  have hkeys := hsound.agrees_iff.mp hagrees
  have hid := (hkeys u hu).mpr hfound
  change (h.repo.eraseUe rnti).ueById.lookup u.ueId = _
  cases hvictim : h.repo.ue? rnti with
  | none =>
      rw [UeRepository.ueById_eraseUe_of_none hvictim]
      have hrnti : u.rnti ≠ rnti := by
        rintro rfl
        rw [hfound] at hvictim
        cases hvictim
      rw [if_neg hrnti]
      exact hid
  | some victim =>
      rw [UeRepository.ueById_eraseUe_of_some hvictim]
      have hmem := hsound.byRnti rnti victim hvictim
      obtain rfl : victim.rnti = rnti := UeRepository.ue?_rnti hvictim
      by_cases hrnti : u.rnti = victim.rnti
      · rw [hrnti, hvictim] at hfound
        obtain rfl := Option.some.inj hfound
        rw [if_pos rfl]
        exact AList.lookup_erase _ _
      · rw [if_neg hrnti]
        refine (AList.lookup_erase_ne ?_).trans hid
        intro hsame
        -- one number refers to one context
        have hvictim' := (hkeys victim hmem).mpr hvictim
        rw [hsame, hvictim'] at hid
        exact hrnti (congrArg UeContext.rnti
          (hsound.ptr_inj u hu victim hmem (Option.some.inj hid).symm))

theorem Sound.remove (hsound : h.Sound) (rnti : Rnti) : (h.remove rnti).Sound where
  byRnti r ue hue := by
    simp only [UeHistory.remove, UeRepository.ue?_eraseUe] at hue
    split at hue
    · cases hue
    · exact hsound.byRnti r ue hue
  byId id ptr hid := hsound.byId id ptr (lookup_of_remove hid)
  ptr_lt := hsound.ptr_lt
  ptr_inj := hsound.ptr_inj

theorem agrees_remove (hsound : h.Sound) (hagrees : h.Agrees) (rnti : Rnti) :
    (h.remove rnti).Agrees := by
  refine (hsound.remove rnti).agrees_iff.mpr fun u hu ↦ ?_
  have hkeys := hsound.agrees_iff.mp hagrees u hu
  have hrepo : (h.remove rnti).repo.ue? u.rnti =
      if u.rnti = rnti then none else h.repo.ue? u.rnti := h.repo.ue?_eraseUe rnti u.rnti
  by_cases hfound : h.repo.ue? u.rnti = some u
  · rw [lookup_remove hsound hagrees rnti hu hfound, hrepo, hfound]
    split
    · simp
    · simp
  · refine iff_of_false (fun hid ↦ hfound (hkeys.mp (lookup_of_remove hid))) ?_
    rw [hrepo]
    split
    · simp
    · exact hfound

/-! ## All sequences of calls -/

/-- In every state reached, the indexes agree exactly if every new context replaced in both
of them the same context, or none. -/
theorem always_agrees_iff (calls : List RepoCall) :
    Always step (fun _ _ h' ↦ h'.Agrees) ({} : UeHistory cellId) calls ↔
      Always step (fun h call _ ↦ h.ReplacesOne call) ({} : UeHistory cellId) calls := by
  refine always_iff (fun h ↦ h.Sound ∧ h.Agrees) ?_ ⟨sound_empty, agrees_empty⟩ calls
  rintro h (rnti | rnti) h' ⟨hsound, hagrees⟩ hstep
  · obtain rfl := Option.some.inj ((step_createUe h rnti).symm.trans hstep)
    exact ⟨agrees_create_iff hsound hagrees rnti, fun hagrees' ↦ ⟨hsound.create rnti, hagrees'⟩⟩
  · obtain rfl := Option.some.inj ((step_removeUe h rnti).symm.trans hstep)
    have hagrees' := agrees_remove hsound hagrees rnti
    exact ⟨iff_of_true hagrees' trivial, fun _ ↦ ⟨hsound.remove rnti, hagrees'⟩⟩

/-- Created again, an RNTI leaves its first context in the index by number. -/
theorem not_always_agrees :
    ¬ ∀ (cellId : CellId) (calls : List RepoCall),
      Always step (fun _ _ h' ↦ h'.Agrees) ({} : UeHistory cellId) calls := by
  intro h
  have hfirst := (h 1 [.createUe 7, .createUe 7] _ rfl).2
  have hagrees := (hfirst _ rfl).1
  have hkeys := hagrees.sameKeys (({} : UeHistory 1).newUe 7)
    (List.mem_cons_of_mem _ List.mem_cons_self)
  obtain ⟨ue, hue, hptr⟩ := hkeys.mp rfl
  cases hue
  revert hptr
  decide

end UeHistory

end NrScheduler
