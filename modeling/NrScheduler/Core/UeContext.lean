import NrScheduler.Lib.AListModify
import NrScheduler.Core.Platform

/-!
# User contexts

HARQ entities, the context of one user and the repository of the users of a cell.
-/

namespace NrScheduler

open LockMonad

/-! ## HARQ entity -/

structure HarqProcess where
  id : HarqId
  state : HarqState := .idle
  txCount : ℕ := 0
  rvIndex : ℕ := 0
  ndi : Bool := false
  tbConfig : TransportBlockConfig := {}
  txTime : FrameTiming := {}
  deriving DecidableEq, Repr

namespace HarqProcess

def maxTx : ℕ := 4

def canRetransmit (p : HarqProcess) : Bool :=
  decide (p.txCount < maxTx) && p.state == .nackReceived

def reset (p : HarqProcess) : HarqProcess :=
  { p with state := .idle, txCount := 0, rvIndex := 0, ndi := !p.ndi }

def nextRv (p : HarqProcess) : ℕ := [0, 2, 3, 1].getD (p.txCount % 4) 0

end HarqProcess

/-- The processes of one direction; the default of the template is sixteen. -/
structure HarqEntity (maxProcesses : ℕ) where
  processes : Vector HarqProcess maxProcesses
  deriving DecidableEq, Repr

namespace HarqEntity

variable {n : ℕ}

def create (n : ℕ) : HarqEntity n := ⟨Vector.ofFn fun i ↦ { id := i }⟩

def getFreeProcess (h : HarqEntity n) : Option HarqProcess :=
  h.processes.toList.find? fun p ↦ p.state == .idle

/-- One round of the search for the retransmittable process sent first. -/
def olderRetx (oldest : Option HarqProcess) (p : HarqProcess) : Option HarqProcess :=
  if p.state == .nackReceived && p.canRetransmit then
    match oldest with
    | none => some p
    | some o => if p.txTime.absoluteSlot < o.txTime.absoluteSlot then some p else some o
  else oldest

def getRetxProcess (h : HarqEntity n) : Option HarqProcess :=
  h.processes.toList.foldl olderRetx none

def getProcess (h : HarqEntity n) (id : HarqId) : Option HarqProcess := h.processes[id]?

def processFeedback (h : HarqEntity n) (fb : HarqFeedback) : HarqEntity n :=
  if hlt : fb.harqId < n then
    let proc := h.processes[fb.harqId]
    if proc.state = .pending then
      let proc' := if fb.ack then proc.reset else { proc with state := .nackReceived }
      ⟨h.processes.set fb.harqId proc'⟩
    else h
  else h

end HarqEntity

/-! ## User context -/

structure LogicalChannelConfig where
  lcId : LcId
  priority : ℕ
  qosParams : Option QosFlowParams := none
  deriving DecidableEq, Repr

structure DrxConfig where
  enabled : Bool := false
  deriving DecidableEq, Repr

structure DrxState where
  activeTime : Bool := false
  deriving DecidableEq, Repr

structure UeContext where
  /-- Ghost: the identity of this object. -/
  ptr : UePtr
  rnti : Rnti
  ueId : ℕ
  sliceId : SliceId := 0
  dlBwps : List BwpConfig := []
  ulBwps : List BwpConfig := []
  activeDlBwpId : ℕ := 0
  activeUlBwpId : ℕ := 0
  logicalChannels : AList (fun _ : LcId ↦ LogicalChannelConfig) := ∅
  drxConfig : DrxConfig := {}
  drxState : DrxState := {}
  dlHarq : HarqEntity 16 := .create 16
  ulHarq : HarqEntity 16 := .create 16
  dlChannelQuality : ChannelQualityInfo := {}
  ulBufferStatus : BufferStatus := {}
  dlBufferBytes : AList (fun _ : LcId ↦ ℕ) := ∅
  pCmax : ℤ := 23
  phr : ℤ := 0

namespace UeContext

def activeDlBwp (ue : UeContext) : Option BwpConfig :=
  ue.dlBwps.find? fun bwp ↦ bwp.bwpId == ue.activeDlBwpId

def activeUlBwp (ue : UeContext) : Option BwpConfig :=
  ue.ulBwps.find? fun bwp ↦ bwp.bwpId == ue.activeUlBwpId

def activeBwp (ue : UeContext) (isDl : Bool) : Option BwpConfig :=
  if isDl then ue.activeDlBwp else ue.activeUlBwp

/-- The sum over the logical channels, in 32-bit arithmetic. -/
def totalDlBuffer (ue : UeContext) : ℕ :=
  ue.dlBufferBytes.entries.foldl (fun total e ↦ (total + e.2) % 2 ^ 32) 0

def totalUlBuffer (ue : UeContext) : ℕ := ue.ulBufferStatus.totalBuffer

def hasPendingData (ue : UeContext) : Bool :=
  decide (0 < ue.totalDlBuffer) || decide (0 < ue.totalUlBuffer) ||
    ue.ulBufferStatus.srPending

def isInActiveTime (ue : UeContext) : Bool :=
  if !ue.drxConfig.enabled then true else ue.drxState.activeTime

def effectiveCqi (ue : UeContext) : ℕ := ue.dlChannelQuality.widebandCqi

def cqiToMcs : List ℕ := [0, 0, 1, 3, 5, 7, 9, 11, 13, 15, 18, 20, 22, 24, 26, 28]

def mcsFromCqi (ue : UeContext) : ℕ :=
  let cqi := ue.effectiveCqi
  if cqi < 16 then cqiToMcs.getD cqi 28 else 28

def updateDlBuffer (ue : UeContext) (lcId : LcId) (bytes : ℕ) : UeContext :=
  if bytes = 0 then { ue with dlBufferBytes := ue.dlBufferBytes.erase lcId }
  else { ue with dlBufferBytes := ue.dlBufferBytes.insert lcId bytes }

def updateUlBuffer (ue : UeContext) (bsr : BufferStatus) : UeContext :=
  { ue with ulBufferStatus := bsr }

def processHarqFeedback (ue : UeContext) (isDl : Bool) (fb : HarqFeedback) : UeContext :=
  if isDl then { ue with dlHarq := ue.dlHarq.processFeedback fb }
  else { ue with ulHarq := ue.ulHarq.processFeedback fb }

def harq (ue : UeContext) (isDl : Bool) : HarqEntity 16 :=
  if isDl then ue.dlHarq else ue.ulHarq

end UeContext

/-! ## User repository -/

/-- The two indexes of the users of a cell.  The index by RNTI owns the contexts, the
index by number only refers to them. -/
structure UeRepository where
  nextUeId : ℕ := 1
  ueByRnti : AList (fun _ : Rnti ↦ UeContext) := ∅
  ueById : AList (fun _ : ℕ ↦ UePtr) := ∅
  /-- A context is filed under its own RNTI. -/
  rnti_eq : ∀ rnti ue, ueByRnti.lookup rnti = some ue → ue.rnti = rnti := by simp

namespace UeRepository

def empty : UeRepository := {}

/-- The index by RNTI, as a function. -/
def ue? (repo : UeRepository) (rnti : Rnti) : Option UeContext := repo.ueByRnti.lookup rnti

/-- Store a fresh context under its RNTI. -/
def insertUe (repo : UeRepository) (ue : UeContext) : UeRepository where
  nextUeId := repo.nextUeId
  ueByRnti := repo.ueByRnti.insert ue.rnti ue
  ueById := repo.ueById
  rnti_eq rnti u h := by
    by_cases hr : rnti = ue.rnti
    · subst hr
      rw [AList.lookup_insert] at h
      exact Option.some.inj h ▸ rfl
    · rw [AList.lookup_insert_ne hr] at h
      exact repo.rnti_eq rnti u h

/-- Change the context of `rnti`, if there is one, through the pointer to it. -/
def modifyUe (repo : UeRepository) (rnti : Rnti) (f : UeContext → UeContext)
    (hf : ∀ ue, (f ue).rnti = ue.rnti) : UeRepository where
  nextUeId := repo.nextUeId
  ueByRnti := repo.ueByRnti.modify rnti f
  ueById := repo.ueById
  rnti_eq r u h := by
    rw [AList.lookup_modify] at h
    by_cases hr : r = rnti
    · subst hr
      rw [if_pos rfl, Option.map_eq_some_iff] at h
      obtain ⟨u₀, hu₀, rfl⟩ := h
      rw [hf, repo.rnti_eq _ u₀ hu₀]
    · rw [if_neg hr] at h
      exact repo.rnti_eq r u h

/-- Drop the context of `rnti` and the reference to it, if there is one. -/
def eraseUe (repo : UeRepository) (rnti : Rnti) : UeRepository where
  nextUeId := repo.nextUeId
  ueByRnti := repo.ueByRnti.erase rnti
  ueById :=
    match repo.ueByRnti.lookup rnti with
    | none => repo.ueById
    | some ue => repo.ueById.erase ue.ueId
  rnti_eq r u h := by
    by_cases hr : r = rnti
    · rw [hr, AList.lookup_erase] at h
      cases h
    · rw [AList.lookup_erase_ne hr] at h
      exact repo.rnti_eq r u h

def newUe (repo : UeRepository) (ptr : UePtr) (rnti : Rnti) : UeContext :=
  { ptr := ptr, rnti := rnti, ueId := repo.nextUeId }

def createUe (repo : UeRepository) (ptr : UePtr) (rnti : Rnti) : Exec UeRepository :=
  withLock .ueRepository do
    return { repo.insertUe (repo.newUe ptr rnti) with
      nextUeId := (repo.nextUeId + 1) % 2 ^ 32
      ueById := repo.ueById.insert repo.nextUeId ptr }

def removeUe (repo : UeRepository) (rnti : Rnti) : Exec UeRepository :=
  withLock .ueRepository do return repo.eraseUe rnti

def findByRnti (repo : UeRepository) (rnti : Rnti) : Exec (Option UeContext) :=
  withLock .ueRepository do return repo.ue? rnti

def findById (repo : UeRepository) (ueId : ℕ) : Exec (Option UePtr) :=
  withLock .ueRepository do return repo.ueById.lookup ueId

/-- Visit every user with the repository locked, accumulating in `σ`. -/
def forEach {σ : Type} (repo : UeRepository) (P : Platform)
    (func : σ → UeContext → Exec σ) (init : σ) : Exec σ :=
  withLock .ueRepository do
    (P.hashOrder repo.ueByRnti.entries).foldlM (fun s e ↦ func s e.2) init

def count (repo : UeRepository) : Exec ℕ :=
  withLock .ueRepository do return repo.ueByRnti.entries.length

/-! ### The repository as a partial function -/

@[simp] theorem findByRnti_run (repo : UeRepository) (rnti : Rnti) :
    (repo.findByRnti rnti).run none = .ok (repo.ue? rnti) := rfl

theorem ue?_rnti {repo : UeRepository} {rnti : Rnti} {ue : UeContext}
    (h : repo.ue? rnti = some ue) : ue.rnti = rnti := repo.rnti_eq rnti ue h

theorem mem_entries_iff {repo : UeRepository} {rnti : Rnti} {ue : UeContext} :
    (⟨rnti, ue⟩ : Sigma fun _ : Rnti ↦ UeContext) ∈ repo.ueByRnti.entries ↔
      repo.ue? rnti = some ue :=
  AList.mem_lookup_iff.symm

theorem ue?_modifyUe (repo : UeRepository) (rnti r : Rnti) (f : UeContext → UeContext)
    (hf : ∀ ue, (f ue).rnti = ue.rnti) :
    (repo.modifyUe rnti f hf).ue? r =
      if r = rnti then (repo.ue? rnti).map f else repo.ue? r :=
  AList.lookup_modify rnti r f repo.ueByRnti

theorem modifyUe_eq_self {repo : UeRepository} {rnti : Rnti} {f : UeContext → UeContext}
    {hf : ∀ ue, (f ue).rnti = ue.rnti} (h : ∀ ue, repo.ue? rnti = some ue → f ue = ue) :
    repo.modifyUe rnti f hf = repo := by
  have hindex : repo.ueByRnti.modify rnti f = repo.ueByRnti := AList.modify_eq_self h
  obtain ⟨nextUeId, ueByRnti, ueById, _⟩ := repo
  simp only [modifyUe, mk.injEq, true_and, and_true]
  exact hindex

theorem ue?_insertUe (repo : UeRepository) (ue : UeContext) (r : Rnti) :
    (repo.insertUe ue).ue? r = if r = ue.rnti then some ue else repo.ue? r := by
  by_cases hr : r = ue.rnti
  · rw [if_pos hr, hr]
    exact AList.lookup_insert repo.ueByRnti
  · rw [if_neg hr]
    exact AList.lookup_insert_ne hr

theorem ueById_eraseUe_of_none {repo : UeRepository} {rnti : Rnti} (h : repo.ue? rnti = none) :
    (repo.eraseUe rnti).ueById = repo.ueById := by
  have hlookup : repo.ueByRnti.lookup rnti = none := h
  simp only [eraseUe, hlookup]

theorem ueById_eraseUe_of_some {repo : UeRepository} {rnti : Rnti} {ue : UeContext}
    (h : repo.ue? rnti = some ue) :
    (repo.eraseUe rnti).ueById = repo.ueById.erase ue.ueId := by
  have hlookup : repo.ueByRnti.lookup rnti = some ue := h
  simp only [eraseUe, hlookup]

theorem ue?_eraseUe (repo : UeRepository) (rnti r : Rnti) :
    (repo.eraseUe rnti).ue? r = if r = rnti then none else repo.ue? r := by
  by_cases hr : r = rnti
  · rw [if_pos hr, hr]
    exact AList.lookup_erase rnti repo.ueByRnti
  · rw [if_neg hr]
    exact AList.lookup_erase_ne hr

/-! ### The users in the order of a visit -/

def users (repo : UeRepository) (P : Platform) : List UeContext :=
  (P.hashOrder repo.ueByRnti.entries).map Sigma.snd

theorem mem_users {repo : UeRepository} {P : Platform} {ue : UeContext} :
    ue ∈ repo.users P ↔ repo.ue? ue.rnti = some ue := by
  rw [users, List.mem_map]
  constructor
  · rintro ⟨⟨rnti, u⟩, hmem, rfl⟩
    have hlookup := mem_entries_iff.mp (P.mem_hashOrder.mp hmem)
    rw [ue?_rnti hlookup]
    exact hlookup
  · intro h
    exact ⟨⟨ue.rnti, ue⟩, P.mem_hashOrder.mpr (mem_entries_iff.mpr h), rfl⟩

theorem users_nodup (repo : UeRepository) (P : Platform) :
    ((repo.users P).map UeContext.rnti).Nodup := by
  have hkeys : ∀ e ∈ P.hashOrder repo.ueByRnti.entries, e.2.rnti = e.1 := by
    intro e he
    exact ue?_rnti (mem_entries_iff.mp (P.mem_hashOrder.mp he))
  have hmap : (repo.users P).map UeContext.rnti =
      (P.hashOrder repo.ueByRnti.entries).map Sigma.fst := by
    rw [users, List.map_map]
    exact List.map_congr_left hkeys
  rw [hmap]
  exact ((P.hashOrder_perm _).map Sigma.fst).nodup_iff.mpr repo.ueByRnti.nodupKeys

theorem forEach_run_filter {repo : UeRepository} {P : Platform} {p : UeContext → Bool}
    {func : List UeContext → UeContext → Exec (List UeContext)}
    (hfunc : ∀ acc ue, (func acc ue).run none = .ok (if p ue then acc ++ [ue] else acc)) :
    (repo.forEach P func []).run none = .ok ((repo.users P).filter p) := by
  have hloop : ∀ (l : List (Sigma fun _ : Rnti ↦ UeContext)) (acc : List UeContext),
      (l.foldlM (fun s e ↦ func s e.2) acc : Exec (List UeContext)).run none =
        .ok (acc ++ (l.map Sigma.snd).filter p) := by
    intro l
    induction l with
    | nil =>
        intro acc
        rw [List.map_nil, List.filter_nil, List.append_nil]
        rfl
    | cons e l ih =>
        intro acc
        rw [List.foldlM_cons, run_bind_of_ok (hfunc acc e.2), ih, List.map_cons]
        by_cases hp : p e.2 = true <;> simp [hp]
  exact hloop (P.hashOrder repo.ueByRnti.entries) []

end UeRepository

end NrScheduler
