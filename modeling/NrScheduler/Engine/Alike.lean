import NrScheduler.Core.Oblivious
import NrScheduler.Engine.RunSpec
import NrScheduler.Lib.Coupling
import NrScheduler.Lib.WrappingSum

/-!
# Engines that look alike

Two engines look alike if nothing they can ever send tells them apart.  Their cells hold the
same users in the same order, and the contexts of a user differ at most in the power headroom,
in the time of the last buffer report and in the order of the downlink buffers; the switches
of the services and the counters may differ as well.
-/

namespace NrScheduler

open LockMonad

/-! ## Contexts -/

/-- The contexts agree on all that the scheduler reads. -/
structure UeContext.Alike (ue ue' : UeContext) : Prop where
  unseen : ue' = { ue with
    phr := ue'.phr
    pCmax := ue'.pCmax
    dlBufferBytes := ue'.dlBufferBytes
    ulBufferStatus := { ue.ulBufferStatus with reportTime := ue'.ulBufferStatus.reportTime } }
  dlBuffer : ∀ lcId, ue'.dlBufferBytes.lookup lcId = ue.dlBufferBytes.lookup lcId

namespace UeContext.Alike

variable {ue ue' : UeContext}

theorem refl (ue : UeContext) : ue.Alike ue := ⟨rfl, fun _ ↦ rfl⟩

theorem symm (h : ue.Alike ue') : ue'.Alike ue :=
  ⟨by rw [h.unseen], fun lcId ↦ (h.dlBuffer lcId).symm⟩

variable (h : ue.Alike ue')

include h

theorem ptr : ue'.ptr = ue.ptr := (congrArg UeContext.ptr h.unseen).trans rfl

theorem rnti : ue'.rnti = ue.rnti := (congrArg UeContext.rnti h.unseen).trans rfl

theorem harq (isDl : Bool) : ue'.harq isDl = ue.harq isDl :=
  (congrArg (UeContext.harq · isDl) h.unseen).trans rfl

theorem logicalChannels : ue'.logicalChannels = ue.logicalChannels :=
  (congrArg UeContext.logicalChannels h.unseen).trans rfl

theorem dlChannelQuality : ue'.dlChannelQuality = ue.dlChannelQuality :=
  (congrArg UeContext.dlChannelQuality h.unseen).trans rfl

theorem isInActiveTime : ue'.isInActiveTime = ue.isInActiveTime :=
  (congrArg UeContext.isInActiveTime h.unseen).trans rfl

theorem effectiveCqi : ue'.effectiveCqi = ue.effectiveCqi :=
  (congrArg UeContext.effectiveCqi h.unseen).trans rfl

theorem mcsFromCqi : ue'.mcsFromCqi = ue.mcsFromCqi :=
  (congrArg UeContext.mcsFromCqi h.unseen).trans rfl

theorem srPending : ue'.ulBufferStatus.srPending = ue.ulBufferStatus.srPending :=
  (congrArg (fun ue ↦ ue.ulBufferStatus.srPending) h.unseen).trans rfl

theorem totalUlBuffer : ue'.totalUlBuffer = ue.totalUlBuffer :=
  (congrArg UeContext.totalUlBuffer h.unseen).trans rfl

/-- The sum of the buffers does not depend on their order. -/
theorem totalDlBuffer : ue'.totalDlBuffer = ue.totalDlBuffer := by
  have htotal : ∀ ue : UeContext, ue.totalDlBuffer =
      (0 + (ue.dlBufferBytes.entries.map fun e ↦ e.2).sum) % 2 ^ 32 := fun ue ↦
    WrappingSum.foldl_add_mod (fun e : Sigma fun _ : LcId ↦ ℕ ↦ e.2) ue.dlBufferBytes.entries
      (Nat.two_pow_pos 32)
  rw [htotal, htotal, ((AList.perm_of_lookup_eq h.dlBuffer).map fun e ↦ e.2).sum_eq]

theorem hasData (isDl : Bool) : ue'.hasData isDl = ue.hasData isDl := by
  rw [UeContext.hasData, UeContext.hasData, h.totalDlBuffer, h.totalUlBuffer, h.srPending]

theorem newTxBytes (isDl : Bool) : ue'.newTxBytes isDl = ue.newTxBytes isDl := by
  rw [UeContext.newTxBytes, UeContext.newTxBytes, h.totalDlBuffer, h.totalUlBuffer]

theorem buffer (isDl : Bool) : ue'.buffer isDl = ue.buffer isDl := by
  rw [UeContext.buffer, UeContext.buffer, h.totalDlBuffer, h.totalUlBuffer]

theorem updateDlBuffer (lcId : LcId) (bytes : ℕ) :
    (ue.updateDlBuffer lcId bytes).Alike (ue'.updateDlBuffer lcId bytes) := by
  rw [UeContext.updateDlBuffer, UeContext.updateDlBuffer]
  split
  · refine ⟨?_, fun lc ↦ ?_⟩
    · rw [h.unseen]
    · by_cases hlc : lc = lcId
      · rw [hlc, AList.lookup_erase, AList.lookup_erase]
      · rw [AList.lookup_erase_ne hlc, AList.lookup_erase_ne hlc, h.dlBuffer]
  · refine ⟨?_, fun lc ↦ ?_⟩
    · rw [h.unseen]
    · by_cases hlc : lc = lcId
      · rw [hlc, AList.lookup_insert, AList.lookup_insert]
      · rw [AList.lookup_insert_ne hlc, AList.lookup_insert_ne hlc, h.dlBuffer]

theorem processHarqFeedback (isDl : Bool) (fb : HarqFeedback) :
    (ue.processHarqFeedback isDl fb).Alike (ue'.processHarqFeedback isDl fb) := by
  have hunseen := h.unseen
  cases isDl with
  | true =>
      refine ⟨?_, h.dlBuffer⟩
      change { ue' with dlHarq := ue'.dlHarq.processFeedback fb } = _
      rw [hunseen]
      rfl
  | false =>
      refine ⟨?_, h.dlBuffer⟩
      change { ue' with ulHarq := ue'.ulHarq.processFeedback fb } = _
      rw [hunseen]
      rfl

end UeContext.Alike

/-! ## Cells -/

structure UeRepository.Alike (repo repo' : UeRepository) : Prop where
  nextUeId : repo'.nextUeId = repo.nextUeId
  ueByRnti : AList.Matching UeContext.Alike repo.ueByRnti repo'.ueByRnti

namespace UeRepository.Alike

variable {repo repo' : UeRepository}

theorem refl (repo : UeRepository) : repo.Alike repo := ⟨rfl, .refl .refl _⟩

theorem symm (h : repo.Alike repo') : repo'.Alike repo :=
  ⟨h.nextUeId.symm, h.ueByRnti.symm fun _ _ hue ↦ hue.symm⟩

theorem ue? (h : repo.Alike repo') (rnti : Rnti) :
    Option.Rel UeContext.Alike (repo.ue? rnti) (repo'.ue? rnti) := h.ueByRnti.lookup rnti

theorem users (h : repo.Alike repo') {P : Platform} (hP : P.Oblivious) :
    List.Forall₂ UeContext.Alike (repo.users P) (repo'.users P) := by
  rw [UeRepository.users, UeRepository.users, List.forall₂_map_left_iff,
    List.forall₂_map_right_iff]
  exact (hP.hashOrder_matching h.ueByRnti).imp fun _ _ he ↦ he.2

theorem findByRnti (h : repo.Alike repo') (rnti : Rnti) :
    Coupled (Option.Rel UeContext.Alike) (repo.findByRnti rnti) (repo'.findByRnti rnti) :=
  .of_ok (repo.findByRnti_run rnti) (repo'.findByRnti_run rnti) (h.ue? rnti)

theorem modifyUe (h : repo.Alike repo') (rnti : Rnti) {f g : UeContext → UeContext}
    (hf : ∀ ue, (f ue).rnti = ue.rnti) (hg : ∀ ue, (g ue).rnti = ue.rnti)
    (hfg : ∀ ue ue', ue.Alike ue' → (f ue).Alike (g ue')) :
    (repo.modifyUe rnti f hf).Alike (repo'.modifyUe rnti g hg) where
  nextUeId := h.nextUeId
  ueByRnti := h.ueByRnti.modify rnti hfg

/-- One repository changes what does not count. -/
theorem modifyUe_left (h : repo.Alike repo') (rnti : Rnti) {f : UeContext → UeContext}
    (hf : ∀ ue, (f ue).rnti = ue.rnti) (hf' : ∀ ue ue', ue.Alike ue' → (f ue).Alike ue') :
    (repo.modifyUe rnti f hf).Alike repo' where
  nextUeId := h.nextUeId
  ueByRnti := by
    have hmodify := h.ueByRnti.modify (g := id) rnti hf'
    rw [AList.modify_eq_self fun _ _ ↦ id.eq_1 _] at hmodify
    exact hmodify

theorem eraseUe (h : repo.Alike repo') (rnti : Rnti) :
    (repo.eraseUe rnti).Alike (repo'.eraseUe rnti) where
  nextUeId := h.nextUeId
  ueByRnti := h.ueByRnti.erase rnti

theorem createUe (h : repo.Alike repo') (ptr : UePtr) (rnti : Rnti) :
    Coupled UeRepository.Alike (repo.createUe ptr rnti) (repo'.createUe ptr rnti) := by
  refine .of_ok rfl rfl ⟨?_, ?_⟩
  · exact congrArg (fun n ↦ (n + 1) % 2 ^ 32) h.nextUeId
  · refine h.ueByRnti.insert rnti ?_
    rw [newUe, newUe, h.nextUeId]
    exact .refl _

end UeRepository.Alike

structure CellContext.Alike (cell cell' : CellContext) : Prop where
  config : cell'.config = cell.config
  currentSlot : cell'.currentSlot = cell.currentSlot
  ueRepo : cell.ueRepo.Alike cell'.ueRepo

namespace CellContext.Alike

variable {cell cell' : CellContext}

theorem refl (cell : CellContext) : cell.Alike cell := ⟨rfl, rfl, .refl _⟩

theorem symm (h : cell.Alike cell') : cell'.Alike cell :=
  ⟨h.config.symm, h.currentSlot.symm, h.ueRepo.symm⟩

theorem setRepo (h : cell.Alike cell') {repo repo' : UeRepository} (hrepo : repo.Alike repo') :
    Alike { cell with ueRepo := repo } { cell' with ueRepo := repo' } :=
  ⟨h.config, h.currentSlot, hrepo⟩

theorem setGrid (h : cell.Alike cell') (isDl : Bool) (g : ResourceGrid) :
    (cell.setGrid isDl g).Alike (cell'.setGrid isDl g) where
  config := h.config
  currentSlot := congrArg (SlotContext.setGrid · isDl g) h.currentSlot
  ueRepo := h.ueRepo

theorem countRequest (h : cell.Alike cell') (r : TtiRequest) :
    (cell.countRequest r).Alike (cell'.countRequest r) where
  config := h.config
  currentSlot := by
    simp only [CellContext.countRequest, h.currentSlot]
  ueRepo := h.ueRepo

theorem advanceToSlot (h : cell.Alike cell') (t : FrameTiming) :
    Coupled CellContext.Alike (cell.advanceToSlot t) (cell'.advanceToSlot t) := by
  refine Coupled.bind (R := Eq) ?_ ?_
  · rw [h.config, h.currentSlot]
    exact .refl _
  · rintro slot _ rfl
    exact .pure ⟨h.config, rfl, h.ueRepo⟩

end CellContext.Alike

/-! ## Policies -/

/-- A policy that reads of a context what the scheduler reads, and of a cell what was
configured. -/
class ReadsAlike (π D : Type) [Double D] [IPolicyManager π D] : Prop where
  calculatePriority_eq : ∀ (P : Platform) (policy : π) {ue ue' : UeContext}
    {cell cell' : CellContext} (isDl : Bool), ue.Alike ue' → cell'.config = cell.config →
    (IPolicyManager.calculatePriority P policy ue' cell' isDl : D × π) =
      IPolicyManager.calculatePriority P policy ue cell isDl
  updateHistory_eq : ∀ (P : Platform) (policy : π) {ue ue' : UeContext} (bytes : ℕ),
    ue.Alike ue' → (IPolicyManager.updateHistory D P policy ue' bytes : π) =
      IPolicyManager.updateHistory D P policy ue bytes

section BuiltinPolicy

variable {D : Type} [Double D] {ue ue' : UeContext}

theorem ProportionalFairPolicy.calculatePriority_alike (p : ProportionalFairPolicy D)
    (P : Platform) {cell cell' : CellContext} (isDl : Bool) (h : ue.Alike ue')
    (hconfig : cell'.config = cell.config) :
    p.calculatePriority P ue' cell' isDl = p.calculatePriority P ue cell isDl := by
  rw [calculatePriority, estimateInstantaneousRate, h.buffer isDl, h.rnti, h.mcsFromCqi, hconfig]
  rfl

instance : ReadsAlike (BuiltinPolicy D) D where
  calculatePriority_eq P policy {ue ue'} {cell cell'} isDl h hconfig := by
    refine Prod.ext ?_ rfl
    change policy.priority P ue' cell' isDl = policy.priority P ue cell isDl
    cases policy with
    | roundRobin p =>
        simp only [BuiltinPolicy.priority, RoundRobinPolicy.calculatePriority, h.buffer isDl]
        rw [h.rnti]
    | proportionalFair p => exact p.calculatePriority_alike P isDl h hconfig
    | maxThroughput =>
        simp only [BuiltinPolicy.priority, maxThroughputPriority, h.buffer isDl, h.effectiveCqi]
    | qosAware p =>
        simp only [BuiltinPolicy.priority, QosAwarePolicy.calculatePriority,
          QosAwarePolicy.qosBoost, h.logicalChannels,
          p.pfPolicy.calculatePriority_alike P isDl h hconfig]
  updateHistory_eq P policy {ue ue'} bytes h := by
    change policy.updateHistory P ue' bytes = policy.updateHistory P ue bytes
    cases policy with
    | roundRobin p =>
        rw [BuiltinPolicy.updateHistory, RoundRobinPolicy.updateHistory, h.rnti]
        rfl
    | maxThroughput => rfl
    | proportionalFair p | qosAware p =>
        rw [BuiltinPolicy.updateHistory, ProportionalFairPolicy.updateHistory, h.rnti]
        rfl

end BuiltinPolicy

end NrScheduler
