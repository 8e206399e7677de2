import NrScheduler.Engine.Transmissions

/-!
# The accounts of a slot

What a slot sends is counted in the statistics of the engine, in the counters of the slot
and in the statistics of the cell.  Each of these is related to the transmissions that were
sent, one direction at a time, and the relations are composed along the requests.
-/

namespace NrScheduler

open LockMonad

/-- The transmissions of some requests, by direction. -/
def directionPdus (reqs : List TtiRequest) (isDl : Bool) : List TtiPdu :=
  (reqs.filter fun r ↦ r.isDownlink == isDl).flatMap TtiRequest.pdus

def bytesOf (pdus : List TtiPdu) : ℕ := (pdus.map TtiPdu.tbSize).sum

/-- Transmissions that all go in the direction `dir`. -/
def towards (dir : Bool) (pdus : List TtiPdu) (isDl : Bool) : List TtiPdu :=
  if dir = isDl then pdus else []

theorem directionPdus_append (reqs more : List TtiRequest) (isDl : Bool) :
    directionPdus (reqs ++ more) isDl = directionPdus reqs isDl ++ directionPdus more isDl := by
  simp [directionPdus]

theorem directionPdus_cons (r : TtiRequest) (reqs : List TtiRequest) :
    directionPdus (r :: reqs) =
      fun isDl ↦ towards r.isDownlink r.pdus isDl ++ directionPdus reqs isDl := by
  funext isDl
  by_cases hdir : r.isDownlink = isDl <;> simp [directionPdus, towards, hdir]

@[simp] theorem bytesOf_append (pdus more : List TtiPdu) :
    bytesOf (pdus ++ more) = bytesOf pdus + bytesOf more := by
  simp [bytesOf]

theorem mem_directionPdus {reqs : List TtiRequest} {isDl : Bool} {pdu : TtiPdu} :
    pdu ∈ directionPdus reqs isDl ↔ ∃ r ∈ reqs, r.isDownlink = isDl ∧ pdu ∈ r.pdus := by
  simp [directionPdus, and_assoc]

/-! ## Counting along the requests -/

/-- A relation between two states and what was counted between them. -/
structure Counting {σ : Type} (R : σ → (Bool → List TtiPdu) → σ → Prop) : Prop where
  refl : ∀ s, R s (fun _ ↦ []) s
  trans : ∀ {s₁ s₂ s₃ counted more}, R s₁ counted s₂ → R s₂ more s₃ →
    R s₁ (fun isDl ↦ counted isDl ++ more isDl) s₃

namespace Counting

variable {σ : Type} {R : σ → (Bool → List TtiPdu) → σ → Prop}

theorem foldl_pdus (h : Counting R) (dir : Bool) {f : σ → TtiPdu → σ}
    (hf : ∀ s pdu, R s (towards dir [pdu]) (f s pdu)) (s : σ) (pdus : List TtiPdu) :
    R s (towards dir pdus) (pdus.foldl f s) := by
  induction pdus generalizing s with
  | nil =>
      have hnil : towards dir [] = fun _ ↦ [] := by
        funext isDl
        simp [towards]
      rw [hnil]
      exact h.refl s
  | cons pdu pdus ih =>
      have hcons : towards dir (pdu :: pdus) =
          fun isDl ↦ towards dir [pdu] isDl ++ towards dir pdus isDl := by
        funext isDl
        by_cases hdir : dir = isDl <;> simp [towards, hdir]
      rw [hcons]
      exact h.trans (hf s pdu) (ih (f s pdu))

theorem foldl_requests (h : Counting R) {f : σ → TtiRequest → σ}
    (hf : ∀ s r, R s (towards r.isDownlink r.pdus) (f s r)) (s : σ) (reqs : List TtiRequest) :
    R s (directionPdus reqs) (reqs.foldl f s) := by
  induction reqs generalizing s with
  | nil => exact h.refl s
  | cons r reqs ih =>
      rw [directionPdus_cons]
      exact h.trans (hf s r) (ih (f s r))

end Counting

/-! ## The statistics of the engine -/

namespace Statistics

def bytesScheduled (s : Statistics) (isDl : Bool) : ℕ :=
  if isDl then s.dlBytesScheduled else s.ulBytesScheduled

def uesScheduled (s : Statistics) (isDl : Bool) : ℕ :=
  if isDl then s.dlUesScheduled else s.ulUesScheduled

def retransmissions (s : Statistics) (isDl : Bool) : ℕ :=
  if isDl then s.dlRetransmissions else s.ulRetransmissions

/-- The counters grow by the bytes, the number and the retransmissions of what was sent. -/
structure GrowsBy (s : Statistics) (sent : Bool → List TtiPdu) (s' : Statistics) : Prop where
  bytes : ∀ isDl, s'.bytesScheduled isDl = s.bytesScheduled isDl + bytesOf (sent isDl)
  ues : ∀ isDl, s'.uesScheduled isDl = s.uesScheduled isDl + (sent isDl).length
  retransmissions : ∀ isDl, s'.retransmissions isDl =
    s.retransmissions isDl + (sent isDl).countP fun pdu ↦ pdu.type = .retx

/-- The counters of what was sent are the same. -/
structure SameScheduled (s s' : Statistics) : Prop where
  bytes : s'.bytesScheduled = s.bytesScheduled
  ues : s'.uesScheduled = s.uesScheduled
  retransmissions : s'.retransmissions = s.retransmissions

theorem SameScheduled.growsBy {s s' : Statistics} (h : s.SameScheduled s') :
    s.GrowsBy (fun _ ↦ []) s' where
  bytes isDl := by simp [h.bytes, bytesOf]
  ues isDl := by simp [h.ues]
  retransmissions isDl := by simp [h.retransmissions]

theorem counting_growsBy : Counting GrowsBy where
  refl s := SameScheduled.growsBy ⟨rfl, rfl, rfl⟩
  trans h h' := by
    constructor
    · intro isDl
      rw [h'.bytes, h.bytes, bytesOf_append, Nat.add_assoc]
    · intro isDl
      rw [h'.ues, h.ues, List.length_append, Nat.add_assoc]
    · intro isDl
      rw [h'.retransmissions, h.retransmissions, List.countP_append, Nat.add_assoc]

theorem GrowsBy.congr {s s₁ s' s₁' : Statistics} {sent : Bool → List TtiPdu}
    (h : s₁.GrowsBy sent s₁') (hs : s.SameScheduled s₁) (hs' : s₁'.SameScheduled s') :
    s.GrowsBy sent s' where
  bytes isDl := by rw [hs'.bytes, h.bytes, hs.bytes]
  ues isDl := by rw [hs'.ues, h.ues, hs.ues]
  retransmissions isDl := by rw [hs'.retransmissions, h.retransmissions, hs.retransmissions]

theorem growsBy_countPdu (isDl : Bool) (s : Statistics) (pdu : TtiPdu) :
    s.GrowsBy (towards isDl [pdu]) (s.countPdu isDl pdu) := by
  by_cases htype : pdu.type = .retx
  · constructor <;> rintro (_ | _) <;> cases isDl <;>
      simp [countPdu, htype, countScheduled, countRetransmission, bytesScheduled, uesScheduled,
        retransmissions, towards, bytesOf]
  · constructor <;> rintro (_ | _) <;> cases isDl <;>
      simp [countPdu, htype, countScheduled, bytesScheduled, uesScheduled, retransmissions,
        towards, bytesOf]

end Statistics

/-! ## The counters of the cell -/

/-- The bytes of the slot grow, in 32 bits, and nothing else is counted yet. -/
structure CellContext.GrowsBy (cell : CellContext) (sent : Bool → List TtiPdu)
    (cell' : CellContext) : Prop where
  config : cell'.config = cell.config
  stats : cell'.stats = cell.stats
  remaining : ∀ isDl, cell'.currentSlot.remaining isDl = cell.currentSlot.remaining isDl
  bytes : ∀ isDl, cell'.currentSlot.bytesScheduled isDl ≡
    cell.currentSlot.bytesScheduled isDl + bytesOf (sent isDl) [MOD 2 ^ 32]
  lt : ∀ isDl, cell.currentSlot.bytesScheduled isDl < 2 ^ 32 →
    cell'.currentSlot.bytesScheduled isDl < 2 ^ 32

namespace CellContext

theorem counting_growsBy : Counting GrowsBy where
  refl cell := ⟨rfl, rfl, fun _ ↦ rfl, fun _ ↦ Nat.ModEq.refl _, fun _ h ↦ h⟩
  trans h h' := by
    refine ⟨h'.config.trans h.config, h'.stats.trans h.stats,
      fun isDl ↦ (h'.remaining isDl).trans (h.remaining isDl), fun isDl ↦ ?_,
      fun isDl hlt ↦ h'.lt isDl (h.lt isDl hlt)⟩
    rw [bytesOf_append, ← Nat.add_assoc]
    exact (h'.bytes isDl).trans ((h.bytes isDl).add_right _)

theorem growsBy_countRequest (cell : CellContext) (r : TtiRequest) :
    cell.GrowsBy (towards r.isDownlink r.pdus) (cell.countRequest r) := by
  have hpdu : ∀ (cell : CellContext) (pdu : TtiPdu),
      cell.GrowsBy (towards r.isDownlink [pdu])
        { cell with currentSlot := cell.currentSlot.countScheduled r.isDownlink pdu.tbSize } := by
    intro cell pdu
    refine ⟨rfl, rfl, fun isDl ↦ by simp, fun isDl ↦ ?_, fun isDl hlt ↦ ?_⟩
    · simp only [SlotContext.bytesScheduled_countScheduled, towards]
      split
      · simpa [bytesOf] using Nat.mod_modEq _ _
      · exact Nat.ModEq.refl _
    · simp only [SlotContext.bytesScheduled_countScheduled]
      split
      · exact Nat.mod_lt _ (Nat.two_pow_pos 32)
      · exact hlt
  have hfold : ∀ (pdus : List TtiPdu) (cell : CellContext),
      pdus.foldl (fun (cell : CellContext) pdu ↦ { cell with
        currentSlot := cell.currentSlot.countScheduled r.isDownlink pdu.tbSize }) cell =
      { cell with
        currentSlot := pdus.foldl (fun s pdu ↦ s.countScheduled r.isDownlink pdu.tbSize)
          cell.currentSlot } := by
    intro pdus
    induction pdus with
    | nil => exact fun _ ↦ rfl
    | cons pdu pdus ih => exact fun cell ↦ ih _
  rw [countRequest, ← hfold]
  exact counting_growsBy.foldl_pdus r.isDownlink hpdu cell r.pdus

theorem growsBy_setGrid (cell : CellContext) (isDl : Bool) (g : ResourceGrid) :
    cell.GrowsBy (fun _ ↦ []) (cell.setGrid isDl g) where
  config := rfl
  stats := rfl
  remaining isDl' := cell.currentSlot.remaining_setGrid isDl isDl' g
  bytes isDl' := by
    rw [bytesOf, List.map_nil, List.sum_nil, Nat.add_zero]
    exact congrArg (· % 2 ^ 32) (cell.currentSlot.bytesScheduled_setGrid isDl isDl' g)
  lt isDl' hlt := (cell.currentSlot.bytesScheduled_setGrid isDl isDl' g).trans_lt hlt

theorem growsBy_countRequests (cell : CellContext) (isDl : Bool) (g : ResourceGrid)
    (reqs : List TtiRequest) :
    cell.GrowsBy (directionPdus reqs) (reqs.foldl countRequest (cell.setGrid isDl g)) := by
  have hgrid := cell.growsBy_setGrid isDl g
  have hcount := counting_growsBy.foldl_requests growsBy_countRequest (cell.setGrid isDl g) reqs
  simpa using counting_growsBy.trans hgrid hcount

end CellContext

/-! ## The slot -/

namespace SchedulerEngine

variable {π D : Type}

theorem growsBy_recordAll (e : SchedulerEngine π D) (reqs : List TtiRequest) :
    e.stats.GrowsBy (directionPdus reqs) (e.recordAll reqs).stats := by
  have hcounting : Counting fun (e : SchedulerEngine π D) sent e' ↦
      e.stats.GrowsBy sent e'.stats := by
    constructor
    · exact fun e ↦ Statistics.counting_growsBy.refl e.stats
    · exact Statistics.counting_growsBy.trans
  apply hcounting.foldl_requests
  intro e r
  exact Statistics.counting_growsBy.foldl_pdus r.isDownlink
    (Statistics.growsBy_countPdu r.isDownlink) e.stats r.pdus

variable [Double D] [IPolicyManager π D]

theorem serve_accounts {e e' : SchedulerEngine π D} {P : Platform} {cell cell' : CellContext}
    {isDl : Bool} {numSymbols : ℕ}
    (hgrid : cell.currentSlot.grid isDl = .create cell.config.numRbs numSymbols)
    (h : (e.serve P cell isDl).run none = .ok (cell', e')) :
    ∃ reqs, e.ServeOutcome P cell isDl reqs cell' e' ∧
      e.stats.GrowsBy (directionPdus reqs) e'.stats ∧
      cell.GrowsBy (directionPdus reqs) cell' := by
  have hnum : (cell.currentSlot.grid isDl).numRbs = cell.config.numRbs := by
    rw [hgrid]
    rfl
  have hfree : DefaultResourceAllocator.FreeFrom (cell.currentSlot.grid isDl) 0 := by
    rw [hgrid]
    exact DefaultResourceAllocator.freeFrom_create _ _
  obtain ⟨ranked, reqs, g, policy, qos, failures, hranking, hreqs, hfits, rfl, rfl⟩ :=
    serve_eq hnum hfree h
  refine ⟨reqs, .of_requests g policy qos failures hranking hreqs hfits, ?_,
    cell.growsBy_countRequests isDl g reqs⟩
  refine (growsBy_recordAll _ reqs).congr ?_ ⟨rfl, rfl, rfl⟩
  exact ⟨rfl, rfl, rfl⟩

/-! ### What a slot can send -/

section Bounds

omit [IPolicyManager π D]

variable {e e' : SchedulerEngine π D} {P : Platform} {cellId : CellId} {t : FrameTiming}
  {cell : CellContext} {slot : SlotContext} {dl ul : List TtiRequest}

omit [Double D] in
theorem flatMap_openRequests (slot : SlotContext) (config : SchedulerConfig) (P : Platform)
    (cell : CellContext) (isDl : Bool) (t : FrameTiming) (ranked : List (SchedulingDecision D)) :
    (openRequests slot config P cell isDl t ranked).flatMap TtiRequest.pdus =
      if slot.canSchedule isDl then grantedPdus config P cell isDl ranked else [] := by
  rw [openRequests, requests]
  split
  · split
    · rename_i hnil
      exact hnil.symm
    · simp
  · simp

theorem SlotOutcome.directionPdus_eq (h : e.SlotOutcome P cellId t cell slot dl ul e')
    (isDl : Bool) : ∃ ranked, e.IsRanking P cell isDl ranked ∧
      directionPdus (e.emitted e') isDl =
        if slot.canSchedule isDl then grantedPdus e.config P cell isDl ranked else [] := by
  obtain ⟨ranked, hranking, hreqs⟩ := h.direction isDl
  refine ⟨ranked, hranking, ?_⟩
  rw [h.emitted_eq, directionPdus, h.filter_direction, hreqs]
  exact flatMap_openRequests slot e.config P cell isDl t ranked

theorem SlotOutcome.length_directionPdus_le (h : e.SlotOutcome P cellId t cell slot dl ul e')
    (isDl : Bool) : (directionPdus (e.emitted e') isDl).length ≤ e.config.limit isDl := by
  obtain ⟨ranked, _, hpdus⟩ := h.directionPdus_eq isDl
  rw [hpdus]
  split
  · exact length_grantedPdus_le e.config
  · exact Nat.zero_le _

omit [Double D] in
theorem tbSize_grantedPdus_lt {config : SchedulerConfig} {isDl : Bool}
    {ranked : List (SchedulingDecision D)} (hP : P.ShiftsDown) {pdu : TtiPdu}
    (hpdu : pdu ∈ grantedPdus config P cell isDl ranked) : pdu.tbSize < 2 ^ 23 := by
  obtain ⟨p, _, hpiece⟩ := List.mem_filterMap.mp hpdu
  obtain ⟨ue, _, rfl⟩ := Option.map_eq_some_iff.mp hpiece
  exact hP.tbsTableLookup_lt _ _ _ _ _

/-- The transmissions of a direction share the blocks, so their bytes fit in 32 bits. -/
theorem SlotOutcome.bytesOf_lt (h : e.SlotOutcome P cellId t cell slot dl ul e')
    (hP : P.ShiftsDown) (isDl : Bool) :
    bytesOf (directionPdus (e.emitted e') isDl) < 2 ^ 32 := by
  by_cases hnil : directionPdus (e.emitted e') isDl = []
  · rw [hnil]
    exact Nat.two_pow_pos 32
  · have hsent : dl ++ ul ≠ [] := by
      intro hempty
      rw [h.emitted_eq, hempty] at hnil
      exact hnil rfl
    obtain ⟨hrbs, _⟩ := h.fits hsent
    obtain ⟨ranked, _, hpdus⟩ := h.directionPdus_eq isDl
    have hlength : (directionPdus (e.emitted e') isDl).length ≤ 273 := by
      rw [hpdus]
      split
      · calc (grantedPdus e.config P cell isDl ranked).length
          _ ≤ (Carve.carve (demand P cell) cell.config.numRbs (e.config.limit isDl) 0
                ranked).length := List.length_filterMap_le _ _
          _ ≤ cell.config.numRbs := Carve.length_le_room
          _ ≤ 273 := hrbs
      · exact Nat.zero_le _
    have hsize : ∀ bytes ∈ (directionPdus (e.emitted e') isDl).map TtiPdu.tbSize,
        bytes ≤ 2 ^ 23 := by
      intro bytes hbytes
      obtain ⟨pdu, hpdu, rfl⟩ := List.mem_map.mp hbytes
      rw [hpdus] at hpdu
      split at hpdu
      · exact (tbSize_grantedPdus_lt hP hpdu).le
      · cases hpdu
    calc bytesOf (directionPdus (e.emitted e') isDl)
      _ ≤ ((directionPdus (e.emitted e') isDl).map TtiPdu.tbSize).length • 2 ^ 23 :=
          List.sum_le_card_nsmul _ _ hsize
      _ ≤ 273 * 2 ^ 23 := by
          rw [List.length_map]
          exact Nat.mul_le_mul_right _ hlength
      _ < 2 ^ 32 := by decide

end Bounds

/-! ### What a slot leaves behind -/

/-- What a slot leaves in the accounts of the engine and of its cell. -/
structure SlotAccounts (e : SchedulerEngine π D) (cellId : CellId) (cell : CellContext)
    (e' : SchedulerEngine π D) : Prop where
  stats : e.stats.GrowsBy (directionPdus (e.emitted e')) e'.stats
  cell : ∃ cell', e'.cells = e.cells.insert cellId cell' ∧
    (∀ isDl, cell'.stats.totalBytes isDl =
      cell.stats.totalBytes isDl + bytesOf (directionPdus (e.emitted e') isDl) % 2 ^ 32) ∧
    ∀ isDl, cell'.currentSlot.remaining isDl = cell.config.maxPerSlot isDl

theorem onSlotIndication_accounts {e e' : SchedulerEngine π D} {P : Platform} {cellId : CellId}
    {t : FrameTiming} {cell : CellContext} (hlookup : e.cells.lookup cellId = some cell)
    (h : (e.onSlotIndication P cellId t).run none = .ok e') : e.SlotAccounts cellId cell e' := by
  obtain ⟨slot, slices, qos, slices', cell₂, e₂, cell₃, e₃, hstart, _, hrunDl, hrunUl, he'⟩ :=
    onSlotIndication_served hlookup h
  obtain ⟨_, hgrid⟩ := SlotContext.initializeSlot_ok hstart
  have hcounters := SlotContext.initializeSlot_counters hstart
  obtain ⟨dl, hdl, hstatsDl, hcellDl⟩ := serve_accounts (hgrid true) hrunDl
  obtain ⟨ul, hul, hstatsUl, hcellUl⟩ := serve_accounts (hdl.grid_create (hgrid false)) hrunUl
  have hsent : e'.sent = e.sent ++ (dl ++ ul) := by
    rw [he', hul.sent, hdl.sent, List.append_assoc]
  have hemitted : directionPdus (e.emitted e') =
      fun isDl ↦ directionPdus dl isDl ++ directionPdus ul isDl := by
    funext isDl
    rw [emitted_eq hsent, directionPdus_append]
  have hstats := Statistics.counting_growsBy.trans hstatsDl hstatsUl
  have hcell := CellContext.counting_growsBy.trans hcellDl hcellUl
  constructor
  case stats =>
    rw [hemitted, he']
    exact hstats.congr ⟨rfl, rfl, rfl⟩ ⟨rfl, rfl, rfl⟩
  case cell =>
    refine ⟨cell₃.countSlot, ?_, fun isDl ↦ ?_, fun isDl ↦ ?_⟩
    · rw [he', hul.cells, hdl.cells]
    · have hzero := (hcounters isDl).1
      have hlt : cell₃.currentSlot.bytesScheduled isDl < 2 ^ 32 := by
        apply hcell.lt
        exact hzero.trans_lt (Nat.two_pow_pos 32)
      have hbytes : cell₃.currentSlot.bytesScheduled isDl =
          bytesOf (directionPdus dl isDl ++ directionPdus ul isDl) % 2 ^ 32 := by
        rw [← Nat.mod_eq_of_lt hlt, hcell.bytes isDl]
        exact congrArg (· % 2 ^ 32) (by simp [hzero])
      rw [hemitted, CellContext.totalBytes_countSlot, hbytes, hcell.stats]
    · exact (hcell.remaining isDl).trans (hcounters isDl).2

end SchedulerEngine

end NrScheduler
