import NrScheduler.Core.UnwrappedTime
import NrScheduler.Engine.RunSpec

/-!
# The transmissions of a slot

Where the transmissions of an emitted request come from, how they lie next to each other,
and which users compete for them.
-/

namespace NrScheduler

open LockMonad

def TtiPdu.resource (pdu : TtiPdu) : TimeFrequencyResource :=
  ⟨pdu.rbAllocation, pdu.symbolAllocation⟩

/-- The direction is open in the slot that begins at `t`. -/
def CellContext.isOpen (cell : CellContext) (isDl : Bool) (t : FrameTiming) : Bool :=
  match (cell.currentSlot.initializeSlot cell.config t).run none with
  | .ok slot => slot.canSchedule isDl
  | .error _ => false

namespace SchedulerEngine

variable {π D : Type}

/-- The requests sent between two states of a run. -/
def emitted (e e' : SchedulerEngine π D) : List TtiRequest := e'.sent.drop e.sent.length

theorem emitted_eq {e e' : SchedulerEngine π D} {reqs : List TtiRequest}
    (h : e'.sent = e.sent ++ reqs) : e.emitted e' = reqs := by
  rw [emitted, h, List.drop_left]

theorem emitted_eq_nil {e e' : SchedulerEngine π D} (h : e'.sent = e.sent) :
    e.emitted e' = [] :=
  emitted_eq (h.trans (List.append_nil _).symm)

/-- An eligible user gets a decision: there is a process to retransmit, or data and a free
process. -/
def hasCandidate (config : SchedulerConfig) (isDl : Bool) (ue : UeContext) : Bool :=
  (config.harqRetxPriority && (ue.harq isDl).getRetxProcess.isSome) ||
    (ue.hasData isDl && (ue.harq isDl).getFreeProcess.isSome)

/-- A user of the cell competes for the blocks of a direction in the slot at `t`. -/
def contends (e : SchedulerEngine π D) (cellId : CellId) (t : FrameTiming) (isDl : Bool)
    (rnti : Rnti) : Bool :=
  match e.cells.lookup cellId with
  | none => false
  | some cell =>
      cell.isOpen isDl t && (cell.ueRepo.ue? rnti).any fun ue ↦
        e.isEligible isDl ue && hasCandidate e.config isDl ue

theorem contends_eq_true {e : SchedulerEngine π D} {cellId : CellId} {t : FrameTiming}
    {isDl : Bool} {rnti : Rnti} {cell : CellContext} {ue : UeContext}
    (hlookup : e.cells.lookup cellId = some cell) (hue : cell.ueRepo.ue? rnti = some ue) :
    e.contends cellId t isDl rnti = true ↔
      cell.isOpen isDl t = true ∧ e.isEligible isDl ue = true ∧
        hasCandidate e.config isDl ue = true := by
  simp only [contends, hlookup, hue, Option.any_some, Bool.and_eq_true]

/-- A direction has room for transmissions, and a user of the cell competes for it. -/
def competes (e : SchedulerEngine π D) (P : Platform) (cellId : CellId) (t : FrameTiming)
    (isDl : Bool) : Bool :=
  match e.cells.lookup cellId with
  | none => false
  | some cell =>
      decide (0 < e.config.limit isDl ∧ 0 < cell.config.numRbs) &&
        (cell.ueRepo.users P).any fun ue ↦ e.contends cellId t isDl ue.rnti

theorem competes_eq_true {e : SchedulerEngine π D} {P : Platform} {cellId : CellId}
    {t : FrameTiming} {isDl : Bool} {cell : CellContext}
    (hlookup : e.cells.lookup cellId = some cell) :
    e.competes P cellId t isDl = true ↔
      (0 < e.config.limit isDl ∧ 0 < cell.config.numRbs) ∧
        ∃ ue ∈ cell.ueRepo.users P, e.contends cellId t isDl ue.rnti = true := by
  simp only [competes, hlookup, Bool.and_eq_true, decide_eq_true_eq, List.any_eq_true]

/-! ## Events with their slots -/

/-- An event with the slot it falls in, which only matters for a slot indication. -/
abbrev SlottedEvent (π : Type) := ℕ × Platform × Event π

/-- The timing of a slot indication names its slot. -/
def IsTimed (slotsPerFrame : ℕ) (i : SlottedEvent π) : Prop :=
  match i.2.2 with
  | .slotIndication _ t => t.IsAt slotsPerFrame i.1
  | _ => True

instance (slotsPerFrame : ℕ) (i : SlottedEvent π) : Decidable (IsTimed slotsPerFrame i) := by
  obtain ⟨n, P, ev⟩ := i
  refine Event.quietCases
    (motive := fun ev ↦ Decidable (IsTimed slotsPerFrame (n, P, ev))) ?_ ?_ ?_ ev
  · intro cellId t
    dsimp only [IsTimed]
    infer_instance
  · exact fun _ _ ↦ isTrue trivial
  · exact fun ev hquiet ↦ isTrue (by cases ev <;> trivial)

variable [Double D]

theorem candidate_isSome (config : SchedulerConfig) (P : Platform) (isDl : Bool)
    (ue : UeContext) :
    (candidate config P isDl ue : Option (SchedulingDecision D)).isSome =
      hasCandidate config isDl ue := by
  unfold candidate hasCandidate
  cases (ue.harq isDl).getRetxProcess with
  | none =>
      cases ue.hasData isDl with
      | false => cases config.harqRetxPriority <;> rfl
      | true => cases (ue.harq isDl).getFreeProcess <;> cases config.harqRetxPriority <;> rfl
  | some p =>
      cases config.harqRetxPriority with
      | true => rfl
      | false =>
          cases ue.hasData isDl with
          | false => rfl
          | true => cases (ue.harq isDl).getFreeProcess <;> rfl

/-! ## Granted transmissions -/

section Granted

variable {e : SchedulerEngine π D} {P : Platform} {cell : CellContext} {isDl : Bool}
  {ranked : List (SchedulingDecision D)}

/-- Every transmission is the grant of a candidate, on blocks that candidates can reach. -/
theorem mem_grantedPdus (h : e.IsRanking P cell isDl ranked) {pdu : TtiPdu}
    (hpdu : pdu ∈ grantedPdus e.config P cell isDl ranked) :
    ∃ (ue : UeContext) (d : SchedulingDecision D) (start width : ℕ),
      cell.ueRepo.ue? pdu.rnti = some ue ∧ e.isEligible isDl ue = true ∧
      candidate e.config P isDl ue = some d ∧
      pdu = pduOf (DefaultResourceAllocator.record P d ue cell ⟨start, width⟩) ue ∧
      0 < width ∧ start + width ≤ e.reach P cell isDl := by
  obtain ⟨p, hp, hpiece⟩ := List.mem_filterMap.mp hpdu
  obtain ⟨_, hle, hpos, _⟩ := Carve.mem_carve hp
  have hitem : p.item ∈ ranked := Carve.items_sublist.subset (List.mem_map_of_mem hp)
  obtain ⟨ue, hue, heligible, hcandidate⟩ := h.mem hitem
  rw [pduOfPiece, hue, Option.map_some] at hpiece
  cases hpiece
  refine ⟨ue, p.item.unranked, p.start, p.width, hue, heligible, hcandidate, rfl, hpos,
    le_min hle ?_⟩
  have hsum := Carve.end_le_sum hp
  rw [h.sum_demand, Nat.zero_add] at hsum
  exact hsum

omit [Double D] in
theorem grantedPdus_pairwise (config : SchedulerConfig) :
    (grantedPdus config P cell isDl ranked).Pairwise fun p q ↦
      p.rbAllocation.startRb + p.rbAllocation.numRbs ≤ q.rbAllocation.startRb := by
  rw [grantedPdus, List.pairwise_filterMap]
  refine Carve.carve_pairwise.imp ?_
  intro p q hpq pdu hpdu pdu' hpdu'
  obtain ⟨ue, _, rfl⟩ := Option.map_eq_some_iff.mp hpdu
  obtain ⟨ue', _, rfl⟩ := Option.map_eq_some_iff.mp hpdu'
  exact hpq

theorem grantedPdus_rnti_nodup (h : e.IsRanking P cell isDl ranked) :
    ((grantedPdus e.config P cell isDl ranked).map TtiPdu.rnti).Nodup := by
  have hsub : ∀ pieces : List (Carve.Piece (SchedulingDecision D)),
      ((pieces.filterMap (pduOfPiece P cell)).map TtiPdu.rnti).Sublist
        ((pieces.map Carve.Piece.item).map SchedulingDecision.rnti) := by
    intro pieces
    induction pieces with
    | nil => exact List.Sublist.refl _
    | cons p pieces ih =>
        cases hp : pduOfPiece P cell p with
        | none =>
            rw [List.filterMap_cons_none hp]
            exact ih.cons _
        | some pdu =>
            obtain ⟨ue, _, rfl⟩ := Option.map_eq_some_iff.mp hp
            rw [List.filterMap_cons_some hp]
            exact ih.cons_cons _
  exact ((hsub _).trans (Carve.items_sublist.map _)).nodup h.rnti_nodup

omit [Double D] in
theorem length_grantedPdus_le (config : SchedulerConfig) :
    (grantedPdus config P cell isDl ranked).length ≤ config.limit isDl :=
  (List.length_filterMap_le _ _).trans Carve.length_le

theorem grantedPdus_ne_nil (h : e.IsRanking P cell isDl ranked)
    (hlimit : 0 < e.config.limit isDl) (hrbs : 0 < cell.config.numRbs) {ue : UeContext}
    (hue : cell.ueRepo.ue? ue.rnti = some ue) (heligible : e.isEligible isDl ue = true)
    (hcandidate : hasCandidate e.config isDl ue = true) :
    grantedPdus e.config P cell isDl ranked ≠ [] := by
  rw [← candidate_isSome (D := D) e.config P isDl ue] at hcandidate
  obtain ⟨d, hd⟩ := Option.isSome_iff_exists.mp hcandidate
  have hrnti : d.rnti = ue.rnti := (candidate_eq_some hd).1
  have hmem : d ∈ e.candidates P cell isDl :=
    mem_candidates.mpr ⟨ue, hrnti ▸ hue, heligible, hd⟩
  obtain ⟨d', hd', hunranked⟩ := h.exists_of_candidate hmem
  have hue' : cell.ueRepo.ue? d'.rnti = some ue := by
    have hrnti' : d'.rnti = d.rnti := hunranked ▸ rfl
    rw [hrnti', hrnti]
    exact hue
  have hdemand : 0 < demand P cell d' := by
    simp only [demand, hue', DefaultResourceAllocator.requiredRbs]
    exact P.one_le_minRbsForTbs _ _ _ _ hrbs
  rw [Ne, grantedPdus_eq_nil h]
  exact Carve.carve_ne_nil hlimit hrbs hd' hdemand

theorem exists_grantedPdu_first (h : e.IsRanking P cell isDl ranked)
    (hne : grantedPdus e.config P cell isDl ranked ≠ []) :
    ∃ pdu ∈ grantedPdus e.config P cell isDl ranked, pdu.rbAllocation.startRb = 0 := by
  obtain ⟨p, hp, hstart⟩ := Carve.exists_start (mt (grantedPdus_eq_nil h).mpr hne)
  have hitem : p.item ∈ ranked := Carve.items_sublist.subset (List.mem_map_of_mem hp)
  obtain ⟨ue, hue, _⟩ := h.mem hitem
  have hpiece : pduOfPiece P cell p =
      some (pduOf (DefaultResourceAllocator.record P p.item ue cell ⟨p.start, p.width⟩) ue) := by
    rw [pduOfPiece, hue, Option.map_some]
  exact ⟨_, List.mem_filterMap.mpr ⟨p, hp, hpiece⟩, hstart⟩

end Granted

/-! ## The requests of a slot -/

/-- A request as a slot at `t` sends it: the grants of a ranking of an open direction. -/
structure Sends (e : SchedulerEngine π D) (P : Platform) (cell : CellContext)
    (t : FrameTiming) (r : TtiRequest) : Prop where
  isOpen : cell.isOpen r.isDownlink t = true
  timing : r.timing = target e.config r.isDownlink t
  cellId : r.cellId = cell.config.cellId
  pdus : ∃ ranked, e.IsRanking P cell r.isDownlink ranked ∧
    r.pdus = grantedPdus e.config P cell r.isDownlink ranked
  pdus_ne : r.pdus ≠ []

theorem sends_of_mem_openRequests {e : SchedulerEngine π D} {P : Platform}
    {cell : CellContext} {isDl : Bool} {t : FrameTiming} {slot : SlotContext}
    {ranked : List (SchedulingDecision D)} {r : TtiRequest}
    (hstart : (cell.currentSlot.initializeSlot cell.config t).run none = .ok slot)
    (hranking : e.IsRanking P cell isDl ranked)
    (hr : r ∈ openRequests slot e.config P cell isDl t ranked) :
    r.isDownlink = isDl ∧ e.Sends P cell t r := by
  rw [openRequests] at hr
  split at hr
  · rename_i hopen
    rw [requests] at hr
    split at hr
    · cases hr
    · rename_i hne
      obtain rfl := List.mem_singleton.mp hr
      refine ⟨rfl, ?_, rfl, rfl, ⟨ranked, hranking, rfl⟩, hne⟩
      simp only [CellContext.isOpen, hstart]
      exact hopen
  · cases hr

omit [Double D] in
theorem length_openRequests_le (slot : SlotContext) (config : SchedulerConfig) (P : Platform)
    (cell : CellContext) (isDl : Bool) (t : FrameTiming)
    (ranked : List (SchedulingDecision D)) :
    (openRequests slot config P cell isDl t ranked).length ≤ 1 := by
  rw [openRequests, requests]
  split
  · split
    · exact Nat.zero_le 1
    · exact le_rfl
  · exact Nat.zero_le 1

section Outcome

variable {e e' : SchedulerEngine π D} {P : Platform} {cellId : CellId} {t : FrameTiming}
  {cell : CellContext} {slot : SlotContext} {dl ul : List TtiRequest}

theorem SlotOutcome.emitted_eq (h : e.SlotOutcome P cellId t cell slot dl ul e') :
    e.emitted e' = dl ++ ul :=
  SchedulerEngine.emitted_eq h.sent

theorem SlotOutcome.sends (h : e.SlotOutcome P cellId t cell slot dl ul e') {r : TtiRequest}
    (hr : r ∈ dl ++ ul) : e.Sends P cell t r := by
  obtain ⟨rankedDl, hrankingDl, hdl⟩ := h.dl_eq
  obtain ⟨rankedUl, hrankingUl, hul⟩ := h.ul_eq
  rcases List.mem_append.mp hr with hr | hr
  · exact (sends_of_mem_openRequests h.start hrankingDl (hdl ▸ hr)).2
  · exact (sends_of_mem_openRequests h.start hrankingUl (hul ▸ hr)).2

/-- No user gets two transmissions in one request. -/
theorem SlotOutcome.nodup_rntis (h : e.SlotOutcome P cellId t cell slot dl ul e')
    {r : TtiRequest} (hr : r ∈ dl ++ ul) : (r.pdus.map TtiPdu.rnti).Nodup := by
  obtain ⟨ranked, hranking, hpdus⟩ := (h.sends hr).pdus
  rw [hpdus]
  exact grantedPdus_rnti_nodup hranking

theorem SlotOutcome.filter_direction (h : e.SlotOutcome P cellId t cell slot dl ul e')
    (isDl : Bool) :
    (dl ++ ul).filter (fun r ↦ r.isDownlink == isDl) = if isDl then dl else ul := by
  obtain ⟨rankedDl, hrankingDl, hdl⟩ := h.dl_eq
  obtain ⟨rankedUl, hrankingUl, hul⟩ := h.ul_eq
  have hdir : ∀ r ∈ dl, r.isDownlink = true := fun r hr ↦
    (sends_of_mem_openRequests h.start hrankingDl (hdl ▸ hr)).1
  have hdir' : ∀ r ∈ ul, r.isDownlink = false := fun r hr ↦
    (sends_of_mem_openRequests h.start hrankingUl (hul ▸ hr)).1
  have hkeep : ∀ (l : List TtiRequest) (b : Bool), (∀ r ∈ l, r.isDownlink = b) →
      l.filter (fun r ↦ r.isDownlink == isDl) = if b = isDl then l else [] := by
    intro l b hl
    by_cases hb : b = isDl
    · rw [if_pos hb]
      exact List.filter_eq_self.mpr fun r hr ↦ by rw [hl r hr, hb, beq_self_eq_true]
    · rw [if_neg hb]
      exact List.filter_eq_nil_iff.mpr fun r hr hbeq ↦ hb (by rw [← hl r hr, beq_iff_eq.mp hbeq])
  rw [List.filter_append, hkeep dl true hdir, hkeep ul false hdir']
  cases isDl with
  | true => rw [if_pos rfl, if_neg Bool.false_ne_true, if_pos rfl, List.append_nil]
  | false => rw [if_neg Bool.false_ne_true.symm, if_pos rfl, if_neg Bool.false_ne_true,
      List.nil_append]

theorem SlotOutcome.direction (h : e.SlotOutcome P cellId t cell slot dl ul e') (isDl : Bool) :
    ∃ ranked, e.IsRanking P cell isDl ranked ∧
      (if isDl then dl else ul) = openRequests slot e.config P cell isDl t ranked := by
  cases isDl with
  | true => exact h.dl_eq
  | false => exact h.ul_eq

theorem SlotOutcome.contends (h : e.SlotOutcome P cellId t cell slot dl ul e') {r : TtiRequest}
    (hr : r ∈ dl ++ ul) {pdu : TtiPdu} (hpdu : pdu ∈ r.pdus) :
    ∃ (ue : UeContext) (d : SchedulingDecision D) (start width : ℕ),
      e.contends cellId t r.isDownlink pdu.rnti = true ∧ e.ueAt cellId pdu.rnti = some ue ∧
      candidate e.config P r.isDownlink ue = some d ∧
      pdu = pduOf (DefaultResourceAllocator.record P d ue cell ⟨start, width⟩) ue ∧
      0 < width ∧ start + width ≤ e.reach P cell r.isDownlink := by
  have hsends := h.sends hr
  obtain ⟨ranked, hranking, hpdus⟩ := hsends.pdus
  obtain ⟨ue, d, start, width, hue, heligible, hcandidate, hpdu, hpos, hle⟩ :=
    mem_grantedPdus hranking (hpdus ▸ hpdu)
  have hsome : hasCandidate e.config r.isDownlink ue = true := by
    rw [← candidate_isSome (D := D) e.config P, hcandidate]
    rfl
  refine ⟨ue, d, start, width, ?_, ueAt_eq_some.mpr ⟨cell, h.lookup, hue⟩, hcandidate, hpdu,
    hpos, hle⟩
  exact (contends_eq_true h.lookup hue).mpr ⟨hsends.isOpen, heligible, hsome⟩

theorem SlotOutcome.exists_request (h : e.SlotOutcome P cellId t cell slot dl ul e')
    {isDl : Bool} {rnti : Rnti} (hcontends : e.contends cellId t isDl rnti = true)
    (hlimit : 0 < e.config.limit isDl) (hrbs : 0 < cell.config.numRbs) :
    ∃ r ∈ dl ++ ul, r.isDownlink = isDl := by
  obtain ⟨ranked, hranking, hreqs⟩ := h.direction isDl
  cases hue : cell.ueRepo.ue? rnti with
  | none =>
      simp only [SchedulerEngine.contends, h.lookup, hue, Option.any_none, Bool.and_false,
        Bool.false_eq_true] at hcontends
  | some ue =>
      obtain ⟨hopen, heligible, hcandidate⟩ := (contends_eq_true h.lookup hue).mp hcontends
      have hue' : cell.ueRepo.ue? ue.rnti = some ue := by
        rw [UeRepository.ue?_rnti hue]
        exact hue
      have hpdus := grantedPdus_ne_nil hranking hlimit hrbs hue' heligible hcandidate
      have hslot : slot.canSchedule isDl = true := by
        rw [CellContext.isOpen, h.start] at hopen
        exact hopen
      rw [openRequests, if_pos hslot, requests, if_neg hpdus] at hreqs
      let r : TtiRequest := ⟨isDl, target e.config isDl t, cell.config.cellId,
        grantedPdus e.config P cell isDl ranked⟩
      refine ⟨r, ?_, rfl⟩
      have hmem : r ∈ if isDl then dl else ul := by
        rw [hreqs]
        exact List.mem_singleton_self r
      cases isDl with
      | true => exact List.mem_append_left _ hmem
      | false => exact List.mem_append_right _ hmem

theorem SlotOutcome.competes (h : e.SlotOutcome P cellId t cell slot dl ul e') {r : TtiRequest}
    (hr : r ∈ dl ++ ul) : e.competes P cellId t r.isDownlink = true := by
  have hsends := h.sends hr
  obtain ⟨ranked, _, hpdus⟩ := hsends.pdus
  obtain ⟨pdu, hpdu⟩ := List.exists_mem_of_ne_nil _ hsends.pdus_ne
  obtain ⟨ue, d, start, width, hcontends, hue, _, _, hpos, hle⟩ := h.contends hr hpdu
  have hlimit : 0 < e.config.limit r.isDownlink := by
    have hlength := List.length_pos_of_mem hpdu
    rw [hpdus] at hlength
    exact hlength.trans_le (length_grantedPdus_le e.config)
  have hrbs : 0 < cell.config.numRbs := by
    have hreach : e.reach P cell r.isDownlink ≤ cell.config.numRbs := min_le_left _ _
    omega
  obtain ⟨cell', hlookup, hmem⟩ := ueAt_eq_some.mp hue
  obtain rfl : cell = cell' := Option.some.inj (h.lookup.symm.trans hlookup)
  have hrnti := ueAt_rnti hue
  refine (competes_eq_true h.lookup).mpr ⟨⟨hlimit, hrbs⟩, ue, ?_, hrnti.symm ▸ hcontends⟩
  rw [UeRepository.mem_users, hrnti]
  exact hmem

theorem SlotOutcome.exists_request_of_competes
    (h : e.SlotOutcome P cellId t cell slot dl ul e') {isDl : Bool}
    (hcompetes : e.competes P cellId t isDl = true) : ∃ r ∈ dl ++ ul, r.isDownlink = isDl := by
  obtain ⟨⟨hlimit, hrbs⟩, ue, _, hcontends⟩ := (competes_eq_true h.lookup).mp hcompetes
  exact h.exists_request hcontends hlimit hrbs

theorem SlotOutcome.request_cellId (h : e.SlotOutcome P cellId t cell slot dl ul e')
    (hinv : e.Consistent) {r : TtiRequest} (hr : r ∈ dl ++ ul) : r.cellId = cellId := by
  rw [(h.sends hr).cellId]
  exact hinv.cellId cellId cell.config (by rw [configAt, h.lookup, Option.map_some])

end Outcome

/-! ## Entries of the tracker -/

theorem mem_pendingsOf {index : ℕ} {reqs : List TtiRequest} {pf : PendingFeedback}
    (h : pf ∈ pendingsOf index reqs) :
    ∃ r ∈ reqs, ∃ pdu ∈ r.pdus, ∃ k, index ≤ k ∧
      pf = pendingOf r.cellId r.isDownlink r.timing k pdu := by
  induction reqs generalizing index with
  | nil => cases h
  | cons r reqs ih =>
      rcases List.mem_append.mp h with h | h
      · obtain ⟨pdu, hpdu, rfl⟩ := List.mem_map.mp h
        exact ⟨r, List.mem_cons_self, pdu, hpdu, index, le_rfl, rfl⟩
      · obtain ⟨r', hr', pdu, hpdu, k, hk, rfl⟩ := ih h
        exact ⟨r', List.mem_cons_of_mem r hr', pdu, hpdu, k, Nat.le_of_succ_le hk, rfl⟩

theorem request_lt_of_mem_pendingsOf {index : ℕ} {reqs : List TtiRequest}
    {pending : PendingFeedback} (h : pending ∈ pendingsOf index reqs) :
    pending.request < index + reqs.length := by
  induction reqs generalizing index with
  | nil => cases h
  | cons r reqs ih =>
      rw [List.length_cons]
      rcases List.mem_append.mp h with h | h
      · obtain ⟨pdu, _, rfl⟩ := List.mem_map.mp h
        exact Nat.lt_add_of_pos_right (Nat.succ_pos _)
      · have hlt := ih h
        omega

omit [Double D] in
theorem entriesAt_registerRequest (t : HarqTimingTracker) (r : TtiRequest) (index slot : ℕ) :
    (t.registerRequest r index).entriesAt slot =
      if r.pdus ≠ [] ∧ slot + 100 < r.expectedSlot then []
      else if slot = r.expectedSlot then t.entriesAt slot ++ r.pendings index
      else t.entriesAt slot := by
  have hfold : ∀ (expected : ℕ) (l : List PendingFeedback) (t : HarqTimingTracker),
      (l.foldl (fun t pending ↦ t.register expected pending) t).entriesAt slot =
        if l ≠ [] ∧ slot + 100 < expected then []
        else if slot = expected then t.entriesAt slot ++ l else t.entriesAt slot := by
    intro expected l
    induction l with
    | nil =>
        intro t
        simp
    | cons pending l ih =>
        intro t
        rw [List.foldl_cons, ih, HarqTimingTracker.entriesAt_register]
        by_cases hold : slot + 100 < expected
        · have hne : slot ≠ expected := by omega
          simp [hold, hne]
        · by_cases hslot : slot = expected
          · simp [hslot]
          · simp [hold, hslot]
  have hpendings : r.pendings index ≠ [] ↔ r.pdus ≠ [] := by
    rw [TtiRequest.pendings, Ne, List.map_eq_nil_iff]
  rw [HarqTimingTracker.registerRequest, hfold]
  simp only [hpendings]

omit [Double D] in
theorem mem_entriesAt_registerRequests {t : HarqTimingTracker} {index slot : ℕ}
    {reqs : List TtiRequest} {pf : PendingFeedback}
    (h : pf ∈ (t.registerRequests index reqs).entriesAt slot) :
    pf ∈ t.entriesAt slot ∨ ∃ r ∈ reqs, slot = r.expectedSlot ∧ ∃ pdu ∈ r.pdus, ∃ k, index ≤ k ∧
      pf = pendingOf r.cellId r.isDownlink r.timing k pdu := by
  induction reqs generalizing t index with
  | nil => exact Or.inl h
  | cons r reqs ih =>
      rcases ih h with h | ⟨r', hr', hslot, pdu, hpdu, k, hk, rfl⟩
      · rw [entriesAt_registerRequest] at h
        split at h
        · cases h
        · split at h
          · rename_i hslot
            rcases List.mem_append.mp h with hold | hnew
            · exact Or.inl hold
            · obtain ⟨pdu, hpdu, rfl⟩ := List.mem_map.mp hnew
              exact Or.inr ⟨r, List.mem_cons_self, hslot, pdu, hpdu, index, le_rfl, rfl⟩
          · exact Or.inl h
      · exact Or.inr
          ⟨r', List.mem_cons_of_mem r hr', hslot, pdu, hpdu, k, Nat.le_of_succ_le hk, rfl⟩

/-! ### Entries are told apart -/

/-- No entry is filed twice, and all belong to the first `count` requests. -/
structure Distinct (t : HarqTimingTracker) (count : ℕ) : Prop where
  nodup : ∀ slot, (t.entriesAt slot).Nodup
  request_lt : ∀ slot, ∀ pending ∈ t.entriesAt slot, pending.request < count
  slot_unique : ∀ slot slot' pending, pending ∈ t.entriesAt slot →
    pending ∈ t.entriesAt slot' → slot = slot'

omit [Double D] in
theorem Distinct.registerRequest {t : HarqTimingTracker} {count : ℕ} (h : Distinct t count)
    {r : TtiRequest} (hr : (r.pdus.map TtiPdu.rnti).Nodup) :
    Distinct (t.registerRequest r count) (count + 1) := by
  have hnew : ∀ pending ∈ r.pendings count, pending.request = count := by
    intro pending hpending
    obtain ⟨pdu, _, rfl⟩ := List.mem_map.mp hpending
    rfl
  have hfresh : ∀ slot, ∀ pending ∈ t.entriesAt slot, pending ∉ r.pendings count := by
    intro slot pending hold hpending
    have hlt := h.request_lt slot pending hold
    rw [hnew pending hpending] at hlt
    exact lt_irrefl _ hlt
  -- an entry of the new tracker is old, or it is one of the request
  have horigin : ∀ slot pending, pending ∈ (t.registerRequest r count).entriesAt slot →
      pending ∈ t.entriesAt slot ∨ (slot = r.expectedSlot ∧ pending ∈ r.pendings count) := by
    intro slot pending hpending
    rw [entriesAt_registerRequest] at hpending
    split at hpending
    · cases hpending
    · split at hpending
      · rename_i hslot
        exact (List.mem_append.mp hpending).imp_right fun hmem ↦ ⟨hslot, hmem⟩
      · exact Or.inl hpending
  constructor
  case nodup =>
    intro slot
    have hpendings : (r.pendings count).Nodup := by
      refine List.Nodup.of_map PendingFeedback.rnti ?_
      rw [TtiRequest.pendings, List.map_map]
      exact hr
    rw [entriesAt_registerRequest]
    split
    · exact List.nodup_nil
    · split
      · exact (h.nodup slot).append hpendings fun pending ↦ hfresh slot pending
      · exact h.nodup slot
  case request_lt =>
    intro slot pending hpending
    rcases horigin slot pending hpending with hold | ⟨_, hmem⟩
    · exact (h.request_lt slot pending hold).trans (Nat.lt_succ_self count)
    · rw [hnew pending hmem]
      exact Nat.lt_succ_self count
  case slot_unique =>
    intro slot slot' pending hpending hpending'
    rcases horigin slot pending hpending with hold | ⟨hslot, hmem⟩
    · rcases horigin slot' pending hpending' with hold' | ⟨_, hmem'⟩
      · exact h.slot_unique slot slot' pending hold hold'
      · exact absurd hmem' (hfresh slot pending hold)
    · rcases horigin slot' pending hpending' with hold' | ⟨hslot', _⟩
      · exact absurd hmem (hfresh slot' pending hold')
      · rw [hslot, hslot']

omit [Double D] in
theorem Distinct.registerRequests {t : HarqTimingTracker} {count : ℕ} (h : Distinct t count)
    {reqs : List TtiRequest} (hreqs : ∀ r ∈ reqs, (r.pdus.map TtiPdu.rnti).Nodup) :
    Distinct (t.registerRequests count reqs) (count + reqs.length) := by
  induction reqs generalizing t count with
  | nil => exact h
  | cons r reqs ih =>
      rw [List.length_cons, Nat.add_comm reqs.length, ← Nat.add_assoc]
      obtain ⟨hr, hrest⟩ := List.forall_mem_cons.mp hreqs
      exact ih (h.registerRequest hr) hrest

omit [Double D] in
theorem Distinct.remove {t : HarqTimingTracker} {count : ℕ} (h : Distinct t count) (slot : ℕ)
    (accept : PendingFeedback → Bool) : Distinct (t.remove slot accept) count := by
  have hsub : ∀ slot', ((t.remove slot accept).entriesAt slot').Sublist (t.entriesAt slot') := by
    intro slot'
    rw [HarqTimingTracker.entriesAt_remove]
    split
    · rename_i hslot
      rw [hslot]
      exact List.eraseP_sublist
    · exact List.Sublist.refl _
  constructor
  case nodup => exact fun slot' ↦ (hsub slot').nodup (h.nodup slot')
  case request_lt =>
    exact fun slot' pending hpending ↦ h.request_lt slot' pending ((hsub slot').subset hpending)
  case slot_unique =>
    intro s s' pending hs hs'
    exact h.slot_unique s s' pending ((hsub s).subset hs) ((hsub s').subset hs')

variable [IPolicyManager π D]

/-- A slot of a known cell adds to the tracker and to the requests sent.  Feedback may take
an entry out of the tracker, and nothing else touches either. -/
theorem tracker_cases {e e' : SchedulerEngine π D} {i : Platform × Event π}
    (h : e.next i = some e') :
    (e'.sent = e.sent ∧ (e'.harqTracker = e.harqTracker ∨
      ∃ slot accept, e'.harqTracker = e.harqTracker.remove slot accept)) ∨
    ∃ cellId t cell slot dl ul, i.2 = .slotIndication cellId t ∧
      e.SlotOutcome i.1 cellId t cell slot dl ul e' := by
  have hrun := next_eq_some.mp h
  cases hev : i.2 with
  | slotIndication cellId t =>
      rw [hev] at hrun
      rcases onSlotIndication_ok hrun with ⟨_, rfl⟩ | ⟨cell, slot, dl, ul, houtcome⟩
      · exact Or.inl ⟨rfl, Or.inl rfl⟩
      · exact Or.inr ⟨cellId, t, cell, slot, dl, ul, rfl, houtcome⟩
  | harqFeedback cellId fb =>
      rw [hev] at hrun
      have houtcome := onHarqFeedback_ok hrun
      rw [FeedbackOutcome] at houtcome
      split at houtcome
      · exact Or.inl ⟨houtcome.2.2.sent, Or.inl houtcome.2.2.tracker⟩
      · exact Or.inl ⟨houtcome.2.2.1, Or.inr ⟨_, _, houtcome.2.1⟩⟩
  | _ =>
      obtain ⟨htracker, hsent⟩ := handle_quiet hrun (by rw [hev]; rfl)
      exact Or.inl ⟨hsent, Or.inl htracker⟩

/-- Requests are only sent by slot indications for known cells. -/
theorem sent_cases {e e' : SchedulerEngine π D} {i : Platform × Event π}
    (h : e.next i = some e') :
    e'.sent = e.sent ∨ ∃ cellId t cell slot dl ul, i.2 = .slotIndication cellId t ∧
      e.SlotOutcome i.1 cellId t cell slot dl ul e' :=
  (tracker_cases h).imp_left And.left

theorem length_sent_le {e e' : SchedulerEngine π D} {i : Platform × Event π}
    (h : e.next i = some e') : e.sent.length ≤ e'.sent.length := by
  rcases sent_cases h with hsent | ⟨_, _, _, _, _, _, _, houtcome⟩
  · exact hsent ▸ le_rfl
  · rw [houtcome.sent, List.length_append]
    exact Nat.le_add_right _ _

theorem mem_emitted {e e' : SchedulerEngine π D} {i : Platform × Event π}
    (h : e.next i = some e') {r : TtiRequest} (hr : r ∈ e.emitted e') :
    ∃ cellId t cell slot dl ul, i.2 = .slotIndication cellId t ∧
      e.SlotOutcome i.1 cellId t cell slot dl ul e' ∧ r ∈ dl ++ ul := by
  rcases sent_cases h with hsent | ⟨cellId, t, cell, slot, dl, ul, hev, houtcome⟩
  · rw [emitted_eq_nil hsent] at hr
    cases hr
  · exact ⟨cellId, t, cell, slot, dl, ul, hev, houtcome, houtcome.emitted_eq ▸ hr⟩

/-- Entries enter the tracker with the transmissions of a slot only. -/
theorem mem_entriesAt_next {e e' : SchedulerEngine π D} {i : Platform × Event π}
    (h : e.next i = some e') {s : ℕ} {pf : PendingFeedback}
    (hpf : pf ∈ e'.harqTracker.entriesAt s) :
    pf ∈ e.harqTracker.entriesAt s ∨
      ∃ cellId t cell slot dl ul, i.2 = .slotIndication cellId t ∧
        e.SlotOutcome i.1 cellId t cell slot dl ul e' ∧
        ∃ r ∈ dl ++ ul, s = r.expectedSlot ∧ ∃ pdu ∈ r.pdus, ∃ k, e.sent.length ≤ k ∧
          pf = pendingOf r.cellId r.isDownlink r.timing k pdu := by
  rcases tracker_cases h with ⟨_, htracker | ⟨slot, accept, htracker⟩⟩ |
    ⟨cellId, t, cell, slot, dl, ul, hev, houtcome⟩
  · rw [htracker] at hpf
    exact Or.inl hpf
  · rw [htracker] at hpf
    exact Or.inl (HarqTimingTracker.mem_entriesAt_of_remove hpf)
  · rw [houtcome.tracker] at hpf
    rcases mem_entriesAt_registerRequests hpf with hold | hnew
    · exact Or.inl hold
    · exact Or.inr ⟨cellId, t, cell, slot, dl, ul, hev, houtcome, hnew⟩

theorem distinct_create (config : SchedulerConfig) :
    Distinct (create config : SchedulerEngine π D).harqTracker
      (create config : SchedulerEngine π D).sent.length where
  nodup _ := List.nodup_nil
  request_lt _ _ hpending := by cases hpending
  slot_unique _ _ _ hpending := by cases hpending

theorem Distinct.step {e e' : SchedulerEngine π D} {i : Platform × Event π}
    (hdistinct : Distinct e.harqTracker e.sent.length) (h : e.next i = some e') :
    Distinct e'.harqTracker e'.sent.length := by
  rcases tracker_cases h with ⟨hsent, htracker | ⟨slot, accept, htracker⟩⟩ |
    ⟨cellId, t, cell, slot, dl, ul, _, houtcome⟩
  · rw [hsent, htracker]
    exact hdistinct
  · rw [hsent, htracker]
    exact hdistinct.remove slot accept
  · rw [houtcome.tracker, houtcome.sent, List.length_append]
    exact hdistinct.registerRequests fun r hr ↦ houtcome.nodup_rntis hr

/-! ## Users whose processes are idle -/

omit [IPolicyManager π D] in
/-- The decision for such a user is a new transmission on process zero. -/
theorem candidate_of_idle {config : SchedulerConfig} {P : Platform} {isDl : Bool}
    {ue : UeContext} {d : SchedulingDecision D} (hidle : ue.harq isDl = .create 16)
    (h : candidate config P isDl ue = some d) : d.type = .newTx ∧ d.harqId = 0 := by
  have hretx : (HarqEntity.create 16).getRetxProcess = none := rfl
  have hfree : (HarqEntity.create 16).getFreeProcess = some { id := 0 } := rfl
  rw [candidate, hidle, hretx, hfree] at h
  simp only at h
  split at h
  · cases h
  · cases h
    exact ⟨rfl, rfl⟩

end SchedulerEngine

end NrScheduler
