import NrScheduler.Core.HarqSpec
import NrScheduler.Engine.RunSpec
import NrScheduler.Engine.ServingSpec
import NrScheduler.Engine.Transmissions

/-!
# What a retransmission carries

A retransmission should repeat the block of its process.  The decision takes over the size
of the block as the bytes to send and nothing else: the new data indicator and the redundancy
version are what its memory held before, and the size is that of the blocks it gets.
-/

namespace NrScheduler

open LockMonad DefaultResourceAllocator

/-- The transmission repeats the original one of a process. -/
structure TtiPdu.Repeats (pdu : TtiPdu) (p : HarqProcess) : Prop where
  tbSize : pdu.tbSize = p.tbConfig.tbSizeBytes
  ndi : pdu.ndi = p.ndi
  rv : pdu.rv = p.nextRv

/-- The transmission repeats the original one of the process its user has to send again. -/
def CellContext.RepeatsOriginal (cell : CellContext) (isDl : Bool) (pdu : TtiPdu) : Prop :=
  ∃ ue p, cell.ueRepo.ue? pdu.rnti = some ue ∧ (ue.harq isDl).getRetxProcess = some p ∧
    pdu.harqId = p.id ∧ pdu.Repeats p

/-- The memory of a decision happens to hold the indicator and the version, and what the
channel needs and the grid has of blocks carries exactly the size. -/
structure HappensToRepeat (P : Platform) (cell : CellContext) (isDl : Bool) (g : ResourceGrid)
    (ue : UeContext) (p : HarqProcess) : Prop where
  tbSize : P.tbsTableLookup ue.mcsFromCqi
    (min (requiredRbs P p.tbConfig.tbSizeBytes ue cell) (widest g)) (layers ue cell) numSymbols =
      p.tbConfig.tbSizeBytes
  ndi : (P.uninitTbConfig isDl ue.rnti).ndi = p.ndi
  rv : (P.uninitTbConfig isDl ue.rnti).rvIndex = p.nextRv

namespace SchedulerEngine

variable {π D : Type} {P : Platform} {cell : CellContext} {isDl : Bool}

section Decision

variable [Double D]

/-- A decision for a retransmission holds the process and the size of its block. -/
structure IsRetxOf (P : Platform) (isDl : Bool) (ue : UeContext) (p : HarqProcess)
    (d : SchedulingDecision D) : Prop where
  process : (ue.harq isDl).getRetxProcess = some p
  harqId : d.harqId = p.id
  bufferBytes : d.bufferBytes = p.tbConfig.tbSizeBytes
  tbConfig : d.tbConfig = P.uninitTbConfig isDl ue.rnti

theorem isRetxOf_of_candidate {config : SchedulerConfig} {ue : UeContext}
    {d : SchedulingDecision D} (h : candidate config P isDl ue = some d)
    (htype : d.type = .retx) : ∃ p, IsRetxOf P isDl ue p d := by
  by_cases hretx : config.harqRetxPriority = true ∧ (ue.harq isDl).getRetxProcess.isSome = true
  · obtain ⟨p, hp⟩ := Option.isSome_iff_exists.mp hretx.2
    rw [candidate_retx hretx.1 hp] at h
    cases h
    exact ⟨p, hp, rfl, rfl, rfl⟩
  · rw [candidate_newTx P hretx] at h
    split at h
    · obtain ⟨p, _, rfl⟩ := Option.map_eq_some_iff.mp h
      cases htype
    · cases h

theorem IsRanking.isRetxOf {e : SchedulerEngine π D} {ranked : List (SchedulingDecision D)}
    (h : e.IsRanking P cell isDl ranked) {d : SchedulingDecision D} (hd : d ∈ ranked)
    (htype : d.type = .retx) :
    ∃ ue p, cell.ueRepo.ue? d.rnti = some ue ∧ IsRetxOf P isDl ue p d := by
  obtain ⟨ue, hue, _, hcandidate⟩ := h.mem hd
  obtain ⟨p, hp, hid, hbytes, hconfig⟩ := isRetxOf_of_candidate hcandidate htype
  exact ⟨ue, p, hue, hp, hid, hbytes, hconfig⟩

omit [Double D] in
/-- A served retransmission repeats its process where it happens to. -/
theorem repeatsOriginal_iff {s : Serving D} {ue : UeContext} {p : HarqProcess}
    (hue : cell.ueRepo.ue? s.decision.rnti = some ue) (hretx : IsRetxOf P isDl ue p s.decision) :
    cell.RepeatsOriginal isDl (pduOf (s.granted P cell) ue) ↔
      HappensToRepeat P cell isDl s.grid ue p := by
  have hwidth : s.width P cell =
      min (requiredRbs P p.tbConfig.tbSizeBytes ue cell) (widest s.grid) := by
    simp only [Serving.width, demand, hue, hretx.bufferBytes]
  have hpdu : pduOf (s.granted P cell) ue = pduOf (DefaultResourceAllocator.record P s.decision
      ue cell ⟨s.start P cell,
        min (requiredRbs P p.tbConfig.tbSizeBytes ue cell) (widest s.grid)⟩) ue := by
    rw [s.granted_eq P cell hue, hwidth]
  rw [hpdu]
  constructor
  · rintro ⟨ue', p', hue', hp', _, hrepeats⟩
    obtain rfl := Option.some.inj (hue.symm.trans hue')
    obtain rfl := Option.some.inj (hretx.process.symm.trans hp')
    exact ⟨hrepeats.tbSize, hretx.tbConfig ▸ hrepeats.ndi, hretx.tbConfig ▸ hrepeats.rv⟩
  · intro h
    refine ⟨ue, p, hue, hretx.process, hretx.harqId, h.tbSize, ?_, ?_⟩
    · exact (congrArg TransportBlockConfig.ndi hretx.tbConfig).trans h.ndi
    · exact (congrArg TransportBlockConfig.rvIndex hretx.tbConfig).trans h.rv

end Decision

theorem mem_pdusOf_servings {D : Type} {ss : List (Serving D)} {pdu : TtiPdu} :
    pdu ∈ pdusOf cell (ss.map (Serving.granted P cell)) ↔
      ∃ s ∈ ss, ∃ ue, cell.ueRepo.ue? s.decision.rnti = some ue ∧
        pdu = pduOf (s.granted P cell) ue := by
  simp only [pdusOf, List.mem_filterMap, List.mem_map, exists_exists_and_eq_and,
    Option.map_eq_some_iff, Serving.rnti_granted]
  apply exists_congr
  intro s
  apply and_congr_right
  intro _
  exact exists_congr fun ue ↦ and_congr_right fun _ ↦ eq_comm

variable [Double D] [IPolicyManager π D]

/-- The retransmissions that a pass of the scheduler sends repeat their processes exactly if,
at each of them, memory, channel and grid happen to agree with the process. -/
theorem retransmissionsRepeat_iff {e e₁ e' e'' : SchedulerEngine π D} {cell' cell'' : CellContext}
    {ranked granted : List (SchedulingDecision D)} (hn : cell.config.numRbs ≤ 273)
    (hgrids : cell.GridsMatch)
    (hranked : (calculatePriorities P cell isDl (e.candidates P cell isDl) e).run none =
      .ok (ranked, e₁))
    (hschedule : (e.scheduleFor P cell isDl).run none = .ok (granted, cell', e'))
    (hbuild : (e'.buildFor cell' isDl granted).run none = .ok (cell'', e'')) :
    (∀ r ∈ e'.emitted e'', ∀ pdu ∈ r.pdus, pdu.type = .retx → cell.RepeatsOriginal isDl pdu) ↔
      ∀ s ∈ e.directionServings P cell isDl ranked, s.decision.type = .retx →
        ∀ ue p, cell.ueRepo.ue? s.decision.rnti = some ue →
          (ue.harq isDl).getRetxProcess = some p → HappensToRepeat P cell isDl s.grid ue p := by
  have hranking := isRanking_of_calculatePriorities hranked
  obtain ⟨e₂, hrun, _, _⟩ := scheduleFor_run hn hgrids hranked
  obtain ⟨hgranted, hrest⟩ := Prod.mk.inj (Except.ok.inj (hschedule.symm.trans hrun))
  obtain ⟨rfl, rfl⟩ := Prod.mk.inj hrest
  obtain ⟨_, _, rfl⟩ := buildFor_ok hbuild
  have hpdus : ∀ g, pdusOf (cell.setGrid isDl g) granted =
      pdusOf cell ((e.directionServings P cell isDl ranked).map (Serving.granted P cell)) := by
    intro g
    rw [hgranted]
    rfl
  rw [emitted_eq rfl]
  simp only [List.mem_singleton, forall_eq, hpdus]
  have hmem : ∀ s ∈ e.directionServings P cell isDl ranked,
      s.decision ∈ sortByPriority P ranked := fun s hs ↦
    servings_prefix.subset (List.mem_map_of_mem hs)
  have htypes : ∀ (s : Serving D) (ue : UeContext), cell.ueRepo.ue? s.decision.rnti = some ue →
      (pduOf (s.granted P cell) ue).type = s.decision.type := by
    intro s ue hue
    rw [s.granted_eq P cell hue]
    rfl
  constructor
  · intro hall s hs htype ue p hue hp
    obtain ⟨ue', p', hue', hretx⟩ := hranking.isRetxOf (hmem s hs) htype
    obtain rfl := Option.some.inj (hue.symm.trans hue')
    obtain rfl := Option.some.inj (hp.symm.trans hretx.process)
    apply (repeatsOriginal_iff hue hretx).mp
    apply hall _ (mem_pdusOf_servings.mpr ⟨s, hs, ue, hue, rfl⟩)
    rw [htypes s ue hue, htype]
  · intro hall pdu hpdu htype
    obtain ⟨s, hs, ue, hue, rfl⟩ := mem_pdusOf_servings.mp hpdu
    rw [htypes s ue hue] at htype
    obtain ⟨ue', p, hue', hretx⟩ := hranking.isRetxOf (hmem s hs) htype
    obtain rfl := Option.some.inj (hue.symm.trans hue')
    exact (repeatsOriginal_iff hue hretx).mpr (hall s hs htype ue p hue hretx.process)

/-- The process zero of a user waits for its second transmission. -/
def retxUser (bytes : ℕ) : UeContext where
  ptr := (1, 0)
  rnti := 7
  ueId := 1
  dlHarq := ⟨(HarqEntity.create 16).processes.setIfInBounds 0 {
    id := 0
    state := .nackReceived
    txCount := 1
    ndi := true
    tbConfig := { tbSizeBytes := bytes, ndi := true } }⟩

/-- Its cell, in a slot with four free blocks. -/
def retxCell (bytes : ℕ) : CellContext :=
  { CellContext.withUe (.fdd 1 4) (retxUser bytes) with
    currentSlot := SlotContext.cleared.renew (.fdd 1 4) {} }

theorem gridsMatch_retxCell (bytes : ℕ) : (retxCell bytes).GridsMatch := by
  intro isDl
  cases isDl <;> rfl

/-- What the downlink of the cell sends. -/
def sendDl (P : Platform) (cell : CellContext) : Exec (List (List TtiPdu)) := do
  let s ← (create {} : RationalEngine).scheduleFor P cell true
  let b ← s.2.2.buildFor s.2.1 true s.1
  return (s.2.2.emitted b.2).map TtiRequest.pdus

theorem sendDl_run {P : Platform} {cell : CellContext} {sent : List (List TtiPdu)}
    (h : ignoringLocks (sendDl P cell) = some sent) :
    ∃ granted cell' cell'', ∃ e' e'' : RationalEngine,
      ((create {} : RationalEngine).scheduleFor P cell true).run none =
        .ok (granted, cell', e') ∧
      (e'.buildFor cell' true granted).run none = .ok (cell'', e'') ∧
      (e'.emitted e'').map TtiRequest.pdus = sent := by
  obtain ⟨s, hs, hrest⟩ := run_bind_eq_ok.mp (ignoringLocks_eq_some.mp h)
  obtain ⟨b, hb, hpure⟩ := run_bind_eq_ok.mp hrest
  exact ⟨s.1, s.2.1, b.1, s.2.2, b.2, hs, hb, run_pure_eq_ok.mp hpure⟩

/-- The memory holds the indicator and the version, and four blocks carry the seven bytes. -/
theorem retransmissionsRepeat_fitting :
    let P : Platform := { Platform.plain with
      uninitTbConfig := fun _ _ ↦ { rvIndex := 2, ndi := true } }
    ∃ granted cell' cell'', ∃ e' e'' : RationalEngine,
      ((create {} : RationalEngine).scheduleFor P (retxCell 7) true).run none =
        .ok (granted, cell', e') ∧
      (e'.buildFor cell' true granted).run none = .ok (cell'', e'') ∧
      (e'.emitted e'').length = 1 ∧
      ∀ r ∈ e'.emitted e'', ∀ pdu ∈ r.pdus, pdu.type = .retx →
        (retxCell 7).RepeatsOriginal true pdu := by
  intro P
  have hsent : (ignoringLocks (sendDl P (retxCell 7))).map List.length = some 1 := by
    decide +kernel
  obtain ⟨sent, hsend, hlength⟩ := Option.map_eq_some_iff.mp hsent
  obtain ⟨granted, cell', cell'', e', e'', hschedule, hbuild, hpdus⟩ := sendDl_run hsend
  obtain ⟨ranked, policy, qos, hranked, hunranked⟩ :=
    calculatePriorities_run P (retxCell 7) true _ (create {} : RationalEngine)
  refine ⟨granted, cell', cell'', e', e'', hschedule, hbuild, ?_, ?_⟩
  · rw [← hlength, ← hpdus, List.length_map]
  apply (retransmissionsRepeat_iff (by decide) (gridsMatch_retxCell 7) hranked hschedule hbuild).mpr
  intro s hs _ ue p hue hp
  have hgrid : s.grid = .create 4 := by
    -- the only candidate is served on the free grid
    have hone : (sortByPriority P ranked).length = 1 := by
      have hcount := congrArg List.length hunranked
      rw [List.length_map, List.length_map] at hcount
      exact ((P.sort_perm _ ranked).length_eq.trans hcount).trans (by decide +kernel)
    obtain ⟨d, hd⟩ := List.length_eq_one_iff.mp hone
    have hservings : (create {} : RationalEngine).directionServings P (retxCell 7) true ranked =
        servings P (retxCell 7) (15 + 1) (.create 4) [d] := congrArg (servings P _ 16 _) hd
    rw [hservings, servings, if_neg (by decide +kernel)] at hs
    exact congrArg Serving.grid (List.mem_singleton.mp hs)
  have huser : ue = retxUser 7 := by
    have hlookup := UeRepository.ue?_insertUe .empty (retxUser 7) s.decision.rnti
    split at hlookup
    · exact (Option.some.inj (hlookup.symm.trans hue)).symm
    · cases hlookup.symm.trans hue
  subst huser
  cases hp
  rw [hgrid]
  exact ⟨by decide +kernel, rfl, rfl⟩

/-- Seven of hundred bytes are sent, with the indicator and the version that memory held. -/
theorem not_retransmissionsRepeat :
    ∃ granted cell' cell'', ∃ e' e'' : RationalEngine,
      ((create {} : RationalEngine).scheduleFor .plain (retxCell 100) true).run none =
        .ok (granted, cell', e') ∧
      (e'.buildFor cell' true granted).run none = .ok (cell'', e'') ∧
      ¬ ∀ r ∈ e'.emitted e'', ∀ pdu ∈ r.pdus, pdu.type = .retx →
        (retxCell 100).RepeatsOriginal true pdu := by
  have hsent : ignoringLocks (sendDl .plain (retxCell 100)) = some [[{
      rnti := 7
      rbAllocation := ⟨0, 4⟩
      symbolAllocation := ⟨2, 12⟩
      mcs := 0
      rv := 0
      ndi := false
      harqId := 0
      numLayers := 1
      tbSize := 7
      type := .retx
      owner := (1, 0) }]] := by
    decide +kernel
  obtain ⟨granted, cell', cell'', e', e'', hschedule, hbuild, hpdus⟩ := sendDl_run hsent
  refine ⟨granted, cell', cell'', e', e'', hschedule, hbuild, fun hall ↦ ?_⟩
  obtain ⟨r, hr, hrpdus⟩ := List.mem_map.mp (hpdus ▸ List.mem_singleton_self _)
  obtain ⟨ue, p, hue, hp, _, hrepeats⟩ :=
    hall r hr _ (hrpdus.symm ▸ List.mem_singleton_self _) rfl
  cases hue
  cases hp
  exact absurd hrepeats.rv (by decide)

end SchedulerEngine

end NrScheduler
