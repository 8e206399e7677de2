import NrScheduler.Engine.Asks

/-!
# Work conservation

Whatever the policy, an open direction hands out as many blocks as are asked for, or all that the
cell has, unless it stops at the limit on transmissions.
-/

namespace NrScheduler

open LockMonad SchedulerEngine

/-- The transmissions of some requests in a direction. -/
def TtiRequest.pdusIn (isDl : Bool) (rs : List TtiRequest) : List TtiPdu :=
  (rs.filter fun r ↦ r.isDownlink == isDl).flatMap TtiRequest.pdus

/-- With these transmissions a direction is scheduled as far as the limit or the blocks go. -/
structure Load.Conserves (D : Type) [Double D] (l : Load) (P : Platform) (cell : CellLoad)
    (isDl : Bool) (pdus : List TtiPdu) : Prop where
  limit : pdus.length ≤ l.config.limit isDl
  blocks : pdus.length = l.config.limit isDl ∨
    (pdus.map fun pdu ↦ pdu.rbAllocation.numRbs).sum =
      min cell.config.numRbs ((l.asks D P cell isDl).map fun pdu ↦ pdu.rbAllocation.numRbs).sum

namespace SchedulerEngine

variable {π D : Type} [Double D] {e e' : SchedulerEngine π D} {P : Platform}
  {cell : CellContext} {isDl : Bool}

theorem conserves_grantedPdus {ranked : List (SchedulingDecision D)} (hun : e.Unsliced)
    (h : e.IsRanking P cell isDl ranked) :
    e.load.Conserves D P cell.load isDl (grantedPdus e.config P cell isDl ranked) where
  limit := length_grantedPdus_le e.config
  blocks := by
    have hwidths := map_numRbs_grantedPdus h
    have hlength := congrArg List.length hwidths
    rw [List.length_map, List.length_map] at hlength
    refine (length_grantedPdus_le e.config).lt_or_eq.symm.imp_right fun hlt ↦ ?_
    have hasks : e.load.asks D P cell.load isDl =
        (e.candidates P cell isDl).filterMap (askOf P cell) := asks_eq hun
    rw [hlength] at hlt
    rw [hwidths, hasks, map_numRbs_asks, Carve.sum_width_of_lt hlt, Nat.sub_zero, h.sum_demand]
    rfl

theorem SlotOutcome.conserves {cellId : CellId} {t : FrameTiming} {slot : SlotContext}
    {dl ul : List TtiRequest} (h : e.SlotOutcome P cellId t cell slot dl ul e')
    (hun : e.Unsliced) (hopen : (cell.load.begin t).canSchedule isDl = true) :
    e.load.Conserves D P cell.load isDl (TtiRequest.pdusIn isDl (e.emitted e')) := by
  have hslot : slot.canSchedule isDl = true :=
    (congrFun (SlotContext.canSchedule_of_initializeSlot h.start) isDl).trans hopen
  obtain ⟨ranked, hranked, hreqs⟩ := h.direction isDl
  have hpdus : TtiRequest.pdusIn isDl (e.emitted e') =
      grantedPdus e.config P cell isDl ranked := by
    rw [TtiRequest.pdusIn, h.emitted_eq, h.filter_direction, hreqs, openRequests, if_pos hslot,
      requests]
    split
    · rename_i hnil
      rw [hnil]
      rfl
    · rw [List.flatMap_singleton]
  rw [hpdus]
  exact conserves_grantedPdus hun hranked

variable [IPolicyManager π D]

/-- In every slot of every run, every open direction is scheduled as far as it goes. -/
theorem conserves_of_run {config : SchedulerConfig} {is : List (Platform × Event π)}
    (h : is.foldlM SchedulerEngine.next (create config) = some e) {cellId : CellId}
    {t : FrameTiming} (hnext : e.next (P, .slotIndication cellId t) = some e')
    {cell : CellLoad} (hcell : (loadOf config is).cells cellId = some cell)
    (hopen : (cell.begin t).canSchedule isDl = true) :
    (loadOf config is).Conserves D P cell isDl (TtiRequest.pdusIn isDl (e.emitted e')) := by
  have hbears := bears_of_run h
  rw [← hbears.load] at hcell ⊢
  rcases onSlotIndication_ok (next_eq_some.mp hnext) with
    ⟨hlookup, _⟩ | ⟨context, slot, dl, ul, houtcome⟩
  · rw [load_cells_none hlookup] at hcell
    cases hcell
  · rw [load_cells houtcome.lookup, Option.some.injEq] at hcell
    subst hcell
    exact houtcome.conserves hbears.unsliced hopen

/-- The last of three users gets what is left, and nobody reaches the limit. -/
theorem conserves_of_run_scarce :
    let config : SchedulerConfig := { strategy := .roundRobin }
    let is : List (Platform × Event (BuiltinPolicy ℚ)) :=
      onPlain [.addCell (.fdd 1 30) .cleared, .ueConfig { rnti := 7, cellId := 1 },
        .ueConfig { rnti := 8, cellId := 1 }, .ueConfig { rnti := 9, cellId := 1 },
        .dlData ⟨7, 1, 1, 20⟩, .dlData ⟨8, 1, 1, 30⟩, .dlData ⟨9, 1, 1, 20⟩]
    ∃ e e' : RationalEngine, is.foldlM SchedulerEngine.next (create config) = some e ∧
      e.next (.plain, .slotIndication 1 {}) = some e' ∧
      (TtiRequest.pdusIn true (e.emitted e')).map (fun pdu ↦
        (pdu.rnti, pdu.rbAllocation.numRbs)) = [(9, 11), (8, 16), (7, 3)] ∧
      ∃ cell, (loadOf config is).cells 1 = some cell ∧
        (loadOf config is).Conserves ℚ .plain cell true
          (TtiRequest.pdusIn true (e.emitted e')) := by
  intro config is
  have hsome : (is.foldlM SchedulerEngine.next (create config : RationalEngine)).any (fun e ↦
      (e.next (.plain, .slotIndication 1 {})).any fun e' ↦
        (TtiRequest.pdusIn true (e.emitted e')).map (fun pdu ↦
          (pdu.rnti, pdu.rbAllocation.numRbs)) == [(9, 11), (8, 16), (7, 3)]) = true := by
    decide +kernel
  obtain ⟨e, hrun, hslot⟩ := (Option.any_eq_true _ _).mp hsome
  obtain ⟨e', hnext, hpdus⟩ := (Option.any_eq_true _ _).mp hslot
  have hcell : ((loadOf config is).cells 1).any (fun cell ↦ (cell.begin {}).canSchedule true) =
      true := by
    decide +kernel
  obtain ⟨cell, hcell, hopen⟩ := (Option.any_eq_true _ _).mp hcell
  exact ⟨e, e', hrun, hnext, beq_iff_eq.mp hpdus, cell, hcell,
    conserves_of_run hrun hnext hcell hopen⟩

end SchedulerEngine

end NrScheduler
