import NrScheduler.Engine.Transmissions

/-!
# No collision of grants

The transmissions of a slot lie inside the carrier and are disjoint, and each is for a
different active user of the cell.
-/

namespace NrScheduler

namespace SchedulerEngine

variable {π D : Type} [Double D] [IPolicyManager π D]

/-- The transmissions of one direction of a slot do not collide. -/
structure Collisionless (e : SchedulerEngine π D) (cellId : CellId) (numRbs : ℕ)
    (r : TtiRequest) : Prop where
  inside : ∀ pdu ∈ r.pdus,
    pdu.rbAllocation.startRb + pdu.rbAllocation.numRbs ≤ numRbs ∧
    pdu.symbolAllocation.startSymbol + pdu.symbolAllocation.numSymbols ≤ 14
  disjoint : r.pdus.Pairwise fun p q ↦ ∀ sym rb,
    ¬ (ResourceGrid.Covers p.resource sym rb ∧ ResourceGrid.Covers q.resource sym rb)
  rnti_nodup : (r.pdus.map TtiPdu.rnti).Nodup
  active : ∀ pdu ∈ r.pdus, ∃ ue, e.ueAt cellId pdu.rnti = some ue ∧ ue.isInActiveTime = true
  length_le : r.pdus.length ≤ e.config.limit r.isDownlink

omit [Double D] [IPolicyManager π D] in
theorem isInActiveTime_of_isEligible {e : SchedulerEngine π D} {isDl : Bool} {ue : UeContext}
    (h : e.isEligible isDl ue = true) : ue.isInActiveTime = true := by
  simp only [isEligible, Bool.and_eq_true] at h
  exact h.1.1

theorem not_covers_of_le {p q : TtiPdu}
    (h : p.rbAllocation.startRb + p.rbAllocation.numRbs ≤ q.rbAllocation.startRb) (sym rb : ℕ) :
    ¬ (ResourceGrid.Covers p.resource sym rb ∧ ResourceGrid.Covers q.resource sym rb) := by
  rintro ⟨⟨_, _, hlt⟩, _, hle, _⟩
  simp only [TtiPdu.resource] at hlt hle
  omega

omit [IPolicyManager π D] in
theorem Sends.collisionless {e : SchedulerEngine π D} {P : Platform} {cellId : CellId}
    {cell : CellContext} {t : FrameTiming} {r : TtiRequest} (h : e.Sends P cell t r)
    (hlookup : e.cells.lookup cellId = some cell) :
    e.Collisionless cellId cell.config.numRbs r := by
  obtain ⟨ranked, hranking, hpdus⟩ := h.pdus
  have horigin := fun pdu (hpdu : pdu ∈ r.pdus) ↦ mem_grantedPdus hranking (hpdus ▸ hpdu)
  constructor
  case inside =>
    intro pdu hpdu
    obtain ⟨ue, d, start, width, _, _, _, rfl, _, hle⟩ := horigin pdu hpdu
    exact ⟨hle.trans (min_le_left _ _), le_refl 14⟩
  case disjoint =>
    rw [hpdus]
    exact (grantedPdus_pairwise e.config).imp not_covers_of_le
  case rnti_nodup =>
    rw [hpdus]
    exact grantedPdus_rnti_nodup hranking
  case active =>
    intro pdu hpdu
    obtain ⟨ue, _, _, _, hue, heligible, _⟩ := horigin pdu hpdu
    exact ⟨ue, ueAt_eq_some.mpr ⟨cell, hlookup, hue⟩, isInActiveTime_of_isEligible heligible⟩
  case length_le =>
    rw [hpdus]
    exact length_grantedPdus_le e.config

/-- A slot sends at most one request in each direction, and the transmissions of each
request do not collide. -/
theorem slot_collisionless {e e' : SchedulerEngine π D} {P : Platform} {cellId : CellId}
    {t : FrameTiming} {cfg : CellConfig} (hcfg : e.configAt cellId = some cfg)
    (h : e.next (P, .slotIndication cellId t) = some e') :
    (∀ isDl, ((e.emitted e').filter fun r ↦ r.isDownlink == isDl).length ≤ 1) ∧
      ∀ r ∈ e.emitted e', e.Collisionless cellId cfg.numRbs r := by
  obtain ⟨cell, hlookup, rfl⟩ := Option.map_eq_some_iff.mp hcfg
  rcases onSlotIndication_ok (next_eq_some.mp h) with ⟨hnone, _⟩ | ⟨cell', slot, dl, ul, houtcome⟩
  · rw [hlookup] at hnone
    cases hnone
  · obtain rfl : cell = cell' := Option.some.inj (hlookup.symm.trans houtcome.lookup)
    rw [houtcome.emitted_eq]
    constructor
    · intro isDl
      obtain ⟨ranked, _, hreqs⟩ := houtcome.direction isDl
      rw [houtcome.filter_direction, hreqs]
      exact length_openRequests_le slot e.config P cell isDl t ranked
    · intro r hr
      exact (houtcome.sends hr).collisionless hlookup

/-- Two users share four blocks in the downlink, and one of them sends in the uplink. -/
theorem slot_collisionless_two_users :
    ∃ e e' : RationalEngine, e.configAt 1 = some (.fdd 1 4) ∧
      e.next (Platform.plain, .slotIndication 1 {}) = some e' ∧
      (e.emitted e').map (fun r ↦ r.pdus.length) = [2, 1] ∧
      ∀ r ∈ e.emitted e', e.Collisionless 1 4 r := by
  let e : RationalEngine := RationalEngine.after { strategy := .roundRobin, enableQos := false }
    [.addCell (.fdd 1 4) .cleared, .ueConfig { rnti := 7, cellId := 1 },
      .ueConfig { rnti := 8, cellId := 1 }, .dlData ⟨7, 1, 0, 1⟩, .dlData ⟨8, 1, 0, 1⟩,
      .sr ⟨7, 1⟩]
  have hcfg : e.configAt 1 = some (.fdd 1 4) := by decide +kernel
  have hlength : (e.next (Platform.plain, .slotIndication 1 {})).map
      (fun e' ↦ (e.emitted e').map fun r ↦ r.pdus.length) = some [2, 1] := by decide +kernel
  obtain ⟨e', h, hemitted⟩ := Option.map_eq_some_iff.mp hlength
  exact ⟨e, e', hcfg, h, hemitted, (slot_collisionless hcfg h).2⟩

end SchedulerEngine

end NrScheduler
