import NrScheduler.Engine.RoundRobinHistory
import NrScheduler.Engine.RoundRobinSlot
import NrScheduler.Properties.CandidateLoss

/-!
# The rank of real work

A candidate has a retransmission, data or a scheduling request to send, and the round robin
policy looks at the data alone.  Whatever else a user waits for is ranked at zero, and the
boost of a retransmission doubles that zero.
-/

namespace NrScheduler

open FrameTiming LockMonad

namespace SchedulerEngine

variable {D : Type} [ExactDouble D] {e : SchedulerEngine (BuiltinPolicy D) D}
  {p : RoundRobinPolicy} {cell : CellContext} {isDl : Bool} {slotsPerFrame n : ℕ}
  {updates : List Update}

/-- The user was never scheduled, or was last scheduled in an earlier slot. -/
def Waits (updates : List Update) (n : ℕ) (ue : UeContext) : Prop :=
  ∀ u ∈ updates, u.ue = ue.ptr → u.slot < n

instance (updates : List Update) (n : ℕ) (ue : UeContext) : Decidable (Waits updates n ue) := by
  unfold Waits
  infer_instance

/-- The decisions of waiting users are ranked above zero, and a retransmission no lower than a
new transmission of the same user. -/
structure RanksWork (e : SchedulerEngine (BuiltinPolicy D) D) (P : Platform) (cell : CellContext)
    (isDl : Bool) (updates : List Update) (n : ℕ) (ranked : List (SchedulingDecision D)) :
    Prop where
  positive : ∀ d ∈ ranked, ∀ ue ∈ cell.ueRepo.ue? d.rnti, Waits updates n ue →
    Double.lt (Double.ofNat 0) d.priorityMetric = true
  retx : ∀ d ∈ ranked, d.type = .retx → ∀ d' e',
    (e.calculatePriority P cell isDl { d with type := .newTx }).run none = .ok (d', e') →
      Double.le d'.priorityMetric d.priorityMetric = true

/-- The user has data, and its RNTI was not last scheduled in this slot or a whole number of
cycles ago. -/
def HasAge (slotsPerFrame : ℕ) (updates : List Update) (n : ℕ) (isDl : Bool) (ue : UeContext) :
    Prop :=
  ue.buffer isDl ≠ 0 ∧ ∀ last ∈ lastUpdate updates ue.rnti, ¬ cycle slotsPerFrame ∣ n - last

instance (slotsPerFrame : ℕ) (updates : List Update) (n : ℕ) (isDl : Bool) (ue : UeContext) :
    Decidable (HasAge slotsPerFrame updates n isDl ue) := by
  unfold HasAge
  infer_instance

/-! ## Metrics -/

theorem rankRoundRobin_same (p : RoundRobinPolicy) (cell : CellContext) (isDl : Bool)
    (d : SchedulingDecision D) : (rankRoundRobin p cell isDl d).rnti = d.rnti ∧
      (rankRoundRobin p cell isDl d).type = d.type := by
  rw [rankRoundRobin]
  split
  · exact ⟨rfl, rfl⟩
  · rw [boostRetx]
    split <;> exact ⟨rfl, rfl⟩

/-- The metric of a decision is a whole number, and doubled for a retransmission. -/
theorem exists_metric (h : p.Tracks slotsPerFrame n updates) (hpos : 0 < slotsPerFrame)
    (hspf : slotsPerFrame < 2 ^ 16) (isDl : Bool) {ue : UeContext} {rnti : Rnti}
    (hue : cell.ueRepo.ue? rnti = some ue) :
    ∃ k < 2 ^ 32, (0 < k ↔ HasAge slotsPerFrame updates n isDl ue) ∧
      ∀ d : SchedulingDecision D, d.rnti = rnti →
        (rankRoundRobin p cell isDl d).priorityMetric =
          Double.ofNat (if d.type = .retx then k * 2 else k) := by
  obtain ⟨k, hpriority, hk, hage⟩ := h.exists_priority (D := D) hpos hspf ue isDl
  refine ⟨k, hk, hage, ?_⟩
  rintro d rfl
  rw [rankRoundRobin, hue]
  dsimp only
  rw [boostRetx]
  by_cases hretx : d.type = .retx
  · rw [if_pos hretx, if_pos hretx, hpriority]
    exact ExactDouble.mul_ofNat k 2 (by omega)
  · rw [if_neg hretx, if_neg hretx]
    exact hpriority

theorem lt_metric_iff (h : p.Tracks slotsPerFrame n updates) (hpos : 0 < slotsPerFrame)
    (hspf : slotsPerFrame < 2 ^ 16) {ue : UeContext} {d : SchedulingDecision D}
    (hue : cell.ueRepo.ue? d.rnti = some ue) :
    Double.lt (Double.ofNat 0) (rankRoundRobin p cell isDl d).priorityMetric = true ↔
      HasAge slotsPerFrame updates n isDl ue := by
  obtain ⟨k, hk, hage, hmetric⟩ := exists_metric (D := D) h hpos hspf isDl hue
  rw [hmetric d rfl, ExactDouble.lt_ofNat _ _ (by decide) (by split <;> omega),
    decide_eq_true_iff, ← hage]
  split <;> omega

theorem newTx_le_retx (h : p.Tracks slotsPerFrame n updates) (hpos : 0 < slotsPerFrame)
    (hspf : slotsPerFrame < 2 ^ 16) {ue : UeContext} {d d' : SchedulingDecision D}
    (hue : cell.ueRepo.ue? d.rnti = some ue) (hd : d.type = .retx) (hrnti : d'.rnti = d.rnti)
    (hd' : d'.type = .newTx) :
    Double.le (rankRoundRobin p cell isDl d').priorityMetric
      (rankRoundRobin p cell isDl d).priorityMetric = true := by
  obtain ⟨k, hk, _, hmetric⟩ := exists_metric (D := D) h hpos hspf isDl hue
  have hnew : d'.type ≠ .retx := by
    rw [hd']
    decide
  rw [hmetric d rfl, hmetric d' hrnti, if_pos hd, if_neg hnew,
    ExactDouble.le_ofNat _ _ (by omega) (by omega)]
  exact decide_eq_true (by omega)

/-- All work is ranked above zero exactly if all waiting candidates have data and an age. -/
theorem ranksWork_iff (hconfig : e.config.IsRoundRobin) (hpolicy : e.policyManager = .roundRobin p)
    (htracks : p.Tracks slotsPerFrame n updates) (hpos : 0 < slotsPerFrame)
    (hspf : slotsPerFrame < 2 ^ 16) (P : Platform) (cell : CellContext) (isDl : Bool) :
    ∃ ranked e', (calculatePriorities P cell isDl (e.candidates P cell isDl) e).run none =
        .ok (ranked, e') ∧
      (e.RanksWork P cell isDl updates n ranked ↔
        ∀ ue ∈ cell.ueRepo.users P, e.isEligible isDl ue = true →
          hasCandidate e.config isDl ue = true → Waits updates n ue →
            HasAge slotsPerFrame updates n isDl ue) := by
  refine ⟨_, _, calculatePriorities_roundRobin hconfig hpolicy P cell isDl _, ?_⟩
  constructor
  · intro hranks ue hue heligible hcandidate hwaits
    have hlookup := UeRepository.mem_users.mp hue
    rw [← candidate_isSome (D := D) e.config P isDl ue] at hcandidate
    obtain ⟨d, hd⟩ := Option.isSome_iff_exists.mp hcandidate
    have hrnti : d.rnti = ue.rnti := (candidate_eq_some hd).1
    rw [← hrnti] at hlookup
    have hmem : d ∈ e.candidates P cell isDl := mem_candidates.mpr ⟨ue, hlookup, heligible, hd⟩
    apply (lt_metric_iff (D := D) htracks hpos hspf hlookup).mp
    apply hranks.positive _ (List.mem_map_of_mem hmem) ue _ hwaits
    rw [(rankRoundRobin_same p cell isDl d).1]
    exact hlookup
  · intro hages
    constructor
    case positive =>
      intro r hr ue hue hwaits
      obtain ⟨d, hd, rfl⟩ := List.mem_map.mp hr
      rw [(rankRoundRobin_same p cell isDl d).1] at hue
      obtain ⟨ue', hue', heligible, hd'⟩ := mem_candidates.mp hd
      obtain rfl : ue' = ue := Option.some.inj (hue'.symm.trans hue)
      have hcandidate : hasCandidate e.config isDl ue' = true := by
        rw [← candidate_isSome (D := D) e.config P isDl ue', hd']
        rfl
      rw [(candidate_eq_some hd').1] at hue'
      apply (lt_metric_iff htracks hpos hspf hue).mpr
      exact hages ue' (UeRepository.mem_users.mpr hue') heligible hcandidate hwaits
    case retx =>
      intro r hr hretx d' e' hrun
      obtain ⟨d, hd, rfl⟩ := List.mem_map.mp hr
      obtain ⟨ue, hue, _, _⟩ := mem_candidates.mp hd
      obtain ⟨hrnti, htype⟩ := rankRoundRobin_same p cell isDl d
      rw [calculatePriority_roundRobin hconfig hpolicy] at hrun
      obtain ⟨rfl, -⟩ := Prod.mk.inj (Except.ok.inj hrun)
      exact newTx_le_retx htracks hpos hspf hue (htype.symm.trans hretx) hrnti rfl

/-- An engine that ranks by round robin alone. -/
def roundRobinEngine (p : RoundRobinPolicy) : RationalEngine where
  config := { strategy := .roundRobin, enableQos := false }
  policyManager := .roundRobin p
  qosEngine := .create
  sliceOrchestrator := .create

/-- The user of one retransmission has data as well, and was scheduled one slot ago. -/
theorem ranksWork_oneSlotAgo :
    let ue : UeContext := { retxOnly with dlBufferBytes := AList.singleton 0 100 }
    let p := (({} : RoundRobinPolicy).updateHistory ue).onSlotStart { slot := 1 }
    ∃ ranked e', (calculatePriorities .plain (.withUe (.fdd 1 4) ue) true
        ((roundRobinEngine p).candidates .plain (.withUe (.fdd 1 4) ue) true)
        (roundRobinEngine p)).run none = .ok (ranked, e') ∧
      (roundRobinEngine p).RanksWork .plain (.withUe (.fdd 1 4) ue) true [⟨(1, 0), 7, 0⟩] 1
        ranked := by
  intro ue p
  have hstart : ({} : RoundRobinPolicy).Tracks 10 0 [] :=
    RoundRobinPolicy.tracks_start (show ({} : FrameTiming).IsAt 10 0 by decide)
  have htracks : p.Tracks 10 1 [⟨(1, 0), 7, 0⟩] :=
    (hstart.updateHistory ue).onSlotStart (show ({ slot := 1 } : FrameTiming).IsAt 10 1 by decide)
      (by decide)
  obtain ⟨ranked, e', hrun, hiff⟩ := ranksWork_iff (e := roundRobinEngine p) ⟨rfl, rfl, rfl⟩ rfl
    htracks (by decide) (by decide) .plain (.withUe (.fdd 1 4) ue) true
  exact ⟨ranked, e', hrun, hiff.mpr (by decide +kernel)⟩

/-- With the retransmission alone it is ranked at zero, although it was never scheduled. -/
theorem not_ranksWork :
    ({} : RoundRobinPolicy).Tracks 10 0 [] ∧ ∃ ranked e',
      (calculatePriorities .plain (.withUe (.fdd 1 4) retxOnly) true
        ((roundRobinEngine {}).candidates .plain (.withUe (.fdd 1 4) retxOnly) true)
        (roundRobinEngine {})).run none = .ok (ranked, e') ∧
      ¬ (roundRobinEngine {}).RanksWork .plain (.withUe (.fdd 1 4) retxOnly) true [] 0
        ranked := by
  have hstart : ({} : RoundRobinPolicy).Tracks 10 0 [] :=
    RoundRobinPolicy.tracks_start (show ({} : FrameTiming).IsAt 10 0 by decide)
  refine ⟨hstart, _, _, calculatePriorities_roundRobin ⟨rfl, rfl, rfl⟩ rfl _ _ _ _, ?_⟩
  intro hranks
  have hpositive := hranks.positive _ List.mem_cons_self retxOnly rfl (by decide)
  exact absurd hpositive (by decide +kernel)

end SchedulerEngine

end NrScheduler
