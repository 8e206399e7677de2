import NrScheduler.Services.QosSpec

/-!
# Two reports on guarantees

The satisfaction ratio looks at the downlink and the list of deficits at both directions.
They agree exactly where nobody is short of the guaranteed uplink rate alone.
-/

namespace NrScheduler

open LockMonad

namespace QosEngine

def allFlows (e : QosEngine ℚ) : List QosFlowState :=
  e.flows.entries.flatMap fun ue ↦ ue.2.entries.map Sigma.snd

/-- The flows with a guarantee, delay-critical ones included. -/
def guaranteedFlows (e : QosEngine ℚ) : List QosFlowState := e.allFlows.filter QosFlowState.isGbr

def below (e : QosEngine ℚ) (isDl : Bool) (flow : QosFlowState) : Bool :=
  flow.belowGuarantee e.config.gbrEnforcementStrictness isDl

/-- Whoever is short of the guaranteed uplink rate is short of the downlink rate as well. -/
def UplinkShortfallShared (e : QosEngine ℚ) : Prop :=
  ∀ flow ∈ e.guaranteedFlows, e.below false flow = true → e.below true flow = true

/-- Both reports return, and the ratio is that of the flows without a deficit. -/
def ReportsAgree (e : QosEngine ℚ) (P : Platform) (memory : ℚ) : Prop :=
  ∃ statistics deficit, ignoringLocks (e.getStatistics memory) = some statistics ∧
    ignoringLocks (e.getGbrDeficitFlows P) = some deficit ∧
    statistics.gbrSatisfactionRatio =
      1 - (deficit.length : ℚ) / (e.guaranteedFlows.length : ℚ)

variable (e : QosEngine ℚ) (P : Platform)

/-- The flows are listed in the order of the hash maps, which does not change their number. -/
theorem length_listFlows (p : QosFlowState → Bool) :
    (e.listFlows P p).length = e.allFlows.countP p := by
  have houter := P.hashOrder_perm e.flows.entries
  rw [listFlows, List.length_flatMap, allFlows, List.countP_flatMap]
  refine ((houter.map _).sum_eq).trans (congrArg List.sum (List.map_congr_left fun ue _ ↦ ?_))
  rw [List.length_map, Function.comp_apply, List.countP_map, List.countP_eq_length_filter]
  exact ((P.hashOrder_perm ue.2.entries).filter _).length_eq

theorem countP_or (p q : QosFlowState → Bool) (flows : List QosFlowState) :
    flows.countP (fun f ↦ p f || q f) = flows.countP p + flows.countP fun f ↦ q f && !p f := by
  induction flows with
  | nil => rfl
  | cons f flows ih =>
      simp only [List.countP_cons, ih]
      cases p f <;> cases q f <;> simp <;> omega

theorem length_deficit : ∃ deficit, ignoringLocks (e.getGbrDeficitFlows P) = some deficit ∧
    deficit.length = e.guaranteedFlows.countP fun f ↦ e.below true f || e.below false f := by
  refine ⟨_, ignoringLocks_eq_some.mpr (withLock_run_none _ _), ?_⟩
  rw [length_listFlows, guaranteedFlows, List.countP_filter]
  exact List.countP_congr fun f _ ↦ by rw [Bool.and_comm]; rfl

/-- A flow counts as satisfied where its downlink is not short. -/
theorem satisfactionRatio (memory : ℚ) :
    ∃ statistics, ignoringLocks (e.getStatistics memory) = some statistics ∧
      statistics.gbrSatisfactionRatio = if 0 < e.guaranteedFlows.length then
        (e.guaranteedFlows.countP fun f ↦ !e.below true f : ℚ) / e.guaranteedFlows.length
      else 1 := by
  refine ⟨_, ignoringLocks_eq_some.mpr (withLock_run_none _ _), ?_⟩
  have hsatisfied : ∀ f : QosFlowState, Double.le
      (Double.mul (Double.ofNat (f.gbrBps true)) e.config.gbrEnforcementStrictness)
      (Double.ofNat f.dlGbrTracker.currentRateBps) = !e.below true f := by
    intro f
    exact (decide_eq_decide.mpr not_lt.symm).trans decide_not
  simp only [hsatisfied, List.countP_eq_length_filter]
  exact if_congr Iff.rfl rfl Nat.cast_one

/-- The flows that only the list of deficits counts. -/
def uplinkOnly (e : QosEngine ℚ) : ℕ :=
  e.guaranteedFlows.countP fun f ↦ e.below false f && !e.below true f

theorem uplinkOnly_eq_zero_iff : e.uplinkOnly = 0 ↔ e.UplinkShortfallShared := by
  rw [uplinkOnly, List.countP_eq_zero]
  apply forall₂_congr
  intro f _
  cases e.below false f <;> cases e.below true f <;> simp

theorem div_eq_one_sub_div_iff {satisfied deficit total : ℕ} (htotal : 0 < total) :
    (satisfied : ℚ) / total = 1 - (deficit : ℚ) / total ↔ satisfied + deficit = total := by
  have hpos : (0 : ℚ) < total := Nat.cast_pos.mpr htotal
  rw [eq_sub_iff_add_eq, ← add_div, div_eq_one_iff_eq hpos.ne', ← Nat.cast_add, Nat.cast_inj]

/-- In every state the reports agree exactly if every flow that is short of its guaranteed
uplink rate is short of its downlink rate as well. -/
theorem reports_agree_iff (memory : ℚ) :
    e.ReportsAgree P memory ↔ e.UplinkShortfallShared := by
  obtain ⟨deficit, hdeficit, hlength⟩ := e.length_deficit P
  obtain ⟨statistics, hstatistics, hratio⟩ := e.satisfactionRatio memory
  have hagree : e.ReportsAgree P memory ↔ statistics.gbrSatisfactionRatio =
      1 - (deficit.length : ℚ) / (e.guaranteedFlows.length : ℚ) := by
    constructor
    · rintro ⟨statistics', deficit', hstatistics', hdeficit', heq⟩
      obtain rfl := Option.some.inj (hstatistics.symm.trans hstatistics')
      obtain rfl := Option.some.inj (hdeficit.symm.trans hdeficit')
      exact heq
    · exact fun heq ↦ ⟨statistics, deficit, hstatistics, hdeficit, heq⟩
  have hsplit : e.guaranteedFlows.length = e.guaranteedFlows.countP (e.below true) +
      e.guaranteedFlows.countP fun f ↦ !e.below true f := by
    rw [List.length_eq_countP_add_countP (e.below true)]
    simp only [Bool.not_eq_true, Bool.decide_eq_false]
  rw [countP_or] at hlength
  change deficit.length = _ + e.uplinkOnly at hlength
  rw [hagree, hratio, ← uplinkOnly_eq_zero_iff]
  split
  · rename_i hpos
    rw [div_eq_one_sub_div_iff hpos]
    omega
  · rename_i hzero
    have hnone : e.uplinkOnly ≤ e.guaranteedFlows.length := List.countP_le_length
    have hempty : e.guaranteedFlows.length = 0 := by omega
    rw [hempty, Nat.cast_zero, div_zero, sub_zero]
    exact iff_of_true rfl (by omega)

/-- A flow with a guarantee in the uplink only, which it does not get: everybody is satisfied,
and one flow has a deficit. -/
theorem reports_of_uplink_flow :
    let e : Option (QosEngine ℚ) := ignoringLocks
      (create.registerFlow .plain 7 ⟨1, ⟨.gbr, 20, 100⟩, 0, 64000, 0, 128000⟩)
    (e.bind fun e ↦ (ignoringLocks (e.getStatistics 0)).map (·.gbrSatisfactionRatio)) = some 1 ∧
      (e.bind fun e ↦ ignoringLocks (e.getGbrDeficitFlows .plain)) = some [(7, 1)] := by
  decide +kernel

end QosEngine

end NrScheduler
