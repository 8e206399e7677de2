import NrScheduler.Lib.CheckedDouble
import NrScheduler.Services.QosSpec
import Mathlib.Tactic.Linarith
import Mathlib.Tactic.Positivity

/-!
# Priority and need

The priority of a flow is the product of a base, of a boost for a rate below the guarantee
and of a boost for data close to its delay budget.  No factor divides by zero or lowers the
base, and whoever is in greater need never ranks lower.
-/

namespace NrScheduler

open LockMonad

/-- A configuration of rational numbers for checked arithmetic. -/
def QosEngineConfig.checked (config : QosEngineConfig ℚ) : QosEngineConfig (Option ℚ) where
  gbrEnforcementStrictness := some config.gbrEnforcementStrictness
  gbrMeasurementWindowMs := config.gbrMeasurementWindowMs
  delayMarginFactor := some config.delayMarginFactor
  enableMbrEnforcement := config.enableMbrEnforcement
  tokenBucketDepthMs := config.tokenBucketDepthMs
  delayUrgencyWeight := some config.delayUrgencyWeight
  gbrDeficitWeight := some config.gbrDeficitWeight

/-- The strictness lies between zero and one, and no weight is negative. -/
structure QosEngineConfig.Sensible (config : QosEngineConfig ℚ) : Prop where
  strictness_nonneg : 0 ≤ config.gbrEnforcementStrictness
  strictness_le_one : config.gbrEnforcementStrictness ≤ 1
  urgencyWeight_nonneg : 0 ≤ config.delayUrgencyWeight
  deficitWeight_nonneg : 0 ≤ config.gbrDeficitWeight

/-- Neither the priority level nor the delay budget of the direction is zero. -/
structure QosFlowState.Rankable (flow : QosFlowState) (isDl : Bool) : Prop where
  level_pos : 0 < flow.params.characteristics.priorityLevel
  pdb_pos : 0 < (flow.delayTracker isDl).pdbMs

/-- Two states of a flow, the second of which is not behind in need: its rate is not larger,
its urgency not smaller and its level not larger. -/
structure NoLessNeedy (isDl : Bool) (now now' : ℕ) (flow flow' : QosFlowState) : Prop where
  isGbr : flow'.isGbr = flow.isGbr
  gbrBps : flow'.gbrBps isDl = flow.gbrBps isDl
  rate : (flow'.gbrTracker isDl).currentRateBps ≤ (flow.gbrTracker isDl).currentRateBps
  urgency : (flow.delayTracker isDl).urgency now ≤ ((flow'.delayTracker isDl).urgency now' : ℚ)
  level : flow'.params.characteristics.priorityLevel ≤ flow.params.characteristics.priorityLevel

/-- The result holds values, of which the base is 128 divided by the level, neither factor is
less than one, and the product not less than the base. -/
structure BoostsBase (result : QosPriorityResult (Option ℚ)) (level : ℕ)
    (gbr delay final : ℚ) : Prop where
  base : result.basePriority = some (128 / level : ℚ)
  gbrFactor : result.gbrFactor = some gbr
  one_le_gbr : 1 ≤ gbr
  delayFactor : result.delayFactor = some delay
  one_le_delay : 1 ≤ delay
  finalPriority : result.finalPriority = some final
  base_le_final : (128 / level : ℚ) ≤ final

namespace QosEngine

variable {config : QosEngineConfig ℚ} {isGbr : Bool} {gbr rate rate' u u' : ℚ}

/-! ## The factors -/

def gbrFactorOf (config : QosEngineConfig ℚ) (isGbr : Bool) (gbr rate : ℚ) : ℚ :=
  if isGbr = true ∧ rate < gbr * config.gbrEnforcementStrictness then
    1 + (1 - rate / gbr) * config.gbrDeficitWeight
  else 1

def delayFactorOf (config : QosEngineConfig ℚ) (urgency : ℚ) : ℚ :=
  if config.delayMarginFactor < urgency then
    1 + (urgency - config.delayMarginFactor) * config.delayUrgencyWeight
  else 1

/-- A rate below the enforced part of the guarantee is below the guarantee, which is positive. -/
theorem rate_lt_gbr (h : config.Sensible) (hgbr : 0 ≤ gbr) (hrate : 0 ≤ rate)
    (hlt : rate < gbr * config.gbrEnforcementStrictness) : 0 < gbr ∧ rate < gbr := by
  have hle : gbr * config.gbrEnforcementStrictness ≤ gbr :=
    mul_le_of_le_one_right hgbr h.strictness_le_one
  have hbelow := hlt.trans_le hle
  exact ⟨hrate.trans_lt hbelow, hbelow⟩

theorem one_le_gbrFactorOf (h : config.Sensible) (hgbr : 0 ≤ gbr) (hrate : 0 ≤ rate) :
    1 ≤ gbrFactorOf config isGbr gbr rate := by
  rw [gbrFactorOf]
  split
  · rename_i hbelow
    obtain ⟨hpos, hlt⟩ := rate_lt_gbr h hgbr hrate hbelow.2
    have hdeficit : 0 ≤ 1 - rate / gbr := sub_nonneg.mpr ((div_le_one hpos).mpr hlt.le)
    exact le_add_of_nonneg_right (mul_nonneg hdeficit h.deficitWeight_nonneg)
  · exact le_rfl

/-- A lower rate is boosted no less, also where the boost sets in. -/
theorem gbrFactorOf_antitone (h : config.Sensible) (hgbr : 0 ≤ gbr) (hrate' : 0 ≤ rate')
    (hle : rate' ≤ rate) :
    gbrFactorOf config isGbr gbr rate ≤ gbrFactorOf config isGbr gbr rate' := by
  by_cases hbelow : isGbr = true ∧ rate < gbr * config.gbrEnforcementStrictness
  · have hbelow' : isGbr = true ∧ rate' < gbr * config.gbrEnforcementStrictness :=
      ⟨hbelow.1, hle.trans_lt hbelow.2⟩
    rw [gbrFactorOf, if_pos hbelow, gbrFactorOf, if_pos hbelow']
    have hquotient : rate' / gbr ≤ rate / gbr := div_le_div_of_nonneg_right hle hgbr
    gcongr
    exact h.deficitWeight_nonneg
  · rw [gbrFactorOf, if_neg hbelow]
    exact one_le_gbrFactorOf h hgbr hrate'

theorem one_le_delayFactorOf (h : config.Sensible) (u : ℚ) : 1 ≤ delayFactorOf config u := by
  rw [delayFactorOf]
  split
  · rename_i hlate
    exact le_add_of_nonneg_right (mul_nonneg (sub_nonneg.mpr hlate.le) h.urgencyWeight_nonneg)
  · exact le_rfl

theorem delayFactorOf_monotone (h : config.Sensible) : Monotone (delayFactorOf config) := by
  intro u u' hle
  by_cases hlate : config.delayMarginFactor < u
  · rw [delayFactorOf, if_pos hlate, delayFactorOf, if_pos (hlate.trans_le hle)]
    gcongr
    exact h.urgencyWeight_nonneg
  · rw [delayFactorOf, if_neg hlate]
    exact one_le_delayFactorOf h u'

/-! ## The code in checked arithmetic -/

variable {flow flow' : QosFlowState} {isDl : Bool} {now now' : ℕ}

def rateOf (flow : QosFlowState) (isDl : Bool) : ℚ := (flow.gbrTracker isDl).currentRateBps

theorem gbrBoost_checked (h : config.Sensible) (flow : QosFlowState) (isDl : Bool) :
    (gbrBoost config.checked flow isDl).1 =
      some (gbrFactorOf config flow.isGbr (flow.gbrBps isDl) (rateOf flow isDl)) := by
  have hbelow : flow.belowGuarantee config.checked.gbrEnforcementStrictness isDl =
      decide (rateOf flow isDl < flow.gbrBps isDl * config.gbrEnforcementStrictness) := rfl
  rw [gbrBoost, gbrFactorOf, hbelow]
  simp only [Bool.and_eq_true, decide_eq_true_eq]
  split
  · rename_i hshort
    have hpos := (rate_lt_gbr h (Nat.cast_nonneg _) (Nat.cast_nonneg _) hshort.2).1
    have hdiv := Double.div_ofNat_checked (rateOf flow isDl) (Nat.cast_pos.mp hpos)
    have hone : (Double.ofNat 1 : ℚ) = 1 := Nat.cast_one
    simp only [QosEngineConfig.checked, Double.ofNat_checked]
    rw [show (Double.ofNat (flow.gbrTracker isDl).currentRateBps : ℚ) = rateOf flow isDl from rfl,
      hdiv, Double.sub_checked, Double.mul_checked, Double.add_checked, hone]
    rfl
  · rfl

theorem delayBoost_checked (config : QosEngineConfig ℚ) (u : ℚ) :
    delayBoost config.checked (some u) = some (delayFactorOf config u) := by
  have hlate : Double.lt config.checked.delayMarginFactor (some u) =
      decide (config.delayMarginFactor < u) := rfl
  have hone : (Double.ofNat 1 : ℚ) = 1 := Nat.cast_one
  rw [delayBoost, delayFactorOf, hlate]
  simp only [decide_eq_true_eq, QosEngineConfig.checked, Double.ofNat_checked,
    Double.sub_checked, Double.mul_checked, Double.add_checked, hone]
  split <;> rfl

theorem urgency_checked {t : DelayTracker} (hpdb : 0 < t.pdbMs) (now : ℕ) :
    t.urgency now = some (t.urgency now : ℚ) := by
  rw [DelayTracker.urgency, DelayTracker.urgency]
  split
  · rw [Double.ofNat_checked, Double.ofNat_checked, Double.div_ofNat_checked _ hpdb]
  · rfl

/-- The priority of a flow in exact arithmetic. -/
def finalOf (config : QosEngineConfig ℚ) (flow : QosFlowState) (isDl : Bool) (now : ℕ) : ℚ :=
  128 / flow.params.characteristics.priorityLevel *
    gbrFactorOf config flow.isGbr (flow.gbrBps isDl) (rateOf flow isDl) *
    delayFactorOf config ((flow.delayTracker isDl).urgency now)

theorem boostsBase_of_rankFlow (h : config.Sensible) {e : QosEngine (Option ℚ)}
    (he : e.config = config.checked) (hflow : flow.Rankable isDl) (rnti : Rnti) (qfi bytes : ℕ) :
    BoostsBase (e.rankFlow now rnti qfi flow isDl bytes).1
      flow.params.characteristics.priorityLevel
      (gbrFactorOf config flow.isGbr (flow.gbrBps isDl) (rateOf flow isDl))
      (delayFactorOf config ((flow.delayTracker isDl).urgency now))
      (finalOf config flow isDl now) := by
  have hgbr := gbrBoost_checked h flow isDl
  have hurgency := urgency_checked hflow.pdb_pos now
  have hdelay := delayBoost_checked config ((flow.delayTracker isDl).urgency now)
  have hbase : Double.div (Double.ofNat 128)
      (Double.ofNat flow.params.characteristics.priorityLevel) =
        some (128 / flow.params.characteristics.priorityLevel : ℚ) := by
    rw [Double.ofNat_checked, Double.ofNat_checked,
      Double.div_ofNat_checked _ hflow.level_pos]
    rfl
  have hone : 1 ≤ gbrFactorOf config flow.isGbr (flow.gbrBps isDl) (rateOf flow isDl) :=
    one_le_gbrFactorOf h (Nat.cast_nonneg _) (Nat.cast_nonneg _)
  have hone' := one_le_delayFactorOf h ((flow.delayTracker isDl).urgency now)
  have hpos : (0 : ℚ) ≤ 128 / flow.params.characteristics.priorityLevel := by positivity
  refine ⟨hbase, ?_, hone, ?_, hone', ?_, ?_⟩
  · simp only [rankFlow, he]
    exact hgbr
  · simp only [rankFlow, he, hurgency]
    exact hdelay
  · simp only [rankFlow, he, hurgency, hbase, hgbr, hdelay, Double.mul_checked]
    rfl
  · rw [finalOf, mul_assoc]
    exact le_mul_of_one_le_right hpos (one_le_mul_of_one_le_of_one_le hone hone')

theorem finalOf_mono (h : config.Sensible) (hlevel : 0 < flow'.params.characteristics.priorityLevel)
    (hneed : NoLessNeedy isDl now now' flow flow') :
    finalOf config flow isDl now ≤ finalOf config flow' isDl now' := by
  have hgbrpos : (0 : ℚ) ≤ flow.gbrBps isDl := Nat.cast_nonneg _
  have hrate : rateOf flow' isDl ≤ rateOf flow isDl := Nat.cast_le.mpr hneed.rate
  have hbase : (128 : ℚ) / flow.params.characteristics.priorityLevel ≤
      128 / flow'.params.characteristics.priorityLevel :=
    div_le_div_of_nonneg_left (by norm_num) (Nat.cast_pos.mpr hlevel)
      (Nat.cast_le.mpr hneed.level)
  have hgbr : gbrFactorOf config flow.isGbr (flow.gbrBps isDl) (rateOf flow isDl) ≤
      gbrFactorOf config flow.isGbr (flow.gbrBps isDl) (rateOf flow' isDl) :=
    gbrFactorOf_antitone h hgbrpos (Nat.cast_nonneg _) hrate
  have hdelay := delayFactorOf_monotone h hneed.urgency
  have hone : 1 ≤ gbrFactorOf config flow.isGbr (flow.gbrBps isDl) (rateOf flow isDl) :=
    one_le_gbrFactorOf h hgbrpos (Nat.cast_nonneg _)
  have hone' := one_le_delayFactorOf h ((flow.delayTracker isDl).urgency now)
  rw [finalOf, finalOf, hneed.isGbr, hneed.gbrBps]
  exact mul_le_mul (mul_le_mul hbase hgbr (zero_le_one.trans hone) (by positivity)) hdelay
    (zero_le_one.trans hone') (mul_nonneg (by positivity) (zero_le_one.trans (hone.trans hgbr)))

/-- The call returns, and its result boosts the base of the level to the final priority. -/
def Ranks (e : QosEngine (Option ℚ)) (P : Platform) (rnti : Rnti) (qfi : ℕ) (isDl : Bool)
    (bytes level : ℕ) (final : ℚ) : Prop :=
  ∃ result e₁ gbr delay, ignoringLocks (e.calculatePriority P rnti qfi isDl bytes) =
    some (result, e₁) ∧ BoostsBase result level gbr delay final

theorem ranks_finalOf (h : config.Sensible) {e : QosEngine (Option ℚ)}
    (he : e.config = config.checked) {rnti : Rnti} {qfi : ℕ}
    (hflow : e.flow? rnti qfi = some flow) (hrank : flow.Rankable isDl) (P : Platform)
    (bytes : ℕ) : e.Ranks P rnti qfi isDl bytes flow.params.characteristics.priorityLevel
      (finalOf config flow isDl P.now) :=
  ⟨_, _, _, _, ignoringLocks_eq_some.mpr (calculatePriority_run hflow P isDl bytes),
    boostsBase_of_rankFlow h he hrank rnti qfi bytes⟩

theorem Ranks.unique {e : QosEngine (Option ℚ)} {P : Platform} {rnti : Rnti} {qfi bytes level : ℕ}
    {final final' : ℚ} (h : e.Ranks P rnti qfi isDl bytes level final)
    (h' : e.Ranks P rnti qfi isDl bytes level final') : final = final' := by
  obtain ⟨result, e₁, _, _, hrun, hboosts⟩ := h
  obtain ⟨result', e₁', _, _, hrun', hboosts'⟩ := h'
  obtain ⟨rfl, -⟩ := Prod.mk.inj (Option.some.inj (hrun.symm.trans hrun'))
  exact Option.some.inj (hboosts.finalPriority.symm.trans hboosts'.finalPriority)

/-- With a sensible configuration, the priority of every known flow with a level and a delay
budget is computed without a division by zero, neither factor is less than one, and the
priority not less than the base.  A state that is not behind in need has no smaller one. -/
theorem priority_monotone_in_need {config : QosEngineConfig ℚ} (hconfig : config.Sensible) :
    (∀ (e : QosEngine (Option ℚ)) (P : Platform) (rnti : Rnti) (qfi : ℕ) (flow : QosFlowState)
      (isDl : Bool) (bytes : ℕ), e.config = config.checked → e.flow? rnti qfi = some flow →
      flow.Rankable isDl →
      ∃ final, e.Ranks P rnti qfi isDl bytes flow.params.characteristics.priorityLevel final) ∧
    ∀ (e e' : QosEngine (Option ℚ)) (P P' : Platform) (rnti rnti' : Rnti) (qfi qfi' : ℕ)
      (flow flow' : QosFlowState) (isDl : Bool) (bytes bytes' : ℕ) (final final' : ℚ),
      e.config = config.checked → e'.config = config.checked →
      e.flow? rnti qfi = some flow → e'.flow? rnti' qfi' = some flow' →
      flow.Rankable isDl → flow'.Rankable isDl → NoLessNeedy isDl P.now P'.now flow flow' →
      e.Ranks P rnti qfi isDl bytes flow.params.characteristics.priorityLevel final →
      e'.Ranks P' rnti' qfi' isDl bytes' flow'.params.characteristics.priorityLevel final' →
      final ≤ final' := by
  constructor
  · intro e P rnti qfi flow isDl bytes he hflow hrank
    exact ⟨_, ranks_finalOf hconfig he hflow hrank P bytes⟩
  · intro e e' P P' rnti rnti' qfi qfi' flow flow' isDl bytes bytes' final final' he he' hflow
      hflow' hrank hrank' hneed hranks hranks'
    rw [hranks.unique (ranks_finalOf hconfig he hflow hrank P bytes),
      hranks'.unique (ranks_finalOf hconfig he' hflow' hrank' P' bytes')]
    exact finalOf_mono hconfig hrank'.level_pos hneed

/-- What is registered with the characteristics of a 5QI can be ranked. -/
theorem rankable_newFlow (fiveqi : ℕ) {params : QosFlowParams}
    (h : params.characteristics = get5qiCharacteristics fiveqi) (isDl : Bool) :
    (newFlow config now params).Rankable isDl := by
  obtain ⟨hlevel, hpdb⟩ := get5qiCharacteristics_pos fiveqi
  rw [← h] at hlevel hpdb
  refine ⟨hlevel, ?_⟩
  cases isDl <;> exact hpdb

theorem sensible_standard : (QosEngineConfig.standard : QosEngineConfig ℚ).Sensible :=
  ⟨by decide +kernel, by decide +kernel, by decide +kernel, by decide +kernel⟩

/-- One guaranteed flow, with data pending since the clock started or without. -/
def oneFlow (pending : Bool) : QosFlowState :=
  let flow := newFlow (QosEngineConfig.standard : QosEngineConfig ℚ) 0
    ⟨1, get5qiCharacteristics 1, 64000, 64000, 128000, 128000⟩
  if pending then flow.setDelayTracker true (flow.dlDelayTracker.packetArrived 0) else flow

def engineOf (flow : QosFlowState) : QosEngine (Option ℚ) :=
  { create (QosEngineConfig.checked .standard) with
    flows := AList.insert 7 (AList.insert 1 flow ∅) ∅ }

/-- The flow ninety milliseconds into a budget of a hundred, and without data. -/
theorem priority_monotone_in_need_urgent :
    ∃ final final',
      (engineOf (oneFlow false)).Ranks .plain 7 1 true 1000 20 final ∧
      (engineOf (oneFlow true)).Ranks { Platform.plain with now := 90000 } 7 1 true 1000 20
        final' ∧ final ≤ final' := by
  have hrank : ∀ pending, (oneFlow pending).Rankable true := by
    intro pending
    have hnew : (oneFlow false).Rankable true := rankable_newFlow 1 rfl true
    cases pending <;> exact ⟨hnew.level_pos, hnew.pdb_pos⟩
  have hneed : NoLessNeedy true 0 90000 (oneFlow false) (oneFlow true) :=
    ⟨rfl, rfl, by decide +kernel, by decide +kernel, le_rfl⟩
  obtain ⟨hvalue, hmono⟩ := priority_monotone_in_need sensible_standard
  obtain ⟨final, hfinal⟩ :=
    hvalue (engineOf (oneFlow false)) .plain 7 1 _ true 1000 rfl rfl (hrank false)
  obtain ⟨final', hfinal'⟩ := hvalue (engineOf (oneFlow true))
    { Platform.plain with now := 90000 } 7 1 _ true 1000 rfl rfl (hrank true)
  exact ⟨final, final', hfinal, hfinal', hmono _ _ .plain { Platform.plain with now := 90000 }
    _ _ _ _ _ _ _ _ _ _ _ rfl rfl rfl rfl (hrank false) (hrank true) hneed hfinal hfinal'⟩

end QosEngine

end NrScheduler
