import NrScheduler.Services.QosSpec

/-!
# When a flow is delay-critical

The list of critical flows compares an urgency with a fixed threshold, and a priority compares
it with the configured margin.  The two verdicts on a flow differ exactly if an urgency lies
above only one of them and no urgency of the flow lies above both.
-/

namespace NrScheduler

open LockMonad

namespace QosEngine

variable {D : Type}

section Verdicts

variable [Double D] {e : QosEngine D} {P : Platform}

/-- A flow is listed exactly if its priority is critical in one of the directions. -/
def VerdictsAgree (e : QosEngine D) (P : Platform) : Prop :=
  ∃ critical, (e.getDelayCriticalFlows P).run none = .ok critical ∧
    ∀ rnti qfi bufferBytes, (rnti, qfi) ∈ critical ↔ ∃ isDl result e',
      (e.calculatePriority P rnti qfi isDl bufferBytes).run none = .ok (result, e') ∧
        result.isDelayCritical = true

/-- Whether an urgency of a flow is above a threshold. -/
def exceeds (threshold : D) (now : ℕ) (flow : QosFlowState) (isDl : Bool) : Bool :=
  Double.lt threshold ((flow.delayTracker isDl).urgency now)

theorem mem_critical_iff {critical : List (Rnti × ℕ)}
    (h : (e.getDelayCriticalFlows P).run none = .ok critical) {rnti : Rnti} {qfi : ℕ} :
    (rnti, qfi) ∈ critical ↔ ∃ flow, e.flow? rnti qfi = some flow ∧
      ∃ isDl, exceeds (Double.ratio 8 10 : D) P.now flow isDl = true := by
  cases h
  rw [mem_listFlows]
  refine exists_congr fun flow ↦ and_congr_right fun _ ↦ ?_
  rw [Bool.or_eq_true, Bool.exists_bool, or_comm]
  rfl

theorem exists_isDelayCritical_iff {rnti : Rnti} {qfi bufferBytes : ℕ} :
    (∃ isDl result e', (e.calculatePriority P rnti qfi isDl bufferBytes).run none =
        .ok (result, e') ∧ result.isDelayCritical = true) ↔
      ∃ flow, e.flow? rnti qfi = some flow ∧
        ∃ isDl, exceeds e.config.delayMarginFactor P.now flow isDl = true := by
  cases hflow : e.flow? rnti qfi with
  | none =>
      refine iff_of_false ?_ (fun ⟨flow, hsome, _⟩ ↦ by cases hsome)
      rintro ⟨isDl, result, e', hresult, hcritical⟩
      rw [calculatePriority, withLock_run_none, hflow] at hresult
      cases hresult
      cases hcritical
  | some flow =>
      constructor
      · rintro ⟨isDl, result, e', hresult, hcritical⟩
        rw [calculatePriority_run hflow] at hresult
        cases hresult
        exact ⟨flow, rfl, isDl, hcritical⟩
      · rintro ⟨_, ⟨⟩, isDl, hcritical⟩
        exact ⟨isDl, _, _, calculatePriority_run hflow P isDl bufferBytes, hcritical⟩

theorem verdictsAgree_iff_exceeds : e.VerdictsAgree P ↔
    ∀ rnti qfi flow, e.flow? rnti qfi = some flow →
      ((∃ isDl, exceeds (Double.ratio 8 10 : D) P.now flow isDl = true) ↔
        ∃ isDl, exceeds e.config.delayMarginFactor P.now flow isDl = true) := by
  constructor
  · rintro ⟨critical, hrun, h⟩ rnti qfi flow hflow
    have hsame := h rnti qfi 0
    rw [mem_critical_iff hrun, exists_isDelayCritical_iff, hflow] at hsame
    simpa using hsame
  · intro h
    refine ⟨_, rfl, fun rnti qfi bufferBytes ↦ ?_⟩
    rw [mem_critical_iff rfl, exists_isDelayCritical_iff]
    exact exists_congr fun flow ↦ and_congr_right fun hflow ↦ h rnti qfi flow hflow

end Verdicts

/-! ## Two thresholds -/

/-- Each urgency of the flow is above both thresholds or none, or one of them is above both. -/
def ThresholdsAgree [Double D] (margin : D) (now : ℕ) (flow : QosFlowState) : Prop :=
  (∀ isDl, exceeds (Double.ratio 8 10 : D) now flow isDl = exceeds margin now flow isDl) ∨
    ∃ isDl, exceeds (Double.ratio 8 10 : D) now flow isDl = true ∧
      exceeds margin now flow isDl = true

variable [OrderedDouble D] {e : QosEngine D} {P : Platform}

/-- Two directions cannot make up for each other: if one urgency is above the first threshold
and one above the second, then one is above both. -/
theorem exists_exceeds_both {threshold margin : D} {now : ℕ} {flow : QosFlowState}
    {isDl isDl' : Bool} (h : exceeds threshold now flow isDl = true)
    (h' : exceeds margin now flow isDl' = true) :
    ∃ isDl, exceeds threshold now flow isDl = true ∧ exceeds margin now flow isDl = true := by
  rcases OrderedDouble.lt_or_lt _ _ _ _ h h' with hcross | hcross
  · exact ⟨isDl', hcross, h'⟩
  · exact ⟨isDl, h, hcross⟩

/-- The verdicts agree exactly if the two thresholds agree on every flow. -/
theorem verdictsAgree_iff_thresholdsAgree : e.VerdictsAgree P ↔
    ∀ rnti qfi flow, e.flow? rnti qfi = some flow →
      ThresholdsAgree e.config.delayMarginFactor P.now flow := by
  rw [verdictsAgree_iff_exceeds]
  refine forall_congr' fun rnti ↦ forall_congr' fun qfi ↦ forall_congr' fun flow ↦
    imp_congr_right fun _ ↦ ?_
  constructor
  · intro hsame
    by_cases hlisted : ∃ isDl, exceeds (Double.ratio 8 10 : D) P.now flow isDl = true
    · obtain ⟨isDl', h'⟩ := hsame.mp hlisted
      obtain ⟨isDl, h⟩ := hlisted
      exact Or.inr (exists_exceeds_both h h')
    · refine Or.inl fun isDl ↦ ?_
      rw [Bool.eq_false_iff.mpr fun h ↦ hlisted ⟨isDl, h⟩,
        Bool.eq_false_iff.mpr fun h ↦ hlisted (hsame.mpr ⟨isDl, h⟩)]
  · rintro (hall | ⟨isDl, h, h'⟩)
    · exact exists_congr fun isDl ↦ by rw [hall isDl]
    · exact iff_of_true ⟨isDl, h⟩ ⟨isDl, h'⟩

/-- A flow with a budget of ten milliseconds, and a packet that arrives at once. -/
def onePacket : List (Platform × Operation ℚ) :=
  [(.plain, .registerFlow 7 ⟨82, ⟨.delayC, 19, 10⟩, 0, 0, 0, 0⟩),
    (.plain, .notifyDataArrival 7 82 true)]

/-- With a margin of nine tenths, after nine milliseconds the flow is listed, and its priority
is not critical. -/
theorem not_verdictsAgree : ∃ e,
    onePacket.foldlM next (create { QosEngineConfig.standard with
      delayMarginFactor := Double.ratio 9 10 }) = some e ∧
    ¬ e.VerdictsAgree { Platform.plain with now := 9000 } := by
  refine ⟨_, rfl, fun h ↦ ?_⟩
  have hsame := verdictsAgree_iff_exceeds.mp h 7 82 _ rfl
  exact absurd hsame (by decide +kernel)

end QosEngine

end NrScheduler
