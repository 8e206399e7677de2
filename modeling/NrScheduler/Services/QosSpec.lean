import NrScheduler.Services.Operations

/-!
# What the operations of the QoS engine do to its flows

Registering, removing and resetting change the flow table or its counters; every other
operation keeps the users, their flows and the parameters of those.
-/

namespace NrScheduler

open LockMonad

variable {D : Type}

namespace QosEngine

/-- The registered flows with their parameters. -/
def directory (e : QosEngine D) : List (Rnti × List (ℕ × QosFlowParams)) :=
  e.flows.entries.map fun ue ↦ (ue.1, ue.2.entries.map fun f ↦ (f.1, f.2.params))

/-- The flow table and the flow counters are the same. -/
structure SameFlows (e e' : QosEngine D) : Prop where
  directory : e'.directory = e.directory
  totalFlows : e'.stats.totalFlows = e.stats.totalFlows
  gbrFlows : e'.stats.gbrFlows = e.stats.gbrFlows

theorem SameFlows.refl (e : QosEngine D) : SameFlows e e := ⟨rfl, rfl, rfl⟩

theorem directory_setFlow {e : QosEngine D} {rnti : Rnti} {qfi : ℕ} {flow flow' : QosFlowState}
    (h : e.flow? rnti qfi = some flow) (hparams : flow'.params = flow.params) :
    (e.setFlow rnti qfi flow').directory = e.directory := by
  obtain ⟨ueFlows, hue, hflow⟩ := Option.bind_eq_some_iff.mp h
  simp only [directory, setFlow, AList.entries_modify, List.map_map]
  refine List.map_congr_left fun ue hmem ↦ ?_
  by_cases hrnti : ue.1 = rnti
  · obtain rfl : ue.2 = ueFlows := by
      have hlookup : e.flows.lookup rnti = some ue.2 :=
        AList.mem_lookup_iff.mpr (hrnti ▸ hmem)
      exact Option.some.inj (hlookup.symm.trans hue)
    simp only [Function.comp_apply, if_pos hrnti, AList.entries_modify, List.map_map]
    refine congrArg _ (List.map_congr_left fun f hf ↦ ?_)
    by_cases hqfi : f.1 = qfi
    · obtain rfl : f.2 = flow := by
        have hlookup : ue.2.lookup qfi = some f.2 := AList.mem_lookup_iff.mpr (hqfi ▸ hf)
        exact Option.some.inj (hlookup.symm.trans hflow)
      simp [hqfi, hparams]
    · simp [hqfi]
  · simp [hrnti]

theorem sameFlows_setFlow {e : QosEngine D} {rnti : Rnti} {qfi : ℕ} {flow flow' : QosFlowState}
    (h : e.flow? rnti qfi = some flow) (hparams : flow'.params = flow.params) :
    SameFlows e (e.setFlow rnti qfi flow') :=
  ⟨directory_setFlow h hparams, rfl, rfl⟩

theorem SameFlows.with_stats {e e' : QosEngine D} (h : SameFlows e e') {stats : QosStats D}
    (htotal : stats.totalFlows = e'.stats.totalFlows)
    (hgbr : stats.gbrFlows = e'.stats.gbrFlows) : SameFlows e { e' with stats := stats } :=
  ⟨h.directory, htotal.trans h.totalFlows, hgbr.trans h.gbrFlows⟩

theorem flow?_setFlow {e : QosEngine D} {rnti : Rnti} {qfi : ℕ} {flow flow' : QosFlowState}
    (h : e.flow? rnti qfi = some flow) :
    (e.setFlow rnti qfi flow').flow? rnti qfi = some flow' := by
  obtain ⟨ueFlows, hue, hflow⟩ := Option.bind_eq_some_iff.mp h
  rw [flow?, setFlow, AList.lookup_modify, if_pos rfl, hue, Option.map_some, Option.bind_some,
    AList.lookup_modify, if_pos rfl, hflow, Option.map_some]

theorem flow?_setFlow_ne {e : QosEngine D} {rnti rnti' : Rnti} {qfi qfi' : ℕ}
    (hne : ¬ (rnti = rnti' ∧ qfi = qfi')) (flow' : QosFlowState) :
    (e.setFlow rnti' qfi' flow').flow? rnti qfi = e.flow? rnti qfi := by
  rw [flow?, setFlow, AList.lookup_modify, flow?]
  by_cases hrnti : rnti = rnti'
  · have hqfi : qfi ≠ qfi' := fun hqfi ↦ hne ⟨hrnti, hqfi⟩
    rw [if_pos hrnti, ← hrnti]
    cases e.flows.lookup rnti with
    | none => rfl
    | some ueFlows => exact AList.lookup_modify_ne hqfi _ _
  · rw [if_neg hrnti]

theorem flow?_eq_some_iff {e : QosEngine D} {rnti : Rnti} {qfi : ℕ} {flow : QosFlowState} :
    e.flow? rnti qfi = some flow ↔
      ∃ ueFlows, ⟨rnti, ueFlows⟩ ∈ e.flows.entries ∧ ⟨qfi, flow⟩ ∈ ueFlows.entries := by
  rw [flow?, Option.bind_eq_some_iff]
  exact exists_congr fun ueFlows ↦ and_congr AList.mem_lookup_iff AList.mem_lookup_iff

theorem mem_listFlows {e : QosEngine D} {P : Platform} {p : QosFlowState → Bool} {rnti : Rnti}
    {qfi : ℕ} : (rnti, qfi) ∈ e.listFlows P p ↔
      ∃ flow, e.flow? rnti qfi = some flow ∧ p flow = true := by
  simp only [listFlows, List.mem_flatMap, List.mem_map, List.mem_filter, P.mem_hashOrder,
    flow?_eq_some_iff]
  constructor
  · rintro ⟨ue, hue, f, ⟨hf, hp⟩, heq⟩
    obtain ⟨rfl, rfl⟩ := Prod.mk.inj heq
    exact ⟨f.2, ⟨ue.2, hue, hf⟩, hp⟩
  · rintro ⟨flow, ⟨ueFlows, hue, hf⟩, hp⟩
    exact ⟨_, hue, _, ⟨hf, hp⟩, rfl⟩

/-! ## Setters keep the parameters -/

variable (f : QosFlowState) (isDl : Bool)

@[simp] theorem params_setBucket (b : TokenBucket) : (f.setBucket isDl b).params = f.params := by
  cases isDl <;> rfl

@[simp] theorem params_setGbrTracker (t : GbrTracker) :
    (f.setGbrTracker isDl t).params = f.params := by
  cases isDl <;> rfl

@[simp] theorem params_setDelayTracker (t : DelayTracker) :
    (f.setDelayTracker isDl t).params = f.params := by
  cases isDl <;> rfl

@[simp] theorem params_countBytes (bytes : ℕ) :
    (f.countBytes isDl bytes).params = f.params := by
  cases isDl <;> rfl

/-! ## Effects -/

def keeps (e : QosEngine D) : Operation D → Bool
  | .registerFlow _ _ | .resetStatistics => false
  | .removeFlow rnti qfi => (e.flow? rnti qfi).isNone
  | .removeUeFlows rnti => (e.flows.lookup rnti).isNone
  | _ => true

variable [Double D]

/-- What an operation on the table or its counters does. -/
inductive Effect (e : QosEngine D) (P : Platform) : Operation D → QosEngine D → Prop
  | registered {rnti params} :
      Effect e P (.registerFlow rnti params) { e with
        flows := e.flows.insert rnti
          (((e.flows.lookup rnti).getD ∅).insert params.qfi (newFlow e.config P.now params))
        stats := { e.stats with
          gbrFlows := if (newFlow e.config P.now params).isGbr then
            (e.stats.gbrFlows + 1) % 2 ^ 64 else e.stats.gbrFlows
          totalFlows := (e.stats.totalFlows + 1) % 2 ^ 64 } }
  | removed {rnti qfi flow} (h : e.flow? rnti qfi = some flow) :
      Effect e P (.removeFlow rnti qfi) { e with
        flows := e.flows.modify rnti fun ueFlows ↦ ueFlows.erase qfi
        stats := e.stats.dropFlow flow }
  | removedUe {rnti ueFlows} (h : e.flows.lookup rnti = some ueFlows) :
      Effect e P (.removeUeFlows rnti) { e with
        flows := e.flows.erase rnti
        stats := ueFlows.entries.foldl (fun s f ↦ s.dropFlow f.2) e.stats }
  | reset : Effect e P .resetStatistics { e with stats := .zero }

theorem calculatePriority_run {e : QosEngine D} {rnti : Rnti} {qfi : ℕ} {flow : QosFlowState}
    (hflow : e.flow? rnti qfi = some flow) (P : Platform) (isDl : Bool) (bufferBytes : ℕ) :
    (e.calculatePriority P rnti qfi isDl bufferBytes).run none =
      .ok (e.rankFlow P.now rnti qfi flow isDl bufferBytes) := by
  rw [calculatePriority, withLock_run_none, hflow]
  rfl

theorem sameFlows_rankFlow {e : QosEngine D} {now : ℕ} {rnti : Rnti} {qfi : ℕ}
    {flow : QosFlowState} {isDl : Bool} {bufferBytes : ℕ} (h : e.flow? rnti qfi = some flow) :
    SameFlows e (e.rankFlow now rnti qfi flow isDl bufferBytes).2 := by
  simp only [rankFlow]
  split
  · exact (sameFlows_setFlow h (by simp)).with_stats rfl rfl
  · exact (SameFlows.refl e).with_stats rfl rfl

omit [Double D] in
theorem directory_onSlotTick (e : QosEngine D) (now : ℕ) :
    directory { e with flows := e.flows.mapValues fun u ↦ u.mapValues (tickFlow now) } =
      e.directory := by
  simp [directory, AList.mapValues, List.map_map, Function.comp_def, tickFlow]

/-- Every operation returns; it keeps the table, or it has its effect. -/
theorem next_spec (e : QosEngine D) (P : Platform) (op : Operation D) :
    ∃ e', e.next (P, op) = some e' ∧
      (e.keeps op = true ∧ SameFlows e e' ∨ e.keeps op = false ∧ Effect e P op e') := by
  have hsame := SameFlows.refl e
  cases op with
  | registerFlow rnti params => exact ⟨_, rfl, Or.inr ⟨rfl, .registered⟩⟩
  | resetStatistics => exact ⟨_, rfl, Or.inr ⟨rfl, .reset⟩⟩
  | removeFlow rnti qfi =>
      simp only [next, perform, removeFlow, keeps]
      cases h : e.flow? rnti qfi with
      | none => exact ⟨e, rfl, Or.inl ⟨rfl, hsame⟩⟩
      | some flow => exact ⟨_, rfl, Or.inr ⟨rfl, .removed h⟩⟩
  | removeUeFlows rnti =>
      simp only [next, perform, removeUeFlows, keeps]
      cases h : e.flows.lookup rnti with
      | none => exact ⟨e, rfl, Or.inl ⟨rfl, hsame⟩⟩
      | some ueFlows => exact ⟨_, rfl, Or.inr ⟨rfl, .removedUe h⟩⟩
  | calculatePriority rnti qfi isDl bufferBytes =>
      simp only [next, perform, calculatePriority]
      cases h : e.flow? rnti qfi with
      | none => exact ⟨e, rfl, Or.inl ⟨rfl, hsame⟩⟩
      | some flow => exact ⟨_, rfl, Or.inl ⟨rfl, sameFlows_rankFlow h⟩⟩
  | getAllowedBytes rnti qfi isDl =>
      simp only [next, perform, getAllowedBytes]
      cases h : e.flow? rnti qfi with
      | none => exact ⟨e, rfl, Or.inl ⟨rfl, hsame⟩⟩
      | some flow => exact ⟨_, rfl, Or.inl ⟨rfl, sameFlows_setFlow h (by simp)⟩⟩
  | reportTransmission rnti qfi isDl bytes =>
      simp only [next, perform, reportTransmission]
      cases h : e.flow? rnti qfi with
      | none => exact ⟨e, rfl, Or.inl ⟨rfl, hsame⟩⟩
      | some flow => exact ⟨_, rfl, Or.inl ⟨rfl, sameFlows_setFlow h (by simp)⟩⟩
  | notifyDataArrival rnti qfi isDl =>
      simp only [next, perform, notifyDataArrival]
      cases h : e.flow? rnti qfi with
      | none => exact ⟨e, rfl, Or.inl ⟨rfl, hsame⟩⟩
      | some flow => exact ⟨_, rfl, Or.inl ⟨rfl, sameFlows_setFlow h (by simp)⟩⟩
  | notifyDataTransmitted rnti qfi isDl =>
      simp only [next, perform, notifyDataTransmitted]
      cases h : e.flow? rnti qfi with
      | none => exact ⟨e, rfl, Or.inl ⟨rfl, hsame⟩⟩
      | some flow =>
          refine ⟨_, rfl, Or.inl ⟨rfl, ?_⟩⟩
          dsimp only
          split
          · exact (sameFlows_setFlow h (by simp)).with_stats rfl rfl
          · exact sameFlows_setFlow h (by simp)
  | onSlotTick => exact ⟨_, rfl, Or.inl ⟨rfl, e.directory_onSlotTick P.now, rfl, rfl⟩⟩
  | updateConfig config => exact ⟨_, rfl, Or.inl ⟨rfl, rfl, rfl, rfl⟩⟩
  | _ => exact ⟨e, rfl, Or.inl ⟨rfl, hsame⟩⟩

end QosEngine

end NrScheduler
