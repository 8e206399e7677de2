import NrScheduler.Lib.Runs
import NrScheduler.Services.QosSpec

/-!
# Flow isolation

The QoS engine is a bank of independent flows: all it answers about a flow follows from the
operations that concern this flow, whatever happens to the others.
-/

namespace NrScheduler

open LockMonad

variable {D : Type} [Double D]

namespace QosEngine

/-! ## One flow -/

/-- What can be seen of a flow. -/
structure FlowView (D : Type) where
  config : QosEngineConfig D
  flow : Option QosFlowState

def view (rnti : Rnti) (qfi : ℕ) (e : QosEngine D) : FlowView D := ⟨e.config, e.flow? rnti qfi⟩

def refilled (now : ℕ) (isDl : Bool) (f : QosFlowState) : QosFlowState :=
  f.setBucket isDl ((f.bucket isDl).update now)

def charged (now : ℕ) (isDl : Bool) (bytes : ℕ) (f : QosFlowState) : QosFlowState :=
  let bucket := (f.bucket isDl).update now
  let f' := f.setBucket isDl { bucket with tokens := toInt64 (bucket.tokens - bytes) }
  (f'.setGbrTracker isDl ((f.gbrTracker isDl).addSample now bytes)).countBytes isDl bytes

def arrived (now : ℕ) (isDl : Bool) (f : QosFlowState) : QosFlowState :=
  f.setDelayTracker isDl ((f.delayTracker isDl).packetArrived now)

def departed (D : Type) [Double D] (now : ℕ) (isDl : Bool) (f : QosFlowState) :
    QosFlowState :=
  let f' := f.setDelayTracker isDl (f.delayTracker isDl).packetTransmitted
  if Double.lt (Double.ofNat 1) ((f.delayTracker isDl).urgency now : D) then
    { f' with pdbViolations := (f.pdbViolations + 1) % 2 ^ 32 }
  else f'

namespace Operation

/-- The operation is about the flow, or about all flows. -/
def concerns (rnti : Rnti) (qfi : ℕ) : Operation D → Bool
  | .registerFlow r params => r == rnti && params.qfi == qfi
  | .removeUeFlows r => r == rnti
  | .removeFlow r q | .calculatePriority r q _ _ | .getAllowedBytes r q _
  | .reportTransmission r q _ _ | .notifyDataArrival r q _ | .notifyDataTransmitted r q _ =>
      r == rnti && q == qfi
  | .updateConfig _ | .onSlotTick => true
  | _ => false

/-- What an operation on a single flow that exists does to it. -/
def revision (config : QosEngineConfig D) (now : ℕ) :
    Operation D → Option ((Rnti × ℕ) × (QosFlowState → QosFlowState))
  | .calculatePriority r q isDl _ =>
      some ((r, q), if config.enableMbrEnforcement then refilled now isDl else id)
  | .getAllowedBytes r q isDl => some ((r, q), refilled now isDl)
  | .reportTransmission r q isDl bytes => some ((r, q), charged now isDl bytes)
  | .notifyDataArrival r q isDl => some ((r, q), arrived now isDl)
  | .notifyDataTransmitted r q isDl => some ((r, q), departed D now isDl)
  | _ => none

end Operation

/-- What is seen of a flow after an operation that concerns it. -/
def FlowView.next (v : FlowView D) (i : Platform × Operation D) : FlowView D :=
  match i.2 with
  | .registerFlow _ params => { v with flow := some (newFlow v.config i.1.now params) }
  | .removeFlow _ _ | .removeUeFlows _ => { v with flow := none }
  | .updateConfig config => { v with config := config }
  | .onSlotTick => { v with flow := v.flow.map (tickFlow i.1.now) }
  | op => { v with flow := v.flow.map (((op.revision v.config i.1.now).map Prod.snd).getD id) }

/-! ## One operation -/

variable {e e' : QosEngine D} {rnti : Rnti} {qfi : ℕ}

omit [Double D] in
theorem flow?_setFlow_map {f : QosFlowState} (h : e.flow? rnti qfi = some f)
    (g : QosFlowState → QosFlowState) (r : Rnti) (q : ℕ) :
    (e.setFlow rnti qfi (g f)).flow? r q =
      if rnti = r ∧ qfi = q then (e.flow? r q).map g else e.flow? r q := by
  by_cases hkey : rnti = r ∧ qfi = q
  · obtain ⟨rfl, rfl⟩ := hkey
    rw [if_pos ⟨rfl, rfl⟩, flow?_setFlow h, h, Option.map_some]
  · rw [if_neg hkey, flow?_setFlow_ne]
    rintro ⟨rfl, rfl⟩
    exact hkey ⟨rfl, rfl⟩

/-- The flow under a key is revised, if it exists, and no other. -/
def Revises (e : QosEngine D) (rnti : Rnti) (qfi : ℕ) (g : QosFlowState → QosFlowState)
    (e' : QosEngine D) : Prop :=
  e'.config = e.config ∧ ∀ r q, e'.flow? r q =
    if rnti = r ∧ qfi = q then (e.flow? r q).map g else e.flow? r q

omit [Double D] in
theorem Revises.of_unknown (h : e.flow? rnti qfi = none) (g : QosFlowState → QosFlowState) :
    e.Revises rnti qfi g e := by
  refine ⟨rfl, fun r q ↦ ?_⟩
  split
  · rename_i hkey
    rw [← hkey.1, ← hkey.2, h, Option.map_none]
  · rfl

omit [Double D] in
theorem Revises.of_known {flow : QosFlowState} {g : QosFlowState → QosFlowState}
    (h : e.flow? rnti qfi = some flow) (hconfig : e'.config = e.config)
    (hflows : e'.flows = (e.setFlow rnti qfi (g flow)).flows) : e.Revises rnti qfi g e' := by
  refine ⟨hconfig, fun r q ↦ ?_⟩
  rw [← flow?_setFlow_map h, flow?, hflows]
  rfl

theorem revises_rankFlow {flow : QosFlowState} (h : e.flow? rnti qfi = some flow) (now : ℕ)
    (isDl : Bool) (bufferBytes : ℕ) :
    e.Revises rnti qfi (if e.config.enableMbrEnforcement then refilled now isDl else id)
      (e.rankFlow now rnti qfi flow isDl bufferBytes).2 := by
  simp only [rankFlow]
  cases e.config.enableMbrEnforcement with
  | true => exact .of_known h rfl rfl
  | false =>
      have hid : (if false = true then refilled now isDl else id) = id :=
        if_neg Bool.false_ne_true
      refine ⟨rfl, fun r q ↦ ?_⟩
      rw [hid, Option.map_id, id, ite_self]
      rfl

/-- An operation on a single flow revises it. -/
theorem revises_next {P : Platform} {op : Operation D} {g : QosFlowState → QosFlowState}
    (hop : op.revision e.config P.now = some ((rnti, qfi), g)) (h : e.next (P, op) = some e') :
    e.Revises rnti qfi g e' := by
  cases hflow : e.flow? rnti qfi with
  | none =>
      have hself : e' = e := by
        cases op with
        | calculatePriority _ _ _ _ | getAllowedBytes _ _ _ | reportTransmission _ _ _ _
        | notifyDataArrival _ _ _ | notifyDataTransmitted _ _ _ =>
            cases hop
            simp only [next, perform, calculatePriority, getAllowedBytes, reportTransmission,
              notifyDataArrival, notifyDataTransmitted, hflow] at h
            cases h
            rfl
        | _ => cases hop
      rw [hself]
      exact .of_unknown hflow g
  | some flow =>
      cases op with
      | calculatePriority r q isDl bufferBytes =>
          cases hop
          simp only [next, perform, calculatePriority, hflow] at h
          cases h
          exact revises_rankFlow hflow P.now isDl bufferBytes
      | notifyDataTransmitted r q isDl =>
          cases hop
          simp only [next, perform, notifyDataTransmitted, hflow] at h
          have hlate : ∀ f : QosFlowState, departed D P.now isDl flow = f →
              (e.setFlow rnti qfi f).flows =
                (e.setFlow rnti qfi (departed D P.now isDl flow)).flows :=
            fun f hf ↦ by rw [hf]
          split at h
          · rename_i hover
            cases h
            exact .of_known hflow rfl (hlate _ (if_pos hover))
          · rename_i hintime
            cases h
            exact .of_known hflow rfl (hlate _ (if_neg hintime))
      | getAllowedBytes _ _ _ | reportTransmission _ _ _ _ | notifyDataArrival _ _ _ =>
          cases hop
          simp only [next, perform, getAllowedBytes, reportTransmission, notifyDataArrival,
            hflow] at h
          cases h
          exact .of_known hflow rfl rfl
      | _ => cases hop

theorem FlowView.next_of_revision (rnti : Rnti) (qfi : ℕ) (v : FlowView D) {P : Platform}
    {op : Operation D} {r : Rnti} {q : ℕ} {g : QosFlowState → QosFlowState}
    (h : op.revision v.config P.now = some ((r, q), g)) :
    v.next (P, op) = { v with flow := v.flow.map g } ∧
      op.concerns rnti qfi = (r == rnti && q == qfi) := by
  cases op with
  | calculatePriority _ _ _ _ | getAllowedBytes _ _ _ | reportTransmission _ _ _ _
  | notifyDataArrival _ _ _ | notifyDataTransmitted _ _ _ =>
      cases h
      exact ⟨rfl, rfl⟩
  | _ => cases h

theorem flow?_registerFlow {r : Rnti} {params : QosFlowParams} {P : Platform}
    (h : e.next (P, .registerFlow r params) = some e') :
    e'.config = e.config ∧ ∀ rnti qfi, e'.flow? rnti qfi =
      if r = rnti ∧ params.qfi = qfi then some (newFlow e.config P.now params)
      else e.flow? rnti qfi := by
  cases h
  refine ⟨rfl, fun rnti qfi ↦ ?_⟩
  simp only [flow?]
  by_cases hrnti : r = rnti
  · subst hrnti
    rw [AList.lookup_insert, Option.bind_some]
    by_cases hqfi : params.qfi = qfi
    · subst hqfi
      rw [AList.lookup_insert, if_pos ⟨rfl, rfl⟩]
    · rw [AList.lookup_insert_ne (Ne.symm hqfi), if_neg fun hkey ↦ hqfi hkey.2]
      cases e.flows.lookup r <;> rfl
  · rw [AList.lookup_insert_ne (Ne.symm hrnti), if_neg fun hkey ↦ hrnti hkey.1]

theorem flow?_removeFlow {r : Rnti} {q : ℕ} {P : Platform}
    (h : e.next (P, .removeFlow r q) = some e') :
    e'.config = e.config ∧ ∀ rnti qfi, e'.flow? rnti qfi =
      if r = rnti ∧ q = qfi then none else e.flow? rnti qfi := by
  cases hflow : e.flow? r q with
  | none =>
      simp only [next, perform, removeFlow, hflow] at h
      cases h
      refine ⟨rfl, fun rnti qfi ↦ ?_⟩
      split
      · rename_i hkey
        rw [← hkey.1, ← hkey.2, hflow]
      · rfl
  | some flow =>
      simp only [next, perform, removeFlow, hflow] at h
      cases h
      refine ⟨rfl, fun rnti qfi ↦ ?_⟩
      simp only [flow?, AList.lookup_modify]
      by_cases hrnti : r = rnti
      · subst hrnti
        rw [if_pos rfl]
        cases e.flows.lookup r with
        | none => rw [Option.map_none, Option.bind_none, ite_self]
        | some ueFlows =>
            rw [Option.map_some, Option.bind_some, Option.bind_some]
            by_cases hqfi : q = qfi
            · rw [if_pos ⟨rfl, hqfi⟩, hqfi, AList.lookup_erase]
            · rw [if_neg fun hkey ↦ hqfi hkey.2, AList.lookup_erase_ne (Ne.symm hqfi)]
      · rw [if_neg (Ne.symm hrnti), if_neg fun hkey ↦ hrnti hkey.1]

theorem flow?_removeUeFlows {r : Rnti} {P : Platform}
    (h : e.next (P, .removeUeFlows r) = some e') :
    e'.config = e.config ∧ ∀ rnti qfi, e'.flow? rnti qfi =
      if r = rnti then none else e.flow? rnti qfi := by
  cases hue : e.flows.lookup r with
  | none =>
      simp only [next, perform, removeUeFlows, hue] at h
      cases h
      refine ⟨rfl, fun rnti qfi ↦ ?_⟩
      split
      · rename_i hrnti
        rw [← hrnti, flow?, hue, Option.bind_none]
      · rfl
  | some ueFlows =>
      simp only [next, perform, removeUeFlows, hue] at h
      cases h
      refine ⟨rfl, fun rnti qfi ↦ ?_⟩
      simp only [flow?]
      by_cases hrnti : r = rnti
      · rw [if_pos hrnti, hrnti, AList.lookup_erase, Option.bind_none]
      · rw [if_neg hrnti, AList.lookup_erase_ne (Ne.symm hrnti)]

/-- What is seen of a flow changes with the operations that concern it alone. -/
theorem view_next (rnti : Rnti) (qfi : ℕ) {i : Platform × Operation D} (h : e.next i = some e') :
    e'.view rnti qfi =
      if i.2.concerns rnti qfi then (e.view rnti qfi).next i else e.view rnti qfi := by
  obtain ⟨P, op⟩ := i
  cases hrevision : op.revision e.config P.now with
  | some revision =>
      obtain ⟨⟨r, q⟩, g⟩ := revision
      obtain ⟨hconfig, hflow⟩ := revises_next hrevision h
      obtain ⟨hnext, hconcerns⟩ :=
        FlowView.next_of_revision rnti qfi (e.view rnti qfi) hrevision
      simp only [view, hconfig, hflow, hconcerns, Bool.and_eq_true, beq_iff_eq]
      split
      · exact hnext.symm
      · rfl
  | none =>
      cases op with
      | registerFlow r params =>
          obtain ⟨hconfig, hflow⟩ := flow?_registerFlow h
          simp only [view, hconfig, hflow, Operation.concerns, Bool.and_eq_true, beq_iff_eq]
          split <;> rfl
      | removeFlow r q =>
          obtain ⟨hconfig, hflow⟩ := flow?_removeFlow h
          simp only [view, hconfig, hflow, Operation.concerns, Bool.and_eq_true, beq_iff_eq]
          split <;> rfl
      | removeUeFlows r =>
          obtain ⟨hconfig, hflow⟩ := flow?_removeUeFlows h
          simp only [view, hconfig, hflow, Operation.concerns, beq_iff_eq]
          split <;> rfl
      | onSlotTick =>
          cases h
          simp only [view, flow?, Operation.concerns, if_true, FlowView.next,
            AList.lookup_mapValues]
          cases e.flows.lookup rnti with
          | none => rfl
          | some ueFlows =>
              simp only [Option.map_some, Option.bind_some, AList.lookup_mapValues]
      | updateConfig _ | resetStatistics | getDelayCriticalFlows | getCurrentRate _ _ _
      | getGbrDeficit _ _ _ | getGbrDeficitFlows | getStatistics _ =>
          cases h
          rfl
      | _ => cases hrevision

/-! ## Runs -/

theorem view_of_run {config : QosEngineConfig D} {is : List (Platform × Operation D)}
    (h : is.foldlM next (create config) = some e) :
    e.view rnti qfi =
      (is.filter fun i ↦ i.2.concerns rnti qfi).foldl FlowView.next ⟨config, none⟩ := by
  have hview : (create config).view rnti qfi = ⟨config, none⟩ := rfl
  rw [← hview]
  apply Runs.foldlM_projected ?_ h
  exact fun _ _ _ hstep ↦ view_next rnti qfi hstep

/-- Two engines answer alike whatever they are asked about the flow. -/
structure SameAnswers (rnti : Rnti) (qfi : ℕ) (e f : QosEngine D) : Prop where
  priority : ∀ P isDl bytes, (ignoringLocks (f.calculatePriority P rnti qfi isDl bytes)).map
    Prod.fst = (ignoringLocks (e.calculatePriority P rnti qfi isDl bytes)).map Prod.fst
  allowed : ∀ P isDl, (ignoringLocks (f.getAllowedBytes P rnti qfi isDl)).map Prod.fst =
    (ignoringLocks (e.getAllowedBytes P rnti qfi isDl)).map Prod.fst
  rate : ∀ isDl, ignoringLocks (f.getCurrentRate rnti qfi isDl) =
    ignoringLocks (e.getCurrentRate rnti qfi isDl)
  deficit : ∀ isDl, ignoringLocks (f.getGbrDeficit rnti qfi isDl) =
    ignoringLocks (e.getGbrDeficit rnti qfi isDl)
  critical : ∀ P, (ignoringLocks (f.getDelayCriticalFlows P)).map
      (fun keys ↦ decide ((rnti, qfi) ∈ keys)) =
    (ignoringLocks (e.getDelayCriticalFlows P)).map fun keys ↦ decide ((rnti, qfi) ∈ keys)
  behind : ∀ P, (ignoringLocks (f.getGbrDeficitFlows P)).map
      (fun keys ↦ decide ((rnti, qfi) ∈ keys)) =
    (ignoringLocks (e.getGbrDeficitFlows P)).map fun keys ↦ decide ((rnti, qfi) ∈ keys)

omit [Double D] in
theorem mem_listFlows_congr {f : QosEngine D} (hflow : f.flow? rnti qfi = e.flow? rnti qfi)
    (P : Platform) (p : QosFlowState → Bool) :
    (rnti, qfi) ∈ f.listFlows P p ↔ (rnti, qfi) ∈ e.listFlows P p := by
  rw [mem_listFlows, mem_listFlows, hflow]

theorem sameAnswers_of_view {f : QosEngine D} (h : f.view rnti qfi = e.view rnti qfi) :
    SameAnswers rnti qfi e f := by
  obtain ⟨hconfig, hflow⟩ := FlowView.mk.inj h
  constructor
  case priority =>
    intro P isDl bytes
    simp only [calculatePriority, hflow]
    cases e.flow? rnti qfi with
    | none => rfl
    | some flow =>
        refine congrArg some ?_
        simp only [rankFlow, hconfig]
  case allowed =>
    intro P isDl
    simp only [getAllowedBytes, hflow]
    cases e.flow? rnti qfi <;> rfl
  case rate =>
    intro isDl
    simp only [getCurrentRate, hflow]
  case deficit =>
    intro isDl
    simp only [getGbrDeficit, hflow]
  case critical =>
    intro P
    refine congrArg some (decide_eq_decide.mpr ?_)
    exact mem_listFlows_congr hflow P _
  case behind =>
    intro P
    refine congrArg some (decide_eq_decide.mpr ?_)
    rw [hconfig]
    exact mem_listFlows_congr hflow P _

/-- Runs with the same operations on a flow lead to the same answers about it, whatever else is
done in either of them. -/
theorem answers_of_run {config : QosEngineConfig D} {is js : List (Platform × Operation D)}
    (hsame : (is.filter fun i ↦ i.2.concerns rnti qfi) =
      js.filter fun j ↦ j.2.concerns rnti qfi) {f : QosEngine D}
    (h : is.foldlM next (create config) = some e)
    (h' : js.foldlM next (create config) = some f) : SameAnswers rnti qfi e f := by
  apply sameAnswers_of_view
  rw [view_of_run h', view_of_run h, hsame]

/-- A user that exceeds its own rate takes nothing from another. -/
theorem answers_of_run_greedy :
    let params : QosFlowParams := ⟨1, ⟨.gbr, 20, 100⟩, 1000, 1000, 80000, 80000⟩
    let own : List (Platform × QosEngine.Operation ℚ) :=
      [(.plain, .registerFlow 7 params), (.plain, .reportTransmission 7 1 true 40)]
    let all : List (Platform × QosEngine.Operation ℚ) :=
      [(.plain, .registerFlow 8 params), (.plain, .registerFlow 7 params),
        (.plain, .reportTransmission 8 1 true 4000), (.plain, .reportTransmission 7 1 true 40),
        (.plain, .calculatePriority 8 1 true 500), (.plain, .removeUeFlows 8)]
    ∃ e f : QosEngine ℚ, own.foldlM next (create .standard) = some e ∧
      all.foldlM next (create .standard) = some f ∧ SameAnswers 7 1 e f ∧
      (ignoringLocks (f.getAllowedBytes .plain 7 1 true)).map Prod.fst = some 60 := by
  intro params own all
  have hown : (own.foldlM next (create .standard)).isSome = true := by decide +kernel
  have hall : (all.foldlM next (create .standard)).any (fun f ↦
      (ignoringLocks (f.getAllowedBytes .plain 7 1 true)).map Prod.fst == some 60) = true := by
    decide +kernel
  obtain ⟨e, he⟩ := Option.isSome_iff_exists.mp hown
  obtain ⟨f, hf, hallowed⟩ := (Option.any_eq_true _ _).mp hall
  have hsame : (own.filter fun i ↦ i.2.concerns 7 1) = all.filter fun i ↦ i.2.concerns 7 1 :=
    rfl
  exact ⟨e, f, he, hf, answers_of_run hsame he hf, beq_iff_eq.mp hallowed⟩

end QosEngine

end NrScheduler
