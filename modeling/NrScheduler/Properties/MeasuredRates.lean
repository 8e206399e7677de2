import NrScheduler.Properties.FlowIsolation
import NrScheduler.Properties.RateWindow

/-!
# What guaranteed rates are measured on

A flow has the log of all that was reported as sent for it since it was registered.  The engine
keeps the end of it, and every answer about a guaranteed rate is computed from the samples in the
window before the last of them, with the width that was configured when the flow was registered.
-/

namespace NrScheduler

open LockMonad SlidingWindow

variable {D : Type} [Double D]

/-! ## Logs -/

/-- Times and bytes by direction, oldest first, since the flow was registered. -/
structure FlowLog where
  params : QosFlowParams
  windowMs : ℕ
  samples : Bool → List (ℕ × ℕ)

namespace FlowLog

def add (l : FlowLog) (isDl : Bool) (now bytes : ℕ) : FlowLog :=
  { l with samples := fun d ↦ if d = isDl then l.samples d ++ [(now, bytes)] else l.samples d }

def recent (l : FlowLog) (isDl : Bool) : List (ℕ × ℕ) :=
  inWindow Prod.fst (l.windowMs * 1000) (lastTime Prod.fst (l.samples isDl)) (l.samples isDl)

def rateBps (l : FlowLog) (isDl : Bool) : ℕ :=
  let durationMs := GbrTracker.spanMs ((l.recent isDl).map Prod.fst)
  if durationMs = 0 then 0
  else ((l.recent isDl).map Prod.snd).sum * 8000 % 2 ^ 64 / durationMs

def guaranteeBps (l : FlowLog) (isDl : Bool) : ℕ :=
  if isDl then l.params.gbrDlBps else l.params.gbrUlBps

def hasGuarantee (l : FlowLog) : Bool :=
  l.params.characteristics.resourceType != .nonGbr

def deficitBps (l : FlowLog) (isDl : Bool) : ℤ :=
  if l.hasGuarantee then toInt64 (l.guaranteeBps isDl - l.rateBps isDl) else 0

/-- The rate lies below the enforced part of the guarantee. -/
def isBehind (l : FlowLog) (strictness : D) (isDl : Bool) : Bool :=
  l.hasGuarantee && Double.lt (Double.ofNat (l.rateBps isDl))
    (Double.mul (Double.ofNat (l.guaranteeBps isDl)) strictness)

/-- How much more a flow counts for its deficit, and the bytes it asks for. -/
def boost (l : FlowLog) (config : QosEngineConfig D) (isDl : Bool) : D × ℕ :=
  if l.isBehind config.gbrEnforcementStrictness isDl then
    let met := Double.div (Double.ofNat (l.rateBps isDl)) (Double.ofNat (l.guaranteeBps isDl))
    (Double.add (Double.ofNat 1)
      (Double.mul (Double.sub (Double.ofNat 1) met) config.gbrDeficitWeight),
      l.guaranteeBps isDl / 8000 % 2 ^ 32)
  else (Double.ofNat 1, 0)

end FlowLog

/-- What the engine keeps of the log of a flow. -/
def QosFlowState.meters (f : QosFlowState) : QosFlowParams × (Bool → GbrTracker) :=
  (f.params, f.gbrTracker)

def FlowLog.meters (l : FlowLog) : QosFlowParams × (Bool → GbrTracker) :=
  (l.params, fun isDl ↦ GbrTracker.after l.windowMs (l.samples isDl))

namespace QosEngine

/-- The log of a flow under the configuration in force. -/
structure LoggedFlow (D : Type) where
  config : QosEngineConfig D
  log : Option FlowLog

namespace LoggedFlow

/-- What is known of a flow after an operation that concerns it. -/
def next (v : LoggedFlow D) (i : Platform × Operation D) : LoggedFlow D :=
  match i.2 with
  | .registerFlow _ params =>
      { v with log := some ⟨params, v.config.gbrMeasurementWindowMs, fun _ ↦ []⟩ }
  | .removeFlow _ _ | .removeUeFlows _ => { v with log := none }
  | .updateConfig config => { v with config := config }
  | .reportTransmission _ _ isDl bytes =>
      { v with log := v.log.map fun l ↦ l.add isDl i.1.now bytes }
  | _ => v

def rateBps (v : LoggedFlow D) (isDl : Bool) : ℕ := (v.log.map (·.rateBps isDl)).getD 0

def deficitBps (v : LoggedFlow D) (isDl : Bool) : ℤ := (v.log.map (·.deficitBps isDl)).getD 0

def isBehind (v : LoggedFlow D) : Bool :=
  v.log.any fun l ↦ l.isBehind v.config.gbrEnforcementStrictness true ||
    l.isBehind v.config.gbrEnforcementStrictness false

def boost (v : LoggedFlow D) (isDl : Bool) : D × ℕ :=
  (v.log.map (·.boost v.config isDl)).getD (Double.ofNat 1, 0)

omit [Double D] in
/-- Every time in a log is one of the run's, in their order. -/
theorem times_sublist {config : QosEngineConfig D} {is : List (Platform × Operation D)}
    {l : FlowLog} (h : (is.foldl next ⟨config, none⟩).log = some l) (isDl : Bool) :
    ((l.samples isDl).map Prod.fst).Sublist (is.map fun i ↦ i.1.now) := by
  induction is using List.reverseRecOn generalizing l with
  | nil => cases h
  | append_singleton is i ih =>
      rw [List.foldl_append, List.foldl_cons, List.foldl_nil] at h
      rw [List.map_append]
      obtain ⟨P, op⟩ := i
      cases op with
      | registerFlow _ params =>
          cases h
          exact List.nil_sublist _
      | removeFlow _ _ | removeUeFlows _ => cases h
      | reportTransmission _ _ d bytes =>
          obtain ⟨l', hl', rfl⟩ := Option.map_eq_some_iff.mp h
          rw [FlowLog.add]
          dsimp only
          split
          · rw [List.map_append]
            exact (ih hl').append (List.Sublist.refl _)
          · exact (ih hl').trans (List.sublist_append_left _ _)
      | _ => exact (ih h).trans (List.sublist_append_left _ _)

end LoggedFlow

/-! ## Trackers -/

/-- A flow is seen as its log says. -/
structure Tracks (v : FlowView D) (w : LoggedFlow D) : Prop where
  config : v.config = w.config
  meters : v.flow.map QosFlowState.meters = w.log.map FlowLog.meters

omit [Double D] in
theorem meters_newFlow (config : QosEngineConfig D) (now : ℕ) (params : QosFlowParams) :
    (newFlow config now params).meters =
      (⟨params, config.gbrMeasurementWindowMs, fun _ ↦ []⟩ : FlowLog).meters := by
  refine Prod.ext rfl (funext fun isDl ↦ ?_)
  cases isDl with
  | true => rfl
  | false => rfl

theorem gbrTracker_charged (now : ℕ) (isDl d : Bool) (bytes : ℕ) (f : QosFlowState) :
    (charged now isDl bytes f).gbrTracker d =
      if d = isDl then (f.gbrTracker d).addSample now bytes else f.gbrTracker d := by
  by_cases hd : d = isDl
  · rw [if_pos hd, hd]
    cases isDl <;> rfl
  · rw [if_neg hd]
    cases isDl <;> cases d <;> first | rfl | exact (hd rfl).elim

theorem meters_charged (now : ℕ) (isDl : Bool) (bytes : ℕ) {f : QosFlowState} {l : FlowLog}
    (h : f.meters = l.meters) :
    (charged now isDl bytes f).meters = (l.add isDl now bytes).meters := by
  obtain ⟨hparams, htrackers⟩ := Prod.mk.inj h
  refine Prod.ext ?_ (funext fun d ↦ ?_)
  · simp only [QosFlowState.meters, charged, params_countBytes, params_setGbrTracker,
      params_setBucket]
    exact hparams
  · have htracker : f.gbrTracker d = GbrTracker.after l.windowMs (l.samples d) :=
      congrFun htrackers d
    change (charged now isDl bytes f).gbrTracker d =
      GbrTracker.after l.windowMs ((l.add isDl now bytes).samples d)
    rw [gbrTracker_charged, htracker, FlowLog.add]
    dsimp only
    split
    · rw [GbrTracker.after, GbrTracker.after, List.foldl_append]
      rfl
    · rfl

omit [Double D] in
/-- Parameters and trackers are left alone. -/
theorem Tracks.map_same {v : FlowView D} {w : LoggedFlow D} (h : Tracks v w)
    {g : QosFlowState → QosFlowState} (hg : ∀ f, (g f).meters = f.meters) :
    Tracks { v with flow := v.flow.map g } w := by
  refine ⟨h.config, ?_⟩
  rw [← h.meters, Option.map_map]
  exact congrArg (fun k ↦ v.flow.map k) (funext hg)

theorem Tracks.next {v : FlowView D} {w : LoggedFlow D} (h : Tracks v w)
    (i : Platform × Operation D) : Tracks (v.next i) (w.next i) := by
  obtain ⟨P, op⟩ := i
  cases op with
  | registerFlow _ params =>
      refine ⟨h.config, ?_⟩
      rw [FlowView.next, LoggedFlow.next, ← h.config]
      exact congrArg some (meters_newFlow v.config P.now params)
  | removeFlow _ _ | removeUeFlows _ => exact ⟨h.config, rfl⟩
  | updateConfig config => exact ⟨rfl, h.meters⟩
  | reportTransmission r q isDl bytes =>
      refine ⟨h.config, ?_⟩
      have hmeters := h.meters
      change (v.flow.map (charged P.now isDl bytes)).map QosFlowState.meters =
        (w.log.map fun l ↦ l.add isDl P.now bytes).map FlowLog.meters
      cases hflow : v.flow with
      | none =>
          rw [hflow] at hmeters
          rw [Option.map_eq_none_iff.mp hmeters.symm]
          rfl
      | some f =>
          rw [hflow] at hmeters
          obtain ⟨l, hl, hfl⟩ := Option.map_eq_some_iff.mp hmeters.symm
          rw [hl]
          exact congrArg some (meters_charged P.now isDl bytes hfl.symm)
  | onSlotTick => exact h.map_same fun f ↦ rfl
  | calculatePriority r q isDl _ =>
      refine h.map_same fun f ↦ ?_
      change ((if v.config.enableMbrEnforcement then refilled P.now isDl else id) f).meters = _
      split
      · cases isDl <;> rfl
      · rfl
  | getAllowedBytes r q isDl => exact h.map_same fun f ↦ (by cases isDl <;> rfl)
  | notifyDataArrival r q isDl => exact h.map_same fun f ↦ (by cases isDl <;> rfl)
  | notifyDataTransmitted r q isDl =>
      refine h.map_same fun f ↦ ?_
      change (departed D P.now isDl f).meters = _
      rw [departed]
      split <;> cases isDl <;> rfl
  | _ => exact h.map_same fun f ↦ rfl

/-! ## Answers -/

variable {e : QosEngine D} {rnti : Rnti} {qfi : ℕ}

/-- The answers about the guaranteed rate of a flow are those that its log gives. -/
structure Measures (e : QosEngine D) (rnti : Rnti) (qfi : ℕ) (v : LoggedFlow D) : Prop where
  rate : ∀ isDl, ignoringLocks (e.getCurrentRate rnti qfi isDl) = some (v.rateBps isDl)
  deficit : ∀ isDl, ignoringLocks (e.getGbrDeficit rnti qfi isDl) = some (v.deficitBps isDl)
  behind : ∀ P, (ignoringLocks (e.getGbrDeficitFlows P)).map
    (fun keys ↦ decide ((rnti, qfi) ∈ keys)) = some v.isBehind
  boost : ∀ P isDl bytes, (ignoringLocks (e.calculatePriority P rnti qfi isDl bytes)).map
    (fun answer ↦ (answer.1.gbrFactor, answer.1.minBytesRequired)) = some (v.boost isDl)

/-- A flow whose trackers follow a log measures the rate of the log. -/
theorem currentRateBps_of_meters {f : QosFlowState} {l : FlowLog} (h : f.meters = l.meters)
    {isDl : Bool} (hsorted : (l.samples isDl).Pairwise fun s s' ↦ s.1 ≤ s'.1) :
    (f.gbrTracker isDl).currentRateBps = l.rateBps isDl := by
  have htracker : f.gbrTracker isDl = GbrTracker.after l.windowMs (l.samples isDl) :=
    congrFun (Prod.mk.inj h).2 isDl
  rw [htracker, GbrTracker.currentRateBps_eq, GbrTracker.history_after hsorted]
  rfl

theorem guarantee_of_meters {f : QosFlowState} {l : FlowLog} (h : f.meters = l.meters)
    (isDl : Bool) : f.isGbr = l.hasGuarantee ∧ f.gbrBps isDl = l.guaranteeBps isDl := by
  have hparams : f.params = l.params := (Prod.mk.inj h).1
  rw [QosFlowState.isGbr, FlowLog.hasGuarantee, QosFlowState.gbrBps, FlowLog.guaranteeBps, hparams]
  refine ⟨?_, rfl⟩
  cases l.params.characteristics.resourceType <;> rfl

omit [Double D] in
theorem decide_mem_listFlows (P : Platform) (p : QosFlowState → Bool) :
    decide ((rnti, qfi) ∈ e.listFlows P p) = (e.flow? rnti qfi).any p := by
  rw [Bool.eq_iff_iff, decide_eq_true_eq, mem_listFlows, Option.any_eq_true]

section

variable {f : QosFlowState} {l : FlowLog} (h : f.meters = l.meters) {isDl : Bool}
  (hsorted : (l.samples isDl).Pairwise fun s s' ↦ s.1 ≤ s'.1)

include h hsorted

theorem isBehind_of_meters (strictness : D) :
    (f.isGbr && f.belowGuarantee strictness isDl) = l.isBehind strictness isDl := by
  obtain ⟨hgbr, hbps⟩ := guarantee_of_meters h isDl
  rw [QosFlowState.belowGuarantee, currentRateBps_of_meters h hsorted, hgbr, hbps]
  rfl

theorem gbrBoost_of_meters (config : QosEngineConfig D) :
    gbrBoost config f isDl = l.boost config isDl := by
  rw [gbrBoost, FlowLog.boost, isBehind_of_meters h hsorted, (guarantee_of_meters h isDl).2,
    currentRateBps_of_meters h hsorted]

end

theorem Tracks.measures {v : LoggedFlow D} (h : Tracks (e.view rnti qfi) v)
    (hsorted : ∀ l, v.log = some l → ∀ isDl, (l.samples isDl).Pairwise fun s s' ↦ s.1 ≤ s'.1) :
    e.Measures rnti qfi v := by
  have hconfig : e.config = v.config := h.config
  have hmeters : (e.flow? rnti qfi).map QosFlowState.meters = v.log.map FlowLog.meters := h.meters
  cases hflow : e.flow? rnti qfi with
  | none =>
      rw [hflow] at hmeters
      have hlog : v.log = none := Option.map_eq_none_iff.mp hmeters.symm
      constructor
      case rate =>
        intro isDl
        simp only [getCurrentRate, hflow, LoggedFlow.rateBps, hlog]
        rfl
      case deficit =>
        intro isDl
        simp only [getGbrDeficit, hflow, LoggedFlow.deficitBps, hlog]
        rfl
      case behind =>
        intro P
        rw [LoggedFlow.isBehind, hlog]
        exact congrArg some ((decide_mem_listFlows P _).trans (hflow ▸ rfl))
      case boost =>
        intro P isDl bytes
        simp only [calculatePriority, hflow, LoggedFlow.boost, hlog]
        rfl
  | some f =>
      rw [hflow] at hmeters
      obtain ⟨l, hlog, hfl⟩ := Option.map_eq_some_iff.mp hmeters.symm
      have hlogs := hsorted l hlog
      have hrate : ∀ isDl, (f.gbrTracker isDl).currentRateBps = l.rateBps isDl := fun isDl ↦
        currentRateBps_of_meters hfl.symm (hlogs isDl)
      have hgbr : ∀ isDl, f.gbrBps isDl = l.guaranteeBps isDl := fun isDl ↦
        (guarantee_of_meters hfl.symm isDl).2
      have hgbrs : f.isGbr = l.hasGuarantee := (guarantee_of_meters hfl.symm true).1
      constructor
      case rate =>
        intro isDl
        simp only [getCurrentRate, hflow, LoggedFlow.rateBps, hlog, Option.map_some, hrate]
        rfl
      case deficit =>
        intro isDl
        simp only [getGbrDeficit, hflow, LoggedFlow.deficitBps, hlog, Option.map_some, hrate, hgbr,
          hgbrs]
        rfl
      case behind =>
        intro P
        rw [LoggedFlow.isBehind, hlog, Option.any_some, ← isBehind_of_meters hfl.symm (hlogs true),
          ← isBehind_of_meters hfl.symm (hlogs false), ← Bool.and_or_distrib_left, ← hconfig]
        exact congrArg some ((decide_mem_listFlows P _).trans (hflow ▸ rfl))
      case boost =>
        intro P isDl bytes
        simp only [calculatePriority, hflow, LoggedFlow.boost, hlog, Option.map_some,
          ← gbrBoost_of_meters hfl.symm (hlogs isDl), ← hconfig]
        rfl

/-! ## Runs -/

/-- The log of a flow after a run. -/
def logged (config : QosEngineConfig D) (is : List (Platform × Operation D)) (rnti : Rnti)
    (qfi : ℕ) : LoggedFlow D :=
  (is.filter fun i ↦ i.2.concerns rnti qfi).foldl LoggedFlow.next ⟨config, none⟩

/-- After every run in which the clock does not step back, what is answered about a guaranteed
rate is what the log of the flow says. -/
theorem measures_of_run {config : QosEngineConfig D} {is : List (Platform × Operation D)}
    (hclock : is.Pairwise fun i j ↦ i.1.now ≤ j.1.now)
    (h : is.foldlM next (create config) = some e) (rnti : Rnti) (qfi : ℕ) :
    e.Measures rnti qfi (logged config is rnti qfi) := by
  have htracks : Tracks (e.view rnti qfi) (logged config is rnti qfi) := by
    rw [view_of_run h]
    exact List.foldl_rel (r := Tracks) ⟨rfl, rfl⟩ fun i _ _ _ hrel ↦ hrel.next i
  refine htracks.measures fun l hl isDl ↦ ?_
  have htimes : (is.map fun i ↦ i.1.now).Pairwise (· ≤ ·) := List.pairwise_map.mpr hclock
  have hsublist := (LoggedFlow.times_sublist hl isDl).trans (List.filter_sublist.map _)
  exact List.pairwise_map.mp (htimes.sublist hsublist)

/-- The window stays as wide as it was when the flow was registered, and what is sent for another
flow or in the other direction does not count. -/
theorem measures_of_run_narrowed :
    let params : QosFlowParams := ⟨1, ⟨.gbr, 20, 100⟩, 80000, 0, 1000000, 1000000⟩
    let after (now : ℕ) (op : Operation ℚ) : Platform × Operation ℚ :=
      ({ Platform.plain with now := now }, op)
    let narrow : QosEngineConfig ℚ := { QosEngineConfig.standard with gbrMeasurementWindowMs := 1 }
    let is := [after 0 (.registerFlow 7 params), after 0 (.registerFlow 8 params),
      after 0 (.reportTransmission 7 1 true 700), after 10000 (.updateConfig narrow),
      after 60000 (.reportTransmission 7 1 true 200),
      after 60000 (.reportTransmission 8 1 true 900),
      after 110000 (.reportTransmission 7 1 false 900),
      after 110000 (.reportTransmission 7 1 true 300)]
    ∃ e : QosEngine ℚ, is.foldlM next (create .standard) = some e ∧
      ignoringLocks (e.getCurrentRate 7 1 true) = some 80000 ∧
      ignoringLocks (e.getGbrDeficit 7 1 true) = some 0 := by
  intro params after narrow is
  have hsome : (is.foldlM next (create .standard)).isSome = true := by decide +kernel
  obtain ⟨e, hrun⟩ := Option.isSome_iff_exists.mp hsome
  have hmeasures := measures_of_run (by decide) hrun 7 1
  have hrate : (logged .standard is 7 1).rateBps true = 80000 := by decide +kernel
  have hdeficit : (logged .standard is 7 1).deficitBps true = 0 := by decide +kernel
  exact ⟨e, hrun, hrate ▸ hmeasures.rate true, hdeficit ▸ hmeasures.deficit true⟩

end QosEngine

end NrScheduler
