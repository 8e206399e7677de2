import NrScheduler.Engine.RunSpec
import NrScheduler.Engine.ScheduleSpec

/-!
# The flow the QoS engine is asked about

The scheduler asks the QoS engine about the lowest QFI of a user, nine if there is none
below.  QFIs and priority levels have nothing to do with each other, so it asks about a most
important flow of the user only where the numbers happen to agree.
-/

namespace NrScheduler

namespace UeContext

/-- The flows of the logical channels that have QoS parameters. -/
def qosFlows (ue : UeContext) : List QosFlowParams :=
  ue.logicalChannels.entries.filterMap fun lc ↦ lc.2.qosParams

/-- A flow of the user with the smallest priority level. -/
structure IsTopFlow (ue : UeContext) (q : QosFlowParams) : Prop where
  mem : q ∈ ue.qosFlows
  level_le : ∀ q' ∈ ue.qosFlows,
    q.characteristics.priorityLevel ≤ q'.characteristics.priorityLevel

/-- A most important flow has the lowest QFI of the user, and one of at most nine. -/
def TopFlowIsLowest (ue : UeContext) : Prop :=
  ∃ q, ue.IsTopFlow q ∧ q.qfi ≤ 9 ∧ ∀ q' ∈ ue.qosFlows, q.qfi ≤ q'.qfi

theorem le_foldl_min_iff {n start : ℕ} (flows : List QosFlowParams) :
    n ≤ flows.foldl (fun best q ↦ min best q.qfi) start ↔
      n ≤ start ∧ ∀ q ∈ flows, n ≤ q.qfi := by
  induction flows generalizing start with
  | nil => simp
  | cons q flows ih =>
      rw [List.foldl_cons, ih, le_min_iff, List.forall_mem_cons, and_assoc]

/-- The minimum is at most nine and at most every QFI, and the largest such number. -/
theorem le_bestQfi_iff {n : ℕ} (P : Platform) (ue : UeContext) :
    n ≤ ue.bestQfi P ↔ n ≤ 9 ∧ ∀ q ∈ ue.qosFlows, n ≤ q.qfi := by
  have hfold : ue.bestQfi P =
      ((P.hashOrder ue.logicalChannels.entries).filterMap fun lc ↦ lc.2.qosParams).foldl
        (fun best q ↦ min best q.qfi) 9 := by
    rw [List.foldl_filterMap, bestQfi]
    apply List.foldl_ext
    intro best lc _
    cases lc.2.qosParams <;> rfl
  have hperm := (P.hashOrder_perm ue.logicalChannels.entries).filterMap fun lc ↦ lc.2.qosParams
  rw [hfold, le_foldl_min_iff]
  apply and_congr_right
  intro _
  exact forall_congr' fun q ↦ imp_congr_left hperm.mem_iff

theorem bestQfi_le_nine (P : Platform) (ue : UeContext) : ue.bestQfi P ≤ 9 :=
  ((le_bestQfi_iff P ue).mp le_rfl).1

theorem qfi_eq_bestQfi_iff {P : Platform} {ue : UeContext} {q : QosFlowParams}
    (hq : q ∈ ue.qosFlows) :
    q.qfi = ue.bestQfi P ↔ q.qfi ≤ 9 ∧ ∀ q' ∈ ue.qosFlows, q.qfi ≤ q'.qfi := by
  rw [← le_bestQfi_iff P]
  have hle := ((le_bestQfi_iff P ue).mp le_rfl).2 q hq
  exact ⟨fun heq ↦ heq.le, fun hge ↦ hge.antisymm hle⟩

/-- The number is that of a flow of the user unless every QFI of the user exceeds nine. -/
theorem exists_qfi_eq_bestQfi_iff (P : Platform) (ue : UeContext) :
    (∃ q ∈ ue.qosFlows, q.qfi = ue.bestQfi P) ↔ ∃ q ∈ ue.qosFlows, q.qfi ≤ 9 := by
  constructor
  · rintro ⟨q, hq, heq⟩
    exact ⟨q, hq, heq.trans_le (bestQfi_le_nine P ue)⟩
  · rintro ⟨q, hq, hnine⟩
    by_contra! hne
    -- the next number would be a lower bound too
    have hnext : ue.bestQfi P + 1 ≤ ue.bestQfi P := by
      rw [le_bestQfi_iff]
      have hlt : ∀ q' ∈ ue.qosFlows, ue.bestQfi P < q'.qfi := fun q' hq' ↦
        (((le_bestQfi_iff P ue).mp le_rfl).2 q' hq').lt_of_ne (hne q' hq').symm
      exact ⟨(hlt q hq).trans_le hnine, hlt⟩
    exact hnext.not_gt (Nat.lt_succ_self _)

end UeContext

namespace SchedulerEngine

variable {π D : Type} [Double D] [IPolicyManager π D]

/-- One round of the loop over the decisions, with QoS enabled and the QoS engine asked
about the flow `qfi` of the user. -/
def rankAbout (e : SchedulerEngine π D) (P : Platform) (cell : CellContext) (isDl : Bool)
    (ue : UeContext) (qfi : ℕ) (d : SchedulingDecision D) :
    Exec (SchedulingDecision D × SchedulerEngine π D) := do
  let ranked : D × π := IPolicyManager.calculatePriority P e.policyManager ue cell isDl
  let (result, qos) ← e.qosEngine.calculatePriority P ue.rnti qfi isDl d.bufferBytes
  let e := { e with policyManager := ranked.2, qosEngine := qos }
  let d ← e.boostSlice ue (boostRetx { d with
    priorityMetric := Double.mul ranked.1 result.finalPriority
    qosPriority := if result.isDelayCritical then 1 else 2 })
  return (d, e)

theorem calculatePriority_run_about {e : SchedulerEngine π D} {P : Platform}
    {cell : CellContext} {ue : UeContext} {d : SchedulingDecision D}
    (hqos : e.config.enableQos = true) (hue : cell.ueRepo.ue? d.rnti = some ue) (isDl : Bool) :
    (e.calculatePriority P cell isDl d).run none =
      (e.rankAbout P cell isDl ue (ue.bestQfi P) d).run none := by
  have hfind := cell.ueRepo.findByRnti_run d.rnti
  rw [hue] at hfind
  rw [calculatePriority, LockMonad.run_bind_of_ok hfind]
  simp only [rankByQos, hqos, if_true]
  rfl

/-- With QoS enabled, the QoS engine is asked about a most important flow of the user exactly
if such a flow has the lowest QFI of the user, and one of at most nine. -/
theorem asks_about_top_flow_iff {e : SchedulerEngine π D} {P : Platform} {cell : CellContext}
    {ue : UeContext} {d : SchedulingDecision D} (hqos : e.config.enableQos = true)
    (hue : cell.ueRepo.ue? d.rnti = some ue) (isDl : Bool) :
    (e.calculatePriority P cell isDl d).run none =
        (e.rankAbout P cell isDl ue (ue.bestQfi P) d).run none ∧
      ((∃ q, ue.IsTopFlow q ∧ q.qfi = ue.bestQfi P) ↔ ue.TopFlowIsLowest) := by
  refine ⟨calculatePriority_run_about hqos hue isDl, ?_⟩
  apply exists_congr
  intro q
  apply and_congr_right
  intro htop
  exact UeContext.qfi_eq_bestQfi_iff htop.mem

/-- Two bearers with the QFIs of their 5QIs: voice, and the more important IMS signalling. -/
def voice : QosFlowParams := ⟨1, get5qiCharacteristics 1, 64000, 64000, 128000, 128000⟩

def signalling : QosFlowParams := ⟨5, get5qiCharacteristics 5, 0, 0, 0, 0⟩

def voiceUser : UeContext :=
  { ptr := (1, 0), rnti := 7, ueId := 1
    logicalChannels := (AList.insert 2 { lcId := 2, priority := 2, qosParams := some voice }
      ∅).insert 1 { lcId := 1, priority := 1, qosParams := some signalling } }

def voiceCell : CellContext := .withUe (.fdd 1 1) voiceUser

def voiceDecision : SchedulingDecision ℚ :=
  { rnti := 7, type := .newTx, tbConfig := {}, harqId := 0, priorityMetric := 0
    bufferBytes := 100 }

/-- An engine in which both flows of the user are registered. -/
def voiceEngine : RationalEngine :=
  let flow := QosEngine.newFlow (.standard : QosEngineConfig ℚ) 0
  { create {} with
    qosEngine :=
      { (QosEngine.create : QosEngine ℚ) with
        flows := AList.insert 7
          ((AList.insert 1 (flow voice) ∅).insert 5 (flow signalling)) ∅ } }

theorem asks_about_top_flow_iff_voice :
    (voiceEngine.calculatePriority .plain voiceCell true voiceDecision).run none =
        (voiceEngine.rankAbout .plain voiceCell true voiceUser 1 voiceDecision).run none ∧
      ((∃ q, voiceUser.IsTopFlow q ∧ q.qfi = voiceUser.bestQfi .plain) ↔
        voiceUser.TopFlowIsLowest) :=
  asks_about_top_flow_iff (e := voiceEngine) (P := .plain) rfl rfl true

/-- The flow with QFI 1 is asked about, and the other one is more important. -/
theorem asks_about_voice :
    (voiceEngine.config.enableQos = true ∧ voiceUser.qosFlows.length = 2 ∧
      ∀ q ∈ voiceUser.qosFlows, (voiceEngine.qosEngine.flow? 7 q.qfi).isSome) ∧
    (voiceEngine.calculatePriority .plain voiceCell true voiceDecision).run none =
      (voiceEngine.rankAbout .plain voiceCell true voiceUser 1 voiceDecision).run none ∧
    ¬ ∃ q, voiceUser.IsTopFlow q ∧ q.qfi = 1 := by
  refine ⟨⟨rfl, rfl, by decide +kernel⟩, calculatePriority_run_about rfl rfl true, ?_⟩
  rintro ⟨q, htop, hqfi⟩
  have hle := htop.level_le signalling (by decide +kernel)
  have hall : ∀ q ∈ voiceUser.qosFlows, q.qfi = 1 → 10 < q.characteristics.priorityLevel := by
    decide +kernel
  exact (hall q htop.mem hqfi).not_ge hle

end SchedulerEngine

end NrScheduler
