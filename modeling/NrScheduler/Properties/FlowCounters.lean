import NrScheduler.Lib.Runs
import NrScheduler.Services.QosSpec

/-!
# The flow counters of the QoS engine

Two counters are kept beside the flow table.  Registering a flow again counts it again,
removing a delay-critical flow does not uncount it as a guaranteed one, and resetting the
statistics forgets the flows that are still registered.
-/

namespace NrScheduler

open LockMonad

def QosFlowParams.isGuaranteed (p : QosFlowParams) : Bool :=
  p.characteristics.resourceType == .gbr || p.characteristics.resourceType == .delayC

/-- Identifiers of flows have eight bits. -/
def QosEngine.Operation.FitsQfi {D : Type} : QosEngine.Operation D → Prop
  | .registerFlow _ params => params.qfi < 2 ^ 8
  | _ => True

variable {D : Type}

namespace QosEngine

def countOf (e : QosEngine D) (p : QosFlowParams → Bool) : ℕ :=
  (e.directory.map fun ue ↦ ue.2.countP fun f ↦ p f.2).sum

/-- The flow is neither registered twice nor removed as a delay-critical one, and the
statistics are only reset while there are no flows. -/
def CountsOnce (e : QosEngine D) : Operation D → Prop
  | .registerFlow rnti params => e.flow? rnti params.qfi = none
  | .removeFlow rnti qfi =>
      ∀ flow ∈ e.flow? rnti qfi, flow.params.characteristics.resourceType ≠ .delayC
  | .removeUeFlows rnti => ∀ qfi, ∀ flow ∈ e.flow? rnti qfi,
      flow.params.characteristics.resourceType ≠ .delayC
  | .resetStatistics => ∀ rnti qfi, e.flow? rnti qfi = none
  | _ => True

/-! ## Counting flows -/

def weight (p : QosFlowParams → Bool) (f : QosFlowState) : ℕ := if p f.params then 1 else 0

theorem weight_le_one (p : QosFlowParams → Bool) (f : QosFlowState) : weight p f ≤ 1 := by
  rw [weight]
  split <;> simp

theorem weight_eq_zero_iff {p : QosFlowParams → Bool} {f : QosFlowState} :
    weight p f = 0 ↔ p f.params = false := by
  simp [weight]

@[simp] theorem weight_true (f : QosFlowState) : weight (fun _ ↦ true) f = 1 := rfl

theorem countOf_eq_sumOf (e : QosEngine D) (p : QosFlowParams → Bool) :
    e.countOf p = e.flows.sumOf fun ueFlows ↦ ueFlows.sumOf (weight p) := by
  have hue : ∀ l : List (Sigma fun _ : ℕ ↦ QosFlowState),
      (l.map fun f ↦ (f.1, f.2.params)).countP (fun f ↦ p f.2) =
        (l.map fun f ↦ weight p f.2).sum := by
    intro l
    induction l with
    | nil => rfl
    | cons f l ih =>
        by_cases hf : p f.2.params
        · simp [weight, hf, ih, Nat.add_comm]
        · simp [weight, hf, ih]
  simp only [countOf, directory, AList.sumOf, List.map_map, Function.comp_def, hue]

theorem countOf_eq_zero_iff {e : QosEngine D} {p : QosFlowParams → Bool} :
    e.countOf p = 0 ↔ ∀ rnti qfi, ∀ flow ∈ e.flow? rnti qfi, p flow.params = false := by
  simp only [countOf_eq_sumOf, AList.sumOf_eq_zero_iff, flow?, Option.mem_def,
    Option.bind_eq_some_iff]
  constructor
  · rintro h rnti qfi flow ⟨ueFlows, hue, hflow⟩
    exact weight_eq_zero_iff.mp (h rnti ueFlows hue qfi flow hflow)
  · intro h rnti ueFlows hue qfi flow hflow
    exact weight_eq_zero_iff.mpr (h rnti qfi flow ⟨ueFlows, hue, hflow⟩)

theorem countOf_insert (e : QosEngine D) (p : QosFlowParams → Bool) (rnti : Rnti) (qfi : ℕ)
    (flow : QosFlowState) {e' : QosEngine D}
    (h : e'.flows = e.flows.insert rnti (((e.flows.lookup rnti).getD ∅).insert qfi flow)) :
    e'.countOf p + ((e.flow? rnti qfi).map (weight p)).getD 0 = e.countOf p + weight p flow := by
  have houter := AList.sumOf_insert rnti e.flows (fun ueFlows ↦ ueFlows.sumOf (weight p))
    (((e.flows.lookup rnti).getD ∅).insert qfi flow)
  have hinner := AList.sumOf_insert qfi ((e.flows.lookup rnti).getD ∅) (weight p) flow
  rw [countOf_eq_sumOf, countOf_eq_sumOf, h, flow?]
  cases hue : e.flows.lookup rnti with
  | none =>
      rw [hue] at houter hinner
      simp only [Option.map_none, Option.getD_none, Option.bind_none, AList.lookup_empty,
        AList.sumOf_empty] at houter hinner ⊢
      omega
  | some ueFlows =>
      rw [hue] at houter hinner
      simp only [Option.map_some, Option.getD_some, Option.bind_some] at houter hinner ⊢
      omega

theorem countOf_remove {e e' : QosEngine D} (p : QosFlowParams → Bool) {rnti : Rnti} {qfi : ℕ}
    {flow : QosFlowState} (hflow : e.flow? rnti qfi = some flow)
    (h : e'.flows = e.flows.modify rnti fun ueFlows ↦ ueFlows.erase qfi) :
    e'.countOf p + weight p flow = e.countOf p := by
  obtain ⟨ueFlows, hue, hlookup⟩ := Option.bind_eq_some_iff.mp hflow
  have houter := AList.sumOf_modify hue (fun ueFlows ↦ ueFlows.erase qfi)
    fun ueFlows ↦ ueFlows.sumOf (weight p)
  have hinner := AList.sumOf_erase qfi ueFlows (weight p)
  rw [hlookup, Option.map_some, Option.getD_some] at hinner
  rw [countOf_eq_sumOf, countOf_eq_sumOf, h]
  omega

theorem countOf_removeUe {e e' : QosEngine D} (p : QosFlowParams → Bool) {rnti : Rnti}
    {ueFlows : AList fun _ : ℕ ↦ QosFlowState} (hue : e.flows.lookup rnti = some ueFlows)
    (h : e'.flows = e.flows.erase rnti) :
    e'.countOf p + ueFlows.sumOf (weight p) = e.countOf p := by
  have herase := AList.sumOf_erase rnti e.flows fun ueFlows ↦ ueFlows.sumOf (weight p)
  rw [hue, Option.map_some, Option.getD_some] at herase
  rw [countOf_eq_sumOf, countOf_eq_sumOf, h, herase]

/-! ## Identifiers in eight bits -/

/-- The table keeps the identifiers of its flows in eight bits. -/
def QfisFit (e : QosEngine D) : Prop := ∀ ue ∈ e.directory, ∀ f ∈ ue.2, f.1 < 2 ^ 8

theorem qfisFit_iff {e : QosEngine D} :
    e.QfisFit ↔ ∀ ue ∈ e.flows.entries, ∀ qfi ∈ ue.2, qfi < 2 ^ 8 := by
  simp only [QfisFit, directory, List.forall_mem_map, AList.mem_keys, AList.keys, List.keys]

theorem QfisFit.countOf_le {e : QosEngine D} (h : e.QfisFit) (p : QosFlowParams → Bool) :
    e.countOf p ≤ 2 ^ 24 := by
  have hues : e.flows.entries.length ≤ 2 ^ 16 :=
    AList.length_entries_le (fun a b h ↦ UInt16.toNat_inj.mp h) fun rnti _ ↦ rnti.toNat_lt
  have hsum : e.countOf p ≤ e.flows.entries.length * 2 ^ 8 := by
    rw [countOf_eq_sumOf]
    refine AList.sumOf_le_mul fun rnti ueFlows hue ↦ ?_
    have hlength : ueFlows.entries.length ≤ 2 ^ 8 :=
      AList.length_entries_le Function.injective_id
        (qfisFit_iff.mp h ⟨rnti, ueFlows⟩ (AList.mem_lookup_iff.mp hue))
    have hle : ueFlows.sumOf (weight p) ≤ ueFlows.entries.length * 1 :=
      AList.sumOf_le_mul fun _ flow _ ↦ weight_le_one p flow
    omega
  omega

variable [Double D]

theorem QfisFit.effect {e e' : QosEngine D} {P : Platform} {op : Operation D} (h : e.QfisFit)
    (hop : op.FitsQfi) (heffect : e.Effect P op e') : e'.QfisFit := by
  rw [qfisFit_iff] at h ⊢
  cases heffect with
  | @registered rnti params =>
      intro ue hmem qfi hqfi
      rw [AList.entries_insert] at hmem
      rcases List.mem_cons.mp hmem with rfl | hmem
      · rcases (AList.mem_insert _).mp hqfi with rfl | hqfi
        · exact hop
        · cases hue : e.flows.lookup rnti with
          | none => simp [hue] at hqfi
          | some ueFlows =>
              rw [hue, Option.getD_some] at hqfi
              exact h _ (AList.mem_lookup_iff.mp hue) qfi hqfi
      · exact h ue ((List.kerase_sublist _ _).subset hmem) qfi hqfi
  | removed =>
      intro ue hmem qfi hqfi
      rw [AList.entries_modify] at hmem
      obtain ⟨ue', hmem', rfl⟩ := List.mem_map.mp hmem
      refine h ue' hmem' qfi ?_
      split at hqfi
      · exact (AList.mem_erase.mp hqfi).2
      · exact hqfi
  | removedUe => exact fun ue hmem ↦ h ue ((List.kerase_sublist _ _).subset hmem)
  | reset => exact h

/-! ## The counters -/

/-- The statistics count the registered flows, and the guaranteed ones among them. -/
def CountsFlows (e : QosEngine D) : Prop :=
  ∀ memory stats, (e.getStatistics memory).run none = .ok stats →
    stats.totalFlows = e.countOf (fun _ ↦ true) ∧
    stats.gbrFlows = e.countOf QosFlowParams.isGuaranteed

theorem countsFlows_iff {e : QosEngine D} : e.CountsFlows ↔
    e.stats.totalFlows = e.countOf (fun _ ↦ true) ∧
    e.stats.gbrFlows = e.countOf QosFlowParams.isGuaranteed := by
  constructor
  · intro h
    exact h e.stats.totalDelayMargin _ rfl
  · rintro h memory stats hstats
    cases hstats
    exact h

/-- Counters that count the flows are far from their wrap. -/
theorem CountsFlows.counted {e : QosEngine D} (h : e.CountsFlows) (hfit : e.QfisFit) :
    (e.stats.totalFlows = e.countOf (fun _ ↦ true) ∧ e.countOf (fun _ ↦ true) ≤ 2 ^ 24) ∧
    e.stats.gbrFlows = e.countOf QosFlowParams.isGuaranteed ∧
      e.countOf QosFlowParams.isGuaranteed ≤ 2 ^ 24 := by
  obtain ⟨htotal, hgbr⟩ := countsFlows_iff.mp h
  exact ⟨⟨htotal, hfit.countOf_le _⟩, hgbr, hfit.countOf_le _⟩

/-- The flow is of the guaranteed kind proper, the only one that removal uncounts. -/
def isGbrProper (p : QosFlowParams) : Bool := p.characteristics.resourceType == .gbr

def isDelayCritical (p : QosFlowParams) : Bool := p.characteristics.resourceType == .delayC

omit [Double D] in
theorem weight_isGuaranteed (f : QosFlowState) :
    weight QosFlowParams.isGuaranteed f = weight isGbrProper f + weight isDelayCritical f := by
  cases hkind : f.params.characteristics.resourceType with
  | gbr => simp [weight, QosFlowParams.isGuaranteed, isGbrProper, isDelayCritical, hkind]
  | nonGbr => simp [weight, QosFlowParams.isGuaranteed, isGbrProper, isDelayCritical, hkind]
  | delayC => simp [weight, QosFlowParams.isGuaranteed, isGbrProper, isDelayCritical, hkind]

omit [Double D] in
theorem dropFlow_counters {s : QosStats D} {f : QosFlowState} (htotal : 0 < s.totalFlows)
    (htotal64 : s.totalFlows < 2 ^ 64) (hgbr : weight isGbrProper f ≤ s.gbrFlows)
    (hgbr64 : s.gbrFlows < 2 ^ 64) :
    (s.dropFlow f).totalFlows + 1 = s.totalFlows ∧
      (s.dropFlow f).gbrFlows + weight isGbrProper f = s.gbrFlows := by
  simp only [QosStats.dropFlow, QosStats.down, weight, isGbrProper, beq_iff_eq] at hgbr ⊢
  split at hgbr <;> rename_i hf <;> simp only [hf, if_true, if_false] <;> omega

omit [Double D] in
theorem foldl_dropFlow {l : List (Sigma fun _ : ℕ ↦ QosFlowState)} {s : QosStats D}
    (htotal : l.length ≤ s.totalFlows) (htotal64 : s.totalFlows < 2 ^ 64)
    (hgbr : (l.map fun f ↦ weight isGbrProper f.2).sum ≤ s.gbrFlows)
    (hgbr64 : s.gbrFlows < 2 ^ 64) :
    (l.foldl (fun s f ↦ s.dropFlow f.2) s).totalFlows + l.length = s.totalFlows ∧
      (l.foldl (fun s f ↦ s.dropFlow f.2) s).gbrFlows +
        (l.map fun f ↦ weight isGbrProper f.2).sum = s.gbrFlows := by
  induction l generalizing s with
  | nil => exact ⟨rfl, rfl⟩
  | cons f l ih =>
      rw [List.length_cons] at htotal
      rw [List.map_cons, List.sum_cons] at hgbr
      obtain ⟨htotal', hgbr'⟩ := @dropFlow_counters _ s f.2 (by omega) htotal64 (by omega) hgbr64
      obtain ⟨ihtotal, ihgbr⟩ := @ih (s.dropFlow f.2) (by omega) (by omega) (by omega) (by omega)
      simp only [List.foldl_cons, List.length_cons, List.map_cons, List.sum_cons]
      omega

section Steps

variable {e e' : QosEngine D}

/-- Registering a new flow counts it; registering a known one counts it again. -/
theorem countsFlows_register_iff (hfit : e.QfisFit) (h : e.CountsFlows) {rnti : Rnti}
    {flow : QosFlowState} {qfi : ℕ}
    (hflows : e'.flows = e.flows.insert rnti (((e.flows.lookup rnti).getD ∅).insert qfi flow))
    (htotal : e'.stats.totalFlows = (e.stats.totalFlows + 1) % 2 ^ 64)
    (hgbr : e'.stats.gbrFlows =
      if flow.isGbr then (e.stats.gbrFlows + 1) % 2 ^ 64 else e.stats.gbrFlows) :
    e'.CountsFlows ↔ e.flow? rnti qfi = none := by
  obtain ⟨⟨htotal₀, hallLe⟩, hgbr₀, hguaranteedLe⟩ := h.counted hfit
  have hall := e.countOf_insert (fun _ ↦ true) rnti qfi flow hflows
  have hguaranteed := e.countOf_insert QosFlowParams.isGuaranteed rnti qfi flow hflows
  rw [countsFlows_iff, htotal, hgbr, htotal₀, hgbr₀]
  cases hflow : e.flow? rnti qfi with
  | none =>
      refine iff_of_true ⟨?_, ?_⟩ rfl
      · simp only [hflow, weight_true, Option.map_none, Option.getD_none] at hall
        omega
      · have hweight : weight QosFlowParams.isGuaranteed flow = if flow.isGbr then 1 else 0 := rfl
        simp only [hflow, hweight, Option.map_none, Option.getD_none] at hguaranteed
        split
        · rename_i hkind
          rw [if_pos hkind] at hguaranteed
          omega
        · rename_i hkind
          rw [if_neg hkind] at hguaranteed
          omega
  | some old =>
      refine iff_of_false ?_ (by simp)
      rintro ⟨hagain, -⟩
      simp only [hflow, weight_true, Option.map_some, Option.getD_some] at hall
      omega

/-- Removing a flow uncounts it, unless it is a delay-critical one. -/
theorem countsFlows_remove_iff (hfit : e.QfisFit) (h : e.CountsFlows) {rnti : Rnti} {qfi : ℕ}
    {flow : QosFlowState} (hflow : e.flow? rnti qfi = some flow)
    (hflows : e'.flows = e.flows.modify rnti fun ueFlows ↦ ueFlows.erase qfi)
    (hstats : e'.stats = e.stats.dropFlow flow) :
    e'.CountsFlows ↔ flow.params.characteristics.resourceType ≠ .delayC := by
  obtain ⟨⟨htotal₀, hallLe⟩, hgbr₀, hguaranteedLe⟩ := h.counted hfit
  have hall := countOf_remove (fun _ ↦ true) hflow hflows
  have hguaranteed := countOf_remove QosFlowParams.isGuaranteed hflow hflows
  rw [weight_true] at hall
  rw [weight_isGuaranteed] at hguaranteed
  obtain ⟨htotal, hgbr⟩ := @dropFlow_counters _ e.stats flow (by omega) (by omega) (by omega)
    (by omega)
  have hcritical : weight isDelayCritical flow = 0 ↔
      flow.params.characteristics.resourceType ≠ .delayC := by
    simp [weight, isDelayCritical]
  rw [countsFlows_iff, hstats, ← hcritical]
  omega

theorem countsFlows_removeUe_iff (hfit : e.QfisFit) (h : e.CountsFlows) {rnti : Rnti}
    {ueFlows : AList fun _ : ℕ ↦ QosFlowState} (hue : e.flows.lookup rnti = some ueFlows)
    (hflows : e'.flows = e.flows.erase rnti)
    (hstats : e'.stats = ueFlows.entries.foldl (fun s f ↦ s.dropFlow f.2) e.stats) :
    e'.CountsFlows ↔ ∀ qfi, ∀ flow ∈ e.flow? rnti qfi,
      flow.params.characteristics.resourceType ≠ .delayC := by
  obtain ⟨⟨htotal₀, hallLe⟩, hgbr₀, hguaranteedLe⟩ := h.counted hfit
  have hall := countOf_removeUe (fun _ ↦ true) hue hflows
  have hguaranteed := countOf_removeUe QosFlowParams.isGuaranteed hue hflows
  have hlength : ueFlows.sumOf (weight fun _ ↦ true) = ueFlows.entries.length := by
    simp [AList.sumOf]
  have hsplit : ueFlows.sumOf (weight QosFlowParams.isGuaranteed) =
      ueFlows.sumOf (weight isGbrProper) + ueFlows.sumOf (weight isDelayCritical) := by
    simp only [AList.sumOf, weight_isGuaranteed, List.sum_map_add]
  obtain ⟨htotal, hgbr⟩ := @foldl_dropFlow _ ueFlows.entries e.stats (by omega) (by omega)
    (by change ueFlows.sumOf (weight isGbrProper) ≤ _; omega) (by omega)
  change _ + ueFlows.sumOf (weight isGbrProper) = _ at hgbr
  have hcritical : ueFlows.sumOf (weight isDelayCritical) = 0 ↔
      ∀ qfi, ∀ flow ∈ e.flow? rnti qfi,
        flow.params.characteristics.resourceType ≠ .delayC := by
    simp [AList.sumOf_eq_zero_iff, weight_eq_zero_iff, isDelayCritical, flow?, hue]
  rw [countsFlows_iff, hstats, ← hcritical]
  omega

theorem countsFlows_reset_iff (hflows : e'.flows = e.flows) (hstats : e'.stats = .zero) :
    e'.CountsFlows ↔ ∀ rnti qfi, e.flow? rnti qfi = none := by
  have hcount : ∀ p, e'.countOf p = e.countOf p := by
    intro p
    rw [countOf_eq_sumOf, countOf_eq_sumOf, hflows]
  rw [countsFlows_iff, hstats, hcount, hcount]
  constructor
  · rintro ⟨htotal, -⟩ rnti qfi
    rw [Option.eq_none_iff_forall_not_mem]
    intro flow hflow
    exact absurd (countOf_eq_zero_iff.mp htotal.symm rnti qfi flow hflow) (by simp)
  · intro hempty
    have hzero : ∀ p, e.countOf p = 0 := fun p ↦
      countOf_eq_zero_iff.mpr fun rnti qfi flow hflow ↦ by simp [hempty] at hflow
    exact ⟨(hzero _).symm, (hzero _).symm⟩

end Steps

theorem countsFlows_effect_iff {e e' : QosEngine D} {P : Platform} {op : Operation D}
    (hfit : e.QfisFit) (h : e.CountsFlows) (heffect : e.Effect P op e') :
    e'.CountsFlows ↔ e.CountsOnce op := by
  cases heffect with
  | registered => exact countsFlows_register_iff hfit h rfl rfl rfl
  | @removed rnti qfi flow hflow =>
      refine Iff.trans (countsFlows_remove_iff hfit h hflow rfl rfl) ?_
      simp [CountsOnce, hflow]
  | removedUe hue => exact countsFlows_removeUe_iff hfit h hue rfl rfl
  | reset => exact countsFlows_reset_iff rfl rfl

theorem CountsFlows.sameFlows {e e' : QosEngine D} (h : e.CountsFlows) (hsame : e.SameFlows e') :
    e'.CountsFlows := by
  rw [countsFlows_iff] at h ⊢
  rw [hsame.totalFlows, hsame.gbrFlows, countOf, countOf, hsame.directory]
  exact h

omit [Double D] in
theorem countsOnce_of_keeps {e : QosEngine D} {op : Operation D} (h : e.keeps op = true) :
    e.CountsOnce op := by
  cases op with
  | registerFlow => cases h
  | resetStatistics => cases h
  | removeFlow rnti qfi =>
      intro flow hflow
      rw [keeps, Option.isNone_iff_eq_none] at h
      simp [h] at hflow
  | removeUeFlows rnti =>
      intro qfi flow hflow
      rw [keeps, Option.isNone_iff_eq_none] at h
      simp [flow?, h] at hflow
  | _ => trivial

/-- In every run the counters agree with the flow table after every step exactly where no
flow is registered twice, no delay-critical flow is removed and the statistics are only
reset while no flow is registered. -/
theorem countsFlows_iff_countsOnce (config : QosEngineConfig D)
    {is : List (Platform × Operation D)} (hqfi : ∀ i ∈ is, i.2.FitsQfi) :
    Runs.Always next (fun _ _ e' ↦ e'.CountsFlows) (create config) is ↔
      Runs.Always next (fun e i _ ↦ e.CountsOnce i.2) (create config) is := by
  refine Runs.always_iff_of_inputs (fun e ↦ e.QfisFit ∧ e.CountsFlows) ?_
    ⟨fun ue hue ↦ absurd hue List.not_mem_nil, countsFlows_iff.mpr ⟨rfl, rfl⟩⟩ hqfi
  rintro e ⟨P, op⟩ e' hop ⟨hfit, hcounts⟩ hnext
  obtain ⟨e₁, hnext₁, ⟨hkeeps, hsame⟩ | ⟨_, heffect⟩⟩ := e.next_spec P op
  · obtain rfl := Option.some.inj (hnext.symm.trans hnext₁)
    have hfit' : e'.QfisFit := by
      rw [QfisFit, hsame.directory]
      exact hfit
    exact ⟨iff_of_true (hcounts.sameFlows hsame) (countsOnce_of_keeps hkeeps),
      fun h ↦ ⟨hfit', h⟩⟩
  · obtain rfl := Option.some.inj (hnext.symm.trans hnext₁)
    exact ⟨countsFlows_effect_iff hfit hcounts heffect, fun h ↦ ⟨hfit.effect hop heffect, h⟩⟩

def flowOf (kind : QosResourceType) (qfi : ℕ) : QosFlowParams :=
  ⟨qfi, ⟨kind, 20, 100⟩, 1000000, 1000000, 8000000, 8000000⟩

theorem countsFlows_iff_countsOnce_guaranteed :
    Runs.Always next (fun _ _ e' ↦ e'.CountsFlows) (create (D := ℚ))
        [(.plain, .registerFlow 7 (flowOf .gbr 1)), (.plain, .removeFlow 7 1)] ↔
      Runs.Always next (fun e i _ ↦ e.CountsOnce i.2) (create (D := ℚ))
        [(.plain, .registerFlow 7 (flowOf .gbr 1)), (.plain, .removeFlow 7 1)] := by
  apply countsFlows_iff_countsOnce
  intro i hi
  simp only [List.mem_cons, List.not_mem_nil, or_false] at hi
  rcases hi with rfl | rfl
  · exact (by decide : 1 < 2 ^ 8)
  · trivial

/-- A flow registered twice counts as two. -/
theorem not_countsFlows : ¬ Runs.Always next (fun _ _ e' ↦ e'.CountsFlows) (create (D := ℚ))
    [(.plain, .registerFlow 7 (flowOf .gbr 1)), (.plain, .registerFlow 7 (flowOf .gbr 1))] := by
  intro h
  obtain ⟨-, h⟩ := h _ rfl
  obtain ⟨hcounts, -⟩ := h _ rfl
  exact absurd (hcounts 0 _ rfl).1 (by decide +kernel)

end QosEngine

end NrScheduler
