import NrScheduler.Engine.Transmissions

/-!
# Grants and the limits of a user

A monitor keeps the latest configuration request of every user.  A grant should obey it;
the allocator only looks at the channel state and the cell, so a grant is safe where these
stay below the configured limits.
-/

namespace NrScheduler

open Runs

/-- The latest configuration request for each user of each cell. -/
abbrev LatestConfig := CellId → Rnti → Option UeConfigRequest

namespace SchedulerEngine

variable {π D : Type}

def observeConfig (_ : SchedulerEngine π D) (i : Platform × Event π) (_ : SchedulerEngine π D)
    (latest : LatestConfig) : LatestConfig := fun c r ↦
  match i.2 with
  | .ueConfig request =>
      if request.cellId = c ∧ request.rnti = r then some request else latest c r
  | _ => latest c r

/-- The transmission obeys the configuration of its user. -/
def Obeys (ue : UeContext) (request : UeConfigRequest) (isDl : Bool) (pdu : TtiPdu) : Prop :=
  (∃ bwp ∈ ue.activeBwp isDl, bwp ∈ request.bwps isDl ∧
    bwp.startRb ≤ pdu.rbAllocation.startRb ∧
    pdu.rbAllocation.startRb + pdu.rbAllocation.numRbs ≤ bwp.startRb + bwp.numRbs) ∧
  pdu.mcs ≤ request.maxMcs isDl ∧
  pdu.numLayers ≤ request.maxLayers isDl ∧
  pdu.harqId < request.numHarqProcesses isDl

/-- Every transmission sent by the event obeys the latest configuration of its user. -/
def ObeysConfig (s : SchedulerEngine π D × LatestConfig) (_ : Platform × Event π)
    (s' : SchedulerEngine π D × LatestConfig) : Prop :=
  ∀ r ∈ s.1.emitted s'.1, ∀ pdu ∈ r.pdus,
    ∃ ue ∈ s.1.ueAt r.cellId pdu.rnti, ∃ request ∈ s.2 r.cellId pdu.rnti,
      Obeys ue request r.isDownlink pdu

/-- What the configuration admits covers all that the allocator may grant: the active
bandwidth part the blocks that candidates reach, the other limits what the channel state
of the user and the cell lead to. -/
def Admits (ue : UeContext) (request : UeConfigRequest) (isDl : Bool) (cell : CellContext)
    (reach : ℕ) : Prop :=
  (∃ bwp ∈ ue.activeBwp isDl, bwp.startRb = 0 ∧ reach ≤ bwp.numRbs) ∧
  ue.mcsFromCqi ≤ request.maxMcs isDl ∧
  DefaultResourceAllocator.layers ue cell ≤ request.maxLayers isDl ∧
  0 < request.numHarqProcesses isDl

/-- In the slots of the run, the configuration of each competing user admits its grants. -/
def ConfigAdmits [Double D] (s : SchedulerEngine π D × LatestConfig) (i : Platform × Event π)
    (_ : SchedulerEngine π D × LatestConfig) : Prop :=
  match i.2 with
  | .slotIndication cellId t =>
      ∀ cell ∈ s.1.cells.lookup cellId, ∀ ue ∈ cell.ueRepo.users i.1, ∀ isDl,
        s.1.contends cellId t isDl ue.rnti = true →
          ∃ request ∈ s.2 cellId ue.rnti,
            Admits ue request isDl cell (s.1.reach i.1 cell isDl)
  | _ => True

instance (ue : UeContext) (request : UeConfigRequest) (isDl : Bool) (pdu : TtiPdu) :
    Decidable (Obeys ue request isDl pdu) := by
  unfold Obeys
  infer_instance

instance (s : SchedulerEngine π D × LatestConfig) (i : Platform × Event π)
    (s' : SchedulerEngine π D × LatestConfig) : Decidable (ObeysConfig s i s') := by
  unfold ObeysConfig
  infer_instance

instance (ue : UeContext) (request : UeConfigRequest) (isDl : Bool) (cell : CellContext)
    (reach : ℕ) : Decidable (Admits ue request isDl cell reach) := by
  unfold Admits
  infer_instance

instance [Double D] (s : SchedulerEngine π D × LatestConfig) (i : Platform × Event π)
    (s' : SchedulerEngine π D × LatestConfig) : Decidable (ConfigAdmits s i s') := by
  obtain ⟨P, ev⟩ := i
  refine Event.quietCases (motive := fun ev ↦ Decidable (ConfigAdmits s (P, ev) s')) ?_ ?_ ?_ ev
  · intro cellId t
    dsimp only [ConfigAdmits]
    infer_instance
  · exact fun _ _ ↦ isTrue trivial
  · exact fun ev hquiet ↦ isTrue (by cases ev <;> trivial)

def ConfigKnown (s : SchedulerEngine π D × LatestConfig) : Prop :=
  ∀ c r ue, s.1.ueAt c r = some ue →
    ∃ request, s.2 c r = some request ∧ ue.dlBwps = request.dlBwps ∧ ue.ulBwps = request.ulBwps

theorem mem_bwps_of_activeBwp {ue : UeContext} {request : UeConfigRequest} {isDl : Bool}
    {bwp : BwpConfig} (hdl : ue.dlBwps = request.dlBwps) (hul : ue.ulBwps = request.ulBwps)
    (h : ue.activeBwp isDl = some bwp) : bwp ∈ request.bwps isDl := by
  cases isDl with
  | true =>
      change bwp ∈ request.dlBwps
      rw [← hdl]
      exact List.mem_of_find?_eq_some h
  | false =>
      change bwp ∈ request.ulBwps
      rw [← hul]
      exact List.mem_of_find?_eq_some h

theorem obeys_of_admits {D : Type} {ue : UeContext} {request : UeConfigRequest} {isDl : Bool}
    {cell : CellContext} {reach start width : ℕ} {P : Platform} {d : SchedulingDecision D}
    (hadmits : Admits ue request isDl cell reach) (hdl : ue.dlBwps = request.dlBwps)
    (hul : ue.ulBwps = request.ulBwps) (hle : start + width ≤ reach) (hharq : d.harqId = 0) :
    Obeys ue request isDl
      (pduOf (DefaultResourceAllocator.record P d ue cell ⟨start, width⟩) ue) := by
  obtain ⟨⟨bwp, hbwp, hstart, hreach⟩, hmcs, hlayers, hprocesses⟩ := hadmits
  refine ⟨⟨bwp, hbwp, mem_bwps_of_activeBwp hdl hul hbwp, ?_, ?_⟩, hmcs, hlayers, ?_⟩
  · rw [hstart]
    exact Nat.zero_le _
  · rw [hstart, Nat.zero_add]
    exact hle.trans hreach
  · change d.harqId < request.numHarqProcesses isDl
    rw [hharq]
    exact hprocesses

variable [Double D] [IPolicyManager π D]

theorem ConfigKnown.step {s s' : SchedulerEngine π D × LatestConfig} {i : Platform × Event π}
    (hknown : ConfigKnown s) (h : monitored next observeConfig s i = some s') :
    ConfigKnown s' := by
  obtain ⟨hnext, hlatest⟩ := monitored_eq_some.mp h
  intro c r ue hue
  rw [hlatest]
  rcases (handle_users (next_eq_some.mp hnext)).origin hue with
    ⟨hkeep, ue₀, hue₀, hevolves⟩ | ⟨request, hev, hreplaces, hconfigured, _⟩
  · obtain ⟨request, hrequest, hdl, hul⟩ := hknown c r ue₀ hue₀
    refine ⟨request, ?_, hevolves.dlBwps.trans hdl, hevolves.ulBwps.trans hul⟩
    rw [← hrequest]
    cases hev : i.2 with
    | ueConfig other =>
        rw [hev] at hkeep
        simp only [observeConfig, hev]
        rw [if_neg]
        rintro ⟨rfl, rfl⟩
        simp [Event.replaces] at hkeep
    | _ => simp only [observeConfig, hev]
  · rw [hev] at hreplaces
    simp only [Event.replaces, Bool.and_eq_true, beq_iff_eq] at hreplaces
    refine ⟨request, ?_, hconfigured.dlBwps, hconfigured.ulBwps⟩
    simp only [observeConfig, hev]
    rw [if_pos hreplaces]

/-- While the configurations admit what the allocator may grant, every transmission obeys
the latest configuration of its user. -/
theorem obeysConfig_of_admits {config : SchedulerConfig} {is : List (Platform × Event π)}
    (h : Always (monitored next observeConfig) ConfigAdmits
      ((create config : SchedulerEngine π D), fun _ _ ↦ none) is) :
    Always (monitored next observeConfig) ObeysConfig
      ((create config : SchedulerEngine π D), fun _ _ ↦ none) is := by
  refine Always.imp (fun s ↦ s.1.Consistent ∧ ConfigKnown s) ?_
    ⟨consistent_create config, fun _ _ _ hue ↦ by cases hue⟩ h
  rintro s i s' ⟨hinv, hknown⟩ hstep hadmits
  obtain ⟨hnext, _⟩ := monitored_eq_some.mp hstep
  refine ⟨⟨hinv.step hnext, hknown.step hstep⟩, ?_⟩
  intro r hr pdu hpdu
  obtain ⟨cellId, t, cell, slot, dl, ul, hev, houtcome, hr⟩ := mem_emitted hnext hr
  obtain ⟨ue, d, start, width, hcontends, hue, hcandidate, heq, _, hle⟩ :=
    houtcome.contends hr hpdu
  have hidle := hinv.harq cellId pdu.rnti ue hue r.isDownlink
  have hharq : d.harqId = 0 := (candidate_of_idle hidle hcandidate).2
  have hrnti : ue.rnti = pdu.rnti := ueAt_rnti hue
  have huser : ue ∈ cell.ueRepo.users i.1 := by
    obtain ⟨cell', hlookup, hmem⟩ := ueAt_eq_some.mp hue
    obtain rfl : cell = cell' := Option.some.inj (houtcome.lookup.symm.trans hlookup)
    rw [UeRepository.mem_users, hrnti]
    exact hmem
  rw [ConfigAdmits, hev] at hadmits
  obtain ⟨request, hrequest, hadmits⟩ :=
    hadmits cell houtcome.lookup ue huser r.isDownlink (hrnti ▸ hcontends)
  rw [hrnti] at hrequest
  obtain ⟨request', hrequest', hdl, hul⟩ := hknown cellId pdu.rnti ue hue
  obtain rfl : request = request' := Option.some.inj (hrequest.symm.trans hrequest')
  rw [houtcome.request_cellId hinv hr]
  refine ⟨ue, hue, request, hrequest, ?_⟩
  rw [heq]
  exact obeys_of_admits hadmits hdl hul hle hharq

/-- The first slot of a user with a configuration and a channel report. -/
def slotOf (request : UeConfigRequest) (cqi : ChannelQualityInfo) :
    List (Platform × Event (BuiltinPolicy ℚ)) :=
  [(.plain, .addCell { CellConfig.fdd 1 4 with maxLayers := 4 } .cleared),
    (.plain, .ueConfig request), (.plain, .csiUpdate request.rnti 1 cqi),
    (.plain, .dlData ⟨request.rnti, 1, 0, 1000⟩), (.plain, .slotIndication 1 {})]

/-- A user with a bandwidth part over the whole carrier and no further limits. -/
theorem obeysConfig_wide :
    Always (monitored next observeConfig) ObeysConfig
      ((create { strategy := .roundRobin, enableQos := false } : RationalEngine), fun _ _ ↦ none)
      (slotOf { rnti := 7, cellId := 1, dlBwps := [⟨0, 0, 4⟩], maxLayersDl := 4 }
        { widebandCqi := 15, rankIndicator := 2 }) :=
  obeysConfig_of_admits (by decide +kernel)

/-- The bandwidth part, the limit of the MCS and the limit of the layers are each passed
over. -/
theorem not_obeysConfig :
    ¬ Always (monitored next observeConfig) ObeysConfig
      ((create { strategy := .roundRobin, enableQos := false } : RationalEngine), fun _ _ ↦ none)
      (slotOf { rnti := 7, cellId := 1, dlBwps := [⟨0, 2, 2⟩] } {}) ∧
    ¬ Always (monitored next observeConfig) ObeysConfig
      ((create { strategy := .roundRobin, enableQos := false } : RationalEngine), fun _ _ ↦ none)
      (slotOf { rnti := 7, cellId := 1, dlBwps := [⟨0, 0, 4⟩], maxMcsDl := 10 }
        { widebandCqi := 15 }) ∧
    ¬ Always (monitored next observeConfig) ObeysConfig
      ((create { strategy := .roundRobin, enableQos := false } : RationalEngine), fun _ _ ↦ none)
      (slotOf { rnti := 7, cellId := 1, dlBwps := [⟨0, 0, 4⟩], maxLayersDl := 1 }
        { rankIndicator := 2 }) := by
  refine ⟨?_, ?_, ?_⟩
  · decide +kernel
  · decide +kernel
  · decide +kernel

end SchedulerEngine

end NrScheduler
