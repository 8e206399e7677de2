import NrScheduler.Engine.ReportBook
import NrScheduler.Engine.Transmissions

/-!
# Link adaptation

The modulation and the layers of a transmission follow the latest report on the channel of its
user, in the uplink as in the downlink, and its size follows from both.
-/

namespace NrScheduler

open LockMonad SchedulerEngine

variable {π D : Type}

/-- The transmission is adapted to a channel quality, in a cell with this configuration. -/
structure TtiPdu.Adapted (P : Platform) (cfg : CellConfig) (quality : ChannelQualityInfo)
    (pdu : TtiPdu) : Prop where
  mcs : pdu.mcs = if quality.widebandCqi < 16 then
    UeContext.cqiToMcs.getD quality.widebandCqi 28 else 28
  numLayers : pdu.numLayers = max 1 (min quality.rankIndicator cfg.maxLayers)
  symbolAllocation : pdu.symbolAllocation = ⟨2, 12⟩
  tbSize : pdu.tbSize = P.tbsTableLookup pdu.mcs pdu.rbAllocation.numRbs pdu.numLayers 12

namespace DefaultResourceAllocator

theorem layers_eq (ue : UeContext) (cell : CellContext) :
    layers ue cell = max 1 (min ue.dlChannelQuality.rankIndicator cell.config.maxLayers) := by
  rw [layers]
  split <;> omega

theorem adapted_pduOf (P : Platform) (d : SchedulingDecision D) (ue : UeContext)
    (cell : CellContext) (range : ResourceBlockRange) :
    (pduOf (record P d ue cell range) ue).Adapted P cell.config ue.dlChannelQuality where
  mcs := rfl
  numLayers := layers_eq ue cell
  symbolAllocation := rfl
  tbSize := rfl

end DefaultResourceAllocator

namespace SchedulerEngine

variable [Double D] [IPolicyManager π D]

/-- Whatever is sent in whatever slot of whatever run is adapted to the latest report on the
channel since its user was configured. -/
theorem adapted_of_run {config : SchedulerConfig} {is : List (Platform × Event π)}
    {e e' : SchedulerEngine π D} (h : is.foldlM SchedulerEngine.next (create config) = some e)
    {i : Platform × Event π} (hnext : e.next i = some e') {request : TtiRequest}
    (hrequest : request ∈ e.emitted e') {pdu : TtiPdu} (hpdu : pdu ∈ request.pdus) :
    ∃ known cfg quality, (book is).users request.cellId pdu.rnti = some known ∧
      e.configAt request.cellId = some cfg ∧
      Event.value request.cellId pdu.rnti known.2 .dlChannelQuality = .quality quality ∧
      pdu.Adapted i.1 cfg quality := by
  have hinv := (listed_of_run h).consistent
  obtain ⟨cellId, t, cell, slot, dl, ul, _, houtcome, hmem⟩ := mem_emitted hnext hrequest
  obtain ⟨ue, d, start, width, _, hue, _, hpduOf, _, _⟩ := houtcome.contends hmem hpdu
  have hcell := houtcome.request_cellId hinv hmem
  have husers := (listed_of_run h).users cellId pdu.rnti
  rw [hue] at husers
  generalize hbook : (book is).users cellId pdu.rnti = found at husers
  obtain hknown | _ := husers
  rename_i known
  refine ⟨known, cell.config, ue.dlChannelQuality, hcell ▸ hbook, ?_, ?_, ?_⟩
  · rw [hcell, configAt, houtcome.lookup, Option.map_some]
  · rw [hcell, ← hknown.asTold.read]
    rfl
  · rw [hpduOf]
    exact DefaultResourceAllocator.adapted_pduOf i.1 d ue cell ⟨start, width⟩

/-- A later report raises the modulation of the next transmission. -/
theorem adapted_of_run_again :
    let is : List (Platform × Event (BuiltinPolicy ℚ)) :=
      onPlain [.addCell (.fdd 1 4) .cleared, .ueConfig { rnti := 7, cellId := 1 },
        .csiUpdate 7 1 { widebandCqi := 3 }, .dlData ⟨7, 1, 1, 100⟩, .slotIndication 1 {},
        .csiUpdate 7 1 { widebandCqi := 12 }]
    ∃ e e' : RationalEngine, is.foldlM SchedulerEngine.next (create {}) = some e ∧
      e.next (.plain, .slotIndication 1 { slot := 1 }) = some e' ∧
      e'.sent.flatMap (fun request ↦ request.pdus.map TtiPdu.mcs) = [3, 22] ∧
      ∀ request ∈ e.emitted e', ∀ pdu ∈ request.pdus,
        ∃ known cfg quality, (book is).users request.cellId pdu.rnti = some known ∧
          e.configAt request.cellId = some cfg ∧
          Event.value request.cellId pdu.rnti known.2 .dlChannelQuality = .quality quality ∧
          pdu.Adapted .plain cfg quality := by
  intro is
  have hsome : (is.foldlM SchedulerEngine.next (create {} : RationalEngine)).any (fun e ↦
      (e.next (.plain, .slotIndication 1 { slot := 1 })).any fun e' ↦
        e'.sent.flatMap (fun request ↦ request.pdus.map TtiPdu.mcs) == [3, 22]) = true := by
    decide +kernel
  obtain ⟨e, hrun, hslot⟩ := (Option.any_eq_true _ _).mp hsome
  obtain ⟨e', hnext, hmcs⟩ := (Option.any_eq_true _ _).mp hslot
  refine ⟨e, e', hrun, hnext, beq_iff_eq.mp hmcs, ?_⟩
  exact fun request hrequest pdu hpdu ↦ adapted_of_run hrun hnext hrequest hpdu

end SchedulerEngine

end NrScheduler
