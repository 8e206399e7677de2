import NrScheduler.Engine.Asks

/-!
# Below saturation

Policies only say who is served first.  Where the blocks suffice for all who ask, what is sent
follows from the load alone, up to the order and the places of the transmissions.
-/

namespace NrScheduler

open LockMonad SchedulerEngine

/-- The transmission wherever its blocks are. -/
def TtiPdu.unplaced (pdu : TtiPdu) : TtiPdu :=
  { pdu with rbAllocation := { pdu.rbAllocation with startRb := 0 } }

/-- The requests carry the same transmissions, in some order and at some places. -/
structure TtiRequest.SameGrants (r r' : TtiRequest) : Prop where
  isDownlink : r.isDownlink = r'.isDownlink
  timing : r.timing = r'.timing
  cellId : r.cellId = r'.cellId
  pdus : (r.pdus.map TtiPdu.unplaced).Perm (r'.pdus.map TtiPdu.unplaced)

theorem TtiRequest.SameGrants.symm_trans {r r' s : TtiRequest} (h : r.SameGrants s)
    (h' : r'.SameGrants s) : r.SameGrants r' :=
  ⟨h.isDownlink.trans h'.isDownlink.symm, h.timing.trans h'.timing.symm,
    h.cellId.trans h'.cellId.symm, h.pdus.trans h'.pdus.symm⟩

theorem TtiRequest.forall₂_sameGrants {rs rs' ss : List TtiRequest}
    (h : List.Forall₂ SameGrants rs ss) (h' : List.Forall₂ SameGrants rs' ss) :
    List.Forall₂ SameGrants rs rs' := by
  induction h generalizing rs' with
  | nil =>
      cases h'
      exact .nil
  | cons hrs _ ih =>
      cases h' with
      | cons hrs' h' => exact .cons (hrs.symm_trans hrs') (ih h')

namespace SchedulerEngine

variable {π D : Type} [Double D] {e e' : SchedulerEngine π D} {P : Platform}
  {cell : CellContext} {isDl : Bool} {l : Load}

/-- With room for all candidates, the ranking only decides on the order and the places. -/
theorem unplaced_grantedPdus {ranked : List (SchedulingDecision D)}
    (h : e.IsRanking P cell isDl ranked)
    (hsum : ((e.candidates P cell isDl).map (demand P cell)).sum ≤ cell.config.numRbs)
    (hlimit : (e.candidates P cell isDl).length ≤ e.config.limit isDl) :
    ((grantedPdus e.config P cell isDl ranked).map TtiPdu.unplaced).Perm
      ((e.candidates P cell isDl).filterMap (askOf P cell)) := by
  let unplace : SchedulingDecision D × ℕ → Option TtiPdu :=
    fun p ↦ pduOfPiece P cell ⟨p.1.unranked, 0, p.2⟩
  have hlength : ranked.length = (e.candidates P cell isDl).length := by
    rw [← List.length_map (f := SchedulingDecision.unranked)]
    exact h.length_eq
  have hpos : ∀ d ∈ ranked, 0 < demand P cell d := by
    intro d hd
    obtain ⟨ue, hue⟩ := h.known d hd
    exact demand_pos hue
  have hpieces : (Carve.carve (demand P cell) cell.config.numRbs (e.config.limit isDl) 0
      ranked).map (fun p ↦ (p.item, p.width)) = ranked.map fun d ↦ (d, demand P cell d) :=
    Carve.carve_of_room (h.sum_demand.trans_le hsum) (hlength.trans_le hlimit) hpos
  have hgranted : (grantedPdus e.config P cell isDl ranked).map TtiPdu.unplaced =
      (ranked.map SchedulingDecision.unranked).filterMap (askOf P cell) := by
    have hpiece : ∀ p : Carve.Piece (SchedulingDecision D),
        (pduOfPiece P cell p).map TtiPdu.unplaced = unplace (p.item, p.width) := by
      intro p
      rw [pduOfPiece, Option.map_map]
      rfl
    calc (grantedPdus e.config P cell isDl ranked).map TtiPdu.unplaced
        = ((Carve.carve (demand P cell) cell.config.numRbs (e.config.limit isDl) 0 ranked).map
            fun p ↦ (p.item, p.width)).filterMap unplace := by
          rw [grantedPdus, List.map_filterMap, List.filterMap_map]
          exact List.filterMap_congr fun p _ ↦ hpiece p
      _ = (ranked.map SchedulingDecision.unranked).filterMap (askOf P cell) := by
          rw [hpieces, List.filterMap_map, List.filterMap_map]
          rfl
  rw [hgranted]
  exact h.filterMap _

theorem unplaced_asks : ((e.candidates P cell isDl).filterMap (askOf P cell)).map
    TtiPdu.unplaced = (e.candidates P cell isDl).filterMap (askOf P cell) := by
  rw [List.map_filterMap]
  apply List.filterMap_congr
  intro d _
  rw [askOf, pduOfPiece, Option.map_map]
  rfl

/-- A direction with room for all is sent the request for all that is asked for. -/
theorem sameGrants_openRequests {slot : SlotContext} {t : FrameTiming}
    {ranked : List (SchedulingDecision D)} (hun : e.Unsliced)
    (h : e.IsRanking P cell isDl ranked)
    (hslot : slot.canSchedule = (cell.load.begin t).canSchedule)
    (hfits : slot.canSchedule isDl = true →
      ((e.load.asks D P cell.load isDl).map fun pdu ↦ pdu.rbAllocation.numRbs).sum ≤
        cell.config.numRbs ∧ (e.load.asks D P cell.load isDl).length ≤ e.config.limit isDl) :
    List.Forall₂ TtiRequest.SameGrants (openRequests slot e.config P cell isDl t ranked)
      (e.load.requestsOf D P cell.load t isDl) := by
  have hasks : e.load.asks D P cell.load isDl =
      (e.candidates P cell isDl).filterMap (askOf P cell) := asks_eq hun
  rw [openRequests, Load.requestsOf, ← hslot]
  by_cases hopen : slot.canSchedule isDl = true
  · obtain ⟨hsum, hlimit⟩ := hfits hopen
    have hcount : ((e.candidates P cell isDl).filterMap (askOf P cell)).length =
        (e.candidates P cell isDl).length := by
      have hmap := congrArg List.length
        (map_numRbs_asks : _ = (e.candidates P cell isDl).map (demand P cell))
      rwa [List.length_map, List.length_map] at hmap
    rw [hasks, map_numRbs_asks] at hsum
    rw [hasks, hcount] at hlimit
    have hperm := unplaced_grantedPdus h hsum hlimit
    have hempty : grantedPdus e.config P cell isDl ranked = [] ↔
        (e.candidates P cell isDl).filterMap (askOf P cell) = [] := by
      rw [← List.length_eq_zero_iff, ← List.length_eq_zero_iff, ← hperm.length_eq,
        List.length_map]
    rw [hasks, if_pos hopen, SchedulerEngine.requests]
    by_cases hnil : grantedPdus e.config P cell isDl ranked = []
    · rw [if_pos hnil, if_neg fun hboth ↦ hboth.2 (hempty.mp hnil)]
      exact .nil
    · rw [if_neg hnil, if_pos ⟨hopen, mt hempty.mpr hnil⟩]
      refine .cons ⟨rfl, rfl, rfl, ?_⟩ .nil
      rw [unplaced_asks]
      exact hperm
  · rw [if_neg hopen, if_neg fun hboth ↦ hopen hboth.1]
    exact .nil

theorem SlotOutcome.sameGrants {cellId : CellId} {t : FrameTiming} {slot : SlotContext}
    {dl ul : List TtiRequest} (h : e.SlotOutcome P cellId t cell slot dl ul e')
    (hun : e.Unsliced) (hfits : e.load.Fits D P cellId t) :
    List.Forall₂ TtiRequest.SameGrants (e.emitted e') (e.load.requests D P cellId t) := by
  have hslot : slot.canSchedule = (cell.load.begin t).canSchedule :=
    SlotContext.canSchedule_of_initializeSlot h.start
  have hroom := hfits cell.load (load_cells h.lookup)
  rw [← hslot] at hroom
  obtain ⟨ranked, hranked, hdl⟩ := h.dl_eq
  obtain ⟨ranked', hranked', hul⟩ := h.ul_eq
  rw [h.emitted_eq, Load.requests, load_cells h.lookup, hdl, hul]
  exact List.rel_append (sameGrants_openRequests hun hranked hslot (hroom true))
    (sameGrants_openRequests hun hranked' hslot (hroom false))

variable [IPolicyManager π D]

/-- A slot with room for all is sent what its load asks for. -/
theorem sameGrants_next {cellId : CellId} {t : FrameTiming} (h : e.Bears l)
    (hfits : l.Fits D P cellId t) (hnext : e.next (P, .slotIndication cellId t) = some e') :
    List.Forall₂ TtiRequest.SameGrants (e.emitted e') (l.requests D P cellId t) := by
  obtain rfl := h.load
  rcases onSlotIndication_ok (next_eq_some.mp hnext) with
    ⟨hlookup, rfl⟩ | ⟨cell, slot, dl, ul, houtcome⟩
  · rw [Load.requests, load_cells_none hlookup, emitted, List.drop_length]
    exact .nil
  · exact houtcome.sameGrants h.unsliced hfits

/-! ## Runs -/

/-- In every slot of every run in which there is room for all, the requests are those that the
load of the run asks for. -/
theorem grants_of_load {config : SchedulerConfig} {is : List (Platform × Event π)}
    (h : is.foldlM SchedulerEngine.next (create config) = some e) {cellId : CellId}
    {t : FrameTiming} (hfits : (loadOf config is).Fits D P cellId t)
    (hnext : e.next (P, .slotIndication cellId t) = some e') :
    List.Forall₂ TtiRequest.SameGrants (e.emitted e')
      ((loadOf config is).requests D P cellId t) :=
  sameGrants_next (bears_of_run h) hfits hnext

/-- Two users are served in both directions, though only one has data for the uplink. -/
theorem grants_of_load_two :
    let is : List (Platform × Event (BuiltinPolicy ℚ)) :=
      onPlain [.addCell (.fdd 1 50) .cleared, .ueConfig { rnti := 7, cellId := 1 },
        .ueConfig { rnti := 8, cellId := 1 }, .dlData ⟨7, 1, 1, 20⟩, .dlData ⟨8, 1, 1, 40⟩,
        .slotIndication 1 {}, .bsr ⟨8, 1, 0, 40, {}⟩]
    ∃ e e' : RationalEngine, is.foldlM SchedulerEngine.next (create {}) = some e ∧
      e.next (.plain, .slotIndication 1 {}) = some e' ∧
      ((loadOf {} is).requests ℚ .plain 1 {}).map (fun request ↦
        (request.isDownlink, request.pdus.map TtiPdu.rnti)) =
          [(true, [8, 7]), (false, [8])] ∧
      List.Forall₂ TtiRequest.SameGrants (e.emitted e')
        ((loadOf {} is).requests ℚ .plain 1 {}) := by
  intro is
  have hsome : (is.foldlM SchedulerEngine.next (create {} : RationalEngine)).any (fun e ↦
      (e.next (.plain, .slotIndication 1 {})).isSome) = true := by
    decide +kernel
  obtain ⟨e, hrun, hslot⟩ := (Option.any_eq_true _ _).mp hsome
  obtain ⟨e', hnext⟩ := Option.isSome_iff_exists.mp hslot
  exact ⟨e, e', hrun, hnext, by decide +kernel, grants_of_load hrun (by decide +kernel) hnext⟩

end SchedulerEngine

/-! ## Two schedulers -/

variable {π : Type}

/-- The event changes what there is to schedule. -/
def Event.isNews : Event π → Bool
  | .setPolicyManager _ | .start | .stop | .harqFeedback _ _ | .rachIndication _
  | .resetStatistics => false
  | _ => true

/-- The same event, but for the ranks that a new configuration leads to. -/
inductive Event.SameNews : Event π → Event π → Prop
  | same (ev : Event π) : SameNews ev ev
  | updateConfig {config config' : SchedulerConfig} (h : config.unranked = config'.unranked) :
      SameNews (.updateConfig config) (.updateConfig config')

theorem Event.SameNews.next {ev ev' : Event π} (h : ev.SameNews ev') (l : Load) :
    l.next ev' = l.next ev := by
  cases h with
  | same => rfl
  | updateConfig h => exact congrArg (fun config ↦ { l with config := config }) h.symm

theorem Event.SameNews.harmless {ev ev' : Event π} (h : ev.SameNews ev') (l : Load) :
    l.Harmless ev' ↔ l.Harmless ev := by
  cases h with
  | same => exact Iff.rfl
  | updateConfig _ => exact Iff.rfl

namespace SchedulerEngine

variable {D : Type} [Double D] [IPolicyManager π D] {e f : SchedulerEngine π D}

theorem Bears.next_hidden {l : Load} (h : e.Bears l) {i : Platform × Event π}
    (hi : i.2.isNews = false) : ∃ e', e.next i = some e' ∧ e'.Bears l := by
  have hquiet : l.Harmless i.2 ∧ l.next i.2 = l := by
    obtain ⟨P, ev⟩ := i
    cases ev with
    | setPolicyManager _ | start | stop | harqFeedback _ _ | rachIndication _
    | resetStatistics => exact ⟨trivial, rfl⟩
    | _ => cases hi
  obtain ⟨e', hnext⟩ := (h.next_exists_iff i).mpr hquiet.1
  exact ⟨e', hnext, hquiet.2 ▸ h.next hnext⟩

theorem Bears.next_same {l : Load} (h : e.Bears l) (h' : f.Bears l) {i j : Platform × Event π}
    (hnews : i.2.SameNews j.2) :
    Option.Rel (fun e f ↦ ∃ l, e.Bears l ∧ f.Bears l) (e.next i) (f.next j) := by
  have hexists := (h.next_exists_iff i).trans
    ((hnews.harmless l).symm.trans (h'.next_exists_iff j).symm)
  cases he : e.next i with
  | none =>
      cases hf : f.next j with
      | none => exact .none
      | some f' =>
          obtain ⟨e', he'⟩ := hexists.mpr ⟨f', hf⟩
          rw [he] at he'
          cases he'
  | some e' =>
      obtain ⟨f', hf⟩ := hexists.mp ⟨e', he⟩
      rw [hf]
      exact .some ⟨l.next i.2, h.next he, hnews.next l ▸ h'.next hf⟩

/-- Two schedulers that are told the same news, each with its own strategy, services and policies
and with its own platform, fail in the same runs, and they send the same wherever there is room for
all. -/
theorem grants_of_sameNews {config config' : SchedulerConfig}
    (hconfig : config.unranked = config'.unranked) {is js : List (Platform × Event π)}
    (hnews : List.Forall₂ (fun i j ↦ i.2.SameNews j.2) (is.filter fun i ↦ i.2.isNews)
      (js.filter fun j ↦ j.2.isNews))
    (h : is.foldlM SchedulerEngine.next (create config) = some e) :
    ∃ f : SchedulerEngine π D, js.foldlM SchedulerEngine.next (create config') = some f ∧
      ∀ P cellId t e', e.next (P, .slotIndication cellId t) = some e' →
        ∃ f', f.next (P, .slotIndication cellId t) = some f' ∧
          (e.load.Fits D P cellId t →
            List.Forall₂ TtiRequest.SameGrants (e.emitted e') (f.emitted f')) := by
  have hstart : (create config' : SchedulerEngine π D).Bears (idleLoad config) := by
    rw [idleLoad, hconfig]
    exact bears_create config'
  have hruns : Option.Rel (fun e f : SchedulerEngine π D ↦ ∃ l, e.Bears l ∧ f.Bears l)
      (is.foldlM SchedulerEngine.next (create config))
      (js.foldlM SchedulerEngine.next (create config')) := by
    refine Runs.aligned _ (fun i ↦ i.2.isNews) (fun j ↦ j.2.isNews) ?_ ?_ ?_
      ⟨_, bears_create config, hstart⟩ hnews
    · rintro e f i j ⟨l, he, hf⟩ hsame
      exact he.next_same hf hsame
    · rintro e f i ⟨l, he, hf⟩ hi
      obtain ⟨e', hnext, he'⟩ := he.next_hidden hi
      exact ⟨e', hnext, l, he', hf⟩
    · rintro e f j ⟨l, he, hf⟩ hj
      obtain ⟨f', hnext, hf'⟩ := hf.next_hidden hj
      exact ⟨f', hnext, l, he, hf'⟩
  rw [h] at hruns
  generalize js.foldlM SchedulerEngine.next (create config' : SchedulerEngine π D) = other
    at hruns ⊢
  obtain ⟨l, he, hf⟩ | _ := hruns
  rename_i f
  refine ⟨f, rfl, fun P cellId t e' hnext ↦ ?_⟩
  have hexists : ∃ e', e.next (P, .slotIndication cellId t) = some e' := ⟨e', hnext⟩
  rw [he.next_exists_iff] at hexists
  obtain ⟨f', hf'⟩ : ∃ f', f.next (P, .slotIndication cellId t) = some f' :=
    (hf.next_exists_iff _).mpr hexists
  refine ⟨f', hf', fun hfits ↦ ?_⟩
  rw [he.load] at hfits
  exact TtiRequest.forall₂_sameGrants (sameGrants_next he hfits hnext)
    (sameGrants_next hf hfits hf')

/-- Here the second scheduler is told of another policy, and it serves the users in another
order. -/
theorem grants_of_sameNews_swapped :
    let news : List (Event (BuiltinPolicy ℚ)) :=
      [.addCell (.fdd 1 50) .cleared, .ueConfig { rnti := 7, cellId := 1 },
        .ueConfig { rnti := 8, cellId := 1 }, .dlData ⟨7, 1, 1, 20⟩, .dlData ⟨8, 1, 1, 20⟩,
        .csiUpdate 7 1 { widebandCqi := 9 }, .csiUpdate 8 1 { widebandCqi := 3 }]
    ∃ e f e' f' : RationalEngine,
      (onPlain news).foldlM SchedulerEngine.next
        (create { strategy := .roundRobin, enableQos := false }) = some e ∧
      (onPlain (.setPolicyManager .maxThroughput :: .start :: news)).foldlM
        SchedulerEngine.next (create {}) = some f ∧
      e.next (.plain, .slotIndication 1 {}) = some e' ∧
      f.next (.plain, .slotIndication 1 {}) = some f' ∧
      (e.emitted e').map (fun request ↦ request.pdus.map TtiPdu.rnti) = [[8, 7]] ∧
      (f.emitted f').map (fun request ↦ request.pdus.map TtiPdu.rnti) = [[7, 8]] ∧
      List.Forall₂ TtiRequest.SameGrants (e.emitted e') (f.emitted f') := by
  intro news
  have hsome : ((onPlain news).foldlM SchedulerEngine.next (create
      { strategy := .roundRobin, enableQos := false } : RationalEngine)).any (fun e ↦
        decide (e.load.Fits ℚ .plain 1 {}) && (e.next (.plain, .slotIndication 1 {})).any fun e' ↦
          (e.emitted e').map (fun request ↦ request.pdus.map TtiPdu.rnti) == [[8, 7]]) = true := by
    decide +kernel
  obtain ⟨e, hrun, hslot⟩ := (Option.any_eq_true _ _).mp hsome
  obtain ⟨hfits, hslot⟩ := Bool.and_eq_true_iff.mp hslot
  obtain ⟨e', hnext, hrntis⟩ := (Option.any_eq_true _ _).mp hslot
  have hnews : List.Forall₂ (fun i j ↦ i.2.SameNews j.2)
      ((onPlain news).filter fun i ↦ i.2.isNews)
      ((onPlain (.setPolicyManager .maxThroughput :: .start :: news)).filter
        fun j ↦ j.2.isNews) := by
    apply List.forall₂_same.mpr
    exact fun i _ ↦ .same i.2
  have hconfig : SchedulerConfig.unranked { strategy := .roundRobin, enableQos := false } =
      SchedulerConfig.unranked {} := rfl
  obtain ⟨f, hother, hslots⟩ := grants_of_sameNews hconfig hnews hrun
  obtain ⟨f', hnext', hsame⟩ := hslots .plain 1 {} e' hnext
  refine ⟨e, f, e', f', hrun, hother, hnext, hnext', beq_iff_eq.mp hrntis, ?_,
    hsame (of_decide_eq_true hfits)⟩
  have hslot' : (((onPlain (.setPolicyManager .maxThroughput :: .start :: news)).foldlM
      SchedulerEngine.next (create {} : RationalEngine)).bind fun f ↦
        (f.next (.plain, .slotIndication 1 {})).map fun f' ↦
          (f.emitted f').map fun request ↦ request.pdus.map TtiPdu.rnti) = some [[7, 8]] := by
    decide +kernel
  rw [hother, Option.bind_some, hnext', Option.map_some, Option.some.injEq] at hslot'
  exact hslot'

end SchedulerEngine

end NrScheduler
