import NrScheduler.Engine.ThroughputOrder

/-!
# What the maximum throughput policy forgets

The policy keeps nothing, and nothing that was sent leaves a trace in the load.  What a slot
sends, however scarce the blocks are, depends on the news of the run alone: not on the slots
before it, nor on their feedback.
-/

namespace NrScheduler

open LockMonad SchedulerEngine

/-! ## Loads without the slots -/

theorem CellLoad.begin_begin (cell : CellLoad) (t t' : FrameTiming) :
    (cell.begin t).begin t' = cell.begin t' := by
  have hopens : cell.config.opens t' (cell.config.opens t cell.canSchedule) =
      cell.config.opens t' cell.canSchedule := by
    simp only [CellConfig.opens]
    split
    · rfl
    · split <;> rfl
  rw [begin, begin, begin]
  exact congrArg (CellLoad.mk cell.config cell.ueRepo) hopens

namespace Load

variable {l l' : Load}

/-- The loads look the same in every slot that begins. -/
structure Alike (l l' : Load) : Prop where
  config : l'.config = l.config
  created : l'.created = l.created
  cells : ∀ c t, (l'.cells c).map (CellLoad.begin · t) = (l.cells c).map (CellLoad.begin · t)

namespace Alike

theorem refl (l : Load) : l.Alike l := ⟨rfl, rfl, fun _ _ ↦ rfl⟩

theorem symm (h : l.Alike l') : l'.Alike l :=
  ⟨h.config.symm, h.created.symm, fun c t ↦ (h.cells c t).symm⟩

theorem trans {l'' : Load} (h : l.Alike l') (h' : l'.Alike l'') : l.Alike l'' :=
  ⟨h'.config.trans h.config, h'.created.trans h.created,
    fun c t ↦ (h'.cells c t).trans (h.cells c t)⟩

theorem setCell (h : l.Alike l') (cellId : CellId) {cell cell' : Option CellLoad}
    (hcell : ∀ t, cell'.map (CellLoad.begin · t) = cell.map (CellLoad.begin · t)) :
    (l.setCell cellId cell).Alike (l'.setCell cellId cell') := by
  refine ⟨h.config, h.created, fun c t ↦ ?_⟩
  rw [Load.setCell, Load.setCell]
  by_cases hc : c = cellId
  · subst hc
    simp only [Function.update_self]
    exact hcell t
  · simp only [Function.update_of_ne hc]
    exact h.cells c t

theorem mapUsers (h : l.Alike l') (cellId : CellId) (f : UeRepository → UeRepository) :
    (l.mapUsers cellId f).Alike (l'.mapUsers cellId f) := by
  apply h.setCell
  intro t
  have hcommutes : ∀ cell : Option CellLoad,
      (cell.map fun cell ↦ { cell with ueRepo := f cell.ueRepo }).map (CellLoad.begin · t) =
        (cell.map (CellLoad.begin · t)).map fun cell ↦
          { cell with ueRepo := f cell.ueRepo } := by
    intro cell
    rw [Option.map_map, Option.map_map]
    rfl
  rw [hcommutes, hcommutes, h.cells]

/-- The beginning of a slot is forgotten at the next. -/
theorem begin (h : l.Alike l') (cellId : CellId) (t : FrameTiming) :
    (l.setCell cellId ((l.cells cellId).map fun cell ↦ cell.begin t)).Alike l' := by
  refine ⟨h.config, h.created, fun c t' ↦ ?_⟩
  rw [Load.setCell]
  by_cases hc : c = cellId
  · subst hc
    simp only [Function.update_self, Option.map_map, Function.comp_def, CellLoad.begin_begin]
    exact h.cells c t'
  · simp only [Function.update_of_ne hc]
    exact h.cells c t'

theorem next {π : Type} (h : l.Alike l') (ev : Event π) : (l.next ev).Alike (l'.next ev) := by
  cases ev with
  | addCell config memory =>
      apply h.setCell
      intro t
      rw [Option.map_or, Option.map_or, h.cells]
  | removeCell cellId => exact h.setCell cellId fun _ ↦ rfl
  | slotIndication cellId t => exact ((h.symm.begin cellId t).symm.begin cellId t)
  | ueConfig request =>
      have hknown : (l'.cells request.cellId).isNone = (l.cells request.cellId).isNone := by
        have hcells := congrArg Option.isNone (h.cells request.cellId {})
        rwa [Option.isNone_map, Option.isNone_map] at hcells
      rw [Load.next, Load.next, hknown]
      split
      · exact h
      · rw [h.created]
        have husers := h.mapUsers request.cellId
          (configured (request.cellId, l.created request.cellId) request)
        exact ⟨husers.config, rfl, husers.cells⟩
  | ueRelease _ | dlData _ | bsr _ | sr _ | phr _ | csiUpdate _ _ _ =>
      rw [Load.next, Load.next]
      apply h.mapUsers
  | updateConfig config => exact ⟨rfl, h.created, h.cells⟩
  | setPolicyManager _ | start | stop | harqFeedback _ _ | rachIndication _
  | resetStatistics => exact h

/-- Whether a slot does harm is the same for both. -/
theorem harmless {π : Type} (h : l.Alike l') (cellId : CellId) (t : FrameTiming)
    (hl : l.Harmless (.slotIndication cellId t : Event π)) :
    l'.Harmless (.slotIndication cellId t : Event π) := by
  intro cell' hcell'
  have hbegin := h.cells cellId t
  rw [hcell', Option.map_some] at hbegin
  obtain ⟨cell, hcell, hsame⟩ := Option.map_eq_some_iff.mp hbegin.symm
  obtain ⟨hdirections, hfits⟩ := hl cell hcell
  have hcells : cell'.config = cell.config ∧ cell'.ueRepo = cell.ueRepo :=
    ⟨(congrArg CellLoad.config hsame).symm, (congrArg CellLoad.ueRepo hsame).symm⟩
  refine ⟨hcells.1 ▸ hdirections, fun isDl hcompetes ↦ ?_⟩
  rw [Competes, h.config, hcells.1, hcells.2, ← hsame] at hcompetes
  rw [hcells.1]
  exact hfits isDl hcompetes

end Alike

end Load

/-- The event changes what there is to schedule, and is no slot. -/
def Event.tells {π : Type} : Event π → Bool
  | .slotIndication _ _ | .setPolicyManager _ | .start | .stop | .harqFeedback _ _
  | .rachIndication _ | .resetStatistics => false
  | _ => true

theorem Load.Alike.next_untold {π : Type} {l l' : Load} (h : l.Alike l') {ev : Event π}
    (hev : ev.tells = false) : (l.next ev).Alike l' := by
  cases ev with
  | slotIndication cellId t => exact h.begin cellId t
  | setPolicyManager _ | start | stop | harqFeedback _ _ | rachIndication _
  | resetStatistics => exact h
  | _ => cases hev

/-- The load of a run is made by the events that tell something. -/
theorem foldl_next_alike {π : Type} {l l' : Load} (h : l.Alike l')
    (is : List (Platform × Event π)) : (is.foldl (fun l i ↦ l.next i.2) l).Alike
      (((is.filter fun i ↦ i.2.tells).map Prod.snd).foldl Load.next l') := by
  induction is generalizing l l' with
  | nil => exact h
  | cons i is ih =>
      cases hi : i.2.tells with
      | true =>
          have hfilter : (i :: is).filter (fun i ↦ i.2.tells) =
              i :: is.filter (fun i ↦ i.2.tells) :=
            List.filter_cons_of_pos hi
          rw [hfilter]
          exact ih (h.next i.2)
      | false =>
          have hfilter : (i :: is).filter (fun i ↦ i.2.tells) =
              is.filter (fun i ↦ i.2.tells) :=
            List.filter_cons_of_neg (by rw [hi]; exact Bool.false_ne_true)
          rw [hfilter]
          exact ih (h.next_untold hi)

/-! ## The best candidates -/

namespace Load

section Best

variable (D : Type) [Double D] (l : Load) (P : Platform) (cell : CellLoad) (t : FrameTiming)
  (isDl : Bool)

/-- The candidates of a cell in the order of their scores. -/
def rankedByThroughput : List (SchedulingDecision D) :=
  sortByPriority P ((cell.candidates D l.config P isDl).map
    (SchedulerEngine.rankByThroughput cell.toCell isDl))

/-- The request for as many of them as fit into a direction that is open. -/
def bestOf : List TtiRequest :=
  if cell.canSchedule isDl then
    SchedulerEngine.requests l.config P cell.toCell isDl t (l.rankedByThroughput D P cell isDl)
  else []

def best (cellId : CellId) : List TtiRequest :=
  match (l.cells cellId).map (CellLoad.begin · t) with
  | none => []
  | some cell => l.bestOf D P cell t true ++ l.bestOf D P cell t false

end Best

theorem Alike.best {D : Type} [Double D] {l l' : Load} (h : l.Alike l') (P : Platform)
    (t : FrameTiming) (cellId : CellId) : l'.best D P t cellId = l.best D P t cellId := by
  simp only [Load.best, h.cells, bestOf, rankedByThroughput, h.config]

end Load

namespace SchedulerEngine

variable {D : Type} [Double D] {e e' f f' : SchedulerEngine (BuiltinPolicy D) D} {P : Platform}
  {cell cell₁ cell₂ : CellContext} {t : FrameTiming} {isDl : Bool} {reqs : List TtiRequest}

/-! ## Slots -/

omit [Double D] in
theorem pdusIn_requests (config : SchedulerConfig) (ranked : List (SchedulingDecision D)) :
    pdusIn (requests config P cell isDl t ranked) = grantedPdus config P cell isDl ranked := by
  rw [requests]
  split
  · rename_i hnil
    rw [hnil]
    rfl
  · exact List.flatMap_singleton _ _

/-- The ranking that a direction is served by does not depend on what came before the slot. -/
theorem ServesIn.ranks_eq (h : e.ServesIn cell t isDl f cell₁) (hmax : e.MaximizesThroughput) :
    (f.candidates P cell₁ isDl).map (rankByThroughput cell₁ isDl) =
      (e.candidates P cell isDl).map (rankByThroughput cell isDl) := by
  have heligible : f.isEligible isDl = e.isEligible isDl := by
    funext ue
    rw [isEligible, isEligible, h.config, hmax.enableSlicing]
    rfl
  have hrank : (rankByThroughput cell₁ isDl : SchedulingDecision D → _) =
      rankByThroughput cell isDl := by
    funext d
    rw [rankByThroughput, rankByThroughput, h.ueRepo]
  rw [candidates, candidates, heligible, hrank, h.config, h.ueRepo]

/-- A direction is sent the request for the best candidates of its load. -/
theorem ServesIn.requests_eq (h : e.ServesIn cell t isDl f cell₁) (hmax : e.MaximizesThroughput)
    (hun : e.Unsliced) (hrun : (f.serve P cell₁ isDl).run none = .ok (cell₂, f'))
    (houtcome : f.ServeOutcome P cell₁ isDl reqs cell₂ f') :
    reqs = e.load.bestOf D P (cell.load.begin t) t isDl := by
  obtain ⟨ranked, _, hreqs⟩ := houtcome.ranking
  obtain ⟨numSymbols, hgrid⟩ := h.grid
  have hranks := calculatePriorities_maxThroughput h.maximizes P cell₁ isDl
    (f.candidates P cell₁ isDl)
  rw [h.ranks_eq hmax] at hranks
  let sorted := sortByPriority P ((e.candidates P cell isDl).map (rankByThroughput cell isDl))
  have hsorted : openRequests cell₁.currentSlot f.config P cell₁ isDl t ranked =
      openRequests cell₁.currentSlot f.config P cell₁ isDl t sorted := by
    rw [openRequests, openRequests]
    cases hopen : cell₁.currentSlot.canSchedule isDl with
    | false => rfl
    | true =>
        have hgranted : grantedPdus f.config P cell₁ isDl ranked =
            grantedPdus f.config P cell₁ isDl sorted := by
          rw [← serve_sorted hranks hgrid hopen hrun houtcome.sent, hreqs, openRequests, hopen,
            if_pos rfl, pdusIn_requests]
        simp only [requests, hgranted]
  calc reqs = openRequests cell₁.currentSlot e.config P cell₁ isDl t sorted := by
        rw [hreqs, h.timing, hsorted, h.config]
    _ = openRequests cell₁.currentSlot e.config P cell isDl t sorted :=
        openRequests_congr rfl h.ueRepo h.cellConfig
    _ = e.load.bestOf D P (cell.load.begin t) t isDl := by
        have hcandidates : (cell.load.begin t).candidates D e.load.config P isDl =
            e.candidates P cell isDl := load_candidates hun
        rw [openRequests, h.opens, Load.bestOf, Load.rankedByThroughput, hcandidates]
        rfl

/-- A slot is sent the requests for the best candidates of its load. -/
theorem Bears.emitted_eq {l : Load} (h : e.Bears l) (hmax : e.MaximizesThroughput)
    {cellId : CellId} (hnext : e.next (P, .slotIndication cellId t) = some e') :
    e.emitted e' = l.best D P t cellId := by
  obtain rfl := h.load
  have hrun := onSlotIndication_of_next hnext
  cases hlookup : e.cells.lookup cellId with
  | none =>
      obtain rfl := Except.ok.inj ((onSlotIndication_skipped hlookup P t).symm.trans hrun)
      rw [Load.best, load_cells_none hlookup, emitted, List.drop_length]
      rfl
  | some cell =>
      obtain ⟨_, dl, ul, hsent, rfl, rfl⟩ := slot_of_serve
        (fun isDl reqs ↦ reqs = e.load.bestOf D P (cell.load.begin t) t isDl) hmax hlookup hrun
        fun _ _ _ _ _ _ hserves hrun houtcome ↦
          hserves.requests_eq hmax h.unsliced hrun houtcome
      rw [SchedulerEngine.emitted_eq hsent, Load.best, load_cells hlookup]
      rfl

/-! ## Runs -/

/-- Two runs under this policy that bring the same news send the same in the slots that follow,
whatever was scheduled before and however it was answered. -/
theorem emitted_of_tells {config : SchedulerConfig}
    {is js : List (Platform × Event (BuiltinPolicy D))} (hconfig : config.maximizes = true)
    (hmax : ∀ i ∈ is ++ js, i.2.maximizes = true)
    (hnews : (is.filter fun i ↦ i.2.tells).map Prod.snd =
      (js.filter fun j ↦ j.2.tells).map Prod.snd)
    (h : is.foldlM SchedulerEngine.next (create config) = some e)
    (h' : js.foldlM SchedulerEngine.next (create config) = some f) (P : Platform)
    (cellId : CellId) (t : FrameTiming) :
    (f.next (P, .slotIndication cellId t)).map f.emitted =
      (e.next (P, .slotIndication cellId t)).map e.emitted := by
  obtain ⟨hmaxIs, hmaxJs⟩ := List.forall_mem_append.mp hmax
  have he := maximizes_of_run hconfig hmaxIs h
  have hf := maximizes_of_run hconfig hmaxJs h'
  have hbears := bears_of_run h
  have hbears' := bears_of_run h'
  have hsame : (loadOf config is).Alike (loadOf config js) := by
    have hload := foldl_next_alike (.refl (idleLoad config)) is
    rw [hnews] at hload
    exact hload.trans (foldl_next_alike (.refl (idleLoad config)) js).symm
  cases hnext : e.next (P, .slotIndication cellId t) with
  | none =>
      cases hnext' : f.next (P, .slotIndication cellId t) with
      | none => rfl
      | some f' =>
          have hharmless := (hbears'.next_exists_iff _).mp ⟨f', hnext'⟩
          obtain ⟨e', he'⟩ := (hbears.next_exists_iff (P, .slotIndication cellId t)).mpr
            (hsame.symm.harmless cellId t hharmless)
          rw [hnext] at he'
          cases he'
  | some e' =>
      have hharmless := (hbears.next_exists_iff _).mp ⟨e', hnext⟩
      obtain ⟨f', hnext'⟩ := (hbears'.next_exists_iff (P, .slotIndication cellId t)).mpr
        (hsame.harmless cellId t hharmless)
      rw [hnext', Option.map_some, Option.map_some, hbears.emitted_eq he hnext,
        hbears'.emitted_eq hf hnext', hsame.best]

/-- After a whole frame and its feedback, two users of whom one can be served are treated as in
the first slot. -/
theorem emitted_of_tells_frame :
    let user (rnti : Rnti) (cqi : ℕ) : List (Event (BuiltinPolicy ℚ)) :=
      [.ueConfig { rnti := rnti, cellId := 1 }, .dlData ⟨rnti, 1, 1, 300⟩,
        .csiUpdate rnti 1 { widebandCqi := cqi }]
    let news := .addCell (.fdd 1 8) .cleared :: (user 7 3 ++ user 8 12)
    let frame : List (Event (BuiltinPolicy ℚ)) :=
      [.slotIndication 1 {}, .slotIndication 1 { slot := 1 },
        .harqFeedback 1 { harqId := 0, ack := true, feedbackTime := { slot := 4 } },
        .slotIndication 1 { slot := 7 }, .stop, .setPolicyManager .maxThroughput, .start]
    let config : SchedulerConfig := { strategy := .maxThroughput, enableQos := false }
    ∃ e f : RationalEngine,
      (onPlain news).foldlM SchedulerEngine.next (create config) = some e ∧
      (onPlain (news ++ frame)).foldlM SchedulerEngine.next (create config) = some f ∧
      (f.next (.plain, .slotIndication 1 { slot := 9 })).map f.emitted =
        (e.next (.plain, .slotIndication 1 { slot := 9 })).map e.emitted ∧
      f.sent.length = 3 ∧
      ((e.next (.plain, .slotIndication 1 { slot := 9 })).map fun e' ↦
        (e.emitted e').map fun request ↦ request.pdus.map TtiPdu.rnti) = some [[8]] := by
  intro user news frame config
  have hsome : ((onPlain news).foldlM SchedulerEngine.next
      (create config : RationalEngine)).any (fun e ↦
        ((onPlain (news ++ frame)).foldlM SchedulerEngine.next
          (create config : RationalEngine)).any fun f ↦ f.sent.length == 3 &&
            ((e.next (.plain, .slotIndication 1 { slot := 9 })).map fun e' ↦
              (e.emitted e').map fun request ↦ request.pdus.map TtiPdu.rnti) ==
                some [[8]]) = true := by
    decide +kernel
  obtain ⟨e, he, hsome⟩ := (Option.any_eq_true _ _).mp hsome
  obtain ⟨f, hf, hsome⟩ := (Option.any_eq_true _ _).mp hsome
  obtain ⟨hlength, hserved⟩ := Bool.and_eq_true_iff.mp hsome
  refine ⟨e, f, he, hf, ?_, beq_iff_eq.mp hlength, beq_iff_eq.mp hserved⟩
  exact emitted_of_tells (by decide) (by decide) (by rfl) he hf .plain 1 { slot := 9 }

end SchedulerEngine

end NrScheduler
