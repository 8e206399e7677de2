import NrScheduler.Engine.Locality
import NrScheduler.Engine.Reports

/-!
# The book of reports

What the scheduler knows of its users can be read off a book that lists the cells, the latest
configuration of every user and the events since.  Slots and feedback write nothing else.
-/

namespace NrScheduler

open LockMonad SchedulerEngine

variable {π D : Type}

/-- The cells, and for each known user its latest configuration and the events since. -/
structure Book (π : Type) where
  cells : CellId → Bool
  users : CellId → Rnti → Option (UeConfigRequest × List (Event π))

namespace Book

def empty : Book π := ⟨fun _ ↦ false, fun _ _ ↦ none⟩

def write (b : Book π) (ev : Event π) : Book π where
  cells c :=
    match ev with
    | .addCell config _ => b.cells c || config.cellId == c
    | .removeCell cellId => b.cells c && cellId != c
    | _ => b.cells c
  users c r :=
    if ev.replaces c r then
      match ev with
      | .ueConfig request => if b.cells c then some (request, []) else none
      | _ => none
    else (b.users c r).map fun known ↦ (known.1, known.2 ++ [ev])

end Book

/-! ## What an event leaves of a context -/

namespace SchedulerEngine

/-- A context as the request configures it. -/
def Fresh (request : UeConfigRequest) (ue : UeContext) : Prop :=
  ∃ (repo : UeRepository) (ptr : UePtr), ue = configureUe request (repo.newUe ptr request.rnti)

/-- A known user of a state and what the book says of it. -/
def KnownAs (c : CellId) (r : Rnti) (ue : UeContext)
    (known : UeConfigRequest × List (Event π)) : Prop :=
  known.1.rnti = r ∧ ∃ ue₀, Fresh known.1 ue₀ ∧ ue₀.After known.2 c ue

/-- The book lists the cells and the users of the state. -/
structure Listed (e : SchedulerEngine π D) (b : Book π) : Prop where
  consistent : e.Consistent
  cells : ∀ c, b.cells c = true ↔ c ∈ e.cells
  users : ∀ c r, Option.Rel (KnownAs c r) (e.ueAt c r) (b.users c r)

variable [Double D] [IPolicyManager π D] {e e' : SchedulerEngine π D} {c : CellId} {r : Rnti}

/-- An event that is no report and replaces no one leaves a context as it is. -/
theorem ueAt_of_not_reported (hinv : e.Consistent) {i : Platform × Event π}
    (h : e.next i = some e') (hkeep : i.2.replaces c r = false) (hupdate : i.2.isUpdate = false)
    (hue : (e.ueAt c r).isSome) : e'.ueAt c r = e.ueAt c r ∧
      ∀ field new, i.2.reported ≠ some ((c, r), field, new) := by
  have hrun := next_eq_some.mp h
  obtain ⟨P, ev⟩ := i
  obtain ⟨f, hf, hreports⟩ := handle_reports hrun hkeep
  cases ev with
  | dlData _ | sr _ | phr _ | csiUpdate _ _ _ => cases hupdate
  | bsr b =>
      -- a report on a group that does not exist gets through for an unknown user only
      have hgroup : 8 ≤ b.lcgId := not_lt.mp (of_decide_eq_false hupdate)
      have hunknown : e.ueAt b.cellId b.rnti = none := by
        by_contra hknown
        cases (onBsr_crash (Option.ne_none_iff_isSome.mp hknown) hgroup).symm.trans hrun
      obtain rfl : e = e' :=
        Except.ok.inj ((updateUe_unknown hunknown _ _ _).symm.trans hrun)
      refine ⟨rfl, fun field new heq ↦ ?_⟩
      cases heq
      rw [hunknown] at hue
      cases hue
  | harqFeedback cellId fb =>
      obtain ⟨e₁, he₁, hsame⟩ := hinv.onHarqFeedback cellId fb
      obtain rfl : e₁ = e' := Except.ok.inj (he₁.symm.trans hrun)
      refine ⟨?_, fun _ _ heq ↦ by cases heq⟩
      rw [ueAt, hsame.lookup]
      rfl
  | _ =>
      cases hf
      refine ⟨?_, fun _ _ heq ↦ by cases heq⟩
      rw [hreports, Option.map_id, id]

/-- An event that replaces no one is written into a context exactly as it is into the book. -/
theorem knownAs_of_kept (hinv : e.Consistent) {i : Platform × Event π} (h : e.next i = some e')
    (hkeep : i.2.replaces c r = false) {known : Option (UeConfigRequest × List (Event π))}
    (hknown : Option.Rel (KnownAs c r) (e.ueAt c r) known) :
    Option.Rel (KnownAs c r) (e'.ueAt c r)
      (known.map fun known ↦ (known.1, known.2 ++ [i.2])) := by
  obtain ⟨f, _, hreports⟩ := handle_reports (next_eq_some.mp h) hkeep
  cases hue : e.ueAt c r with
  | none =>
      rw [hue] at hknown hreports
      cases hknown
      rw [hreports]
      exact .none
  | some ue =>
      rw [hue] at hknown
      obtain ⟨hrnti, ue₀, hfresh, hafter⟩ | _ := hknown
      have hrnti₀ : ue₀.rnti = r := by
        obtain ⟨repo, ptr, rfl⟩ := hfresh
        exact hrnti
      cases hupdate : i.2.isUpdate with
      | false =>
          obtain ⟨hsame, hother⟩ := ueAt_of_not_reported hinv h hkeep hupdate (by rw [hue]; rfl)
          rw [hsame, hue]
          refine .some ⟨hrnti, ue₀, hfresh, hafter.skip ?_⟩
          rw [hrnti₀]
          exact hother
      | true =>
          obtain ⟨cellId, rnti, g, hupdates⟩ := Event.exists_updates hupdate
          obtain ⟨check, hg, _, hhandle⟩ := hupdates.handled
          have hrun := next_eq_some.mp h
          rw [hhandle] at hrun
          have hueAt := (updateUe_ok hrun).1.ueAt c r
          by_cases hcr : c = cellId ∧ r = rnti
          · rw [if_pos hcr, hue] at hueAt
            rw [hueAt]
            obtain ⟨rfl, rfl⟩ := hcr
            exact .some ⟨hrnti, ue₀, hfresh, hupdates.after _ _ _ hrnti₀ hafter⟩
          · rw [if_neg hcr, hue] at hueAt
            rw [hueAt]
            refine .some ⟨hrnti, ue₀, hfresh, hafter.skip fun field new hreported ↦ hcr ?_⟩
            have huser := hupdates.named _ field new hreported
            rw [hrnti₀] at huser
            exact Prod.mk.inj huser

omit [IPolicyManager π D] in
theorem ueAt_configured {request : UeConfigRequest}
    (h : (e.onUeConfig request).run none = .ok e') :
    if request.cellId ∈ e.cells then
      ∃ ue, e'.ueAt request.cellId request.rnti = some ue ∧ Fresh request ue
    else e' = e := by
  rcases onUeConfig_cases h with ⟨hlookup, rfl⟩ | ⟨cell, repo, slices, hlookup, hrepo, rfl⟩
  · rw [if_neg (AList.lookup_eq_none.mp hlookup)]
  · rw [if_pos (AList.lookup_isSome.mp (by rw [hlookup]; rfl))]
    refine ⟨_, ?_, cell.ueRepo, (request.cellId, e.created request.cellId), rfl⟩
    have hcreate : repo.ue? request.rnti = some (cell.ueRepo.newUe
        (request.cellId, e.created request.cellId) request.rnti) := by
      cases hrepo
      exact (cell.ueRepo.ue?_insertUe (cell.ueRepo.newUe
        (request.cellId, e.created request.cellId) request.rnti) request.rnti).trans (if_pos rfl)
    refine (ueAt_insert rfl request.cellId request.rnti).trans ((if_pos rfl).trans ?_)
    refine (repo.ue?_modifyUe request.rnti request.rnti (configureUe request) fun _ ↦ rfl).trans ?_
    rw [if_pos rfl, hcreate]
    rfl

omit [Double D] [IPolicyManager π D] in
theorem configAt_isSome : (e.configAt c).isSome = true ↔ c ∈ e.cells := by
  rw [configAt, Option.isSome_map, AList.lookup_isSome]

/-- The configurations of the cells after an event. -/
theorem handle_cells {P : Platform} {ev : Event π} (hinv : e.Consistent)
    (h : (e.handle P ev).run none = .ok e') (c : CellId) : e'.configAt c =
      match ev with
      | .addCell config _ => (e.configAt c).or (if c = config.cellId then some config else none)
      | .removeCell cellId => if cellId = c then none else e.configAt c
      | _ => e.configAt c := by
  cases ev with
  | addCell config memory =>
      obtain ⟨⟨added, e₁⟩, hadd, hrest⟩ := run_bind_eq_ok.mp h
      cases hrest
      exact (addCell_ok hadd).2.2.2 c
  | removeCell cellId => exact (removeCell_ok h).2.2.2 c
  | slotIndication cellId t => exact congrFun (onSlotIndication_users h).2.1 c
  | ueConfig request => exact congrFun (onUeConfig_ok h).2.2.2.1 c
  | ueRelease release => exact congrFun (onUeRelease_ok h).2.1 c
  | dlData _ | bsr _ | sr _ | phr _ | csiUpdate _ _ _ => exact congrFun (updateUe_ok h).1.configAt c
  | harqFeedback cellId fb =>
      obtain ⟨e₁, he₁, hsame⟩ := hinv.onHarqFeedback cellId fb
      obtain rfl : e₁ = e' := Except.ok.inj (he₁.symm.trans h)
      exact congrArg (Option.map _) (hsame.lookup c)
  | setPolicyManager _ | start | stop | rachIndication _ | updateConfig _ | resetStatistics =>
      cases h
      rfl

/-- Every event is written into the book. -/
theorem Listed.next {b : Book π} (h : e.Listed b) {i : Platform × Event π}
    (hnext : e.next i = some e') : e'.Listed (b.write i.2) where
  consistent := h.consistent.step hnext
  cells c := by
    have hcells := handle_cells h.consistent (next_eq_some.mp hnext) c
    have hlisted := (h.cells c).trans configAt_isSome.symm
    rw [← configAt_isSome, hcells]
    obtain ⟨P, ev⟩ := i
    cases ev with
    | addCell config memory =>
        rw [Book.write, Bool.or_eq_true, beq_iff_eq, hlisted, Option.isSome_or, Bool.or_eq_true]
        refine or_congr Iff.rfl ?_
        by_cases hc : c = config.cellId
        · simp [hc]
        · simp [hc, Ne.symm hc]
    | removeCell cellId =>
        rw [Book.write, Bool.and_eq_true, bne_iff_ne, hlisted]
        by_cases hc : cellId = c
        · simp [hc]
        · simp [hc]
    | _ => exact hlisted
  users c r := by
    have hrun := next_eq_some.mp hnext
    rw [Book.write]
    dsimp only
    split
    · rename_i hreplaces
      obtain ⟨P, ev⟩ := i
      cases ev with
      | removeCell cellId =>
          rw [(removeCell_ok hrun).1, if_pos (beq_iff_eq.mp hreplaces)]
          exact .none
      | ueRelease release =>
          simp only [Event.replaces, Bool.and_eq_true, beq_iff_eq] at hreplaces
          rw [(onUeRelease_ok hrun).1, if_pos hreplaces]
          exact .none
      | ueConfig request =>
          simp only [Event.replaces, Bool.and_eq_true, beq_iff_eq] at hreplaces
          obtain ⟨rfl, rfl⟩ := hreplaces
          have hconfigured := ueAt_configured hrun
          by_cases hmem : request.cellId ∈ e.cells
          · rw [if_pos hmem] at hconfigured
            obtain ⟨ue, hue, hfresh⟩ := hconfigured
            rw [hue]
            simp only [(h.cells request.cellId).mpr hmem, if_true]
            exact .some ⟨rfl, ue, hfresh, .refl _ _⟩
          · rw [if_neg hmem] at hconfigured
            have hnone : e.ueAt request.cellId request.rnti = none := by
              rw [ueAt, AList.lookup_eq_none.mpr hmem, Option.bind_none]
            have hcell : b.cells request.cellId = false :=
              Bool.eq_false_iff.mpr (mt (h.cells request.cellId).mp hmem)
            rw [hconfigured, hnone]
            simp only [hcell, Bool.false_eq_true, if_false]
            exact .none
      | _ => cases hreplaces
    · rename_i hkeep
      exact knownAs_of_kept h.consistent hnext (Bool.eq_false_iff.mpr hkeep) (h.users c r)

theorem listed_create (config : SchedulerConfig) :
    (create config : SchedulerEngine π D).Listed .empty where
  consistent := consistent_create config
  cells _ := iff_of_false Bool.false_ne_true fun h ↦ (AList.notMem_empty _ h)
  users _ _ := .none

/-- The book of a run. -/
def book (is : List (Platform × Event π)) : Book π :=
  is.foldl (fun b i ↦ b.write i.2) .empty

theorem listed_of_run {config : SchedulerConfig} {is : List (Platform × Event π)}
    (h : is.foldlM SchedulerEngine.next (create config : SchedulerEngine π D) = some e) :
    e.Listed (book is) := by
  apply Runs.foldlM_followed ?_ (listed_create config) h
  exact fun _ _ _ _ hlisted hnext ↦ hlisted.next hnext

end SchedulerEngine

/-! ## What the book tells of a user -/

/-- What a field holds before anything is reported. -/
def ReportField.blank : ReportField → ReportValue
  | .dlBuffer _ => .bytes none
  | .ulBuffer lcgId => .bytes (if lcgId < 8 then some 0 else none)
  | .srPending => .raised false
  | .dlChannelQuality => .quality {}

/-- The value of a field after some reports. -/
def Event.value (c : CellId) (r : Rnti) (reports : List (Event π)) (field : ReportField) :
    ReportValue :=
  (latest (c, r) field reports).getD field.blank

/-- The context of a user as the book has it. -/
structure UeContext.AsTold (c : CellId) (r : Rnti) (ue : UeContext)
    (known : UeConfigRequest × List (Event π)) : Prop where
  rnti : ue.rnti = r
  sliceId : ue.sliceId = known.1.sliceId
  dlBwps : ue.dlBwps = known.1.dlBwps
  ulBwps : ue.ulBwps = known.1.ulBwps
  drxConfig : ue.drxConfig = known.1.drxConfig
  drxState : ue.drxState = {}
  harq : ∀ isDl, ue.harq isDl = .create 16
  read : ∀ field, ue.read field = Event.value c r known.2 field

namespace SchedulerEngine

theorem KnownAs.asTold {c : CellId} {r : Rnti} {ue : UeContext}
    {known : UeConfigRequest × List (Event π)} (h : KnownAs c r ue known) :
    ue.AsTold c r known := by
  obtain ⟨hrnti, ue₀, ⟨repo, ptr, rfl⟩, hafter⟩ := h
  have hread := hafter.read
  have hkey : (configureUe known.1 (repo.newUe ptr known.1.rnti)).rnti = r := hrnti
  rw [hafter.rest]
  rw [hkey] at hread
  refine ⟨hrnti, rfl, rfl, rfl, rfl, rfl, fun isDl ↦ by cases isDl <;> rfl, fun field ↦ ?_⟩
  refine (hread field).trans (congrArg _ ?_)
  cases field with
  | ulBuffer lcgId =>
      change ReportValue.bytes (Vector.replicate 8 0)[lcgId]? = _
      rw [Vector.getElem?_replicate]
      rfl
  | _ => rfl

end SchedulerEngine

end NrScheduler
