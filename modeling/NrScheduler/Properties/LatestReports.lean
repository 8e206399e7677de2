import NrScheduler.Engine.AlikeRuns
import NrScheduler.Engine.Reports

/-!
# Only the latest reports count

Reports overwrite each other field by field.  Two batches of reports with the same latest value
for every field of every user are interchangeable: whatever happens later, the same requests are
sent.  The order of the reports, repetitions and outdated values do not matter.
-/

namespace NrScheduler

open LockMonad SchedulerEngine

variable {π D : Type}

namespace SchedulerEngine

/-- What a handler of one user leaves in each cell, whether the user is known or not. -/
theorem updateUe_lookup (e : SchedulerEngine π D) (cellId : CellId) (rnti : Rnti)
    {check : Exec Unit} (hcheck : check.run none = .ok ()) (f : UeContext → UeContext)
    (hf : ∀ ue, (f ue).rnti = ue.rnti) :
    ∃ e', (e.updateUe cellId rnti check f hf).run none = .ok e' ∧
      e' = { e with cells := e'.cells } ∧ ∀ c, e'.cells.lookup c =
        if c = cellId then (e.cells.lookup c).map fun cell ↦
          { cell with ueRepo := cell.ueRepo.modifyUe rnti f hf }
        else e.cells.lookup c := by
  cases hue : e.ueAt cellId rnti with
  | none =>
      refine ⟨e, updateUe_unknown hue check f hf, rfl, fun c ↦ ?_⟩
      by_cases hc : c = cellId
      · rw [if_pos hc, hc]
        rw [ueAt] at hue
        cases hlookup : e.cells.lookup cellId with
        | none => rfl
        | some cell =>
            rw [hlookup, Option.bind_some] at hue
            rw [Option.map_some, UeRepository.modifyUe_eq_self fun ue hknown ↦ ?_]
            rw [hue] at hknown
            cases hknown
      · rw [if_neg hc]
  | some ue =>
      obtain ⟨cell, hlookup, hcell⟩ := ueAt_eq_some.mp hue
      refine ⟨_, (updateUe_known hlookup hcell check f hf).trans (run_bind_of_ok hcheck), rfl,
        fun c ↦ ?_⟩
      by_cases hc : c = cellId
      · rw [if_pos hc, hc, hlookup]
        exact AList.lookup_insert e.cells
      · rw [if_neg hc]
        exact AList.lookup_insert_ne hc

end SchedulerEngine

/-! ## Batches -/

structure CellContext.After (batch : List (Event π)) (c : CellId) (cell cell' : CellContext) :
    Prop where
  config : cell'.config = cell.config
  currentSlot : cell'.currentSlot = cell.currentSlot
  nextUeId : cell'.ueRepo.nextUeId = cell.ueRepo.nextUeId
  ueByRnti : AList.Matching (UeContext.After batch c) cell.ueRepo.ueByRnti cell'.ueRepo.ueByRnti

structure SchedulerEngine.After (batch : List (Event π)) (e e' : SchedulerEngine π D) : Prop where
  cells : ∀ c, Option.Rel (CellContext.After batch c) (e.cells.lookup c) (e'.cells.lookup c)
  rest : e' = { e with cells := e'.cells }

theorem CellContext.After.refl (c : CellId) (cell : CellContext) :
    cell.After ([] : List (Event π)) c cell := ⟨rfl, rfl, rfl, .refl (.refl c) _⟩

theorem CellContext.After.step {batch : List (Event π)} {c : CellId} {cell cell' : CellContext}
    (h : cell.After batch c cell') {ev : Event π} {cellId : CellId} {rnti : Rnti}
    {f : UeContext → UeContext} (hev : ev.Updates cellId rnti f)
    (hf : ∀ ue, (f ue).rnti = ue.rnti) :
    cell.After (batch ++ [ev]) c (if c = cellId then
      { cell' with ueRepo := cell'.ueRepo.modifyUe rnti f hf } else cell') := by
  have hkey : ∀ entry ∈ cell.ueRepo.ueByRnti.entries, entry.2.rnti = entry.1 := fun entry hentry ↦
    UeRepository.ue?_rnti (UeRepository.mem_entries_iff.mp hentry)
  by_cases hc : c = cellId
  · rw [if_pos hc]
    refine ⟨h.config, h.currentSlot, h.nextUeId, ?_⟩
    refine h.ueByRnti.modify_right rnti ?_ ?_
    · intro entry hentry hne ue' hafter
      refine hafter.skip fun field new hreported ↦ hne ?_
      rw [← hkey entry hentry]
      exact congrArg Prod.snd (hev.named _ field new hreported)
    · intro entry hentry heq ue' hafter
      subst hc
      exact hev.after batch _ _ ((hkey entry hentry).trans heq) hafter
  · rw [if_neg hc]
    refine ⟨h.config, h.currentSlot, h.nextUeId, ?_⟩
    refine List.Forall₂.imp (fun entry _ he ↦ ⟨he.1, he.2.skip fun field new hreported ↦ ?_⟩)
      h.ueByRnti
    exact hc (congrArg Prod.fst (hev.named _ field new hreported))

namespace SchedulerEngine

variable [Double D] [IPolicyManager π D] {e e' f g : SchedulerEngine π D}
  {batch batch' : List (Event π)}

/-- An event of a batch is handled without a fault. -/
theorem After.step (h : e.After batch e') {ev : Event π} (hev : ev.isUpdate = true)
    (P : Platform) : ∃ e'', e'.next (P, ev) = some e'' ∧ e.After (batch ++ [ev]) e'' := by
  obtain ⟨cellId, rnti, f, hupdates⟩ := Event.exists_updates hev
  obtain ⟨check, hf, hcheck, hhandle⟩ := hupdates.handled
  obtain ⟨e'', hrun, hrest, hlookup⟩ := e'.updateUe_lookup cellId rnti hcheck f hf
  refine ⟨e'', next_eq_some.mpr ((congrArg (·.run none) (hhandle e' P)).trans hrun), ?_⟩
  constructor
  case cells =>
    intro c
    have hcells := h.cells c
    have hmapped : e''.cells.lookup c = (e'.cells.lookup c).map fun cell ↦
        if c = cellId then { cell with ueRepo := cell.ueRepo.modifyUe rnti f hf } else cell := by
      rw [hlookup]
      by_cases hc : c = cellId
      · simp only [if_pos hc]
      · simp only [if_neg hc, Option.map_id']
    rw [hmapped]
    generalize e.cells.lookup c = found at hcells ⊢
    generalize e'.cells.lookup c = found' at hcells ⊢
    cases hcells with
    | none => exact .none
    | some hcell => exact .some (hcell.step hupdates hf)
  case rest => rw [hrest, h.rest]

/-- A batch of reports leaves the latest values and nothing else. -/
theorem exists_after (e : SchedulerEngine π D) {inputs : List (Platform × Event π)}
    (hinputs : ∀ i ∈ inputs, i.2.isUpdate = true) :
    ∃ e', inputs.foldlM SchedulerEngine.next e = some e' ∧
      e.After (inputs.map Prod.snd) e' := by
  induction inputs using List.reverseRecOn with
  | nil =>
      refine ⟨e, rfl, fun c ↦ ?_, rfl⟩
      cases e.cells.lookup c with
      | none => exact .none
      | some cell => exact .some (.refl c cell)
  | append_singleton inputs i ih =>
      obtain ⟨e₁, hrun, hafter⟩ := ih fun j hj ↦ hinputs j (List.mem_append_left _ hj)
      have hi := hinputs i (List.mem_append_right _ List.mem_cons_self)
      obtain ⟨e₂, hstep, hafter⟩ := hafter.step hi i.1
      refine ⟨e₂, ?_, ?_⟩
      · rw [List.foldlM_append, Option.bind_eq_bind, hrun, Option.bind_some, List.foldlM_cons,
          Option.bind_eq_bind, hstep]
        rfl
      · rw [List.map_append]
        exact hafter

omit [Double D] [IPolicyManager π D] in
theorem After.alike (hidle : e.Idle) (h : e.After batch f) (h' : e.After batch' g)
    (hlatest : ∀ user field, latest user field batch' = latest user field batch) : f.Alike g := by
  have hf := h.rest
  have hg := h'.rest
  have hcells : ∀ c, Option.Rel CellContext.Alike (f.cells.lookup c) (g.cells.lookup c) := by
    intro c
    have hc := h.cells c
    have hc' := h'.cells c
    generalize e.cells.lookup c = found at hc hc'
    generalize f.cells.lookup c = found₁ at hc ⊢
    generalize g.cells.lookup c = found₂ at hc' ⊢
    cases hc with
    | none =>
        cases hc'
        exact .none
    | some hcell =>
        obtain hcell' | _ := hc'
        refine .some ⟨hcell'.config.trans hcell.config.symm,
          hcell'.currentSlot.trans hcell.currentSlot.symm,
          hcell'.nextUeId.trans hcell.nextUeId.symm, ?_⟩
        refine hcell.ueByRnti.glue hcell'.ueByRnti fun entry _ ue₁ ue₂ h₁ h₂ ↦ ?_
        exact h₁.alike h₂ fun field ↦ hlatest _ field
  rw [hf, hg]
  exact ⟨.refl _, hcells, rfl, rfl, rfl, hidle.of_services rfl rfl rfl,
    hidle.of_services rfl rfl rfl⟩

end SchedulerEngine

/-- Wherever in a run they come, two batches of reports with the same latest values lead to the
same requests: reports may be reordered, repeated and overwritten. -/
theorem sentBy_of_latest [UnitDouble D] [IPolicyManager π D] [ReadsAlike π D]
    (config : SchedulerConfig) {before batch batch' later : List (Platform × Event π)}
    (hP : ∀ i ∈ before ++ later, i.1.Oblivious) (hbatch : ∀ i ∈ batch, i.2.isUpdate = true)
    (hbatch' : ∀ i ∈ batch', i.2.isUpdate = true)
    (hlatest : ∀ user field, latest user field (batch'.map Prod.snd) =
      latest user field (batch.map Prod.snd)) :
    (SchedulerEngine.create config : SchedulerEngine π D).sentBy (before ++ batch' ++ later) =
      (SchedulerEngine.create config : SchedulerEngine π D).sentBy (before ++ batch ++ later) := by
  obtain ⟨hbefore, hlater⟩ := List.forall_mem_append.mp hP
  have hstart := (SchedulerEngine.twins_create (π := π) (D := D) (.refl config)).foldlM
    (sameInput_filter_refl hbefore)
  simp only [SchedulerEngine.sentBy, List.foldlM_append, Option.bind_eq_bind]
  cases hrun : before.foldlM SchedulerEngine.next (.create config : SchedulerEngine π D) with
  | none => rfl
  | some e =>
      rw [hrun] at hstart
      obtain hself | _ := hstart
      obtain ⟨e₁, hrun₁, hafter₁⟩ := e.exists_after hbatch
      obtain ⟨e₂, hrun₂, hafter₂⟩ := e.exists_after hbatch'
      simp only [Option.bind_some, hrun₁, hrun₂]
      have hinv : ∀ {is : List (Platform × Event π)} {e' : SchedulerEngine π D},
          is.foldlM SchedulerEngine.next e = some e' → e'.Consistent := fun hrun ↦
        Runs.foldlM_of_stable (fun _ _ _ h hnext ↦ Consistent.step h hnext) hself.consistent hrun
      apply Twins.sentBy ⟨hafter₁.alike hself.alike.idle hafter₂ hlatest, hinv hrun₁, hinv hrun₂⟩
      exact sameInput_filter_refl hlater

/-- A number of bytes that is overwritten, and reports in another order. -/
theorem sentBy_of_latest_reordered :
    let before : List (Event (BuiltinPolicy ℚ)) :=
      [.addCell (.fdd 1 4) .cleared, .ueConfig { rnti := 7, cellId := 1 }]
    let batch : List (Event (BuiltinPolicy ℚ)) :=
      [.dlData ⟨7, 1, 1, 50⟩, .sr ⟨7, 1⟩, .dlData ⟨7, 1, 1, 100⟩]
    let batch' : List (Event (BuiltinPolicy ℚ)) :=
      [.dlData ⟨7, 1, 1, 100⟩, .phr ⟨7, 1, 20, 23⟩, .sr ⟨7, 1⟩, .sr ⟨7, 1⟩]
    let later : List (Event (BuiltinPolicy ℚ)) := [.slotIndication 1 {}]
    let e : RationalEngine := .create { strategy := .roundRobin }
    e.sentBy (onPlain before ++ onPlain batch' ++ onPlain later) =
        e.sentBy (onPlain before ++ onPlain batch ++ onPlain later) ∧
      (e.sentBy (onPlain before ++ onPlain batch ++ onPlain later)).map List.length = some 2 := by
  intro before batch batch' later e
  refine ⟨sentBy_of_latest _ ?_ (by decide) (by decide) ?_, by decide +kernel⟩
  · exact List.forall_mem_append.mpr ⟨fun _ hi ↦ oblivious_onPlain hi,
      fun _ hi ↦ oblivious_onPlain hi⟩
  · intro user field
    by_cases huser : (1, 7) = user
    · cases field with
      | dlBuffer lcId =>
          by_cases hlc : 1 = lcId <;>
            simp [latest, Event.overwrite, Event.reported, batch, batch', onPlain, huser, hlc]
      | _ => simp [latest, Event.overwrite, Event.reported, batch, batch', onPlain]
    · simp [latest, Event.overwrite, Event.reported, batch, batch', onPlain, huser]

end NrScheduler
