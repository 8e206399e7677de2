import NrScheduler.Engine.Faults
import NrScheduler.Lib.Runs

/-!
# Runs without faults

Mutexes aside, a run of the engine reaches its end exactly if each of its events is harmless
in the state it finds, and well-formed events always are.
-/

namespace NrScheduler

open Runs

/-- The event can be told to be harmless without looking at the engine. -/
def Event.wellFormed {π : Type} : Event π → Bool
  | .addCell config _ => config.hasDirections && decide (config.numRbs ≤ 273)
  | .bsr b => decide (b.lcgId < 8)
  | .slotIndication _ t => t.slotsPerFrame != 0
  | _ => true

namespace SchedulerEngine

variable {π D : Type} [Double D] [IPolicyManager π D]

/-- From every consistent state, a run reaches its end exactly if none of its events does harm
where it arrives. -/
theorem foldlM_exists_iff {e : SchedulerEngine π D} (hinv : e.Consistent)
    (is : List (Platform × Event π)) : (∃ e', is.foldlM next e = some e') ↔
      Throughout next (fun (e : SchedulerEngine π D) i ↦ e.harmless i = true) e is :=
  exists_foldlM_iff_throughout Consistent (fun _ i h ↦ next_exists_iff h i)
    (fun _ _ _ h hnext ↦ h.step hnext) hinv

/-- One block more than the bitmaps hold is one too many in the first slot with something to
send. -/
theorem foldlM_exists_iff_fdd :
    let cell (numRbs : ℕ) : List (Platform × Event (BuiltinPolicy ℚ)) :=
      onPlain [.addCell (.fdd 1 numRbs) .cleared, .slotIndication 1 {},
        .ueConfig { rnti := 7, cellId := 1 }, .dlData ⟨7, 1, 1, 100⟩, .slotIndication 1 {}]
    let e : RationalEngine := create { strategy := .roundRobin }
    (∃ e', (cell 273).foldlM next e = some e') ∧ ¬ ∃ e', (cell 274).foldlM next e = some e' := by
  intro cell e
  rw [foldlM_exists_iff (consistent_create _), foldlM_exists_iff (consistent_create _)]
  decide +kernel

/-! ## Well-formed events -/

/-- The cells of the engine were added by well-formed events. -/
structure CellsFit (e : SchedulerEngine π D) : Prop where
  consistent : e.Consistent
  config : ∀ c cfg, e.configAt c = some cfg → cfg.hasDirections = true ∧ cfg.numRbs ≤ 273

variable {e e' : SchedulerEngine π D}

omit [Double D] [IPolicyManager π D] in
theorem CellsFit.harmless (h : e.CellsFit) {i : Platform × Event π}
    (hi : i.2.wellFormed = true) : e.harmless i = true := by
  obtain ⟨P, ev⟩ := i
  cases ev with
  | bsr b =>
      rw [SchedulerEngine.harmless, Bool.or_eq_true]
      exact Or.inl hi
  | slotIndication c t =>
      cases hlookup : e.cells.lookup c with
      | none => simp only [SchedulerEngine.harmless, hlookup, Option.all_none]
      | some cell =>
          obtain ⟨hdirections, hrbs⟩ := h.config c cell.config (by rw [configAt, hlookup]; rfl)
          rw [harmless_slotIndication hlookup]
          exact ⟨hdirections, fun _ _ ↦ ⟨hrbs, bne_iff_ne.mp hi⟩⟩
  | _ => rfl

theorem CellsFit.next (h : e.CellsFit) {i : Platform × Event π} (hi : i.2.wellFormed = true)
    (hnext : e.next i = some e') : e'.CellsFit where
  consistent := h.consistent.step hnext
  config := by
    intro c cfg hcfg
    rcases handle_configAt (next_eq_some.mp hnext) hcfg with hold | ⟨memory, hev, _⟩
    · exact h.config c cfg hold
    · rw [hev, Event.wellFormed, Bool.and_eq_true, decide_eq_true_eq] at hi
      exact hi

/-- Whatever order they arrive in, and whatever the cells and the users do, well-formed events
bring no new engine to a fault. -/
theorem foldlM_exists_of_wellFormed (config : SchedulerConfig) {is : List (Platform × Event π)}
    (his : ∀ i ∈ is, i.2.wellFormed = true) :
    ∃ e' : SchedulerEngine π D, is.foldlM next (create config) = some e' := by
  have hcreate : (create config : SchedulerEngine π D).CellsFit :=
    ⟨consistent_create config, fun c cfg hcfg ↦ by cases hcfg⟩
  generalize (create config : SchedulerEngine π D) = e at hcreate
  induction is generalizing e with
  | nil => exact ⟨e, rfl⟩
  | cons i is ih =>
      have hi := his i List.mem_cons_self
      obtain ⟨mid, hmid⟩ := (next_exists_iff hcreate.consistent i).mpr (hcreate.harmless hi)
      rw [List.foldlM_cons, hmid]
      exact ih (fun j hj ↦ his j (List.mem_cons_of_mem i hj)) mid (hcreate.next hi hmid)

theorem foldlM_exists_of_wellFormed_fdd :
    let is : List (Platform × Event (BuiltinPolicy ℚ)) :=
      onPlain [.addCell (.fdd 1 273) .cleared, .ueConfig { rnti := 7, cellId := 1 },
        .bsr ⟨7, 1, 7, 100, {}⟩, .slotIndication 1 {}, .removeCell 1, .slotIndication 1 {}]
    (∀ i ∈ is, i.2.wellFormed = true) ∧
      ∃ e' : RationalEngine, is.foldlM next (create {}) = some e' :=
  ⟨by decide, foldlM_exists_of_wellFormed {} (by decide)⟩

end SchedulerEngine

end NrScheduler
