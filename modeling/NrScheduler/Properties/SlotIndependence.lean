import NrScheduler.Engine.RunSpec

/-!
# Independence of the previous slot

The context of a slot is reused for the next one.  Everything in it is overwritten, except
the directions of an unpaired carrier without a pattern.
-/

namespace NrScheduler

open LockMonad

variable {π D : Type}

/-- The pattern, where there is one, has a period and entries. -/
def CellConfig.WellFormed (cfg : CellConfig) : Prop :=
  ∀ pattern, cfg.tddPattern = some pattern →
    pattern.periodicitySlots ≠ 0 ∧ pattern.slotConfigs ≠ []

namespace SchedulerEngine

variable [Double D] [IPolicyManager π D]

/-- A cell advances to a slot and is scheduled there. -/
def processAt (e : SchedulerEngine π D) (P : Platform) (cell : CellContext) (t : FrameTiming) :
    Exec (CellContext × SchedulerEngine π D) := do
  let cell' ← cell.advanceToSlot t
  e.processSlot P cell'

end SchedulerEngine

/-- Two previous slots lead to the same context of the next one, and to the same decisions,
requests and states of the engine there. -/
structure CellConfig.ForgetsSlots (π D : Type) [Double D] [IPolicyManager π D]
    (cfg : CellConfig) : Prop where
  sameSlot : ∀ (t : FrameTiming) (s₁ s₂ : SlotContext), ∃ slot,
    (s₁.initializeSlot cfg t).run none = .ok slot ∧ (s₂.initializeSlot cfg t).run none = .ok slot
  sameOutcome : ∀ (e : SchedulerEngine π D) (P : Platform) (cell : CellContext)
    (t : FrameTiming) (s₁ s₂ : SlotContext), cell.config = cfg →
      (e.processAt P { cell with currentSlot := s₁ } t).run none =
        (e.processAt P { cell with currentSlot := s₂ } t).run none

/-- With a duplex mode or a pattern to take the directions from, no field keeps its value. -/
theorem SlotContext.initializeSlot_congr {cfg : CellConfig}
    (hdirected : cfg.isFdd = true ∨ cfg.tddPattern ≠ none) (s₁ s₂ : SlotContext)
    (t : FrameTiming) : s₁.initializeSlot cfg t = s₂.initializeSlot cfg t := by
  cases hfdd : cfg.isFdd with
  | true =>
      rw [initializeSlot_of_fdd hfdd, initializeSlot_of_fdd hfdd]
      simp only [renew]
  | false =>
      cases hpattern : cfg.tddPattern with
      | none => simp [hfdd, hpattern] at hdirected
      | some pattern =>
          rw [initializeSlot_of_pattern hfdd hpattern, initializeSlot_of_pattern hfdd hpattern]
          simp only [renew]

theorem SlotContext.initializeSlot_ne {cfg : CellConfig} (hfdd : cfg.isFdd = false)
    (hpattern : cfg.tddPattern = none) (t : FrameTiming) :
    (cleared.initializeSlot cfg t).run none ≠
      ({ cleared with canScheduleDl := true }.initializeSlot cfg t).run none := by
  rw [initializeSlot_of_none hfdd hpattern, initializeSlot_of_none hfdd hpattern]
  intro heq
  have hslot := run_pure_eq_ok.mp heq
  exact Bool.false_ne_true (congrArg SlotContext.canScheduleDl hslot)

/-- The previous slot is forgotten exactly by paired carriers and by those with a pattern. -/
theorem CellConfig.forgetsSlots_iff [Double D] [IPolicyManager π D] {cfg : CellConfig}
    (hcfg : cfg.WellFormed) :
    cfg.ForgetsSlots π D ↔ cfg.isFdd = true ∨ cfg.tddPattern ≠ none := by
  constructor
  · intro hforgets
    by_contra hnone
    rw [not_or, not_not, Bool.not_eq_true] at hnone
    obtain ⟨slot, hslot₁, hslot₂⟩ :=
      hforgets.sameSlot {} .cleared { SlotContext.cleared with canScheduleDl := true }
    exact SlotContext.initializeSlot_ne hnone.1 hnone.2 {} (hslot₁.trans hslot₂.symm)
  · intro hdirected
    constructor
    · intro t s₁ s₂
      obtain ⟨slot, hslot⟩ := s₁.exists_initializeSlot (fun _ ↦ hcfg) t
      exact ⟨slot, hslot, SlotContext.initializeSlot_congr hdirected s₁ s₂ t ▸ hslot⟩
    · rintro e P cell t s₁ s₂ rfl
      have hsame := SlotContext.initializeSlot_congr hdirected s₁ s₂ t
      simp only [SchedulerEngine.processAt, CellContext.advanceToSlot, hsame]

theorem CellConfig.forgetsSlots_fdd :
    (CellConfig.fdd 1 106).ForgetsSlots (BuiltinPolicy ℚ) ℚ ↔
      (CellConfig.fdd 1 106).isFdd = true ∨ (CellConfig.fdd 1 106).tddPattern ≠ none :=
  CellConfig.forgetsSlots_iff fun _ h ↦ by cases h

/-- Without a pattern, an unpaired carrier schedules in the directions of the slot before, or of
its memory. -/
theorem CellConfig.not_forgetsSlots :
    ¬ ∀ cfg : CellConfig, cfg.WellFormed → cfg.ForgetsSlots (BuiltinPolicy ℚ) ℚ := by
  intro h
  obtain ⟨slot, hslot₁, hslot₂⟩ := (h { CellConfig.fdd 1 106 with duplexMode := .tdd }
    fun _ h ↦ by cases h).sameSlot {} .cleared { SlotContext.cleared with canScheduleDl := true }
  exact SlotContext.initializeSlot_ne rfl rfl {} (hslot₁.trans hslot₂.symm)

end NrScheduler
