import NrScheduler.Engine.SlotAccounts

/-!
# Limits of a slot

The cell limits its transmissions in a slot, and the slot starts with that many remaining.
Nothing takes from the remaining ones and nothing looks at them, so they are right only in
a slot that sends nothing.
-/

namespace NrScheduler

namespace SchedulerEngine

variable {π D : Type}

/-- The transmissions of a slot keep to the limits of its cell and of the scheduler, and the
slot has what the limit of the cell leaves. -/
structure WithinLimits (config : SchedulerConfig) (cellConfig : CellConfig) (slot : SlotContext)
    (sent : Bool → List TtiPdu) : Prop where
  cell : ∀ isDl, (sent isDl).length ≤ cellConfig.maxPerSlot isDl
  scheduler : ∀ isDl, (sent isDl).length ≤ config.limit isDl
  remaining : ∀ isDl, slot.remaining isDl = cellConfig.maxPerSlot isDl - (sent isDl).length

def KeepsSlotLimits (e : SchedulerEngine π D) (cellId : CellId) (e' : SchedulerEngine π D) :
    Prop :=
  ∀ cell cell', e.cells.lookup cellId = some cell → e'.cells.lookup cellId = some cell' →
    WithinLimits e.config cell.config cell'.currentSlot (directionPdus (e.emitted e'))

theorem WithinLimits.of_silent {config : SchedulerConfig} {cellConfig : CellConfig}
    {slot : SlotContext} {sent : Bool → List TtiPdu} (hsent : ∀ isDl, sent isDl = [])
    (hremaining : ∀ isDl, slot.remaining isDl = cellConfig.maxPerSlot isDl) :
    WithinLimits config cellConfig slot sent where
  cell isDl := by simp [hsent]
  scheduler isDl := by simp [hsent]
  remaining isDl := by simp [hsent, hremaining]

/-- A slot whose remaining transmissions are still all those of the limit has sent none. -/
theorem WithinLimits.silent {config : SchedulerConfig} {cellConfig : CellConfig}
    {slot : SlotContext} {sent : Bool → List TtiPdu}
    (h : WithinLimits config cellConfig slot sent)
    (hremaining : ∀ isDl, slot.remaining isDl = cellConfig.maxPerSlot isDl) (isDl : Bool) :
    sent isDl = [] := by
  have hle := h.cell isDl
  have hleft := h.remaining isDl
  rw [hremaining] at hleft
  exact List.eq_nil_of_length_eq_zero (by omega)

section Outcome

variable [Double D] {e e' : SchedulerEngine π D} {P : Platform} {cellId : CellId}
  {t : FrameTiming} {cell : CellContext} {slot : SlotContext} {dl ul : List TtiRequest}

/-- A direction sends something exactly if it has room and a user competes for it. -/
theorem SlotOutcome.silent_iff (h : e.SlotOutcome P cellId t cell slot dl ul e') (isDl : Bool) :
    directionPdus (e.emitted e') isDl = [] ↔ e.competes P cellId t isDl = false := by
  rw [h.emitted_eq, List.eq_nil_iff_forall_not_mem, Bool.eq_false_iff]
  constructor
  · intro hnone hcompetes
    obtain ⟨r, hr, hdir⟩ := h.exists_request_of_competes hcompetes
    obtain ⟨pdu, hpdu⟩ := List.exists_mem_of_ne_nil _ (h.sends hr).pdus_ne
    exact hnone pdu (mem_directionPdus.mpr ⟨r, hr, hdir, hpdu⟩)
  · intro hidle pdu hpdu
    obtain ⟨r, hr, rfl, _⟩ := mem_directionPdus.mp hpdu
    exact hidle (h.competes hr)

end Outcome

variable [Double D] [IPolicyManager π D] {e e' : SchedulerEngine π D} {P : Platform}
  {cellId : CellId} {t : FrameTiming}

/-- What a slot does keep to: the limit of the scheduler, while the remaining transmissions
stay at the limit of the cell. -/
theorem onSlotIndication_remaining {cell cell' : CellContext}
    (h : (e.onSlotIndication P cellId t).run none = .ok e')
    (hcell : e.cells.lookup cellId = some cell) (hcell' : e'.cells.lookup cellId = some cell')
    (isDl : Bool) :
    (directionPdus (e.emitted e') isDl).length ≤ e.config.limit isDl ∧
      cell'.currentSlot.remaining isDl = cell.config.maxPerSlot isDl := by
  rcases onSlotIndication_ok h with ⟨hnone, _⟩ | ⟨cell₀, slot, dl, ul, houtcome⟩
  · rw [hcell] at hnone
    cases hnone
  · obtain ⟨_, cell₁, hcells, _, hremaining⟩ := onSlotIndication_accounts hcell h
    rw [hcells, AList.lookup_insert] at hcell'
    rw [← Option.some.inj hcell']
    exact ⟨houtcome.length_directionPdus_le isDl, hremaining isDl⟩

/-- For every cell, population and configuration, a slot keeps its limits exactly if no user
competes in it. -/
theorem keepsSlotLimits_iff (h : (e.onSlotIndication P cellId t).run none = .ok e') :
    e.KeepsSlotLimits cellId e' ↔ ∀ isDl, e.competes P cellId t isDl = false := by
  rcases onSlotIndication_ok h with ⟨hnone, _⟩ | ⟨cell, slot, dl, ul, houtcome⟩
  · refine iff_of_true ?_ ?_
    · intro cell cell' hcell
      rw [hnone] at hcell
      cases hcell
    · intro isDl
      simp [competes, hnone]
  · obtain ⟨cell', hcells, _⟩ := houtcome.cells
    have hcell' : e'.cells.lookup cellId = some cell' := by
      rw [hcells, AList.lookup_insert]
    have hremaining := fun isDl ↦ (onSlotIndication_remaining h houtcome.lookup hcell' isDl).2
    rw [← forall_congr' houtcome.silent_iff]
    constructor
    · exact fun hkeeps ↦ (hkeeps cell cell' houtcome.lookup hcell').silent hremaining
    · intro hsilent cell₀ cell₁ hcell₀ hcell₁
      obtain rfl := Option.some.inj (houtcome.lookup.symm.trans hcell₀)
      obtain rfl := Option.some.inj (hcell'.symm.trans hcell₁)
      exact .of_silent hsilent hremaining

end SchedulerEngine

/-! ## A cell that allows one transmission -/

namespace RationalEngine

open SchedulerEngine

/-- A cell that allows one downlink transmission in a slot, with some users and the bytes that
wait for each of them. -/
def oneAllowed (waiting : List (Rnti × ℕ)) : RationalEngine :=
  after { strategy := .roundRobin, enableQos := false }
    (.addCell { CellConfig.fdd 1 4 with maxPdschPerSlot := 1 } .cleared ::
      waiting.flatMap fun u ↦
        [.ueConfig { rnti := u.1, cellId := 1 }, .dlData ⟨u.1, 1, 0, u.2⟩])

/-- Without data the limits are kept. -/
theorem keepsSlotLimits_idle :
    ∃ e', ((oneAllowed [(7, 0), (8, 0)]).onSlotIndication .plain 1 {}).run none = .ok e' ∧
      (oneAllowed [(7, 0), (8, 0)]).KeepsSlotLimits 1 e' := by
  have hreturns : ((oneAllowed [(7, 0), (8, 0)]).next
      (.plain, .slotIndication 1 {})).isSome = true := by
    decide +kernel
  obtain ⟨e', he'⟩ := Option.isSome_iff_exists.mp hreturns
  have hrun : ((oneAllowed [(7, 0), (8, 0)]).onSlotIndication .plain 1 {}).run none = .ok e' :=
    onSlotIndication_of_next he'
  exact ⟨e', hrun, (keepsSlotLimits_iff hrun).mpr (by decide +kernel)⟩

/-- Two users with data are both served. -/
theorem not_keepsSlotLimits :
    ∃ e', ((oneAllowed [(7, 1), (8, 1)]).onSlotIndication .plain 1 {}).run none = .ok e' ∧
      ¬ (oneAllowed [(7, 1), (8, 1)]).KeepsSlotLimits 1 e' := by
  have hserved : ∃ e' ∈ (oneAllowed [(7, 1), (8, 1)]).next (.plain, .slotIndication 1 {}),
      ∃ cell ∈ (oneAllowed [(7, 1), (8, 1)]).cells.lookup 1, ∃ cell' ∈ e'.cells.lookup 1,
        cell.config.maxPerSlot true <
          (directionPdus ((oneAllowed [(7, 1), (8, 1)]).emitted e') true).length := by
    decide +kernel
  obtain ⟨e', he', cell, hcell, cell', hcell', hmore⟩ := hserved
  have hrun : ((oneAllowed [(7, 1), (8, 1)]).onSlotIndication .plain 1 {}).run none = .ok e' :=
    onSlotIndication_of_next he'
  refine ⟨e', hrun, fun hkeeps ↦ ?_⟩
  exact absurd ((hkeeps cell cell' hcell hcell').cell true) (not_le.mpr hmore)

end RationalEngine

end NrScheduler
