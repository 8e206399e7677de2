import NrScheduler.Core.HarqSpec
import NrScheduler.Engine.Transmissions

/-!
# Eligible users and their candidates

The filter of the eligible users lets a user through for a retransmission alone.  The loop
over them only looks at retransmissions where these have priority, so without it a user
that has nothing else to send, or no free process for it, is dropped.
-/

namespace NrScheduler

namespace SchedulerEngine

variable {π D : Type} [Double D] {e : SchedulerEngine π D} {P : Platform} {cell : CellContext}
  {isDl : Bool} {ue : UeContext}

/-- The candidates of an eligible user are what the loop makes of it. -/
theorem exists_candidate_iff {Q : SchedulingDecision D → Prop} (hue : ue ∈ cell.ueRepo.users P)
    (heligible : e.isEligible isDl ue = true) :
    (∃ d ∈ e.candidates P cell isDl, d.rnti = ue.rnti ∧ Q d) ↔
      ∃ d, candidate e.config P isDl ue = some d ∧ Q d := by
  have hlookup := UeRepository.mem_users.mp hue
  constructor
  · rintro ⟨d, hd, hrnti, hQ⟩
    obtain ⟨u, hu, _, hcandidate⟩ := mem_candidates.mp hd
    rw [hrnti, hlookup] at hu
    obtain rfl := Option.some.inj hu
    exact ⟨d, hcandidate, hQ⟩
  · rintro ⟨d, hcandidate, hQ⟩
    have hrnti := (candidate_eq_some hcandidate).1
    refine ⟨d, mem_candidates.mpr ⟨ue, ?_, heligible, hcandidate⟩, hrnti, hQ⟩
    rw [hrnti]
    exact hlookup

/-- A user with work that could be sent is among the candidates, and with a retransmission
where that is all its work. -/
structure KeepsWork (e : SchedulerEngine π D) (P : Platform) (cell : CellContext) (isDl : Bool)
    (ue : UeContext) : Prop where
  candidate : (ue.harq isDl).getRetxProcess.isSome = true ∨
    (ue.hasData isDl = true ∧ (ue.harq isDl).getFreeProcess.isSome = true) →
      ∃ d ∈ e.candidates P cell isDl, d.rnti = ue.rnti
  retx : (ue.harq isDl).getRetxProcess.isSome = true → ue.hasData isDl = false →
    ∃ d ∈ e.candidates P cell isDl, d.rnti = ue.rnti ∧ d.type = .retx

/-- Every user that the filter returns keeps its work. -/
def DropsNoWork (e : SchedulerEngine π D) (P : Platform) (cell : CellContext) (isDl : Bool) :
    Prop :=
  ∃ eligible, (e.getEligibleUes P cell isDl).run none = .ok eligible ∧
    ∀ ue ∈ eligible, e.KeepsWork P cell isDl ue

/-- There is no retransmission, or there is also a new transmission that can be sent. -/
def NeedsNoRetx (isDl : Bool) (ue : UeContext) : Prop :=
  (ue.harq isDl).getRetxProcess = none ∨
    (ue.hasData isDl = true ∧ (ue.harq isDl).getFreeProcess.isSome = true)

theorem keepsWork_iff (hue : ue ∈ cell.ueRepo.users P) (heligible : e.isEligible isDl ue = true) :
    e.KeepsWork P cell isDl ue ↔ e.config.harqRetxPriority = true ∨ NeedsNoRetx isDl ue := by
  have hsome : (∃ d ∈ e.candidates P cell isDl, d.rnti = ue.rnti) ↔
      hasCandidate e.config isDl ue = true := by
    have hany := exists_candidate_iff (Q := fun _ ↦ True) hue heligible
    simp only [and_true] at hany
    rw [hany, ← candidate_isSome (D := D) e.config P isDl ue, Option.isSome_iff_exists]
  constructor
  · intro hkeeps
    by_cases hprio : e.config.harqRetxPriority = true
    · exact Or.inl hprio
    · refine Or.inr ?_
      rw [NeedsNoRetx]
      cases hretx : (ue.harq isDl).getRetxProcess with
      | none => exact Or.inl rfl
      | some p =>
          have hcandidate := hsome.mp (hkeeps.candidate (Or.inl (by rw [hretx]; rfl)))
          simp only [hasCandidate, hprio, Bool.false_and, Bool.false_or, Bool.and_eq_true]
            at hcandidate
          exact Or.inr hcandidate
  · intro hcond
    constructor
    case candidate =>
      intro hwork
      apply hsome.mpr
      rw [hasCandidate, Bool.or_eq_true, Bool.and_eq_true, Bool.and_eq_true]
      rcases hcond with hprio | hnone | hnew
      · exact hwork.imp_left fun hretx ↦ ⟨hprio, hretx⟩
      · rw [hnone] at hwork
        exact Or.inr (hwork.resolve_left Bool.false_ne_true)
      · exact Or.inr hnew
    case retx =>
      intro hretx hdata
      obtain ⟨p, hp⟩ := Option.isSome_iff_exists.mp hretx
      have hprio : e.config.harqRetxPriority = true := by
        rcases hcond with hprio | hnone | ⟨hnew, _⟩
        · exact hprio
        · rw [hnone] at hp
          cases hp
        · rw [hdata] at hnew
          cases hnew
      exact (exists_candidate_iff hue heligible).mpr ⟨_, candidate_retx hprio hp, rfl⟩

/-- Eligible work survives until it is ranked exactly if retransmissions have priority, or
no eligible user depends on one. -/
theorem dropsNoWork_iff (e : SchedulerEngine π D) (P : Platform) (cell : CellContext)
    (isDl : Bool) :
    e.DropsNoWork P cell isDl ↔ e.config.harqRetxPriority = true ∨
      ∀ ue ∈ cell.ueRepo.users P, e.isEligible isDl ue = true → NeedsNoRetx isDl ue := by
  have hrun := e.getEligibleUes_run P cell isDl
  constructor
  · rintro ⟨eligible, heligible, hkeeps⟩
    obtain rfl := Except.ok.inj (hrun.symm.trans heligible)
    by_cases hprio : e.config.harqRetxPriority = true
    · exact Or.inl hprio
    · refine Or.inr ?_
      intro ue hue hok
      have hkept := hkeeps ue (List.mem_filter.mpr ⟨hue, hok⟩)
      exact ((keepsWork_iff hue hok).mp hkept).resolve_left hprio
  · intro hcond
    refine ⟨_, hrun, ?_⟩
    intro ue hue
    obtain ⟨hmem, hok⟩ := List.mem_filter.mp hue
    exact (keepsWork_iff hmem hok).mpr (hcond.imp_right fun h ↦ h ue hmem hok)

/-- A user whose process zero waits for a retransmission, with nothing else to send. -/
def retxOnly : UeContext where
  ptr := (1, 0)
  rnti := 7
  ueId := 1
  dlHarq := ⟨(HarqEntity.create 16).processes.setIfInBounds 0
    { id := 0, state := .nackReceived, txCount := 1 }⟩

/-- Without the priority it is eligible and gets no decision. -/
theorem not_dropsNoWork :
    ¬ (create { harqRetxPriority := false } : RationalEngine).DropsNoWork .plain
      (.withUe (.fdd 1 4) retxOnly) true := by
  rintro ⟨eligible, hrun, hkeeps⟩
  have hmem : retxOnly ∈ eligible := by
    obtain rfl := Except.ok.inj ((getEligibleUes_run _ _ _ _).symm.trans hrun)
    exact List.mem_singleton_self retxOnly
  obtain ⟨d, hd, _⟩ := (hkeeps retxOnly hmem).candidate (Or.inl (by decide +kernel))
  exact List.not_mem_nil hd

end SchedulerEngine

end NrScheduler
