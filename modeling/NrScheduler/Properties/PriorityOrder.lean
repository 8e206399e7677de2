import NrScheduler.Engine.RunSpec
import NrScheduler.Engine.ServingSpec
import NrScheduler.Properties.AllocatorCorrectness

/-!
# No priority inversion

The decisions that are granted are the first ones of the decisions sorted by their metric,
although the loop goes on after a decision that was refused.
-/

namespace NrScheduler

open LockMonad DefaultResourceAllocator

variable {π D : Type}

/-- The part of a decision that does not depend on what is granted. -/
def SchedulingDecision.ungranted (d : SchedulingDecision D) : SchedulingDecision D :=
  { d with resources := ⟨⟨0, 0⟩, ⟨0, 0⟩⟩, tbConfig := {} }

@[simp] theorem Serving.ungranted_granted (P : Platform) (cell : CellContext) (t : Serving D) :
    (t.granted P cell).ungranted = t.decision.ungranted := by
  unfold granted SchedulerEngine.grantOf
  split <;> rfl

variable [Double D]

/-- The metrics are ordered by the comparison, as values without NaN are. -/
structure MetricsOrdered (ds : List (SchedulingDecision D)) : Prop where
  asymm : ∀ a ∈ ds, ∀ b ∈ ds, Double.lt a.priorityMetric b.priorityMetric = true →
    Double.lt b.priorityMetric a.priorityMetric = false
  trans : ∀ a ∈ ds, ∀ b ∈ ds, ∀ c ∈ ds, Double.lt a.priorityMetric b.priorityMetric = false →
    Double.lt b.priorityMetric c.priorityMetric = false →
      Double.lt a.priorityMetric c.priorityMetric = false

theorem metricsOrdered_rational (ds : List (SchedulingDecision ℚ)) : MetricsOrdered ds where
  asymm a _ b _ hlt := by
    simp only [Double.lt, decide_eq_true_eq, decide_eq_false_iff_not, not_lt] at hlt ⊢
    exact hlt.le
  trans a _ b _ c _ hab hbc := by
    simp only [Double.lt, decide_eq_false_iff_not, not_lt] at hab hbc ⊢
    exact hbc.trans hab

/-- Of the ranked candidates, the granted ones come first by their metrics, and the others
are refused for want of room. -/
structure GrantsByPriority (cell : CellContext) (limit : ℕ)
    (ranked granted : List (SchedulingDecision D)) (after : ResourceGrid) : Prop where
  sorted_prefix : ∃ sorted : List (SchedulingDecision D), sorted.Perm ranked ∧
    sorted.Pairwise (fun a b ↦ Double.lt a.priorityMetric b.priorityMetric = false) ∧
    granted.map SchedulingDecision.ungranted <+: sorted.map SchedulingDecision.ungranted
  no_inversion : ∀ a ∈ ranked, ∀ b ∈ ranked,
    Double.lt b.priorityMetric a.priorityMetric = true →
      b.rnti ∈ granted.map SchedulingDecision.rnti → a.rnti ∈ granted.map SchedulingDecision.rnti
  refused : ∀ a ∈ ranked, a.rnti ∉ granted.map SchedulingDecision.rnti →
    granted.length = limit ∨ ∀ rb < cell.config.numRbs, ¬ after.FreeForData rb

/-- What comes in a sorted list before an element of a prefix is in the prefix too. -/
theorem mem_of_pairwise_prefix {α : Type} {r : α → α → Prop} {pre sorted : List α}
    (hpre : pre <+: sorted) (hsorted : sorted.Pairwise r) {a b : α} (ha : a ∈ sorted)
    (hb : b ∈ pre) (hnot : ¬ r b a) : a ∈ pre := by
  obtain ⟨post, rfl⟩ := hpre
  rcases List.mem_append.mp ha with hpre | hpost
  · exact hpre
  · exact absurd ((List.pairwise_append.mp hsorted).2.2 b hb a hpost) hnot

namespace SchedulerEngine

theorem grantsByPriority_servings {P : Platform} {cell : CellContext} {g : ResourceGrid}
    {limit : ℕ} {ranked sorted : List (SchedulingDecision D)}
    (hnum : g.numRbs = cell.config.numRbs) (hperm : sorted.Perm ranked)
    (hsorted : sorted.Pairwise fun a b ↦
      Double.lt a.priorityMetric b.priorityMetric = false)
    (hnodup : (ranked.map SchedulingDecision.rnti).Nodup) :
    GrantsByPriority cell limit ranked
      ((servings P cell limit g sorted).map (Serving.granted P cell))
      (gridAfter P cell g (servings P cell limit g sorted)) := by
  have hserved : (servings P cell limit g sorted).map Serving.decision <+: sorted :=
    servings_prefix
  have hrnti : ∀ d ∈ ranked,
      d.rnti ∈ ((servings P cell limit g sorted).map (Serving.granted P cell)).map
        SchedulingDecision.rnti ↔ d ∈ (servings P cell limit g sorted).map Serving.decision := by
    intro d hd
    simp only [List.map_map, List.mem_map, Function.comp_apply, Serving.rnti_granted]
    constructor
    · rintro ⟨t, ht, hsame⟩
      refine ⟨t, ht, ?_⟩
      have hmem : t.decision ∈ ranked :=
        hperm.mem_iff.mp (hserved.subset (List.mem_map_of_mem ht))
      exact List.inj_on_of_nodup_map hnodup hmem hd hsame
    · rintro ⟨t, ht, rfl⟩
      exact ⟨t, ht, rfl⟩
  constructor
  case sorted_prefix =>
    refine ⟨sorted, hperm, hsorted, ?_⟩
    have hkept : ((servings P cell limit g sorted).map (Serving.granted P cell)).map
        SchedulingDecision.ungranted =
          ((servings P cell limit g sorted).map Serving.decision).map
            SchedulingDecision.ungranted := by
      rw [List.map_map, List.map_map]
      exact List.map_congr_left fun t _ ↦ t.ungranted_granted P cell
    rw [hkept]
    exact hserved.map SchedulingDecision.ungranted
  case no_inversion =>
    intro a ha b hb hlt hgranted
    rw [hrnti a ha]
    rw [hrnti b hb] at hgranted
    have hnot : ¬ Double.lt b.priorityMetric a.priorityMetric = false := by
      rw [hlt]
      decide
    exact mem_of_pairwise_prefix hserved hsorted (hperm.mem_iff.mpr ha) hgranted hnot
  case refused =>
    intro a ha hrefused
    rw [hrnti a ha] at hrefused
    rw [List.length_map]
    have hend : (servings P cell limit g sorted).length = sorted.length ∨
        (servings P cell limit g sorted).length = limit ∨
          widest (gridAfter P cell g (servings P cell limit g sorted)) = 0 := servings_end
    rcases hend with hall | hlimit | hfull
    · rw [hserved.eq_of_length ((List.length_map _).trans hall)] at hrefused
      exact absurd (hperm.mem_iff.mpr ha) hrefused
    · exact Or.inl hlimit
    · right
      intro rb hrb hfree
      have hblock := widest_eq_zero_iff.mp hfull rb (by rw [numRbs_gridAfter, hnum]; exact hrb)
      rw [rbFree_iff_freeForData.mpr hfree] at hblock
      cases hblock

variable [IPolicyManager π D]

/-- In either direction the candidates are granted in the order of their metrics. -/
theorem schedule_grantsByPriority {e e₁ : SchedulerEngine π D} {P : Platform} {cell : CellContext}
    {isDl : Bool} {ranked : List (SchedulingDecision D)} (hn : cell.config.numRbs ≤ 273)
    (hgrids : cell.GridsMatch)
    (hranked : (calculatePriorities P cell isDl (e.candidates P cell isDl) e).run none =
      .ok (ranked, e₁)) (hordered : MetricsOrdered ranked) :
    ∃ granted cell' e', (e.scheduleFor P cell isDl).run none = .ok (granted, cell', e') ∧
      GrantsByPriority cell (e.config.limit isDl) ranked granted
        (cell'.currentSlot.grid isDl) := by
  have hranking := isRanking_of_calculatePriorities hranked
  have hperm : (sortByPriority P ranked).Perm ranked := P.sort_perm _ ranked
  have hsorted : (sortByPriority P ranked).Pairwise fun a b ↦
      Double.lt a.priorityMetric b.priorityMetric = false := by
    apply P.sort_sorted
    · exact fun a ha b hb ↦ hordered.asymm b hb a ha
    · exact fun a ha b hb c hc hab hbc ↦ hordered.trans c hc b hb a ha hbc hab
  have hnodup : (ranked.map SchedulingDecision.rnti).Nodup :=
    (hperm.map SchedulingDecision.rnti).nodup_iff.mp hranking.rnti_nodup
  obtain ⟨e', hrun, _⟩ := scheduleFor_run hn hgrids hranked
  refine ⟨_, _, e', hrun, ?_⟩
  rw [CellContext.grid_setGrid_self]
  exact grantsByPriority_servings (hgrids isDl) hperm hsorted hnodup

/-- Two users with data compete for one block. -/
def twoUsers : CellContext :=
  let user (ueId : ℕ) (rnti : Rnti) : UeContext :=
    { ptr := (1, ueId), rnti := rnti, ueId := ueId, dlBufferBytes := AList.singleton 0 100 }
  { CellContext.create (.fdd 1 1) .cleared with
    ueRepo := (UeRepository.empty.insertUe (user 1 7)).insertUe (user 2 8) }

theorem schedule_grantsByPriority_twoUsers :
    ∃ (cell : CellContext) (ranked granted : List (SchedulingDecision ℚ)) (after : ResourceGrid),
      ranked.length = 2 ∧ GrantsByPriority cell 16 ranked granted after := by
  have hslot : (twoUsers.advanceToSlot {}).run none = .ok _ := rfl
  obtain ⟨ranked, policy, qos, hrun, hunranked⟩ :=
    calculatePriorities_run .plain _ true _ (create {} : RationalEngine)
  obtain ⟨granted, cell', e', _, hgrants⟩ :=
    schedule_grantsByPriority (by decide) (CellContext.gridsMatch_advanceToSlot hslot) hrun
      (metricsOrdered_rational ranked)
  refine ⟨_, ranked, granted, _, ?_, hgrants⟩
  have hlength := congrArg List.length hunranked
  rw [List.length_map, List.length_map] at hlength
  rw [hlength]
  decide +kernel

end SchedulerEngine

end NrScheduler
