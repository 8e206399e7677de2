import NrScheduler.Core.Platform
import NrScheduler.Lib.AListRel

/-!
# Platforms that look at keys and comparisons only

The order in which a hash map is walked comes from its keys and its history, not from what
the keys are mapped to, and `std::sort` learns nothing of the elements but how they compare.
On such a platform two matching maps are walked in step, and two lists that compare alike
are sorted alike.
-/

namespace NrScheduler

namespace Platform

structure Oblivious (P : Platform) : Prop where
  hashOrder_map : ∀ {κ α β : Type} (f : α → β) (l : List (Sigma fun _ : κ ↦ α)),
    P.hashOrder (l.map fun e ↦ (⟨e.1, f e.2⟩ : Sigma fun _ : κ ↦ β)) =
      (P.hashOrder l).map fun e ↦ ⟨e.1, f e.2⟩
  sort_map : ∀ {α β : Type} (f : α → β) (lt : α → α → Bool) (lt' : β → β → Bool) (l : List α),
    (∀ a ∈ l, ∀ b ∈ l, lt' (f a) (f b) = lt a b) → P.sort lt' (l.map f) = (P.sort lt l).map f

namespace Oblivious

variable {P : Platform} {κ α β : Type} {R : α → β → Prop}

theorem hashOrder_matching (h : P.Oblivious) {l : List (Sigma fun _ : κ ↦ α)}
    {m : List (Sigma fun _ : κ ↦ β)}
    (hlm : List.Forall₂ (fun e e' ↦ e'.1 = e.1 ∧ R e.2 e'.2) l m) :
    List.Forall₂ (fun e e' ↦ e'.1 = e.1 ∧ R e.2 e'.2) (P.hashOrder l) (P.hashOrder m) := by
  obtain ⟨z, rfl, rfl⟩ := AList.exists_pairs hlm
  rw [h.hashOrder_map (fun p : { p : α × β // R p.1 p.2 } ↦ p.1.1),
    h.hashOrder_map (fun p : { p : α × β // R p.1 p.2 } ↦ p.1.2), List.forall₂_map_left_iff,
    List.forall₂_map_right_iff]
  exact List.forall₂_same.mpr fun e _ ↦ ⟨rfl, e.2.2⟩

theorem sort_forall₂ (h : P.Oblivious) {lt : α → α → Bool} {lt' : β → β → Bool} {l : List α}
    {m : List β} (hlm : List.Forall₂ R l m)
    (hlt : ∀ a b a' b', R a a' → R b b' → lt' a' b' = lt a b) :
    List.Forall₂ R (P.sort lt l) (P.sort lt' m) := by
  -- both lists are views of one list of related pairs
  obtain ⟨z, rfl, rfl⟩ : ∃ z : List { p : α × β // R p.1 p.2 },
      l = z.map (fun p ↦ p.1.1) ∧ m = z.map fun p ↦ p.1.2 := by
    induction hlm with
    | nil => exact ⟨[], rfl, rfl⟩
    | @cons a b _ _ hab _ ih =>
        obtain ⟨z, rfl, rfl⟩ := ih
        exact ⟨⟨(a, b), hab⟩ :: z, rfl, rfl⟩
  rw [h.sort_map (fun p : { p : α × β // R p.1 p.2 } ↦ p.1.1) (fun p q ↦ lt p.1.1 q.1.1) lt z
      fun _ _ _ _ ↦ rfl,
    h.sort_map (fun p : { p : α × β // R p.1 p.2 } ↦ p.1.2) (fun p q ↦ lt p.1.1 q.1.1) lt' z
      fun p _ q _ ↦ hlt _ _ _ _ p.2 q.2,
    List.forall₂_map_left_iff, List.forall₂_map_right_iff]
  exact List.forall₂_same.mpr fun p _ ↦ p.2

end Oblivious

theorem insertionSort_map {α β : Type} (f : α → β) (lt : α → α → Bool) (lt' : β → β → Bool)
    (l : List α) (hlt : ∀ a ∈ l, ∀ b ∈ l, lt' (f a) (f b) = lt a b) :
    insertionSort lt' (l.map f) = (insertionSort lt l).map f := by
  have hplain : ∀ {γ : Type} (lt : γ → γ → Bool) (m : List γ),
      insertionSort lt m = m.insertionSort fun a b ↦ lt b a = false := by
    intro γ lt m
    have hattach := List.map_insertionSort (r := fun a b : { c // c ∈ m } ↦ lt b.1 a.1 = false)
      (s := fun a b : γ ↦ lt b a = false) Subtype.val m.attach fun _ _ _ _ ↦ Iff.rfl
    rw [List.attach_map_subtype_val] at hattach
    exact hattach
  rw [hplain, hplain]
  symm
  apply List.map_insertionSort
  intro a ha b hb
  rw [hlt b hb a ha]

theorem oblivious_plain : plain.Oblivious where
  hashOrder_map _ _ := rfl
  sort_map f lt lt' l hlt := insertionSort_map f lt lt' l hlt

end Platform

end NrScheduler
