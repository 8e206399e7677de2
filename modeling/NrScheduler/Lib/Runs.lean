import Mathlib.Data.List.Forall2
import Mathlib.Data.Prod.Basic

/-!
# Runs of a partial step function

A run feeds inputs to a step function and ends where there is no next state.  Facts about
all transitions of a run follow from invariants; a monitor adds a ghost state that
watches the run; and an unwinding relation compares a run with the run that only sees
some of its inputs, or two runs that agree on them.  An abstract run may follow the run input by
input, and a measure that each marked input raises bounds how long a goal can be put off.
-/

namespace Runs

variable {σ τ ι γ : Type*} {step : σ → ι → Option σ}

/-- Every transition of the run from a state satisfies `Q`. -/
def Always (step : σ → ι → Option σ) (Q : σ → ι → σ → Prop) : σ → List ι → Prop
  | _, [] => True
  | s, i :: is => ∀ s', step s i = some s' → Q s i s' ∧ Always step Q s' is

/-- While the transitions satisfy `C`, an invariant is kept and `Q` is established. -/
theorem Always.imp {C Q : σ → ι → σ → Prop} (Inv : σ → Prop)
    (hstep : ∀ s i s', Inv s → step s i = some s' → C s i s' → Inv s' ∧ Q s i s')
    {s : σ} {is : List ι} (hs : Inv s) (h : Always step C s is) : Always step Q s is := by
  induction is generalizing s with
  | nil => trivial
  | cons i is ih =>
      intro s' hs'
      obtain ⟨hC, hrest⟩ := h s' hs'
      obtain ⟨hinv, hQ⟩ := hstep s i s' hs hs' hC
      exact ⟨hQ, ih hinv hrest⟩

/-- What an invariant implies of every transition holds throughout a run. -/
theorem always_of_invariant {Q : σ → ι → σ → Prop} (Inv : σ → Prop)
    (hstep : ∀ s i s', Inv s → step s i = some s' → Inv s' ∧ Q s i s')
    {s : σ} (hs : Inv s) (is : List ι) : Always step Q s is := by
  induction is generalizing s with
  | nil => trivial
  | cons i is ih =>
      intro s' hs'
      obtain ⟨hinv, hQ⟩ := hstep s i s' hs hs'
      exact ⟨hQ, ih hinv⟩

theorem Always.and_input {Q : σ → ι → σ → Prop} {p : ι → Prop} {s : σ} {is : List ι}
    (hp : ∀ i ∈ is, p i) (h : Always step Q s is) :
    Always step (fun s i s' ↦ p i ∧ Q s i s') s is := by
  induction is generalizing s with
  | nil => trivial
  | cons i is ih =>
      intro s' hs'
      obtain ⟨hQ, hrest⟩ := h s' hs'
      exact ⟨⟨hp i List.mem_cons_self, hQ⟩, ih (fun j hj ↦ hp j (List.mem_cons_of_mem i hj)) hrest⟩

/-- Where an invariant makes two conditions agree on every transition with such an input,
they agree on every run with such inputs. -/
theorem always_iff_of_inputs {C Q : σ → ι → σ → Prop} {p : ι → Prop} (Inv : σ → Prop)
    (hstep : ∀ s i s', p i → Inv s → step s i = some s' →
      (Q s i s' ↔ C s i s') ∧ (Q s i s' → Inv s'))
    {s : σ} (hs : Inv s) {is : List ι} (hp : ∀ i ∈ is, p i) :
    Always step Q s is ↔ Always step C s is := by
  constructor
  · intro h
    refine Always.imp Inv ?_ hs (h.and_input hp)
    intro s i s' hinv hs' ⟨hpi, hQ⟩
    obtain ⟨hiff, hnext⟩ := hstep s i s' hpi hinv hs'
    exact ⟨hnext hQ, hiff.mp hQ⟩
  · intro h
    refine Always.imp Inv ?_ hs (h.and_input hp)
    intro s i s' hinv hs' ⟨hpi, hC⟩
    obtain ⟨hiff, hnext⟩ := hstep s i s' hpi hinv hs'
    exact ⟨hnext (hiff.mpr hC), hiff.mpr hC⟩

theorem always_iff {C Q : σ → ι → σ → Prop} (Inv : σ → Prop)
    (hstep : ∀ s i s', Inv s → step s i = some s' →
      (Q s i s' ↔ C s i s') ∧ (Q s i s' → Inv s'))
    {s : σ} (hs : Inv s) (is : List ι) : Always step Q s is ↔ Always step C s is :=
  always_iff_of_inputs (p := fun _ ↦ True) Inv (fun s i s' _ ↦ hstep s i s') hs fun _ _ ↦ trivial

theorem always_cons_of_total {f : σ → ι → σ} {Q : σ → ι → σ → Prop} {s : σ} {i : ι}
    {is : List ι} :
    Always (fun s i ↦ some (f s i)) Q s (i :: is) ↔
      Q s i (f s i) ∧ Always (fun s i ↦ some (f s i)) Q (f s i) is := by
  constructor
  · intro h
    exact h (f s i) rfl
  · rintro h s' ⟨⟩
    exact h

/-- Whether a property of transitions holds along a run can be computed by running it. -/
instance decidableAlways {Q : σ → ι → σ → Prop} [∀ s i s', Decidable (Q s i s')] :
    ∀ (s : σ) (is : List ι), Decidable (Always step Q s is)
  | _, [] => isTrue trivial
  | s, i :: is =>
      match h : step s i with
      | none => isTrue fun s' hs' ↦ by
          rw [h] at hs'
          cases hs'
      | some s₁ =>
          have : Decidable (Always step Q s₁ is) := decidableAlways s₁ is
          decidable_of_iff (Q s i s₁ ∧ Always step Q s₁ is) (by
            constructor
            · intro hs₁ s' hs'
              rw [h] at hs'
              exact Option.some.inj hs' ▸ hs₁
            · intro hall
              exact hall s₁ h)

/-- Every input of the run satisfies `Q` in the state it arrives in. -/
def Throughout (step : σ → ι → Option σ) (Q : σ → ι → Prop) : σ → List ι → Prop
  | _, [] => True
  | s, i :: is => Q s i ∧ ∀ s', step s i = some s' → Throughout step Q s' is

/-- Where an invariant makes two conditions agree on every input, and is kept by the steps
that satisfy them, they agree on every run. -/
theorem throughout_iff {C Q : σ → ι → Prop} (Inv : σ → Prop)
    (hstep : ∀ s i, Inv s → (Q s i ↔ C s i) ∧ ∀ s', Q s i → step s i = some s' → Inv s')
    {s : σ} (hs : Inv s) {is : List ι} :
    Throughout step Q s is ↔ Throughout step C s is := by
  induction is generalizing s with
  | nil => exact Iff.rfl
  | cons i is ih =>
      obtain ⟨hiff, hnext⟩ := hstep s i hs
      constructor
      · rintro ⟨hQ, hrest⟩
        exact ⟨hiff.mp hQ, fun s' hs' ↦ (ih (hnext s' hQ hs')).mp (hrest s' hs')⟩
      · rintro ⟨hC, hrest⟩
        have hQ := hiff.mpr hC
        exact ⟨hQ, fun s' hs' ↦ (ih (hnext s' hQ hs')).mpr (hrest s' hs')⟩

theorem throughout_congr {C Q : σ → ι → Prop} (h : ∀ s i, Q s i ↔ C s i) {s : σ} {is : List ι} :
    Throughout step Q s is ↔ Throughout step C s is :=
  throughout_iff (fun _ ↦ True) (fun s i _ ↦ ⟨h s i, fun _ _ _ ↦ trivial⟩) trivial

/-- Where every input that satisfies `Q` leads from an invariant state to one, every run of
such inputs reaches its end in one. -/
theorem exists_foldlM_of_throughout {Q : σ → ι → Prop} (Inv : σ → Prop)
    (hstep : ∀ s i, Inv s → Q s i → ∃ s', step s i = some s' ∧ Inv s') {s : σ} (hs : Inv s)
    {is : List ι} (h : Throughout step Q s is) : ∃ s', is.foldlM step s = some s' ∧ Inv s' := by
  induction is generalizing s with
  | nil => exact ⟨s, rfl, hs⟩
  | cons i is ih =>
      obtain ⟨hQ, hrest⟩ := h
      obtain ⟨mid, hmid, hinv⟩ := hstep s i hs hQ
      rw [List.foldlM_cons, hmid]
      exact ih hinv (hrest mid hmid)

/-- Where `Q` tells from an invariant state which inputs have a next state, it tells which runs
reach their end. -/
theorem exists_foldlM_iff_throughout {Q : σ → ι → Prop} (Inv : σ → Prop)
    (hstep : ∀ s i, Inv s → ((∃ s', step s i = some s') ↔ Q s i))
    (hinv : ∀ s i s', Inv s → step s i = some s' → Inv s') {s : σ} (hs : Inv s) {is : List ι} :
    (∃ s', is.foldlM step s = some s') ↔ Throughout step Q s is := by
  constructor
  · rintro ⟨s', hrun⟩
    induction is generalizing s with
    | nil => trivial
    | cons i is ih =>
        rw [List.foldlM_cons, Option.bind_eq_bind, Option.bind_eq_some_iff] at hrun
        obtain ⟨mid, hmid, hrest⟩ := hrun
        refine ⟨(hstep s i hs).mp ⟨mid, hmid⟩, fun s₁ hs₁ ↦ ?_⟩
        obtain rfl : mid = s₁ := Option.some.inj (hmid.symm.trans hs₁)
        exact ih (hinv s i mid hs hmid) hrest
  · intro h
    obtain ⟨s', hrun, _⟩ := exists_foldlM_of_throughout Inv (fun s i hs hQ ↦ by
      obtain ⟨s', hs'⟩ := (hstep s i hs).mpr hQ
      exact ⟨s', hs', hinv s i s' hs hs'⟩) hs h
    exact ⟨s', hrun⟩

theorem throughout_of_forall {Q : σ → ι → Prop} (h : ∀ s i, Q s i) (s : σ) (is : List ι) :
    Throughout step Q s is := by
  induction is generalizing s with
  | nil => trivial
  | cons i is ih => exact ⟨h s i, fun s' _ ↦ ih s'⟩

theorem exists_foldlM_of_progress (Inv : σ → Prop)
    (hstep : ∀ s i, Inv s → ∃ s', step s i = some s' ∧ Inv s') {s : σ} (hs : Inv s)
    (is : List ι) : ∃ s', is.foldlM step s = some s' ∧ Inv s' :=
  exists_foldlM_of_throughout (Q := fun _ _ ↦ True) Inv (fun s i hinv _ ↦ hstep s i hinv) hs
    (throughout_of_forall (fun _ _ ↦ trivial) s is)

instance decidableThroughout {Q : σ → ι → Prop} [∀ s i, Decidable (Q s i)] :
    ∀ (s : σ) (is : List ι), Decidable (Throughout step Q s is)
  | _, [] => isTrue trivial
  | s, i :: is =>
      match h : step s i with
      | none => decidable_of_iff (Q s i) (by
          constructor
          · intro hQ
            refine ⟨hQ, fun s' hs' ↦ ?_⟩
            rw [h] at hs'
            cases hs'
          · exact fun hQ ↦ hQ.1)
      | some s₁ =>
          have : Decidable (Throughout step Q s₁ is) := decidableThroughout s₁ is
          decidable_of_iff (Q s i ∧ Throughout step Q s₁ is) (by
            constructor
            · rintro ⟨hQ, hs₁⟩
              refine ⟨hQ, fun s' hs' ↦ ?_⟩
              rw [h] at hs'
              exact Option.some.inj hs' ▸ hs₁
            · rintro ⟨hQ, hall⟩
              exact ⟨hQ, hall s₁ h⟩)

/-! ## Monitors -/

/-- The step function with a ghost state that observes its transitions. -/
def monitored (step : σ → ι → Option σ) (observe : σ → ι → σ → γ → γ) :
    σ × γ → ι → Option (σ × γ) :=
  fun p i ↦ (step p.1 i).map fun s' ↦ (s', observe p.1 i s' p.2)

theorem monitored_eq_some {observe : σ → ι → σ → γ → γ} {p p' : σ × γ} {i : ι} :
    monitored step observe p i = some p' ↔
      step p.1 i = some p'.1 ∧ p'.2 = observe p.1 i p'.1 p.2 := by
  rw [monitored, Option.map_eq_some_iff]
  constructor
  · rintro ⟨s', hs', rfl⟩
    exact ⟨hs', rfl⟩
  · rintro ⟨hs', hg⟩
    exact ⟨p'.1, hs', Prod.ext rfl hg.symm⟩

theorem foldlM_monitored {observe : σ → ι → σ → γ → γ} {s s' : σ} (g : γ) {is : List ι}
    (h : is.foldlM step s = some s') :
    ∃ g', is.foldlM (monitored step observe) (s, g) = some (s', g') := by
  induction is generalizing s g with
  | nil =>
      obtain rfl : s = s' := Option.some.inj h
      exact ⟨g, rfl⟩
  | cons i is ih =>
      rw [List.foldlM_cons, Option.bind_eq_bind, Option.bind_eq_some_iff] at h
      obtain ⟨mid, hmid, hrest⟩ := h
      obtain ⟨g', hg'⟩ := ih (observe s i mid g) hrest
      refine ⟨g', ?_⟩
      have hfirst : monitored step observe (s, g) i = some (mid, observe s i mid g) :=
        monitored_eq_some.mpr ⟨hmid, rfl⟩
      rw [List.foldlM_cons, Option.bind_eq_bind, hfirst, Option.bind_some, hg']

/-- A run is followed by the fold of a function that follows every step. -/
theorem foldlM_followed {rel : σ → τ → Prop} {note : τ → ι → τ}
    (hstep : ∀ s t i s', rel s t → step s i = some s' → rel s' (note t i))
    {s s' : σ} {t : τ} {is : List ι} (hrel : rel s t) (hrun : is.foldlM step s = some s') :
    rel s' (is.foldl note t) := by
  induction is generalizing s t with
  | nil =>
      obtain rfl : s = s' := Option.some.inj hrun
      exact hrel
  | cons i is ih =>
      rw [List.foldlM_cons, Option.bind_eq_bind, Option.bind_eq_some_iff] at hrun
      obtain ⟨mid, hmid, hrest⟩ := hrun
      exact ih (hstep s t i mid hrel hmid) hrest

/-! ## Unwinding -/

/-- What is seen of the state changes with the visible inputs alone, so it is a fold over them. -/
theorem foldlM_projected {view : σ → τ} {visible : ι → Bool} {note : τ → ι → τ}
    (hstep : ∀ s i s', step s i = some s' →
      view s' = if visible i then note (view s) i else view s)
    {s s' : σ} {is : List ι} (hrun : is.foldlM step s = some s') :
    view s' = (is.filter visible).foldl note (view s) := by
  induction is generalizing s with
  | nil =>
      rw [List.foldlM_nil] at hrun
      cases hrun
      rfl
  | cons i is ih =>
      rw [List.foldlM_cons] at hrun
      obtain ⟨s₁, hi, hrest⟩ := Option.bind_eq_some_iff.mp hrun
      rw [ih hrest, hstep s i s₁ hi]
      cases hvisible : visible i with
      | true => rw [List.filter_cons_of_pos hvisible, List.foldl_cons, if_pos rfl]
      | false =>
          rw [List.filter_cons_of_neg (by rw [hvisible]; exact Bool.false_ne_true),
            if_neg Bool.false_ne_true]

/-- A run is matched by the run that sees only the visible inputs: a visible step is
matched by a step, a hidden one by standing still. -/
theorem unwinding {stepT : τ → ι → Option τ} (rel : σ → τ → Prop) (visible : ι → Bool)
    {C : σ → ι → σ → Prop}
    (hvisible : ∀ s t i s', rel s t → visible i = true → C s i s' → step s i = some s' →
      ∃ t', stepT t i = some t' ∧ rel s' t')
    (hhidden : ∀ s t i s', rel s t → visible i = false → C s i s' → step s i = some s' →
      rel s' t)
    {s s' : σ} {t : τ} {is : List ι} (hrel : rel s t) (hC : Always step C s is)
    (hrun : is.foldlM step s = some s') :
    ∃ t', (is.filter visible).foldlM stepT t = some t' ∧ rel s' t' := by
  induction is generalizing s t with
  | nil =>
      obtain rfl : s = s' := Option.some.inj hrun
      exact ⟨t, rfl, hrel⟩
  | cons i is ih =>
      rw [List.foldlM_cons, Option.bind_eq_bind, Option.bind_eq_some_iff] at hrun
      obtain ⟨mid, hmid, hrest⟩ := hrun
      obtain ⟨hCi, hCrest⟩ := hC mid hmid
      cases hi : visible i with
      | true =>
          obtain ⟨t', ht', hrel'⟩ := hvisible s t i mid hrel hi hCi hmid
          rw [List.filter_cons_of_pos hi, List.foldlM_cons, Option.bind_eq_bind, ht']
          exact ih hrel' hCrest hrest
      | false =>
          rw [List.filter_cons_of_neg (by rw [hi]; exact Bool.false_ne_true)]
          exact ih (hhidden s t i mid hrel hi hCi hmid) hCrest hrest

/-! ## Alignment -/

/-- Hidden inputs are passed over. -/
theorem exists_foldlM_of_hidden {Q : σ → Prop} {visible : ι → Bool}
    (hhidden : ∀ s i, Q s → visible i = false → ∃ s', step s i = some s' ∧ Q s') {s : σ}
    (hs : Q s) {is : List ι} (his : ∀ i ∈ is, visible i = false) :
    ∃ s', is.foldlM step s = some s' ∧ Q s' := by
  induction is generalizing s with
  | nil => exact ⟨s, rfl, hs⟩
  | cons i is ih =>
      obtain ⟨hi, his⟩ := List.forall_mem_cons.mp his
      obtain ⟨mid, hmid, hQ⟩ := hhidden s i hs hi
      rw [List.foldlM_cons, Option.bind_eq_bind, hmid]
      exact ih hQ his

/-- Two runs with corresponding visible inputs end in related states, or both stop, if related
states take corresponding visible steps together and a hidden step of either side relates
its result to the other side as it stands. -/
theorem aligned {κ : Type*} {stepT : τ → κ → Option τ} (rel : σ → τ → Prop)
    {relI : ι → κ → Prop} (visible : ι → Bool) (visible' : κ → Bool)
    (hvisible : ∀ s t i k, rel s t → relI i k → Option.Rel rel (step s i) (stepT t k))
    (hleft : ∀ s t i, rel s t → visible i = false → ∃ s', step s i = some s' ∧ rel s' t)
    (hright : ∀ s t k, rel s t → visible' k = false → ∃ t', stepT t k = some t' ∧ rel s t')
    {s : σ} {t : τ} {is : List ι} {ks : List κ} (hrel : rel s t)
    (h : List.Forall₂ relI (is.filter visible) (ks.filter visible')) :
    Option.Rel rel (is.foldlM step s) (ks.foldlM stepT t) := by
  induction is generalizing s t ks with
  | nil =>
      have hnil : ks.filter visible' = [] := List.forall₂_nil_left_iff.mp h
      have hks : ∀ k ∈ ks, visible' k = false := fun k hk ↦
        Bool.eq_false_iff.mpr (List.filter_eq_nil_iff.mp hnil k hk)
      obtain ⟨t', ht', hrel'⟩ := exists_foldlM_of_hidden (Q := rel s) (hright s) hrel hks
      rw [ht']
      exact .some hrel'
  | cons i is ih =>
      rw [List.foldlM_cons, Option.bind_eq_bind]
      cases hi : visible i with
      | false =>
          rw [List.filter_cons_of_neg (by rw [hi]; exact Bool.false_ne_true)] at h
          obtain ⟨s', hs', hrel'⟩ := hleft s t i hrel hi
          rw [hs']
          exact ih hrel' h
      | true =>
          rw [List.filter_cons_of_pos hi] at h
          obtain ⟨k, l, hik, htail, hks⟩ := List.forall₂_cons_left_iff.mp h
          obtain ⟨skipped, rest, rfl, hskipped, _, hl⟩ := List.filter_eq_cons_iff.mp hks
          obtain ⟨t', ht', hrel'⟩ := exists_foldlM_of_hidden (Q := rel s) (hright s) hrel
            fun k hk ↦ Bool.eq_false_iff.mpr (hskipped k hk)
          rw [List.foldlM_append, Option.bind_eq_bind, ht', Option.bind_some, List.foldlM_cons,
            Option.bind_eq_bind]
          have hstep := hvisible s t' i k hrel' hik
          generalize step s i = r at hstep ⊢
          generalize stepT t' k = r' at hstep ⊢
          cases hstep with
          | none => exact .none
          | some hmid => exact ih hmid (hl ▸ htail)

/-! ## Bounded waiting -/

/-- The number of marked inputs of a run, up to where it stops. -/
def countMarked (step : σ → ι → Option σ) (marked : σ → ι → Bool) : σ → List ι → ℕ
  | _, [] => 0
  | s, i :: is =>
      match step s i with
      | none => 0
      | some s' => (if marked s i then 1 else 0) + countMarked step marked s' is

theorem countMarked_cons {marked : σ → ι → Bool} {s s' : σ} {i : ι} (h : step s i = some s')
    (is : List ι) : countMarked step marked s (i :: is) =
      (if marked s i then 1 else 0) + countMarked step marked s' is := by
  simp only [countMarked, h]

/-- What every step keeps a run keeps, also where it looks at the inputs still to come. -/
theorem foldlM_of_ahead (Inv : σ → List ι → Prop)
    (hstep : ∀ s i is s', Inv s (i :: is) → step s i = some s' → Inv s' is) {s s' : σ}
    {is : List ι} (hs : Inv s is) (hrun : is.foldlM step s = some s') : Inv s' [] := by
  induction is generalizing s with
  | nil =>
      obtain rfl : s = s' := Option.some.inj hrun
      exact hs
  | cons i is ih =>
      rw [List.foldlM_cons, Option.bind_eq_bind, Option.bind_eq_some_iff] at hrun
      obtain ⟨mid, hmid, hrest⟩ := hrun
      exact ih (hstep s i is mid hs hmid) hrest

theorem foldlM_of_stable {Q : σ → Prop} (hQ : ∀ s i s', Q s → step s i = some s' → Q s')
    {s s' : σ} {is : List ι} (hs : Q s) (hrun : is.foldlM step s = some s') : Q s' :=
  foldlM_of_ahead (fun s _ ↦ Q s) (fun s i _ s' ↦ hQ s i s') hs hrun

/-- If every marked step reaches the goal or uses up one of `budget` units, no more than
`budget` marked steps are taken before the goal is reached.  The invariant may look at the
inputs still to come. -/
theorem reached_or_countMarked_le {marked : σ → ι → Bool} (Inv : σ → List ι → Prop)
    (Goal : σ → Prop) (used : σ → ℕ)
    (hgoal : ∀ s i s', Goal s → step s i = some s' → Goal s')
    (hstep : ∀ s i is s', Inv s (i :: is) → step s i = some s' →
      Goal s' ∨ Inv s' is ∧ (if marked s i then 1 else 0) + used s ≤ used s')
    {s s' : σ} {is : List ι} (hs : Inv s is) (hrun : is.foldlM step s = some s') :
    Goal s' ∨ countMarked step marked s is + used s ≤ used s' := by
  induction is generalizing s with
  | nil =>
      obtain rfl : s = s' := Option.some.inj hrun
      exact Or.inr (Nat.le_of_eq (Nat.zero_add _))
  | cons i is ih =>
      rw [List.foldlM_cons, Option.bind_eq_bind, Option.bind_eq_some_iff] at hrun
      obtain ⟨mid, hmid, hrest⟩ := hrun
      rcases hstep s i is mid hs hmid with hreached | ⟨hmidInv, hused⟩
      · exact Or.inl (foldlM_of_stable hgoal hreached hrest)
      · rcases ih hmidInv hrest with hreached | hle
        · exact Or.inl hreached
        · right
          rw [countMarked_cons hmid]
          omega

end Runs
