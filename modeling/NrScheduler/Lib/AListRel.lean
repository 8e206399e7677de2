import NrScheduler.Lib.AListModify
import Mathlib.Data.List.Forall2

/-!
# Two association lists side by side

Two association lists match if they have the same keys in the same order and related values.
Looking up, inserting, erasing and changing keep a match, and a matching pair is one list of
pairs in disguise.
-/

namespace AList

variable {κ α β : Type} [DecidableEq κ] {R : α → β → Prop} {s : AList fun _ : κ ↦ α}
  {t : AList fun _ : κ ↦ β}

/-- The same keys in the same order, with related values. -/
def Matching (R : α → β → Prop) (s : AList fun _ : κ ↦ α) (t : AList fun _ : κ ↦ β) : Prop :=
  List.Forall₂ (fun e e' ↦ e'.1 = e.1 ∧ R e.2 e'.2) s.entries t.entries

namespace Matching

omit [DecidableEq κ] in
theorem refl {R : α → α → Prop} (h : ∀ a, R a a) (s : AList fun _ : κ ↦ α) : Matching R s s :=
  List.forall₂_same.mpr fun e _ ↦ ⟨rfl, h e.2⟩

omit [DecidableEq κ] in
theorem symm {S : β → α → Prop} (h : Matching R s t) (hRS : ∀ a b, R a b → S b a) :
    Matching S t s :=
  List.Forall₂.flip (h.imp fun _ _ he ↦ ⟨he.1.symm, hRS _ _ he.2⟩)

omit [DecidableEq κ] in
/-- What two lists have to do with a third they have to do with each other. -/
theorem glue {γ : Type} {S : α → γ → Prop} {T : β → γ → Prop} {u : AList fun _ : κ ↦ γ}
    (h : Matching R s t) (h' : Matching S s u)
    (hRS : ∀ e ∈ s.entries, ∀ b c, R e.2 b → S e.2 c → T b c) : Matching T t u := by
  rw [Matching] at h h' ⊢
  generalize s.entries = l at h h' hRS
  generalize t.entries = m at h ⊢
  generalize u.entries = n at h' ⊢
  induction h generalizing n with
  | nil =>
      cases h'
      exact .nil
  | @cons e _ _ _ hab _ ih =>
      obtain _ | ⟨hac, h'⟩ := h'
      obtain ⟨hR, hrest⟩ := List.forall_mem_cons.mp hRS
      exact .cons ⟨hac.1.trans hab.1.symm, hR _ _ hab.2 hac.2⟩ (ih hrest _ h')

omit [DecidableEq κ] in
theorem keys_eq (h : Matching R s t) : t.keys = s.keys := by
  rw [Matching] at h
  simp only [keys, List.keys]
  generalize s.entries = l at h ⊢
  generalize t.entries = m at h ⊢
  induction h with
  | nil => rfl
  | cons hab _ ih => rw [List.map_cons, List.map_cons, hab.1, ih]

omit [DecidableEq κ] in
theorem mem_iff (h : Matching R s t) {a : κ} : a ∈ t ↔ a ∈ s := by
  rw [mem_keys, mem_keys, h.keys_eq]

theorem lookup (h : Matching R s t) (a : κ) : Option.Rel R (s.lookup a) (t.lookup a) := by
  rw [Matching] at h
  simp only [AList.lookup]
  generalize s.entries = l at h ⊢
  generalize t.entries = m at h ⊢
  induction h with
  | nil => exact .none
  | @cons e e' _ _ hab _ ih =>
      obtain ⟨k, v⟩ := e
      obtain ⟨k', v'⟩ := e'
      obtain ⟨rfl, hv⟩ := hab
      by_cases hk : a = k'
      · subst hk
        rw [List.dlookup_cons_eq, List.dlookup_cons_eq]
        exact .some hv
      · rw [List.dlookup_cons_ne _ _ hk, List.dlookup_cons_ne _ _ hk]
        exact ih

omit [DecidableEq κ] in
theorem kerase [DecidableEq κ] {l : List (Sigma fun _ : κ ↦ α)} {m : List (Sigma fun _ : κ ↦ β)}
    (h : List.Forall₂ (fun e e' ↦ e'.1 = e.1 ∧ R e.2 e'.2) l m) (a : κ) :
    List.Forall₂ (fun e e' ↦ e'.1 = e.1 ∧ R e.2 e'.2) (l.kerase a) (m.kerase a) := by
  induction h with
  | nil => exact .nil
  | @cons e e' _ _ hab _ ih =>
      by_cases hk : a = e.1
      · rw [List.kerase_cons_eq hk, List.kerase_cons_eq (hk.trans hab.1.symm)]
        assumption
      · rw [List.kerase_cons_ne hk, List.kerase_cons_ne fun h ↦ hk (h.trans hab.1)]
        exact .cons hab ih

theorem erase (h : Matching R s t) (a : κ) : Matching R (s.erase a) (t.erase a) := kerase h a

theorem insert (h : Matching R s t) (a : κ) {v : α} {w : β} (hvw : R v w) :
    Matching R (s.insert a v) (t.insert a w) := by
  rw [Matching, entries_insert, entries_insert]
  exact .cons ⟨rfl, hvw⟩ (kerase h a)

theorem modify (h : Matching R s t) (a : κ) {f : α → α} {g : β → β}
    (hfg : ∀ v w, R v w → R (f v) (g w)) : Matching R (s.modify a f) (t.modify a g) := by
  rw [Matching, entries_modify, entries_modify, List.forall₂_map_left_iff,
    List.forall₂_map_right_iff]
  refine List.Forall₂.imp ?_ h
  rintro ⟨k, v⟩ ⟨k', w⟩ ⟨rfl, hvw⟩
  by_cases hk : k' = a
  · rw [if_pos hk, if_pos hk]
    exact ⟨rfl, hfg v w hvw⟩
  · rw [if_neg hk, if_neg hk]
    exact ⟨rfl, hvw⟩

/-- One list changes under a key, and the relation may change with the key. -/
theorem modify_right {R' : α → β → Prop} (h : Matching R s t) (a : κ) {g : β → β}
    (hother : ∀ e ∈ s.entries, e.1 ≠ a → ∀ w, R e.2 w → R' e.2 w)
    (hsame : ∀ e ∈ s.entries, e.1 = a → ∀ w, R e.2 w → R' e.2 (g w)) :
    Matching R' s (t.modify a g) := by
  rw [Matching] at h ⊢
  rw [entries_modify, List.forall₂_map_right_iff]
  generalize s.entries = l at h hother hsame
  generalize t.entries = m at h ⊢
  induction h with
  | nil => exact .nil
  | @cons e e' _ _ he _ ih =>
      obtain ⟨hother', hother⟩ := List.forall_mem_cons.mp hother
      obtain ⟨hsame', hsame⟩ := List.forall_mem_cons.mp hsame
      refine .cons ?_ (ih hother hsame)
      by_cases hk : e'.1 = a
      · rw [if_pos hk]
        exact ⟨he.1, hsame' (he.1.symm.trans hk) _ he.2⟩
      · rw [if_neg hk]
        exact ⟨he.1, hother' (fun h ↦ hk (he.1.trans h)) _ he.2⟩

end Matching

omit [DecidableEq κ] in
/-- A matching pair of lists is one list of related pairs. -/
theorem exists_pairs {l : List (Sigma fun _ : κ ↦ α)} {m : List (Sigma fun _ : κ ↦ β)}
    (h : List.Forall₂ (fun e e' ↦ e'.1 = e.1 ∧ R e.2 e'.2) l m) :
    ∃ z : List (Sigma fun _ : κ ↦ { p : α × β // R p.1 p.2 }),
      l = z.map (fun e ↦ ⟨e.1, e.2.1.1⟩) ∧ m = z.map fun e ↦ ⟨e.1, e.2.1.2⟩ := by
  induction h with
  | nil => exact ⟨[], rfl, rfl⟩
  | @cons e e' _ _ hab _ ih =>
      obtain ⟨z, hl, hm⟩ := ih
      obtain ⟨k, v⟩ := e
      obtain ⟨k', w⟩ := e'
      obtain ⟨rfl, hvw⟩ := hab
      refine ⟨⟨k', ⟨(v, w), hvw⟩⟩ :: z, ?_, ?_⟩
      · rw [hl, List.map_cons]
      · rw [hm, List.map_cons]

/-- Lists that agree on every lookup have the same entries, up to their order. -/
theorem perm_of_lookup_eq {s t : AList fun _ : κ ↦ α} (h : ∀ a, t.lookup a = s.lookup a) :
    t.entries.Perm s.entries := by
  apply List.lookup_ext t.nodupKeys s.nodupKeys
  intro a v
  rw [← AList.lookup, ← AList.lookup, h a]

end AList
