import Mathlib.Algebra.GroupWithZero.Nat
import Mathlib.Algebra.Order.BigOperators.Group.List
import Mathlib.Algebra.Order.Group.Nat
import Mathlib.Data.List.AList
import Mathlib.Data.List.Perm.Subperm

/-!
# Changing a value of an association list in place

Writing through a reference into a hash map changes one value and neither the keys nor
the order in which they are visited.  A sum over the values of the list changes by what
that value changes by.
-/

namespace AList

variable {κ : Type} {α : Type} [DecidableEq κ]

theorem exists_lookup {a : κ} {s : AList fun _ : κ ↦ α} (h : a ∈ s) : ∃ v, s.lookup a = some v :=
  Option.isSome_iff_exists.mp (lookup_isSome.mpr h)

theorem mem_of_lookup {a : κ} {s : AList fun _ : κ ↦ α} {v : α} (h : s.lookup a = some v) :
    a ∈ s :=
  lookup_isSome.mp (by rw [h]; rfl)

def modify (a : κ) (f : α → α) (s : AList fun _ : κ ↦ α) : AList fun _ : κ ↦ α where
  entries := s.entries.map fun e ↦ if e.1 = a then ⟨e.1, f e.2⟩ else e
  nodupKeys := by
    have hkeys : (s.entries.map fun e ↦ if e.1 = a then (⟨e.1, f e.2⟩ : Sigma _) else e).keys =
        s.entries.keys := by
      simp only [List.keys, List.map_map]
      apply List.map_congr_left
      intro e _
      by_cases he : e.1 = a <;> simp [he]
    rw [List.NodupKeys, hkeys]
    exact s.nodupKeys

theorem entries_modify (a : κ) (f : α → α) (s : AList fun _ : κ ↦ α) :
    (s.modify a f).entries =
      s.entries.map fun e ↦ if e.1 = a then ⟨e.1, f e.2⟩ else e := rfl

@[simp] theorem keys_modify (a : κ) (f : α → α) (s : AList fun _ : κ ↦ α) :
    (s.modify a f).keys = s.keys := by
  simp only [keys, entries_modify, List.keys, List.map_map]
  apply List.map_congr_left
  intro e _
  by_cases he : e.1 = a <;> simp [he]

@[simp] theorem mem_modify {a b : κ} {f : α → α} {s : AList fun _ : κ ↦ α} :
    b ∈ s.modify a f ↔ b ∈ s := by
  rw [mem_keys, keys_modify, ← mem_keys]

theorem lookup_modify (a b : κ) (f : α → α) (s : AList fun _ : κ ↦ α) :
    (s.modify a f).lookup b = if b = a then (s.lookup a).map f else s.lookup b := by
  simp only [lookup, entries_modify]
  induction s.entries with
  | nil => simp
  | cons e l ih =>
      obtain ⟨k, v⟩ := e
      rw [List.map_cons]
      by_cases hka : k = a
      · subst hka
        by_cases hkb : b = k
        · subst hkb
          simp [List.dlookup_cons_eq]
        · simp only [if_true, if_neg hkb] at ih ⊢
          rw [List.dlookup_cons_ne _ _ hkb, List.dlookup_cons_ne _ _ hkb, ih]
      · have hak : a ≠ k := fun h ↦ hka h.symm
        simp only [if_neg hka, List.dlookup_cons_ne _ (⟨k, v⟩ : Sigma fun _ : κ ↦ α) hak]
        by_cases hkb : b = k
        · subst hkb
          rw [if_neg hka, List.dlookup_cons_eq, List.dlookup_cons_eq]
        · rw [List.dlookup_cons_ne _ _ hkb, List.dlookup_cons_ne _ _ hkb, ih]

theorem lookup_modify_ne {a b : κ} (h : b ≠ a) (f : α → α) (s : AList fun _ : κ ↦ α) :
    (s.modify a f).lookup b = s.lookup b := by
  rw [lookup_modify, if_neg h]

/-- What is found after a change was found before, and is changed at `a`. -/
theorem exists_of_lookup_modify {a b : κ} {f : α → α} {s : AList fun _ : κ ↦ α} {v' : α}
    (h : (s.modify a f).lookup b = some v') :
    ∃ v, s.lookup b = some v ∧ (b ≠ a ∧ v' = v ∨ b = a ∧ v' = f v) := by
  by_cases hb : b = a
  · subst hb
    rw [lookup_modify, if_pos rfl] at h
    obtain ⟨v, hv, rfl⟩ := Option.map_eq_some_iff.mp h
    exact ⟨v, hv, Or.inr ⟨rfl, rfl⟩⟩
  · rw [lookup_modify_ne hb] at h
    exact ⟨v', h, Or.inl ⟨hb, rfl⟩⟩

theorem modify_eq_self {a : κ} {f : α → α} {s : AList fun _ : κ ↦ α}
    (h : ∀ v, s.lookup a = some v → f v = v) : s.modify a f = s := by
  apply AList.ext
  rw [entries_modify]
  refine (List.map_congr_left ?_).trans (List.map_id _)
  rintro ⟨k, v⟩ hmem
  by_cases hk : k = a
  · subst hk
    rw [if_pos rfl, h v (AList.mem_lookup_iff.mpr hmem)]
    rfl
  · rw [if_neg hk]
    rfl

def mapValues (f : α → α) (s : AList fun _ : κ ↦ α) : AList fun _ : κ ↦ α where
  entries := s.entries.map fun e ↦ ⟨e.1, f e.2⟩
  nodupKeys := by
    have hkeys : (s.entries.map fun e ↦ (⟨e.1, f e.2⟩ : Sigma fun _ : κ ↦ α)).keys =
        s.entries.keys := by
      simp [List.keys]
    rw [List.NodupKeys, hkeys]
    exact s.nodupKeys

omit [DecidableEq κ] in
@[simp] theorem mem_mapValues {f : α → α} {s : AList fun _ : κ ↦ α} {a : κ} :
    a ∈ s.mapValues f ↔ a ∈ s := by
  simp [mem_keys, keys, mapValues, List.keys]

theorem lookup_mapValues (f : α → α) (s : AList fun _ : κ ↦ α) (a : κ) :
    (s.mapValues f).lookup a = (s.lookup a).map f := by
  simp only [lookup, mapValues]
  induction s.entries with
  | nil => rfl
  | cons e l ih =>
      obtain ⟨k, v⟩ := e
      rw [List.map_cons]
      by_cases hk : a = k
      · subst hk
        simp [List.dlookup_cons_eq]
      · rw [List.dlookup_cons_ne _ _ hk, List.dlookup_cons_ne _ _ hk, ih]

omit [DecidableEq κ] in
/-- A list holds no more values than its keys have codes. -/
theorem length_entries_le {s : AList fun _ : κ ↦ α} {code : κ → ℕ}
    (hcode : Function.Injective code) {n : ℕ} (h : ∀ a ∈ s, code a < n) :
    s.entries.length ≤ n := by
  have hnodup : (s.keys.map code).Nodup := s.keys_nodup.map hcode
  have hsubset : s.keys.map code ⊆ List.range n := by
    intro m hm
    obtain ⟨a, ha, rfl⟩ := List.mem_map.mp hm
    exact List.mem_range.mpr (h a (mem_keys.mpr ha))
  have hlength := (List.subperm_of_subset hnodup hsubset).length_le
  rwa [List.length_map, List.length_range, keys, List.keys, List.length_map] at hlength

/-! ## Sums over the values -/

def sumOf (f : α → ℕ) (s : AList fun _ : κ ↦ α) : ℕ := (s.entries.map fun e ↦ f e.2).sum

omit [DecidableEq κ] in
theorem sumOf_empty (f : α → ℕ) : sumOf f (∅ : AList fun _ : κ ↦ α) = 0 := rfl

theorem sumOf_erase (a : κ) (s : AList fun _ : κ ↦ α) (f : α → ℕ) :
    (s.erase a).sumOf f + ((s.lookup a).map f).getD 0 = s.sumOf f := by
  cases h : s.lookup a with
  | none =>
      have hsame : s.erase a = s :=
        AList.ext (List.kerase_of_notMem_keys (lookup_eq_none.mp h))
      simp [hsame]
  | some v =>
      have hkey : a ∈ s.entries.keys := mem_of_lookup h
      obtain ⟨b, l₁, l₂, _, hentries, herase⟩ := List.exists_of_kerase hkey
      have hb : s.lookup a = some b := mem_lookup_iff.mpr (by simp [hentries])
      obtain rfl : b = v := Option.some.inj (hb.symm.trans h)
      change ((List.kerase a s.entries).map _).sum + f b = (s.entries.map _).sum
      rw [herase, hentries]
      simp only [List.map_append, List.sum_append, List.map_cons, List.sum_cons]
      omega

theorem sumOf_insert (a : κ) (s : AList fun _ : κ ↦ α) (f : α → ℕ) (v : α) :
    (s.insert a v).sumOf f + ((s.lookup a).map f).getD 0 = s.sumOf f + f v := by
  have hcons : (s.insert a v).sumOf f = f v + (s.erase a).sumOf f := by
    rw [sumOf, entries_insert, List.map_cons, List.sum_cons]
    rfl
  rw [hcons, Nat.add_assoc, sumOf_erase, Nat.add_comm]

theorem sumOf_insert_of_notMem {a : κ} {s : AList fun _ : κ ↦ α} (h : a ∉ s) (f : α → ℕ)
    (v : α) : (s.insert a v).sumOf f = s.sumOf f + f v := by
  have hinsert := sumOf_insert a s f v
  rwa [lookup_eq_none.mpr h] at hinsert

theorem sumOf_congr {f g : α → ℕ} {s : AList fun _ : κ ↦ α}
    (h : ∀ a v, s.lookup a = some v → f v = g v) : s.sumOf f = s.sumOf g := by
  refine congrArg List.sum (List.map_congr_left ?_)
  rintro ⟨a, v⟩ hmem
  exact h a v (mem_lookup_iff.mpr hmem)

theorem le_sumOf {f : α → ℕ} {s : AList fun _ : κ ↦ α} {a : κ} {v : α}
    (h : s.lookup a = some v) : f v ≤ s.sumOf f :=
  List.single_le_sum (fun _ _ ↦ Nat.zero_le _) _
    (List.mem_map_of_mem (f := fun e : Sigma fun _ : κ ↦ α ↦ f e.2) (mem_lookup_iff.mp h))

theorem sumOf_eq_zero_iff {f : α → ℕ} {s : AList fun _ : κ ↦ α} :
    s.sumOf f = 0 ↔ ∀ a v, s.lookup a = some v → f v = 0 := by
  constructor
  · intro h a v hv
    exact Nat.le_zero.mp ((le_sumOf hv).trans_eq h)
  · intro h
    rw [sumOf_congr h]
    simp [sumOf]

theorem sumOf_le_mul {f : α → ℕ} {s : AList fun _ : κ ↦ α} {n : ℕ}
    (h : ∀ a v, s.lookup a = some v → f v ≤ n) : s.sumOf f ≤ s.entries.length * n := by
  have hbound : ∀ x ∈ s.entries.map fun e ↦ f e.2, x ≤ n := by
    intro x hx
    obtain ⟨e, he, rfl⟩ := List.mem_map.mp hx
    exact h e.1 e.2 (mem_lookup_iff.mpr he)
  have hsum := List.sum_le_card_nsmul _ n hbound
  rwa [List.length_map] at hsum

theorem sumOf_modify {a : κ} {s : AList fun _ : κ ↦ α} {v : α} (h : s.lookup a = some v)
    (f : α → α) (g : α → ℕ) : (s.modify a f).sumOf g + g v = s.sumOf g + g (f v) := by
  obtain ⟨entries, nodup⟩ := s
  have hv : ⟨a, v⟩ ∈ entries := mem_lookup_iff.mp h
  simp only [sumOf, entries_modify, List.map_map]
  clear h
  induction entries with
  | nil => simp at hv
  | cons e l ih =>
      obtain ⟨hnotin, hnodup⟩ := List.nodupKeys_cons.mp nodup
      by_cases he : e.1 = a
      · have hrest : ∀ e' ∈ l, e'.1 ≠ a := by
          intro e' he' heq
          exact hnotin (he ▸ heq ▸ List.mem_keys_of_mem he')
        obtain rfl : ⟨a, v⟩ = e := by
          rcases List.mem_cons.mp hv with hv | hv
          · exact hv
          · exact absurd rfl (hrest _ hv)
        have hsame : l.map ((fun e ↦ g e.2) ∘
            fun e : Sigma fun _ : κ ↦ α ↦ if e.1 = a then ⟨e.1, f e.2⟩ else e) =
            l.map fun e ↦ g e.2 := by
          refine List.map_congr_left fun e' he' ↦ ?_
          simp [hrest e' he']
        simp [hsame]
        omega
      · have hmem : ⟨a, v⟩ ∈ l := by
          rcases List.mem_cons.mp hv with hv | hv
          · exact absurd (congrArg Sigma.fst hv).symm he
          · exact hv
        have htail := ih hnodup hmem
        simp only [List.map_cons, List.sum_cons, Function.comp_apply, if_neg he] at htail ⊢
        omega

theorem modify_of_notMem {a : κ} {s : AList fun _ : κ ↦ α} (h : a ∉ s) (f : α → α) :
    s.modify a f = s :=
  modify_eq_self fun _ hv ↦ absurd (mem_of_lookup hv) h

/-! ## Agreement at a key -/

section Agreement

variable {a b : κ} {m m' : AList fun _ : κ ↦ α}

theorem lookup_insert_congr (h : m'.lookup a = m.lookup a) {v v' : α} (hv : a = b → v' = v) :
    (m'.insert b v').lookup a = (m.insert b v).lookup a := by
  by_cases hab : a = b
  · rw [hv hab, hab, AList.lookup_insert, AList.lookup_insert]
  · rw [AList.lookup_insert_ne hab, AList.lookup_insert_ne hab, h]

theorem lookup_erase_congr (h : m'.lookup a = m.lookup a) :
    (m'.erase b).lookup a = (m.erase b).lookup a := by
  by_cases hab : a = b
  · rw [hab, AList.lookup_erase, AList.lookup_erase]
  · rw [AList.lookup_erase_ne hab, AList.lookup_erase_ne hab, h]

theorem lookup_modify_congr (h : m'.lookup a = m.lookup a) (f : α → α) :
    (m'.modify b f).lookup a = (m.modify b f).lookup a := by
  by_cases hab : a = b
  · rw [AList.lookup_modify, AList.lookup_modify, if_pos hab, if_pos hab, ← hab, h]
  · rw [AList.lookup_modify_ne hab, AList.lookup_modify_ne hab, h]

end Agreement

end AList
