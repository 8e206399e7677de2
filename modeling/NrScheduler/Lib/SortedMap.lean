import Mathlib.Order.Lattice
import Mathlib.Data.List.Basic

/-!
# Ordered maps as sorted lists

A map that is walked in the order of its keys, with the removal of the least keys.
-/

/-- A map whose entries are listed by strictly increasing key. -/
structure SortedMap (κ α : Type) [LinearOrder κ] where
  entries : List (κ × α)
  sorted : entries.Pairwise fun a b ↦ a.1 < b.1

namespace SortedMap

variable {κ α : Type} [LinearOrder κ]

def empty : SortedMap κ α := ⟨[], List.Pairwise.nil⟩

/-! ## Lists -/

def findList (k : κ) : List (κ × α) → Option α
  | [] => none
  | e :: rest => if k = e.1 then some e.2 else findList k rest

/-- Store `f` of the old value under `k`, at the place of `k` in the order. -/
def upsertList (k : κ) (f : Option α → α) : List (κ × α) → List (κ × α)
  | [] => [(k, f none)]
  | e :: rest =>
      if k < e.1 then (k, f none) :: e :: rest
      else if k = e.1 then (k, f (some e.2)) :: rest
      else e :: upsertList k f rest

theorem fst_mem_upsertList {k : κ} {f : Option α → α} {l : List (κ × α)} {e : κ × α}
    (h : e ∈ upsertList k f l) : e.1 = k ∨ e ∈ l := by
  induction l with
  | nil =>
      rw [upsertList, List.mem_singleton] at h
      exact Or.inl (h ▸ rfl)
  | cons d rest ih =>
      rw [upsertList] at h
      split at h
      · rcases List.mem_cons.mp h with rfl | h
        · exact Or.inl rfl
        · exact Or.inr h
      · split at h
        · rcases List.mem_cons.mp h with rfl | h
          · exact Or.inl rfl
          · exact Or.inr (List.mem_cons_of_mem d h)
        · rcases List.mem_cons.mp h with rfl | h
          · exact Or.inr List.mem_cons_self
          · exact (ih h).imp_right (List.mem_cons_of_mem d)

theorem upsertList_sorted {k : κ} {f : Option α → α} {l : List (κ × α)}
    (hl : l.Pairwise fun a b ↦ a.1 < b.1) :
    (upsertList k f l).Pairwise fun a b ↦ a.1 < b.1 := by
  induction l with
  | nil => exact List.pairwise_singleton _ _
  | cons d rest ih =>
      obtain ⟨hd, hrest⟩ := List.pairwise_cons.mp hl
      rw [upsertList]
      split
      · rename_i hlt
        refine List.pairwise_cons.mpr ⟨?_, hl⟩
        intro e he
        rcases List.mem_cons.mp he with rfl | he
        · exact hlt
        · exact hlt.trans (hd e he)
      · rename_i hnlt
        split
        · rename_i heq
          exact List.pairwise_cons.mpr ⟨fun e he ↦ heq ▸ hd e he, hrest⟩
        · rename_i hne
          refine List.pairwise_cons.mpr ⟨?_, ih hrest⟩
          intro e he
          rcases fst_mem_upsertList he with hk | he
          · rw [hk]
            exact lt_of_le_of_ne (not_lt.mp hnlt) fun h ↦ hne h.symm
          · exact hd e he

theorem findList_eq_none {k : κ} {l : List (κ × α)} (h : ∀ e ∈ l, k ≠ e.1) :
    findList k l = none := by
  induction l with
  | nil => rfl
  | cons d rest ih =>
      rw [findList, if_neg (h d List.mem_cons_self)]
      exact ih fun e he ↦ h e (List.mem_cons_of_mem d he)

theorem findList_eq_some {k : κ} {a : α} {l : List (κ × α)}
    (hl : l.Pairwise fun a b ↦ a.1 < b.1) : findList k l = some a ↔ (k, a) ∈ l := by
  induction l with
  | nil => simp [findList]
  | cons d rest ih =>
      obtain ⟨hd, hrest⟩ := List.pairwise_cons.mp hl
      rw [findList, List.mem_cons]
      by_cases hk : k = d.1
      · rw [if_pos hk]
        constructor
        · intro h
          exact Or.inl (Prod.ext hk (Option.some.inj h).symm)
        · rintro (h | h)
          · rw [← h]
          · exact absurd hk (hd (k, a) h).ne'
      · rw [if_neg hk, ih hrest]
        constructor
        · exact Or.inr
        · rintro (h | h)
          · exact absurd (congrArg Prod.fst h) hk
          · exact h

theorem findList_upsertList {k j : κ} {f : Option α → α} {l : List (κ × α)}
    (hl : l.Pairwise fun a b ↦ a.1 < b.1) :
    findList j (upsertList k f l) =
      if j = k then some (f (findList k l)) else findList j l := by
  induction l with
  | nil => rfl
  | cons d rest ih =>
      obtain ⟨hd, hrest⟩ := List.pairwise_cons.mp hl
      rw [upsertList]
      split
      · rename_i hlt
        have habsent : findList k (d :: rest) = none := by
          apply findList_eq_none
          intro e he
          rcases List.mem_cons.mp he with rfl | he
          · exact hlt.ne
          · exact (hlt.trans (hd e he)).ne
        rw [habsent, findList]
      · split
        · rename_i hk
          subst hk
          by_cases hj : j = d.1 <;> simp [findList, hj]
        · rename_i hne
          rw [findList, findList, findList, if_neg hne, ih hrest]
          by_cases hj : j = d.1
          · have hjk : j ≠ k := fun h ↦ hne (h.symm.trans hj)
            rw [if_pos hj, if_neg hjk, if_pos hj]
          · rw [if_neg hj, if_neg hj]

theorem findList_filter (p : κ → Bool) (j : κ) (l : List (κ × α)) :
    findList j (l.filter fun e ↦ p e.1) = if p j then findList j l else none := by
  induction l with
  | nil => simp [findList]
  | cons d rest ih =>
      rw [List.filter_cons, findList]
      by_cases hj : j = d.1
      · subst hj
        by_cases hp : p d.1 = true
        · simp [hp, findList]
        · simpa [hp] using ih
      · by_cases hp : p d.1 = true
        · simpa [hp, findList, hj] using ih
        · simpa [hp, hj] using ih

/-- Dropping the least keys that satisfy a downward closed condition removes all keys
that satisfy it. -/
theorem dropWhile_eq_filter {p : κ → Bool} (hp : ∀ a b, a < b → p b = true → p a = true)
    {l : List (κ × α)} (hl : l.Pairwise fun a b ↦ a.1 < b.1) :
    (l.dropWhile fun e ↦ p e.1) = l.filter fun e ↦ !p e.1 := by
  induction l with
  | nil => rfl
  | cons d rest ih =>
      obtain ⟨hd, hrest⟩ := List.pairwise_cons.mp hl
      by_cases hpd : p d.1 = true
      · rw [List.dropWhile_cons_of_pos (by simpa using hpd), ih hrest,
          List.filter_cons_of_neg (by simpa using hpd)]
      · rw [List.dropWhile_cons_of_neg (by simpa using hpd)]
        symm
        apply List.filter_eq_self.mpr
        intro e he
        rcases List.mem_cons.mp he with rfl | he
        · simpa using hpd
        · have hnot : ¬ p e.1 = true := fun h ↦ hpd (hp d.1 e.1 (hd e he) h)
          simpa using hnot

/-! ## Maps -/

def find? (m : SortedMap κ α) (k : κ) : Option α := findList k m.entries

def upsert (m : SortedMap κ α) (k : κ) (f : Option α → α) : SortedMap κ α :=
  ⟨upsertList k f m.entries, upsertList_sorted m.sorted⟩

def erase (m : SortedMap κ α) (k : κ) : SortedMap κ α :=
  ⟨m.entries.filter fun e ↦ !decide (e.1 = k), m.sorted.filter _⟩

/-- Remove entries from the front as long as their keys satisfy `p`. -/
def dropWhile (m : SortedMap κ α) (p : κ → Bool) : SortedMap κ α :=
  ⟨m.entries.dropWhile fun e ↦ p e.1, m.sorted.sublist (List.dropWhile_sublist _)⟩

def mapValues (m : SortedMap κ α) (f : α → α) : SortedMap κ α :=
  ⟨m.entries.map fun e ↦ (e.1, f e.2), List.pairwise_map.mpr m.sorted⟩

theorem find?_eq_some {m : SortedMap κ α} {k : κ} {a : α} :
    m.find? k = some a ↔ (k, a) ∈ m.entries :=
  findList_eq_some m.sorted

theorem find?_upsert (m : SortedMap κ α) (k j : κ) (f : Option α → α) :
    (m.upsert k f).find? j = if j = k then some (f (m.find? k)) else m.find? j :=
  findList_upsertList m.sorted

theorem find?_erase (m : SortedMap κ α) (k j : κ) :
    (m.erase k).find? j = if j = k then none else m.find? j := by
  have h := findList_filter (fun i ↦ !decide (i = k)) j m.entries
  by_cases hj : j = k <;> simpa [find?, erase, hj] using h

theorem find?_dropWhile (m : SortedMap κ α) {p : κ → Bool}
    (hp : ∀ a b, a < b → p b = true → p a = true) (j : κ) :
    (m.dropWhile p).find? j = if p j then none else m.find? j := by
  have h := findList_filter (fun i ↦ !p i) j m.entries
  rw [← dropWhile_eq_filter hp m.sorted] at h
  cases hj : p j <;> simpa [find?, dropWhile, hj] using h

end SortedMap
