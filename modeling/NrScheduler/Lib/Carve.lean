import Mathlib.Algebra.BigOperators.Group.List.Basic
import Mathlib.Algebra.GroupWithZero.Nat
import Mathlib.Algebra.Order.Group.Nat
import Mathlib.Data.Finset.Card
import Mathlib.Order.Lattice
import Mathlib.Tactic.Common

/-!
# Carving a line into consecutive pieces

Items ask for lengths and are served in order from the front of what is left, each with
its demand or with all that remains, until a limit on their number is reached.
-/

namespace Carve

variable {α : Type*}

/-- A piece handed out: the item, the start and the width. -/
structure Piece (α : Type*) where
  item : α
  start : ℕ
  width : ℕ

/-- Serve the items from position `next` of a line that ends at `bound`. -/
def carve (demand : α → ℕ) (bound : ℕ) : (limit next : ℕ) → List α → List (Piece α)
  | _, _, [] => []
  | 0, _, _ => []
  | limit + 1, next, a :: rest =>
      let width := min (demand a) (bound - next)
      if width = 0 then carve demand bound (limit + 1) next rest
      else ⟨a, next, width⟩ :: carve demand bound limit (next + width) rest

variable {demand : α → ℕ} {bound limit next : ℕ} {items : List α}

@[simp] theorem carve_nil : carve demand bound limit next [] = [] := by
  cases limit <;> rfl

@[simp] theorem carve_zero : carve demand bound 0 next items = [] := by
  cases items <;> rfl

theorem carve_cons (demand : α → ℕ) (bound limit next : ℕ) (a : α) (items : List α) :
    (min (demand a) (bound - next) = 0 ∧
      carve demand bound limit next (a :: items) = carve demand bound limit next items) ∨
    (limit = 0 ∧ carve demand bound limit next (a :: items) = []) ∨
    ∃ m, limit = m + 1 ∧ min (demand a) (bound - next) ≠ 0 ∧
      carve demand bound limit next (a :: items) =
        ⟨a, next, min (demand a) (bound - next)⟩ ::
          carve demand bound m (next + min (demand a) (bound - next)) items := by
  cases limit with
  | zero => exact Or.inr (Or.inl ⟨rfl, carve_zero⟩)
  | succ m =>
      by_cases hw : min (demand a) (bound - next) = 0
      · refine Or.inl ⟨hw, ?_⟩
        simp only [carve, if_pos hw]
      · refine Or.inr (Or.inr ⟨m, rfl, hw, ?_⟩)
        simp only [carve, if_neg hw]

/-- Induction along the service: the limit is reached, an item gets nothing, or it gets a
piece. -/
@[elab_as_elim]
theorem carve_induction (demand : α → ℕ) (bound : ℕ) {motive : ℕ → ℕ → List α → Prop}
    (nil : ∀ limit next, motive limit next [])
    (stop : ∀ next a items, carve demand bound 0 next (a :: items) = [] →
      motive 0 next (a :: items))
    (skip : ∀ limit next a items, min (demand a) (bound - next) = 0 →
      carve demand bound limit next (a :: items) = carve demand bound limit next items →
      motive limit next items → motive limit next (a :: items))
    (serve : ∀ limit next a items, min (demand a) (bound - next) ≠ 0 →
      carve demand bound (limit + 1) next (a :: items) =
        ⟨a, next, min (demand a) (bound - next)⟩ ::
          carve demand bound limit (next + min (demand a) (bound - next)) items →
      motive limit (next + min (demand a) (bound - next)) items →
      motive (limit + 1) next (a :: items))
    (limit next : ℕ) (items : List α) : motive limit next items := by
  induction items generalizing limit next with
  | nil => exact nil limit next
  | cons a items ih =>
      rcases carve_cons demand bound limit next a items with
        ⟨hw, heq⟩ | ⟨rfl, heq⟩ | ⟨m, rfl, hw, heq⟩
      · exact skip limit next a items hw heq (ih limit next)
      · exact stop next a items heq
      · exact serve m next a items hw heq (ih m _)

theorem items_sublist : ((carve demand bound limit next items).map Piece.item).Sublist items := by
  induction limit, next, items using carve_induction demand bound with
  | nil => simp
  | stop next a items heq =>
      rw [heq]
      exact List.nil_sublist _
  | skip limit next a items _ heq ih =>
      rw [heq]
      exact ih.cons a
  | serve limit next a items _ heq ih =>
      rw [heq]
      exact ih.cons_cons a

theorem length_le : (carve demand bound limit next items).length ≤ limit := by
  induction limit, next, items using carve_induction demand bound with
  | nil => simp
  | stop next a items heq => rw [heq, List.length_nil]
  | skip limit next a items _ heq ih =>
      rw [heq]
      exact ih
  | serve limit next a items _ heq ih =>
      rw [heq, List.length_cons]
      exact Nat.succ_le_succ ih

/-- No piece is empty, so there are at most as many as there was room. -/
theorem length_le_room : (carve demand bound limit next items).length ≤ bound - next := by
  induction limit, next, items using carve_induction demand bound with
  | nil => simp
  | stop next a items heq =>
      rw [heq]
      exact Nat.zero_le _
  | skip limit next a items _ heq ih =>
      rw [heq]
      exact ih
  | serve limit next a items hw heq ih =>
      rw [heq, List.length_cons]
      omega

/-- If every item asks for something, the first ones are served. -/
theorem items_isInitial (hpos : ∀ a ∈ items, 0 < demand a) :
    (carve demand bound limit next items).map Piece.item <+: items := by
  induction limit, next, items using carve_induction demand bound with
  | nil => simp
  | stop next a items heq =>
      rw [heq]
      exact List.nil_prefix
  | skip limit next a items hw heq ih =>
      have ha := hpos a List.mem_cons_self
      have hroom : (carve demand bound limit next items).length ≤ bound - next := length_le_room
      have hnil : carve demand bound limit next items = [] :=
        List.eq_nil_of_length_eq_zero (by omega)
      rw [heq, hnil]
      exact List.nil_prefix
  | serve limit next a items _ heq ih =>
      rw [heq, List.map_cons]
      exact List.prefix_cons_inj a |>.mpr (ih fun b hb ↦ hpos b (List.mem_cons_of_mem a hb))

/-- An item is not served if as many items as the limit allows stand strictly ahead of it. -/
theorem notMem_of_ahead {κ : Type*} [DecidableEq κ] (key : α → κ) {r : α → α → Prop}
    (hpos : ∀ a ∈ items, 0 < demand a) (hsorted : items.Pairwise r) {a : α} {better : Finset κ}
    (hcard : limit ≤ better.card) (ha : key a ∉ better)
    (hbetter : ∀ k ∈ better, ∃ b ∈ items, key b = k ∧ ¬ r a b) :
    a ∉ (carve demand bound limit next items).map Piece.item := by
  intro hserved
  obtain ⟨rest, hrest⟩ := (items_isInitial hpos :
    (carve demand bound limit next items).map Piece.item <+: items)
  have hahead : insert (key a) better ⊆
      (((carve demand bound limit next items).map Piece.item).map key).toFinset := by
    intro k hk
    rw [List.mem_toFinset]
    rcases Finset.mem_insert.mp hk with rfl | hk
    · exact List.mem_map_of_mem hserved
    · obtain ⟨b, hb, rfl, hab⟩ := hbetter k hk
      rw [← hrest, List.mem_append] at hb
      rcases hb with hb | hb
      · exact List.mem_map_of_mem hb
      · rw [← hrest, List.pairwise_append] at hsorted
        exact absurd (hsorted.2.2 a hserved b hb) hab
  have hle := (Finset.card_le_card hahead).trans (List.toFinset_card_le _)
  rw [Finset.card_insert_of_notMem ha, List.length_map, List.length_map] at hle
  have hlimit : (carve demand bound limit next items).length ≤ limit := length_le
  omega

/-- Every piece lies in what was left, is not empty, and is no wider than its demand. -/
theorem mem_carve {p : Piece α} (hp : p ∈ carve demand bound limit next items) :
    next ≤ p.start ∧ p.start + p.width ≤ bound ∧ 0 < p.width ∧ p.width ≤ demand p.item := by
  induction limit, next, items using carve_induction demand bound with
  | nil => simp at hp
  | stop next a items heq => simp [heq] at hp
  | skip limit next a items _ heq ih => exact ih (heq ▸ hp)
  | serve limit next a items hw heq ih =>
      rw [heq] at hp
      rcases List.mem_cons.mp hp with rfl | hp
      · simp only
        omega
      · have hrest := ih hp
        omega

theorem end_le_sum {p : Piece α} (hp : p ∈ carve demand bound limit next items) :
    p.start + p.width ≤ next + (items.map demand).sum := by
  induction limit, next, items using carve_induction demand bound with
  | nil => simp at hp
  | stop next a items heq => simp [heq] at hp
  | skip limit next a items _ heq ih =>
      have hrest := ih (heq ▸ hp)
      rw [List.map_cons, List.sum_cons]
      omega
  | serve limit next a items hw heq ih =>
      rw [List.map_cons, List.sum_cons]
      rw [heq] at hp
      rcases List.mem_cons.mp hp with rfl | hp
      · simp only
        omega
      · have hrest := ih hp
        omega

theorem carve_pairwise :
    (carve demand bound limit next items).Pairwise fun p q ↦ p.start + p.width ≤ q.start := by
  induction limit, next, items using carve_induction demand bound with
  | nil => simp
  | stop next a items heq =>
      rw [heq]
      exact List.Pairwise.nil
  | skip limit next a items _ heq ih =>
      rw [heq]
      exact ih
  | serve limit next a items _ heq ih =>
      rw [heq]
      refine List.pairwise_cons.mpr ⟨?_, ih⟩
      intro q hq
      exact (mem_carve hq).1

theorem carve_ne_nil (hlimit : 0 < limit) (hnext : next < bound) {a : α} (ha : a ∈ items)
    (hdemand : 0 < demand a) : carve demand bound limit next items ≠ [] := by
  induction limit, next, items using carve_induction demand bound with
  | nil => simp at ha
  | stop => omega
  | skip limit next b items hw heq ih =>
      have hab : a ≠ b := by
        rintro rfl
        omega
      rw [heq]
      exact ih hlimit hnext ((List.mem_cons.mp ha).resolve_left hab)
  | serve limit next b items _ heq =>
      rw [heq]
      exact List.cons_ne_nil _ _

theorem exists_start (h : carve demand bound limit next items ≠ []) :
    ∃ p ∈ carve demand bound limit next items, p.start = next := by
  induction limit, next, items using carve_induction demand bound with
  | nil => exact (h carve_nil).elim
  | stop next a items heq => exact (h heq).elim
  | skip limit next a items _ heq ih =>
      rw [heq] at h ⊢
      exact ih h
  | serve limit next a items _ heq =>
      rw [heq]
      exact ⟨_, List.mem_cons_self, rfl⟩

/-- Where there is room for all demands, every item gets its own. -/
theorem carve_of_room (hsum : (items.map demand).sum ≤ bound - next)
    (hlimit : items.length ≤ limit) (hpos : ∀ a ∈ items, 0 < demand a) :
    (carve demand bound limit next items).map (fun p ↦ (p.item, p.width)) =
      items.map fun a ↦ (a, demand a) := by
  induction items generalizing limit next with
  | nil => rw [carve_nil, List.map_nil, List.map_nil]
  | cons a items ih =>
      obtain ⟨ha, hrest⟩ := List.forall_mem_cons.mp hpos
      rw [List.map_cons, List.sum_cons] at hsum
      rw [List.length_cons] at hlimit
      rcases carve_cons demand bound limit next a items with
        ⟨hw, _⟩ | ⟨hzero, _⟩ | ⟨m, rfl, _, heq⟩
      · omega
      · omega
      · have hwidth : min (demand a) (bound - next) = demand a := by omega
        have hleft := @ih m (next + demand a) (by omega) (by omega) hrest
        rw [heq, hwidth, List.map_cons, List.map_cons, hleft]

/-- Unless the limit is reached, nothing is left that is still asked for. -/
theorem sum_width_of_lt (h : (carve demand bound limit next items).length < limit) :
    ((carve demand bound limit next items).map Piece.width).sum =
      min (bound - next) (items.map demand).sum := by
  induction limit, next, items using carve_induction demand bound with
  | nil => simp
  | stop next a items heq => omega
  | skip limit next a items hw heq ih =>
      have hrest := ih (heq ▸ h)
      rw [heq, hrest, List.map_cons, List.sum_cons]
      omega
  | serve limit next a items hw heq ih =>
      rw [heq, List.length_cons] at h
      have hrest := ih (by omega)
      rw [heq, List.map_cons, List.sum_cons, hrest, List.map_cons, List.sum_cons]
      dsimp only
      omega

/-! ## Totals -/

/-- The width handed out to the items that satisfy `p`. -/
def total (p : α → Bool) (pieces : List (Piece α)) : ℕ :=
  ((pieces.filter fun q ↦ p q.item).map Piece.width).sum

def demandOf (demand : α → ℕ) (p : α → Bool) (items : List α) : ℕ :=
  ((items.filter p).map demand).sum

@[simp] theorem total_nil (p : α → Bool) : total p [] = 0 := rfl

theorem total_cons (p : α → Bool) (q : Piece α) (pieces : List (Piece α)) :
    total p (q :: pieces) = (if p q.item then q.width else 0) + total p pieces := by
  simp only [total]
  by_cases hq : p q.item = true <;> simp [hq]

theorem demandOf_cons (p : α → Bool) (a : α) (items : List α) :
    demandOf demand p (a :: items) = (if p a then demand a else 0) + demandOf demand p items := by
  simp only [demandOf]
  by_cases ha : p a = true <;> simp [ha]

/-- What a class of items gets is bounded by its demand and by what is left. -/
theorem total_le (p : α → Bool) :
    total p (carve demand bound limit next items) ≤
      min (bound - next) (demandOf demand p items) := by
  induction limit, next, items using carve_induction demand bound with
  | nil => simp
  | stop next a items heq =>
      rw [heq]
      exact Nat.zero_le _
  | skip limit next a items _ heq ih =>
      rw [heq, demandOf_cons]
      exact ih.trans (min_le_min_left _ (Nat.le_add_left _ _))
  | serve limit next a items hw heq ih =>
      rw [heq, total_cons, demandOf_cons]
      by_cases ha : p a = true
      · simp only [ha, if_true]
        omega
      · simp only [ha, Bool.false_eq_true, if_false]
        omega

/-- Served first and without reaching the limit, a class gets all that the bound allows. -/
theorem le_total_of_first (p : α → Bool) {others : List α} (hp : ∀ a ∈ items, p a = true)
    (hlimit : items.length ≤ limit) :
    min (bound - next) ((items.map demand).sum) ≤
      total p (carve demand bound limit next (items ++ others)) := by
  induction items generalizing limit next with
  | nil => simp
  | cons a items ih =>
      have hrest : ∀ b ∈ items, p b = true := fun b hb ↦ hp b (List.mem_cons_of_mem a hb)
      rw [List.length_cons] at hlimit
      rw [List.cons_append, List.map_cons, List.sum_cons]
      rcases carve_cons demand bound limit next a (items ++ others) with
        ⟨hw, heq⟩ | ⟨hzero, _⟩ | ⟨m, rfl, hw, heq⟩
      · have h := @ih limit next hrest (by omega)
        rw [heq]
        omega
      · omega
      · have h := @ih m (next + min (demand a) (bound - next)) hrest (by omega)
        rw [heq, total_cons, if_pos (hp a List.mem_cons_self)]
        simp only
        omega

end Carve
