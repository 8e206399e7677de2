import Mathlib.Algebra.BigOperators.Group.List.Basic
import Mathlib.Algebra.Order.Group.Nat
import Mathlib.Data.Set.Card
import Mathlib.Order.CompletePartialOrder
import Mathlib.Order.Interval.Finset.Nat

/-!
# Regions held on a set of cells

A list of regions packs a set of occupied cells if the regions are disjoint and occupied;
it tiles the set if they also cover it.  Regions are taken from the free cells and given
back one at a time.
-/

namespace Tiling

variable {α β γ : Type*}

/-- The regions are pairwise disjoint and occupied. -/
structure Packs (region : α → Set β) (held : List α) (occupied : Set β) : Prop where
  disjoint : held.Pairwise fun a b ↦ Disjoint (region a) (region b)
  subset : ∀ a ∈ held, region a ⊆ occupied

/-- The occupied cells are the disjoint union of the regions. -/
structure Tiles (region : α → Set β) (held : List α) (occupied : Set β) : Prop
    extends Packs region held occupied where
  covered : ∀ c ∈ occupied, ∃ a ∈ held, c ∈ region a

variable {region : α → Set β} {held : List α} {occupied : Set β} {a : α}

theorem Packs.nil : Packs region [] occupied where
  disjoint := List.Pairwise.nil
  subset _ h := (List.not_mem_nil h).elim

theorem Packs.cons (h : Packs region held occupied) (hfree : Disjoint (region a) occupied) :
    Packs region (a :: held) (occupied ∪ region a) where
  disjoint := List.pairwise_cons.mpr
    ⟨fun b hb ↦ hfree.mono_right (h.subset b hb), h.disjoint⟩
  subset b hb := by
    rcases List.mem_cons.mp hb with rfl | hb
    · exact Set.subset_union_right
    · exact (h.subset b hb).trans Set.subset_union_left

/-- Give some cells back, and with them every region that meets them. -/
theorem Packs.release (h : Packs region held occupied) {freed : Set β} {kept : List α}
    (hkept : kept.Sublist held) (hfreed : ∀ b ∈ kept, Disjoint (region b) freed) :
    Packs region kept (occupied \ freed) where
  disjoint := h.disjoint.sublist hkept
  subset b hb := Set.subset_sdiff.mpr ⟨h.subset b (hkept.subset hb), hfreed b hb⟩

namespace Tiles

theorem nil : Tiles region [] ∅ where
  toPacks := Packs.nil
  covered _ hc := hc.elim

theorem mem_iff (h : Tiles region held occupied) {c : β} :
    c ∈ occupied ↔ ∃ a ∈ held, c ∈ region a :=
  ⟨h.covered c, fun ⟨a, ha, hc⟩ ↦ h.subset a ha hc⟩

theorem disjoint_iff (h : Tiles region held occupied) {s : Set β} :
    Disjoint s occupied ↔ ∀ a ∈ held, Disjoint s (region a) := by
  constructor
  · intro hs a ha
    exact hs.mono_right (h.subset a ha)
  · intro hs
    rw [Set.disjoint_right]
    intro c hc
    obtain ⟨a, ha, hca⟩ := h.covered c hc
    exact Set.disjoint_right.mp (hs a ha) hca

theorem cons (h : Tiles region held occupied) (hfree : Disjoint (region a) occupied) :
    Tiles region (a :: held) (occupied ∪ region a) where
  toPacks := h.toPacks.cons hfree
  covered c hc := by
    rcases hc with hc | hc
    · obtain ⟨b, hb, hcb⟩ := h.covered c hc
      exact ⟨b, List.mem_cons_of_mem a hb, hcb⟩
    · exact ⟨a, List.mem_cons_self, hc⟩

theorem perm (h : Tiles region held occupied) {held' : List α} (hperm : held.Perm held') :
    Tiles region held' occupied where
  disjoint := h.disjoint.perm hperm fun hab ↦ hab.symm
  subset b hb := h.subset b (hperm.mem_iff.mpr hb)
  covered c hc := by
    obtain ⟨b, hb, hcb⟩ := h.covered c hc
    exact ⟨b, hperm.mem_iff.mp hb, hcb⟩

theorem tail (h : Tiles region (a :: held) occupied) :
    Tiles region held (occupied \ region a) where
  toPacks := h.toPacks.release (List.sublist_cons_self a held) fun b hb ↦
    (List.rel_of_pairwise_cons h.disjoint hb).symm
  covered c hc := by
    obtain ⟨b, hb, hcb⟩ := h.covered c hc.1
    rcases List.mem_cons.mp hb with rfl | hb
    · exact (hc.2 hcb).elim
    · exact ⟨b, hb, hcb⟩

theorem erase [DecidableEq α] (h : Tiles region held occupied) (ha : a ∈ held) :
    Tiles region (held.erase a) (occupied \ region a) :=
  (h.perm (List.perm_cons_erase ha)).tail

theorem preimage (h : Tiles region held occupied) (f : γ → β) :
    Tiles (fun a ↦ Set.preimage f (region a)) held (Set.preimage f occupied) where
  disjoint := h.disjoint.imp fun hab ↦ hab.preimage f
  subset b hb := Set.preimage_mono (h.subset b hb)
  covered c hc := h.covered (f c) hc

/-- The regions of a tiling have as many cells as are occupied. -/
theorem ncard_eq_sum (h : Tiles region held occupied) (hfin : occupied.Finite) :
    occupied.ncard = (held.map fun a ↦ (region a).ncard).sum := by
  induction held generalizing occupied with
  | nil =>
      have hempty : occupied = ∅ := by
        ext c
        simp [h.mem_iff]
      simp [hempty]
  | cons a held ih =>
      have hsub := h.subset a List.mem_cons_self
      rw [List.map_cons, List.sum_cons, ← ih h.tail hfin.sdiff,
        Set.ncard_sdiff hsub (hfin.subset hsub)]
      have hle := Set.ncard_le_ncard hsub hfin
      omega

end Tiles

theorem ncard_Ico_add (start n : ℕ) : (Set.Ico start (start + n)).ncard = n := by
  rw [← Finset.coe_Ico, Set.ncard_coe_finset, Nat.card_Ico, Nat.add_sub_cancel_left]

theorem ncard_Iio (n : ℕ) : (Set.Iio n).ncard = n := by
  rw [← Finset.coe_range, Set.ncard_coe_finset, Finset.card_range]

end Tiling
