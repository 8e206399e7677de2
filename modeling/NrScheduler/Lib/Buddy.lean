import NrScheduler.Lib.Tiling

/-!
# Buddies

The numbers below a bound are divided into blocks of each power of two, and a free block is
taken from the lowest place.  A free block whose parent is partly used is an orphan.  Each
level has one orphan at most, so that what is free and not a whole block is less than one.
-/

namespace Buddy

open Tiling

/-- Block `j` of the blocks of size `2 ^ k`. -/
def block (k j : ℕ) : Set ℕ := {i | i / 2 ^ k = j}

def Free (used : Set ℕ) (k j : ℕ) : Prop := Disjoint (block k j) used

structure Fits (used : Set ℕ) (bound k j : ℕ) : Prop where
  inside : (j + 1) * 2 ^ k ≤ bound
  free : Free used k j

/-- A free block whose parent is not free. -/
structure Orphan (used : Set ℕ) (bound k j : ℕ) : Prop where
  inside : (j / 2 + 1) * 2 ^ (k + 1) ≤ bound
  free : Free used k j
  split : ¬ Free used (k + 1) (j / 2)

/-- A level has one orphan at most, and no larger block is free before it. -/
structure Packed (used : Set ℕ) (bound : ℕ) : Prop where
  unique : ∀ k j j', Orphan used bound k j → Orphan used bound k j' → j = j'
  first : ∀ k j p, Orphan used bound k j → Fits used bound (k + 1) p → j / 2 ≤ p

variable {used used' : Set ℕ} {bound k j t b d m : ℕ}

/-! ## Blocks -/

theorem block_eq_Ico (k j : ℕ) : block k j = Set.Ico (j * 2 ^ k) (j * 2 ^ k + 2 ^ k) := by
  ext i
  rw [block, Set.mem_ofPred_eq, Nat.div_eq_iff (Nat.two_pow_pos k), Set.mem_Ico]
  have hpos := Nat.two_pow_pos k
  omega

theorem ncard_block (k j : ℕ) : (block k j).ncard = 2 ^ k := by
  rw [block_eq_Ico, ncard_Ico_add]

theorem finite_block (k j : ℕ) : (block k j).Finite :=
  block_eq_Ico k j ▸ Set.finite_Ico _ _

theorem start_mem_block (k j : ℕ) : j * 2 ^ k ∈ block k j :=
  Nat.mul_div_cancel j (Nat.two_pow_pos k)

theorem div_pow_add (i t d : ℕ) : i / 2 ^ (t + d) = i / 2 ^ t / 2 ^ d := by
  rw [Nat.pow_add, Nat.div_div_eq_div_mul]

/-- A block lies in its ancestors. -/
theorem block_subset (t d b : ℕ) : block t b ⊆ block (t + d) (b / 2 ^ d) := by
  rintro i rfl
  exact div_pow_add i t d

theorem Free.mono (h : Free used' k j) (hsub : used ⊆ used') : Free used k j :=
  Disjoint.mono_right hsub h

theorem Free.of_ancestor (h : Free used (t + d) (b / 2 ^ d)) : Free used t b :=
  Disjoint.mono_left (block_subset t d b) h

theorem Fits.mono (h : Fits used' bound k j) (hsub : used ⊆ used') : Fits used bound k j :=
  ⟨h.inside, h.free.mono hsub⟩

theorem packed_empty (bound : ℕ) : Packed ∅ bound where
  unique _ _ _ h _ := (h.split (Set.disjoint_empty _)).elim
  first _ _ _ h _ := (h.split (Set.disjoint_empty _)).elim

/-! ## Taking the lowest block -/

/-- Before the lowest block that fits there is no free block of any larger size. -/
theorem not_free_before (hfits : Fits used bound t b) (hlow : ∀ b' < b, ¬ Fits used bound t b')
    (hj : j < b / 2 ^ d) : ¬ Free used (t + d) j := by
  intro hfree
  have hpos := Nat.two_pow_pos d
  have hle := (Nat.le_div_iff_mul_le hpos).mp (Nat.succ_le_of_lt hj)
  rw [Nat.succ_mul] at hle
  have hlt : j * 2 ^ d < b := by omega
  refine hlow (j * 2 ^ d) hlt ⟨?_, Free.of_ancestor (d := d) ?_⟩
  · exact (Nat.mul_le_mul_right _ (Nat.succ_le_succ hlt.le)).trans hfits.inside
  · rwa [Nat.mul_div_cancel j (Nat.two_pow_pos d)]

/-- A new orphan is the sibling of the block taken, or of an ancestor of it. -/
theorem Orphan.of_take (h : Orphan (used ∪ block t b) bound k j) :
    Orphan used bound k j ∨ ∃ d, k = t + d ∧ Fits used bound (k + 1) (j / 2) ∧
      b / 2 ^ (d + 1) = j / 2 ∧ b / 2 ^ d ≠ j := by
  by_cases hparent : Free used (k + 1) (j / 2)
  · obtain ⟨i, hi, htaken⟩ := Set.not_disjoint_iff.mp h.split
    have hib : i ∈ block t b := htaken.resolve_left (Set.disjoint_left.mp hparent hi)
    rcases Nat.lt_or_ge k t with hlt | hge
    · -- the parent lies in the block taken, and the orphan with it
      obtain ⟨d, rfl⟩ := Nat.exists_eq_add_of_le (Nat.succ_le_of_lt hlt)
      have hb : j / 2 / 2 ^ d = b := by
        rw [← hi.out, ← div_pow_add]
        exact hib
      have hstart := start_mem_block k j
      have hmem : j * 2 ^ k ∈ block (k + 1 + d) b :=
        hb ▸ block_subset (k + 1) d (j / 2) (by simpa using block_subset k 1 j hstart)
      exact (Set.disjoint_left.mp h.free hstart (Or.inr hmem)).elim
    · obtain ⟨d, rfl⟩ := Nat.exists_eq_add_of_le hge
      refine Or.inr ⟨d, rfl, ⟨h.inside, hparent⟩, ?_, ?_⟩
      · rw [← hib.out, ← div_pow_add]
        exact hi
      · intro hbj
        have hmem : b * 2 ^ t ∈ block (t + d) j := hbj ▸ block_subset t d b (start_mem_block t b)
        exact Set.disjoint_left.mp h.free hmem (Or.inr (start_mem_block t b))
  · exact Or.inl ⟨h.inside, h.free.mono Set.subset_union_left, hparent⟩

theorem div_pow_succ (b d : ℕ) : b / 2 ^ (d + 1) = b / 2 ^ d / 2 := by
  rw [div_pow_add, Nat.pow_one]

/-- Where a new orphan comes up there was none before. -/
theorem Packed.not_orphan (h : Packed used bound) (hfits : Fits used bound t b)
    (hlow : ∀ b' < b, ¬ Fits used bound t b') {p : ℕ}
    (hparent : Fits used bound (t + d + 1) p) (hp : b / 2 ^ (d + 1) = p) :
    ¬ Orphan used bound (t + d) j := by
  intro hold
  have hle := h.first _ _ _ hold hparent
  have hne : j / 2 ≠ p := fun heq ↦ hold.split (heq ▸ hparent.free)
  rw [div_pow_succ] at hp
  exact not_free_before (d := d) hfits hlow (by omega) hold.free

/-- Taking the lowest block that fits keeps the blocks packed. -/
theorem Packed.take (h : Packed used bound) (hfits : Fits used bound t b)
    (hlow : ∀ b' < b, ¬ Fits used bound t b') : Packed (used ∪ block t b) bound where
  unique k j j' hj hj' := by
    rcases hj.of_take with hold | ⟨d, rfl, hparent, hp, hne⟩
    · rcases hj'.of_take with hold' | ⟨d, rfl, hparent, hp, hne⟩
      · exact h.unique k j j' hold hold'
      · exact (h.not_orphan hfits hlow hparent hp hold).elim
    · rcases hj'.of_take with hold' | ⟨d', hd, _, hp', hne'⟩
      · exact (h.not_orphan hfits hlow hparent hp hold').elim
      · obtain rfl := Nat.add_left_cancel hd
        rw [div_pow_succ] at hp hp'
        omega
  first k j p hj hp := by
    have hbefore := hp.mono Set.subset_union_left
    rcases hj.of_take with hold | ⟨d, rfl, _, hparent, _⟩
    · exact h.first k j p hold hbefore
    · by_contra hlt
      rw [not_le, ← hparent] at hlt
      exact not_free_before (d := d + 1) hfits hlow hlt hbefore.free

/-! ## What is left -/

/-- The free numbers below `limit` that do not lie in a free block of the level. -/
def stranded (used : Set ℕ) (limit k : ℕ) : Set ℕ :=
  {i | i < limit ∧ i ∉ used ∧ ¬ Free used k (i / 2 ^ k)}

theorem finite_stranded (used : Set ℕ) (limit k : ℕ) : (stranded used limit k).Finite :=
  (Set.finite_lt_nat limit).subset fun _ hi ↦ hi.1

theorem stranded_zero (used : Set ℕ) (limit : ℕ) : stranded used limit 0 = ∅ := by
  refine Set.eq_empty_of_forall_notMem fun i hi ↦ hi.2.2 ?_
  refine Set.disjoint_left.mpr fun i' hi' ↦ ?_
  have heq : i' = i := by simpa [block] using hi'
  exact heq ▸ hi.2.1

theorem inside_of_lt {i limit : ℕ} (hi : i < limit) (hdvd : 2 ^ k ∣ limit) :
    (i / 2 ^ k + 1) * 2 ^ k ≤ limit := by
  obtain ⟨q, rfl⟩ := hdvd
  rw [Nat.mul_comm]
  exact Nat.mul_le_mul_left _ (Nat.div_lt_of_lt_mul hi)

/-- What is newly stranded one level up lies in an orphan. -/
theorem orphan_of_mem_stranded {i limit : ℕ} (hle : limit ≤ bound) (hdvd : 2 ^ (k + 1) ∣ limit)
    (hi : i ∈ stranded used limit (k + 1)) (hfree : Free used k (i / 2 ^ k)) :
    Orphan used bound k (i / 2 ^ k) := by
  obtain ⟨hlt, _, hnot⟩ := hi
  have hinside := (inside_of_lt hlt hdvd).trans hle
  rw [div_pow_succ] at hnot hinside
  exact ⟨hinside, hfree, hnot⟩

theorem Packed.ncard_stranded_lt (h : Packed used bound) {limit : ℕ} (hle : limit ≤ bound)
    (hdvd : 2 ^ k ∣ limit) : (stranded used limit k).ncard < 2 ^ k := by
  induction k with
  | zero =>
      rw [stranded_zero, Set.ncard_empty]
      exact Nat.one_pos
  | succ k ih =>
      have hlow := ih ((pow_dvd_pow 2 (Nat.le_succ k)).trans hdvd)
      have hpow : 2 ^ (k + 1) = 2 * 2 ^ k := Nat.pow_succ'
      by_cases horphan : ∃ j, Orphan used bound k j
      · obtain ⟨j, hj⟩ := horphan
        have hsub : stranded used limit (k + 1) ⊆ stranded used limit k ∪ block k j := by
          intro i hi
          by_cases hfree : Free used k (i / 2 ^ k)
          · exact Or.inr (h.unique k _ _ (orphan_of_mem_stranded hle hdvd hi hfree) hj)
          · exact Or.inl ⟨hi.1, hi.2.1, hfree⟩
        have hcard := (Set.ncard_le_ncard hsub
          ((finite_stranded used limit k).union (finite_block k j))).trans
            (Set.ncard_union_le _ _)
        rw [ncard_block] at hcard
        omega
      · have hsub : stranded used limit (k + 1) ⊆ stranded used limit k := by
          intro i hi
          refine ⟨hi.1, hi.2.1, fun hfree ↦ horphan ?_⟩
          exact ⟨_, orphan_of_mem_stranded hle hdvd hi hfree⟩
        have hcard := Set.ncard_le_ncard hsub (finite_stranded used limit k)
        omega

/-- In packed blocks one more fits exactly where enough is free below the last multiple of
its size. -/
theorem Packed.exists_fits_iff (h : Packed used bound) (m : ℕ) :
    (∃ j, Fits used bound m j) ↔
      2 ^ m ≤ (Set.Iio (bound / 2 ^ m * 2 ^ m) \ used).ncard := by
  have hpos := Nat.two_pow_pos m
  constructor
  · rintro ⟨j, hj⟩
    refine (ncard_block m j).ge.trans (Set.ncard_le_ncard
      (fun i hi ↦ ⟨?_, Set.disjoint_left.mp hj.free hi⟩)
      ((Set.finite_lt_nat _).subset Set.sdiff_subset))
    have hlast := (Nat.le_div_iff_mul_le hpos).mpr hj.inside
    have hlt : i < (j + 1) * 2 ^ m := by
      rw [block_eq_Ico] at hi
      exact hi.2.trans_eq (Nat.succ_mul j (2 ^ m)).symm
    exact hlt.trans_le (Nat.mul_le_mul_right _ hlast)
  · intro hle
    by_contra hnone
    have hall : Set.Iio (bound / 2 ^ m * 2 ^ m) \ used =
        stranded used (bound / 2 ^ m * 2 ^ m) m := by
      ext i
      refine ⟨fun hi ↦ ⟨hi.1, hi.2, fun hfree ↦ hnone ⟨_, ?_, hfree⟩⟩, fun hi ↦ ⟨hi.1, hi.2.1⟩⟩
      exact (inside_of_lt hi.1 (Nat.dvd_mul_left _ _)).trans (Nat.div_mul_le_self _ _)
    have hlt := h.ncard_stranded_lt (Nat.div_mul_le_self bound (2 ^ m)) (Nat.dvd_mul_left _ _)
    rw [← hall] at hlt
    omega

end Buddy
