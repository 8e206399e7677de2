import NrScheduler.Lib.Buddy
import NrScheduler.Properties.CceBlocks

/-!
# Packing control channel elements

Between a reset and the first free the pool is packed, and an allocation fails only for want
of elements.  Frees cut it up, and then enough elements may be free and no block.
-/

namespace NrScheduler

open FirstFit LockMonad Runs Tiling

def AggregationLevel.log : AggregationLevel → ℕ
  | .al1 => 0
  | .al2 => 1
  | .al4 => 2
  | .al8 => 3
  | .al16 => 4

theorem AggregationLevel.two_pow_log (al : AggregationLevel) : 2 ^ al.log = al.value := by
  cases al <;> rfl

namespace CcePool

variable {p p' : CcePool} {al al' : AggregationLevel} {numCces start j : ℕ}

/-- The elements of the pool that are not in use, up to a limit. -/
def vacant (p : CcePool) (limit : ℕ) : Set ℕ := Set.Iio limit \ p.taken

theorem elements_mul_value (j : ℕ) (al : AggregationLevel) :
    elements (j * al.value, al) = Buddy.block al.log j := by
  rw [Buddy.block_eq_Ico, al.two_pow_log]
  rfl

theorem fits_iff_buddy :
    p.Fits al (j * al.value) ↔ Buddy.Fits p.taken p.numCces al.log j := by
  have hblock := elements_mul_value j al
  constructor
  · intro h
    refine ⟨?_, Set.disjoint_of_subset_left hblock.ge h.free⟩
    rw [al.two_pow_log, Nat.succ_mul]
    exact h.inside
  · intro h
    refine ⟨Nat.dvd_mul_left _ _, ?_, Set.disjoint_of_subset_left hblock.le h.free⟩
    rw [← Nat.succ_mul, ← al.two_pow_log]
    exact h.inside

theorem exists_fits_iff_buddy :
    (∃ start, p.Fits al start) ↔ ∃ j, Buddy.Fits p.taken p.numCces al.log j := by
  constructor
  · rintro ⟨start, h⟩
    obtain ⟨j, rfl⟩ := exists_eq_mul_left_of_dvd h.aligned
    exact ⟨j, fits_iff_buddy.mp h⟩
  · rintro ⟨j, h⟩
    exact ⟨_, fits_iff_buddy.mpr h⟩

/-- An allocation succeeds exactly where some block fits. -/
theorem Consistent.allocate_eq_none_iff (h : Consistent numCces p) (hn : numCces ≤ 128)
    (al : AggregationLevel) : ∃ r p', ignoringLocks (p.allocate al) = some (r, p') ∧
      (r = none ↔ ¬ ∃ start, p.Fits al start) := by
  rcases h.allocate hn al none with ⟨start, p', hrun, ⟨hfits, _⟩, _⟩ | ⟨hrun, hnone⟩
  · refine ⟨some start, p', ignoringLocks_eq_some.mpr hrun, ?_⟩
    exact iff_of_false (Option.some_ne_none start) (not_not_intro ⟨start, hfits⟩)
  · refine ⟨none, p, ignoringLocks_eq_some.mpr hrun, iff_of_true rfl ?_⟩
    rintro ⟨start, hfits⟩
    exact hnone start hfits

/-- Every state that a run reaches is consistent. -/
theorem exists_holding (hn : numCces ≤ 128) (ops : List CceOperation) :
    ∃ s, ops.foldlM next (create numCces, []) = some s ∧ Holding numCces s := by
  have hcreate : create numCces = { numCces := numCces } := by
    rw [create, Nat.mod_eq_of_lt (by omega)]
  exact exists_foldlM_of_progress (Holding numCces) (fun _ op h ↦ h.next hn op)
    (holding_empty (hcreate ▸ consistent_empty numCces)) ops

/-! ## Allocating only -/

/-- The pool is consistent, and its blocks are packed. -/
structure Packing (numCces : ℕ) (p : CcePool) : Prop where
  consistent : Consistent numCces p
  packed : Buddy.Packed p.taken numCces

theorem packing_reset (h : Consistent numCces p) : Packing numCces p.reset where
  consistent := consistent_reset h
  packed := by
    have htaken : p.reset.taken = ∅ := by simp [taken, reset]
    exact htaken ▸ Buddy.packed_empty numCces

/-- An allocation takes the lowest block of its size, so the pool stays packed. -/
theorem Packing.next {s : CcePool × List (ℕ × AggregationLevel)} (h : Packing numCces s.1)
    (hn : numCces ≤ 128) (al : AggregationLevel) :
    ∃ s', next s (.allocate al) = some s' ∧ Packing numCces s'.1 := by
  obtain ⟨p, held⟩ := s
  rcases h.consistent.allocate hn al none with
    ⟨start, p', hrun, ⟨hfits, hlow⟩, htaken, hcons⟩ | ⟨hrun, _⟩
  · refine ⟨(p', (start, al) :: held), ?_, hcons, ?_⟩
    · rw [CcePool.next, ignoringLocks_eq_some.mpr hrun]
      rfl
    · obtain ⟨j, rfl⟩ := exists_eq_mul_left_of_dvd hfits.aligned
      have hnum : p.numCces = numCces := h.consistent.numCces_eq
      rw [htaken, elements_mul_value]
      apply h.packed.take
      · exact hnum ▸ fits_iff_buddy.mp hfits
      · intro b hb hfits'
        have hlt : b * al.value < j * al.value := Nat.mul_lt_mul_of_pos_right hb al.value_pos
        exact hlow _ hlt (fits_iff_buddy.mpr (hnum.symm ▸ hfits'))
  · refine ⟨(p, held), ?_, h⟩
    rw [CcePool.next, ignoringLocks_eq_some.mpr hrun]
    rfl

theorem Packing.exists_fits_iff (h : Packing numCces p) (al : AggregationLevel) :
    (∃ start, p.Fits al start) ↔
      al.value ≤ (p.vacant (numCces / al.value * al.value)).ncard := by
  rw [exists_fits_iff_buddy, h.consistent.numCces_eq, h.packed.exists_fits_iff, al.two_pow_log]
  rfl

/-- After a reset and any allocations, an allocation fails exactly where fewer elements than
it needs are free below the last multiple of its size. -/
theorem allocate_fails_iff {numCces : ℕ} (hn : numCces ≤ 128) (ops : List CceOperation)
    (als : List AggregationLevel) :
    ∃ p held, (ops ++ CceOperation.reset :: als.map .allocate).foldlM CcePool.next
        (create numCces, []) = some (p, held) ∧
      ∀ al, ∃ r p', ignoringLocks (p.allocate al) = some (r, p') ∧
        (r = none ↔ (p.vacant (numCces / al.value * al.value)).ncard < al.value) := by
  obtain ⟨⟨p₀, held₀⟩, hrun₀, hholding⟩ := exists_holding hn ops
  have hreset : Packing numCces (p₀.reset, ([] : List (ℕ × AggregationLevel))).1 :=
    packing_reset hholding.consistent
  obtain ⟨⟨p, held⟩, hrun, hpacking⟩ := exists_foldlM_of_progress
    (fun s : CcePool × List (ℕ × AggregationLevel) ↦ Packing numCces s.1)
    (fun _ al h ↦ h.next hn al) hreset als
  refine ⟨p, held, ?_, fun al ↦ ?_⟩
  · rw [List.foldlM_append, hrun₀]
    exact List.foldlM_map.trans hrun
  · obtain ⟨r, p', hallocate, hnone⟩ := hpacking.consistent.allocate_eq_none_iff hn al
    refine ⟨r, p', hallocate, ?_⟩
    rw [hnone, hpacking.exists_fits_iff, not_le]

/-- Twenty-three elements, of which the last seven make up no block of eight. -/
theorem allocate_fails_iff_ragged :
    ∃ p held, ([CceOperation.allocate .al8] ++ CceOperation.reset ::
        [AggregationLevel.al1, .al4, .al1, .al16, .al2].map .allocate).foldlM CcePool.next
        (create 23, []) = some (p, held) ∧
      ∀ al, ∃ r p', ignoringLocks (p.allocate al) = some (r, p') ∧
        (r = none ↔ (p.vacant (23 / al.value * al.value)).ncard < al.value) :=
  allocate_fails_iff (by decide) _ _

/-! ## The counter as a forecast -/

/-- The counter predicts whether an allocation of the level succeeds. -/
def TruthfulFor (p : CcePool) (al : AggregationLevel) : Prop :=
  p.canAllocate al = true ↔ ∃ start p', ignoringLocks (p.allocate al) = some (some start, p')

def Truthful (p : CcePool) : Prop := ∀ al, p.TruthfulFor al

/-- Enough elements are free only if a block of the level is. -/
def UnfragmentedFor (numCces : ℕ) (p : CcePool) (al : AggregationLevel) : Prop :=
  al.value ≤ (p.vacant numCces).ncard → ∃ start, p.Fits al start

/-- A block fits of the largest level that does not exceed the number of free elements. -/
def Unfragmented (numCces : ℕ) (p : CcePool) : Prop :=
  ∀ al, al.value ≤ (p.vacant numCces).ncard →
    (∀ al' : AggregationLevel, al'.value ≤ (p.vacant numCces).ncard → al'.value ≤ al.value) →
    ∃ start, p.Fits al start

theorem exists_largest {n : ℕ} (h : al.value ≤ n) :
    ∃ al' : AggregationLevel, al'.value ≤ n ∧
      ∀ al'' : AggregationLevel, al''.value ≤ n → al''.value ≤ al'.value := by
  induction hd : 16 - al.value using Nat.strong_induction_on generalizing al with
  | _ d ih =>
      by_cases hmax : ∀ al'' : AggregationLevel, al''.value ≤ n → al''.value ≤ al.value
      · exact ⟨al, h, hmax⟩
      · push Not at hmax
        obtain ⟨al'', hle, hlt⟩ := hmax
        have hbound : al''.value ≤ 16 := by cases al'' <;> decide
        exact ih (16 - al''.value) (by omega) hle rfl

theorem Fits.of_le (h : p.Fits al start) (hle : al'.value ≤ al.value) : p.Fits al' start where
  aligned := by
    refine dvd_trans ?_ h.aligned
    rw [← al.two_pow_log, ← al'.two_pow_log] at hle ⊢
    exact pow_dvd_pow 2 ((Nat.pow_le_pow_iff_right Nat.one_lt_two).mp hle)
  inside := (Nat.add_le_add_left hle start).trans h.inside
  free := h.free.mono_left (Set.Ico_subset_Ico_right (Nat.add_le_add_left hle start))

theorem Fits.value_le (h : p.Fits al start) (hnum : p.numCces = numCces) :
    al.value ≤ (p.vacant numCces).ncard := by
  rw [← ncard_Ico_add start al.value]
  refine Set.ncard_le_ncard (fun i hi ↦ ⟨?_, Set.disjoint_left.mp h.free hi⟩)
    ((Set.finite_lt_nat numCces).subset Set.sdiff_subset)
  exact hi.2.trans_le (h.inside.trans_eq hnum)

theorem Consistent.truthfulFor_iff (h : Consistent numCces p) (hn : numCces ≤ 128)
    (al : AggregationLevel) : p.TruthfulFor al ↔ p.UnfragmentedFor numCces al := by
  have hcan : p.canAllocate al = true ↔ al.value ≤ (p.vacant numCces).ncard := by
    rw [canAllocate, decide_eq_true_eq, h.available hn, vacant]
  have hsucceeds : (∃ start p', ignoringLocks (p.allocate al) = some (some start, p')) ↔
      ∃ start, p.Fits al start := by
    obtain ⟨r, p', hrun, hnone⟩ := h.allocate_eq_none_iff hn al
    rw [← not_iff_not, ← hnone, hrun]
    cases r <;> simp
  rw [TruthfulFor, hcan, hsucceeds]
  constructor
  · exact Iff.mp
  · intro hwhole
    refine ⟨hwhole, ?_⟩
    rintro ⟨start, hfits⟩
    exact hfits.value_le h.numCces_eq

/-- It is enough to look at the largest level that the free elements could make up. -/
theorem unfragmented_iff : p.Unfragmented numCces ↔ ∀ al, p.UnfragmentedFor numCces al := by
  constructor
  · intro hwhole al hle
    obtain ⟨al', hle', hmax⟩ := exists_largest hle
    obtain ⟨start, hfits⟩ := hwhole al' hle' hmax
    exact ⟨start, hfits.of_le (hmax al hle)⟩
  · exact fun h al hle _ ↦ h al hle

/-- In every state that resets, allocations and frees of anything lead to, the forecast is
right for a level exactly where too few elements are free or a block of the level is, and
right for all levels exactly where the free elements make up a block of the largest level
that does not exceed their number. -/
theorem canAllocate_truthful_iff {numCces : ℕ} (hn : numCces ≤ 128) (ops : List CceOperation) :
    ∃ p held, ops.foldlM CcePool.next (create numCces, []) = some (p, held) ∧
      (∀ al, p.TruthfulFor al ↔ p.UnfragmentedFor numCces al) ∧
      (p.Truthful ↔ p.Unfragmented numCces) := by
  obtain ⟨⟨p, held⟩, hrun, hholding⟩ := exists_holding hn ops
  have hlevels := hholding.consistent.truthfulFor_iff hn
  exact ⟨p, held, hrun, hlevels, (forall_congr' hlevels).trans unfragmented_iff.symm⟩

/-- A full pool of which two elements in different pairs were freed. -/
theorem canAllocate_truthful_iff_cut :
    ∃ p held, [CceOperation.allocate .al16, .allocate .al16, .allocate .al16, .allocate .al16,
      .deallocate 0 .al1, .deallocate 2 .al1].foldlM CcePool.next (create 64, []) =
        some (p, held) ∧ (∀ al, p.TruthfulFor al ↔ p.UnfragmentedFor 64 al) ∧
      (p.Truthful ↔ p.Unfragmented 64) :=
  canAllocate_truthful_iff (by decide) _

theorem canAllocate_after_frees :
    ([CceOperation.allocate .al16, .allocate .al16, .allocate .al16, .allocate .al16,
      .deallocate 0 .al1, .deallocate 2 .al1].foldlM CcePool.next (create 64, [])).map
        (fun s ↦ (s.1.canAllocate .al2, (ignoringLocks (s.1.allocate .al2)).map Prod.fst)) =
      some (true, some none) := by
  decide +kernel

end CcePool

end NrScheduler
