import NrScheduler.Core.ControlChannel
import NrScheduler.Lib.Runs
import NrScheduler.Lib.Tiling
import Mathlib.Order.Interval.Set.Disjoint

/-!
# Blocks of control channel elements

A pool is run together with the blocks it handed out and of which nothing was freed.
Frees may hit anything; the counter and the bitmap agree all the same.
-/

namespace NrScheduler

open FirstFit LockMonad Runs Tiling

inductive CceOperation where
  | reset
  | allocate (al : AggregationLevel)
  | deallocate (startCce : ℕ) (al : AggregationLevel)

namespace CcePool

def elements (b : ℕ × AggregationLevel) : Set ℕ := Set.Ico b.1 (b.1 + b.2.value)

def apart (b c : ℕ × AggregationLevel) : Bool :=
  decide (b.1 + b.2.value ≤ c.1) || decide (c.1 + c.2.value ≤ b.1)

/-- One operation on a pool and the blocks held; a block is held until some of it is freed. -/
def next : CcePool × List (ℕ × AggregationLevel) → CceOperation →
    Option (CcePool × List (ℕ × AggregationLevel))
  | (p, _), .reset => some (p.reset, [])
  | (p, held), .allocate al =>
      (ignoringLocks (p.allocate al)).map fun r ↦ (r.2, (r.1.map (·, al)).toList ++ held)
  | (p, held), .deallocate startCce al =>
      (ignoringLocks (p.deallocate startCce al)).map fun p' ↦
        (p', held.filter (apart · (startCce % 2 ^ 8, al)))

def taken (p : CcePool) : Set ℕ := Bitmap.members p.cceBitmap

/-- An aligned block inside the pool of which nothing is in use. -/
structure Fits (p : CcePool) (al : AggregationLevel) (start : ℕ) : Prop where
  aligned : al.value ∣ start
  inside : start + al.value ≤ p.numCces
  free : Disjoint (elements (start, al)) p.taken

/-- What the counter, the bitmap and the held blocks of a pool say about each other. -/
structure Exact (numCces : ℕ) (p : CcePool) (held : List (ℕ × AggregationLevel)) : Prop where
  numCces_eq : p.numCces = numCces
  count_eq : p.allocatedCount = Bitmap.count p.cceBitmap
  below : p.taken ⊆ Set.Iio numCces
  available_eq : p.available = (Set.Iio numCces \ p.taken).ncard
  aligned : ∀ b ∈ held, b.2.value ∣ b.1 ∧ b.1 + b.2.value ≤ numCces
  packs : Packs elements held p.taken
  allocate : ∀ al, ∃ r p', ignoringLocks (p.allocate al) = some (r, p') ∧
    Lowest (p.Fits al) r ∧ (r = none → p' = p)

variable {p : CcePool} {al : AggregationLevel} {numCces : ℕ} {env : Option (List Mutex)}

/-! ## Single elements -/

theorem test_run (p : CcePool) {i : ℕ} (hi : i < 128) :
    (p.test i).run env = .ok (p.cceBitmap.getLsbD i) := by
  rw [test, if_pos hi]
  rfl

theorem set_run (p : CcePool) {i : ℕ} (hi : i < 128) :
    (p.set i).run env = .ok { p with cceBitmap := Bitmap.setBit p.cceBitmap i } := by
  rw [set, if_pos hi]
  rfl

theorem clear_run (p : CcePool) {i : ℕ} (hi : i < 128) :
    (p.clear i).run env = .ok { p with cceBitmap := Bitmap.clearBit p.cceBitmap i } := by
  rw [clear, if_pos hi]
  rfl

theorem elements_apart {b c : ℕ × AggregationLevel} :
    apart b c = true ↔ Disjoint (elements b) (elements c) := by
  have hb := b.2.value_pos
  have hc := c.2.value_pos
  rw [apart, Bool.or_eq_true, decide_eq_true_eq, decide_eq_true_eq, elements, elements,
    Set.Ico_disjoint_Ico]
  omega

/-- The counter is the number of elements in use, and they all lie in the pool. -/
structure Consistent (numCces : ℕ) (p : CcePool) : Prop where
  numCces_eq : p.numCces = numCces
  count_eq : p.allocatedCount = p.taken.ncard
  below : p.taken ⊆ Set.Iio numCces

theorem consistent_empty (numCces : ℕ) : Consistent numCces { numCces := numCces } where
  numCces_eq := rfl
  count_eq := by simp [taken]
  below := by simp [taken]

theorem finite_taken (p : CcePool) : p.taken.Finite := Bitmap.finite_members p.cceBitmap

theorem ncard_le_of_subset {s : Set ℕ} (hs : s ⊆ Set.Iio numCces) : s.ncard ≤ numCces := by
  rw [← ncard_Iio numCces]
  exact Set.ncard_le_ncard hs (Set.finite_lt_nat numCces)

/-- Freeing one element keeps the counter right, whether or not it is in use. -/
theorem Consistent.freeCce (h : Consistent numCces p) (hn : numCces ≤ 128) {i : ℕ}
    (hi : i < 128) : ∃ p', (p.freeCce i).run env = .ok p' ∧ p'.taken = p.taken \ {i} ∧
      Consistent numCces p' := by
  cases hbit : p.cceBitmap.getLsbD i with
  | true =>
      have hmem : i ∈ p.taken := hbit
      have htaken : Bitmap.members (Bitmap.clearBit p.cceBitmap i) = p.taken \ {i} :=
        Bitmap.members_clearBit p.cceBitmap
      have hncard := Set.ncard_sdiff_singleton_add_one hmem p.finite_taken
      have hle := ncard_le_of_subset h.below
      refine ⟨{ p with
        cceBitmap := Bitmap.clearBit p.cceBitmap i
        allocatedCount := (p.allocatedCount + 2 ^ 8 - 1) % 2 ^ 8 }, ?_, htaken, h.numCces_eq, ?_,
        ?_⟩
      · rw [CcePool.freeCce, run_bind_of_ok (p.test_run hi), hbit, if_pos rfl,
          run_bind_of_ok (p.clear_run hi)]
        rfl
      · rw [taken, htaken]
        simp only [h.count_eq]
        omega
      · rw [taken, htaken]
        exact Set.sdiff_subset.trans h.below
  | false =>
      have hmem : i ∉ p.taken := fun hi' ↦ Bool.false_ne_true (hbit.symm.trans hi')
      refine ⟨p, ?_, (Set.sdiff_singleton_eq_self hmem).symm, h⟩
      rw [CcePool.freeCce, run_bind_of_ok (p.test_run hi), hbit]
      rfl

theorem Consistent.foldlM_freeCce (h : Consistent numCces p) (hn : numCces ≤ 128) {is : List ℕ}
    (his : ∀ i ∈ is, i < 128) : ∃ p', (is.foldlM CcePool.freeCce p).run env = .ok p' ∧
      p'.taken = p.taken \ {i | i ∈ is} ∧ Consistent numCces p' := by
  induction is generalizing p with
  | nil => exact ⟨p, rfl, by simp, h⟩
  | cons i is ih =>
      obtain ⟨mid, hmid, htaken, hcons⟩ := h.freeCce hn (his i List.mem_cons_self)
      obtain ⟨p', hp', htaken', hcons'⟩ := ih hcons fun j hj ↦ his j (List.mem_cons_of_mem i hj)
      refine ⟨p', ?_, ?_, hcons'⟩
      · rw [List.foldlM_cons, run_bind_of_ok hmid, hp']
      · rw [htaken', htaken, Set.sdiff_sdiff]
        congr 1
        ext j
        simp

/-! ## Operations -/

theorem mem_takeWhile_range' {bound start n i : ℕ} :
    i ∈ (List.range' start n).takeWhile (· < bound) ↔
      i ∈ Set.Ico start (start + n) ∧ i < bound := by
  induction n generalizing start with
  | zero => simp
  | succ n ih =>
      rw [List.range'_succ, List.takeWhile_cons]
      by_cases hstart : start < bound
      · simp only [decide_eq_true hstart, if_true, List.mem_cons, ih, Set.mem_Ico]
        omega
      · simp only [decide_eq_false hstart, Bool.false_eq_true, if_false, List.not_mem_nil,
          Set.mem_Ico, false_iff]
        omega

theorem Consistent.deallocate (h : Consistent numCces p) (hn : numCces ≤ 128) (startCce : ℕ)
    (al : AggregationLevel) (env : Option (List Mutex)) :
    ∃ p', (p.deallocate startCce al).run env = .ok p' ∧
      p'.taken = p.taken \ elements (startCce % 2 ^ 8, al) ∧ Consistent numCces p' := by
  have hlist : ∀ i, i ∈ (List.range' (startCce % 2 ^ 8) al.value).takeWhile (· < p.numCces) ↔
      i ∈ elements (startCce % 2 ^ 8, al) ∧ i < numCces := by
    intro i
    rw [h.numCces_eq]
    exact mem_takeWhile_range'
  obtain ⟨p', hp', htaken, hcons⟩ :=
    h.foldlM_freeCce hn fun i hi ↦ ((hlist i).mp hi).2.trans_le hn
  refine ⟨p', hp', ?_, hcons⟩
  rw [htaken]
  ext i
  refine and_congr_right fun hi ↦ not_congr ?_
  exact (hlist i).trans (and_iff_left (h.below hi))

theorem foldl_setBit (p : CcePool) (is : List ℕ) :
    is.foldl (fun p i ↦ { p with cceBitmap := Bitmap.setBit p.cceBitmap i }) p =
      { p with cceBitmap := is.foldl Bitmap.setBit p.cceBitmap } := by
  induction is generalizing p with
  | nil => rfl
  | cons i is ih => exact ih _

/-- The search for a block returns the lowest one that fits. -/
theorem findBlock_run (p : CcePool) (al : AggregationLevel) (hn : p.numCces ≤ 128) :
    ∃ r, ((List.range' 0 (p.numCces / al.value) al.value).findM?
      (p.blockFree · al.value) : Exec _).run env = .ok r ∧ Lowest (p.Fits al) r := by
  have hpos := al.value_pos
  have hstarts : ∀ start, start ∈ List.range' 0 (p.numCces / al.value) al.value ↔
      al.value ∣ start ∧ start + al.value ≤ p.numCces := by
    intro start
    rw [List.mem_range']
    constructor
    · rintro ⟨k, hk, rfl⟩
      have hle := (Nat.le_div_iff_mul_le hpos).mp hk
      rw [Nat.succ_mul, Nat.mul_comm] at hle
      exact ⟨⟨k, Nat.zero_add _⟩, by omega⟩
    · rintro ⟨⟨k, rfl⟩, hle⟩
      rw [← Nat.mul_add_one, Nat.mul_comm] at hle
      exact ⟨k, (Nat.le_div_iff_mul_le hpos).mpr hle, (Nat.zero_add _).symm⟩
  refine ⟨_, findM_run_of_ok (q := fun start ↦
    (List.range' start al.value).all fun i ↦ !p.cceBitmap.getLsbD i) fun start hstart ↦ ?_, ?_⟩
  · refine allM_run_of_ok fun i hi ↦ ?_
    have hlt := ((hstarts start).mp hstart).2
    have hi' := List.mem_range'_1.mp hi
    rw [run_bind_of_ok (p.test_run (by omega))]
    rfl
  · refine (lowest_find (List.pairwise_lt_range' al.value hpos) _).congr fun start ↦ ?_
    rw [hstarts, List.all_eq_true]
    constructor
    · rintro ⟨⟨haligned, hinside⟩, hall⟩
      refine ⟨haligned, hinside, Set.disjoint_left.mpr fun i hi htaken ↦ ?_⟩
      have hfree := hall i (List.mem_range'_1.mpr hi)
      rw [show p.cceBitmap.getLsbD i = true from htaken] at hfree
      cases hfree
    · intro hfits
      refine ⟨⟨hfits.aligned, hfits.inside⟩, fun i hi ↦ ?_⟩
      have hfree : ¬ p.cceBitmap.getLsbD i = true :=
        Set.disjoint_left.mp hfits.free (List.mem_range'_1.mp hi)
      simpa using hfree

theorem setBlock_run (p : CcePool) {start n : ℕ} (hinside : start + n ≤ 128) :
    ((List.range' start n).foldlM set p : Exec CcePool).run env =
      .ok { p with cceBitmap := (List.range' start n).foldl Bitmap.setBit p.cceBitmap } := by
  rw [← foldl_setBit]
  refine foldlM_run_of_ok fun p i hi ↦ p.set_run ?_
  have hi' := List.mem_range'_1.mp hi
  omega

/-- Every allocation returns: it takes the lowest block that fits, or leaves the pool as it is. -/
theorem Consistent.allocate (h : Consistent numCces p) (hn : numCces ≤ 128)
    (al : AggregationLevel) (env : Option (List Mutex)) :
    (∃ start p', (p.allocate al).run env = .ok (some start, p') ∧
      Lowest (p.Fits al) (some start) ∧ p'.taken = p.taken ∪ elements (start, al) ∧
      Consistent numCces p') ∨
    ((p.allocate al).run env = .ok (none, p) ∧ Lowest (p.Fits al) none) := by
  obtain ⟨r, hfind, hlowest⟩ := p.findBlock_run al (h.numCces_eq.trans_le hn)
  cases r with
  | none =>
      refine Or.inr ⟨?_, hlowest⟩
      rw [CcePool.allocate, run_bind_of_ok hfind]
      rfl
  | some start =>
      have hfits : p.Fits al start := hlowest.1
      have hinside : start + al.value ≤ numCces := h.numCces_eq ▸ hfits.inside
      have htaken : Bitmap.members ((List.range' start al.value).foldl Bitmap.setBit p.cceBitmap) =
          p.taken ∪ elements (start, al) := by
        rw [Bitmap.members_foldl_setBit fun i hi ↦ ?_]
        · congr 1
          ext i
          exact List.mem_range'_1
        · have hi' := List.mem_range'_1.mp hi
          omega
      have hbelow : p.taken ∪ elements (start, al) ⊆ Set.Iio numCces :=
        Set.union_subset h.below fun i hi ↦ hi.2.trans_le hinside
      have hncard : (p.taken ∪ elements (start, al)).ncard = p.taken.ncard + al.value := by
        rw [Set.ncard_union_eq hfits.free.symm p.finite_taken (Set.finite_Ico _ _), elements,
          ncard_Ico_add]
      have hle := ncard_le_of_subset hbelow
      refine Or.inl ⟨start, {
        numCces := p.numCces
        allocatedCount := (p.allocatedCount + al.value) % 2 ^ 8
        cceBitmap := (List.range' start al.value).foldl Bitmap.setBit p.cceBitmap }, ?_, hlowest,
        htaken, h.numCces_eq, ?_, ?_⟩
      · rw [CcePool.allocate, run_bind_of_ok hfind]
        exact run_bind_of_ok (p.setBlock_run (hinside.trans hn))
      · rw [taken, htaken, hncard]
        simp only [h.count_eq]
        omega
      · rw [taken, htaken]
        exact hbelow

theorem Consistent.available (h : Consistent numCces p) (hn : numCces ≤ 128) :
    p.available = (Set.Iio numCces \ p.taken).ncard := by
  have hle := ncard_le_of_subset h.below
  rw [Set.ncard_sdiff h.below p.finite_taken, ncard_Iio, CcePool.available, h.numCces_eq,
    h.count_eq]
  omega

/-! ## Runs -/

/-- The pool is consistent, and the held blocks are aligned, disjoint and in use. -/
structure Holding (numCces : ℕ) (s : CcePool × List (ℕ × AggregationLevel)) : Prop where
  consistent : Consistent numCces s.1
  aligned : ∀ b ∈ s.2, b.2.value ∣ b.1 ∧ b.1 + b.2.value ≤ numCces
  packs : Packs elements s.2 s.1.taken

theorem holding_empty {p : CcePool} (h : Consistent numCces p) : Holding numCces (p, []) where
  consistent := h
  aligned _ hb := (List.not_mem_nil hb).elim
  packs := Packs.nil

theorem consistent_reset (h : Consistent numCces p) : Consistent numCces p.reset :=
  h.numCces_eq ▸ consistent_empty p.numCces

theorem Holding.next {s : CcePool × List (ℕ × AggregationLevel)} (h : Holding numCces s)
    (hn : numCces ≤ 128) (op : CceOperation) : ∃ s', next s op = some s' ∧ Holding numCces s' := by
  obtain ⟨p, held⟩ := s
  cases op with
  | reset => exact ⟨_, rfl, holding_empty (consistent_reset h.consistent)⟩
  | allocate al =>
      rcases h.consistent.allocate hn al none with
        ⟨start, p', hrun, ⟨hfits, _⟩, htaken, hcons⟩ | ⟨hrun, _⟩
      · refine ⟨(p', (start, al) :: held), ?_, hcons, ?_, ?_⟩
        · rw [CcePool.next, ignoringLocks_eq_some.mpr hrun]
          rfl
        · intro b hb
          rcases List.mem_cons.mp hb with rfl | hb
          · exact ⟨hfits.aligned, h.consistent.numCces_eq ▸ hfits.inside⟩
          · exact h.aligned b hb
        · exact htaken ▸ h.packs.cons hfits.free
      · refine ⟨(p, held), ?_, h⟩
        rw [CcePool.next, ignoringLocks_eq_some.mpr hrun]
        rfl
  | deallocate startCce al =>
      obtain ⟨p', hrun, htaken, hcons⟩ := h.consistent.deallocate hn startCce al none
      refine ⟨(p', held.filter (apart · (startCce % 2 ^ 8, al))), ?_, hcons,
        fun b hb ↦ h.aligned b (List.mem_of_mem_filter hb), ?_⟩
      · rw [CcePool.next, ignoringLocks_eq_some.mpr hrun]
        rfl
      · exact htaken ▸ h.packs.release List.filter_sublist fun b hb ↦
          elements_apart.mp (List.mem_filter.mp hb).2

theorem Holding.exact {held : List (ℕ × AggregationLevel)} (h : Holding numCces (p, held))
    (hn : numCces ≤ 128) : Exact numCces p held where
  numCces_eq := h.consistent.numCces_eq
  count_eq := h.consistent.count_eq.trans (Bitmap.count_eq_ncard p.cceBitmap).symm
  below := h.consistent.below
  available_eq := h.consistent.available hn
  aligned := h.aligned
  packs := h.packs
  allocate al := by
    rcases h.consistent.allocate hn al none with
      ⟨start, p', hrun, hlowest, _, _⟩ | ⟨hrun, hlowest⟩
    · exact ⟨some start, p', ignoringLocks_eq_some.mpr hrun, hlowest, fun h ↦ by cases h⟩
    · exact ⟨none, p, ignoringLocks_eq_some.mpr hrun, hlowest, fun _ ↦ rfl⟩

/-- In every pool, after any sequence of resets, allocations and deallocations of anything,
the counter counts the bits, the blocks held are aligned and disjoint, and the next
allocation takes the lowest block that fits. -/
theorem blocks_exact {numCces : ℕ} (hn : numCces ≤ 128) (ops : List CceOperation) :
    ∃ p held, ops.foldlM next (create numCces, []) = some (p, held) ∧ Exact numCces p held := by
  have hcreate : create numCces = { numCces := numCces } := by
    rw [create, Nat.mod_eq_of_lt (by omega)]
  obtain ⟨⟨p, held⟩, hrun, hholding⟩ := exists_foldlM_of_progress (Holding numCces)
    (fun _ op h ↦ h.next hn op) (holding_empty (hcreate ▸ consistent_empty numCces)) ops
  exact ⟨p, held, hrun, hholding.exact hn⟩

/-- Two blocks, a free that cuts one of them, and the search for the next. -/
theorem blocks_exact_fragmented :
    ∃ p held, [CceOperation.allocate .al4, .allocate .al8, .deallocate 2 .al1,
      .deallocate 2 .al1, .allocate .al2].foldlM next (create 64, []) = some (p, held) ∧
        Exact 64 p held :=
  blocks_exact (by decide) _

end CcePool

end NrScheduler
