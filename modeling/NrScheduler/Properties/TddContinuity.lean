import NrScheduler.Core.CellContext
import NrScheduler.Core.UnwrappedTime
import Mathlib.Data.Int.ModEq

/-!
# The pattern across frames

The entry of a TDD pattern is looked up by the slot within the frame.  Each frame boundary
thus moves the pattern by the slots of a frame, which goes unnoticed exactly where the
period divides the move.
-/

namespace NrScheduler

open LockMonad

/-- Whatever its entries are, a pattern of period `p` gives the slot the entry number `i`. -/
def SelectsEntry (p : ℕ) (t : FrameTiming) (i : ℕ) : Prop :=
  i < p ∧ ∀ (cfg : CellConfig) (pattern : TddPattern) (s : SlotContext),
    cfg.isFdd = false → cfg.tddPattern = some pattern →
    pattern.periodicitySlots = p → pattern.slotConfigs.length = p →
    ∃ slot, ignoringLocks (s.initializeSlot cfg t) = some slot ∧
      pattern.slotConfigs[i]? = some slot.tddConfig

/-- The entries of a slot and of the slot `k` later differ by `k`, modulo the period. -/
def Continues (p : ℕ) (t : FrameTiming) (k : ℕ) : Prop :=
  ∃ t' i j, ignoringLocks (t.advanced k) = some t' ∧ SelectsEntry p t i ∧ SelectsEntry p t' j ∧
    j % p = (i + k) % p

/-- No wrap of the frame numbers lies between the timing and the one `k` slots later. -/
def FrameTiming.StaysInCycle (t : FrameTiming) (k : ℕ) : Prop :=
  t.sfn + (t.slot + k) / t.slotsPerFrame < FrameTiming.maxSfn

instance (t : FrameTiming) (k : ℕ) : Decidable (t.StaysInCycle k) :=
  inferInstanceAs (Decidable (_ < _))

variable {p n i k : ℕ} {t : FrameTiming}

theorem patternEntry_run {pattern : TddPattern} (hp : 0 < p)
    (hperiodicity : pattern.periodicitySlots = p) (hlength : pattern.slotConfigs.length = p) :
    ∃ entry, (SlotContext.patternEntry pattern t).run none = .ok entry ∧
      pattern.slotConfigs[t.slot % p]? = some entry := by
  have hlt : t.slot % p < pattern.slotConfigs.length := (Nat.mod_lt _ hp).trans_eq hlength.symm
  refine ⟨pattern.slotConfigs[t.slot % p], ?_, List.getElem?_eq_getElem hlt⟩
  rw [SlotContext.patternEntry, hperiodicity, if_neg hp.ne', TddPattern.getConfig, hlength,
    if_neg hp.ne', Nat.mod_mod, List.getElem?_eq_getElem hlt]
  rfl

theorem initializeSlot_entry {cfg : CellConfig} {pattern : TddPattern} (hp : 0 < p)
    (htdd : cfg.isFdd = false) (hpattern : cfg.tddPattern = some pattern)
    (hperiodicity : pattern.periodicitySlots = p) (hlength : pattern.slotConfigs.length = p)
    (s : SlotContext) : ∃ slot, ignoringLocks (s.initializeSlot cfg t) = some slot ∧
      pattern.slotConfigs[t.slot % p]? = some slot.tddConfig := by
  obtain ⟨entry, hrun, hentry⟩ := patternEntry_run (t := t) hp hperiodicity hlength
  refine ⟨{ s.renew cfg t with
    tddConfig := entry
    canScheduleDl := decide (0 < entry.numDlSymbols)
    canScheduleUl := decide (0 < entry.numUlSymbols) }, ?_, hentry⟩
  rw [ignoringLocks_eq_some, SlotContext.initializeSlot_of_pattern htdd hpattern]
  exact run_bind_of_ok hrun

/-- A cell whose pattern numbers its entries. -/
def numberedCell (p : ℕ) : CellConfig :=
  { cellId := 1, numRbs := 106, duplexMode := .tdd
    tddPattern := some ⟨p, (List.range p).map fun n ↦ ⟨n, 0, 0⟩⟩ }

/-- The entry is that of the slot within the frame. -/
theorem selectsEntry_iff (hp : 0 < p) : SelectsEntry p t i ↔ i = t.slot % p := by
  constructor
  · rintro ⟨hi, hall⟩
    have hlength : ((List.range p).map fun n ↦ (⟨n, 0, 0⟩ : TddSlotConfig)).length = p := by
      rw [List.length_map, List.length_range]
    obtain ⟨slot, hrun, hentry⟩ := hall (numberedCell p) _ .cleared rfl rfl rfl hlength
    obtain ⟨slot', hrun', hentry'⟩ :=
      @initializeSlot_entry p t (numberedCell p) _ hp rfl rfl rfl hlength .cleared
    obtain rfl := Option.some.inj (hrun.symm.trans hrun')
    have hsame := hentry.trans hentry'.symm
    have hmod := Nat.mod_lt t.slot hp
    rw [List.getElem?_map, List.getElem?_map, List.getElem?_range hi,
      List.getElem?_range hmod] at hsame
    exact congrArg TddSlotConfig.numDlSymbols (Option.some.inj hsame)
  · rintro rfl
    exact ⟨Nat.mod_lt _ hp, fun _ _ s htdd hpattern hperiodicity hlength ↦
      initializeSlot_entry hp htdd hpattern hperiodicity hlength s⟩

theorem mod_frame_iff (x n p : ℕ) : x % n % p = x % p ↔ p ∣ n * (x / n) := by
  have hsplit : x - x % n = n * (x / n) := by
    have h := Nat.div_add_mod x n
    omega
  rw [← hsplit]
  exact Nat.modEq_iff_dvd' (Nat.mod_le x n)

theorem slot_plus (h : t.Valid) (hle : t.slotsPerFrame ≤ 256) (k : ℕ) :
    (t.plus k).slot = (t.slot + k) % t.slotsPerFrame := by
  have hpos : 0 < t.slotsPerFrame := Nat.zero_lt_of_lt h.slot_lt
  exact Nat.mod_eq_of_lt ((Nat.mod_lt _ hpos).trans_le hle)

theorem continues_iff (hp : 0 < p) (h : t.Valid) (hle : t.slotsPerFrame ≤ 256) :
    Continues p t k ↔ p ∣ t.slotsPerFrame * ((t.slot + k) / t.slotsPerFrame) := by
  have hadvanced : ignoringLocks (t.advanced k) = some (t.plus k) :=
    ignoringLocks_eq_some.mpr (FrameTiming.advanced_run (Nat.zero_lt_of_lt h.slot_lt) k)
  rw [← mod_frame_iff]
  constructor
  · rintro ⟨t', i, j, ht', hi, hj, hij⟩
    obtain rfl := Option.some.inj (hadvanced.symm.trans ht')
    rw [selectsEntry_iff hp] at hi hj
    rwa [hi, hj, slot_plus h hle, Nat.mod_mod, Nat.mod_add_mod] at hij
  · intro hsame
    refine ⟨t.plus k, _, _, hadvanced, (selectsEntry_iff hp).mpr rfl,
      (selectsEntry_iff hp).mpr rfl, ?_⟩
    rw [slot_plus h hle, Nat.mod_mod, Nat.mod_add_mod, hsame]

/-- Between two timings of a numerology the pattern continues exactly where its period divides
the slots of the frames begun in between; it has no gap anywhere exactly where the period
divides the slots of a frame. -/
theorem tdd_continuity_iff {p n : ℕ} (hp : 0 < p) (hn : 0 < n) (hle : n ≤ 256) :
    (∀ (t : FrameTiming) (k : ℕ), t.Valid → t.slotsPerFrame = n → t.StaysInCycle k →
      (Continues p t k ↔ p ∣ n * ((t.slot + k) / n))) ∧
    ((∀ (t : FrameTiming) (k : ℕ), t.Valid → t.slotsPerFrame = n → t.StaysInCycle k →
      Continues p t k) ↔ p ∣ n) := by
  constructor
  · rintro t k hvalid rfl _
    exact continues_iff hp hvalid hle
  · constructor
    · intro hall
      have hstart : FrameTiming.Valid { slotsPerFrame := n } :=
        ⟨hn, Nat.two_pow_pos 8, Nat.two_pow_pos 10⟩
      have hstays : FrameTiming.StaysInCycle { slotsPerFrame := n } n := by
        rw [FrameTiming.StaysInCycle, Nat.zero_add, Nat.zero_add, Nat.div_self hn]
        decide
      have hdvd := (continues_iff hp hstart hle).mp (hall _ n hstart rfl hstays)
      rwa [Nat.zero_add, Nat.div_self hn, Nat.mul_one] at hdvd
    · rintro hdvd t k hvalid rfl _
      exact (continues_iff hp hvalid hle).mpr (Dvd.dvd.mul_right hdvd _)

/-- A period of five slots at 15 kHz. -/
theorem tdd_continuity_iff_five :
    (∀ (t : FrameTiming) (k : ℕ), t.Valid → t.slotsPerFrame = 10 → t.StaysInCycle k →
      (Continues 5 t k ↔ 5 ∣ 10 * ((t.slot + k) / 10))) ∧
    ((∀ (t : FrameTiming) (k : ℕ), t.Valid → t.slotsPerFrame = 10 → t.StaysInCycle k →
      Continues 5 t k) ↔ 5 ∣ 10) :=
  tdd_continuity_iff (by decide) (by decide) (by decide)

/-- A period of four slots at 15 kHz: the last slot of a frame gets the second entry, the
slot after it the first one again. -/
theorem pattern_gap_at_frame_end :
    let cfg : CellConfig := { CellConfig.fdd 1 106 with
      duplexMode := .tdd
      tddPattern := some ⟨4, [⟨14, 0, 0⟩, ⟨10, 2, 2⟩, ⟨0, 0, 14⟩, ⟨0, 0, 14⟩]⟩ }
    let t : FrameTiming := { slot := 9 }
    (ignoringLocks (SlotContext.cleared.initializeSlot cfg t)).map (·.tddConfig) =
        some ⟨10, 2, 2⟩ ∧
      (ignoringLocks (t.advanced 1)).bind (fun t' ↦
        (ignoringLocks (SlotContext.cleared.initializeSlot cfg t')).map (·.tddConfig)) =
        some ⟨14, 0, 0⟩ := by
  decide +kernel

end NrScheduler
