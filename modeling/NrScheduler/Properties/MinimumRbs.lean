import NrScheduler.Properties.TransportBlockSize

/-!
# The least number of resource blocks

The binary search for the least number of blocks that carries a transport block is right
exactly where no probe above that number falls behind the drop of the block sizes.
-/

namespace NrScheduler

open BlockSize

namespace Platform

variable (P : Platform)

/-- The least number of blocks up to `maxRbs` that carries `tbsBytes`, or `maxRbs`. -/
def IsMinRbs (tbsBytes mcs numLayers maxRbs r : ℕ) : Prop :=
  IsLeast {n | 1 ≤ n ∧ n ≤ maxRbs ∧ tbsBytes ≤ P.tbsTableLookup mcs n numLayers} r ∨
    r = maxRbs ∧ ∀ n, 1 ≤ n → n ≤ maxRbs → P.tbsTableLookup mcs n numLayers < tbsBytes

theorem isLeastOrEnd_carries {tbsBytes mcs numLayers maxRbs r : ℕ} :
    Bisection.IsLeastOrEnd (P.carries tbsBytes mcs numLayers 12) 1 maxRbs r ↔
      P.IsMinRbs tbsBytes mcs numLayers maxRbs r := by
  simp only [Bisection.IsLeastOrEnd, IsMinRbs, carries, decide_eq_true_eq, decide_eq_false_iff_not,
    not_le]

/-- The search is right exactly if the probes of a bisection towards the least sufficient number
are themselves sufficient from there on. -/
theorem isMinRbs_minRbsForTbs_iff {tbsBytes mcs numLayers maxRbs : ℕ} (hmax : 1 ≤ maxRbs) :
    P.IsMinRbs tbsBytes mcs numLayers maxRbs (P.minRbsForTbs tbsBytes mcs numLayers 12 maxRbs) ↔
      ∀ a, IsLeast {n | 1 ≤ n ∧ n ≤ maxRbs ∧ tbsBytes ≤ P.tbsTableLookup mcs n numLayers} a →
        ∀ m ∈ Bisection.midpoints a maxRbs 1 maxRbs, a ≤ m →
          tbsBytes ≤ P.tbsTableLookup mcs m numLayers := by
  rw [minRbsForTbs, minRbsSearch_eq_search, ← isLeastOrEnd_carries,
    Bisection.search_isLeastOrEnd_iff (by omega) hmax]
  simp only [carries, decide_eq_true_eq]

/-- Up to 273 blocks, and from 64 information bits on, only the drop misleads the search. -/
theorem drops_of_lookup_lt {tbsBytes mcs numLayers a m : ℕ} (hle : a ≤ m)
    (ha : (⟨mcs, a, numLayers, 12⟩ : Allocation).InRange)
    (hm : (⟨mcs, m, numLayers, 12⟩ : Allocation).InRange)
    (hcarries : tbsBytes ≤ P.tbsTableLookup mcs a numLayers)
    (hlt : P.tbsTableLookup mcs m numLayers < tbsBytes) :
    Drops (⟨mcs, a, numLayers, 12⟩ : Allocation).infoBits
      (⟨mcs, m, numLayers, 12⟩ : Allocation).infoBits := by
  have hbits : (⟨mcs, a, numLayers, 12⟩ : Allocation).infoBits ≤
      (⟨mcs, m, numLayers, 12⟩ : Allocation).infoBits :=
    Nat.div_le_div_right
      (Allocation.scaledBits_le_scaledBits ⟨le_rfl, hle, le_rfl, le_rfl⟩ hm.mcs_le)
  have hcarries' := hcarries.trans_eq (ha.lookup_eq P)
  have hlt' := (hm.lookup_eq P).symm.trans_lt hlt
  by_contra hdrops
  exact absurd (hcarries'.trans ((bytes_le_bytes_iff ha.bits hbits).mpr hdrops)) (not_le.mpr hlt')

theorem isMinRbs_minRbsForTbs_plain :
    plain.IsMinRbs 20 5 1 12 (plain.minRbsForTbs 20 5 1 12 12) := by
  refine (plain.isMinRbs_minRbsForTbs_iff (by decide)).mpr ?_
  have hprobes : ∀ a < 13, ∀ m ∈ Bisection.midpoints a 12 1 12, a ≤ m →
      20 ≤ plain.tbsTableLookup 5 a 1 → 20 ≤ plain.tbsTableLookup 5 m 1 := by
    decide +kernel
  intro a ha m hm hle
  exact hprobes a (Nat.lt_succ_of_le ha.1.2.1) m hm hle ha.1.2.2

/-- At MCS 0, 245 blocks carry 472 bytes.  The search for 470 asks about 256 blocks, which carry
120, and ends at 273. -/
theorem not_isMinRbs_minRbsForTbs : ¬ ∀ (P : Platform) (tbsBytes mcs numLayers maxRbs : ℕ),
    mcs ≤ 28 → 1 ≤ numLayers → numLayers ≤ 8 → 1 ≤ maxRbs →
      P.IsMinRbs tbsBytes mcs numLayers maxRbs
        (P.minRbsForTbs tbsBytes mcs numLayers 12 maxRbs) := by
  intro h
  have hsearch : plain.minRbsForTbs 470 0 1 12 273 = 273 := by decide +kernel
  have hcarries : 470 ≤ plain.tbsTableLookup 0 245 1 := by decide +kernel
  have hmin := h plain 470 0 1 273 (by decide) (by decide) (by decide) (by decide)
  rw [hsearch] at hmin
  rcases hmin with hleast | ⟨_, hnone⟩
  · have hle : 273 ≤ 245 := hleast.2 ⟨by decide, by decide, hcarries⟩
    omega
  · have hlt := hnone 245 (by decide) (by decide)
    omega

end Platform

end NrScheduler
