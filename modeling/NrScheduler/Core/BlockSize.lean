import NrScheduler.Core.Platform
import NrScheduler.Lib.LeadingDigits

/-!
# Transport block sizes as a function of the information bits

Away from undefined arithmetic, the size of a transport block depends on its number of
information bits alone.  It grows with them, except across 3824 bits, where the formula for
large blocks begins with sizes a quarter of those that the formula for small blocks ends with.
-/

namespace NrScheduler

open LeadingDigits

namespace BlockSize

/-! ## The quantised sizes -/

def smallShift (length : ℕ) : ℕ := max 3 (length - 6)

def largeShift (length : ℕ) : ℕ := length - 5

/-- The bytes of a large block that is quantised to `bits`. -/
def segmentBytes (bits : ℕ) : ℕ :=
  if bits < 8424 then (bits + 55) / 32 - 3
  else
    let c := (bits + 24 + 8423) / 8424
    c * ((bits + 24) / (8 * c) + 1) - 3

def largeBits (nInfo : ℕ) : ℕ := max 3840 (truncate largeShift (nInfo - 24))

/-- The bytes of a block of `nInfo` information bits, from 64 bits on. -/
def bytes (nInfo : ℕ) : ℕ :=
  if nInfo ≤ 3824 then truncate smallShift nInfo / 8 else segmentBytes (largeBits nInfo)

theorem monotone_largeShift : Monotone largeShift := fun m n h ↦ by
  simp only [largeShift]
  omega

theorem truncate_of_length {shift : ℕ → ℕ} {x : ℕ} (length : ℕ) (hlow : 2 ^ length ≤ x)
    (hhigh : x < 2 ^ (length + 1)) :
    truncate shift x = x / 2 ^ shift length * 2 ^ shift length := by
  have hx : x ≠ 0 := by
    have := Nat.two_pow_pos length
    omega
  rw [truncate_eq, (Nat.log2_eq_iff hx).mpr ⟨hlow, hhigh⟩]

/-- The steps of a small block: 8, 16 and 32 bits. -/
theorem truncate_small {nInfo : ℕ} (hlow : 64 ≤ nInfo) (hhigh : nInfo ≤ 3824) :
    truncate smallShift nInfo =
      if nInfo < 1024 then nInfo / 8 * 8
      else if nInfo < 2048 then nInfo / 16 * 16 else nInfo / 32 * 32 := by
  have hcases : nInfo < 128 ∨ 128 ≤ nInfo ∧ nInfo < 256 ∨ 256 ≤ nInfo ∧ nInfo < 512 ∨
      512 ≤ nInfo ∧ nInfo < 1024 ∨ 1024 ≤ nInfo ∧ nInfo < 2048 ∨ 2048 ≤ nInfo := by
    omega
  rcases hcases with h | h | h | h | h | h
  · rw [if_pos (by omega)]
    exact truncate_of_length 6 hlow h
  · rw [if_pos (by omega)]
    exact truncate_of_length 7 h.1 h.2
  · rw [if_pos (by omega)]
    exact truncate_of_length 8 h.1 h.2
  · rw [if_pos h.2]
    exact truncate_of_length 9 h.1 h.2
  · rw [if_neg (by omega), if_pos h.2]
    exact truncate_of_length 10 h.1 h.2
  · rw [if_neg (by omega), if_neg (by omega)]
    exact truncate_of_length 11 h (by omega)

/-- The steps of a large block in one segment: 64, 128 and 256 bits. -/
theorem truncate_large {x : ℕ} (hlow : 2048 ≤ x) (hhigh : x < 8448) :
    truncate largeShift x =
      if x < 4096 then x / 64 * 64 else if x < 8192 then x / 128 * 128 else 8192 := by
  have hcases : x < 4096 ∨ 4096 ≤ x ∧ x < 8192 ∨ 8192 ≤ x := by omega
  rcases hcases with h | h | h
  · rw [if_pos h]
    exact truncate_of_length 11 hlow h
  · rw [if_neg (by omega), if_pos h.2]
    exact truncate_of_length 12 h.1 h.2
  · have hstep : truncate largeShift x = x / 256 * 256 :=
      truncate_of_length 13 h (by omega)
    rw [if_neg (by omega), if_neg (by omega), hstep]
    omega

/-! ## Growth -/

theorem segmentBytes_of_lt {bits : ℕ} (h : bits < 8424) :
    segmentBytes bits = (bits + 55) / 32 - 3 := if_pos h

/-- The segments of a block hold its bits, and less than one byte more in each. -/
theorem segmentBytes_bounds {bits c : ℕ} (h : 8424 ≤ bits)
    (hc : c = (bits + 24 + 8423) / 8424) :
    (bits + 24) / 8 < segmentBytes bits + 3 ∧ segmentBytes bits + 3 ≤ (bits + 24) / 8 + c := by
  have hpos : 0 < c := by omega
  have hdiv : (bits + 24) / (8 * c) = (bits + 24) / 8 / c := (Nat.div_div_eq_div_mul _ _ _).symm
  have hover : (bits + 24) / 8 < c * ((bits + 24) / 8 / c + 1) := Nat.lt_mul_div_succ _ hpos
  have hunder : c * ((bits + 24) / 8 / c) ≤ (bits + 24) / 8 := Nat.mul_div_le _ _
  have hvalue : segmentBytes bits = c * ((bits + 24) / 8 / c + 1) - 3 := by
    rw [segmentBytes, if_neg (by omega), ← hc]
    simp only [hdiv]
  rw [Nat.mul_add_one] at hover hvalue
  omega

/-- A step of at least a sixty-fourth is enough for another segment. -/
theorem segmentBytes_le_segmentBytes {bits bits' step : ℕ} (hstep : bits < 64 * step)
    (h : bits = bits' ∨ bits + step ≤ bits') : segmentBytes bits ≤ segmentBytes bits' := by
  rcases h with rfl | h
  · exact le_rfl
  by_cases hbits : bits < 8424
  · have hsmall := segmentBytes_of_lt hbits
    by_cases hbits' : bits' < 8424
    · rw [hsmall, segmentBytes_of_lt hbits']
      omega
    · have hlarge := segmentBytes_bounds (not_lt.mp hbits') rfl
      omega
  · have hbounds := segmentBytes_bounds (not_lt.mp hbits) rfl
    have hbits' : 8424 ≤ bits' := by omega
    have hbounds' := segmentBytes_bounds hbits' rfl
    omega

theorem bytes_le_bytes_of_small {n m : ℕ} (hn : 64 ≤ n) (h : n ≤ m) (hm : m ≤ 3824) :
    bytes n ≤ bytes m := by
  have hlength : 6 ≤ m.log2 := (Nat.le_log2 (by omega)).mpr (by omega)
  have htruncate : truncate smallShift n ≤ truncate smallShift m :=
    truncate_le_truncate (by omega) h (by simp only [smallShift]; omega)
  simp only [bytes, if_pos (h.trans hm), if_pos hm]
  exact Nat.div_le_div_right htruncate

theorem largeShift_le (length : ℕ) : largeShift length ≤ length := Nat.sub_le length 5

/-- The lower bound of 3840 bits is itself a size on the scale. -/
theorem largeBits_eq (nInfo : ℕ) :
    largeBits nInfo = truncate largeShift (max 3840 (nInfo - 24)) := by
  have hscale : truncate largeShift 3840 = 3840 := by decide
  rcases le_total 3840 (nInfo - 24) with hle | hle
  · have hbound := truncate_le_truncate (by decide) hle (largeShift_le _)
    rw [hscale] at hbound
    rw [largeBits, max_eq_right hbound, max_eq_right hle]
  · have hbound : truncate largeShift (nInfo - 24) ≤ 3840 := truncate_le.trans hle
    rw [largeBits, max_eq_left hbound, max_eq_left hle, hscale]

theorem bytes_le_bytes_of_large {n m : ℕ} (hn : 3824 < n) (h : n ≤ m) : bytes n ≤ bytes m := by
  obtain ⟨x, hx⟩ : ∃ x, x = max 3840 (n - 24) := ⟨_, rfl⟩
  obtain ⟨y, hy⟩ : ∃ y, y = max 3840 (m - 24) := ⟨_, rfl⟩
  have hxy : x ≤ y := by omega
  have hlength : 5 ≤ x.log2 := (Nat.le_log2 (by omega)).mpr (by omega)
  have hstep : truncate largeShift x < 64 * 2 ^ largeShift x.log2 := by
    calc truncate largeShift x ≤ x := truncate_le
      _ < 2 ^ (x.log2 + 1) := Nat.lt_log2_self
      _ = 2 ^ 6 * 2 ^ largeShift x.log2 := by
          rw [← pow_add]
          congr 1
          simp only [largeShift]
          omega
  have hle : truncate largeShift x ≤ truncate largeShift y :=
    truncate_le_truncate (by omega) hxy (largeShift_le _)
  rw [bytes, bytes, if_neg (by omega), if_neg (by omega), largeBits_eq, largeBits_eq,
    ← hx, ← hy]
  exact segmentBytes_le_segmentBytes hstep
    (hle.eq_or_lt.imp_right (truncate_add_le monotone_largeShift (by omega) hxy))

/-! ## The drop -/

/-- A block of `nInfo ≤ 3824` information bits is larger than those of 3825 up to this many
bits more than 24. -/
def dropEnd (nInfo : ℕ) : ℕ :=
  -- below 1024 bits a small block is one of whole bytes, rounded down
  let bits := if nInfo < 1024 then nInfo + 8 else nInfo
  if bits < 960 then 0
  else if bits < 1024 then bits / 16 * 64 + 64
  else if bits < 2048 then bits / 32 * 128 + 128 else 8448

/-- Two numbers of information bits on either side of 3824 of which the larger one gets the
smaller block. -/
structure Drops (n m : ℕ) : Prop where
  small : n ≤ 3824
  large : 3824 < m
  before_end : m < dropEnd n + 24

instance (n m : ℕ) : Decidable (Drops n m) :=
  decidable_of_iff (n ≤ 3824 ∧ 3824 < m ∧ m < dropEnd n + 24)
    ⟨fun h ↦ ⟨h.1, h.2.1, h.2.2⟩, fun h ↦ ⟨h.1, h.2, h.3⟩⟩

theorem dropEnd_le (n : ℕ) : dropEnd n ≤ 8448 := by
  simp only [dropEnd]
  split_ifs <;> omega

theorem largeBits_of_segment {m : ℕ} (hlow : 3824 < m) (hhigh : m < 8472) :
    largeBits m = max 3840
      (if m - 24 < 4096 then (m - 24) / 64 * 64
      else if m - 24 < 8192 then (m - 24) / 128 * 128 else 8192) := by
  rw [largeBits, truncate_large (by omega) (by omega)]

theorem bytes_le_bytes_across {n m : ℕ} (hn : 64 ≤ n) (hn' : n ≤ 3824) (hm : 3824 < m) :
    bytes n ≤ bytes m ↔ ¬ Drops n m := by
  have hdrops : Drops n m ↔ m < dropEnd n + 24 := ⟨fun h ↦ h.before_end, fun h ↦ ⟨hn', hm, h⟩⟩
  have hsmall := truncate_small hn hn'
  rw [bytes, bytes, if_pos hn', if_neg (by omega), hdrops]
  by_cases hsegment : m < 8472
  · have hbits := largeBits_of_segment hm hsegment
    have hlt : largeBits m < 8424 := by
      rw [hbits]
      split_ifs <;> omega
    rw [segmentBytes_of_lt hlt, dropEnd]
    split_ifs at hbits hsmall ⊢ <;> omega
  · have hbits : 8448 ≤ largeBits m := by
      have hscale : truncate largeShift 8448 = 8448 := by decide
      have hle : truncate largeShift 8448 ≤ truncate largeShift (m - 24) :=
        truncate_le_truncate (by decide) (by omega) (largeShift_le _)
      rw [largeBits]
      omega
    have hbounds := segmentBytes_bounds (show 8424 ≤ largeBits m by omega) rfl
    have htruncate : truncate smallShift n ≤ n := truncate_le
    have hend := dropEnd_le n
    omega

/-- More information bits get a block that is no smaller, unless they drop. -/
theorem bytes_le_bytes_iff {n m : ℕ} (hn : 64 ≤ n) (h : n ≤ m) :
    bytes n ≤ bytes m ↔ ¬ Drops n m := by
  by_cases hm : m ≤ 3824
  · exact ⟨fun _ hdrops ↦ (hdrops.large.trans_le hm).false,
      fun _ ↦ bytes_le_bytes_of_small hn h hm⟩
  · by_cases hn' : n ≤ 3824
    · exact bytes_le_bytes_across hn hn' (not_le.mp hm)
    · exact ⟨fun _ hdrops ↦ hn' hdrops.small,
        fun _ ↦ bytes_le_bytes_of_large (not_le.mp hn') h⟩

end BlockSize

/-! ## Allocations -/

/-- What the size of a transport block is computed from. -/
structure Allocation where
  mcs : ℕ
  numRbs : ℕ
  numLayers : ℕ
  numSymbols : ℕ := 12
  deriving DecidableEq, Repr

namespace Allocation

/-- The number of information bits, times 1024. -/
def scaledBits (a : Allocation) : ℕ :=
  min (12 * a.numSymbols - 12) 156 * a.numRbs * Platform.spectralEffX1024.getD a.mcs 0 *
    a.numLayers

def infoBits (a : Allocation) : ℕ := a.scaledBits / 1024

/-- An entry of the MCS table, and at least one block, layer and symbol. -/
structure IsValid (a : Allocation) : Prop where
  mcs_le : a.mcs ≤ 28
  rbs_pos : 1 ≤ a.numRbs
  layers_pos : 1 ≤ a.numLayers
  symbols_pos : 1 ≤ a.numSymbols
  symbols_le : a.numSymbols ≤ 14

instance (a : Allocation) : Decidable a.IsValid :=
  decidable_of_iff (a.mcs ≤ 28 ∧ 1 ≤ a.numRbs ∧ 1 ≤ a.numLayers ∧ 1 ≤ a.numSymbols ∧
      a.numSymbols ≤ 14)
    ⟨fun h ↦ ⟨h.1, h.2.1, h.2.2.1, h.2.2.2.1, h.2.2.2.2⟩, fun h ↦ ⟨h.1, h.2, h.3, h.4, h.5⟩⟩

def lookup (a : Allocation) (P : Platform) : ℕ :=
  P.tbsTableLookup a.mcs a.numRbs a.numLayers a.numSymbols

end Allocation

namespace Platform

variable (P : Platform)

theorem clearLow_eq {shift : ℕ → ℕ} {x : ℕ} (hx : x < 2 ^ 32) (hshift : shift x.log2 < 32) :
    P.clearLow x (shift x.log2) = truncate shift x := by
  have hle : truncate shift x ≤ x := truncate_le
  rw [clearLow, if_pos hshift]
  exact Nat.mod_eq_of_lt (hle.trans_lt hx)

theorem quantizeSmall_eq {nInfo : ℕ} (hlow : 64 ≤ nInfo) (hhigh : nInfo ≤ 3824) :
    P.quantizeSmall nInfo = truncate BlockSize.smallShift nInfo / 8 := by
  have hlength : nInfo.log2 < 12 := (Nat.log2_lt (by omega)).mpr (by omega)
  have hshift : BlockSize.smallShift nInfo.log2 < 32 := by
    rw [BlockSize.smallShift]
    omega
  have hclear : P.clearLow nInfo (max 3 (nInfo.log2 - 6)) =
      truncate BlockSize.smallShift nInfo := P.clearLow_eq (by omega) hshift
  have hsteps := BlockSize.truncate_small hlow hhigh
  rw [quantizeSmall, if_neg (by omega)]
  simp only [hclear]
  split_ifs at hsteps <;> omega

theorem quantizeLarge_eq {nInfo : ℕ} (hlow : 3824 < nInfo) (hhigh : nInfo < 2 ^ 32) :
    P.quantizeLarge nInfo = BlockSize.segmentBytes (BlockSize.largeBits nInfo) := by
  have hlength : (nInfo - 24).log2 < 32 := (Nat.log2_lt (by omega)).mpr (by omega)
  have hclear : P.clearLow (nInfo - 24) ((nInfo - 24).log2 - 5) =
      truncate BlockSize.largeShift (nInfo - 24) :=
    P.clearLow_eq (by omega) ((BlockSize.largeShift_le _).trans_lt hlength)
  have hbits : 3840 ≤ BlockSize.largeBits nInfo := le_max_left _ _
  simp only [quantizeLarge, hclear, BlockSize.segmentBytes]
  rw [← BlockSize.largeBits]
  generalize BlockSize.largeBits nInfo = bits at hbits
  by_cases hsegment : bits < 8424
  · simp only [if_pos hsegment]
    omega
  · simp only [if_neg hsegment]
    rw [Nat.mul_assoc]
    omega

/-- Away from undefined arithmetic, the size depends on the number of information bits. -/
theorem lookup_eq {a : Allocation} (ha : a.IsValid) (hlow : 2 ^ 16 ≤ a.scaledBits)
    (hhigh : a.scaledBits < 2 ^ 32) : a.lookup P = BlockSize.bytes a.infoBits := by
  obtain ⟨hmcs, hrbs, hlayers, hsymbols, hsymbols'⟩ := ha
  have hre : (12 * a.numSymbols + 2 ^ 32 - 12) % 2 ^ 32 = 12 * a.numSymbols - 12 := by omega
  have hinfo : 64 ≤ a.infoBits ∧ a.infoBits < 2 ^ 32 := by
    rw [Allocation.infoBits]
    omega
  have hpart : min (12 * a.numSymbols - 12) 156 * a.numRbs * spectralEffX1024.getD a.mcs 0 <
      2 ^ 32 := by
    refine lt_of_le_of_lt ?_ hhigh
    exact Nat.le_mul_of_pos_right _ hlayers
  have hbits : min (12 * a.numSymbols - 12) 156 * a.numRbs * spectralEffX1024.getD a.mcs 0 *
      a.numLayers % 2 ^ 32 / 1024 = a.infoBits :=
    congrArg (· / 1024) (Nat.mod_eq_of_lt hhigh)
  rw [Allocation.lookup, tbsTableLookup, if_neg (by omega), if_neg (by omega)]
  simp only [hre, Nat.mod_eq_of_lt hpart, hbits, BlockSize.bytes]
  split
  · exact P.quantizeSmall_eq hinfo.1 ‹_›
  · exact P.quantizeLarge_eq (by omega) hinfo.2

end Platform

end NrScheduler
