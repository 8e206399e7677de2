import NrScheduler.Core.BlockSize
import Mathlib.Tactic.GCongr

/-!
# Growth and definedness of the transport block size

Larger allocations get larger transport blocks, except across 3824 information bits.  The
arithmetic is defined from 64 information bits on, as long as their product fits 32 bits.
-/

namespace NrScheduler

open BlockSize

/-! ## Growth -/

namespace Platform

theorem spectralEff_le_spectralEff {i j : ℕ} (hij : i ≤ j) (hj : j ≤ 28) :
    spectralEffX1024.getD i 0 ≤ spectralEffX1024.getD j 0 := by
  have hsorted : spectralEffX1024.Pairwise (· ≤ ·) := by decide
  have hlength : spectralEffX1024.length = 29 := by decide
  rcases hij.eq_or_lt with rfl | hlt
  · exact le_rfl
  · have hi : i < spectralEffX1024.length := by omega
    have hj' : j < spectralEffX1024.length := by omega
    simpa [List.getD, hi, hj'] using List.pairwise_iff_getElem.mp hsorted i j hi hj' hlt

theorem spectralEff_bounds {i : ℕ} (hi : i ≤ 28) :
    120 ≤ spectralEffX1024.getD i 0 ∧ spectralEffX1024.getD i 0 ≤ 2165 :=
  ⟨spectralEff_le_spectralEff (Nat.zero_le i) hi, spectralEff_le_spectralEff hi le_rfl⟩

end Platform

namespace Allocation

/-- The order in each of the four numbers. -/
instance : LE Allocation where
  le a b := a.mcs ≤ b.mcs ∧ a.numRbs ≤ b.numRbs ∧ a.numLayers ≤ b.numLayers ∧
    a.numSymbols ≤ b.numSymbols

instance (a b : Allocation) : Decidable (a ≤ b) :=
  inferInstanceAs (Decidable (_ ∧ _))

/-- The allocations of a carrier, with at least 64 information bits. -/
structure InRange (a : Allocation) : Prop where
  mcs_le : a.mcs ≤ 28
  rbs_pos : 1 ≤ a.numRbs
  rbs_le : a.numRbs ≤ 273
  layers_pos : 1 ≤ a.numLayers
  layers_le : a.numLayers ≤ 8
  two_le_symbols : 2 ≤ a.numSymbols
  symbols_le : a.numSymbols ≤ 14
  bits : 64 ≤ a.infoBits

instance (a : Allocation) : Decidable a.InRange :=
  decidable_of_iff (a.mcs ≤ 28 ∧ 1 ≤ a.numRbs ∧ a.numRbs ≤ 273 ∧ 1 ≤ a.numLayers ∧
      a.numLayers ≤ 8 ∧ 2 ≤ a.numSymbols ∧ a.numSymbols ≤ 14 ∧ 64 ≤ a.infoBits)
    ⟨fun h ↦ ⟨h.1, h.2.1, h.2.2.1, h.2.2.2.1, h.2.2.2.2.1, h.2.2.2.2.2.1, h.2.2.2.2.2.2.1,
        h.2.2.2.2.2.2.2⟩,
      fun h ↦ ⟨h.1, h.2, h.3, h.4, h.5, h.6, h.7, h.8⟩⟩

variable {a b : Allocation}

theorem InRange.isValid (ha : a.InRange) : a.IsValid :=
  ⟨ha.mcs_le, ha.rbs_pos, ha.layers_pos, by have := ha.two_le_symbols; omega, ha.symbols_le⟩

theorem scaledBits_le_scaledBits (hab : a ≤ b) (hb : b.mcs ≤ 28) :
    a.scaledBits ≤ b.scaledBits := by
  obtain ⟨hmcs, hrbs, hlayers, hsymbols⟩ := hab
  have heff := Platform.spectralEff_le_spectralEff hmcs hb
  have hre : min (12 * a.numSymbols - 12) 156 ≤ min (12 * b.numSymbols - 12) 156 := by omega
  simp only [scaledBits]
  gcongr

theorem InRange.scaledBits_lt (ha : a.InRange) : a.scaledBits < 2 ^ 32 := by
  have hre : min (12 * a.numSymbols - 12) 156 ≤ 156 := Nat.min_le_right _ _
  have heff := (Platform.spectralEff_bounds ha.mcs_le).2
  have hrbs := ha.rbs_le
  have hlayers := ha.layers_le
  calc a.scaledBits ≤ 156 * 273 * 2165 * 8 := by
        simp only [scaledBits]
        gcongr
    _ < 2 ^ 32 := by decide

theorem InRange.lookup_eq (ha : a.InRange) (P : Platform) : a.lookup P = bytes a.infoBits := by
  refine P.lookup_eq ha.isValid ?_ ha.scaledBits_lt
  have hbits := ha.bits
  simp only [infoBits] at hbits
  omega

/-- More resources or a higher MCS give a transport block that is no smaller, unless the
information bits drop across 3824. -/
theorem lookup_le_lookup_iff (P : Platform) (ha : a.InRange) (hb : b.InRange) (hab : a ≤ b) :
    a.lookup P ≤ b.lookup P ↔ ¬ Drops a.infoBits b.infoBits := by
  have hbits : a.infoBits ≤ b.infoBits :=
    Nat.div_le_div_right (scaledBits_le_scaledBits hab hb.mcs_le)
  rw [ha.lookup_eq P, hb.lookup_eq P]
  exact bytes_le_bytes_iff ha.bits hbits

theorem lookup_le_lookup_plain : (⟨5, 10, 1, 12⟩ : Allocation).lookup .plain ≤
    (⟨6, 10, 2, 12⟩ : Allocation).lookup .plain :=
  (lookup_le_lookup_iff .plain (by decide) (by decide) (by decide)).mpr (by decide)

/-- At MCS 16 and 12 symbols, 23 blocks carry 460 bytes and 24 blocks carry 118. -/
theorem not_lookup_le_lookup : ¬ ∀ (P : Platform) (a b : Allocation), a.InRange → b.InRange →
    a ≤ b → a.lookup P ≤ b.lookup P := by
  intro h
  have hle := h .plain ⟨16, 23, 1, 12⟩ ⟨16, 24, 1, 12⟩ (by decide) (by decide) (by decide)
  revert hle
  decide

/-! ## Definedness -/

/-- What is not defined for the numbers of the size formula. -/
inductive ArithmeticFault
  | productOverflow
  | log2OfZero
  | negativeToUnsigned
  | oversizeShift
  deriving DecidableEq, Repr

/-- The conversion of `floor(log2(x)) - offset` to an unsigned number. -/
def floorLog2Sub (x offset : ℕ) : Except ArithmeticFault ℕ :=
  if x = 0 then .error .log2OfZero
  else if x.log2 < offset then .error .negativeToUnsigned
  else .ok (x.log2 - offset)

def clearLowChecked (x n : ℕ) : Except ArithmeticFault ℕ :=
  if 32 ≤ n then .error .oversizeShift else .ok ((x >>> n) <<< n)

def quantizeSmallChecked (nInfo : ℕ) : Except ArithmeticFault ℕ := do
  let n ← floorLog2Sub nInfo 6
  let bits ← clearLowChecked nInfo (max 3 n)
  return (max 24 bits + 7) / 8

def quantizeLargeChecked (nInfo : ℕ) : Except ArithmeticFault ℕ := do
  let n ← floorLog2Sub (nInfo - 24) 5
  let bits ← clearLowChecked (nInfo - 24) n
  let nInfoPrime := max 3840 bits
  let tbs :=
    if nInfoPrime < 8424 then 8 * ((nInfoPrime + 24 + 31) / 32) - 24
    else
      let c := (nInfoPrime + 24 + 8423) / 8424
      8 * c * ((nInfoPrime + 24) / (8 * c) + 1) - 24
  return (tbs + 7) / 8

/-- `tbs_table_lookup` with an error in the place of each step that is not defined. -/
def lookupChecked (a : Allocation) : Except ArithmeticFault ℕ :=
  if a.mcs > 28 then .ok 0
  else if a.numRbs = 0 ∨ a.numLayers = 0 then .ok 0
  else if 2 ^ 32 ≤ a.scaledBits then .error .productOverflow
  else if a.infoBits ≤ 3824 then quantizeSmallChecked a.infoBits
  else quantizeLargeChecked a.infoBits

theorem clearLowChecked_eq (P : Platform) {x n : ℕ} (hx : x < 2 ^ 32) (hn : n < 32) :
    clearLowChecked x n = .ok (P.clearLow x n) := by
  have hle : (x >>> n) <<< n ≤ x := by
    rw [Nat.shiftLeft_eq, Nat.shiftRight_eq_div_pow]
    exact Nat.div_mul_le_self x _
  rw [clearLowChecked, if_neg (by omega), Platform.clearLow, if_pos hn,
    Nat.mod_eq_of_lt (hle.trans_lt hx)]

/-- A small block is defined from 64 bits on. -/
theorem quantizeSmallChecked_eq (P : Platform) {nInfo : ℕ} (h : nInfo ≤ 3824) :
    quantizeSmallChecked nInfo =
      if nInfo = 0 then .error .log2OfZero
      else if nInfo < 64 then .error .negativeToUnsigned else .ok (P.quantizeSmall nInfo) := by
  by_cases hzero : nInfo = 0
  · simp [quantizeSmallChecked, floorLog2Sub, hzero, bind, Except.bind]
  by_cases hsmall : nInfo < 64
  · have hlength : nInfo.log2 < 6 := (Nat.log2_lt hzero).mpr hsmall
    simp [quantizeSmallChecked, floorLog2Sub, hzero, hlength, hsmall, bind, Except.bind]
  · have hlength : 6 ≤ nInfo.log2 := (Nat.le_log2 hzero).mpr (by omega)
    have hlength' : nInfo.log2 < 12 := (Nat.log2_lt hzero).mpr (by omega)
    have hsub : floorLog2Sub nInfo 6 = .ok (nInfo.log2 - 6) := by
      rw [floorLog2Sub, if_neg hzero, if_neg (by omega)]
    have hclear : clearLowChecked nInfo (max 3 (nInfo.log2 - 6)) =
        .ok (P.clearLow nInfo (max 3 (nInfo.log2 - 6))) :=
      clearLowChecked_eq P (by omega) (by omega)
    simp only [quantizeSmallChecked, hsub, hclear, hzero, hsmall, Platform.quantizeSmall,
      if_false, bind, Except.bind, pure, Except.pure]

/-- A large block is always defined. -/
theorem quantizeLargeChecked_eq (P : Platform) {nInfo : ℕ} (hlow : 3824 < nInfo)
    (hhigh : nInfo < 2 ^ 32) : quantizeLargeChecked nInfo = .ok (P.quantizeLarge nInfo) := by
  have hlength : 5 ≤ (nInfo - 24).log2 := (Nat.le_log2 (by omega)).mpr (by omega)
  have hlength' : (nInfo - 24).log2 < 32 := (Nat.log2_lt (by omega)).mpr (by omega)
  have hsub : floorLog2Sub (nInfo - 24) 5 = .ok ((nInfo - 24).log2 - 5) := by
    rw [floorLog2Sub, if_neg (by omega), if_neg (by omega)]
  have hclear : clearLowChecked (nInfo - 24) ((nInfo - 24).log2 - 5) =
      .ok (P.clearLow (nInfo - 24) ((nInfo - 24).log2 - 5)) :=
    clearLowChecked_eq P (by omega) (by omega)
  simp only [quantizeLargeChecked, hsub, hclear, Platform.quantizeLarge, bind, Except.bind, pure,
    Except.pure]

/-- Which step fails, and that without a failure no platform has a choice. -/
theorem lookupChecked_eq (P : Platform) (ha : a.IsValid) :
    a.lookupChecked =
      if 2 ^ 32 ≤ a.scaledBits then .error .productOverflow
      else if a.infoBits = 0 then .error .log2OfZero
      else if a.infoBits < 64 then .error .negativeToUnsigned else .ok (a.lookup P) := by
  have hmcs := ha.mcs_le
  have hrbs := ha.rbs_pos
  have hlayers := ha.layers_pos
  rw [lookupChecked, if_neg (by omega), if_neg (by omega)]
  by_cases hover : 2 ^ 32 ≤ a.scaledBits
  · simp only [if_pos hover]
  have hlt : a.infoBits < 2 ^ 32 := by
    rw [infoBits]
    omega
  have hlookup : 64 ≤ a.infoBits → a.lookup P = bytes a.infoBits := by
    intro hbits
    refine P.lookup_eq ha ?_ (not_le.mp hover)
    rw [infoBits] at hbits
    omega
  simp only [if_neg hover]
  by_cases hsmall : a.infoBits ≤ 3824
  · rw [if_pos hsmall, quantizeSmallChecked_eq P hsmall]
    by_cases hbits : 64 ≤ a.infoBits
    · rw [hlookup hbits, bytes, if_pos hsmall, P.quantizeSmall_eq hbits hsmall]
    · simp only [not_le.mp hbits, if_true]
  · rw [if_neg hsmall, if_neg (by omega), if_neg (by omega), hlookup (by omega), bytes,
      if_neg hsmall, quantizeLargeChecked_eq P (by omega) hlt,
      P.quantizeLarge_eq (by omega) hlt]

example : (⟨0, 1, 1, 1⟩ : Allocation).lookupChecked = .error .log2OfZero := by decide

example : (⟨28, 273, 255, 14⟩ : Allocation).lookupChecked = .error .productOverflow := by
  decide

/-- The size is defined exactly if `12 * numSymbols - 12` resource elements in a block, at most
156, times blocks, efficiency and layers make at least 64 times 1024 and fit 32 bits. -/
theorem isDefined_lookup_iff (ha : a.IsValid) :
    (∃ size, a.lookupChecked = .ok size) ↔ 2 ^ 16 ≤ a.scaledBits ∧ a.scaledBits < 2 ^ 32 := by
  have hbits : a.infoBits = a.scaledBits / 1024 := by rw [infoBits]
  rw [lookupChecked_eq .plain ha]
  split_ifs with hover hzero hsmall
  · simp only [exists_false, false_iff]
    omega
  · simp only [exists_false, false_iff]
    omega
  · simp only [exists_false, false_iff]
    omega
  · simp only [Except.ok.injEq, exists_eq', true_iff]
    omega

theorem isDefined_lookup_ten : ∃ size, (⟨0, 10, 1, 12⟩ : Allocation).lookupChecked = .ok size :=
  (isDefined_lookup_iff (by decide)).mpr (by decide)

/-- One block at MCS 0 has 15 information bits, and `floor(log2(15)) - 6` is negative. -/
theorem not_isDefined_lookup : ¬ ∀ a : Allocation, a.IsValid → a.numRbs ≤ 273 →
    a.numLayers ≤ 255 → ∃ size, a.lookupChecked = .ok size := by
  intro h
  have hsmall : (⟨0, 1, 1, 12⟩ : Allocation).lookupChecked = .error .negativeToUnsigned := by
    decide +kernel
  obtain ⟨size, hsize⟩ := h ⟨0, 1, 1, 12⟩ (by decide) (by decide) (by decide)
  simp [hsmall] at hsize

end Allocation

end NrScheduler
