import NrScheduler.Engine.Policy
import NrScheduler.Lib.ScaledMax

/-!
# The boost and the order of the channels

The boost of a user is a maximum over its logical channels that guaranteed channels multiply
on the way.  In exact arithmetic the order of the hash map is seen in it wherever a
guaranteed channel is less important than another channel that boosts at all.
-/

namespace NrScheduler

namespace QosAwarePolicy

def lcBoost (lc : LogicalChannelConfig) : ℚ := 17 / (lc.priority + 1 : ℕ)

def isGbr (lc : LogicalChannelConfig) : Bool :=
  lc.qosParams.any fun q ↦ decide (q.characteristics.resourceType = .gbr)

def gbrFactor (lc : LogicalChannelConfig) : ℚ := if isGbr lc then 3 / 2 else 1

/-- The channels of a user, as a list in some order. -/
def channels (ue : UeContext) : List LogicalChannelConfig :=
  ue.logicalChannels.entries.map Sigma.snd

/-- No channel is more important than priority 16, or none is more important than a
guaranteed one; small numbers are important. -/
def GbrFirst (ue : UeContext) : Prop :=
  (∀ lc ∈ channels ue, 16 ≤ lc.priority) ∨
    ∀ lc ∈ channels ue, isGbr lc = true → ∀ lc' ∈ channels ue, lc.priority ≤ lc'.priority

instance (ue : UeContext) : Decidable (GbrFirst ue) := inferInstanceAs (Decidable (_ ∨ _))

theorem boostStep_eq (b : ℚ) (lc : LogicalChannelConfig) :
    boostStep b lc = ScaledMax.step lcBoost gbrFactor b lc := by
  have hmax : Double.max b (lcBoost lc) = max b (lcBoost lc) := by
    rw [Double.max, max_def_lt]
    exact if_congr decide_eq_true_iff rfl rfl
  rw [ScaledMax.step, ← hmax]
  obtain ⟨lcId, priority, qosParams⟩ := lc
  cases qosParams with
  | none => exact (mul_one _).symm
  | some q =>
      simp only [boostStep, gbrFactor, isGbr, Option.any_some, decide_eq_true_eq]
      by_cases hgbr : q.characteristics.resourceType = .gbr
      · rw [if_pos hgbr, if_pos hgbr]
        rfl
      · rw [if_neg hgbr, if_neg hgbr]
        exact (mul_one _).symm

theorem lcBoost_le_iff (lc lc' : LogicalChannelConfig) :
    lcBoost lc ≤ lcBoost lc' ↔ lc'.priority ≤ lc.priority := by
  have hpos : ∀ n : ℕ, (0 : ℚ) < (n + 1 : ℕ) := fun n ↦ Nat.cast_pos.mpr n.succ_pos
  rw [lcBoost, lcBoost, div_le_div_iff_of_pos_left (by norm_num) (hpos _) (hpos _), Nat.cast_le,
    Nat.succ_le_succ_iff]

theorem lcBoost_le_one_iff (lc : LogicalChannelConfig) : lcBoost lc ≤ 1 ↔ 16 ≤ lc.priority := by
  have hpos : (0 : ℚ) < (lc.priority + 1 : ℕ) := Nat.cast_pos.mpr lc.priority.succ_pos
  rw [lcBoost, div_le_one hpos, ← Nat.cast_ofNat, Nat.cast_le]
  exact Nat.succ_le_succ_iff

theorem one_lt_gbrFactor_iff (lc : LogicalChannelConfig) :
    1 < gbrFactor lc ↔ isGbr lc = true := by
  rw [gbrFactor]
  split
  · rename_i h
    exact iff_of_true (by norm_num) h
  · rename_i h
    exact iff_of_false (lt_irrefl 1) h

theorem one_le_gbrFactor (lc : LogicalChannelConfig) : 1 ≤ gbrFactor lc := by
  rw [gbrFactor]
  split <;> norm_num

theorem qosBoost_eq (P : Platform) (ue : UeContext) :
    qosBoost P ue = (P.hashOrder ue.logicalChannels.entries).foldl
      (ScaledMax.step (fun e ↦ lcBoost e.2) fun e ↦ gbrFactor e.2) 1 := by
  rw [qosBoost]
  simp only [boostStep_eq]
  rw [show (Double.ofNat 1 : ℚ) = 1 from Nat.cast_one]
  rfl

/-- The boost of a user is the same for every order of the channels exactly if no channel
is more important than priority 16, or none is more important than a guaranteed one. -/
theorem qosBoost_order_iff (ue : UeContext) :
    (∀ P P' : Platform, (qosBoost P ue : ℚ) = qosBoost P' ue) ↔ GbrFirst ue := by
  have hfactor : ∀ e ∈ ue.logicalChannels.entries, 1 ≤ gbrFactor e.2 :=
    fun e _ ↦ one_le_gbrFactor e.2
  have hperm := ScaledMax.foldl_perm_iff (fun e ↦ lcBoost e.2) hfactor zero_le_one
  simp only [lcBoost_le_one_iff, lcBoost_le_iff, one_lt_gbrFactor_iff] at hperm
  simp only [GbrFirst, channels, List.forall_mem_map]
  rw [← hperm]
  constructor
  · intro hsame entries hentries
    -- every order of the channels is that of some platform, and so is the given one
    obtain ⟨P, hP⟩ := Platform.exists_hashOrder_eq .plain hentries
    obtain ⟨P', hP'⟩ := Platform.exists_hashOrder_eq .plain
      (List.Perm.refl ue.logicalChannels.entries)
    have hboost := hsame P P'
    rwa [qosBoost_eq, qosBoost_eq, hP, hP'] at hboost
  · intro hsame P P'
    rw [qosBoost_eq, qosBoost_eq, hsame _ (P.hashOrder_perm _), hsame _ (P'.hashOrder_perm _)]

/-- A user with a signalling bearer of priority 1 and a guaranteed bearer of priority 16. -/
def signallingAndVoice : UeContext :=
  { ptr := (1, 0), rnti := 7, ueId := 1
    logicalChannels := (AList.insert 2
      { lcId := 2, priority := 16, qosParams := some ⟨1, ⟨.gbr, 20, 100⟩, 64000, 64000, 0, 0⟩ }
      ∅).insert 1 { lcId := 1, priority := 1 } }

/-- Visited last, the guaranteed bearer multiplies the boost of the other one; visited first,
its factor is lost. -/
theorem qosBoost_of_two_orders :
    qosBoost .plain signallingAndVoice = (51 / 4 : ℚ) ∧
      qosBoost { Platform.plain with
        hashOrder := List.reverse
        hashOrder_perm := List.reverse_perm } signallingAndVoice = (17 / 2 : ℚ) := by
  decide +kernel

end QosAwarePolicy

end NrScheduler
