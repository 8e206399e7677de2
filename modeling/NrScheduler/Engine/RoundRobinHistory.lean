import NrScheduler.Core.UnwrappedTime
import NrScheduler.Engine.Policy
import Mathlib.Data.Nat.ModEq

/-!
# The history behind the round robin policy

The policy keeps a wrapped slot number for each RNTI.  Behind it stands the list of all
updates in slots that are counted without wrapping; the age of a user is the difference of
two wrapped numbers in 32-bit arithmetic.
-/

namespace NrScheduler

open FrameTiming

/-! ## Updates -/

structure Update where
  ue : UePtr
  rnti : Rnti
  slot : ℕ
  deriving DecidableEq

/-- The slot of the last update of an RNTI, the updates being listed newest first. -/
def lastUpdate (updates : List Update) (rnti : Rnti) : Option ℕ :=
  (updates.find? fun u ↦ u.rnti == rnti).map Update.slot

theorem lastUpdate_cons (u : Update) (updates : List Update) (rnti : Rnti) :
    lastUpdate (u :: updates) rnti =
      if rnti = u.rnti then some u.slot else lastUpdate updates rnti := by
  rw [lastUpdate, List.find?_cons]
  by_cases hrnti : rnti = u.rnti
  · simp [hrnti]
  · have hne : (u.rnti == rnti) = false := beq_eq_false_iff_ne.mpr fun heq ↦ hrnti heq.symm
    rw [hne, if_neg hrnti]
    rfl

theorem mem_of_lastUpdate {updates : List Update} {rnti : Rnti} {last : ℕ}
    (h : lastUpdate updates rnti = some last) : ∃ u ∈ updates, u.rnti = rnti ∧ u.slot = last := by
  obtain ⟨u, hu, hslot⟩ := Option.map_eq_some_iff.mp h
  have hrnti := List.find?_some hu
  exact ⟨u, List.mem_of_find?_eq_some hu, beq_iff_eq.mp hrnti, hslot⟩

/-! ## Ages in 32-bit arithmetic -/

/-- The difference of two wrapped slot numbers, as the policy computes it. -/
def wrappedAge (cycle n last : ℕ) : ℕ := (n % cycle + 2 ^ 32 - last % cycle) % 2 ^ 32

variable {c n last : ℕ}

/-- A difference is right where both slots lie in one cycle, and is out of range otherwise. -/
theorem wrappedAge_of_recent (hc : c ≤ 2 ^ 31) (hle : last ≤ n) (hrecent : n < last + c) :
    wrappedAge c n last = if n / c = last / c then n - last else n - last + 2 ^ 32 - c := by
  have hpos : 0 < c := by omega
  have hn := Nat.div_add_mod n c
  have hlast := Nat.div_add_mod last c
  have hnmod := Nat.mod_lt n hpos
  have hlastmod := Nat.mod_lt last hpos
  rw [wrappedAge]
  by_cases hsame : n / c = last / c
  · rw [if_pos hsame]
    rw [hsame] at hn
    have hsub : n % c + 2 ^ 32 - last % c = n - last + 2 ^ 32 := by omega
    rw [hsub, Nat.add_mod_right]
    exact Nat.mod_eq_of_lt (by omega)
  · rw [if_neg hsame]
    have hnext : n / c = last / c + 1 := by
      have hquot := Nat.div_le_div_right (c := c) hle
      have hbound : n / c < last / c + 2 := by
        apply Nat.div_lt_of_lt_mul
        rw [Nat.mul_add]
        omega
      omega
    rw [hnext, Nat.mul_succ] at hn
    have hsub : n % c + 2 ^ 32 - last % c = n - last + 2 ^ 32 - c := by omega
    rw [hsub]
    exact Nat.mod_eq_of_lt (by omega)

theorem wrappedAge_eq_iff (hc : c ≤ 2 ^ 31) (hle : last ≤ n) (hrecent : n < last + c) :
    wrappedAge c n last = n - last ↔ n / c = last / c := by
  rw [wrappedAge_of_recent hc hle hrecent]
  constructor
  · intro hage
    by_contra hwrapped
    rw [if_neg hwrapped] at hage
    omega
  · exact fun hsame ↦ if_pos hsame

theorem wrappedAge_eq_zero_iff (hpos : 0 < c) (hc : c ≤ 2 ^ 31) (hle : last ≤ n) :
    wrappedAge c n last = 0 ↔ c ∣ n - last := by
  have hnmod := Nat.mod_lt n hpos
  have hlastmod := Nat.mod_lt last hpos
  rw [← Nat.modEq_iff_dvd' hle, wrappedAge, Nat.ModEq]
  omega

theorem wrappedAge_lt : wrappedAge c n last < 2 ^ 32 := Nat.mod_lt _ (by decide)

theorem cycle_le {slotsPerFrame : ℕ} (h : slotsPerFrame < 2 ^ 16) :
    cycle slotsPerFrame ≤ 2 ^ 31 := by
  rw [cycle, maxSfn]
  omega

/-! ## The policy -/

namespace RoundRobinPolicy

/-- The policy in the slot `n`, after the updates listed. -/
structure Tracks (p : RoundRobinPolicy) (slotsPerFrame n : ℕ) (updates : List Update) :
    Prop where
  currentSlot_eq : p.currentSlot = n % cycle slotsPerFrame
  lookup_eq : ∀ rnti, p.lastScheduled.lookup rnti =
    (lastUpdate updates rnti).map fun last ↦ last % cycle slotsPerFrame
  slot_le : ∀ u ∈ updates, u.slot ≤ n

variable {p : RoundRobinPolicy} {slotsPerFrame m : ℕ} {updates : List Update} {t : FrameTiming}

theorem tracks_start (ht : t.IsAt slotsPerFrame n) :
    (({} : RoundRobinPolicy).onSlotStart t).Tracks slotsPerFrame n [] where
  currentSlot_eq := ht.absoluteSlot_eq
  lookup_eq rnti := AList.lookup_empty rnti
  slot_le _ hu := absurd hu List.not_mem_nil

theorem Tracks.onSlotStart (h : p.Tracks slotsPerFrame n updates) (ht : t.IsAt slotsPerFrame m)
    (hle : n ≤ m) : (p.onSlotStart t).Tracks slotsPerFrame m updates where
  currentSlot_eq := ht.absoluteSlot_eq
  lookup_eq := h.lookup_eq
  slot_le u hu := (h.slot_le u hu).trans hle

theorem Tracks.updateHistory (h : p.Tracks slotsPerFrame n updates) (ue : UeContext) :
    (p.updateHistory ue).Tracks slotsPerFrame n (⟨ue.ptr, ue.rnti, n⟩ :: updates) where
  currentSlot_eq := h.currentSlot_eq
  lookup_eq rnti := by
    rw [lastUpdate_cons, RoundRobinPolicy.updateHistory]
    by_cases hrnti : rnti = ue.rnti
    · rw [if_pos hrnti, hrnti, AList.lookup_insert, h.currentSlot_eq]
      rfl
    · rw [if_neg hrnti, AList.lookup_insert_ne hrnti]
      exact h.lookup_eq rnti
  slot_le u hu := by
    rcases List.mem_cons.mp hu with rfl | hu
    · exact le_rfl
    · exact h.slot_le u hu

theorem Tracks.last_le (h : p.Tracks slotsPerFrame n updates) {rnti : Rnti}
    (hlast : lastUpdate updates rnti = some last) : last ≤ n := by
  obtain ⟨u, hu, _, rfl⟩ := mem_of_lastUpdate hlast
  exact h.slot_le u hu

variable {D : Type} [Double D]

theorem Tracks.calculatePriority_eq (h : p.Tracks slotsPerFrame n updates) {ue : UeContext}
    {isDl : Bool} (hbuffer : ue.buffer isDl ≠ 0) : (p.calculatePriority ue isDl : D) =
      match lastUpdate updates ue.rnti with
      | none => Double.ofNat 1000
      | some last => Double.ofNat (wrappedAge (cycle slotsPerFrame) n last) := by
  rw [calculatePriority, if_neg hbuffer, h.lookup_eq, h.currentSlot_eq]
  cases lastUpdate updates ue.rnti with
  | none => rfl
  | some last => rfl

/-- A priority is a whole number, and zero for a user that has no data or whose RNTI was last
updated a whole number of cycles ago. -/
theorem Tracks.exists_priority (h : p.Tracks slotsPerFrame n updates) (hpos : 0 < slotsPerFrame)
    (hspf : slotsPerFrame < 2 ^ 16) (ue : UeContext) (isDl : Bool) :
    ∃ k, (p.calculatePriority ue isDl : D) = Double.ofNat k ∧ k < 2 ^ 32 ∧
      (0 < k ↔ ue.buffer isDl ≠ 0 ∧
        ∀ last ∈ lastUpdate updates ue.rnti, ¬ cycle slotsPerFrame ∣ n - last) := by
  by_cases hbuffer : ue.buffer isDl = 0
  · exact ⟨0, if_pos hbuffer, by decide, by simp [hbuffer]⟩
  rw [h.calculatePriority_eq hbuffer]
  cases hlast : lastUpdate updates ue.rnti with
  | none => exact ⟨1000, rfl, by decide, by simp [hbuffer]⟩
  | some last =>
      have hcycle : 0 < cycle slotsPerFrame := Nat.mul_pos hpos (by decide)
      have hzero := wrappedAge_eq_zero_iff hcycle (cycle_le hspf) (h.last_le hlast)
      refine ⟨_, rfl, wrappedAge_lt, ?_⟩
      rw [Nat.pos_iff_ne_zero, ne_eq, hzero]
      simp [hbuffer]

end RoundRobinPolicy

end NrScheduler
