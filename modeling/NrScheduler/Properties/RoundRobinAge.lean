import NrScheduler.Engine.RoundRobinHistory
import NrScheduler.Lib.Runs

/-!
# The ages of the round robin policy

The priority of a user is to be the number of slots since its last update.  The policy
subtracts absolute slot numbers, which start over with the frame numbers, so an age is
right until the frame numbers wrap, and in the billions from then to the next update.
-/

namespace NrScheduler

open FrameTiming Runs

/-! ## Runs of the policy -/

inductive PolicyCall where
  | onSlotStart (timing : FrameTiming)
  | updateHistory (ue : UeContext)

/-- A policy with the slot it is in and the updates it has seen. -/
structure ClockedPolicy where
  policy : RoundRobinPolicy
  now : ℕ
  updates : List Update

namespace ClockedPolicy

def start (timing : FrameTiming) (n : ℕ) : ClockedPolicy :=
  ⟨({} : RoundRobinPolicy).onSlotStart timing, n, []⟩

/-- Slots start one after the other. -/
def next (slotsPerFrame : ℕ) (s : ClockedPolicy) : PolicyCall → Option ClockedPolicy
  | .onSlotStart timing =>
      if timing.IsAt slotsPerFrame (s.now + 1) then
        some { s with policy := s.policy.onSlotStart timing, now := s.now + 1 }
      else none
  | .updateHistory ue =>
      some { s with
        policy := s.policy.updateHistory ue
        updates := ⟨ue.ptr, ue.rnti, s.now⟩ :: s.updates }

def Tracks (s : ClockedPolicy) (slotsPerFrame : ℕ) : Prop :=
  s.policy.Tracks slotsPerFrame s.now s.updates

theorem Tracks.next {slotsPerFrame : ℕ} {s s' : ClockedPolicy} {call : PolicyCall}
    (h : s.Tracks slotsPerFrame) (hnext : s.next slotsPerFrame call = some s') :
    s'.Tracks slotsPerFrame := by
  cases call with
  | onSlotStart timing =>
      obtain ⟨ht, hs'⟩ := Option.ite_none_right_eq_some.mp hnext
      obtain rfl := Option.some.inj hs'
      exact RoundRobinPolicy.Tracks.onSlotStart h ht (Nat.le_succ _)
  | updateHistory ue =>
      obtain rfl := Option.some.inj hnext
      exact RoundRobinPolicy.Tracks.updateHistory h ue

/-! ## True ages -/

/-- The priority of every user with data that was updated less than a cycle ago is the
number of slots since then. -/
def TrueAges (D : Type) [Double D] (slotsPerFrame : ℕ) (s : ClockedPolicy) : Prop :=
  ∀ (ue : UeContext) (isDl : Bool) (last : ℕ), ue.buffer isDl ≠ 0 →
    lastUpdate s.updates ue.rnti = some last → s.now < last + cycle slotsPerFrame →
      (s.policy.calculatePriority ue isDl : D) = Double.ofNat (s.now - last)

/-- The frame numbers have not wrapped since any last update that is less than a cycle ago. -/
def NotWrapped (slotsPerFrame : ℕ) (s : ClockedPolicy) : Prop :=
  ∀ u ∈ s.updates, lastUpdate s.updates u.rnti = some u.slot →
    s.now < u.slot + cycle slotsPerFrame →
      s.now / cycle slotsPerFrame = u.slot / cycle slotsPerFrame

instance (slotsPerFrame : ℕ) (s : ClockedPolicy) : Decidable (s.NotWrapped slotsPerFrame) := by
  unfold NotWrapped
  infer_instance

variable {D : Type} [ExactDouble D] {slotsPerFrame : ℕ} {s : ClockedPolicy}

/-- The priority of a user is its age exactly if no wrap lies between. -/
theorem calculatePriority_eq_age_iff (h : s.Tracks slotsPerFrame) (hspf : slotsPerFrame < 2 ^ 16)
    {ue : UeContext} {isDl : Bool} {last : ℕ} (hbuffer : ue.buffer isDl ≠ 0)
    (hlast : lastUpdate s.updates ue.rnti = some last)
    (hrecent : s.now < last + cycle slotsPerFrame) :
    (s.policy.calculatePriority ue isDl : D) = Double.ofNat (s.now - last) ↔
      s.now / cycle slotsPerFrame = last / cycle slotsPerFrame := by
  have hcycle := cycle_le hspf
  have hage : wrappedAge (cycle slotsPerFrame) s.now last < 2 ^ 53 :=
    wrappedAge_lt.trans (by decide)
  have hpriority : (s.policy.calculatePriority ue isDl : D) =
      Double.ofNat (wrappedAge (cycle slotsPerFrame) s.now last) := by
    rw [RoundRobinPolicy.Tracks.calculatePriority_eq h hbuffer, hlast]
  rw [hpriority, ExactDouble.ofNat_inj hage (by omega)]
  exact wrappedAge_eq_iff hcycle (RoundRobinPolicy.Tracks.last_le h hlast) hrecent

/-- A user with one byte to send in the downlink. -/
def sender (rnti : Rnti) : UeContext :=
  { ptr := (1, 0), rnti := rnti, ueId := 1, dlBufferBytes := AList.singleton 0 1 }

theorem buffer_sender (rnti : Rnti) : (sender rnti).buffer true = 1 := rfl

theorem trueAges_iff_notWrapped (h : s.Tracks slotsPerFrame) (hspf : slotsPerFrame < 2 ^ 16) :
    s.TrueAges D slotsPerFrame ↔ s.NotWrapped slotsPerFrame := by
  constructor
  · intro hages u _ hlast hrecent
    have hbuffer : (sender u.rnti).buffer true ≠ 0 := by
      rw [buffer_sender]
      exact Nat.one_ne_zero
    apply (calculatePriority_eq_age_iff (D := D) h hspf hbuffer hlast hrecent).mp
    exact hages (sender u.rnti) true u.slot hbuffer hlast hrecent
  · intro hsame ue isDl last hbuffer hlast hrecent
    apply (calculatePriority_eq_age_iff h hspf hbuffer hlast hrecent).mpr
    obtain ⟨u, hu, hrnti, rfl⟩ := mem_of_lastUpdate hlast
    rw [← hrnti] at hlast
    exact hsame u hu hlast hrecent

/-- In a run of the policy all ages are true exactly if no slot is reached in which the frame
numbers have wrapped since the last update of a user. -/
theorem trueAges_iff (hspf : slotsPerFrame < 2 ^ 16) {timing : FrameTiming} {n : ℕ}
    (ht : timing.IsAt slotsPerFrame n) (calls : List PolicyCall) :
    Always (next slotsPerFrame) (fun _ _ s' ↦ s'.TrueAges D slotsPerFrame) (start timing n)
        calls ↔
      Always (next slotsPerFrame) (fun _ _ s' ↦ s'.NotWrapped slotsPerFrame) (start timing n)
        calls := by
  have hstart : (start timing n).Tracks slotsPerFrame := RoundRobinPolicy.tracks_start ht
  apply always_iff (Tracks · slotsPerFrame) _ hstart
  intro s call s' hs hnext
  have hs' := hs.next hnext
  exact ⟨trueAges_iff_notWrapped hs' hspf, fun _ ↦ hs'⟩

/-- Three slots of the first frame, with an update in the second one. -/
theorem trueAges_firstFrame :
    Always (next 10) (fun _ _ s' ↦ s'.TrueAges ℚ 10) (start {} 0)
      [.onSlotStart { slot := 1 }, .updateHistory (sender 7), .onSlotStart { slot := 2 }] :=
  (trueAges_iff (by decide) (by decide) _).mpr (by decide +kernel)

/-- One slot after an update in the last slot before the wrap the age is that of billions of
slots. -/
theorem not_trueAges :
    ({ sfn := 1023, slot := 9 } : FrameTiming).IsAt 10 10239 ∧
      ¬ Always (next 10) (fun _ _ s' ↦ s'.TrueAges ℚ 10) (start { sfn := 1023, slot := 9 } 10239)
        [.updateHistory (sender 7), .onSlotStart {}] := by
  refine ⟨by decide, fun h ↦ ?_⟩
  obtain ⟨_, hrest⟩ := h _ rfl
  obtain ⟨hages, _⟩ := hrest _ rfl
  have hage : (4294957057 : ℚ) = 1 :=
    hages (sender 7) true 10239 (by decide) rfl (by decide)
  exact absurd hage (by decide +kernel)

end ClockedPolicy

end NrScheduler
