import NrScheduler.Lib.Runs
import NrScheduler.Services.QosEngine

/-!
# The rate limit of a token bucket

The size of a bucket is computed in bytes, and its tokens are compared with bytes, but a
refill adds a token for each bit.  A flow stays within its rate where the excess of every
refill is cut off by the size of the bucket.
-/

namespace NrScheduler

namespace TokenBucket

/-- The calls on a bucket. -/
inductive Call where
  | update
  | consume (bytes : ℤ)
  deriving DecidableEq, Repr

/-- A bucket, the time of the last call and the bytes consumed so far. -/
structure Meter where
  bucket : TokenBucket
  now : ℕ
  consumed : ℤ := 0
  deriving DecidableEq, Repr

namespace Meter

/-- The next call comes after a delay, so times never decrease. -/
def next (m : Meter) : ℕ × Call → Option Meter
  | (delay, .update) => some { m with
      bucket := m.bucket.update (m.now + delay)
      now := m.now + delay }
  | (delay, .consume bytes) => some {
      bucket := (m.bucket.consume bytes).2
      now := m.now + delay
      consumed := if (m.bucket.consume bytes).1 then m.consumed + bytes else m.consumed }

/-- The bytes consumed since `start` are at most the size of the bucket and what the rate
of `mbr` bits a second allows in the meantime. -/
def WithinRate (start mbr : ℕ) (m : Meter) : Prop :=
  8 * 10 ^ 6 * m.consumed ≤ 8 * 10 ^ 6 * m.bucket.bucketSize + mbr * (m.now - start)

/-- An update finds the flow at or below its rate, or refills the bucket to no more tokens
than its rate leaves.  The refill is computed in 64 bits. -/
def RefillFits (start mbr : ℕ) (m : Meter) : ℕ × Call → Prop
  | (delay, .update) =>
      let allowance : ℤ := mbr * (m.now + delay - start)
      let elapsed : ℤ := m.now + delay - m.bucket.lastUpdate
      let credit := (toInt64 (m.bucket.fillRateBps * elapsed)).tdiv 1000000
      8 * 10 ^ 6 * m.consumed ≤ allowance ∨
        8 * 10 ^ 6 * (m.consumed + toInt64 (m.bucket.tokens + credit)) ≤
          8 * 10 ^ 6 * m.bucket.bucketSize + allowance
  | (_, .consume _) => True

instance (start mbr : ℕ) (m : Meter) : Decidable (m.WithinRate start mbr) :=
  inferInstanceAs (Decidable (_ ≤ _))

instance (start mbr : ℕ) (m : Meter) (i : ℕ × Call) : Decidable (m.RefillFits start mbr i) := by
  obtain ⟨delay, call⟩ := i
  cases call with
  | update => exact inferInstanceAs (Decidable (_ ∨ _))
  | consume bytes => exact isTrue trivial

/-- With the tokens left in the bucket, the flow would still be within its rate. -/
structure Covered (start mbr : ℕ) (m : Meter) : Prop where
  started : start ≤ m.now
  consumed : m.WithinRate start mbr
  tokens : 8 * 10 ^ 6 * (m.consumed + m.bucket.tokens) ≤
    8 * 10 ^ 6 * m.bucket.bucketSize + mbr * (m.now - start)

theorem allowance_mono {start mbr now delay : ℕ} :
    (mbr : ℤ) * (now - start) ≤ mbr * (now + delay - start) :=
  Int.mul_le_mul_of_nonneg_left (by omega) (by omega)

theorem Covered.next {start mbr : ℕ} {m m' : Meter} {i : ℕ × Call} (h : m.Covered start mbr)
    (hnext : m.next i = some m') (hfits : m.RefillFits start mbr i) : m'.Covered start mbr := by
  obtain ⟨hstarted, hconsumed, htokens⟩ := h
  obtain ⟨delay, call⟩ := i
  have hmono := @allowance_mono start mbr m.now delay
  cases call with
  | update =>
      cases hnext
      refine ⟨by dsimp only; omega, ?_, ?_⟩
      · simp only [WithinRate, TokenBucket.update] at hconsumed ⊢
        push_cast
        omega
      · simp only [RefillFits, TokenBucket.update] at hfits ⊢
        push_cast
        omega
  | consume bytes =>
      cases hnext
      simp only [WithinRate] at hconsumed
      by_cases henough : bytes ≤ m.bucket.tokens
      · have hwrap : toInt64 (m.bucket.tokens - bytes) ≤ m.bucket.tokens - bytes :=
          toInt64_le (by omega)
        refine ⟨by dsimp only; omega, ?_, ?_⟩
        · simp only [WithinRate, TokenBucket.consume, if_pos henough]
          push_cast
          omega
        · simp only [TokenBucket.consume, if_pos henough]
          push_cast
          omega
      · refine ⟨by dsimp only; omega, ?_, ?_⟩
        · simp only [WithinRate, TokenBucket.consume, if_neg henough]
          push_cast
          omega
        · simp only [TokenBucket.consume, if_neg henough]
          push_cast
          omega

/-- The condition is exact for an update: if the refill does not fit, the flow exceeds its
rate by consuming what the bucket then holds. -/
theorem not_withinRate_of_drained {start mbr delay : ℕ} {m m₁ m₂ : Meter}
    (hupdate : m.next (delay, .update) = some m₁)
    (hdrain : m₁.next (0, .consume m₁.bucket.tokens) = some m₂)
    (hfits : ¬ m.RefillFits start mbr (delay, .update)) : ¬ m₂.WithinRate start mbr := by
  cases hupdate
  cases hdrain
  simp only [RefillFits] at hfits
  simp only [WithinRate, TokenBucket.update, TokenBucket.consume, le_refl, if_true, Nat.add_zero]
  push_cast
  omega

theorem covered_full (rateBps depthMs start mbr : ℕ) :
    Covered start mbr ⟨.full rateBps depthMs start, start, 0⟩ where
  started := le_rfl
  consumed := by
    simp only [WithinRate, full]
    omega
  tokens := by
    simp only [full]
    omega

end Meter

end TokenBucket

def QosFlowParams.mbrBps (params : QosFlowParams) (isDl : Bool) : ℕ :=
  if isDl then params.mbrDlBps else params.mbrUlBps

namespace QosEngine

open TokenBucket

variable {D : Type}

theorem bucket_newFlow {config : QosEngineConfig D} {now : ℕ} {params : QosFlowParams}
    (h : params.characteristics.resourceType = .gbr ∨
      params.characteristics.resourceType = .delayC) (isDl : Bool) :
    (newFlow config now params).bucket isDl =
      .full (params.mbrBps isDl) config.tokenBucketDepthMs now := by
  cases isDl <;> simp [newFlow, QosFlowState.bucket, QosFlowParams.mbrBps, h]

/-- While all refills fit, a guaranteed or delay-critical flow consumes no more than the size
of its bucket and what its limit allows since it was registered. -/
theorem withinRate_of_refillFits (config : QosEngineConfig D) (start : ℕ)
    {params : QosFlowParams} (hkind : params.characteristics.resourceType = .gbr ∨
      params.characteristics.resourceType = .delayC) (isDl : Bool) {is : List (ℕ × Call)}
    (h : Runs.Always Meter.next (fun m i _ ↦ m.RefillFits start (params.mbrBps isDl) i)
      ⟨(newFlow config start params).bucket isDl, start, 0⟩ is) :
    Runs.Always Meter.next (fun _ _ m' ↦ m'.WithinRate start (params.mbrBps isDl))
      ⟨(newFlow config start params).bucket isDl, start, 0⟩ is := by
  rw [bucket_newFlow hkind] at h ⊢
  refine h.imp (Meter.Covered start (params.mbrBps isDl)) ?_ (Meter.covered_full _ _ _ _)
  intro m i m' hcovered hnext hfits
  have hcovered' := hcovered.next hnext hfits
  exact ⟨hcovered', hcovered'.consumed⟩

/-- A flow limited to one byte in a microsecond, with a bucket of 10000 bytes. -/
def byteAMicrosecond : QosFlowParams := ⟨1, ⟨.gbr, 20, 100⟩, 0, 0, 8000000, 8000000⟩

theorem withinRate_of_refillFits_slow :
    Runs.Always Meter.next (fun _ _ m' ↦ m'.WithinRate 0 (byteAMicrosecond.mbrBps true))
      ⟨(newFlow (.standard (D := ℚ)) 0 byteAMicrosecond).bucket true, 0, 0⟩
      [(0, .consume 100), (1000, .update), (0, .consume 500)] :=
  withinRate_of_refillFits .standard 0 (.inl rfl) true (by decide +kernel)

/-- The bucket is emptied, full again after an eighth of the time that takes, and emptied
again. -/
theorem not_withinRate : ¬ Runs.Always Meter.next
    (fun _ _ m' ↦ m'.WithinRate 0 (byteAMicrosecond.mbrBps true))
    ⟨(newFlow (.standard (D := ℚ)) 0 byteAMicrosecond).bucket true, 0, 0⟩
    [(0, .consume 10000), (1250, .update), (0, .consume 10000)] := by
  decide +kernel

end QosEngine

end NrScheduler
