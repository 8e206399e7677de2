import Mathlib.Algebra.BigOperators.Ring.Finset
import NrScheduler.Lib.CappedSum
import NrScheduler.Services.QosSpec

/-!
# The refill of a token bucket

A refill truncates its credit to whole tokens and forgets the rest, so a bucket that is
updated more often may be refilled more slowly.  Its product has 64 bits, so a long wait may
take tokens away.  The two limits on the bytes of a transmission read the refilled tokens
differently once these are negative.
-/

namespace NrScheduler

open LockMonad

namespace TokenBucket

variable {b : TokenBucket} {d : ℕ} {delays : List ℕ}

/-- The tokens that a rate yields in a time: a product in 64 bits, truncated to whole tokens. -/
def credit (b : TokenBucket) (elapsed : ℤ) : ℤ := (toInt64 (b.fillRateBps * elapsed)).tdiv 1000000

theorem tokens_update (b : TokenBucket) (now : ℕ) : (b.update now).tokens =
    min (toInt64 (b.tokens + b.credit (now - b.lastUpdate))) b.bucketSize := rfl

/-! ## Polling -/

/-- Update a bucket after each of the delays. -/
def polls (b : TokenBucket) (delays : List ℕ) : TokenBucket :=
  delays.foldl (fun b delay ↦ b.update (b.lastUpdate + delay)) b

/-- The times of polls after each of the delays. -/
def pollTimes (start : ℕ) : List ℕ → List ℕ
  | [] => []
  | d :: delays => (start + d) :: pollTimes (start + d) delays

@[simp] theorem polls_cons (b : TokenBucket) (d : ℕ) (delays : List ℕ) :
    b.polls (d :: delays) = (b.update (b.lastUpdate + d)).polls delays := rfl

/-- Whatever the delays, only the tokens of a bucket can depend on them. -/
theorem polls_eq (b : TokenBucket) (delays : List ℕ) :
    b.polls delays = { b with
      tokens := (b.polls delays).tokens
      lastUpdate := b.lastUpdate + delays.sum } := by
  induction delays generalizing b with
  | nil => rfl
  | cons d delays ih =>
      rw [polls_cons, ih, List.sum_cons, ← Nat.add_assoc]
      rfl

theorem polls_eq_update_iff : b.polls delays = b.update (b.lastUpdate + delays.sum) ↔
    (b.polls delays).tokens = (b.update (b.lastUpdate + delays.sum)).tokens := by
  constructor
  · intro h
    rw [h]
  · intro h
    rw [polls_eq, h]
    rfl

/-! ### Sums that fit -/

/-- The sum of an update after a delay stays within its 64 bits. -/
def SumFits (b : TokenBucket) (d : ℕ) : Prop :=
  toInt64 (b.tokens + b.credit d) = b.tokens + b.credit d

/-- The sums of updates after each of the delays stay within their 64 bits. -/
def SumsFit : TokenBucket → List ℕ → Prop
  | _, [] => True
  | b, d :: delays => b.SumFits d ∧ SumsFit (b.update (b.lastUpdate + d)) delays

theorem tokens_update_add (b : TokenBucket) (d : ℕ) : (b.update (b.lastUpdate + d)).tokens =
    min (toInt64 (b.tokens + b.credit d)) b.bucketSize := by
  rw [tokens_update]
  congr 4
  push_cast
  omega

theorem SumFits.tokens_update (h : b.SumFits d) :
    (b.update (b.lastUpdate + d)).tokens = min (b.tokens + b.credit d) b.bucketSize := by
  rw [tokens_update_add, h]

theorem natAbs_credit (b : TokenBucket) (elapsed : ℤ) : (b.credit elapsed).natAbs =
    (toInt64 (b.fillRateBps * elapsed)).natAbs / 1000000 :=
  Int.natAbs_tdiv _ _

theorem natAbs_credit_lt (b : TokenBucket) (elapsed : ℤ) : (b.credit elapsed).natAbs < 2 ^ 44 := by
  have hlow : -(((2 ^ 64 : ℕ) : ℤ) / 2) ≤ toInt64 (b.fillRateBps * elapsed) :=
    Int.le_bmod (by decide)
  have hhigh : toInt64 (b.fillRateBps * elapsed) < (((2 ^ 64 : ℕ) : ℤ) + 1) / 2 :=
    Int.bmod_lt (by decide)
  rw [natAbs_credit]
  omega

/-- Only the sums of very full or very empty buckets overflow. -/
theorem sumFits_of_le (h : b.tokens.natAbs ≤ 2 ^ 62) (d : ℕ) : b.SumFits d := by
  have hcredit := b.natAbs_credit_lt d
  exact toInt64_of_fits (by omega) (by omega)

theorem sumsFit_of_nonneg (htokens : b.tokens.natAbs ≤ 2 ^ 62)
    (hsize : b.bucketSize.natAbs ≤ 2 ^ 62) (hcredits : ∀ d ∈ delays, 0 ≤ b.credit d) :
    b.SumsFit delays := by
  induction delays generalizing b with
  | nil => trivial
  | cons d delays ih =>
      obtain ⟨hcredit, hlater⟩ := List.forall_mem_cons.mp hcredits
      have hfits := sumFits_of_le htokens d
      refine ⟨hfits, ih ?_ hsize hlater⟩
      rw [hfits.tokens_update]
      omega

/-! ### Credits -/

/-- The credits of updates after each of the delays. -/
def credits (b : TokenBucket) (delays : List ℕ) : List ℤ := delays.map fun d : ℕ ↦ b.credit d

def polledCredit (b : TokenBucket) (delays : List ℕ) : ℤ := (b.credits delays).sum

/-- What the size of the bucket cuts off the credits. -/
def cutCredit (b : TokenBucket) (d : ℕ) (delays : List ℕ) : ℤ :=
  CappedSum.cut b.bucketSize b.tokens (b.credit d) (b.credits delays)

/-- While no sum overflows, the tokens are the sum of the credits under the size as a cap. -/
theorem tokens_polls (h : b.SumsFit delays) :
    (b.polls delays).tokens = CappedSum.run b.bucketSize b.tokens (b.credits delays) := by
  induction delays generalizing b with
  | nil => rfl
  | cons d delays ih =>
      obtain ⟨hfirst, hlater⟩ := h
      have hcredits : (b.update (b.lastUpdate + d)).credits delays = b.credits delays := rfl
      have hsize : (b.update (b.lastUpdate + d)).bucketSize = b.bucketSize := rfl
      rw [polls_cons, ih hlater, hcredits, hsize, hfirst.tokens_update]
      rfl

/-- Polling takes nothing from a bucket: the credits of the polls, less what the size cuts off
them, are the credit of one update, or both fill the bucket and no last credits are negative. -/
def PollsFreely (b : TokenBucket) (d : ℕ) (delays : List ℕ) : Prop :=
  b.polledCredit (d :: delays) - b.cutCredit d delays = b.credit (d :: delays).sum ∨
    CappedSum.lowestEnd (b.credits delays) = 0 ∧
      b.bucketSize ≤ b.tokens + b.polledCredit (d :: delays) ∧
      b.bucketSize ≤ b.tokens + b.credit (d :: delays).sum

instance (b : TokenBucket) (d : ℕ) (delays : List ℕ) : Decidable (b.PollsFreely d delays) :=
  inferInstanceAs (Decidable (_ ∨ _ ∧ _ ∧ _))

/-- Updates after several delays leave a bucket as one update after all of them does exactly
if they take nothing from it. -/
theorem polls_eq_update_iff_pollsFreely (hpolls : b.SumsFit (d :: delays))
    (hupdate : b.SumFits (d :: delays).sum) :
    b.polls (d :: delays) = b.update (b.lastUpdate + (d :: delays).sum) ↔
      b.PollsFreely d delays := by
  rw [polls_eq_update_iff, tokens_polls hpolls, hupdate.tokens_update]
  exact CappedSum.run_cons_eq_min_iff

/-- A thousand tokens a second, and a tick every half millisecond: the first millisecond
yields no token. -/
theorem polls_ne_update : (⟨0, 1, 1000, 0⟩ : TokenBucket).polls [500, 500] ≠
    (⟨0, 1, 1000, 0⟩ : TokenBucket).update 1000 := by
  decide

/-- Where every tick yields a whole number of tokens, ticks refill as one update does. -/
theorem polls_eq_update_wholeTokens : (⟨0, 100, 1000000, 0⟩ : TokenBucket).polls [30, 50] =
    (⟨0, 100, 1000000, 0⟩ : TokenBucket).update 80 :=
  (polls_eq_update_iff_pollsFreely (sumsFit_of_nonneg (by decide) (by decide) (by decide))
    (sumFits_of_le (by decide) _)).mpr (by decide)

/-! ### Rates that fit -/

/-- The tokens that the single updates round away, and one update for all does not. -/
def lostTokens (b : TokenBucket) (delays : List ℕ) : ℕ :=
  (delays.map fun d ↦ b.fillRateBps.toNat * d % 1000000).sum / 1000000

theorem sum_div_add_sum_mod (r m : ℕ) (hm : 0 < m) (l : List ℕ) :
    (l.map fun d ↦ r * d / m).sum + (l.map fun d ↦ r * d % m).sum / m = r * l.sum / m := by
  have hsum : m * (l.map fun d ↦ r * d / m).sum + (l.map fun d ↦ r * d % m).sum = r * l.sum := by
    induction l with
    | nil => rfl
    | cons d l ih =>
        have hd := Nat.div_add_mod (r * d) m
        simp only [List.map_cons, List.sum_cons, Nat.mul_add]
        omega
  rw [← hsum, Nat.mul_add_div hm]

theorem credit_of_fits (hrate : 0 ≤ b.fillRateBps) (hfits : b.fillRateBps * d < 2 ^ 63) :
    b.credit d = (b.fillRateBps.toNat * d / 1000000 : ℕ) := by
  have hnonneg : 0 ≤ b.fillRateBps * d := Int.mul_nonneg hrate (Int.natCast_nonneg d)
  rw [credit, toInt64_of_fits (by omega) hfits]
  conv_lhs => rw [← Int.toNat_of_nonneg hrate]
  rfl

theorem mul_lt_of_mem (hrate : 0 ≤ b.fillRateBps) (hfits : b.fillRateBps * delays.sum < 2 ^ 63)
    (hd : d ∈ delays) : b.fillRateBps * d < 2 ^ 63 := by
  have hle : d ≤ delays.sum := List.le_sum_of_mem hd
  refine lt_of_le_of_lt (Int.mul_le_mul_of_nonneg_left ?_ hrate) hfits
  exact Int.ofNat_le.mpr hle

theorem polledCredit_add (hrate : 0 ≤ b.fillRateBps)
    (hfits : b.fillRateBps * delays.sum < 2 ^ 63) :
    b.polledCredit delays + b.lostTokens delays = b.credit delays.sum := by
  have hpolled : b.polledCredit delays =
      (delays.map fun d ↦ b.fillRateBps.toNat * d / 1000000).sum := by
    rw [polledCredit, credits, Nat.cast_list_sum, List.map_map]
    exact congrArg List.sum (List.map_congr_left fun d hd ↦
      credit_of_fits hrate (mul_lt_of_mem hrate hfits hd))
  rw [hpolled, lostTokens, ← Nat.cast_add, sum_div_add_sum_mod _ _ (by decide),
    credit_of_fits hrate hfits]

/-- At a rate that is not negative and whose products fit, polling is free where no token is
rounded away or the bucket gets full anyway. -/
theorem pollsFreely_iff_lostTokens (hrate : 0 ≤ b.fillRateBps)
    (hfits : b.fillRateBps * (d :: delays).sum < 2 ^ 63) : b.PollsFreely d delays ↔
      b.lostTokens (d :: delays) = 0 ∨ b.bucketSize ≤ b.tokens + b.polledCredit (d :: delays) := by
  have hadd := polledCredit_add hrate hfits
  have hlow : CappedSum.lowestEnd (b.credits delays) = 0 := by
    refine CappedSum.lowestEnd_eq_zero (List.forall_mem_map.mpr fun d' hd' ↦ ?_)
    rw [credit_of_fits hrate (mul_lt_of_mem hrate hfits (List.mem_cons_of_mem d hd'))]
    exact Int.natCast_nonneg _
  have hsum : b.polledCredit (d :: delays) = b.credit d + (b.credits delays).sum := List.sum_cons
  rw [PollsFreely, cutCredit, CappedSum.cut, hlow, ← hsum]
  omega

/-- A bucket polled more often than its rate yields a token is never refilled. -/
theorem tokens_polls_of_short (hword : toInt64 b.tokens = b.tokens) (hle : b.tokens ≤ b.bucketSize)
    (hshort : ∀ d ∈ delays, b.fillRateBps.natAbs * d < 1000000) :
    (b.polls delays).tokens = b.tokens := by
  induction delays generalizing b with
  | nil => rfl
  | cons d delays ih =>
      obtain ⟨hd, hlater⟩ := List.forall_mem_cons.mp hshort
      have hcredit : b.credit d = 0 := by
        have hproduct : (b.fillRateBps * d).natAbs < 1000000 := by
          rwa [Int.natAbs_mul, Int.natAbs_natCast]
        rw [← Int.natAbs_eq_zero, natAbs_credit, toInt64_of_fits (by omega) (by omega)]
        exact Nat.div_eq_of_lt hproduct
      have htokens : (b.update (b.lastUpdate + d)).tokens = b.tokens := by
        rw [tokens_update_add, hcredit, Int.add_zero, hword, Int.min_eq_left hle]
      have hpolled := ih (b := b.update (b.lastUpdate + d)) (by rw [htokens, hword])
        (htokens.trans_le hle) hlater
      rw [polls_cons, hpolled, htokens]

/-! ## Reading the tokens -/

/-- The refilled tokens are the same number in 32 bits and cut off at zero. -/
def ConvertsAlike (b : TokenBucket) (now : ℕ) : Prop :=
  let tokens := min (toInt64 (b.tokens + b.credit (now - b.lastUpdate))) b.bucketSize
  0 ≤ tokens ∨ 2 ^ 32 ∣ tokens

theorem convertsAlike_iff {now bufferBytes : ℕ} (hbuffer : 0 < bufferBytes) :
    min bufferBytes ((b.update now).available % 2 ^ 32).toNat =
        min bufferBytes ((max 0 (b.update now).available).toNat % 2 ^ 32) ↔
      b.ConvertsAlike now := by
  rw [available, tokens_update, ConvertsAlike]
  omega

end TokenBucket

namespace QosEngine

variable {D : Type} [Double D] {e : QosEngine D} {P : Platform} {rnti : Rnti} {qfi : ℕ}
variable {isDl : Bool} {bufferBytes : ℕ}

/-! ## Ticks -/

theorem flow?_onSlotTick {e' : QosEngine D} (hnext : e.next (P, .onSlotTick) = some e')
    (rnti : Rnti) (qfi : ℕ) : e'.flow? rnti qfi = (e.flow? rnti qfi).map (tickFlow P.now) := by
  cases hnext
  rw [flow?, AList.lookup_mapValues, flow?]
  cases e.flows.lookup rnti with
  | none => rfl
  | some ueFlows => exact AList.lookup_mapValues ..

/-- Every tick polls the buckets of every flow. -/
theorem bucket_ticks {flow : QosFlowState} (hflow : e.flow? rnti qfi = some flow) (isDl : Bool)
    {delays : List ℕ} {ticks : List Platform} (hticks : ticks.map Platform.now =
      TokenBucket.pollTimes (flow.bucket isDl).lastUpdate delays) :
    ∃ e' flow', (ticks.map fun P ↦ (P, Operation.onSlotTick)).foldlM next e = some e' ∧
      e'.flow? rnti qfi = some flow' ∧
        flow'.bucket isDl = (flow.bucket isDl).polls delays := by
  induction delays generalizing e flow ticks with
  | nil =>
      obtain rfl := List.map_eq_nil_iff.mp hticks
      exact ⟨e, flow, rfl, hflow, rfl⟩
  | cons d delays ih =>
      obtain ⟨P, ticks, rfl, hnow, hlater⟩ := List.map_eq_cons_iff.mp hticks
      obtain ⟨e₁, hnext, -⟩ := e.next_spec P .onSlotTick
      have hflow₁ : e₁.flow? rnti qfi = some (tickFlow P.now flow) := by
        rw [flow?_onSlotTick hnext, hflow, Option.map_some]
      have hbucket : (tickFlow P.now flow).bucket isDl = (flow.bucket isDl).update P.now := by
        cases isDl <;> rfl
      rw [← hnow] at hlater
      obtain ⟨e', flow', hrun, hflow', hpolled⟩ := ih hflow₁ (by rw [hlater, hbucket]; rfl)
      refine ⟨e', flow', ?_, hflow', ?_⟩
      · rw [List.map_cons, List.foldlM_cons, hnext]
        exact hrun
      · rw [hpolled, hbucket, TokenBucket.polls_cons, hnow]

/-- A flow whose rate yields less than a token from tick to tick is never refilled by them. -/
theorem tokens_ticks_of_short {flow : QosFlowState} (hflow : e.flow? rnti qfi = some flow)
    (isDl : Bool) {delays : List ℕ} {ticks : List Platform} (hticks : ticks.map Platform.now =
      TokenBucket.pollTimes (flow.bucket isDl).lastUpdate delays)
    (hword : toInt64 (flow.bucket isDl).tokens = (flow.bucket isDl).tokens)
    (hle : (flow.bucket isDl).tokens ≤ (flow.bucket isDl).bucketSize)
    (hshort : ∀ d ∈ delays, (flow.bucket isDl).fillRateBps.natAbs * d < 1000000) :
    ∃ e' flow', (ticks.map fun P ↦ (P, Operation.onSlotTick)).foldlM next e = some e' ∧
      e'.flow? rnti qfi = some flow' ∧
        (flow'.bucket isDl).tokens = (flow.bucket isDl).tokens := by
  obtain ⟨e', flow', hrun, hflow', hpolled⟩ := bucket_ticks hflow isDl hticks
  refine ⟨e', flow', hrun, hflow', ?_⟩
  rw [hpolled]
  exact TokenBucket.tokens_polls_of_short hword hle hshort

/-! ## The limit on a transmission -/

theorem maxBytesAllowed_rankFlow (henforce : e.config.enableMbrEnforcement = true) (now : ℕ)
    (rnti : Rnti) (qfi : ℕ) (flow : QosFlowState) :
    (e.rankFlow now rnti qfi flow isDl bufferBytes).1.maxBytesAllowed =
      min bufferBytes (((flow.bucket isDl).update now).available % 2 ^ 32).toNat := by
  rw [rankFlow, henforce]
  rfl

omit [Double D] in
theorem getAllowedBytes_run {flow : QosFlowState} (hflow : e.flow? rnti qfi = some flow)
    (P : Platform) (isDl : Bool) :
    ∃ e', (e.getAllowedBytes P rnti qfi isDl).run none =
      .ok ((max 0 ((flow.bucket isDl).update P.now).available).toNat % 2 ^ 32, e') := by
  rw [getAllowedBytes, withLock_run_none, hflow]
  exact ⟨_, rfl⟩

/-- The limit of the priority is the smaller of the buffer and of the allowed bytes. -/
def MbrPathsAgree (e : QosEngine D) (P : Platform) (rnti : Rnti) (qfi : ℕ) (isDl : Bool)
    (bufferBytes : ℕ) : Prop :=
  ∃ result e₁ allowed e₂,
    (e.calculatePriority P rnti qfi isDl bufferBytes).run none = .ok (result, e₁) ∧
      (e.getAllowedBytes P rnti qfi isDl).run none = .ok (allowed, e₂) ∧
      result.maxBytesAllowed = min bufferBytes allowed

theorem mbrPathsAgree_iff_of_flow {flow : QosFlowState} (hflow : e.flow? rnti qfi = some flow)
    (henforce : e.config.enableMbrEnforcement = true) :
    e.MbrPathsAgree P rnti qfi isDl bufferBytes ↔
      min bufferBytes (((flow.bucket isDl).update P.now).available % 2 ^ 32).toNat =
        min bufferBytes ((max 0 ((flow.bucket isDl).update P.now).available).toNat % 2 ^ 32) := by
  have hpriority := calculatePriority_run hflow P isDl bufferBytes
  obtain ⟨e₂, hallowed⟩ := getAllowedBytes_run hflow P isDl
  rw [← maxBytesAllowed_rankFlow henforce P.now rnti qfi flow]
  constructor
  · rintro ⟨result, e₁, allowed, e₂', hresult, hbytes, hsame⟩
    cases hpriority.symm.trans hresult
    cases hallowed.symm.trans hbytes
    exact hsame
  · exact fun hsame ↦ ⟨_, _, _, _, hpriority, hallowed, hsame⟩

/-- With the limit enforced, the two paths agree exactly if the buffer is empty, the flow is
unknown or its refilled tokens convert alike. -/
theorem mbrPathsAgree_iff_convertsAlike (henforce : e.config.enableMbrEnforcement = true)
    (hbuffer : bufferBytes < 2 ^ 32) :
    e.MbrPathsAgree P rnti qfi isDl bufferBytes ↔ bufferBytes = 0 ∨
      ∀ flow, e.flow? rnti qfi = some flow → (flow.bucket isDl).ConvertsAlike P.now := by
  cases hflow : e.flow? rnti qfi with
  | none =>
      refine iff_of_true ?_ (Or.inr fun flow hsome ↦ (Option.some_ne_none flow hsome.symm).elim)
      rw [MbrPathsAgree, calculatePriority, getAllowedBytes, withLock_run_none, withLock_run_none,
        hflow]
      refine ⟨_, _, _, _, rfl, rfl, ?_⟩
      change bufferBytes = min bufferBytes (2 ^ 32 - 1)
      omega
  | some flow =>
      rw [mbrPathsAgree_iff_of_flow hflow henforce]
      rcases Nat.eq_zero_or_pos bufferBytes with rfl | hpos
      · exact iff_of_true (by rw [Nat.zero_min, Nat.zero_min]) (Or.inl rfl)
      · rw [TokenBucket.convertsAlike_iff hpos, or_iff_right hpos.ne']
        exact ⟨fun h flow' hflow' ↦ Option.some.inj hflow' ▸ h, fun h ↦ h flow rfl⟩

/-- A flow without a guarantee, whose bucket holds 1250000 bytes, transmits once. -/
def bestEffort (bytes : ℕ) : List (Platform × Operation ℚ) :=
  [(.plain, .registerFlow 7 ⟨1, ⟨.nonGbr, 90, 300⟩, 0, 0, 0, 0⟩),
    (.plain, .reportTransmission 7 1 true bytes)]

/-- A transmission of what is left in the bucket leaves no token, and both paths allow none. -/
theorem mbrPathsAgree_emptied : ∃ e, (bestEffort 1250000).foldlM next create = some e ∧
    e.MbrPathsAgree .plain 7 1 true 100000 := by
  refine ⟨_, rfl, ?_⟩
  refine (mbrPathsAgree_iff_convertsAlike rfl (by decide)).mpr (Or.inr ?_)
  rintro flow ⟨⟩
  exact Or.inl (by decide +kernel)

/-- One byte more, and a priority allows the whole buffer. -/
theorem not_mbrPathsAgree : ∃ e, (bestEffort 1250001).foldlM next create = some e ∧
    ¬ e.MbrPathsAgree .plain 7 1 true 100000 := by
  refine ⟨_, rfl, fun h ↦ ?_⟩
  have hsame := (mbrPathsAgree_iff_of_flow rfl rfl).mp h
  exact absurd hsame (by decide +kernel)

end QosEngine

end NrScheduler
