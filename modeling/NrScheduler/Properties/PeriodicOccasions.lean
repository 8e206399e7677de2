import NrScheduler.Core.Occasions

/-!
# One occasion in every period

Scheduling requests count the slots as the timings do, so of the slots of a period exactly
one is an occasion, wherever they begin.  Search spaces take every frame for ten slots.  In
the other numerologies their count lags behind by some slots more in each frame, which
displaces the occasions.
-/

namespace NrScheduler

open LockMonad Residues

/-- The request occasions of a configuration have its period, through the wrap of the frame
numbers as well. -/
theorem SrConfig.exists_occursAt {c : SrConfig} {t : FrameTiming}
    (h : Recurs c.periodicitySlots c.offsetSlots t.slotsPerFrame) (ht : t.Valid)
    (hle : t.slotsPerFrame ≤ 256) :
    ∃ j, t.OccursAt (fun u ↦ c.isSrOccasion u.sfn u.slot u.slotsPerFrame) c.periodicitySlots j := by
  have hpos : 0 < t.slotsPerFrame := Nat.zero_lt_of_lt ht.slot_lt
  refine ⟨delay c.periodicitySlots t.absoluteSlot c.offsetSlots, ?_⟩
  apply (FrameTiming.occursAt_iff (fun u ↦ onOccasion_run h.pos u.absoluteSlot _ none) hpos).mpr
  exact ⟨delay_lt h.pos _ _, fun k hk ↦ h.absoluteSlot_plus_mod_iff ht hle hk⟩

/-- Sixteen slots from the last one before the wrap, at 60 kHz. -/
theorem SrConfig.exists_occursAt_wrap :
    let t : FrameTiming := { sfn := 1023, slot := 39, slotsPerFrame := 40 }
    let c : SrConfig := ⟨16, 5⟩
    ∃ j, t.OccursAt (fun u ↦ c.isSrOccasion u.sfn u.slot u.slotsPerFrame) 16 j :=
  SrConfig.exists_occursAt (c := ⟨16, 5⟩) ⟨by decide, by decide, by decide⟩ (by decide) (by decide)

/-! ## Search spaces -/

namespace SearchSpaceConfig

/-- Of the slots of a period from `t` on exactly one is monitored, that whose absolute slot
leaves the offset. -/
def MonitorsDue (c : SearchSpaceConfig) (t : FrameTiming) : Prop :=
  ∃ j, t.OccursAt (fun u ↦ c.shouldMonitor u.sfn u.slot) c.monitoringSlotPeriodicity j ∧
    (t.plus j).absoluteSlot % c.monitoringSlotPeriodicity = c.monitoringSlotOffset

/-- The slots from `t` on until the one due. -/
def untilDue (c : SearchSpaceConfig) (t : FrameTiming) : ℕ :=
  delay c.monitoringSlotPeriodicity t.absoluteSlot c.monitoringSlotOffset

end SearchSpaceConfig

/-- The slots before the frame that are missed by counting ten for each frame. -/
def FrameTiming.lag (t : FrameTiming) : ℕ := (t.slotsPerFrame - 10) * t.sfn

/-- The lag in the frame of the slot due is a multiple of the period, and no other slot of the
window lies where the lag in its own frame displaces the slot due to. -/
structure SearchSpaceConfig.Undisplaced (c : SearchSpaceConfig) (t : FrameTiming) : Prop where
  due : c.monitoringSlotPeriodicity ∣ (t.plus (c.untilDue t)).lag
  others : ∀ k < c.monitoringSlotPeriodicity, k ≠ c.untilDue t →
    (c.untilDue t + (t.plus k).lag) % c.monitoringSlotPeriodicity ≠ k

theorem FrameTiming.counted_add_lag {t : FrameTiming} (h : 10 ≤ t.slotsPerFrame) :
    t.sfn * 10 + t.slot + t.lag = t.absoluteSlot := by
  obtain ⟨d, hd⟩ := Nat.exists_eq_add_of_le h
  rw [lag, absoluteSlot, hd, Nat.add_sub_cancel_left]
  ring

variable {c : SearchSpaceConfig} {t : FrameTiming} {n P o s x : ℕ}

theorem SearchSpaceConfig.monitorsDue_iff_counts
    (h : Recurs c.monitoringSlotPeriodicity c.monitoringSlotOffset t.slotsPerFrame) (ht : t.Valid)
    (hle : t.slotsPerFrame ≤ 256) : c.MonitorsDue t ↔
      ∀ k < c.monitoringSlotPeriodicity,
        ((t.plus k).sfn * 10 + (t.plus k).slot) % c.monitoringSlotPeriodicity =
          c.monitoringSlotOffset ↔ k = c.untilDue t := by
  have hpos : 0 < t.slotsPerFrame := Nat.zero_lt_of_lt ht.slot_lt
  have hoccurs := fun j ↦ FrameTiming.occursAt_iff (j := j)
    (fun u ↦ onOccasion_run h.pos (u.sfn * 10 + u.slot) c.monitoringSlotOffset none) hpos
  constructor
  · rintro ⟨j, hj, hdue⟩
    obtain ⟨hlt, hcounts⟩ := (hoccurs j).mp hj
    obtain rfl : j = c.untilDue t := (h.absoluteSlot_plus_mod_iff ht hle hlt).mp hdue
    exact hcounts
  · intro hcounts
    have hlt := delay_lt h.pos t.absoluteSlot c.monitoringSlotOffset
    refine ⟨c.untilDue t, (hoccurs _).mpr ⟨hlt, hcounts⟩, ?_⟩
    exact (h.absoluteSlot_plus_mod_iff ht hle hlt).mpr rfl

theorem SearchSpaceConfig.monitorsDue_iff_undisplaced
    (h : Recurs c.monitoringSlotPeriodicity c.monitoringSlotOffset t.slotsPerFrame) (ht : t.Valid)
    (hten : 10 ≤ t.slotsPerFrame) (hle : t.slotsPerFrame ≤ 256) :
    c.MonitorsDue t ↔ c.Undisplaced t := by
  have hlt : c.untilDue t < c.monitoringSlotPeriodicity := delay_lt h.pos _ _
  have hcount : ∀ k < c.monitoringSlotPeriodicity,
      ((t.plus k).sfn * 10 + (t.plus k).slot) % c.monitoringSlotPeriodicity =
        c.monitoringSlotOffset ↔
      (c.untilDue t + (t.plus k).lag) % c.monitoringSlotPeriodicity = k := by
    intro k hk
    apply lagging_mod_eq_iff h.pos h.offset_lt hk
    rw [FrameTiming.counted_add_lag (t := t.plus k) hten]
    exact ht.absoluteSlot_plus_mod hle h.dvd k
  rw [monitorsDue_iff_counts h ht hle]
  constructor
  · intro hall
    constructor
    case due => exact (add_mod_eq_self_iff hlt).mp ((hcount _ hlt).mp ((hall _ hlt).mpr rfl))
    case others =>
      intro k hk hne heq
      exact hne ((hall k hk).mp ((hcount k hk).mpr heq))
  · rintro ⟨hdue, hothers⟩ k hk
    rw [hcount k hk]
    constructor
    · intro heq
      by_contra hne
      exact hothers k hk hne heq
    · rintro rfl
      exact (add_mod_eq_self_iff hlt).mpr hdue

/-! ## Where both counts agree -/

/-- Both counts leave the offset in the same slots. -/
def CountsAgree (n P o : ℕ) : Prop :=
  ∀ s < 1024, ∀ i < n, (s * 10 + i) % P = o ↔ (s * n + i) % P = o

/-- The lag is a multiple of the period in the frame of every slot due. -/
theorem CountsAgree.dvd_of_due (h : CountsAgree n P o) (hn : 10 ≤ n) (hx : x < 1024 * n)
    (hdue : x % P = o) : P ∣ (n - 10) * (x / n) := by
  have hpos : 0 < n := by omega
  have hsplit : x / n * n + x % n = x := Nat.div_add_mod' x n
  have hframe : x / n < 1024 := (Nat.div_lt_iff_lt_mul hpos).mpr hx
  have hsame : (x / n * 10 + x % n) % P = (x / n * n + x % n) % P := by
    rw [hsplit, hdue]
    apply (h _ hframe _ (Nat.mod_lt x hpos)).mpr
    rw [hsplit, hdue]
  have hle : x / n * 10 + x % n ≤ x / n * n + x % n :=
    Nat.add_le_add_right (Nat.mul_le_mul_left _ hn) _
  have hdvd := (Nat.modEq_iff_dvd' hle).mp hsame
  rwa [Nat.add_sub_add_right, ← Nat.mul_sub, Nat.mul_comm] at hdvd

/-- The greatest common divisor of the cycle and the lag of one frame is ten. -/
theorem dvd_ten_of_dvd (hn : n ∈ [20, 40, 80, 160]) (hcycle : P ∣ 1024 * n) (hlag : P ∣ n - 10) :
    P ∣ 10 := by
  have hgcd : ∀ m ∈ [20, 40, 80, 160], Nat.gcd (1024 * m) (m - 10) = 10 := by decide
  rw [← hgcd n hn]
  exact Nat.dvd_gcd hcycle hlag

/-- A period of at most a frame has a slot due in the second frame. -/
theorem CountsAgree.dvd_ten (h : CountsAgree n P o) (hn : n ∈ [20, 40, 80, 160]) (hP : 0 < P)
    (ho : o < P) (hcycle : P ∣ 1024 * n) (hle : P ≤ n) : P ∣ 10 := by
  have hten : ∀ m ∈ [20, 40, 80, 160], 10 ≤ m := by decide
  have hdelay := delay_lt hP n o
  have hdue := add_delay_mod hP ho n
  have hdvd := h.dvd_of_due (hten n hn) (by omega) hdue
  have hsecond : (n + delay P n o) / n = 1 := Nat.div_eq_of_lt_le (by omega) (by omega)
  rw [hsecond, Nat.mul_one] at hdvd
  exact dvd_ten_of_dvd hn hcycle hdvd

/-- A longer one has its first slot due in the first frame. -/
theorem CountsAgree.lt_frame (h : CountsAgree n P o) (hn : 10 < n) (ho : o < P)
    (hP : P ≤ 1024 * n) : o < n := by
  have hdvd := h.dvd_of_due hn.le (ho.trans_le hP) (Nat.mod_eq_of_lt ho)
  have hsmall : (n - 10) * (o / n) < P :=
    calc
      (n - 10) * (o / n) ≤ n * (o / n) := Nat.mul_le_mul_right _ (Nat.sub_le _ _)
      _ ≤ o := Nat.mul_div_le o n
      _ < P := ho
  have hzero := Nat.eq_zero_of_dvd_of_lt hdvd hsmall
  rcases Nat.mul_eq_zero.mp hzero with hlag | hframe
  · omega
  · exact (Nat.div_eq_zero_iff_lt (by omega)).mp hframe

/-- One shorter than the cycle has another slot due, in a frame that lags by exactly one
period. -/
theorem CountsAgree.exists_frame (h : CountsAgree n P o) (hn : 10 < n) (ho : o < n) (hlt : n < P)
    (hP : 2 * P ≤ 1024 * n) : ∃ s, P = (n - 10) * s ∧ n * s < P + n := by
  have hpos : 0 < n := by omega
  have hdue : (o + P) % P = o := by
    rw [Nat.add_mod_right, Nat.mod_eq_of_lt (ho.trans hlt)]
  obtain ⟨q, hq⟩ := h.dvd_of_due hn.le (by omega) hdue
  have hle : n * ((o + P) / n) ≤ o + P := Nat.mul_div_le _ _
  have hlag : (n - 10) * ((o + P) / n) < 2 * P :=
    calc
      (n - 10) * ((o + P) / n) ≤ n * ((o + P) / n) := Nat.mul_le_mul_right _ (Nat.sub_le _ _)
      _ < 2 * P := by omega
  have hframe : 0 < (o + P) / n := Nat.div_pos (by omega) hpos
  have hlagpos : 0 < (n - 10) * ((o + P) / n) := Nat.mul_pos (by omega) hframe
  have hone : q = 1 := by
    rw [hq, Nat.mul_comm 2] at hlag
    have hbelow := Nat.lt_of_mul_lt_mul_left hlag
    have hqpos : q ≠ 0 := by
      rintro rfl
      exact hlagpos.ne' hq
    omega
  refine ⟨(o + P) / n, ?_, by omega⟩
  rw [hq, hone, Nat.mul_one]

/-- Such a frame would need a lag that divides the cycle. -/
theorem not_lags (hn : n ∈ [20, 40, 80, 160]) (hcycle : P ∣ 1024 * n) (hlt : n < P)
    (hP : P = (n - 10) * s) (hframe : n * s < P + n) : False := by
  have hlag : n - 10 ∣ 1024 * n := (Dvd.intro s hP.symm).trans hcycle
  have hdvd : ∀ m ∈ [20, 40, 80, 160], m - 10 ∣ 1024 * m → m = 20 := by decide
  obtain rfl := hdvd n hn hlag
  omega

/-- The slot of the second frame that is counted like slot `o` of the first one is not due if
the period is the whole cycle. -/
theorem CountsAgree.lt_ten (h : CountsAgree n (1024 * n) o) (hn : 10 < n) (ho : o < n) :
    o < 10 := by
  by_contra hge
  have hcounted : (1 * 10 + (o - 10)) % (1024 * n) = o := by
    rw [Nat.mod_eq_of_lt (by omega)]
    omega
  have hdue := (h 1 (by decide) (o - 10) (by omega)).mp hcounted
  rw [Nat.mod_eq_of_lt (by omega)] at hdue
  omega

theorem countsAgree_of_dvd_ten (hn : 10 ∣ n) (hP : P ∣ 10) : CountsAgree n P o := by
  intro s _ i _
  have hten : s * 10 ≡ 0 [MOD P] := Nat.modEq_zero_iff_dvd.mpr (hP.mul_left s)
  have hframe : s * n ≡ 0 [MOD P] := Nat.modEq_zero_iff_dvd.mpr ((hP.trans hn).mul_left s)
  have hsame : (s * 10 + i) % P = (s * n + i) % P := (hten.trans hframe.symm).add_right i
  rw [hsame]

theorem countsAgree_of_cycle (hn : 10 ≤ n) (ho : o < 10) : CountsAgree n (1024 * n) o := by
  intro s hs i hi
  have hcounted : s * 10 ≤ s * n := Nat.mul_le_mul_left s hn
  have hbound : (s + 1) * n ≤ 1024 * n := Nat.mul_le_mul_right n hs
  rw [Nat.add_mul, Nat.one_mul] at hbound
  rw [Nat.mod_eq_of_lt (by omega), Nat.mod_eq_of_lt (by omega)]
  -- both numbers are at least ten from the second frame on
  rcases Nat.eq_zero_or_pos s with rfl | hspos
  · omega
  · have hfar : n ≤ s * n := Nat.le_mul_of_pos_left n hspos
    omega

theorem CountsAgree.dvd_ten_or_cycle (hagree : CountsAgree n P o) (hn : n ∈ [20, 40, 80, 160])
    (h : Recurs P o n) : P ∣ 10 ∨ P = 1024 * n ∧ o < 10 := by
  have hlarge : ∀ m ∈ [20, 40, 80, 160], 10 < m := by decide
  have hgt := hlarge n hn
  have hcycle : P ≤ 1024 * n := Nat.le_of_dvd (by omega) h.dvd
  rcases Nat.lt_or_ge n P with hlong | hshort
  · have hfirst := hagree.lt_frame hgt h.offset_lt hcycle
    obtain ⟨q, hq⟩ := h.dvd
    rcases Nat.lt_or_ge 1 q with hmany | hone
    · have htwice : 2 * P ≤ 1024 * n := by
        rw [hq, Nat.mul_comm 2]
        exact Nat.mul_le_mul_left P hmany
      obtain ⟨s, hs, hframe⟩ := hagree.exists_frame hgt hfirst hlong htwice
      exact (not_lags hn h.dvd hlong hs hframe).elim
    · have hwhole : P = 1024 * n := by
        refine le_antisymm hcycle ?_
        rw [hq]
        exact (Nat.mul_le_mul_left P hone).trans_eq (Nat.mul_one P)
      subst hwhole
      exact Or.inr ⟨rfl, hagree.lt_ten hgt hfirst⟩
  · exact Or.inl (hagree.dvd_ten hn h.pos h.offset_lt h.dvd hshort)

/-- The counts agree where a frame has ten slots, where the period divides them, and where the
one occasion of the whole cycle is in those of the first frame. -/
theorem countsAgree_iff (hn : n ∈ [10, 20, 40, 80, 160]) (h : Recurs P o n) :
    CountsAgree n P o ↔ n = 10 ∨ P ∣ 10 ∨ P = 1024 * n ∧ o < 10 := by
  constructor
  · intro hagree
    rcases List.mem_cons.mp hn with hten | hn
    · exact Or.inl hten
    · exact Or.inr (hagree.dvd_ten_or_cycle hn h)
  · have htens : ∀ m ∈ [10, 20, 40, 80, 160], 10 ≤ m ∧ 10 ∣ m := by decide
    obtain ⟨hge, hdvd⟩ := htens n hn
    rintro (rfl | hP | ⟨rfl, ho⟩)
    · exact fun _ _ _ _ ↦ Iff.rfl
    · exact countsAgree_of_dvd_ten hdvd hP
    · exact countsAgree_of_cycle hge ho

/-! ## All windows of a numerology -/

theorem FrameTiming.Valid.plus_zero (ht : t.Valid) (hle : t.slotsPerFrame ≤ 256) :
    t.plus 0 = t := by
  have hpos : 0 < t.slotsPerFrame := Nat.zero_lt_of_lt ht.slot_lt
  exact (ht.isAt.plus hpos hle 0).eq_of_symbol ht.isAt rfl

theorem SearchSpaceConfig.forall_monitorsDue_iff (hle : n ≤ 256)
    (h : Recurs c.monitoringSlotPeriodicity c.monitoringSlotOffset n) :
    (∀ t : FrameTiming, t.Valid → t.slotsPerFrame = n → c.MonitorsDue t) ↔
      CountsAgree n c.monitoringSlotPeriodicity c.monitoringSlotOffset := by
  constructor
  · intro hall s hs i hi
    let t : FrameTiming := { sfn := s, slot := i, slotsPerFrame := n }
    have ht : t.Valid := ⟨hi, hi.trans_le hle, hs⟩
    have hcounted := (monitorsDue_iff_counts (t := t) h ht hle).mp (hall t ht rfl) 0 h.pos
    have hdue := h.absoluteSlot_plus_mod_iff (t := t) ht hle h.pos
    rw [ht.plus_zero hle] at hcounted hdue
    exact hcounted.trans hdue.symm
  · rintro hagree t ht rfl
    have hpos : 0 < t.slotsPerFrame := Nat.zero_lt_of_lt ht.slot_lt
    apply (monitorsDue_iff_counts h ht hle).mpr
    intro k hk
    have hvalid := (ht.isAt.plus hpos hle k).valid hpos hle
    exact (hagree _ hvalid.sfn_lt _ hvalid.slot_lt).trans (h.absoluteSlot_plus_mod_iff ht hle hk)

namespace SearchSpaceConfig

/-- From a timing on the slots due are monitored exactly where the lag displaces none of them.
They are from every timing exactly where a frame has ten slots, where the period divides ten,
or where the period is the whole cycle and its occasion in the first ten slots. -/
theorem monitorsDue_iff (hn : n ∈ [10, 20, 40, 80, 160])
    (h : Recurs c.monitoringSlotPeriodicity c.monitoringSlotOffset n) :
    (∀ t : FrameTiming, t.Valid → t.slotsPerFrame = n → (c.MonitorsDue t ↔ c.Undisplaced t)) ∧
    ((∀ t : FrameTiming, t.Valid → t.slotsPerFrame = n → c.MonitorsDue t) ↔
      n = 10 ∨ c.monitoringSlotPeriodicity ∣ 10 ∨
        c.monitoringSlotPeriodicity = 1024 * n ∧ c.monitoringSlotOffset < 10) := by
  have hrange : ∀ m ∈ [10, 20, 40, 80, 160], 10 ≤ m ∧ m ≤ 256 := by decide
  obtain ⟨hten, hle⟩ := hrange n hn
  constructor
  · rintro t ht rfl
    exact monitorsDue_iff_undisplaced h ht hten hle
  · exact (forall_monitorsDue_iff hle h).trans (countsAgree_iff hn h)

/-- Every fifth slot at 30 kHz. -/
theorem monitorsDue_iff_five :
    let c : SearchSpaceConfig := ⟨5, 2⟩
    (∀ t : FrameTiming, t.Valid → t.slotsPerFrame = 20 → (c.MonitorsDue t ↔ c.Undisplaced t)) ∧
    ((∀ t : FrameTiming, t.Valid → t.slotsPerFrame = 20 → c.MonitorsDue t) ↔
      20 = 10 ∨ 5 ∣ 10 ∨ 5 = 1024 * 20 ∧ 2 < 10) :=
  monitorsDue_iff (c := ⟨5, 2⟩) (by decide) ⟨by decide, by decide, by decide⟩

/-- Every twentieth slot at 30 kHz, the first one of each frame: from slot 5 of frame 0 on a
whole period passes without a monitored slot, and from slot 10 of frame 1 on two slots of the
period are monitored. -/
theorem not_monitorsDue :
    let c : SearchSpaceConfig := ⟨20, 0⟩
    let monitoredAfter (t : FrameTiming) (k : ℕ) : Option Bool :=
      ignoringLocks (t.advanced k >>= fun u ↦ c.shouldMonitor u.sfn u.slot)
    let t : FrameTiming := { sfn := 0, slot := 5, slotsPerFrame := 20 }
    let t' : FrameTiming := { sfn := 1, slot := 10, slotsPerFrame := 20 }
    Recurs 20 0 20 ∧
    (t.Valid ∧ (List.range 20).map (monitoredAfter t) = List.replicate 20 (some false) ∧
      ¬ c.MonitorsDue t) ∧
    t'.Valid ∧ monitoredAfter t' 0 = some true ∧ monitoredAfter t' 10 = some true := by
  refine ⟨⟨by decide, by decide, by decide⟩, ⟨by decide, by decide +kernel, ?_⟩, by decide,
    by decide +kernel, by decide +kernel⟩
  rintro ⟨j, ⟨hlt, hrun⟩, _⟩
  have hnone : ∀ k < 20, ignoringLocks (FrameTiming.advanced
      { sfn := 0, slot := 5, slotsPerFrame := 20 } k >>= fun u ↦
        (⟨20, 0⟩ : SearchSpaceConfig).shouldMonitor u.sfn u.slot) = some false := by
    decide +kernel
  have hmonitored := hrun j hlt
  rw [hnone j hlt, decide_eq_true rfl] at hmonitored
  exact Bool.false_ne_true (Option.some.inj hmonitored)

end SearchSpaceConfig

end NrScheduler
