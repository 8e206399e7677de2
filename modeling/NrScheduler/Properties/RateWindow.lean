import NrScheduler.Lib.SlidingWindow
import NrScheduler.Services.QosSpec

/-!
# The window of a measured rate

Samples that have left the window are deleted when a sample is added, and a rate is read
without deleting any.  A rate depends on the samples in its window alone exactly if the log
holds no others, or spans less than a millisecond, where the rate is zero.
-/

namespace NrScheduler

open LockMonad SlidingWindow

namespace GbrTracker

variable {windowMs t : ℕ} {samples samples' : List (ℕ × ℕ)}

/-! ## The log -/

/-- A tracker after samples with the given times and bytes. -/
def after (windowMs : ℕ) (samples : List (ℕ × ℕ)) : GbrTracker :=
  samples.foldl (fun tracker s ↦ tracker.addSample s.1 s.2) { windowMs := windowMs }

/-- The samples in the window that ends at `t`. -/
def current (windowMs t : ℕ) (samples : List (ℕ × ℕ)) : List (ℕ × ℕ) :=
  inWindow Prod.fst (windowMs * 1000) t samples

/-- The times that are in the log after samples at the given times. -/
def loggedTimes (windowMs : ℕ) (times : List ℕ) : List ℕ :=
  inWindow id (windowMs * 1000) (lastTime id times) times

theorem history_after (hsorted : samples.Pairwise fun s s' ↦ s.1 ≤ s'.1) :
    (after windowMs samples).history = current windowMs (lastTime Prod.fst samples) samples := by
  have hfold : ∀ log : List (ℕ × ℕ),
      samples.foldl (fun tracker s ↦ tracker.addSample s.1 s.2)
          ({ history := log, windowMs := windowMs } : GbrTracker) =
        { history := samples.foldl (push Prod.fst (windowMs * 1000)) log
          windowMs := windowMs } := by
    clear hsorted
    induction samples with
    | nil => exact fun _ ↦ rfl
    | cons s samples ih => exact fun log ↦ ih _
  rw [after, hfold]
  exact foldl_push hsorted

theorem map_fst_history_after (hsorted : samples.Pairwise fun s s' ↦ s.1 ≤ s'.1) :
    (after windowMs samples).history.map Prod.fst =
      loggedTimes windowMs (samples.map Prod.fst) := by
  rw [history_after hsorted, current, map_inWindow, loggedTimes, lastTime_map]

/-! ## The rate -/

def spanMs (times : List ℕ) : ℕ := (times.getLast?.getD 0 - times.head?.getD 0) / 1000

theorem currentRateBps_eq (tracker : GbrTracker) : tracker.currentRateBps =
    if spanMs (tracker.history.map Prod.fst) = 0 then 0
    else (tracker.history.map Prod.snd).sum * 8000 % 2 ^ 64 /
      spanMs (tracker.history.map Prod.fst) := by
  rw [currentRateBps, spanMs, List.getLast?_map, List.head?_map]
  cases hlog : tracker.history with
  | nil => rfl
  | cons oldest rest =>
      rw [List.head?_cons, List.getLast?_cons]
      cases rest with
      | nil => simp
      | cons s rest => simp [List.length_cons]

theorem spanMs_eq_zero_iff {times : List ℕ} (hsorted : times.Pairwise (· ≤ ·)) :
    spanMs times = 0 ↔ ∀ s ∈ times, ∀ s' ∈ times, s' < s + 1000 := by
  rw [spanMs, Nat.div_eq_zero_iff, or_iff_right (by decide)]
  cases times with
  | nil => simp
  | cons oldest rest =>
      have hnewest := List.getLast?_eq_some_getLast (List.cons_ne_nil oldest rest)
      rw [hnewest, List.head?_cons, Option.getD_some, Option.getD_some]
      constructor
      · intro hspan s hs s' hs'
        have hfirst : oldest ≤ s := hsorted.rel_head hs
        have hlast := hsorted.rel_getLast hs'
        omega
      · intro hclose
        have := hclose oldest List.mem_cons_self _ (List.getLast_mem (List.cons_ne_nil oldest rest))
        omega

/-! ## What a rate depends on -/

/-- The log holds no time before the window that ends at `t`, or spans less than a
millisecond. -/
def WindowCurrent (windowMs : ℕ) (times : List ℕ) (t : ℕ) : Prop :=
  (∀ s ∈ loggedTimes windowMs times, t ≤ s + windowMs * 1000) ∨
    ∀ s ∈ loggedTimes windowMs times, ∀ s' ∈ loggedTimes windowMs times, s' < s + 1000

theorem sorted_map_fst (hsorted : samples.Pairwise fun s s' ↦ s.1 ≤ s'.1) :
    (samples.map Prod.fst).Pairwise (· ≤ ·) :=
  List.pairwise_map.mpr hsorted

theorem sorted_current (hsorted : samples.Pairwise fun s s' ↦ s.1 ≤ s'.1) :
    (current windowMs t samples).Pairwise fun s s' ↦ s.1 ≤ s'.1 :=
  hsorted.sublist List.filter_sublist

/-- Nothing that is added after the window was cut to is deleted again. -/
theorem history_after_current (hsorted : samples.Pairwise fun s s' ↦ s.1 ≤ s'.1)
    (ht : ∀ s ∈ samples, s.1 ≤ t) :
    (after windowMs (current windowMs t samples)).history = current windowMs t samples := by
  have hlast : lastTime Prod.fst (current windowMs t samples) ≤ t :=
    lastTime_le fun s hs ↦ ht s (mem_inWindow.mp hs).1
  rw [history_after (sorted_current hsorted)]
  exact (inWindow_inWindow _ _ _ _ _).trans (by rw [max_eq_right hlast]; rfl)

theorem currentRateBps_after_current (hsorted : samples.Pairwise fun s s' ↦ s.1 ≤ s'.1)
    (ht : ∀ s ∈ samples, s.1 ≤ t) (h : WindowCurrent windowMs (samples.map Prod.fst) t) :
    (after windowMs samples).currentRateBps =
      (after windowMs (current windowMs t samples)).currentRateBps := by
  have hlast : lastTime Prod.fst samples ≤ t := lastTime_le ht
  have hlogged : ∀ s ∈ samples, lastTime Prod.fst samples ≤ s.1 + windowMs * 1000 →
      s.1 ∈ loggedTimes windowMs (samples.map Prod.fst) := by
    intro s hs hwithin
    rw [loggedTimes, lastTime_map]
    exact mem_inWindow.mpr ⟨List.mem_map_of_mem hs, hwithin⟩
  rw [currentRateBps_eq, currentRateBps_eq, history_after_current hsorted ht]
  rcases h with hnone | hclose
  · have hsame : (after windowMs samples).history = current windowMs t samples := by
      rw [history_after hsorted]
      refine List.filter_congr fun s hs ↦ decide_eq_decide.mpr ⟨fun hwithin ↦ ?_, fun hin ↦ ?_⟩
      · exact hnone s.1 (hlogged s hs hwithin)
      · omega
    rw [hsame]
  · have hspan : spanMs ((after windowMs samples).history.map Prod.fst) = 0 := by
      rw [map_fst_history_after hsorted]
      exact (spanMs_eq_zero_iff ((sorted_map_fst hsorted).sublist List.filter_sublist)).mpr hclose
    have hspan' : spanMs ((current windowMs t samples).map Prod.fst) = 0 := by
      refine (spanMs_eq_zero_iff (sorted_map_fst (sorted_current hsorted))).mpr
        (List.forall_mem_map.mpr fun s hs ↦ List.forall_mem_map.mpr fun s' hs' ↦ ?_)
      obtain ⟨hs, hin⟩ := mem_inWindow.mp hs
      obtain ⟨hs', hin'⟩ := mem_inWindow.mp hs'
      exact hclose _ (hlogged s hs (by omega)) _ (hlogged s' hs' (by omega))
    rw [if_pos hspan, if_pos hspan']

/-! ## A sample that has left the window -/

theorem rate_ne_of_more {total d : ℕ} (hpos : 0 < d) (hlt : d < 2 ^ 32) :
    total * 8000 % 2 ^ 64 / d ≠ (total + (d / 8000 + 1)) * 8000 % 2 ^ 64 / d := by
  intro heq
  have hfirst := Nat.div_add_mod (total * 8000 % 2 ^ 64) d
  have hsecond := Nat.div_add_mod ((total + (d / 8000 + 1)) * 8000 % 2 ^ 64) d
  have hmod := Nat.mod_lt (total * 8000 % 2 ^ 64) hpos
  have hmod' := Nat.mod_lt ((total + (d / 8000 + 1)) * 8000 % 2 ^ 64) hpos
  rw [← heq] at hsecond
  generalize d * (total * 8000 % 2 ^ 64 / d) = whole at hfirst hsecond
  omega

theorem spanMs_loggedTimes_le {times : List ℕ} (hsorted : times.Pairwise (· ≤ ·)) :
    spanMs (loggedTimes windowMs times) ≤ windowMs := by
  cases hlog : loggedTimes windowMs times with
  | nil => exact Nat.zero_le _
  | cons oldest rest =>
      have hmem : ∀ s ∈ oldest :: rest, s ∈ times ∧ lastTime id times ≤ s + windowMs * 1000 := by
        intro s hs
        rw [← hlog] at hs
        exact mem_inWindow.mp hs
      have hoff := List.cons_ne_nil oldest rest
      have hfirst := (hmem oldest List.mem_cons_self).2
      have hlast : id ((oldest :: rest).getLast hoff) ≤ lastTime id times :=
        le_lastTime hsorted (hmem _ (List.getLast_mem hoff)).1
      rw [id] at hlast
      rw [spanMs, List.getLast?_eq_some_getLast hoff, List.head?_cons, Option.getD_some,
        Option.getD_some]
      omega

/-- The bytes of a stale sample in the log change the rate. -/
theorem windowCurrent_of_rates {rate : ℕ} (hwindow : windowMs < 2 ^ 32)
    (hsorted : samples.Pairwise fun s s' ↦ s.1 ≤ s'.1) (hbytes : ∀ s ∈ samples, s.2 < 2 ^ 32)
    (h : ∀ samples' : List (ℕ × ℕ), samples'.map Prod.fst = samples.map Prod.fst →
      (∀ s ∈ samples', s.2 < 2 ^ 32) → current windowMs t samples' = current windowMs t samples →
      (after windowMs samples').currentRateBps = rate) :
    WindowCurrent windowMs (samples.map Prod.fst) t := by
  by_contra hnot
  obtain ⟨hstale, hwide⟩ := not_or.mp hnot
  simp only [not_forall, Nat.not_le] at hstale
  obtain ⟨s₀, hlogged, hold⟩ := hstale
  have htimes := sorted_map_fst hsorted
  have hspan : 0 < spanMs (loggedTimes windowMs (samples.map Prod.fst)) :=
    Nat.pos_of_ne_zero fun hzero ↦
      hwide ((spanMs_eq_zero_iff (htimes.sublist List.filter_sublist)).mp hzero)
  have hlt := (spanMs_loggedTimes_le htimes).trans_lt hwindow
  obtain ⟨hmem, hkept⟩ := mem_inWindow.mp hlogged
  obtain ⟨⟨time, bytes⟩, hsample, rfl⟩ := List.mem_map.mp hmem
  obtain ⟨before, later, rfl⟩ := List.append_of_mem hsample
  set times := (before ++ (time, bytes) :: later).map Prod.fst with htimes_eq
  set last := lastTime id times
  set rest := ((current windowMs last before).map Prod.snd).sum +
    ((current windowMs last later).map Prod.snd).sum
  -- the rate with `k` bytes in the stale sample
  have hrate : ∀ k < 2 ^ 32, (rest + k) * 8000 % 2 ^ 64 / spanMs (loggedTimes windowMs times) =
      rate := by
    intro k hk
    have hsame : (before ++ (time, k) :: later).map Prod.fst = times := by
      rw [htimes_eq, List.map_append, List.map_append, List.map_cons, List.map_cons]
    have hsorted' : (before ++ (time, k) :: later).Pairwise fun s s' ↦ s.1 ≤ s'.1 :=
      List.pairwise_map.mp (hsame ▸ htimes)
    have hlast : lastTime Prod.fst (before ++ (time, k) :: later) = last := by
      rw [← lastTime_map, hsame]
    have hsum : ((after windowMs (before ++ (time, k) :: later)).history.map Prod.snd).sum =
        rest + k := by
      have hkept' : last ≤ Prod.fst (time, k) + windowMs * 1000 := hkept
      rw [history_after hsorted', hlast, current, inWindow_split_of_le hkept', List.map_append,
        List.sum_append, List.map_cons, List.sum_cons]
      exact (Nat.add_left_comm _ _ _).trans (Nat.add_comm _ _)
    rw [← h (before ++ (time, k) :: later) hsame ?bytes ?window, currentRateBps_eq, hsum,
      map_fst_history_after hsorted', hsame, if_neg hspan.ne']
    case bytes =>
      intro s hs
      rcases List.mem_append.mp hs with hs | hs
      · exact hbytes s (List.mem_append_left _ hs)
      · rcases List.mem_cons.mp hs with rfl | hs
        · exact hk
        · exact hbytes s (List.mem_append_right _ (List.mem_cons_of_mem _ hs))
    case window =>
      have hold' : Prod.fst (time, k) + windowMs * 1000 < t := hold
      rw [current, current, inWindow_split_of_lt hold, inWindow_split_of_lt hold']
  have hmore : spanMs (loggedTimes windowMs times) / 8000 + 1 < 2 ^ 32 := by omega
  have hnone := hrate 0 (by decide)
  exact rate_ne_of_more hspan hlt (hnone.trans (hrate _ hmore).symm)

end GbrTracker

/-! ## Reading a rate -/

namespace QosEngine

open GbrTracker

variable {D : Type} [Double D] {tracker tracker' : GbrTracker}

def withTracker (e : QosEngine D) (rnti : Rnti) (qfi : ℕ) (flow : QosFlowState) (isDl : Bool)
    (tracker : GbrTracker) : QosEngine D :=
  e.setFlow rnti qfi (flow.setGbrTracker isDl tracker)

variable (D) in
/-- Two trackers give the same rate, and whichever of them a flow has, its deficit and its
priority are the same. -/
structure SameRates (tracker tracker' : GbrTracker) : Prop where
  rate : tracker.currentRateBps = tracker'.currentRateBps
  deficit : ∀ (e : QosEngine D) rnti qfi flow isDl, e.flow? rnti qfi = some flow →
    ((e.withTracker rnti qfi flow isDl tracker).getGbrDeficit rnti qfi isDl).run none =
      ((e.withTracker rnti qfi flow isDl tracker').getGbrDeficit rnti qfi isDl).run none
  priority : ∀ (e : QosEngine D) P rnti qfi flow isDl bufferBytes,
    e.flow? rnti qfi = some flow →
    (((e.withTracker rnti qfi flow isDl tracker).calculatePriority P rnti qfi isDl
      bufferBytes).run none).map Prod.fst =
    (((e.withTracker rnti qfi flow isDl tracker').calculatePriority P rnti qfi isDl
      bufferBytes).run none).map Prod.fst

omit [Double D] in
@[simp] theorem gbrTracker_setGbrTracker (flow : QosFlowState) (isDl : Bool) :
    (flow.setGbrTracker isDl tracker).gbrTracker isDl = tracker := by
  cases isDl <;> rfl

/-- The priority reads a tracker through its rate. -/
theorem rankFlow_setGbrTracker (h : tracker.currentRateBps = tracker'.currentRateBps)
    (e e' : QosEngine D) (hconfig : e.config = e'.config) (now : ℕ) (rnti : Rnti) (qfi : ℕ)
    (flow : QosFlowState) (isDl : Bool) (bufferBytes : ℕ) :
    (e.rankFlow now rnti qfi (flow.setGbrTracker isDl tracker) isDl bufferBytes).1 =
      (e'.rankFlow now rnti qfi (flow.setGbrTracker isDl tracker') isDl bufferBytes).1 := by
  have hboost : gbrBoost e.config (flow.setGbrTracker isDl tracker) isDl =
      gbrBoost e'.config (flow.setGbrTracker isDl tracker') isDl := by
    rw [gbrBoost, gbrBoost, QosFlowState.belowGuarantee, QosFlowState.belowGuarantee,
      gbrTracker_setGbrTracker, gbrTracker_setGbrTracker, h, hconfig]
    cases isDl <;> rfl
  rw [rankFlow, rankFlow, hboost, hconfig]
  cases isDl <;> rfl

theorem sameRates_of_eq (h : tracker.currentRateBps = tracker'.currentRateBps) :
    SameRates D tracker tracker' where
  rate := h
  deficit e rnti qfi flow isDl hflow := by
    rw [getGbrDeficit, getGbrDeficit, withLock_run_none, withLock_run_none, withTracker,
      withTracker, flow?_setFlow hflow, flow?_setFlow hflow]
    dsimp only
    rw [gbrTracker_setGbrTracker, gbrTracker_setGbrTracker, h]
    cases isDl <;> rfl
  priority e P rnti qfi flow isDl bufferBytes hflow := by
    rw [withTracker, withTracker, calculatePriority_run (flow?_setFlow hflow),
      calculatePriority_run (flow?_setFlow hflow)]
    exact congrArg Except.ok (rankFlow_setGbrTracker h _ _ rfl P.now rnti qfi flow isDl bufferBytes)

variable (D) in
/-- Whatever was sent at the times of the samples, the readers see the samples in the window
that ends at `t` and no others. -/
def Forgets (windowMs : ℕ) (samples : List (ℕ × ℕ)) (t : ℕ) : Prop :=
  ∀ samples' : List (ℕ × ℕ), samples'.map Prod.fst = samples.map Prod.fst →
    (∀ s ∈ samples', s.2 < 2 ^ 32) → current windowMs t samples' = current windowMs t samples →
    SameRates D (after windowMs samples') (after windowMs (current windowMs t samples))

/-- A rate that forgets is zero once nothing was sent in its window. -/
theorem Forgets.rate_eq_zero {windowMs t : ℕ} {samples : List (ℕ × ℕ)}
    (h : Forgets D windowMs samples t) (hbytes : ∀ s ∈ samples, s.2 < 2 ^ 32)
    (hsilent : current windowMs t samples = []) : (after windowMs samples).currentRateBps = 0 := by
  rw [(h samples rfl hbytes rfl).rate, hsilent]
  rfl

/-- A rate forgets what has left its window exactly if the log holds nothing else, or spans
less than a millisecond. -/
theorem forgets_iff_windowCurrent {windowMs t : ℕ} {samples : List (ℕ × ℕ)}
    (hwindow : windowMs < 2 ^ 32) (hsorted : samples.Pairwise fun s s' ↦ s.1 ≤ s'.1)
    (hbytes : ∀ s ∈ samples, s.2 < 2 ^ 32) (ht : ∀ s ∈ samples, s.1 ≤ t) :
    Forgets D windowMs samples t ↔ WindowCurrent windowMs (samples.map Prod.fst) t := by
  constructor
  · intro h
    exact windowCurrent_of_rates hwindow hsorted hbytes
      fun samples' hsame hbytes' hcurrent ↦ (h samples' hsame hbytes' hcurrent).rate
  · intro h samples' hsame _ hcurrent
    have hsorted' : samples'.Pairwise fun s s' ↦ s.1 ≤ s'.1 :=
      List.pairwise_map.mp (hsame ▸ sorted_map_fst hsorted)
    have ht' : ∀ s ∈ samples', s.1 ≤ t := by
      rw [← List.forall_mem_map (f := Prod.fst) (P := fun time ↦ time ≤ t)] at ht ⊢
      rwa [hsame]
    rw [← hcurrent]
    exact sameRates_of_eq (currentRateBps_after_current hsorted' ht' (hsame ▸ h))

/-- Two samples fifty milliseconds apart, read while both are in the window of a hundred. -/
theorem forgets_busy : Forgets ℚ 100 [(0, 1000), (50000, 1000)] 100000 :=
  (forgets_iff_windowCurrent (by decide) (by decide) (by decide) (by decide)).mpr
    (Or.inl (by decide))

/-- Nearly a second later the rate is still 320000 bits a second. -/
theorem not_forgets : ¬ Forgets ℚ 100 [(0, 1000), (50000, 1000)] 1000000 := by
  intro h
  exact absurd (h.rate_eq_zero (by decide) (by decide)) (by decide)

end QosEngine

end NrScheduler
