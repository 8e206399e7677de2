import NrScheduler.Core.HarqSpec

/-!
# The order of feedback

An answered process waits for nothing more.  Of a list of feedbacks each process therefore
hears the first one about it, and the list may be reordered and thinned out to these.
-/

namespace NrScheduler

namespace HarqProcess

variable {p : HarqProcess}

theorem answered_of_state_ne (h : p.state ≠ .pending) (ack : Bool) : p.answered ack = p :=
  if_neg h

theorem state_answered_ne (p : HarqProcess) (ack : Bool) :
    (p.answered ack).state ≠ .pending := by
  rw [answered]
  split
  · cases ack <;> exact HarqState.noConfusion
  · assumption

/-- The first answer counts. -/
theorem answered_answered (p : HarqProcess) (ack ack' : Bool) :
    (p.answered ack).answered ack' = p.answered ack :=
  answered_of_state_ne (p.state_answered_ne ack) ack'

theorem ndi_answered (h : p.state = .pending) (ack : Bool) :
    (p.answered ack).ndi = (p.ndi ^^ ack) := by
  rw [answered, if_pos h]
  cases ack
  · exact (Bool.xor_false p.ndi).symm
  · exact (Bool.xor_true p.ndi).symm

end HarqProcess

namespace HarqEntity

variable {n : ℕ} {h : HarqEntity n} {id : HarqId} {fb : HarqFeedback} {fbs : List HarqFeedback}

def awaits (h : HarqEntity n) (id : HarqId) : Bool :=
  (h.getProcess id).any fun p ↦ decide (p.state = .pending)

def firstFor (fbs : List HarqFeedback) (id : HarqId) : Option HarqFeedback :=
  fbs.find? fun fb ↦ decide (fb.harqId = id)

/-- For each process that was pending at the start, the first feedback about it. -/
def firstFeedbacks (h : HarqEntity n) (fbs : List HarqFeedback) : List HarqFeedback :=
  ((List.range n).filter h.awaits).filterMap (firstFor fbs)

/-- The process was pending at the start, and the first feedback about it is an ACK. -/
def FirstAcked (h : HarqEntity n) (fbs : List HarqFeedback) (id : HarqId) : Prop :=
  h.awaits id = true ∧ ∃ fb, firstFor fbs id = some fb ∧ fb.ack = true

/-- How often the new data indicator of a process flips while a list is processed. -/
def ndiToggles (id : HarqId) (h : HarqEntity n) : List HarqFeedback → ℕ
  | [] => 0
  | fb :: fbs =>
      (if ((h.processFeedback fb).getProcess id).map (·.ndi) = (h.getProcess id).map (·.ndi)
        then 0 else 1) + ndiToggles id (h.processFeedback fb) fbs

theorem ext_getProcess {h' : HarqEntity n} (hsame : ∀ id, h.getProcess id = h'.getProcess id) :
    h = h' := by
  obtain ⟨ps⟩ := h
  obtain ⟨ps'⟩ := h'
  congr 1
  ext id hid : 1
  have hget := hsame id
  rw [getProcess, getProcess, Vector.getElem?_eq_getElem hid,
    Vector.getElem?_eq_getElem hid] at hget
  exact Option.some.inj hget

theorem lt_of_awaits (hid : h.awaits id = true) : id < n := by
  obtain ⟨p, hp, _⟩ := (Option.any_eq_true _ _).mp hid
  exact (Vector.getElem?_eq_some_iff.mp hp).1

theorem state_of_awaits {p : HarqProcess} (hp : h.getProcess id = some p) :
    h.awaits id = decide (p.state = .pending) := by
  rw [awaits, hp, Option.any_some]

theorem harqId_firstFor (hfb : firstFor fbs id = some fb) : fb.harqId = id := by
  have hfound := List.find?_some hfb
  exact of_decide_eq_true hfound

theorem firstFor_cons_of_eq (hid : fb.harqId = id) : firstFor (fb :: fbs) id = some fb :=
  List.find?_cons_of_pos (decide_eq_true hid)

theorem firstFor_cons_of_ne (hid : fb.harqId ≠ id) :
    firstFor (fb :: fbs) id = firstFor fbs id :=
  List.find?_cons_of_neg (by rwa [decide_eq_true_eq])

theorem mem_firstFeedbacks : fb ∈ h.firstFeedbacks fbs ↔
    h.awaits fb.harqId = true ∧ firstFor fbs fb.harqId = some fb := by
  rw [firstFeedbacks, List.mem_filterMap]
  constructor
  · rintro ⟨id, hid, hfirst⟩
    obtain rfl := harqId_firstFor hfirst
    exact ⟨(List.mem_filter.mp hid).2, hfirst⟩
  · rintro ⟨hawaits, hfirst⟩
    refine ⟨fb.harqId, ?_, hfirst⟩
    exact List.mem_filter.mpr ⟨List.mem_range.mpr (lt_of_awaits hawaits), hawaits⟩

/-- Each process ends as the first feedback about it leaves it. -/
theorem getProcess_foldl (h : HarqEntity n) (fbs : List HarqFeedback) (id : HarqId) :
    (fbs.foldl processFeedback h).getProcess id = (h.getProcess id).map fun p ↦
      (firstFor fbs id).elim p fun fb ↦ p.answered fb.ack := by
  induction fbs generalizing h with
  | nil => exact Option.map_id'.symm
  | cons fb fbs ih =>
      rw [List.foldl_cons, ih, getProcess_processFeedback]
      by_cases hid : fb.harqId = id
      · rw [if_pos hid.symm, firstFor_cons_of_eq hid, Option.map_map]
        congr 1
        funext p
        cases firstFor fbs id with
        | none => rfl
        | some fb' => exact p.answered_answered fb.ack fb'.ack
      · rw [if_neg (Ne.symm hid), firstFor_cons_of_ne hid]

/-- The first feedbacks in any order hold, about each process, what the list holds. -/
theorem firstFor_of_perm {order : List HarqFeedback}
    (hperm : order.Perm (h.firstFeedbacks fbs)) (id : HarqId) :
    firstFor order id = if h.awaits id then firstFor fbs id else none := by
  cases hfirst : firstFor order id with
  | some fb =>
      obtain rfl := harqId_firstFor hfirst
      have hmem := hperm.mem_iff.mp (List.mem_of_find?_eq_some hfirst)
      obtain ⟨hawaits, hsame⟩ := mem_firstFeedbacks.mp hmem
      rw [if_pos hawaits, hsame]
  | none =>
      split
      · rename_i hawaits
        symm
        rw [Option.eq_none_iff_forall_ne_some]
        intro fb hfb
        obtain rfl := harqId_firstFor hfb
        have hmem := hperm.mem_iff.mpr (mem_firstFeedbacks.mpr ⟨hawaits, hfb⟩)
        exact List.find?_eq_none.mp hfirst fb hmem (decide_eq_true rfl)
      · rfl

theorem foldl_eq_of_perm {order : List HarqFeedback}
    (hperm : order.Perm (h.firstFeedbacks fbs)) :
    fbs.foldl processFeedback h = order.foldl processFeedback h := by
  apply ext_getProcess
  intro id
  rw [getProcess_foldl, getProcess_foldl, firstFor_of_perm hperm]
  cases hp : h.getProcess id with
  | none => rfl
  | some p =>
      rw [Option.map_some, Option.map_some, state_of_awaits hp]
      by_cases hpending : p.state = .pending
      · rw [decide_eq_true hpending, if_pos rfl]
      · rw [decide_eq_false hpending, if_neg Bool.false_ne_true]
        cases firstFor fbs id with
        | none => rfl
        | some fb => exact congrArg some (HarqProcess.answered_of_state_ne hpending fb.ack)

/-- Feedback about a process that waits for nothing changes nothing. -/
theorem processFeedback_of_not_awaits (hid : h.awaits fb.harqId = false) :
    h.processFeedback fb = h := by
  apply ext_getProcess
  intro id
  rw [getProcess_processFeedback]
  split
  · rename_i heq
    subst heq
    cases hp : h.getProcess fb.harqId with
    | none => rfl
    | some p =>
        rw [state_of_awaits hp] at hid
        exact congrArg some (HarqProcess.answered_of_state_ne (of_decide_eq_false hid) fb.ack)
  · rfl

theorem awaits_eq_false_of_le (hid : n ≤ id) : h.awaits id = false := by
  rw [awaits, getProcess, Vector.getElem?_eq_none hid, Option.any_none]

/-- Once it was answered a process waits for nothing, whatever else came. -/
theorem not_awaits_of_mem (hfb : fb ∈ fbs) :
    (fbs.foldl processFeedback h).awaits fb.harqId = false := by
  rw [awaits, getProcess_foldl]
  cases h.getProcess fb.harqId with
  | none => rfl
  | some p =>
      cases hfirst : firstFor fbs fb.harqId with
      | none =>
          exact (List.find?_eq_none.mp hfirst fb hfb (decide_eq_true rfl)).elim
      | some fb' => exact decide_eq_false (p.state_answered_ne fb'.ack)

theorem awaits_processFeedback_of_eq (hid : fb.harqId = id) :
    (h.processFeedback fb).awaits id = false :=
  hid ▸ not_awaits_of_mem (List.mem_singleton_self fb)

theorem awaits_processFeedback_of_ne (hid : fb.harqId ≠ id) :
    (h.processFeedback fb).awaits id = h.awaits id := by
  rw [awaits, getProcess_processFeedback, if_neg (Ne.symm hid), awaits]

/-- One feedback flips the indicator of the process it acknowledges, if that waits. -/
theorem ndi_processFeedback (h : HarqEntity n) (fb : HarqFeedback) (id : HarqId) :
    ((h.processFeedback fb).getProcess id).map (·.ndi) = (h.getProcess id).map (·.ndi) ↔
      ¬ (h.awaits id = true ∧ fb.harqId = id ∧ fb.ack = true) := by
  rw [getProcess_processFeedback]
  by_cases hid : fb.harqId = id
  · rw [if_pos hid.symm]
    cases hp : h.getProcess id with
    | none => simp [awaits, hp]
    | some p =>
        rw [state_of_awaits hp, decide_eq_true_eq]
        by_cases hpending : p.state = .pending
        · simp only [Option.map_some, HarqProcess.ndi_answered hpending, hpending, hid, true_and]
          cases fb.ack <;> cases p.ndi <;> decide
        · simp only [Option.map_some, HarqProcess.answered_of_state_ne hpending, hpending,
            false_and, not_false_eq_true]
  · simp only [if_neg (Ne.symm hid), hid, false_and, and_false, not_false_eq_true]

theorem ndiToggles_eq_toNat (h : HarqEntity n) (fbs : List HarqFeedback) (id : HarqId) :
    h.ndiToggles id fbs = (h.awaits id && (firstFor fbs id).any (·.ack)).toNat := by
  induction fbs generalizing h with
  | nil => rw [ndiToggles, firstFor, List.find?_nil, Option.any_none, Bool.and_false]; rfl
  | cons fb fbs ih =>
      rw [ndiToggles, ih]
      simp only [ndi_processFeedback]
      by_cases hid : fb.harqId = id
      · rw [awaits_processFeedback_of_eq hid, firstFor_cons_of_eq hid, Option.any_some]
        simp only [hid, true_and]
        cases h.awaits id <;> cases fb.ack <;> rfl
      · rw [awaits_processFeedback_of_ne hid, firstFor_cons_of_ne hid]
        simp only [hid, false_and, and_false, not_false_eq_true, if_true, Nat.zero_add]

theorem firstAcked_iff : h.FirstAcked fbs id ↔
    (h.awaits id && (firstFor fbs id).any (·.ack)) = true := by
  rw [FirstAcked, Bool.and_eq_true, Option.any_eq_true]

/-- A list of feedbacks does what, in any order, the first feedback about each pending process
does.  Repetitions and unknown processes change nothing, and the new data indicators of
exactly the pending processes that are first acknowledged flip, once. -/
theorem feedback_order_irrelevant (h : HarqEntity n) (fbs order : List HarqFeedback)
    (hperm : order.Perm (h.firstFeedbacks fbs)) :
    fbs.foldl processFeedback h = order.foldl processFeedback h ∧
    (∀ before fb, before ++ [fb] <+: fbs → n ≤ fb.harqId ∨ fb.harqId ∈ before.map (·.harqId) →
      (before.foldl processFeedback h).processFeedback fb = before.foldl processFeedback h) ∧
    ∀ id, (h.FirstAcked fbs id → h.ndiToggles id fbs = 1) ∧
      (¬ h.FirstAcked fbs id → h.ndiToggles id fbs = 0) := by
  refine ⟨foldl_eq_of_perm hperm, ?_, ?_⟩
  · intro before fb _ hnew
    apply processFeedback_of_not_awaits
    rcases hnew with hid | hid
    · exact awaits_eq_false_of_le hid
    · obtain ⟨fb', hmem, hsame⟩ := List.mem_map.mp hid
      exact hsame ▸ not_awaits_of_mem hmem
  · intro id
    rw [ndiToggles_eq_toNat, firstAcked_iff]
    constructor
    · intro hacked
      rw [hacked, Bool.toNat_true]
    · intro hacked
      rw [Bool.eq_false_of_not_eq_true hacked, Bool.toNat_false]

/-- An entity whose processes of the list are pending. -/
def pendingAt (n : ℕ) (ids : List HarqId) : HarqEntity n :=
  ⟨Vector.ofFn fun i ↦ { id := i, state := if (i : ℕ) ∈ ids then .pending else .idle }⟩

/-- Two answers that contradict earlier ones, an unknown process and one that does not wait. -/
theorem feedback_order_irrelevant_contradictory :
    [HarqFeedback.mk 3 true false {}, .mk 5 false false {}, .mk 3 false false {},
      .mk 20 true false {}, .mk 5 true false {}, .mk 4 true false {}].foldl processFeedback
        (pendingAt 16 [3, 5]) =
    [HarqFeedback.mk 5 false false {}, .mk 3 true false {}].foldl processFeedback
      (pendingAt 16 [3, 5]) :=
  (feedback_order_irrelevant _ _ _ (by decide +kernel)).1

end HarqEntity

/-- A user passes each feedback on to the entity of its direction. -/
theorem UeContext.harq_foldl_processHarqFeedback (ue : UeContext)
    (fbs : List (Bool × HarqFeedback)) (isDl : Bool) :
    (fbs.foldl (fun ue fb ↦ ue.processHarqFeedback fb.1 fb.2) ue).harq isDl =
      ((fbs.filter (·.1 == isDl)).map Prod.snd).foldl HarqEntity.processFeedback
        (ue.harq isDl) := by
  induction fbs generalizing ue with
  | nil => rfl
  | cons fb fbs ih =>
      rw [List.foldl_cons, ih]
      obtain ⟨dir, fb⟩ := fb
      cases dir <;> cases isDl <;> rfl

end NrScheduler
