import NrScheduler.Engine.PolicyHistory
import NrScheduler.Lib.Runs

/-!
# What the policies know after a run

Since a strategy was chosen, the round robin policy knows the slot of the last transmission to
each RNTI, and the policies that are fair in rates know the rate of the last second.  Neither
tells directions, cells or users of one RNTI apart.
-/

namespace NrScheduler

open SlidingWindow

variable {D : Type} [Double D]

/-- The last second before the latest of the transmissions, as samples. -/
def lastSecond (log : List Transmission) : List (ℕ × ℕ) :=
  let samples := log.map Transmission.sample
  inWindow Prod.fst (1000 * 1000) (lastTime Prod.fst samples) samples

namespace BuiltinPolicy

/-- A policy knows the last transmission to each RNTI, or the rate of its last second. -/
structure Recalls (policy : BuiltinPolicy D) (log : List Transmission) : Prop where
  lastScheduled : ∀ p, policy = .roundRobin p → ∀ rnti,
    p.lastScheduled.lookup rnti = (sentTo log rnti).getLast?.map Transmission.slot
  averageRate : ∀ p, policy.pfPolicy? = some p → ∀ rnti,
    p.getAverageRate rnti =
      ProportionalFairPolicy.computeAvgRate (lastSecond (sentTo log rnti))

theorem Tracks.recalls {policy : BuiltinPolicy D} {log : List Transmission}
    (h : policy.Tracks log) (hsorted : log.Pairwise fun x y ↦ x.time ≤ y.time) :
    policy.Recalls log := by
  refine ⟨h.lastScheduled, fun p hp rnti ↦ ?_⟩
  have hsamples : ((sentTo log rnti).map Transmission.sample).Pairwise
      fun a b ↦ a.1 ≤ b.1 :=
    List.pairwise_map.mpr (hsorted.sublist List.filter_sublist)
  rw [(h.rates p hp).average, (h.rates p hp).samples, foldl_push hsamples]
  rfl

end BuiltinPolicy

namespace SchedulerEngine

variable {e e' : SchedulerEngine (BuiltinPolicy D) D} {log : List Transmission}

/-- Each PDU is logged when it is sent, and a new strategy starts a new log. -/
def logTransmissions (e : SchedulerEngine (BuiltinPolicy D) D)
    (i : Platform × Event (BuiltinPolicy D)) (e' : SchedulerEngine (BuiltinPolicy D) D)
    (log : List Transmission) : List Transmission :=
  match i.2 with
  | .updateConfig _ => []
  | .slotIndication _ t => log ++ (pdusIn (e.emitted e')).map (TtiPdu.sentAt i.1 t.absoluteSlot)
  | _ => log

theorem tracks_next {i : Platform × Event (BuiltinPolicy D)} (hinv : e.Consistent)
    (h : e.policyManager.Tracks log) (hnext : e.next i = some e')
    (hbuiltin : ∀ policy, i.2 ≠ .setPolicyManager policy) :
    e'.policyManager.Tracks (logTransmissions e i e' log) := by
  obtain ⟨P, ev⟩ := i
  cases hslot : ev.slotNumber with
  | some n =>
      cases ev with
      | slotIndication c t => exact onSlotIndication_remembers h (onSlotIndication_of_next hnext)
      | _ => cases hslot
  | none =>
      cases hkeeps : ev.keepsPolicy with
      | true =>
          have hlog : logTransmissions e (P, ev) e' log = log := by
            cases ev with
            | updateConfig _ => cases hkeeps
            | slotIndication _ _ => cases hslot
            | _ => rfl
          rw [(next_quiet hinv hnext hkeeps hslot).1, hlog]
          exact h
      | false =>
          cases ev with
          | updateConfig config =>
              obtain rfl := Except.ok.inj (next_eq_some.mp hnext)
              exact BuiltinPolicy.tracks_create config.strategy
          | setPolicyManager policy => exact absurd rfl (hbuiltin policy)
          | _ => cases hkeeps

/-- The log is in order, and no later than what comes. -/
structure LoggedBefore (p : SchedulerEngine (BuiltinPolicy D) D × List Transmission)
    (is : List (Platform × Event (BuiltinPolicy D))) : Prop where
  consistent : p.1.Consistent
  tracks : p.1.policyManager.Tracks p.2
  sorted : p.2.Pairwise fun x y ↦ x.time ≤ y.time
  before : ∀ x ∈ p.2, ∀ i ∈ is, x.time ≤ i.1.now
  clock : is.Pairwise fun i j ↦ i.1.now ≤ j.1.now
  builtin : ∀ i ∈ is, ∀ policy, i.2 ≠ .setPolicyManager policy

theorem LoggedBefore.next {p p' : SchedulerEngine (BuiltinPolicy D) D × List Transmission}
    {i : Platform × Event (BuiltinPolicy D)} {is : List (Platform × Event (BuiltinPolicy D))}
    (h : LoggedBefore p (i :: is))
    (hnext : Runs.monitored SchedulerEngine.next logTransmissions p i = some p') :
    LoggedBefore p' is := by
  obtain ⟨hstep, hlog⟩ := Runs.monitored_eq_some.mp hnext
  obtain ⟨hfirst, hclock⟩ := List.pairwise_cons.mp h.clock
  have hbefore : ∀ x ∈ p.2, x.time ≤ i.1.now := fun x hx ↦ h.before x hx i List.mem_cons_self
  have hnew : p'.2 = [] ∨ ∃ pdus : List TtiPdu, ∃ slot,
      p'.2 = p.2 ++ pdus.map (TtiPdu.sentAt i.1 slot) := by
    rw [hlog, logTransmissions]
    split
    · exact Or.inl rfl
    · exact Or.inr ⟨_, _, rfl⟩
    · exact Or.inr ⟨[], 0, (List.append_nil _).symm⟩
  have htime : ∀ x ∈ p'.2, x ∈ p.2 ∨ x.time = i.1.now := by
    intro x hx
    rcases hnew with hnil | ⟨pdus, slot, hp'⟩
    · rw [hnil] at hx
      cases hx
    · rw [hp', List.mem_append] at hx
      refine hx.imp_right fun hx ↦ ?_
      obtain ⟨_, _, rfl⟩ := List.mem_map.mp hx
      rfl
  refine
    { consistent := h.consistent.step hstep
      tracks := hlog ▸ tracks_next h.consistent h.tracks hstep (h.builtin i List.mem_cons_self)
      sorted := ?_
      before := ?_
      clock := hclock
      builtin := fun j hj ↦ h.builtin j (List.mem_cons_of_mem i hj) }
  · rcases hnew with hnil | ⟨pdus, slot, hp'⟩
    · rw [hnil]
      exact List.Pairwise.nil
    · rw [hp', List.pairwise_append]
      refine ⟨h.sorted, List.pairwise_map.mpr (List.pairwise_of_forall fun _ _ ↦ le_rfl), ?_⟩
      intro x hx y hy
      obtain ⟨_, _, rfl⟩ := List.mem_map.mp hy
      exact hbefore x hx
  · intro x hx j hj
    rcases htime x hx with hold | hnow
    · exact h.before x hold j (List.mem_cons_of_mem i hj)
    · exact hnow ▸ hfirst j hj

/-- After every run in which the clock does not step back, the policy knows of each RNTI what
the log of transmissions says. -/
theorem recalls_of_run {config : SchedulerConfig}
    {is : List (Platform × Event (BuiltinPolicy D))} {e : SchedulerEngine (BuiltinPolicy D) D}
    {log : List Transmission} (hclock : is.Pairwise fun i j ↦ i.1.now ≤ j.1.now)
    (hbuiltin : ∀ i ∈ is, ∀ policy, i.2 ≠ .setPolicyManager policy)
    (h : is.foldlM (Runs.monitored SchedulerEngine.next logTransmissions) (create config, []) =
      some (e, log)) : e.policyManager.Recalls log := by
  have hstart : LoggedBefore (create config, []) is :=
    { consistent := consistent_create config
      tracks := BuiltinPolicy.tracks_create config.strategy
      sorted := List.Pairwise.nil
      before := fun _ hx ↦ (by cases hx)
      clock := hclock
      builtin := hbuiltin }
  have hend := Runs.foldlM_of_ahead LoggedBefore
    (fun _ _ _ _ hlogged hnext ↦ hlogged.next hnext) hstart h
  exact hend.tracks.recalls hend.sorted

/-- A transmission of the second before last is forgotten, and the directions count alike. -/
theorem recalls_of_run_fair :
    let timed (now : ℕ) (ev : Event (BuiltinPolicy ℚ)) : Platform × Event (BuiltinPolicy ℚ) :=
      ({ Platform.plain with now := now }, ev)
    let is : List (Platform × Event (BuiltinPolicy ℚ)) :=
      [timed 0 (.addCell (.fdd 1 4) .cleared), timed 0 (.ueConfig { rnti := 7, cellId := 1 }),
        timed 0 (.dlData ⟨7, 1, 1, 100⟩), timed 10 (.slotIndication 1 {}),
        timed 10 (.sr { rnti := 7, cellId := 1 }), timed 1200000 (.slotIndication 1 { slot := 1 }),
        timed 1300000 (.slotIndication 1 { slot := 2 })]
    ∃ (e : RationalEngine) (log : List Transmission),
      is.foldlM (Runs.monitored SchedulerEngine.next logTransmissions)
        (create { strategy := .proportionalFair }, []) = some (e, log) ∧
      (sentTo log 7).length = 5 ∧ (lastSecond (sentTo log 7)).length = 4 ∧
      e.policyManager.Recalls log := by
  intro timed is
  have hlengths : (is.foldlM (Runs.monitored SchedulerEngine.next logTransmissions)
      ((create { strategy := .proportionalFair }, []) : RationalEngine × List Transmission)).any
      (fun p ↦ (sentTo p.2 7).length == 5 && (lastSecond (sentTo p.2 7)).length == 4) = true := by
    decide +kernel
  obtain ⟨⟨e, log⟩, hrun, hlengths⟩ := (Option.any_eq_true _ _).mp hlengths
  obtain ⟨hall, hlast⟩ := Bool.and_eq_true_iff.mp hlengths
  refine ⟨e, log, hrun, beq_iff_eq.mp hall, beq_iff_eq.mp hlast, recalls_of_run ?_ ?_ hrun⟩
  · decide
  · intro i hi policy hset
    have hnone : is.all fun i ↦ i.2.keepsPolicy := by decide
    have hkeeps := List.all_eq_true.mp hnone i hi
    rw [hset] at hkeeps
    cases hkeeps

end SchedulerEngine

end NrScheduler
