import NrScheduler.Engine.ThroughputOrder
import NrScheduler.Lib.Runs

/-!
# Starvation under the maximum throughput policy

Nothing ages under this policy.  A user that is outranked in every slot it competes in is never
served, however long it waits.
-/

namespace NrScheduler

open Runs

namespace SchedulerEngine

variable {D : Type} [Double D] {e₀ e e' : SchedulerEngine (BuiltinPolicy D) D}

/-- In a slot of the cell, the user does not compete for the direction or is outranked. -/
def crowdsOut (c : CellId) (isDl : Bool) (r : Rnti) (e : SchedulerEngine (BuiltinPolicy D) D)
    (i : Platform × Event (BuiltinPolicy D)) : Bool :=
  match i.2 with
  | .slotIndication c' t => c' != c || !e.contends c t isDl r || e.isOutranked c t isDl r
  | _ => true

/-- Nothing has been sent to the user in this direction, and nothing will be. -/
structure Starves (e₀ : SchedulerEngine (BuiltinPolicy D) D) (c : CellId) (isDl : Bool) (r : Rnti)
    (e : SchedulerEngine (BuiltinPolicy D) D) (is : List (Platform × Event (BuiltinPolicy D))) :
    Prop where
  consistent : e.Consistent
  maximizes : e.MaximizesThroughput
  keeps : ∀ i ∈ is, i.2.maximizes = true
  crowded : Throughout next (fun e i ↦ crowdsOut c isDl r e i = true) e is
  unserved : ∃ reqs, e.sent = e₀.sent ++ reqs ∧
    ∀ q ∈ reqs, q.cellId = c → q.isDownlink = isDl → r ∉ q.pdus.map TtiPdu.rnti

variable {c : CellId} {isDl : Bool} {r : Rnti} {i : Platform × Event (BuiltinPolicy D)}
  {is : List (Platform × Event (BuiltinPolicy D))}

/-- A slot that crowds the user out sends nothing to it. -/
theorem unserved_of_crowdsOut (hscores : ScoresOrdered D) (hinv : e.Consistent)
    (hmax : e.MaximizesThroughput) {P : Platform} {c' : CellId} {t : FrameTiming}
    (hcrowds : crowdsOut c isDl r e (P, .slotIndication c' t) = true)
    (h : (e.onSlotIndication P c' t).run none = .ok e') :
    e'.MaximizesThroughput ∧ ∃ reqs, e'.sent = e.sent ++ reqs ∧
      ∀ q ∈ reqs, q.cellId = c → q.isDownlink = isDl → r ∉ q.pdus.map TtiPdu.rnti := by
  cases hlookup : e.cells.lookup c' with
  | none =>
      obtain rfl := Except.ok.inj ((onSlotIndication_skipped hlookup P t).symm.trans h)
      refine ⟨⟨hmax.policyManager, hmax.enableQos, hmax.enableSlicing⟩, [],
        (List.append_nil _).symm, ?_⟩
      rintro _ ⟨⟩
  | some cell =>
      obtain ⟨hmax', reqs, hsent, hreqs⟩ := slot_outranked hmax hscores hinv hlookup h
      refine ⟨hmax', reqs, hsent, ?_⟩
      intro q hq hcell hdirection hr
      have hnext : e.next (P, .slotIndication c' t) = some e' := next_eq_some.mpr h
      have hemitted : q ∈ e.emitted e' := by
        rw [emitted_eq hsent]
        exact hq
      obtain ⟨_, _, _, _, dl, ul, hev, houtcome, hmem⟩ := mem_emitted hnext hemitted
      cases hev
      obtain rfl : c' = c := (houtcome.request_cellId hinv hmem).symm.trans hcell
      obtain ⟨pdu, hpdu, rfl⟩ := List.mem_map.mp hr
      obtain ⟨_, _, _, _, hcontends, _⟩ := houtcome.contends hmem hpdu
      subst hdirection
      simp only [crowdsOut, bne_self_eq_false, hcontends, Bool.not_true, Bool.false_or] at hcrowds
      exact hreqs _ _ hcrowds q hq rfl hr

theorem Starves.next (h : Starves e₀ c isDl r e (i :: is)) (hscores : ScoresOrdered D)
    (hnext : e.next i = some e') : Starves e₀ c isDl r e' is := by
  obtain ⟨hcrowds, hrest⟩ := h.crowded
  obtain ⟨earlier, hearlier, hunserved⟩ := h.unserved
  obtain ⟨hmax, reqs, hsent, hreqs⟩ : e'.MaximizesThroughput ∧ ∃ reqs, e'.sent = e.sent ++ reqs ∧
      ∀ q ∈ reqs, q.cellId = c → q.isDownlink = isDl → r ∉ q.pdus.map TtiPdu.rnti := by
    cases hslot : i.2.slotNumber with
    | none =>
        obtain ⟨hmax, hsent⟩ := h.maximizes.next_quiet h.consistent hnext
          (h.keeps i List.mem_cons_self) hslot
        refine ⟨hmax, [], hsent.trans (List.append_nil _).symm, ?_⟩
        rintro _ ⟨⟩
    | some n =>
        obtain ⟨P, ev⟩ := i
        cases ev with
        | slotIndication c' t =>
            exact unserved_of_crowdsOut hscores h.consistent h.maximizes hcrowds
              (onSlotIndication_of_next hnext)
        | _ => cases hslot
  refine
    { consistent := h.consistent.step hnext
      maximizes := hmax
      keeps := fun j hj ↦ h.keeps j (List.mem_cons_of_mem i hj)
      crowded := hrest e' hnext
      unserved := ⟨earlier ++ reqs, by rw [hsent, hearlier, List.append_assoc], ?_⟩ }
  intro q hq
  rcases List.mem_append.mp hq with hq | hq
  · exact hunserved q hq
  · exact hreqs q hq

/-- Whatever happened before, a user that is crowded out of every slot of a run gets nothing in
that run. -/
theorem starved_of_run {config : SchedulerConfig}
    {before is : List (Platform × Event (BuiltinPolicy D))} (hscores : ScoresOrdered D)
    (hbefore : before.foldlM next (create config) = some e₀) (hmax : e₀.MaximizesThroughput)
    (hkeeps : ∀ i ∈ is, i.2.maximizes = true)
    (hcrowds : Throughout next (fun e i ↦ crowdsOut c isDl r e i = true) e₀ is)
    (hrun : is.foldlM next e₀ = some e') :
    ∀ q ∈ e₀.emitted e', q.cellId = c → q.isDownlink = isDl → r ∉ q.pdus.map TtiPdu.rnti := by
  have hinv : e₀.Consistent :=
    foldlM_of_stable (fun _ _ _ hinv hnext ↦ hinv.step hnext) (consistent_create config) hbefore
  have hstart : Starves e₀ c isDl r e₀ is :=
    { consistent := hinv
      maximizes := hmax
      keeps := hkeeps
      crowded := hcrowds
      unserved := ⟨[], (List.append_nil _).symm, fun _ hq ↦ (by cases hq)⟩ }
  obtain ⟨reqs, hsent, hunserved⟩ := (foldlM_of_ahead (Starves e₀ c isDl r)
    (fun _ _ _ _ h hnext ↦ h.next hscores hnext) hstart hrun).unserved
  rw [emitted_eq hsent]
  exact hunserved

/-- With room for one of two users, the one with the poorer channel waits for ever. -/
theorem starved_of_run_poor :
    let user (rnti : Rnti) (cqi : ℕ) : List (Event (BuiltinPolicy ℚ)) :=
      [.ueConfig { rnti := rnti, cellId := 1 }, .dlData ⟨rnti, 1, 1, 5000⟩,
        .csiUpdate rnti 1 { widebandCqi := cqi }]
    let before := onPlain (.addCell (.fdd 1 100) .cleared :: (user 7 15 ++ user 8 3))
    let is : List (Platform × Event (BuiltinPolicy ℚ)) :=
      onPlain [.slotIndication 1 {}, .slotIndication 1 { slot := 1 },
        .dlData ⟨8, 1, 1, 20000⟩, .slotIndication 1 { slot := 2 }]
    let config : SchedulerConfig :=
      { strategy := .maxThroughput, enableQos := false, maxPdschPerTti := 1 }
    ∃ e₀ e' : RationalEngine, before.foldlM next (create config) = some e₀ ∧
      is.foldlM next e₀ = some e' ∧ (e₀.emitted e').length = 3 ∧
      ∀ q ∈ e₀.emitted e', q.cellId = 1 → q.isDownlink = true → 8 ∉ q.pdus.map TtiPdu.rnti := by
  intro user before is config
  have hcrowds : (before.foldlM next (create config : RationalEngine)).any (fun e₀ ↦
      decide (Throughout next (fun e i ↦ crowdsOut 1 true 8 e i = true) e₀ is) &&
        (is.foldlM next e₀).any fun e' ↦ (e₀.emitted e').length == 3) = true := by
    decide +kernel
  obtain ⟨e₀, hbefore, hcrowds⟩ := (Option.any_eq_true _ _).mp hcrowds
  obtain ⟨hcrowds, hsends⟩ := Bool.and_eq_true_iff.mp hcrowds
  obtain ⟨e', hrun, hlength⟩ := (Option.any_eq_true _ _).mp hsends
  refine ⟨e₀, e', hbefore, hrun, beq_iff_eq.mp hlength, ?_⟩
  exact starved_of_run scoresOrdered_rational hbefore
    (maximizes_of_run (by decide) (by decide) hbefore) (by decide)
    (of_decide_eq_true hcrowds) hrun

end SchedulerEngine

end NrScheduler
