import NrScheduler.Engine.RoundRobinSlot

/-!
# Isolation of cells

The requests for a cell in a run, compared with those of the run that only sees the events
addressed to the cell or to no cell.  The cells share the history of the round robin
policy, which is kept by RNTI.
-/

namespace NrScheduler

open LockMonad Runs

/-- The event leaves the decisions to the round robin policy. -/
def Event.KeepsRoundRobin {D : Type} : Event (BuiltinPolicy D) → Prop
  | .updateConfig config => config.IsRoundRobin
  | .setPolicyManager policy => ∃ p, policy = .roundRobin p
  | _ => True

namespace SchedulerEngine

variable {D : Type}

/-- The cell in which each RNTI was last granted anything under the current policy. -/
abbrev LastGrants := Rnti → Option CellId

def observeGrants (e : SchedulerEngine (BuiltinPolicy D) D)
    (i : Platform × Event (BuiltinPolicy D)) (e' : SchedulerEngine (BuiltinPolicy D) D)
    (last : LastGrants) : LastGrants := fun r ↦
  match i.2 with
  | .slotIndication c _ =>
      if r ∈ (pdusIn (e.emitted e')).map TtiPdu.rnti then some c else last r
  | .updateConfig _ | .setPolicyManager _ => none
  | _ => last r

/-- In the slots of the cell, no competing user with a buffer has an RNTI that was last
granted in another cell. -/
def ReadsOwnGrants (c : CellId) (s : SchedulerEngine (BuiltinPolicy D) D × LastGrants)
    (i : Platform × Event (BuiltinPolicy D))
    (_ : SchedulerEngine (BuiltinPolicy D) D × LastGrants) : Prop :=
  match i.2 with
  | .slotIndication cellId t =>
      cellId = c → ∀ cell ∈ s.1.cells.lookup c, ∀ ue ∈ cell.ueRepo.users i.1, ∀ isDl,
        s.1.contends c t isDl ue.rnti = true → ue.buffer isDl ≠ 0 →
          ∀ c' ∈ s.2 ue.rnti, c' = c
  | _ => True

instance (c : CellId) (s : SchedulerEngine (BuiltinPolicy D) D × LastGrants)
    (i : Platform × Event (BuiltinPolicy D))
    (s' : SchedulerEngine (BuiltinPolicy D) D × LastGrants) :
    Decidable (ReadsOwnGrants c s i s') := by
  -- at most one cell, so there is no need to go through all of them
  have own : ∀ o : Option CellId, Decidable (∀ c' ∈ o, c' = c) := Option.decidableForallMem
  obtain ⟨P, ev⟩ := i
  refine Event.quietCases (motive := fun ev ↦ Decidable (ReadsOwnGrants c s (P, ev) s')) ?_ ?_ ?_ ev
  · intro cellId t
    dsimp only [ReadsOwnGrants]
    infer_instance
  · exact fun _ _ ↦ isTrue trivial
  · exact fun ev hquiet ↦ isTrue (by cases ev <;> trivial)

def requestsFor (c : CellId) (e : SchedulerEngine (BuiltinPolicy D) D) : List TtiRequest :=
  e.sent.filter fun r ↦ r.cellId == c

/-- Where the run completes, the run without the events of other cells completes too, with
the same requests for the cell. -/
def CellIsolated [Double D] (c : CellId) (config : SchedulerConfig)
    (is : List (Platform × Event (BuiltinPolicy D))) : Prop :=
  ∀ e', is.foldlM next (create config : SchedulerEngine (BuiltinPolicy D) D) = some e' →
    ∃ f', (is.filter fun i ↦ i.2.concerns c).foldlM next (create config) = some f' ∧
      requestsFor c f' = requestsFor c e'

/-! ## What the two runs share -/

/-- The policies agree on the RNTIs that were not last granted in another cell. -/
def AgreeOn (c : CellId) (last : LastGrants) (p q : RoundRobinPolicy) : Prop :=
  ∀ r, (∀ c' ∈ last r, c' = c) → q.lastScheduled.lookup r = p.lastScheduled.lookup r

/-- The engine `f` of the run without other cells next to the engine of the full run. -/
structure Isolates (c : CellId) (s : SchedulerEngine (BuiltinPolicy D) D × LastGrants)
    (f : SchedulerEngine (BuiltinPolicy D) D) : Prop where
  cell : s.1.Matches c f
  config : f.config = s.1.config
  isRoundRobin : s.1.config.IsRoundRobin
  policies : ∃ p q, s.1.policyManager = .roundRobin p ∧ f.policyManager = .roundRobin q ∧
    AgreeOn c s.2 p q
  requests : requestsFor c f = requestsFor c s.1
  consistent : s.1.Consistent
  consistent' : f.Consistent

variable [Double D] {c : CellId} {s s' : SchedulerEngine (BuiltinPolicy D) D × LastGrants}
  {f : SchedulerEngine (BuiltinPolicy D) D} {P : Platform} {ev : Event (BuiltinPolicy D)}

omit [Double D] in
theorem Isolates.of_same (h : Isolates c s f) {f' : SchedulerEngine (BuiltinPolicy D) D}
    (hcell : s'.1.Matches c f') (hconfig : s'.1.config = s.1.config)
    (hconfig' : f'.config = f.config) (hpolicy : s'.1.policyManager = s.1.policyManager)
    (hpolicy' : f'.policyManager = f.policyManager) (hlast : s'.2 = s.2)
    (hsent : s'.1.sent = s.1.sent) (hsent' : f'.sent = f.sent) (hinv : s'.1.Consistent)
    (hinv' : f'.Consistent) : Isolates c s' f' where
  cell := hcell
  config := by rw [hconfig', hconfig, h.config]
  isRoundRobin := hconfig ▸ h.isRoundRobin
  policies := by
    rw [hpolicy, hpolicy', hlast]
    exact h.policies
  requests := by
    have hrequests := h.requests
    rw [requestsFor, requestsFor] at hrequests ⊢
    rw [hsent, hsent', hrequests]
  consistent := hinv
  consistent' := hinv'

omit [Double D] in
/-- Whether the engines run, and their statistics, do not matter. -/
theorem Isolates.of_flags (h : Isolates c s f) {running running' : Bool} {stats stats' : Statistics}
    (hs' : s'.1 = { s.1 with running := running, stats := stats }) (hlast : s'.2 = s.2) :
    Isolates c s' { f with running := running', stats := stats' } := by
  have hinv : Consistent { s.1 with running := running, stats := stats } :=
    ⟨h.consistent.cellId, h.consistent.ptr, h.consistent.harq⟩
  refine h.of_same ?_ (hs' ▸ rfl) rfl (hs' ▸ rfl) rfl hlast (hs' ▸ rfl) rfl (hs' ▸ hinv)
    ⟨h.consistent'.cellId, h.consistent'.ptr, h.consistent'.harq⟩
  exact hs' ▸ ⟨h.cell.lookup, h.cell.created⟩

omit [Double D] in
/-- The same new policy makes the policies agree, whatever they were before. -/
theorem Isolates.of_newPolicy (h : Isolates c s f) {config config' : SchedulerConfig}
    {p : RoundRobinPolicy} (hroundRobin : config.IsRoundRobin) (hconfig : config' = config)
    (hs' : s'.1 = { s.1 with config := config, policyManager := .roundRobin p }) :
    Isolates c s' { f with config := config', policyManager := .roundRobin p } := by
  have hinv : s'.1.Consistent := hs' ▸ ⟨h.consistent.cellId, h.consistent.ptr, h.consistent.harq⟩
  constructor
  case policies => exact ⟨p, p, hs' ▸ rfl, rfl, fun _ _ ↦ rfl⟩
  case cell => exact hs' ▸ ⟨h.cell.lookup, h.cell.created⟩
  case config => exact hs' ▸ hconfig
  case isRoundRobin => exact hs' ▸ hroundRobin
  case requests => exact hs' ▸ h.requests
  case consistent => exact hinv
  case consistent' => exact ⟨h.consistent'.cellId, h.consistent'.ptr, h.consistent'.harq⟩

/-! ## Events of the cell -/

theorem monitored_step (h : monitored next observeGrants s (P, ev) = some s') :
    (s.1.handle P ev).run none = .ok s'.1 ∧ s'.2 = observeGrants s.1 (P, ev) s'.1 s.2 := by
  obtain ⟨hnext, hlast⟩ := monitored_eq_some.mp h
  exact ⟨next_eq_some.mp hnext, hlast⟩

omit [Double D] in
theorem observeGrants_quiet {d : CellId} {e e' : SchedulerEngine (BuiltinPolicy D) D}
    {last : LastGrants} (hcell : ev.cellId? = some d) (hquiet : ev.isQuiet = true) :
    observeGrants e (P, ev) e' last = last := by
  funext r
  cases ev with
  | slotIndication cellId t => cases hquiet
  | updateConfig config | setPolicyManager policy => cases hcell
  | _ => rfl

omit [Double D] in
theorem observeGrants_silent {d : CellId} {t : FrameTiming}
    {e e' : SchedulerEngine (BuiltinPolicy D) D} {last : LastGrants} (hsent : e'.sent = e.sent) :
    observeGrants e (P, .slotIndication d t) e' last = last := by
  funext r
  simp only [observeGrants, emitted_eq_nil hsent, pdusIn, List.flatMap_nil, List.map_nil,
    List.not_mem_nil, if_false]

theorem Isolates.quiet (h : Isolates c s f) (hcell : ev.cellId? = some c)
    (hquiet : ev.isQuiet = true) (hstep : monitored next observeGrants s (P, ev) = some s') :
    ∃ f', f.next (P, ev) = some f' ∧ Isolates c s' f' := by
  obtain ⟨hrun, hlast⟩ := monitored_step hstep
  have hlocal := handle_local hcell hquiet hrun
  obtain ⟨f', hf', hmatches⟩ := hlocal.replay f h.cell
  have hlocal' := handle_local hcell hquiet hf'
  have hnext' : f.next (P, ev) = some f' := next_eq_some.mpr hf'
  refine ⟨f', hnext', ?_⟩
  exact h.of_same hmatches hlocal.outside.config hlocal'.outside.config hlocal.policyManager
    hlocal'.policyManager (hlast.trans (observeGrants_quiet hcell hquiet))
    (handle_quiet hrun hquiet).2 (handle_quiet hf' hquiet).2
    (h.consistent.step (monitored_eq_some.mp hstep).1) (h.consistent'.step hnext')

omit [Double D] in
theorem agreeOn_of_entries {last last' : LastGrants} {p q p' q' : RoundRobinPolicy}
    {reqs : List TtiRequest} {t : FrameTiming} (hagree : AgreeOn c last p q)
    (hp : p' = (p.onSlotStart t).serve (pdusIn reqs))
    (hq : q' = (q.onSlotStart t).serve (pdusIn reqs))
    (hlast : ∀ r, r ∉ (pdusIn reqs).map TtiPdu.rnti → last' r = last r) :
    AgreeOn c last' p' q' := by
  intro r hr
  rw [hp, hq, RoundRobinPolicy.lookup_serve, RoundRobinPolicy.lookup_serve]
  by_cases hmem : r ∈ (pdusIn reqs).map TtiPdu.rnti
  · rw [if_pos hmem, if_pos hmem]
    rfl
  · rw [if_neg hmem, if_neg hmem]
    rw [hlast r hmem] at hr
    exact hagree r hr

/-- A slot of the cell sends the same requests in both runs. -/
theorem Isolates.slot (h : Isolates c s f) {t : FrameTiming}
    (hown : ReadsOwnGrants c s (P, .slotIndication c t) s')
    (hstep : monitored next observeGrants s (P, .slotIndication c t) = some s') :
    ∃ f', f.next (P, .slotIndication c t) = some f' ∧ Isolates c s' f' := by
  obtain ⟨hrun, hlast⟩ := monitored_step hstep
  have hinv := h.consistent.step (monitored_eq_some.mp hstep).1
  obtain ⟨p, q, hp, hq, hagree⟩ := h.policies
  cases hlookup : s.1.cells.lookup c with
  | none =>
      have hskip : ∀ g : SchedulerEngine (BuiltinPolicy D) D, s.1.Matches c g →
          (g.onSlotIndication P c t).run none = .ok { g with
            stats := { g.stats with slotsSkipped := g.stats.slotsSkipped + 1 } } := by
        intro g hg
        exact onSlotIndication_skipped (hg.lookup.trans hlookup) P t
      have hs' : s'.1 = { s.1 with
          stats := { s.1.stats with slotsSkipped := s.1.stats.slotsSkipped + 1 } } :=
        (Except.ok.inj (hrun.symm.trans (hskip s.1 ⟨rfl, rfl⟩)))
      have hnext' := next_eq_some (i := (P, .slotIndication c t)).mpr (hskip f h.cell)
      have hsilent : s'.2 = s.2 := hlast.trans (observeGrants_silent (by rw [hs']))
      exact ⟨_, hnext', h.of_flags hs' hsilent⟩
  | some cell =>
      obtain ⟨reqs, hsent, hreplay⟩ :=
        onSlotIndication_roundRobin h.isRoundRobin hp hlookup hrun
      obtain ⟨f', hf', hcell', hsent'⟩ := hreplay f q h.cell h.config hq (by
        intro isDl r ue hcontends hue hbuffer
        have hrnti := UeRepository.ue?_rnti hue
        apply hagree
        intro c' hc'
        have husers : ue ∈ cell.ueRepo.users P := by
          rw [UeRepository.mem_users, hrnti]
          exact hue
        rw [← hrnti] at hcontends hc'
        exact hown rfl cell hlookup ue husers isDl hcontends hbuffer c' hc')
      have hnext' : f.next (P, .slotIndication c t) = some f' := next_eq_some.mpr hf'
      have hemitted : s.1.emitted s'.1 = reqs := emitted_eq hsent.sent
      have hcreated := (onSlotIndication_users hrun).2.2
      have hcreated' := (onSlotIndication_users hf').2.2
      refine ⟨f', hnext', ?_⟩
      constructor
      case cell =>
        refine ⟨hcell', ?_⟩
        rw [hcreated, hcreated', h.cell.created]
      case config => rw [hsent'.config, hsent.config, h.config]
      case isRoundRobin => exact hsent.config ▸ h.isRoundRobin
      case policies =>
        refine ⟨_, _, hsent.policyManager, hsent'.policyManager, ?_⟩
        apply agreeOn_of_entries hagree rfl rfl
        intro r hr
        rw [hlast]
        simp only [observeGrants, hemitted]
        rw [if_neg hr]
      case requests =>
        have hrequests := h.requests
        rw [requestsFor, requestsFor] at hrequests ⊢
        rw [hsent.sent, hsent'.sent, List.filter_append, List.filter_append, hrequests]
      case consistent => exact hinv
      case consistent' => exact h.consistent'.step hnext'

theorem Isolates.feedback (h : Isolates c s f) {cellId : CellId} {fb : HarqFeedback}
    (hstep : monitored next observeGrants s (P, .harqFeedback cellId fb) = some s') :
    Isolates c s' f ∧ ∃ f', f.next (P, .harqFeedback cellId fb) = some f' ∧ Isolates c s' f' := by
  obtain ⟨hrun, hlast⟩ := monitored_step hstep
  have hinv := h.consistent.step (monitored_eq_some.mp hstep).1
  obtain ⟨e', he', hsame⟩ := h.consistent.onHarqFeedback cellId fb
  obtain rfl : e' = s'.1 := Except.ok.inj (he'.symm.trans hrun)
  obtain ⟨f', hf', hsame'⟩ := h.consistent'.onHarqFeedback cellId fb
  have hnext' : f.next (P, .harqFeedback cellId fb) = some f' := next_eq_some.mpr hf'
  constructor
  · refine h.of_same ?_ hsame.config rfl hsame.policyManager rfl hlast hsame.sent rfl hinv
      h.consistent'
    exact ⟨h.cell.lookup.trans (hsame.lookup c).symm,
      h.cell.created.trans (congrFun hsame.created c).symm⟩
  · refine ⟨f', hnext', ?_⟩
    refine h.of_same ?_ hsame.config hsame'.config hsame.policyManager hsame'.policyManager hlast
      hsame.sent hsame'.sent hinv (h.consistent'.step hnext')
    constructor
    · rw [hsame'.lookup, hsame.lookup, h.cell.lookup]
    · rw [hsame'.created, hsame.created, h.cell.created]

/-! ## Events of other cells -/

theorem Isolates.quiet_hidden (h : Isolates c s f) {d : CellId} (hd : c ≠ d)
    (hcell : ev.cellId? = some d) (hquiet : ev.isQuiet = true)
    (hstep : monitored next observeGrants s (P, ev) = some s') : Isolates c s' f := by
  obtain ⟨hrun, hlast⟩ := monitored_step hstep
  have hlocal := handle_local hcell hquiet hrun
  refine h.of_same ?_ hlocal.outside.config rfl hlocal.policyManager rfl
    (hlast.trans (observeGrants_quiet hcell hquiet)) (handle_quiet hrun hquiet).2 rfl
    (h.consistent.step (monitored_eq_some.mp hstep).1) h.consistent'
  exact ⟨h.cell.lookup.trans (hlocal.outside.lookup c hd).symm,
    h.cell.created.trans (hlocal.outside.created c hd).symm⟩

/-- A slot of another cell only changes the entries of the RNTIs it grants. -/
theorem Isolates.slot_hidden (h : Isolates c s f) {d : CellId} (hd : c ≠ d) {t : FrameTiming}
    (hstep : monitored next observeGrants s (P, .slotIndication d t) = some s') :
    Isolates c s' f := by
  obtain ⟨hrun, hlast⟩ := monitored_step hstep
  have hinv := h.consistent.step (monitored_eq_some.mp hstep).1
  obtain ⟨p, q, hp, hq, hagree⟩ := h.policies
  rcases onSlotIndication_ok hrun with ⟨_, hs'⟩ | ⟨cell, slot, dl, ul, houtcome⟩
  · have hsilent : s'.2 = s.2 := hlast.trans (observeGrants_silent (by rw [hs']))
    exact h.of_flags hs' hsilent
  · obtain ⟨reqs, hsent, _⟩ :=
      onSlotIndication_roundRobin h.isRoundRobin hp houtcome.lookup hrun
    have hemitted : s.1.emitted s'.1 = reqs := emitted_eq hsent.sent
    obtain ⟨cell', hcells, _⟩ := houtcome.cells
    constructor
    case cell =>
      constructor
      · rw [hcells, AList.lookup_insert_ne hd, h.cell.lookup]
      · rw [houtcome.created, h.cell.created]
    case config => rw [hsent.config, h.config]
    case isRoundRobin => exact hsent.config ▸ h.isRoundRobin
    case policies =>
      refine ⟨_, q, hsent.policyManager, hq, ?_⟩
      intro r hr
      rw [RoundRobinPolicy.lookup_serve]
      rw [hlast] at hr
      simp only [observeGrants, hemitted] at hr
      by_cases hmem : r ∈ (pdusIn reqs).map TtiPdu.rnti
      · rw [if_pos hmem] at hr
        exact (hd (hr d rfl).symm).elim
      · rw [if_neg hmem] at hr ⊢
        exact hagree r hr
    case requests =>
      have hother : reqs.filter (fun r ↦ r.cellId == c) = [] := by
        apply List.filter_eq_nil_iff.mpr
        intro r hr heq
        rw [← hemitted, houtcome.emitted_eq] at hr
        exact hd ((beq_iff_eq.mp heq).symm.trans (houtcome.request_cellId h.consistent hr))
      have hrequests := h.requests
      rw [requestsFor, requestsFor] at hrequests ⊢
      rw [hsent.sent, List.filter_append, hother, List.append_nil, hrequests]
    case consistent => exact hinv
    case consistent' => exact h.consistent'

/-! ## Events of the engine as a whole -/

theorem Isolates.global (h : Isolates c s f) (hcell : ev.cellId? = none)
    (hkeeps : ev.KeepsRoundRobin) (hstep : monitored next observeGrants s (P, ev) = some s') :
    ∃ f', f.next (P, ev) = some f' ∧ Isolates c s' f' := by
  obtain ⟨hrun, hlast⟩ := monitored_step hstep
  cases ev with
  | setPolicyManager policy =>
      obtain ⟨p, rfl⟩ := hkeeps
      have hs' : s'.1 = { s.1 with policyManager := .roundRobin p } := (Except.ok.inj hrun).symm
      exact ⟨{ f with policyManager := .roundRobin p }, rfl,
        h.of_newPolicy h.isRoundRobin h.config hs'⟩
  | updateConfig config =>
      have hpolicy : (BuiltinPolicy.createPolicyManager config.strategy : BuiltinPolicy D) =
          .roundRobin {} := by
        rw [hkeeps.strategy]
        rfl
      have hs' : s'.1 = { s.1 with config := config, policyManager := .roundRobin {} } := by
        rw [← hpolicy]
        exact (Except.ok.inj hrun).symm
      refine ⟨{ f with config := config, policyManager := .roundRobin {} }, ?_, ?_⟩
      · rw [← hpolicy]
        rfl
      · exact h.of_newPolicy hkeeps rfl hs'
  | start =>
      have hs' : s'.1 = { s.1 with running := true } := (Except.ok.inj hrun).symm
      exact ⟨{ f with running := true }, rfl, h.of_flags hs' hlast⟩
  | stop =>
      have hs' : s'.1 = { s.1 with running := false } := (Except.ok.inj hrun).symm
      exact ⟨{ f with running := false }, rfl, h.of_flags hs' hlast⟩
  | resetStatistics =>
      have hs' : s'.1 = { s.1 with stats := {} } := (Except.ok.inj hrun).symm
      exact ⟨{ f with stats := {} }, rfl, h.of_flags hs' hlast⟩
  | _ => cases hcell

/-! ## Runs -/

theorem Isolates.visible (h : Isolates c s f) (hconcerns : ev.concerns c = true)
    (hkeeps : ev.KeepsRoundRobin) (hown : ReadsOwnGrants c s (P, ev) s')
    (hstep : monitored next observeGrants s (P, ev) = some s') :
    ∃ f', f.next (P, ev) = some f' ∧ Isolates c s' f' := by
  cases hcell : ev.cellId? with
  | none => exact h.global hcell hkeeps hstep
  | some d =>
      rw [Event.concerns, hcell] at hconcerns
      obtain rfl : d = c := beq_iff_eq.mp hconcerns
      cases hquiet : ev.isQuiet with
      | true => exact h.quiet hcell hquiet hstep
      | false =>
          cases ev with
          | slotIndication cellId t =>
              cases hcell
              exact h.slot hown hstep
          | harqFeedback cellId fb => exact (h.feedback hstep).2
          | _ => cases hquiet

theorem Isolates.hidden (h : Isolates c s f) (hconcerns : ev.concerns c = false)
    (hstep : monitored next observeGrants s (P, ev) = some s') : Isolates c s' f := by
  cases hcell : ev.cellId? with
  | none =>
      rw [Event.concerns, hcell] at hconcerns
      cases hconcerns
  | some d =>
      have hd : c ≠ d := by
        rintro rfl
        rw [Event.concerns, hcell, Option.all_some, beq_self_eq_true] at hconcerns
        cases hconcerns
      cases hquiet : ev.isQuiet with
      | true => exact h.quiet_hidden hd hcell hquiet hstep
      | false =>
          cases ev with
          | slotIndication cellId t =>
              cases hcell
              exact h.slot_hidden hd hstep
          | harqFeedback cellId fb => exact (h.feedback hstep).1
          | _ => cases hquiet

/-- While the slots of a cell only read what was written for the cell itself, deleting the
events of all other cells from the run leaves the requests for the cell as they are. -/
theorem cellIsolated_of_readsOwnGrants (c : CellId) {config : SchedulerConfig}
    {is : List (Platform × Event (BuiltinPolicy D))}
    (hconfig : config.IsRoundRobin) (hkeeps : ∀ i ∈ is, i.2.KeepsRoundRobin)
    (hown : Always (monitored next observeGrants) (ReadsOwnGrants c)
      ((create config : SchedulerEngine (BuiltinPolicy D) D), fun _ ↦ none) is) :
    CellIsolated c config is := by
  intro e' hrun
  have hstart : Isolates c
      ((create config : SchedulerEngine (BuiltinPolicy D) D), fun _ ↦ none) (create config) := by
    have hpolicy : (create config : SchedulerEngine (BuiltinPolicy D) D).policyManager =
        .roundRobin {} := by
      change BuiltinPolicy.createPolicyManager config.strategy = _
      rw [hconfig.strategy]
      rfl
    exact ⟨⟨rfl, rfl⟩, rfl, hconfig, ⟨{}, {}, hpolicy, hpolicy, fun _ _ ↦ rfl⟩, rfl,
      consistent_create config, consistent_create config⟩
  have hmonitored : ∃ last, is.foldlM (monitored next observeGrants)
      (create config, fun _ ↦ none) = some (e', last) := foldlM_monitored _ hrun
  obtain ⟨last, hmonitored⟩ := hmonitored
  have hrelated : ∃ f', (is.filter fun i ↦ i.2.concerns c).foldlM next (create config) = some f' ∧
      Isolates c (e', last) f' := by
    refine unwinding (Isolates c) (fun i ↦ i.2.concerns c) ?_ ?_ hstart (hown.and_input hkeeps)
      hmonitored
    · rintro s f ⟨P, ev⟩ s' hrel hconcerns ⟨hkeeps, hown⟩ hstep
      exact hrel.visible hconcerns hkeeps hown hstep
    · rintro s f ⟨P, ev⟩ s' hrel hconcerns _ hstep
      exact hrel.hidden hconcerns hstep
  obtain ⟨f', hf', hisolates⟩ := hrelated
  exact ⟨f', hf', hisolates.requests⟩

/-- Two users of cell 1 take turns. -/
def turns (between : List (Platform × Event (BuiltinPolicy ℚ))) :
    List (Platform × Event (BuiltinPolicy ℚ)) :=
  [(.plain, .addCell (.fdd 1 1) .cleared), (.plain, .addCell (.fdd 2 1) .cleared),
    (.plain, .ueConfig { rnti := 7, cellId := 1 }), (.plain, .ueConfig { rnti := 8, cellId := 1 }),
    (.plain, .dlData ⟨7, 1, 0, 1⟩), (.plain, .dlData ⟨8, 1, 0, 1⟩),
    (.plain, .slotIndication 1 {})] ++ between ++ [(.plain, .slotIndication 1 { slot := 1 })]

/-- A user of cell 2 is granted its block. -/
def grantInCell2 (rnti : Rnti) : List (Platform × Event (BuiltinPolicy ℚ)) :=
  [(.plain, .ueConfig { rnti := rnti, cellId := 2 }), (.plain, .dlData ⟨rnti, 2, 0, 1⟩),
    (.plain, .slotIndication 2 {})]

def oneByOne : SchedulerConfig :=
  { strategy := .roundRobin, enableQos := false, maxPdschPerTti := 1 }

theorem isRoundRobin_oneByOne : oneByOne.IsRoundRobin := ⟨rfl, rfl, rfl⟩

theorem keepsRoundRobin_turns (rnti : Rnti) :
    ∀ i ∈ turns (grantInCell2 rnti), i.2.KeepsRoundRobin := by
  simp [turns, grantInCell2, Event.KeepsRoundRobin]

/-- A user of cell 2 with an RNTI of its own changes no turn. -/
theorem cellIsolated_turns : CellIsolated 1 oneByOne (turns (grantInCell2 9)) :=
  cellIsolated_of_readsOwnGrants (D := ℚ) 1 isRoundRobin_oneByOne (keepsRoundRobin_turns 9)
    (by decide +kernel)

/-- A user of cell 2 with the RNTI of a user of cell 1 takes the turn of that user. -/
theorem not_cellIsolated : oneByOne.IsRoundRobin ∧
    (∀ i ∈ turns (grantInCell2 7), i.2.KeepsRoundRobin) ∧
    ¬ CellIsolated 1 oneByOne (turns (grantInCell2 7)) := by
  refine ⟨isRoundRobin_oneByOne, keepsRoundRobin_turns 7, ?_⟩
  intro h
  have hfull : ((turns (grantInCell2 7)).foldlM next
      (create oneByOne : RationalEngine)).isSome = true := by decide +kernel
  have hdiffer : ((turns (grantInCell2 7)).foldlM next (create oneByOne : RationalEngine)).map
      (requestsFor 1) ≠ (((turns (grantInCell2 7)).filter fun i ↦ i.2.concerns 1).foldlM next
        (create oneByOne : RationalEngine)).map (requestsFor 1) := by decide +kernel
  obtain ⟨e', he'⟩ := Option.isSome_iff_exists.mp hfull
  obtain ⟨f', hf', hsame⟩ := h e' he'
  apply hdiffer
  rw [he', hf', Option.map_some, Option.map_some, hsame]

end SchedulerEngine

end NrScheduler
