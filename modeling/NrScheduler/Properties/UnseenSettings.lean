import NrScheduler.Engine.AlikeRuns

/-!
# What no request depends on

Power headroom reports, HARQ feedback, starting and stopping, random access and the counters
leave no trace in what is sent.  Neither do the switches of the QoS engine and of slicing, for
nothing is ever registered with the services, nor the feedback offset, for K1 and the delay of
the CRC are constants.
-/

namespace NrScheduler

variable {π D : Type} [UnitDouble D] [IPolicyManager π D] [ReadsAlike π D]

namespace SchedulerEngine

/-- A run completes exactly if it does without the events that do not count, and it sends the
same requests. -/
theorem sentBy_filter_counts (config : SchedulerConfig) {is : List (Platform × Event π)}
    (hP : ∀ i ∈ is, i.1.Oblivious) :
    (create config : SchedulerEngine π D).sentBy (is.filter fun i ↦ i.2.counts) =
      (create config : SchedulerEngine π D).sentBy is := by
  apply (twins_create (.refl config)).sentBy
  rw [List.filter_filter]
  simp only [Bool.and_self]
  exact sameInput_filter_refl hP

/-- A user with data is sent them again whether its feedback arrives or not. -/
theorem sentBy_filter_counts_nack :
    let is : List (Platform × Event (BuiltinPolicy ℚ)) :=
      onPlain [.addCell (.fdd 1 4) .cleared, .start, .ueConfig { rnti := 7, cellId := 1 },
        .dlData ⟨7, 1, 1, 100⟩, .phr ⟨7, 1, 20, 23⟩, .slotIndication 1 {},
        .harqFeedback 1 { harqId := 0, ack := false, feedbackTime := { slot := 4 } },
        .slotIndication 1 { slot := 5 }]
    let e : RationalEngine := create { strategy := .roundRobin }
    e.sentBy (is.filter fun i ↦ i.2.counts) = e.sentBy is ∧
      (e.sentBy is).map List.length = some 2 :=
  ⟨sentBy_filter_counts _ fun _ hi ↦ oblivious_onPlain hi, by decide +kernel⟩

end SchedulerEngine

/-- An update with other switches is an update all the same. -/
theorem Event.Alike.counts_eq {ev ev' : Event π} (h : ev.Alike ev') : ev'.counts = ev.counts := by
  cases h with
  | refl => rfl
  | updateConfig => rfl

namespace SchedulerEngine

omit [UnitDouble D] [IPolicyManager π D] [ReadsAlike π D] in
theorem sameInput_filter {is js : List (Platform × Event π)} (h : List.Forall₂ SameInput is js) :
    List.Forall₂ SameInput (is.filter fun i ↦ i.2.counts) (js.filter fun j ↦ j.2.counts) := by
  induction h with
  | nil => exact .nil
  | @cons i j is js hij _ ih =>
      rw [List.filter_cons, List.filter_cons, hij.event.counts_eq]
      cases i.2.counts with
      | false => exact ih
      | true => exact .cons hij ih

/-- Whatever the switches are set to in a run, at first and by every update, the same requests
are sent. -/
theorem sentBy_of_switches {config config' : SchedulerConfig} (hconfig : config.Alike config')
    {is js : List (Platform × Event π)} (hinputs : List.Forall₂ SameInput is js) :
    (create config' : SchedulerEngine π D).sentBy js =
      (create config : SchedulerEngine π D).sentBy is :=
  (twins_create hconfig).sentBy (sameInput_filter hinputs)

/-- With the QoS engine and without, and with slicing switched on in between. -/
theorem sentBy_of_switches_plain :
    let before : List (Event (BuiltinPolicy ℚ)) :=
      [.addCell (.fdd 1 4) .cleared, .ueConfig { rnti := 7, cellId := 1, sliceId := 2 }]
    let after : List (Event (BuiltinPolicy ℚ)) :=
      [.dlData ⟨7, 1, 1, 100⟩, .slotIndication 1 {}]
    let on : SchedulerConfig := { strategy := .roundRobin, enableSlicing := true }
    let off : SchedulerConfig := { strategy := .roundRobin, enableQos := false }
    (create off : RationalEngine).sentBy (onPlain (before ++ .updateConfig off :: after)) =
        (create on : RationalEngine).sentBy (onPlain (before ++ .updateConfig on :: after)) ∧
      ((create on : RationalEngine).sentBy (onPlain (before ++ .updateConfig on :: after))).map
        List.length = some 1 := by
  intro before after on off
  refine ⟨sentBy_of_switches ⟨rfl⟩ ?_, by decide +kernel⟩
  have hsame : ∀ ev : Event (BuiltinPolicy ℚ), SameInput (Platform.plain, ev) (.plain, ev) :=
    fun ev ↦ ⟨rfl, Platform.oblivious_plain, .refl ev⟩
  have hupdate : SameInput (Platform.plain, (.updateConfig on : Event (BuiltinPolicy ℚ)))
      (.plain, .updateConfig off) := ⟨rfl, Platform.oblivious_plain, .updateConfig ⟨rfl⟩⟩
  exact .cons (hsame _) (.cons (hsame _) (.cons hupdate (.cons (hsame _)
    (.cons (hsame _) .nil))))

end SchedulerEngine

end NrScheduler
