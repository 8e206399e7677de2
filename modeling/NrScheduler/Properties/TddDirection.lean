import NrScheduler.Engine.Transmissions

/-!
# TDD direction

A transmission should stay inside the symbols that the pattern gives its direction.  The
allocator always takes symbols 2 to 13, so this depends on the entries of the slots for
which users compete.
-/

namespace NrScheduler

open LockMonad Runs

/-- The entries of the pattern fill their slots. -/
def TddPattern.Fills (p : TddPattern) : Prop :=
  ∀ entry ∈ p.slotConfigs,
    entry.numDlSymbols + entry.numGuardSymbols + entry.numUlSymbols = 14

instance (p : TddPattern) : Decidable p.Fills :=
  inferInstanceAs (Decidable (∀ entry ∈ p.slotConfigs, _ = 14))

/-- The entry of the pattern for a slot, where the lookup does not fail. -/
def TddPattern.entryAt (p : TddPattern) (t : FrameTiming) : Option TddSlotConfig :=
  ((SlotContext.patternEntry p t).run none).toOption

/-- The pattern of a TDD cell, if it has one whose entries fill their slots. -/
def CellConfig.pattern (cfg : CellConfig) : Option TddPattern :=
  cfg.tddPattern.filter fun p ↦ cfg.isTdd && decide p.Fills

/-- The symbols lie in the part of the slot that the entry leaves to the direction: the
first symbols for the downlink, the last for the uplink. -/
def TddSlotConfig.Leaves (entry : TddSlotConfig) (isDl : Bool) (symbols : SymbolRange) : Prop :=
  if isDl then symbols.startSymbol + symbols.numSymbols ≤ entry.numDlSymbols
  else 14 ≤ symbols.startSymbol + entry.numUlSymbols ∧
    symbols.startSymbol + symbols.numSymbols ≤ 14

instance (entry : TddSlotConfig) (isDl : Bool) (symbols : SymbolRange) :
    Decidable (entry.Leaves isDl symbols) := by
  unfold TddSlotConfig.Leaves
  infer_instance

namespace SchedulerEngine

variable {π D : Type}

/-- The transmissions sent by the event stay in the symbols of their direction, in the slot
that their request names. -/
def KeepsDirection (e : SchedulerEngine π D) (_ : Platform × Event π)
    (e' : SchedulerEngine π D) : Prop :=
  ∀ r ∈ e.emitted e', ∀ cfg ∈ e.configAt r.cellId, ∀ pattern ∈ cfg.pattern,
    ∀ entry ∈ pattern.entryAt r.timing, ∀ pdu ∈ r.pdus,
      entry.Leaves r.isDownlink pdu.symbolAllocation

/-- In a slot for which users compete and which admits transmissions, the entry has all
fourteen symbols for the downlink, or twelve for the uplink in the slot K2 ahead. -/
def LeavesSymbols (e : SchedulerEngine π D) (i : Platform × Event π) (_ : SchedulerEngine π D) :
    Prop :=
  match i.2 with
  | .slotIndication cellId t =>
      ∀ cell ∈ e.cells.lookup cellId, ∀ pattern ∈ cell.config.pattern, ∀ isDl,
        0 < e.config.limit isDl → 0 < cell.config.numRbs →
        ∀ ue ∈ cell.ueRepo.users i.1, e.contends cellId t isDl ue.rnti = true →
          ∀ entry ∈ pattern.entryAt (target e.config isDl t),
            if isDl then 14 ≤ entry.numDlSymbols else 12 ≤ entry.numUlSymbols
  | _ => True

instance (e : SchedulerEngine π D) (i : Platform × Event π) (e' : SchedulerEngine π D) :
    Decidable (e.KeepsDirection i e') := by
  unfold KeepsDirection
  infer_instance

theorem leaves_iff (entry : TddSlotConfig) (isDl : Bool) :
    entry.Leaves isDl ⟨DefaultResourceAllocator.startSymbol, DefaultResourceAllocator.numSymbols⟩ ↔
      if isDl then 14 ≤ entry.numDlSymbols else 12 ≤ entry.numUlSymbols := by
  simp only [TddSlotConfig.Leaves, DefaultResourceAllocator.startSymbol,
    DefaultResourceAllocator.numSymbols]
  cases isDl with
  | true => rfl
  | false =>
      rw [if_neg Bool.false_ne_true, if_neg Bool.false_ne_true]
      omega

variable [Double D] [IPolicyManager π D]

/-- One transition: a slot keeps the direction exactly if the entries leave the symbols of
the allocator wherever users compete. -/
theorem keepsDirection_iff {e e' : SchedulerEngine π D} {i : Platform × Event π}
    (hinv : e.Consistent) (h : e.next i = some e') :
    e.KeepsDirection i e' ↔ e.LeavesSymbols i e' := by
  constructor
  · intro hkeeps
    rw [LeavesSymbols]
    cases hev : i.2 with
    | slotIndication cellId t =>
        intro cell hlookup pattern hpattern isDl hlimit hrbs ue _ hcontends entry hentry
        have hrun := next_eq_some.mp h
        rw [hev] at hrun
        rcases onSlotIndication_ok hrun with ⟨hnone, _⟩ | ⟨cell', slot, dl, ul, houtcome⟩
        · rw [hlookup] at hnone
          cases hnone
        · obtain rfl : cell = cell' := Option.some.inj (hlookup.symm.trans houtcome.lookup)
          obtain ⟨r, hr, rfl⟩ := houtcome.exists_request hcontends hlimit hrbs
          have hsends := houtcome.sends hr
          obtain ⟨pdu, hpdu⟩ := List.exists_mem_of_ne_nil _ hsends.pdus_ne
          obtain ⟨_, _, _, _, _, _, _, rfl, _⟩ := houtcome.contends hr hpdu
          have hcfg : e.configAt r.cellId = some cell.config := by
            rw [houtcome.request_cellId hinv hr, configAt, hlookup, Option.map_some]
          rw [← leaves_iff]
          exact hkeeps r (houtcome.emitted_eq ▸ hr) cell.config hcfg pattern hpattern entry
            (hsends.timing ▸ hentry) _ hpdu
    | _ => trivial
  · intro hleaves r hr cfg hcfg pattern hpattern entry hentry pdu hpdu
    obtain ⟨cellId, t, cell, slot, dl, ul, hev, houtcome, hr⟩ := mem_emitted h hr
    obtain ⟨_, _, _, _, _, _, _, rfl, _⟩ := houtcome.contends hr hpdu
    have hsends := houtcome.sends hr
    rw [houtcome.request_cellId hinv hr, configAt, houtcome.lookup] at hcfg
    obtain rfl : cell.config = cfg := Option.some.inj hcfg
    obtain ⟨⟨hlimit, hrbs⟩, ue, huser, hcontends⟩ :=
      (competes_eq_true houtcome.lookup).mp (houtcome.competes hr)
    rw [LeavesSymbols, hev] at hleaves
    refine (leaves_iff entry r.isDownlink).mpr ?_
    exact hleaves cell houtcome.lookup pattern hpattern r.isDownlink hlimit hrbs ue huser
      hcontends entry (hsends.timing ▸ hentry)

/-- In every run, the transmissions keep their direction throughout exactly if the entries
leave the symbols of the allocator wherever users compete. -/
theorem always_keepsDirection_iff (config : SchedulerConfig) (is : List (Platform × Event π)) :
    Always next KeepsDirection (create config : SchedulerEngine π D) is ↔
      Always next LeavesSymbols (create config : SchedulerEngine π D) is :=
  always_iff Consistent
    (fun _ _ _ hinv h ↦ ⟨keepsDirection_iff hinv h, fun _ ↦ hinv.step h⟩)
    (consistent_create config) is

/-- A special slot with ten downlink symbols; and an uplink slot two slots before a
downlink slot. -/
theorem not_always_keepsDirection :
    ¬ Always next KeepsDirection
      (create { strategy := .roundRobin, enableQos := false } : RationalEngine)
      [(.plain, .addCell { CellConfig.fdd 1 4 with
          duplexMode := .tdd
          tddPattern := some ⟨1, [⟨10, 2, 2⟩]⟩ } .cleared),
        (.plain, .ueConfig { rnti := 7, cellId := 1 }), (.plain, .dlData ⟨7, 1, 0, 1⟩),
        (.plain, .slotIndication 1 {})] ∧
    ¬ Always next KeepsDirection
      (create { strategy := .roundRobin, enableQos := false } : RationalEngine)
      [(.plain, .addCell { CellConfig.fdd 1 4 with
          duplexMode := .tdd
          tddPattern := some ⟨5, [⟨14, 0, 0⟩, ⟨14, 0, 0⟩, ⟨14, 0, 0⟩, ⟨14, 0, 0⟩, ⟨0, 0, 14⟩]⟩ }
          .cleared),
        (.plain, .ueConfig { rnti := 7, cellId := 1 }), (.plain, .sr ⟨7, 1⟩),
        (.plain, .slotIndication 1 { slot := 4 })] := by
  constructor
  · decide +kernel
  · decide +kernel

end SchedulerEngine

end NrScheduler
