import NrScheduler.Engine.Alike
import NrScheduler.Engine.RunSpec

/-!
# Reports

Reports on a user overwrite each other field by field.  What a context holds after some reports
is the latest value of every field, and what it held before where there is none.
-/

namespace NrScheduler

open LockMonad SchedulerEngine

/-! ## Fields and values -/

/-- The fields of a context that reports overwrite. -/
inductive ReportField where
  | dlBuffer (lcId : LcId)
  | ulBuffer (lcgId : ℕ)
  | srPending
  | dlChannelQuality
  deriving DecidableEq

/-- A reported value: a number of bytes, a flag or a channel quality.  No bytes stand for an
erased entry. -/
inductive ReportValue where
  | bytes (n : Option ℕ)
  | raised (flag : Bool)
  | quality (cqi : ChannelQualityInfo)
  deriving DecidableEq

def UeContext.read (ue : UeContext) : ReportField → ReportValue
  | .dlBuffer lcId => .bytes (ue.dlBufferBytes.lookup lcId)
  | .ulBuffer lcgId => .bytes ue.ulBufferStatus.lcgBufferBytes[lcgId]?
  | .srPending => .raised ue.ulBufferStatus.srPending
  | .dlChannelQuality => .quality ue.dlChannelQuality

variable {π D : Type}

/-- What an event reports: the user, the field and the value. -/
def Event.reported : Event π → Option ((CellId × Rnti) × ReportField × ReportValue)
  | .dlData n => some ((n.cellId, n.rnti), .dlBuffer n.lcId,
      .bytes (if n.bufferBytes = 0 then none else some n.bufferBytes))
  | .bsr b => some ((b.cellId, b.rnti), .ulBuffer b.lcgId, .bytes (some b.bufferSizeBytes))
  | .sr s => some ((s.cellId, s.rnti), .srPending, .raised true)
  | .csiUpdate rnti cellId cqi => some ((cellId, rnti), .dlChannelQuality, .quality cqi)
  | _ => none

/-- A report on buffers, requests, headroom or channels; a buffer status report names one of the
eight groups. -/
def Event.isUpdate : Event π → Bool
  | .bsr b => decide (b.lcgId < 8)
  | .dlData _ | .sr _ | .phr _ | .csiUpdate _ _ _ => true
  | _ => false

/-- The latest value for a field of a user once the event is handled. -/
def Event.overwrite (ev : Event π) (user : CellId × Rnti) (field : ReportField)
    (old : Option ReportValue) : Option ReportValue :=
  match ev.reported with
  | some (user', field', new) => if user' = user ∧ field' = field then some new else old
  | none => old

/-- The latest value reported for a field of a user, if there is one. -/
def latest (user : CellId × Rnti) (field : ReportField) (batch : List (Event π)) :
    Option ReportValue :=
  batch.foldl (fun value ev ↦ ev.overwrite user field value) none

theorem latest_append (user : CellId × Rnti) (field : ReportField) (batch : List (Event π))
    (ev : Event π) :
    latest user field (batch ++ [ev]) = ev.overwrite user field (latest user field batch) := by
  rw [latest, List.foldl_append]
  rfl

theorem Event.overwrite_self {ev : Event π} {user : CellId × Rnti} {field : ReportField}
    {new : ReportValue} (h : ev.reported = some (user, field, new))
    (old : Option ReportValue) : ev.overwrite user field old = some new := by
  simp only [overwrite, h, and_self, if_true]

theorem Event.overwrite_other {ev : Event π} {user : CellId × Rnti} {field : ReportField}
    (h : ∀ new, ev.reported ≠ some (user, field, new)) (old : Option ReportValue) :
    ev.overwrite user field old = old := by
  rw [overwrite]
  split
  · rename_i user' field' new hreported
    rw [if_neg]
    rintro ⟨rfl, rfl⟩
    exact h new hreported
  · rfl

/-! ## One user -/

/-- The context after a batch: every field holds the latest value reported for it, or what it
held before. -/
structure UeContext.After (batch : List (Event π)) (c : CellId) (ue ue' : UeContext) : Prop where
  rest : ue' = { ue with
    dlBufferBytes := ue'.dlBufferBytes
    ulBufferStatus := ue'.ulBufferStatus
    dlChannelQuality := ue'.dlChannelQuality
    phr := ue'.phr
    pCmax := ue'.pCmax }
  read : ∀ field, ue'.read field = (latest (c, ue.rnti) field batch).getD (ue.read field)

namespace UeContext.After

variable {batch batch' : List (Event π)} {c : CellId} {ue ue₁ ue₂ : UeContext}

theorem refl (c : CellId) (ue : UeContext) : ue.After ([] : List (Event π)) c ue :=
  ⟨rfl, fun _ ↦ rfl⟩

/-- A report on another user. -/
theorem skip (h : ue.After batch c ue₁) {ev : Event π}
    (hev : ∀ field new, ev.reported ≠ some ((c, ue.rnti), field, new)) :
    ue.After (batch ++ [ev]) c ue₁ where
  rest := h.rest
  read field := by rw [h.read, latest_append, Event.overwrite_other (hev field)]

/-- A report on this user is written into the field it names. -/
theorem write (h : ue.After batch c ue₁) {ev : Event π} {field : ReportField}
    {new : ReportValue} (hreported : ev.reported = some ((c, ue.rnti), field, new))
    (hrest : ue₂ = { ue₁ with
      dlBufferBytes := ue₂.dlBufferBytes
      ulBufferStatus := ue₂.ulBufferStatus
      dlChannelQuality := ue₂.dlChannelQuality })
    (hnew : ue₂.read field = new) (hold : ∀ f ≠ field, ue₂.read f = ue₁.read f) :
    ue.After (batch ++ [ev]) c ue₂ where
  rest := by rw [hrest, h.rest]
  read f := by
    rw [latest_append]
    by_cases hf : f = field
    · rw [hf, Event.overwrite_self hreported, hnew]
      rfl
    · have hother : ∀ v, ev.reported ≠ some ((c, ue.rnti), f, v) := by
        intro v heq
        rw [hreported] at heq
        cases heq
        exact hf rfl
      rw [Event.overwrite_other hother, hold f hf, h.read]

theorem dlData {n : DlDataNotification} (h : ue.After batch n.cellId ue₁)
    (hue : ue.rnti = n.rnti) :
    ue.After (batch ++ [.dlData n]) n.cellId (ue₁.updateDlBuffer n.lcId n.bufferBytes) := by
  rw [updateDlBuffer]
  by_cases hzero : n.bufferBytes = 0
  · rw [if_pos hzero]
    have hreported : (Event.dlData n : Event π).reported = some ((n.cellId, ue.rnti),
        .dlBuffer n.lcId, .bytes none) := by rw [hue, Event.reported, if_pos hzero]
    refine h.write hreported rfl ?_ fun f hf ↦ ?_
    · exact congrArg ReportValue.bytes (AList.lookup_erase n.lcId ue₁.dlBufferBytes)
    · cases f with
      | dlBuffer lcId =>
          have hlc : lcId ≠ n.lcId := fun heq ↦ hf (congrArg ReportField.dlBuffer heq)
          exact congrArg ReportValue.bytes (AList.lookup_erase_ne hlc)
      | _ => rfl
  · rw [if_neg hzero]
    have hreported : (Event.dlData n : Event π).reported = some ((n.cellId, ue.rnti),
        .dlBuffer n.lcId, .bytes (some n.bufferBytes)) := by
      rw [hue, Event.reported, if_neg hzero]
    refine h.write hreported rfl ?_ fun f hf ↦ ?_
    · exact congrArg ReportValue.bytes (AList.lookup_insert ue₁.dlBufferBytes)
    · cases f with
      | dlBuffer lcId =>
          have hlc : lcId ≠ n.lcId := fun heq ↦ hf (congrArg ReportField.dlBuffer heq)
          exact congrArg ReportValue.bytes (AList.lookup_insert_ne hlc)
      | _ => rfl

theorem bsr {b : BufferStatusReport} (h : ue.After batch b.cellId ue₁) (hue : ue.rnti = b.rnti)
    (hgroup : b.lcgId < 8) :
    ue.After (batch ++ [.bsr b]) b.cellId { ue₁ with
      ulBufferStatus := { ue₁.ulBufferStatus with
        lcgBufferBytes :=
          ue₁.ulBufferStatus.lcgBufferBytes.setIfInBounds b.lcgId b.bufferSizeBytes
        reportTime := b.reportTime } } := by
  have hreported : (Event.bsr b : Event π).reported = some ((b.cellId, ue.rnti),
      .ulBuffer b.lcgId, .bytes (some b.bufferSizeBytes)) := by rw [hue, Event.reported]
  refine h.write hreported rfl ?_ fun f hf ↦ ?_
  · simp only [UeContext.read, Vector.getElem?_setIfInBounds, if_true, if_pos hgroup]
  · cases f with
    | ulBuffer lcgId =>
        have hlcg : b.lcgId ≠ lcgId := fun heq ↦ hf (congrArg ReportField.ulBuffer heq.symm)
        simp only [UeContext.read, Vector.getElem?_setIfInBounds, if_neg hlcg]
    | _ => rfl

theorem sr {request : SchedulingRequest} (h : ue.After batch request.cellId ue₁)
    (hue : ue.rnti = request.rnti) :
    ue.After (batch ++ [.sr request]) request.cellId { ue₁ with
      ulBufferStatus := { ue₁.ulBufferStatus with srPending := true } } := by
  have hreported : (Event.sr request : Event π).reported = some ((request.cellId, ue.rnti),
      .srPending, .raised true) := by rw [hue, Event.reported]
  refine h.write hreported rfl rfl fun f hf ↦ ?_
  cases f with
  | srPending => exact absurd rfl hf
  | _ => rfl

theorem csiUpdate {rnti : Rnti} (cqi : ChannelQualityInfo) (h : ue.After batch c ue₁)
    (hue : ue.rnti = rnti) :
    ue.After (batch ++ [.csiUpdate rnti c cqi]) c { ue₁ with dlChannelQuality := cqi } := by
  have hreported : (Event.csiUpdate rnti c cqi : Event π).reported = some ((c, ue.rnti),
      .dlChannelQuality, .quality cqi) := by rw [hue, Event.reported]
  refine h.write hreported rfl rfl fun f hf ↦ ?_
  cases f with
  | dlChannelQuality => exact absurd rfl hf
  | _ => rfl

/-- Headroom is written where the scheduler does not look. -/
theorem phr (h : ue.After batch c ue₁) (p : PowerHeadroomReport) :
    ue.After (batch ++ [.phr p]) c { ue₁ with phr := p.phrValue, pCmax := p.pcmax } where
  rest := by rw [h.rest]
  read field := by
    have hother : ∀ new, (Event.phr p : Event π).reported ≠ some ((c, ue.rnti), field, new) := by
      intro new heq
      cases heq
    rw [latest_append, Event.overwrite_other hother, ← h.read]
    cases field <;> rfl

/-- Two batches with the same latest values leave contexts that the scheduler cannot tell
apart. -/
theorem alike (h₁ : ue.After batch c ue₁) (h₂ : ue.After batch' c ue₂)
    (hlatest : ∀ field, latest (c, ue.rnti) field batch' =
      latest (c, ue.rnti) field batch) : ue₁.Alike ue₂ := by
  have hread : ∀ field, ue₂.read field = ue₁.read field := fun field ↦ by
    rw [h₁.read, h₂.read, hlatest]
  have hgroups : ue₂.ulBufferStatus.lcgBufferBytes = ue₁.ulBufferStatus.lcgBufferBytes := by
    apply Vector.ext
    intro i hi
    have hgroup := ReportValue.bytes.inj (hread (.ulBuffer i))
    rwa [Vector.getElem?_eq_getElem hi, Vector.getElem?_eq_getElem hi, Option.some.injEq]
      at hgroup
  have hpending := ReportValue.raised.inj (hread .srPending)
  have hquality := ReportValue.quality.inj (hread .dlChannelQuality)
  have hstatus : ue₂.ulBufferStatus = { ue₁.ulBufferStatus with
      reportTime := ue₂.ulBufferStatus.reportTime } := by
    rw [BufferStatus.mk.injEq]
    exact ⟨hgroups, rfl, hpending⟩
  refine ⟨?_, fun lcId ↦ ReportValue.bytes.inj (hread (.dlBuffer lcId))⟩
  have hrest₂ := h₂.rest
  rw [hstatus, hquality] at hrest₂
  rw [hrest₂, h₁.rest]

end UeContext.After

/-! ## One event -/

/-- Handling the event updates the named user, if it is known, by `f`. -/
structure Event.Updates (ev : Event π) (cellId : CellId) (rnti : Rnti)
    (f : UeContext → UeContext) : Prop where
  handled : ∃ (check : Exec Unit) (hf : ∀ ue, (f ue).rnti = ue.rnti),
    check.run none = .ok () ∧ ∀ {D : Type} [Double D] [IPolicyManager π D]
      (e : SchedulerEngine π D) (P : Platform),
      e.handle P ev = e.updateUe cellId rnti check f hf
  named : ∀ user field new, ev.reported = some (user, field, new) → user = (cellId, rnti)
  after : ∀ (batch : List (Event π)) (ue ue' : UeContext), ue.rnti = rnti →
    ue.After batch cellId ue' → ue.After (batch ++ [ev]) cellId (f ue')

theorem Event.exists_updates {ev : Event π} (h : ev.isUpdate = true) :
    ∃ cellId rnti f, ev.Updates cellId rnti f := by
  have hnamed : ∀ {user user' : CellId × Rnti} {field field' : ReportField}
      {new new' : ReportValue}, some (user', field', new') = some (user, field, new) →
      user = user' := by
    intro user user' field field' new new' heq
    cases heq
    rfl
  cases ev with
  | dlData n =>
      refine ⟨n.cellId, n.rnti, _, ⟨_, _, rfl, fun _ _ ↦ rfl⟩, fun _ _ _ ↦ hnamed, ?_⟩
      exact fun batch ue ue' hue h ↦ h.dlData hue
  | bsr b =>
      have hgroup : b.lcgId < 8 := of_decide_eq_true h
      refine ⟨b.cellId, b.rnti, _, ⟨_, _, ?_, fun _ _ ↦ rfl⟩, fun _ _ _ ↦ hnamed, ?_⟩
      · rw [if_pos hgroup]
        rfl
      · exact fun batch ue ue' hue h ↦ h.bsr hue hgroup
  | sr request =>
      refine ⟨request.cellId, request.rnti, _, ⟨_, _, rfl, fun _ _ ↦ rfl⟩, fun _ _ _ ↦ hnamed, ?_⟩
      exact fun batch ue ue' hue h ↦ h.sr hue
  | phr p =>
      refine ⟨p.cellId, p.rnti, _, ⟨_, _, rfl, fun _ _ ↦ rfl⟩, fun _ _ _ h ↦ (by cases h), ?_⟩
      exact fun batch ue ue' _ h ↦ h.phr p
  | csiUpdate rnti cellId cqi =>
      refine ⟨cellId, rnti, _, ⟨_, _, rfl, fun _ _ ↦ rfl⟩, fun _ _ _ ↦ hnamed, ?_⟩
      exact fun batch ue ue' hue h ↦ h.csiUpdate cqi hue
  | _ => cases h

end NrScheduler
