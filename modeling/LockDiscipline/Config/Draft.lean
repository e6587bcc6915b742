import LockDiscipline.Config.Fault
import LockDiscipline.Config.Settings

namespace LockDiscipline.Config

/-- The bounds of a field, both included, and why it has them. -/
structure Bounds where
  field : String
  low : UInt64
  high : UInt64
  hint : String

namespace Bounds

def fault? (b : Bounds) (n : UInt64) : Option Fault :=
  if b.low ≤ n && n ≤ b.high then none
  else some (.range b.field (toString n) (toString b.low) (toString b.high) b.hint)

theorem fault?_eq_none_iff {b : Bounds} {n : UInt64} :
    b.fault? n = none ↔ b.low ≤ n ∧ n ≤ b.high := by
  simp [fault?]

def sweepEvery : Bounds :=
  ⟨"sweep_every", 1, 1000000, "Dead classifiers must be swept eventually"⟩

def intervalMs : Bounds :=
  ⟨"interval_ms", 1, 60000, "The sampling tick must be a positive number of milliseconds"⟩

def windowMs : Bounds :=
  ⟨"widen_window_ms", 1, 1000,
    "Without a widened window overlapping checks are rarely observed"⟩

end Bounds

def RecorderSettings.fault? (s : RecorderSettings) : Option Fault :=
  Bounds.sweepEvery.fault? s.sweepEvery

/-- A namespace without any character that shows would keep no lock on purpose. -/
def nameSpaceFault? : Option String → Option Fault
  | some n =>
    if Text.isBlankText n then
      some (.invalid "namespace must not be blank; omit it to keep every lock")
    else none
  | none => none

def SamplerSettings.fault? (s : SamplerSettings) : Option Fault :=
  (Bounds.intervalMs.fault? s.intervalMs).or (nameSpaceFault? s.nameSpace)

def GuardSettings.fault? (s : GuardSettings) : Option Fault := Bounds.windowMs.fault? s.windowMs

/-- A configuration that has not been checked. -/
structure Draft where
  preset : Preset
  recorder : Option RecorderSettings
  sampler : Option SamplerSettings
  guard : Option GuardSettings
  deriving DecidableEq, Repr

namespace Draft

def ofPreset (p : Preset) : Draft := ⟨p, none, none, none⟩

def standard : Draft := ofPreset .standard

/-- The settings in force: the override, or what the preset says. -/
def recorderSettings (d : Draft) : RecorderSettings := d.recorder.getD (.ofPreset d.preset)

def samplerSettings (d : Draft) : SamplerSettings := d.sampler.getD (.ofPreset d.preset)

def guardSettings (d : Draft) : GuardSettings := d.guard.getD (.ofPreset d.preset)

/-- Edits the settings in force and makes them the override. -/
def editRecorder (d : Draft) (es : List RecorderSettings.Edit) : Draft :=
  { d with recorder := some (d.recorderSettings.editAll es) }

def editSampler (d : Draft) (es : List SamplerSettings.Edit) : Draft :=
  { d with sampler := some (d.samplerSettings.editAll es) }

def editGuard (d : Draft) (es : List GuardSettings.Edit) : Draft :=
  { d with guard := some (d.guardSettings.editAll es) }

/-- The first fault of an override: of the recorder's, the sampler's, the guard's. -/
def fault? (d : Draft) : Option Fault :=
  ((d.recorder.bind (·.fault?)).or (d.sampler.bind (·.fault?))).or (d.guard.bind (·.fault?))

/-- One line about the settings in force. -/
def describe (d : Draft) : String :=
  let r := d.recorderSettings
  let s := d.samplerSettings
  s!"preset={d.preset.label} strict={r.strict} backtraces={r.captureBacktrace} " ++
    s!"interval={s.intervalMs}ms namespace=" ++ s.nameSpace.getD "*"

end Draft

/-- A draft without a fault. -/
structure Approved where
  draft : Draft
  sound : draft.fault? = none

namespace Approved

instance : DecidableEq Approved := fun a b =>
  if h : a.draft = b.draft then isTrue (by cases a; cases b; cases h; rfl)
  else isFalse fun e => h (congrArg Approved.draft e)

end Approved

namespace Draft

def build (d : Draft) : Except Fault Approved :=
  match h : d.fault? with
  | none => .ok ⟨d, h⟩
  | some f => .error f

theorem build_eq_ok_iff {d : Draft} : (∃ a, d.build = .ok a) ↔ d.fault? = none := by
  unfold build
  split
  · next h => simp [h]
  · next f h => simp [h]

theorem draft_of_build {d : Draft} {a : Approved} (h : d.build = .ok a) : a.draft = d := by
  unfold build at h
  split at h
  · cases h; rfl
  · cases h

end Draft

/-- The configuration of a preset. -/
def Approved.ofPreset (p : Preset) : Approved := ⟨.ofPreset p, rfl⟩

end LockDiscipline.Config
