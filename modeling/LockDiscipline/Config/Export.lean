import LockDiscipline.Config.Draft
import LockDiscipline.Document.Shape
import LockDiscipline.Json.Text
import LockDiscipline.Json.Value
import LockDiscipline.Yaml.Text
import LockDiscipline.Yaml.Written

namespace LockDiscipline.Config

open LockDiscipline.Document LockDiscipline.Json

def RecorderSettings.shape : Shape RecorderSettings where
  name := "RecorderConfig"
  strict := false
  start := .ofPreset .balanced
  fields := [
    .free "capture_backtrace" .flag fun b s => { s with captureBacktrace := b },
    .free "echo_witnesses" .flag fun b s => { s with echoWitnesses := b },
    .free "strict" .flag fun b s => { s with strict := b },
    .free "sweep_every" (.word "usize") fun n s => { s with sweepEvery := n }]

def SamplerSettings.shape : Shape SamplerSettings where
  name := "SamplerConfig"
  strict := false
  start := .ofPreset .balanced
  fields := [
    .free "interval_ms" (.word "u64") fun n s => { s with intervalMs := n },
    .free "namespace" (.optional .text) fun n s => { s with nameSpace := n }]

def GuardSettings.shape : Shape GuardSettings where
  name := "GuardConfig"
  strict := false
  start := .ofPreset .balanced
  fields := [.free "widen_window_ms" (.word "u64") fun n _ => ⟨n⟩]

/-- The overrides of a configuration file. -/
structure Overrides where
  recorder : Option RecorderSettings
  sampler : Option SamplerSettings
  guard : Option GuardSettings
  deriving DecidableEq, Repr

namespace Overrides

def none : Overrides := ⟨.none, .none, .none⟩

def shape : Shape Overrides where
  name := "ConfigOverrides"
  strict := true
  start := none
  fields := [
    .free "recorder" (.optional RecorderSettings.shape.reader) fun r o => { o with recorder := r },
    .free "sampler" (.optional SamplerSettings.shape.reader) fun s o => { o with sampler := s },
    .free "guard" (.optional GuardSettings.shape.reader) fun g o => { o with guard := g }]

end Overrides

/-- What a configuration file holds. -/
structure Export where
  version : Option UInt32
  preset : String
  overrides : Option Overrides
  deriving DecidableEq, Repr

namespace Export

def version32 : Reader UInt32 := (Reader.natural UInt32.size "u32").map UInt32.ofNat

def shape : Shape Export where
  name := "ConfigExportV1"
  strict := true
  start := ⟨none, "", none⟩
  fields := [
    .may "version" (.optional version32) fun v e => { e with version := v },
    .must "preset" .text fun p e => { e with preset := p },
    .free "overrides" (.optional Overrides.shape.reader) fun o e => { e with overrides := o }]

/-- The versions that can be read. -/
def supported : List UInt32 := [1]

/-- The draft that the file describes. -/
def draft (e : Export) : Except Fault Draft :=
  match e.version with
  | none => .error .missingVersion
  | some v =>
    if !supported.contains v then .error (.unsupportedVersion v supported)
    else
      match Preset.ofText? e.preset with
      | none => .error (.unknownPreset e.preset)
      | some p =>
        let o := e.overrides.getD .none
        .ok ⟨p, o.recorder, o.sampler, o.guard⟩

end Export

def RecorderSettings.toJson (s : RecorderSettings) : Value :=
  .record [("capture_backtrace", .flag s.captureBacktrace),
    ("echo_witnesses", .flag s.echoWitnesses), ("strict", .flag s.strict),
    ("sweep_every", .natural s.sweepEvery.toNat)]

def SamplerSettings.toJson (s : SamplerSettings) : Value :=
  .recordOf [some ("interval_ms", .natural s.intervalMs.toNat),
    Value.optionalEntry "namespace" (s.nameSpace.map .text)]

def GuardSettings.toJson (s : GuardSettings) : Value :=
  .record [("widen_window_ms", .natural s.windowMs.toNat)]

def Overrides.toJson (o : Overrides) : Value :=
  .recordOf [Value.optionalEntry "recorder" (o.recorder.map (·.toJson)),
    Value.optionalEntry "sampler" (o.sampler.map (·.toJson)),
    Value.optionalEntry "guard" (o.guard.map (·.toJson))]

def Export.toJson (e : Export) : Value :=
  .recordOf [some ("version", e.version.elim .null fun v => .natural v.toNat),
    some ("preset", .text e.preset),
    Value.optionalEntry "overrides" (e.overrides.map (·.toJson))]

open LockDiscipline.Yaml (Layout)

/-- A truth value as a word. -/
def flagWord (b : Bool) : Layout := .word (if b then "true" else "false")

/-- A number as a word. -/
def numberWord (n : UInt64) : Layout := .word (Nat.repr n.toNat)

def RecorderSettings.layout (s : RecorderSettings) : Layout :=
  .record [("capture_backtrace", flagWord s.captureBacktrace),
    ("echo_witnesses", flagWord s.echoWitnesses), ("strict", flagWord s.strict),
    ("sweep_every", numberWord s.sweepEvery)]

def SamplerSettings.layout (s : SamplerSettings) : Layout :=
  .record (("interval_ms", numberWord s.intervalMs) ::
    (s.nameSpace.map fun n => ("namespace", Layout.text n)).toList)

def GuardSettings.layout (s : GuardSettings) : Layout :=
  .record [("widen_window_ms", numberWord s.windowMs)]

namespace Draft

/-- The draft as a configuration file: only what overrides the preset is written. -/
def toYaml (d : Draft) : String :=
  Layout.document [("version", .word "1"), ("preset", .text d.preset.label),
    ("overrides", .record (
      (d.recorder.map fun s => ("recorder", s.layout)).toList ++
      (d.sampler.map fun s => ("sampler", s.layout)).toList ++
      (d.guard.map fun s => ("guard", s.layout)).toList))]

/-- Reads a configuration file. -/
def ofYaml (text : String) : Except Fault Draft :=
  match Yaml.read Export.shape.reader text with
  | .ok e => e.draft
  | .error e => .error (.document e)

end Draft

namespace Approved

/-- Reads a configuration file and checks it. -/
def ofYaml (text : String) : Except Fault Approved := do
  (← Draft.ofYaml text).build

/-- Reads and checks the content of a file; `none` where there is no file. -/
def ofFile (content : Option ByteArray) : Except Fault Approved :=
  match content with
  | none => .error (.file "No such file or directory (os error 2)")
  | some bytes =>
    match String.fromUTF8? bytes with
    | some text => ofYaml text
    | none => .error (.file "stream did not contain valid UTF-8")

end Approved

end LockDiscipline.Config
