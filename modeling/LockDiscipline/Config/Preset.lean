import LockDiscipline.Document.Reader
import LockDiscipline.Text.Blank

namespace LockDiscipline.Config

/-- Starting points of a configuration. -/
inductive Preset where
  /-- Little overhead. -/
  | quiet
  | balanced
  /-- Violations are not tolerated. -/
  | strict
  /-- Starts as balanced does. -/
  | custom
  deriving DecidableEq, Repr

namespace Preset

def all : List Preset := [quiet, balanced, strict, custom]

def label : Preset → String
  | quiet => "quiet"
  | balanced => "balanced"
  | strict => "strict"
  | custom => "custom"

/-- The preset that is assumed where none is named. -/
def standard : Preset := balanced

/-- The preset with the label, in letters of either case. -/
def ofText? (s : String) : Option Preset :=
  all.find? fun p => p.label = Text.lowerAscii s

theorem ofText?_label (p : Preset) : ofText? p.label = some p := by
  cases p <;> decide +kernel

/-- What is said of a text that labels no preset. -/
def complaint (s : String) : String :=
  s!"Unknown preset '{s}'. Valid presets: " ++ String.intercalate ", " (all.map label)

/-- Reads a preset by its exact label. -/
def reader : Document.Reader Preset :=
  Document.Reader.choice (all.map fun p => (p.label, p))

end Preset

end LockDiscipline.Config
