import LockDiscipline.Config.Preset
import LockDiscipline.Yaml.Text

namespace LockDiscipline.Config

inductive Fault where
  /-- A field whose value lies outside its bounds. -/
  | range (field value low high hint : String)
  | missingVersion
  | unsupportedVersion (found : UInt32) (supported : List UInt32)
  | unknownPreset (name : String)
  /-- A variable of the environment with a value that cannot be used. -/
  | environment (name value reason : String)
  /-- A file that could not be read. -/
  | file (reason : String)
  | document (cause : Document.Failure)
  | invalid (reason : String)
  deriving DecidableEq, Repr

namespace Fault

/-- What is wrong with a document. A text that is no document at all is not explained. -/
def documentText : Document.Failure → Option String
  | .malformed => none
  | .mismatch path cause => some (Yaml.complaint path cause)

/-- What is said about the fault, unless it is that a text is no document. -/
def message : Fault → Option String
  | range field value low high hint =>
    some s!"Invalid range for field '{field}': {value} not in {low}..={high}. {hint}"
  | missingVersion =>
    some ("Missing 'version' field in configuration file. " ++
      "Add 'version: 1' to the top of your YAML file.")
  | unsupportedVersion found supported =>
    some (s!"Unsupported configuration version {found}. Supported versions: " ++
      String.intercalate ", " (supported.map toString))
  | unknownPreset name => some (Preset.complaint name)
  | environment name value reason =>
    some s!"Invalid value '{value}' for environment variable {name}: {reason}"
  | file reason => some s!"IO error: {reason}"
  | document cause => (documentText cause).map ("YAML parsing error: " ++ ·)
  | invalid reason => some s!"Validation error: {reason}"

/-- What is said about the fault behind this one, if there is one. -/
def source : Fault → Option String
  | file reason => some reason
  | document cause => documentText cause
  | _ => none

end Fault

end LockDiscipline.Config
