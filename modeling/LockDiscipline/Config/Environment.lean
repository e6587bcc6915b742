import LockDiscipline.Config.Draft
import LockDiscipline.Text.Digit

namespace LockDiscipline.Config

/-- The values of variables. -/
abbrev Environment := String → Option String

namespace Environment

def intervalVariable : String := "LOCKWATCH_INTERVAL_MS"
def nameSpaceVariable : String := "LOCKWATCH_NAMESPACE"
def strictVariable : String := "LOCKWATCH_STRICT"
def echoVariable : String := "LOCKWATCH_ECHO_WITNESSES"

/-- Appends digits to a word of 64 bits, or says what is wrong with the first that does not fit. -/
def wordFrom : Nat → List Char → Except String Nat
  | n, [] => .ok n
  | n, c :: cs =>
    match Text.digitIn 10 c with
    | none => .error "invalid digit found in string"
    | some d =>
      if n * 10 + d < UInt64.size then wordFrom (n * 10 + d) cs
      else .error "number too large to fit in target type"

/-- A word of 64 bits in decimal digits, perhaps after a `+`. -/
def word (s : String) : Except String UInt64 :=
  match s.toList with
  | [] => .error "cannot parse integer from empty string"
  | '+' :: c :: cs => (wordFrom 0 (c :: cs)).map UInt64.ofNat
  | cs => (wordFrom 0 cs).map UInt64.ofNat

/-- The words for a truth value, in letters of either case. -/
def flag (s : String) : Except String Bool :=
  let w := Text.lowerAscii s
  if ["1", "true", "yes", "on"].contains w then .ok true
  else if ["0", "false", "no", "off"].contains w then .ok false
  else .error "expected a boolean flag"

/-- What a variable says about the draft, blanks around its value apart. -/
def apply {α : Type} (env : Environment) (name : String) (parse : String → Except String α)
    (change : Draft → α → Draft) (d : Draft) : Except Fault Draft :=
  match env name with
  | none => .ok d
  | some raw =>
    match parse (Text.trim raw) with
    | .ok x => .ok (change d x)
    | .error reason => .error (.environment name raw reason)

end Environment

namespace Draft

open Environment

/-- The draft with all variables applied; the first value that cannot be used is a fault. -/
def withEnvironment (env : Environment) (d : Draft) : Except Fault Draft := do
  let d ← env.apply intervalVariable word (fun d n => d.editSampler [.intervalMs n]) d
  let d ← env.apply nameSpaceVariable .ok (fun d s => d.editSampler [.nameSpace s]) d
  let d ← env.apply strictVariable flag (fun d b => d.editRecorder [.strict b]) d
  env.apply echoVariable flag (fun d b => d.editRecorder [.echoWitnesses b]) d

end Draft

end LockDiscipline.Config
