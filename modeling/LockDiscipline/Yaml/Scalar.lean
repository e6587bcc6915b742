import LockDiscipline.Document.Reader
import LockDiscipline.Text.Digit
import LockDiscipline.Yaml.Token

namespace LockDiscipline.Yaml

open LockDiscipline.Document LockDiscipline.Decimal

structure Scalar where
  text : String
  style : Style
  tag : Option String
  deriving DecidableEq, Repr

/-- The scalar that stands where nothing is written. -/
def Scalar.nothing : Scalar := ⟨"", .plain, none⟩

/-- Truth values are written in small letters, capitals, or with one capital. -/
def flagOf (s : String) : Option Bool :=
  if s = "true" || s = "True" || s = "TRUE" then some true
  else if s = "false" || s = "False" || s = "FALSE" then some false
  else none

/-- The words for the absence of a value. -/
def isNullWord (s : String) : Bool := s = "null" || s = "Null" || s = "NULL" || s = "~"

def isSign (c : Char) : Bool := c = '+' || c = '-'

/-- Digits after a leading zero, perhaps behind a sign, are a text. -/
def zeroLed (cs : List Char) : Bool :=
  let cs := match cs with
    | c :: r => if isSign c then r else cs
    | [] => []
  match cs with
  | '0' :: r => !r.isEmpty && r.all Char.isDigit
  | _ => false

/-- The radix that a number's start announces, and its digits. -/
def radix : List Char → Option (Nat × List Char)
  | '0' :: 'x' :: r => some (16, r)
  | '0' :: 'o' :: r => some (8, r)
  | '0' :: 'b' :: r => some (2, r)
  | _ => none

/-- The number written without a sign or after a `+`. -/
def naturalOf (s : String) : Option Nat :=
  let cs := match s.toList with
    | '+' :: r => r
    | cs => cs
  let announced := (radix cs).bind fun (b, r) => Text.naturalIn b r
  match announced with
  | some n => some n
  | none => if zeroLed s.toList then none else Text.naturalIn 10 cs

/-- The absolute value of the number written after a `-`. -/
def negatedOf (s : String) : Option Nat :=
  match s.toList with
  | '-' :: cs =>
    match (radix cs).bind fun (b, r) => Text.naturalIn b r with
    | some n => some n
    | none => if zeroLed cs then none else Text.naturalIn 10 cs
  | _ => none

/-- An integer of at most 128 bits, as small as it fits. -/
def integerOf (s : String) : Option Found :=
  match naturalOf s, negatedOf s with
  | some n, _ =>
    if n < UInt64.size then some (.integer n)
    else if n < UInt64.size * UInt64.size then some (.wide n false)
    else none
  | none, some n =>
    if n ≤ UInt64.size / 2 then some (.integer (-(n : Int)))
    else if n ≤ UInt64.size * UInt64.size / 2 then some (.wide (-(n : Int)) true)
    else none
  | none, none => none

/-- The digits at the front, as a number with their count, and what follows. -/
def digitsAt (cs : List Char) : (Nat × Nat) × List Char :=
  let ds := cs.takeWhile Char.isDigit
  ((ds.foldl (fun n d => 10 * n + (d.toNat - '0'.toNat)) 0, ds.length), cs.drop ds.length)

/-- An exponent after its mark, to the end. -/
def exponentOf (cs : List Char) : Option Int :=
  match cs with
  | '-' :: r => (Text.naturalIn 10 r).map fun n => -(n : Int)
  | '+' :: r => (Text.naturalIn 10 r).map fun n => (n : Int)
  | r => (Text.naturalIn 10 r).map fun n => (n : Int)

/-- Decimal digits with at most one point among or around them, and perhaps an exponent. -/
def magnitudeOf (cs : List Char) : Option Binary64 :=
  let ((whole, n), rest) := digitsAt cs
  let ((fraction, k), rest) := match rest with
    | '.' :: r => digitsAt r
    | r => ((0, 0), r)
  if n + k = 0 then none
  else
    let digits := whole * Nat.pow 10 k + fraction
    match rest with
    | [] => Binary64.ofScientific digits (-(k : Int))
    | e :: r =>
      if e = 'e' || e = 'E' then (exponentOf r).bind fun x => Binary64.ofScientific digits (x - k)
      else none

/-- A floating point number. Those that are too large are none. -/
def realOf (s : String) : Option Real64 :=
  let t := match s.toList with
    | '+' :: r => r
    | cs => cs
  if [".inf", ".Inf", ".INF"].contains (String.ofList t) then some (.infinite false)
  else if ["-.inf", "-.Inf", "-.INF"].contains s then some (.infinite true)
  else if [".nan", ".NaN", ".NAN"].contains s then some .notANumber
  else
    match s.toList with
    | '-' :: r => (magnitudeOf r).map (.finite true ·)
    | _ => (magnitudeOf t).map (.finite false ·)

/-- What an untagged plain text stands for. -/
def resolve (s : String) : Found :=
  if s = "" || isNullWord s then .empty
  else
    match flagOf s, integerOf s with
    | some b, _ => .flag b
    | none, some i => i
    | none, none =>
      if zeroLed s.toList then .text s
      else
        match realOf s with
        | some x => .real x
        | none => .text s

/-- The core tags. -/
def coreTag (kind : String) : String := "tag:yaml.org,2002:" ++ kind

namespace Scalar

/-- Whether the scalar answers for its text: quoted ones do not. A tag makes a literal one do. -/
def answers (s : Scalar) (kind : String) : Bool :=
  s.style = .plain || (s.style = .literal && s.tag = some (coreTag kind))

/-- The kind that a tag claims, if the text has it. -/
def claim (s : Scalar) (phrase : String) (found : Option Found) : Nature :=
  match found with
  | some f => .found f
  | none => .unfit (.wrongValue (.text s.text) phrase)

def nature (s : Scalar) : Nature :=
  match s.tag with
  | some t =>
    if t = coreTag "bool" then s.claim "a boolean" ((flagOf s.text).map .flag)
    else if t = coreTag "int" then s.claim "an integer" (integerOf s.text)
    else if t = coreTag "float" then s.claim "a float" ((realOf s.text).map .real)
    else if t = coreTag "null" then
      s.claim "null" (if isNullWord s.text then some .empty else none)
    else if t.startsWith "!" && s.style = .plain then .found (resolve s.text)
    else .found (.text s.text)
  | none => .found (if s.style = .plain then resolve s.text else .text s.text)

def presence (s : Scalar) : Presence :=
  if s.style ≠ .plain then .present
  else
    match s.tag with
    | some t =>
      if t = coreTag "null" then
        if isNullWord s.text then .absent else .unfit (.wrongValue (.text s.text) "null")
      else .present
    | none => if s.text = "" || isNullWord s.text then .absent else .present

end Scalar

/-- Positional notation with a fraction, and a phrase for nothing. -/
def wording : Wording where
  empty := "unit value"
  magnitude d := if 0 ≤ d.scale then d.positional ++ ".0" else d.positional

/-- Any scalar is a text, plain ones are also what they resolve to, and a plain empty scalar is a
record without entries. -/
def dialect : Dialect Scalar where
  wording := wording
  nature := Scalar.nature
  flag s := if s.answers "bool" then flagOf s.text else none
  natural s := if s.answers "int" then (naturalOf s.text).filter (· < UInt64.size) else none
  negative _ := none
  text s := some s.text
  presence := Scalar.presence
  emptyRecord s := s.text = "" && s.style = .plain
  rows := false
  textKeys := false

end LockDiscipline.Yaml
