import LockDiscipline.Decimal.Shortest
import LockDiscipline.Text.Quoted

namespace LockDiscipline.Document

open LockDiscipline.Decimal

/-- A floating point number as written in a document. -/
inductive Real64 where
  | finite (negative : Bool) (magnitude : Binary64)
  | infinite (negative : Bool)
  | notANumber
  deriving DecidableEq, Repr

/-- The kind of value that stands in a document. -/
inductive Found where
  | flag (b : Bool)
  | integer (i : Int)
  /-- An integer that needs more than 64 bits; `signed` if it is negative. -/
  | wide (i : Int) (signed : Bool)
  | real (x : Real64)
  | text (s : String)
  | empty
  | list
  | record
  deriving DecidableEq, Repr

inductive Mismatch where
  | wrongType (found : Found) (expected : String)
  | wrongValue (found : Found) (expected : String)
  | wrongLength (found : Nat) (expected : String)
  | unknownField (name : String) (known : List String)
  | unknownChoice (name : String) (known : List String)
  | missingField (name : String)
  | repeatedField (name : String)
  deriving DecidableEq, Repr

/-- How a format spells what only it can spell. -/
structure Wording where
  empty : String
  magnitude : Digits → String

namespace Real64

/-- The magnitude is spelled by the format; sign, infinity and the undefined number are not. -/
def render (w : Wording) : Real64 → String
  | finite negative x => (if negative then "-" else "") ++ w.magnitude x.shortest
  | infinite negative => if negative then "-inf" else "inf"
  | notANumber => "NaN"

end Real64

def Found.render (w : Wording) : Found → String
  | flag b => s!"boolean `{b}`"
  | integer i => s!"integer `{i}`"
  | wide i signed => s!"integer `{i}` as " ++ (if signed then "i128" else "u128")
  | real x => "floating point `" ++ x.render w ++ "`"
  | text s => "string " ++ Text.quoted s
  | empty => w.empty
  | list => "sequence"
  | record => "map"

/-- The known names, in words that fit their number. -/
def oneOf : List String → String
  | [] => "there are none"
  | [a] => s!"expected `{a}`"
  | [a, b] => s!"expected `{a}` or `{b}`"
  | names => "expected one of " ++ String.intercalate ", " (names.map fun n => s!"`{n}`")

def Mismatch.render (w : Wording) : Mismatch → String
  | wrongType found expected => s!"invalid type: " ++ found.render w ++ s!", expected {expected}"
  | wrongValue found expected => s!"invalid value: " ++ found.render w ++ s!", expected {expected}"
  | wrongLength found expected => s!"invalid length {found}, expected {expected}"
  | unknownField name known => s!"unknown field `{name}`, " ++ oneOf known
  | unknownChoice name known => s!"unknown variant `{name}`, " ++ oneOf known
  | missingField name => s!"missing field `{name}`"
  | repeatedField name => s!"duplicate field `{name}`"

/-- Why a document could not be read. -/
inductive Failure where
  /-- The text is not of the format. -/
  | malformed
  /-- The text holds another value, at the place that the names lead to. -/
  | mismatch (path : List String) (cause : Mismatch)
  deriving DecidableEq, Repr

end LockDiscipline.Document
