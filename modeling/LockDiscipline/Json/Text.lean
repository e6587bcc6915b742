import LockDiscipline.Json.Scalar
import LockDiscipline.Json.Value

namespace LockDiscipline.Json

open LockDiscipline.Document

def isSpace (c : Char) : Bool := c = ' ' || c = '\n' || c = '\t' || c = '\r'

def skipSpace (cs : List Char) : List Char := cs.dropWhile isSpace

/-- What follows the word, if the text starts with it. -/
def afterWord : List Char → List Char → Option (List Char)
  | [], cs => some cs
  | _ :: _, [] => none
  | w :: ws, c :: cs => if w = c then afterWord ws cs else none

/-- A scalar at the front of a text that does not start with a space. -/
def scalar (cs : List Char) : Option (Scalar × List Char) :=
  match cs with
  | [] => none
  | c :: rest =>
    if c = '\x22' then textFrom .plain ⟨[], none, false⟩ rest
    else if c = '-' then number true rest
    else if c.isDigit then number false cs
    else if c = 'n' then (afterWord "ull".toList rest).map (Scalar.null, ·)
    else if c = 't' then (afterWord "rue".toList rest).map (Scalar.flag true, ·)
    else if c = 'f' then (afterWord "alse".toList rest).map (Scalar.flag false, ·)
    else none

mutual

/-- The value at the front of the text and what follows it; nothing follows a broken one. The first
argument bounds the depth and the number of items by the length of the text. -/
def valueFrom : Nat → List Char → Datum Scalar × Option (List Char)
  | 0, _ => (.broken, none)
  | fuel + 1, cs =>
    match skipSpace cs with
    | '[' :: rest =>
      match skipSpace rest with
      | ']' :: rest => (.list [], some rest)
      | rest =>
        let (items, rest) := itemsFrom fuel rest
        (.list items, rest)
    | '\x7b' :: rest =>
      match skipSpace rest with
      | '\x7d' :: rest => (.record [], some rest)
      | rest =>
        let (entries, rest) := entriesFrom fuel rest
        (.record entries, rest)
    | cs =>
      match scalar cs with
      | some (s, rest) => (.leaf s, some rest)
      | none => (.broken, none)

/-- The items of a list that is not empty, up to its end. -/
def itemsFrom : Nat → List Char → List (Datum Scalar) × Option (List Char)
  | 0, _ => ([.broken], none)
  | fuel + 1, cs =>
    match valueFrom fuel cs with
    | (t, none) => ([t], none)
    | (t, some rest) =>
      match skipSpace rest with
      | ',' :: rest =>
        let (ts, rest) := itemsFrom fuel rest
        (t :: ts, rest)
      | ']' :: rest => ([t], some rest)
      | _ => ([t, .broken], none)

/-- The entries of a record that is not empty, up to its end. A key that is no text breaks the
record after it. -/
def entriesFrom : Nat → List Char → List (Datum Scalar × Datum Scalar) × Option (List Char)
  | 0, _ => ([(.broken, .broken)], none)
  | fuel + 1, cs =>
    match skipSpace cs with
    | '\x22' :: rest =>
      match textFrom .plain ⟨[], none, false⟩ rest with
      | none => ([(.broken, .broken)], none)
      | some (key, rest) =>
        match skipSpace rest with
        | ':' :: rest =>
          match valueFrom fuel rest with
          | (t, none) => ([(.leaf key, t)], none)
          | (t, some rest) =>
            match skipSpace rest with
            | ',' :: rest =>
              let (es, rest) := entriesFrom fuel rest
              ((.leaf key, t) :: es, rest)
            | '\x7d' :: rest => ([(.leaf key, t)], some rest)
            | _ => ([(.leaf key, t), (.broken, .broken)], none)
        | _ => ([(.leaf key, .broken)], none)
    | cs => ([((valueFrom fuel cs).1, .broken)], none)

end

/-- A JSON text: its datum, and whether nothing but space follows. -/
structure Parsed where
  datum : Datum Scalar
  whole : Bool

def parse (text : String) : Parsed :=
  let cs := text.toList
  let (t, rest) := valueFrom (2 * cs.length + 2) cs
  ⟨t, match rest with
    | none => false
    | some rest => (skipSpace rest).isEmpty⟩

/-- No text of JSON has anchors. -/
def scope : Scope Scalar := ⟨dialect, fun _ => none⟩

/-- Reads a text as a value: a fault in the value counts before one after it. -/
def read {α : Type} (r : Reader α) (text : String) : Except Failure α :=
  let p := parse text
  match r.run scope [] p.datum with
  | .ok x => if p.whole then .ok x else .error .malformed
  | .error e => .error e

/-- What is wrong with a text, unless it is no JSON at all. -/
def complaint : Failure → Option String
  | .malformed => none
  | .mismatch _ cause => some (cause.render wording)

end LockDiscipline.Json
