import LockDiscipline.Text.Digit
import LockDiscipline.Yaml.Character

namespace LockDiscipline.Yaml

/-- Where a quoted scalar is being read. -/
inductive QuoteMode where
  | text
  | escaped
  /-- Inside an escape by number: digits still to come, and the value so far. -/
  | code (left value : Nat)

/-- The character of a one-letter escape. -/
def unescape (c : Char) : Option Char :=
  if c = '0' then some '\x00'
  else if c = 'a' then some '\x07'
  else if c = 'b' then some '\x08'
  else if c = 't' || c = '\t' then some '\t'
  else if c = 'n' then some '\n'
  else if c = 'v' then some '\x0b'
  else if c = 'f' then some '\x0c'
  else if c = 'r' then some '\r'
  else if c = 'e' then some '\x1b'
  else if c = ' ' || c = '\x22' || c = '/' || c = '\\' then some c
  else if c = 'N' then some '\u0085'
  else if c = '_' then some '\u00a0'
  else if c = 'L' then some '\u2028'
  else if c = 'P' then some '\u2029'
  else none

/-- The number of digits of an escape by number. -/
def codeLength (c : Char) : Option Nat :=
  if c = 'x' then some 2 else if c = 'u' then some 4 else if c = 'U' then some 8 else none

/-- The character with the number, if there is one. -/
def charOf (n : Nat) : Option Char := if n.isValidChar then some (Char.ofNat n) else none

/-- Reads on after `done`, which is in reverse, and a gap. -/
def quotedFrom (quote : Char) :
    QuoteMode → Gap → List Char → Position → List Char → Option (List Char × Cursor)
  | _, _, _, _, [] => none
  | .text, gap, done, p, c :: cs =>
    if isBlank c then quotedFrom quote .text (gap.addBlank c) done (p.after c) cs
    else if isBreak c then quotedFrom quote .text (gap.addBreak c) done (p.after c) cs
    else if p.column = 0 && documentMark (c :: cs) then none
    else
      let done := gap.fold.reverse ++ done
      if c = quote then
        match cs with
        | d :: ds =>
          if quote = '\x27' && d = quote then
            quotedFrom quote .text .none (quote :: done) (p.along 2) ds
          else some (done.reverse, ⟨p.after c, d :: ds⟩)
        | [] => some (done.reverse, ⟨p.after c, []⟩)
      else if quote ≠ '\x27' && c = '\\' then quotedFrom quote .escaped .none done (p.after c) cs
      else quotedFrom quote .text .none (c :: done) (p.after c) cs
  | .escaped, _, done, p, c :: cs =>
    if isBreak c then quotedFrom quote .text (.breaks none []) done (p.after c) cs
    else
      match unescape c, codeLength c with
      | some e, _ => quotedFrom quote .text .none (e :: done) (p.after c) cs
      | none, some n => quotedFrom quote (.code n 0) .none done (p.after c) cs
      | none, none => none
  | .code left value, _, done, p, c :: cs =>
    match Text.hexValue c with
    | none => none
    | some h =>
      let value := value * 16 + h
      if left ≤ 1 then
        match charOf value with
        | some e => quotedFrom quote .text .none (e :: done) (p.after c) cs
        | none => none
      else quotedFrom quote (.code (left - 1) value) .none done (p.after c) cs

/-- A blank adds to the gap. -/
theorem quotedFrom_blank {c : Char} (h : isBlank c = true) (quote : Char) (gap : Gap)
    (done : List Char) (p : Position) (cs : List Char) :
    quotedFrom quote .text gap done p (c :: cs) =
      quotedFrom quote .text (gap.addBlank c) done (p.after c) cs := by
  rw [quotedFrom.eq_2, if_pos h]

/-- The quoted scalar at the cursor, which stands on its opening quote. -/
def quoted (c : Cursor) : Option (List Char × Cursor) :=
  match c.rest with
  | q :: rest => quotedFrom q .text .none [] (c.position.after q) rest
  | [] => none

end LockDiscipline.Yaml
