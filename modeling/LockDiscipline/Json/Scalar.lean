import LockDiscipline.Document.Reader
import LockDiscipline.Text.Digit

namespace LockDiscipline.Json

open LockDiscipline.Document LockDiscipline.Decimal

inductive Scalar where
  | null
  | flag (b : Bool)
  /-- An integer of 64 bits, with a sign only if it is negative. -/
  | integer (i : Int)
  | real (x : Real64)
  /-- A number beyond the largest floating point number. -/
  | excess
  | text (s : String)
  /-- A text that escapes one half of a surrogate pair. -/
  | halfPair
  deriving DecidableEq, Repr

def wording : Wording := ⟨"null", Digits.scientific⟩

/-- Every scalar shows its kind; a number that is too large and half a surrogate pair are faults of
the text as soon as somebody asks for the value. -/
def dialect : Dialect Scalar where
  wording := wording
  nature
    | .null => .found .empty
    | .flag b => .found (.flag b)
    | .integer i => .found (.integer i)
    | .real x => .found (.real x)
    | .text s => .found (.text s)
    | .excess => .malformed
    | .halfPair => .malformed
  flag
    | .flag b => some b
    | _ => none
  natural
    | .integer i => if 0 ≤ i then some i.toNat else none
    | _ => none
  negative
    | .integer i => if i < 0 then some i else none
    | _ => none
  text
    | .text s => some s
    | _ => none
  presence
    | .null => .absent
    | _ => .present
  emptyRecord _ := false
  rows := true
  textKeys := true

/-- The digits at the front and what follows them. -/
def digitRun (cs : List Char) : List Char × List Char :=
  (cs.takeWhile Char.isDigit, cs.dropWhile Char.isDigit)

def digitValue (c : Char) : Nat := c.toNat - '0'.toNat

/-- Appends digits to a number of at most 64 bits, up to the first one that does not fit. The second
component is how many digits were cut off. -/
def absorb : Nat → List Char → Nat × Nat
  | n, [] => (n, 0)
  | n, c :: cs =>
    let next := n * 10 + digitValue c
    if next < UInt64.size then absorb next cs else (n, (c :: cs).length)

/-- Multiplies by a power of ten, in steps of at most `10 ^ 308`: each step rounds. -/
def scaleBy : Nat → Binary64 → Int → Option Binary64
  | 0, _, _ => some .zero
  | fuel + 1, x, e =>
    if e.natAbs ≤ 308 then
      match Binary64.ofScientific 1 e.natAbs with
      | none => none
      | some p => if 0 ≤ e then x.mul p else x.div p
    else if x.mantissa = 0 then some x
    else if 0 ≤ e then none
    else
      match Binary64.ofScientific 1 308 with
      | none => none
      | some p => (x.div p).bind fun y => scaleBy fuel y (e + 308)

/-- The number `significand * 10 ^ e`, rounded once for the significand and once for each step of
the scaling. -/
def realOf (negative : Bool) (significand : Nat) (e : Int) : Scalar :=
  match (Binary64.ofRatio significand 1).bind fun x => scaleBy 8 x e with
  | some x => .real (.finite negative x)
  | none => .excess

/-- An integer without fraction and exponent. The negative zero is no integer. -/
def integerOf (negative : Bool) (n : Nat) : Scalar :=
  if negative then
    if 0 < n && n ≤ UInt64.size / 2 then .integer (-(n : Int)) else realOf true n 0
  else .integer n

/-- The exponent after its mark: `none` if it has no digits; otherwise its sign and value. -/
def exponentPart (cs : List Char) : Option ((Bool × Nat) × List Char) :=
  let (negative, cs) :=
    match cs with
    | '+' :: r => (false, r)
    | '-' :: r => (true, r)
    | r => (false, r)
  let (ds, rest) := digitRun cs
  if ds.isEmpty then none
  else some ((negative, ds.foldl (fun n c => min (n * 10 + digitValue c) (UInt32.size / 2)) 0), rest)

/-- The largest exponent that is followed digit by digit. -/
def exponentLimit : Nat := UInt32.size / 2 - 1

def withExponent (negative : Bool) (significand : Nat) (start : Int) (e : Bool × Nat) : Scalar :=
  if e.2 > exponentLimit then
    if significand ≠ 0 && !e.1 then .excess else .real (.finite negative .zero)
  else realOf negative significand (start + (if e.1 then -(e.2 : Int) else e.2))

/-- A number, after its sign. `none` if the text is no number. -/
def number (negative : Bool) (cs : List Char) : Option (Scalar × List Char) :=
  let (ds, rest) := digitRun cs
  if ds.isEmpty || (ds.length > 1 && ds.head? == some '0') then none
  else
    let (n, cut) := absorb 0 ds
    match rest with
    | '.' :: r =>
      let (fs, r) := digitRun r
      if fs.isEmpty then none
      else
        let (m, left) := absorb n fs
        let scale : Int := cut - ((fs.length - left : Nat) : Int)
        match r with
        | c :: r' =>
          if c = 'e' || c = 'E' then
            (exponentPart r').map fun (e, rest) => (withExponent negative m scale e, rest)
          else some (realOf negative m scale, r)
        | [] => some (realOf negative m scale, [])
    | c :: r =>
      if c = 'e' || c = 'E' then
        (exponentPart r).map fun (e, rest) => (withExponent negative n cut e, rest)
      else if cut = 0 then some (integerOf negative n, rest)
      else some (realOf negative n cut, rest)
    | [] => if cut = 0 then some (integerOf negative n, []) else some (realOf negative n cut, [])

/-- Where a text is being read. -/
inductive TextMode where
  | plain
  | escaped
  /-- Inside an escape by number: digits still to come, and the value so far. -/
  | unit (left value : Nat)

/-- What has been read of a text: its characters in reverse, the first half of a surrogate pair
that waits for the other, and whether some half stood alone. -/
structure Partial where
  chars : List Char
  high : Option Nat
  halved : Bool

namespace Partial

/-- Adds a character that is no half of a pair. -/
def push (p : Partial) (c : Char) : Partial := ⟨c :: p.chars, none, p.halved || p.high.isSome⟩

/-- Adds a unit of 16 bits. -/
def pushUnit (p : Partial) (n : Nat) : Partial :=
  if 0xDC00 ≤ n && n ≤ 0xDFFF then
    match p.high with
    | some h => ⟨Char.ofNat (0x10000 + (h - 0xD800) * 0x400 + (n - 0xDC00)) :: p.chars, none, p.halved⟩
    | none => { p with halved := true }
  else if 0xD800 ≤ n && n ≤ 0xDBFF then ⟨p.chars, some n, p.halved || p.high.isSome⟩
  else p.push (Char.ofNat n)

def finish (p : Partial) : Scalar :=
  if p.halved || p.high.isSome then .halfPair else .text (String.ofList p.chars.reverse)

end Partial

/-- The character of a one-letter escape. -/
def unescape (c : Char) : Option Char :=
  if c = '\x22' || c = '\\' || c = '/' then some c
  else if c = 'b' then some '\x08'
  else if c = 'f' then some '\x0c'
  else if c = 'n' then some '\n'
  else if c = 'r' then some '\r'
  else if c = 't' then some '\t'
  else none

/-- A text after its opening quote, up to and without the closing one. -/
def textFrom : TextMode → Partial → List Char → Option (Scalar × List Char)
  | _, _, [] => none
  | .plain, p, c :: cs =>
    if c = '\x22' then some (p.finish, cs)
    else if c = '\\' then textFrom .escaped p cs
    else if c.toNat < 0x20 then none
    else textFrom .plain (p.push c) cs
  | .escaped, p, c :: cs =>
    if c = 'u' then textFrom (.unit 4 0) p cs
    else
      match unescape c with
      | some e => textFrom .plain (p.push e) cs
      | none => none
  | .unit left value, p, c :: cs =>
    match Text.hexValue c with
    | none => none
    | some h =>
      let value := value * 16 + h
      if left ≤ 1 then textFrom .plain (p.pushUnit value) cs
      else textFrom (.unit (left - 1) value) p cs

end LockDiscipline.Json
