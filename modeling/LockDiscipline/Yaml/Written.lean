import LockDiscipline.Yaml.Character
import LockDiscipline.Yaml.Scalar

namespace LockDiscipline.Yaml

/-- The characters that scalars other than double-quoted ones may hold. -/
def isShown (c : Char) : Bool :=
  let n := c.toNat
  n == 0x0A || (0x20 ≤ n && n ≤ 0x7E) || (0xA0 ≤ n && n ≤ 0xFFFD && n != 0xFEFF) || 0x10000 ≤ n

/-- Whether a character of one class directly precedes one of another. -/
def adjacent (p q : Char → Bool) : List Char → Bool
  | [] => false
  | [_] => false
  | a :: b :: cs => (p a && q b) || adjacent p q (b :: cs)

def isSpace (c : Char) : Bool := c = ' '

/-- Whether the first characters would be read as something else than a plain scalar. -/
def leadsAstray (cs : List Char) : Bool :=
  "---".toList.isPrefixOf cs || "...".toList.isPrefixOf cs ||
    match cs with
    | [] => false
    | c :: rest =>
      "#,[]\x7b\x7d&*!|>\x27\x22%@\x60".contains c || ("?:-".contains c && atGap rest)

/-- Whether a later character would be read as the end of a plain scalar. -/
def endsEarly : List Char → Bool
  | [] => false
  | c :: cs =>
    (match cs with
    | d :: rest => (d = ':' && atGap rest) || (d = '#' && isGap c)
    | [] => false) || endsEarly cs

def mayBePlain (cs : List Char) : Bool :=
  cs.all (fun c => isShown c && !isBreak c) && !cs.head?.any isSpace && !cs.getLast?.any isSpace &&
    !leadsAstray cs && !endsEarly cs

def mayBeSingle (cs : List Char) : Bool :=
  cs.all isShown && !adjacent isSpace isBreak cs && !adjacent isBreak isSpace cs

def mayBeLiteral (cs : List Char) : Bool :=
  cs.all isShown && !adjacent isSpace isBreak cs && !cs.getLast?.any isSpace

/-- Whether a plain scalar with the text would be a text. -/
def resolvesToText (s : String) : Bool := resolve s = .text s && !zeroLed s.toList

/-- The style in which a text is written. -/
def styleFor (s : String) : Style :=
  let cs := s.toList
  if cs.contains '\n' then if mayBeLiteral cs then .literal else .double
  else if resolvesToText s && mayBePlain cs then .plain
  else if mayBeSingle cs then .single
  else .double

/-- The characters behind each line break are indented, except for further line breaks. -/
def indentLines (pad : List Char) : Bool → List Char → List Char
  | _, [] => []
  | atStart, c :: cs =>
    if isBreak c then c :: indentLines pad true cs
    else (if atStart then pad else []) ++ c :: indentLines pad false cs

/-- The text between single quotes; a quote in it is doubled. -/
def writeSingle (pad cs : List Char) : List Char :=
  let body := indentLines pad false (cs.flatMap fun c => if c = '\x27' then [c, c] else [c])
  '\x27' :: body ++ (if cs.getLast?.any isBreak then pad else []) ++ ['\x27']

/-- At least `n` digits of base 16. -/
def hexDigits (n value : Nat) : List Char :=
  let ds := (Nat.toDigits 16 value).map Char.toUpper
  List.replicate (n - ds.length) '0' ++ ds

/-- The letter that stands for a character in an escape. -/
def escapeLetter (c : Char) : Option Char :=
  if c = '\x00' then some '0'
  else if c = '\x07' then some 'a'
  else if c = '\x08' then some 'b'
  else if c = '\t' then some 't'
  else if c = '\n' then some 'n'
  else if c = '\x0b' then some 'v'
  else if c = '\x0c' then some 'f'
  else if c = '\r' then some 'r'
  else if c = '\x1b' then some 'e'
  else if c = '\x22' || c = '\\' then some c
  else if c = '\u0085' then some 'N'
  else if c = '\u2028' then some 'L'
  else if c = '\u2029' then some 'P'
  else none

def escape (c : Char) : List Char :=
  match escapeLetter c with
  | some l => ['\\', l]
  | none =>
    if isShown c then [c]
    else if c.toNat ≤ 0xFF then '\\' :: 'x' :: hexDigits 2 c.toNat
    else if c.toNat ≤ 0xFFFF then '\\' :: 'u' :: hexDigits 4 c.toNat
    else '\\' :: 'U' :: hexDigits 8 c.toNat

def writeDouble (cs : List Char) : List Char := '\x22' :: cs.flatMap escape ++ ['\x22']

/-- The header of a literal block: its depth if the text starts with a gap, and what becomes of the
line breaks at the end. -/
def literalHeader (cs : List Char) : List Char :=
  let depth := if cs.head?.any fun c => isSpace c || isBreak c then ['2'] else []
  let chomping :=
    match cs.reverse with
    | [] => ['-']
    | a :: rest =>
      if !isBreak a then ['-']
      else
        match rest with
        | [] => ['+']
        | b :: _ => if isBreak b then ['+'] else []
  '|' :: depth ++ chomping

def writeLiteral (pad cs : List Char) : List Char :=
  literalHeader cs ++ '\n' :: indentLines pad true cs

/-- The text as a scalar, to the end of its last line; lines after the first are indented. -/
def writeText (pad : List Char) (s : String) : List Char :=
  let cs := s.toList
  match styleFor s with
  | .literal => writeLiteral pad cs ++ if cs.getLast?.any isBreak then [] else ['\n']
  | .single => writeSingle pad cs ++ ['\n']
  | .double => writeDouble cs ++ ['\n']
  | _ => cs ++ ['\n']

/-- What a document is made of. -/
inductive Layout where
  /-- A number or a word that stands for itself. -/
  | word (s : String)
  | text (s : String)
  | record (entries : List (String × Layout))

namespace Layout

mutual

/-- What stands behind the key of an entry, given how deep the key is indented. -/
def afterKey (column : Nat) : Layout → List Char
  | word s => ' ' :: s.toList ++ ['\n']
  | text s => ' ' :: writeText (List.replicate (column + 2) ' ') s
  | record [] => " \x7b\x7d\n".toList
  | record (e :: es) => '\n' :: lines (column + 2) (e :: es)

/-- An entry to a line, each indented to the column. -/
def lines (column : Nat) : List (String × Layout) → List Char
  | [] => []
  | (k, v) :: es =>
    List.replicate column ' ' ++ k.toList ++ ':' :: afterKey column v ++ lines column es

end

/-- A record as a document. -/
def document (entries : List (String × Layout)) : String := String.ofList (lines 0 entries)

end Layout

end LockDiscipline.Yaml
