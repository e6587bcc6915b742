namespace LockDiscipline.Yaml

def isBlank (c : Char) : Bool := c = ' ' || c = '\t'

/-- The line breaks that are left after normalisation. -/
def isBreak (c : Char) : Bool := c = '\n' || c = '\u2028' || c = '\u2029'

def isGap (c : Char) : Bool := isBlank c || isBreak c

/-- Whether a word has come to its end here. -/
def atGap : List Char → Bool
  | [] => true
  | c :: _ => isGap c

/-- Letters, digits, `_` and `-` of ASCII. -/
def isWord (c : Char) : Bool := c.isAlphanum || c = '_' || c = '-'

/-- The characters that a document may hold. -/
def isAllowed (c : Char) : Bool :=
  let n := c.toNat
  n == 0x09 || n == 0x0A || n == 0x0D || (0x20 ≤ n && n ≤ 0x7E) || n == 0x85 ||
    (0xA0 ≤ n && n ≤ 0xFFFD) || 0x10000 ≤ n

/-- A carriage return, alone or before a line feed, and the next-line character are line feeds to
every rule of the syntax. -/
def normalizeBreaks : List Char → List Char
  | [] => []
  | '\r' :: '\n' :: cs => '\n' :: normalizeBreaks cs
  | c :: cs => (if c = '\r' || c = '\u0085' then '\n' else c) :: normalizeBreaks cs

/-- A place in a text, counted from zero. -/
structure Position where
  line : Nat
  column : Nat
  /-- How many octets of the line stand before it. -/
  octets : Nat
  deriving DecidableEq, Repr

namespace Position

def start : Position := ⟨0, 0, 0⟩

/-- The place after the character. -/
def after (p : Position) (c : Char) : Position :=
  if isBreak c then ⟨p.line + 1, 0, 0⟩ else ⟨p.line, p.column + 1, p.octets + c.utf8Size⟩

/-- The place after ASCII characters none of which breaks the line. -/
def along (p : Position) (n : Nat) : Position := ⟨p.line, p.column + n, p.octets + n⟩

/-- The start of the line, or of the next one from inside a line. -/
def atLineStart (p : Position) : Position := if p.column = 0 then p else ⟨p.line + 1, 0, 0⟩

end Position

/-- What is left of a text, and where it starts. -/
structure Cursor where
  position : Position
  rest : List Char
  deriving DecidableEq, Repr

/-- The cursor after `n` ASCII characters none of which breaks the line. -/
def Cursor.skip (c : Cursor) (n : Nat) : Cursor := ⟨c.position.along n, c.rest.drop n⟩

/-- The longest run of characters of a class, and the cursor after it. -/
def Cursor.span (c : Cursor) (p : Char → Bool) : List Char × Cursor :=
  let run := c.rest.takeWhile p
  (run, ⟨run.foldl .after c.position, c.rest.drop run.length⟩)

/-- Whether the text starts with three times the mark and then a gap. -/
def tripled (mark : Char) : List Char → Bool
  | a :: b :: c :: rest => a = mark && b = mark && c = mark && atGap rest
  | _ => false

/-- Whether a document starts or ends here, given that a line does. -/
def documentMark (cs : List Char) : Bool := tripled '-' cs || tripled '.' cs

/-- The space between two parts of a scalar. -/
inductive Gap where
  | none
  | blanks (text : List Char)
  /-- The first line break, unless it was escaped, and the later ones. -/
  | breaks (first : Option Char) (more : List Char)
  deriving DecidableEq, Repr

namespace Gap

def hasBreaks : Gap → Bool
  | breaks _ _ => true
  | _ => false

/-- Blanks after a line break are indentation. -/
def addBlank (c : Char) : Gap → Gap
  | none => blanks [c]
  | blanks text => blanks (text ++ [c])
  | breaks first more => breaks first more

def addBreak (c : Char) : Gap → Gap
  | breaks first more => breaks first (more ++ [c])
  | _ => breaks (some c) []

/-- The text that the gap stands for: a single line feed folds to a space, and the first of several
line feeds is dropped. -/
def fold : Gap → List Char
  | none => []
  | blanks text => text
  | breaks (some '\n') [] => [' ']
  | breaks (some '\n') more => more
  | breaks (some c) more => c :: more
  | breaks Option.none more => more

end Gap

end LockDiscipline.Yaml
