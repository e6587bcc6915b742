import LockDiscipline.Yaml.Block
import LockDiscipline.Yaml.Plain
import LockDiscipline.Yaml.Property

namespace LockDiscipline.Yaml

/-- A token that becomes a key if a `:` follows it. -/
structure OpenKey where
  /-- How many tokens stand before it. -/
  number : Nat
  position : Position
  /-- Whether only a key can stand here. -/
  required : Bool
  deriving DecidableEq, Repr

/-- A key ends on the line where it starts, within 1024 octets. -/
def OpenKey.expired (k : OpenKey) (p : Position) : Bool :=
  k.position.line < p.line || k.position.octets + 1024 < p.octets

/-- A text that has been cut into tokens up to the cursor. -/
structure Lexer where
  cursor : Cursor
  tokens : Array Token
  /-- The columns of the open blocks, innermost first. -/
  indents : List Nat
  openKey : Option OpenKey
  /-- The open keys of what surrounds each open flow collection. -/
  outer : List (Option OpenKey)
  /-- Whether a key may start here. -/
  keyAllowed : Bool

namespace Lexer

def start (cs : List Char) : Lexer := ⟨⟨.start, cs⟩, #[], [], none, [], true⟩

/-- Whether the cursor is inside a flow collection. -/
def inFlow (l : Lexer) : Bool := !l.outer.isEmpty

def column (l : Lexer) : Nat := l.cursor.position.column

def emit (l : Lexer) (t : Token) : Lexer := { l with tokens := l.tokens.push t }

/-- How many tokens no open key can come to precede. -/
def settled (l : Lexer) : Nat :=
  let numbers := (l.openKey :: l.outer).filterMap fun k => k.map (·.number)
  numbers.foldl min l.tokens.size

/-- Closes an open key that expired; `none` if it was required. -/
def refresh (p : Position) : Option OpenKey → Option (Option OpenKey)
  | none => some none
  | some k => if k.expired p then (if k.required then none else some none) else some (some k)

/-- Closes the open keys that expired. -/
def closeExpired (l : Lexer) : Option Lexer := do
  let openKey ← refresh l.cursor.position l.openKey
  let outer ← l.outer.mapM (refresh l.cursor.position)
  return { l with openKey, outer }

/-- Closes the open key of this level. -/
def closeKey (l : Lexer) : Option Lexer :=
  if l.openKey.any (·.required) then none else some { l with openKey := none }

/-- Opens a key at the cursor if one may start there. -/
def mark (l : Lexer) : Option Lexer := do
  if l.keyAllowed then
    let required := !l.inFlow && l.indents.head? == some l.column
    let l ← l.closeKey
    return { l with openKey := some ⟨l.tokens.size, l.cursor.position, required⟩ }
  else return l

/-- Ends the blocks that are indented deeper than the column. -/
def dedentFrom (column : Nat) : List Nat → Lexer → Lexer
  | i :: is, l =>
    if column < i then dedentFrom column is ((l.emit .blockEnd))
    else { l with indents := i :: is }
  | [], l => { l with indents := [] }

def dedent (column : Nat) (l : Lexer) : Lexer :=
  if l.inFlow then l else dedentFrom column l.indents l

/-- Ends all blocks. -/
def dedentAll (l : Lexer) : Lexer :=
  if l.inFlow then l
  else { l with tokens := l.tokens ++ l.indents.map (fun _ => Token.blockEnd), indents := [] }

/-- Starts a block at the column if that is deeper than the blocks around it. The token goes before
those from `number` on. -/
def indent (l : Lexer) (column number : Nat) (t : Token) : Lexer :=
  if !l.inFlow && l.indents.head?.all (· < column) then
    { l with
      indents := column :: l.indents
      tokens := l.tokens.insertIdxIfInBounds number t }
  else l

/-- Goes on to the next token: over spaces, comments and line breaks. A tab is no indentation where
a key may start; after a line break one may, outside flow collections. -/
def skipFrom (flow : Bool) : Bool → Bool → Position → List Char → Bool × Cursor
  | _, allowed, p, [] => (allowed, ⟨p, []⟩)
  | comment, allowed, p, c :: cs =>
    if isBreak c then skipFrom flow false (allowed || !flow) (p.after c) cs
    else if comment || c = '#' then skipFrom flow true allowed (p.after c) cs
    else if c = ' ' || (c = '\t' && (flow || !allowed)) || (c = '\ufeff' && p.column = 0) then
      skipFrom flow false allowed (p.after c) cs
    else (allowed, ⟨p, c :: cs⟩)

def skipGap (l : Lexer) : Lexer :=
  let (keyAllowed, cursor) := skipFrom l.inFlow false l.keyAllowed l.cursor.position l.cursor.rest
  { l with keyAllowed, cursor }

/-- Adds a token of `n` characters. -/
def take (l : Lexer) (n : Nat) (t : Token) : Lexer := { l.emit t with cursor := l.cursor.skip n }

/-- Adds a token that was read, up to the cursor behind it. -/
def put (l : Lexer) (t : Token) (c : Cursor) : Lexer := { l.emit t with cursor := c }

/-- The end of the text, which ends the line too. -/
def fetchEnd (l : Lexer) : Option Lexer := do
  let l ← l.dedentAll.closeKey
  let cursor := { l.cursor with position := l.cursor.position.atLineStart }
  return { l.emit .streamEnd with cursor, keyAllowed := false }

def fetchDirective (l : Lexer) : Option Lexer := do
  let l ← l.dedentAll.closeKey
  let (t, c) ← directive l.cursor
  return { l.put t c with keyAllowed := false }

/-- A mark between documents. -/
def fetchDocumentMark (l : Lexer) (t : Token) : Option Lexer := do
  let l ← l.dedentAll.closeKey
  return { l.take 3 t with keyAllowed := false }

def fetchFlowStart (l : Lexer) (t : Token) : Option Lexer := do
  let l ← l.mark
  return { l.take 1 t with openKey := none, outer := l.openKey :: l.outer, keyAllowed := true }

def fetchFlowEnd (l : Lexer) (t : Token) : Option Lexer := do
  let l ← l.closeKey
  let l := { l.take 1 t with keyAllowed := false }
  match l.outer with
  | k :: ks => return { l with openKey := k, outer := ks }
  | [] => return l

def fetchSeparator (l : Lexer) : Option Lexer := do
  let l ← l.closeKey
  return { l.take 1 .separator with keyAllowed := true }

/-- The start of a block at the cursor, if there is none yet. -/
def fetchBlock (l : Lexer) (t : Token) : Option Lexer :=
  if l.inFlow then some l
  else if l.keyAllowed then some (l.indent l.column l.tokens.size t)
  else none

def fetchEntry (l : Lexer) : Option Lexer := do
  let l ← l.fetchBlock .blockList
  let l ← l.closeKey
  return { l.take 1 .entry with keyAllowed := true }

def fetchKey (l : Lexer) : Option Lexer := do
  let l ← l.fetchBlock .blockRecord
  let l ← l.closeKey
  return { l.take 1 .key with keyAllowed := !l.inFlow }

def fetchValue (l : Lexer) : Option Lexer :=
  match l.openKey with
  | some k =>
    let l := { l with tokens := l.tokens.insertIdxIfInBounds k.number .key }
    let l := l.indent k.position.column k.number .blockRecord
    some { l.take 1 .value with openKey := none, keyAllowed := false }
  | none => do
    let l ← l.fetchBlock .blockRecord
    return { l.take 1 .value with keyAllowed := !l.inFlow }

/-- A token that may be a key, or stand before one. -/
def fetchMarked (l : Lexer) (read : Cursor → Option (Token × Cursor)) : Option Lexer := do
  let l ← l.mark
  let (t, c) ← read l.cursor
  return { l.put t c with keyAllowed := false }

def fetchBlockScalar (l : Lexer) (folded : Bool) : Option Lexer := do
  let l ← l.closeKey
  let (text, c) ← block folded l.indents.head? l.cursor
  let style := if folded then Style.folded else Style.literal
  return { l.put (.scalar (String.ofList text) style) c with keyAllowed := true }

def fetchPlain (l : Lexer) : Option Lexer := do
  let l ← l.mark
  let p ← plain l.inFlow (l.indents.head?.elim 0 (· + 1)) l.cursor
  return { l.put (.scalar (String.ofList p.text) .plain) p.cursor with keyAllowed := p.broken }

/-- The marks that no plain scalar starts with. -/
def isIndicator (c : Char) : Bool := "-?:,[]\x7b\x7d#&*!|>\x27\x22%@\x60".contains c

/-- Whether a plain scalar starts here, given that no other token does. -/
def startsPlain (flow : Bool) : List Char → Bool
  | [] => false
  | c :: cs =>
    (!isGap c && !isIndicator c) || (c = '-' && !(cs.head?.any isBlank)) ||
      (!flow && (c = '?' || c = ':') && !atGap cs)

/-- The next token, after the gap before it. -/
def fetchHere (l : Lexer) : Option Lexer :=
  let c := l.cursor
  let flow := l.inFlow
  match c.rest with
  | [] => l.fetchEnd
  | a :: rest =>
    let first := c.position.column = 0
    if first && a = '%' then l.fetchDirective
    else if first && tripled '-' c.rest then l.fetchDocumentMark .documentStart
    else if first && tripled '.' c.rest then l.fetchDocumentMark .documentEnd
    else if a = '[' then l.fetchFlowStart .flowList
    else if a = '\x7b' then l.fetchFlowStart .flowRecord
    else if a = ']' then l.fetchFlowEnd .flowListEnd
    else if a = '\x7d' then l.fetchFlowEnd .flowRecordEnd
    else if a = ',' then l.fetchSeparator
    else if a = '-' && atGap rest then l.fetchEntry
    else if a = '?' && (flow || atGap rest) then l.fetchKey
    else if a = ':' && (flow || atGap rest) then l.fetchValue
    else if a = '*' then
      l.fetchMarked fun c => (name c).map fun (n, c) => (Token.reference n, c)
    else if a = '&' then
      l.fetchMarked fun c => (name c).map fun (n, c) => (Token.anchor n, c)
    else if a = '!' then
      l.fetchMarked fun c => (tag flow c).map fun (n, c) => (Token.tag n, c)
    else if a = '|' && !flow then l.fetchBlockScalar false
    else if a = '>' && !flow then l.fetchBlockScalar true
    else if a = '\x27' then
      l.fetchMarked fun c => (quoted c).map fun (s, c) => (Token.scalar (String.ofList s) .single, c)
    else if a = '\x22' then
      l.fetchMarked fun c => (quoted c).map fun (s, c) => (Token.scalar (String.ofList s) .double, c)
    else if startsPlain flow c.rest then l.fetchPlain
    else none

/-- Adds the next token and those that it implies; `none` where the text is malformed. -/
def fetch (l : Lexer) : Option Lexer := do
  let l ← l.skipGap.closeExpired
  (l.dedent l.column).fetchHere

/-- Fetches tokens until the text ends, `given` of which are given away. Each one takes a character
at least, so the length of the text bounds their number. -/
def run : Nat → Nat → Lexer → Array Token
  | 0, given, l => l.tokens.take given
  | fuel + 1, given, l =>
    match l.closeExpired with
    | none => l.tokens.take given
    | some l =>
      if l.tokens.back? = some .streamEnd then l.tokens
      else
        match l.fetch with
        | none => l.tokens.take l.settled
        | some next => run fuel l.settled next

end Lexer

/-- The tokens of a text. A text with a character that documents may not hold has none. -/
def tokens (text : String) : List Token :=
  let cs := text.toList
  if cs.all isAllowed then ((Lexer.start (normalizeBreaks cs)).run (cs.length + 2) 0).toList else []

end LockDiscipline.Yaml
