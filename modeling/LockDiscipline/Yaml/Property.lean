import LockDiscipline.Yaml.Quoted
import LockDiscipline.Yaml.Token

namespace LockDiscipline.Yaml

/-- Whether a name may end here. -/
def endsName : List Char → Bool
  | [] => true
  | c :: _ => isGap c || "?:,]\x7d%@\x60".contains c

/-- The name behind a mark of one character. -/
def name (c : Cursor) : Option (String × Cursor) :=
  let (word, after) := (c.skip 1).span isWord
  if word.isEmpty || !endsName after.rest then none else some (String.ofList word, after)

/-- The characters of a tag. Brackets and commas belong to it only between `<` and `>`. -/
def isTagChar (enclosed : Bool) (c : Char) : Bool :=
  isWord c || ";/?:@&=+$.!~*\x27()".contains c || (enclosed && ",[]".contains c)

/-- The number of octets that encode a character whose first octet this is. -/
def octetCount (n : Nat) : Option Nat :=
  if n < 0x80 then some 1
  else if n / 0x20 = 6 then some 2
  else if n / 0x10 = 14 then some 3
  else if n / 8 = 30 then some 4
  else none

/-- An octet written as `%` and two digits. -/
def octet : List Char → Option (Nat × List Char)
  | '%' :: a :: b :: rest => do
    let x ← Text.hexValue a
    let y ← Text.hexValue b
    return (16 * x + y, rest)
  | _ => none

/-- The further octets of a character. -/
def laterOctets : Nat → Nat → List Char → Option (Nat × List Char)
  | 0, value, cs => some (value, cs)
  | n + 1, value, cs =>
    match octet cs with
    | some (o, rest) => if o / 0x40 = 2 then laterOctets n (value * 0x40 + o % 0x40) rest else none
    | none => none

/-- A character written by its octets, with its length in the text. A number that needs fewer octets
or that is no character is replaced. -/
def encodedChar (cs : List Char) : Option (Char × Nat) := do
  let (lead, rest) ← octet cs
  let n ← octetCount lead
  let (value, _) ← laterOctets (n - 1) (if n = 1 then lead else lead % Nat.pow 2 (7 - n)) rest
  let least := if n = 1 then 0 else if n = 2 then 0x80 else if n = 3 then 0x800 else 0x10000
  let char := if value < least then '\ufffd' else (charOf value).getD '\ufffd'
  return (char, 3 * n)

/-- The characters of a tag up to one that does not belong to it, in reverse after `done`; `skipped`
characters were read already. -/
def tagText (enclosed : Bool) :
    Nat → List Char → Position → List Char → Option (List Char × Cursor)
  | _, done, p, [] => some (done.reverse, ⟨p, []⟩)
  | skipped + 1, done, p, _ :: cs => tagText enclosed skipped done (p.along 1) cs
  | 0, done, p, c :: cs =>
    if c = '%' then
      match encodedChar (c :: cs) with
      | some (e, n) => tagText enclosed (n - 1) (e :: done) (p.along 1) cs
      | none => none
    else if isTagChar enclosed c then tagText enclosed 0 (c :: done) (p.along 1) cs
    else some (done.reverse, ⟨p, c :: cs⟩)

/-- The text of a tag at the cursor. -/
def tagRest (enclosed : Bool) (c : Cursor) : Option (List Char × Cursor) :=
  tagText enclosed 0 [] c.position c.rest

/-- A tag's text that is not empty. -/
def tagRestSome (enclosed : Bool) (c : Cursor) : Option (List Char × Cursor) :=
  (tagRest enclosed c).filter fun r => !r.1.isEmpty

/-- `!`, a word, and `!` again if it follows. -/
def handle (c : Cursor) : Option (List Char × Cursor) :=
  match c.rest with
  | '!' :: _ =>
    let (word, after) := (c.skip 1).span isWord
    match after.rest with
    | '!' :: _ => some ('!' :: word ++ ['!'], after.skip 1)
    | _ => some ('!' :: word, after)
  | _ => none

/-- Whether the characters are a handle that is closed by a `!` of its own. -/
def closedHandle (cs : List Char) : Bool := 2 ≤ cs.length && cs.getLast? == some '!'

/-- The tag at the cursor: enclosed, with a handle, or with the handle `!`. -/
def tagName (c : Cursor) : Option (TagName × Cursor) :=
  match c.rest with
  | '!' :: '<' :: _ => do
    let (suffix, after) ← tagRestSome true (c.skip 2)
    if after.rest.head? = some '>' then return (⟨"", String.ofList suffix⟩, after.skip 1) else none
  | _ => do
    let (h, after) ← handle c
    if closedHandle h then
      let (suffix, after) ← tagRestSome false after
      return (⟨String.ofList h, String.ofList suffix⟩, after)
    else
      let (more, after) ← tagRest false after
      let suffix := h.drop 1 ++ more
      if suffix.isEmpty then return (⟨"", "!"⟩, after)
      else return (⟨"!", String.ofList suffix⟩, after)

/-- A tag is followed by a gap, or in flow collections by a comma. -/
def tag (flow : Bool) (c : Cursor) : Option (TagName × Cursor) :=
  (tagName c).filter fun r => atGap r.2.rest || (flow && r.2.rest.head? == some ',')

/-- A number of at most nine digits. -/
def versionNumber (c : Cursor) : Option (Nat × Cursor) :=
  let (digits, after) := c.span Char.isDigit
  if digits.isEmpty || digits.length > 9 then none
  else some (digits.foldl (fun n d => 10 * n + (d.toNat - '0'.toNat)) 0, after)

/-- The value of a directive with the name, after the name. -/
def directiveValue (word : String) (c : Cursor) : Option (Token × Cursor) :=
  let (_, c) := c.span isBlank
  if word = "YAML" then do
    let (major, c) ← versionNumber c
    if c.rest.head? = some '.' then
      let (minor, c) ← versionNumber (c.skip 1)
      return (.version major minor, c)
    else none
  else if word = "TAG" then do
    let (h, c) ← handle c
    if (h = ['!'] || closedHandle h) && c.rest.head?.any isBlank then
      let (target, c) ← tagRestSome true (c.span isBlank).2
      if atGap c.rest then return (.tagHandle (String.ofList h) (String.ofList target), c) else none
    else none
  else none

/-- The directive at the cursor, up to the end of its line. -/
def directive (c : Cursor) : Option (Token × Cursor) := do
  let (word, c) := (c.skip 1).span isWord
  if word.isEmpty || !atGap c.rest then none
  else
    let (t, c) ← directiveValue (String.ofList word) c
    let (_, c) := c.span isBlank
    let c := if c.rest.head? = some '#' then (c.span fun d => !isBreak d).2 else c
    if c.rest.head?.all isBreak then return (t, c) else none

end LockDiscipline.Yaml
