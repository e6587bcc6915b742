namespace LockDiscipline.Json

inductive Value where
  | null
  | flag (b : Bool)
  | natural (n : Nat)
  | text (s : String)
  | list (items : List Value)
  | record (entries : List (String × Value))

/-- One digit of base 16. -/
def hexDigit (n : Nat) : Char := Nat.digitChar (n % 16)

/-- The written form of one character inside a text. -/
def escape (c : Char) : List Char :=
  if c = '\x22' then ['\\', '\x22']
  else if c = '\\' then ['\\', '\\']
  else if c = '\x08' then ['\\', 'b']
  else if c = '\x0c' then ['\\', 'f']
  else if c = '\n' then ['\\', 'n']
  else if c = '\r' then ['\\', 'r']
  else if c = '\t' then ['\\', 't']
  else if c.toNat < 0x20 then
    ['\\', 'u', '0', '0', hexDigit (c.toNat / 16), hexDigit c.toNat]
  else [c]

theorem escape_of_plain {c : Char} (hc : 0x20 ≤ c.toNat) (hq : c ≠ '\x22') (hb : c ≠ '\\') :
    escape c = [c] := by
  have h8 : c ≠ '\x08' := by rintro rfl; exact absurd hc (by decide)
  have h12 : c ≠ '\x0c' := by rintro rfl; exact absurd hc (by decide)
  have h10 : c ≠ '\n' := by rintro rfl; exact absurd hc (by decide)
  have h13 : c ≠ '\r' := by rintro rfl; exact absurd hc (by decide)
  have h9 : c ≠ '\t' := by rintro rfl; exact absurd hc (by decide)
  simp [escape, hq, hb, h8, h12, h10, h13, h9, Nat.not_lt.2 hc]

/-- A text between quotes. -/
def textChars (s : String) : List Char := '\x22' :: s.toList.flatMap escape ++ ['\x22']

namespace Value

mutual

/-- The value without any space. -/
def compactChars : Value → List Char
  | null => "null".toList
  | flag b => (if b then "true" else "false").toList
  | natural n => (Nat.repr n).toList
  | text s => textChars s
  | list items => '[' :: compactItems items ++ [']']
  | record entries => '\x7b' :: compactEntries entries ++ ['\x7d']

def compactItems : List Value → List Char
  | [] => []
  | [v] => compactChars v
  | v :: w :: vs => compactChars v ++ ',' :: compactItems (w :: vs)

def compactEntries : List (String × Value) → List Char
  | [] => []
  | [(k, v)] => textChars k ++ ':' :: compactChars v
  | (k, v) :: e :: es => textChars k ++ ':' :: compactChars v ++ ',' :: compactEntries (e :: es)

end

def compact (v : Value) : String := String.ofList v.compactChars

/-- A line break and two spaces for each level. -/
def lineBreak (level : Nat) : List Char := '\n' :: List.replicate (2 * level) ' '

mutual

/-- The value with a line for each item, indented by two spaces for each level. -/
def prettyChars (level : Nat) : Value → List Char
  | null => "null".toList
  | flag b => (if b then "true" else "false").toList
  | natural n => (Nat.repr n).toList
  | text s => textChars s
  | list [] => ['[', ']']
  | list (v :: vs) => '[' :: prettyItems (level + 1) (v :: vs) ++ lineBreak level ++ [']']
  | record [] => ['\x7b', '\x7d']
  | record (e :: es) =>
    '\x7b' :: prettyEntries (level + 1) (e :: es) ++ lineBreak level ++ ['\x7d']

def prettyItems (level : Nat) : List Value → List Char
  | [] => []
  | [v] => lineBreak level ++ prettyChars level v
  | v :: w :: vs => lineBreak level ++ prettyChars level v ++ ',' :: prettyItems level (w :: vs)

def prettyEntries (level : Nat) : List (String × Value) → List Char
  | [] => []
  | [(k, v)] => lineBreak level ++ textChars k ++ ':' :: ' ' :: prettyChars level v
  | (k, v) :: e :: es =>
    lineBreak level ++ textChars k ++ ':' :: ' ' :: prettyChars level v ++
      ',' :: prettyEntries level (e :: es)

end

def pretty (v : Value) : String := String.ofList (v.prettyChars 0)

/-- A record without the entries that are absent. -/
def recordOf (entries : List (Option (String × Value))) : Value :=
  record (entries.filterMap id)

/-- An entry that is left out where there is no value. -/
def optionalEntry (key : String) (v : Option Value) : Option (String × Value) := v.map (key, ·)

def texts (xs : List String) : Value := list (xs.map text)

end Value

end LockDiscipline.Json
