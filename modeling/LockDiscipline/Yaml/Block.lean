import LockDiscipline.Yaml.Character

namespace LockDiscipline.Yaml

/-- What becomes of the line breaks at the end. -/
inductive Chomping where
  | strip
  | clip
  | keep
  deriving DecidableEq, Repr

/-- The header after its mark: chomping and depth in either order, then nothing but a comment. -/
structure BlockHeader where
  chomping : Chomping
  depth : Option Nat

/-- The indicators of the header; `none` for a depth of zero. -/
def blockIndicators (cs : List Char) : Option (BlockHeader × Nat) :=
  let chomp (c : Char) : Option Chomping :=
    if c = '+' then some .keep else if c = '-' then some .strip else none
  let digit (c : Char) : Option Nat := if c.isDigit then some (c.toNat - '0'.toNat) else none
  match cs with
  | [] => some (⟨.clip, none⟩, 0)
  | c :: rest =>
    match chomp c, digit c with
    | some k, _ =>
      match rest.head?.bind digit with
      | some 0 => none
      | some d => some (⟨k, some d⟩, 2)
      | none => some (⟨k, none⟩, 1)
    | none, some 0 => none
    | none, some d =>
      match rest.head?.bind chomp with
      | some k => some (⟨k, some d⟩, 2)
      | none => some (⟨.clip, some d⟩, 1)
    | none, none => some (⟨.clip, none⟩, 0)

/-- The state between and inside the lines of a block scalar. -/
structure BlockText where
  /-- The text in reverse. -/
  done : List Char
  /-- The line break that ended the line before, if there was a line. -/
  lead : List Char
  /-- The line breaks of the empty lines since. -/
  trail : List Char
  /-- Whether the line before started with a blank. -/
  afterBlank : Bool
  /-- The depth once it is known. -/
  depth : Option Nat
  /-- The deepest of the empty lines so far. -/
  deepest : Nat

namespace BlockText

/-- The depth of the scalar if the first line that is not empty starts at the column. -/
def settle (s : BlockText) (least column : Nat) : Nat :=
  s.depth.getD (max (max s.deepest column) least)

/-- Starts a line with its first character: line breaks before it fold if neither line starts with a
blank. -/
def startLine (s : BlockText) (folded : Bool) (depth : Nat) (c : Char) : BlockText :=
  let blank := isBlank c
  let joined :=
    if folded && s.lead.head? == some '\n' && !s.afterBlank && !blank then
      if s.trail.isEmpty then [' '] else s.trail
    else s.lead ++ s.trail
  { done := c :: (joined.reverse ++ s.done), lead := [], trail := [], afterBlank := blank,
    depth := some depth, deepest := 0 }

/-- The whole text, with the line breaks at the end that the chomping leaves. -/
def finish (s : BlockText) (k : Chomping) : List Char :=
  let tail :=
    match k with
    | .strip => []
    | .clip => s.lead
    | .keep => s.lead ++ s.trail
  s.done.reverse ++ tail

end BlockText

/-- Reads lines. Outside a line it passes the indentation; `least` is the smallest depth. -/
def blockFrom (folded : Bool) (k : Chomping) (least : Nat) :
    Bool → BlockText → Position → List Char → Option (List Char × Cursor)
  | _, s, p, [] => some (s.finish k, ⟨p, []⟩)
  | true, s, p, c :: cs =>
    if isBreak c then
      blockFrom folded k least false { s with lead := [c], trail := [], deepest := 0 } (p.after c) cs
    else blockFrom folded k least true { s with done := c :: s.done } (p.after c) cs
  | false, s, p, c :: cs =>
    let shallow := s.depth.all fun d => p.column < d
    if c = ' ' && shallow then blockFrom folded k least false s (p.after c) cs
    else if c = '\t' && shallow then none
    else if isBreak c then
      blockFrom folded k least false
        { s with trail := s.trail ++ [c], deepest := max s.deepest p.column } (p.after c) cs
    else
      let depth := s.settle least p.column
      if p.column = depth then
        blockFrom folded k least true (s.startLine folded depth c) (p.after c) cs
      else some (s.finish k, ⟨p, c :: cs⟩)

/-- The block scalar at the cursor, which stands on its mark. The indentation is that of the block
around it, if there is one. -/
def block (folded : Bool) (indent : Option Nat) (c : Cursor) : Option (List Char × Cursor) := do
  let c := c.skip 1
  let (header, n) ← blockIndicators c.rest
  let (_, c) := (c.skip n).span isBlank
  let c := if c.rest.head? = some '#' then (c.span fun d => !isBreak d).2 else c
  let least := max 1 (indent.elim 0 (· + 1))
  let depth := header.depth.map fun d => indent.elim d (· + d)
  let start : BlockText := ⟨[], [], [], false, depth, 0⟩
  match c.rest with
  | [] => some (start.finish header.chomping, c)
  | b :: rest =>
    if isBreak b then blockFrom folded header.chomping least false start (c.position.after b) rest
    else none

end LockDiscipline.Yaml
