import LockDiscipline.Yaml.Character

namespace LockDiscipline.Yaml

/-- The marks of flow collections that end a plain scalar inside them. -/
def isFlowMark (c : Char) : Bool := c = ',' || c = '[' || c = ']' || c = '\x7b' || c = '\x7d'

structure PlainText where
  text : List Char
  /-- Whether lines were broken after the text. -/
  broken : Bool
  cursor : Cursor

/-- Reads on after `done`, which is in reverse, and a gap. -/
def plainFrom (flow : Bool) (indent : Nat) :
    Gap → List Char → Position → List Char → Option PlainText
  | gap, done, p, [] => some ⟨done.reverse, gap.hasBreaks, ⟨p, []⟩⟩
  | gap, done, p, c :: cs =>
    if isBlank c then
      if gap.hasBreaks && p.column < indent && c = '\t' then none
      else plainFrom flow indent (gap.addBlank c) done (p.after c) cs
    else if isBreak c then plainFrom flow indent (gap.addBreak c) done (p.after c) cs
    else if gap ≠ .none && ((!flow && p.column < indent) ||
        (p.column = 0 && documentMark (c :: cs)) || c = '#') then
      some ⟨done.reverse, gap.hasBreaks, ⟨p, c :: cs⟩⟩
    else if flow && c = ':' && (cs.head?.any fun d => isFlowMark d || d = '?') then none
    else if (c = ':' && atGap cs) || (flow && isFlowMark c) then
      some ⟨done.reverse, gap.hasBreaks, ⟨p, c :: cs⟩⟩
    else plainFrom flow indent .none (c :: (gap.fold.reverse ++ done)) (p.after c) cs

/-- The plain scalar at the cursor. The indentation is that of the block around it, plus one. -/
def plain (flow : Bool) (indent : Nat) (c : Cursor) : Option PlainText :=
  plainFrom flow indent .none [] c.position c.rest

end LockDiscipline.Yaml
