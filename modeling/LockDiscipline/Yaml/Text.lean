import LockDiscipline.Yaml.Node
import LockDiscipline.Yaml.Tokens

namespace LockDiscipline.Yaml

open LockDiscipline.Document

def parse (text : String) : Parsed := gather (tokens text)

def Parsed.scope (p : Parsed) : Scope Scalar := ⟨dialect, findAnchored p.anchored⟩

/-- Reads a text as a value. -/
def read {α : Type} (r : Reader α) (text : String) : Except Failure α :=
  let p := parse text
  match r.run p.scope [] p.datum with
  | .ok x => if p.whole then .ok x else .error .malformed
  | .error e => .error e

/-- What a mismatch says about a text: where the value stands, and what is wrong with it. -/
def complaint (path : List String) (cause : Mismatch) : String :=
  if path.isEmpty then cause.render wording
  else String.intercalate "." path ++ ": " ++ cause.render wording

end LockDiscipline.Yaml
