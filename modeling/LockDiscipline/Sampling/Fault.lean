namespace LockDiscipline.Sampling

inductive Fault where
  /-- The worker could not be started. -/
  | spawn (reason : String)
  /-- The threads could not be asked for their locks. -/
  | unavailable (reason : String)
  deriving DecidableEq, Repr

namespace Fault

def message : Fault → String
  | spawn reason => s!"failed to spawn sampling worker: {reason}"
  | unavailable reason => s!"thread introspection unavailable: {reason}"

/-- What is said about the fault behind this one, if there is one. -/
def source : Fault → Option String
  | spawn reason => some reason
  | unavailable _ => none

end Fault

end LockDiscipline.Sampling
