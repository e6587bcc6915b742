import LockDiscipline.Config.Fault
import LockDiscipline.Exclusion.Fault
import LockDiscipline.Sampling.Fault

namespace LockDiscipline

inductive Fault where
  | config (cause : Config.Fault)
  | guard (cause : Exclusion.Fault)
  | sampling (cause : Sampling.Fault)
  deriving DecidableEq, Repr

namespace Fault

/-- What is said about the cause, unless it is that a text is no document. -/
def causeMessage : Fault → Option String
  | config cause => cause.message
  | guard cause => some cause.message
  | sampling cause => some cause.message

/-- What is said about the fault. -/
def message (f : Fault) : Option String :=
  let part := match f with
    | config _ => "Configuration error: "
    | guard _ => "Guard error: "
    | sampling _ => "Sampling error: "
  f.causeMessage.map (part ++ ·)

/-- What is said about what lies behind the cause, if anything does. -/
def source : Fault → Option String
  | config cause => cause.source
  | guard _ => none
  | sampling cause => cause.source

end Fault

end LockDiscipline
