import LockDiscipline.Text.Quoted

namespace LockDiscipline.Exclusion

inductive Fault where
  /-- A value was checked while another check of it was under way. -/
  | concurrentAccess (typeName : String) (address : Nat)
  /-- Detection ended without ever having looked at a value. -/
  | notExercised (typeName : String)
  deriving DecidableEq, Repr

namespace Fault

def isConcurrentAccess : Fault → Bool
  | concurrentAccess _ _ => true
  | notExercised _ => false

/-- An address in base 16. -/
def hexAddress (address : Nat) : String := "0x" ++ String.ofList (Text.hexDigits address)

/-- What is said about the fault, given how addresses are shown. -/
def messageWith (place : Nat → String) : Fault → String
  | concurrentAccess typeName address =>
    s!"concurrent access detected on {typeName} at {place address}"
  | notExercised typeName =>
    s!"detection for {typeName} was never exercised: no value was checked while it was enabled"

def message (f : Fault) : String := f.messageWith hexAddress

end Fault

end LockDiscipline.Exclusion
