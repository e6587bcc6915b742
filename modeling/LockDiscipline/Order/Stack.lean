import LockDiscipline.Order.Classifier

namespace LockDiscipline.Order

/-- What an acquisition does to a stack. -/
inductive Push where
  /-- The thread takes again what it holds, or its local storage is gone. -/
  | untracked
  /-- The entries that are still held, below the new one. -/
  | onto (older : List Classifier)
  deriving DecidableEq, Repr

namespace Push

/-- A lock may be let go of without notice, so entries that the probe does not report held are
dropped. An entry for the candidate that the probe does not report held is left over, and the
candidate is taken afresh. -/
def of (held : ClassifierId → Bool) (candidate : Classifier) : Option (List Classifier) → Push
  | none => untracked
  | some stack =>
    if candidate.isIn stack && held candidate.id then untracked
    else onto (stack.filter fun c => held c.id)

end Push

end LockDiscipline.Order
