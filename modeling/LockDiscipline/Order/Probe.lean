import LockDiscipline.Order.Classifier
import LockDiscipline.Table

namespace LockDiscipline.Order

/-- How a recorder learns whether the thread that asks still holds a lock. -/
inductive Probe where
  /-- Asks the monitor of the classifier. -/
  | monitor
  /-- Looks the answer up in the numbered script. -/
  | scripted (script : Nat)
  deriving DecidableEq, Repr

/-- Answers given in advance; a classifier that is not mentioned is held. -/
abbrev Script := Table ClassifierId Bool

def Script.held (s : Script) (c : ClassifierId) : Bool := (s.get? c).getD true

theorem Script.held_set (s : Script) (c d : ClassifierId) (b : Bool) :
    Script.held (s.set c b) d = if d = c then b else s.held d := by
  unfold Script.held
  rw [Table.get?_set]
  split <;> rfl

/-- What the probe says, given what the monitors and the scripts say. -/
def Probe.held (owns : ClassifierId → Bool) (scripts : List Script) : Probe → ClassifierId → Bool
  | monitor, c => owns c
  | scripted i, c => Script.held (scripts[i]?.getD .empty) c

end LockDiscipline.Order
