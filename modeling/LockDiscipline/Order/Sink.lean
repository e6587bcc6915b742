import LockDiscipline.Order.Evidence

namespace LockDiscipline.Order

/-- Where violations are delivered besides the recorder's own history. -/
inductive Sink where
  /-- Keeps every violation until it is drained. -/
  | collecting (received : List Violation)
  /-- Code of the user. Whether it panics over a violation, and with which message, may depend on
  all that was delivered before. -/
  | custom (heard : List Violation) (answer : List Violation → Violation → Option String)

namespace Sink

/-- The sink after a delivery, and how the delivery failed if it did. -/
def receive (v : Violation) : Sink → Sink × Option String
  | collecting received => (collecting (received ++ [v]), none)
  | custom heard answer => (custom (heard ++ [v]) answer, answer heard v)

/-- The violations that a collecting sink keeps. -/
def received : Sink → List Violation
  | collecting vs => vs
  | custom _ _ => []

/-- All that was delivered to code of the user. -/
def heard : Sink → List Violation
  | collecting _ => []
  | custom vs _ => vs

/-- A collecting sink without what it kept. -/
def drain : Sink → Sink
  | collecting _ => collecting []
  | s => s

end Sink

end LockDiscipline.Order
