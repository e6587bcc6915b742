import LockDiscipline.Order.Classifier
import Std.Data.ExtTreeSet

namespace LockDiscipline.Order

/-- Where, and on which thread, something was first seen. -/
structure Context where
  thread : String
  location : String
  backtrace : Option String
  deriving DecidableEq, Repr

def Context.text (c : Context) : String :=
  s!"thread '{c.thread}' at {c.location}" ++ c.backtrace.elim "" ("\n" ++ ·)

/-- What first justified the order of two classifiers. -/
structure Witness where
  /-- The one that was held already. -/
  older : Classifier
  /-- The one that was taken meanwhile. -/
  younger : Classifier
  context : Context
  deriving DecidableEq, Repr

namespace Witness

def text (w : Witness) : String :=
  s!"{w.younger.name} acquired while holding {w.older.name} ({w.context.text})"

/-- Whether it is about the order of these two. -/
def orders (w : Witness) (older younger : ClassifierId) : Bool :=
  w.older.id == older && w.younger.id == younger

theorem orders_iff {w : Witness} {a b : ClassifierId} :
    w.orders a b = true ↔ w.older.id = a ∧ w.younger.id = b := by
  simp [orders]

end Witness

/-- Two ids without regard to their order. -/
structure Pair where
  low : ClassifierId
  high : ClassifierId
  deriving DecidableEq, Repr

namespace Pair

/-- The smaller id goes first. -/
def of (a b : ClassifierId) : Pair := if a ≤ b then ⟨a, b⟩ else ⟨b, a⟩

def contains (p : Pair) (a : ClassifierId) : Bool := p.low == a || p.high == a

/-- The first member decides, and then the second. -/
instance : Ord Pair := ⟨compareLex (compareOn low) (compareOn high)⟩

instance : Std.TransOrd Pair :=
  inferInstanceAs (Std.TransCmp (compareLex (compareOn low) (compareOn high)))

instance : Std.LawfulEqOrd Pair where
  eq_of_compare {p q} h := by
    obtain ⟨hl, hh⟩ := compareLex_eq_eq.1 h
    cases p
    cases q
    simp_all [compareOn]

theorem of_comm (a b : ClassifierId) : of a b = of b a := by
  unfold of
  split <;> split
  · next h₁ h₂ =>
    have := UInt64.le_antisymm h₁ h₂
    simp [this]
  · rfl
  · rfl
  · next h₁ h₂ => exact absurd (UInt64.le_of_lt (UInt64.not_le.1 h₁)) h₂

theorem contains_of {a b c : ClassifierId} : (of a b).contains c = true ↔ a = c ∨ b = c := by
  unfold of contains
  split <;> simp [or_comm]

theorem of_eq_iff {a b c d : ClassifierId} :
    of a b = of c d ↔ (a = c ∧ b = d) ∨ (a = d ∧ b = c) := by
  constructor
  · intro h
    unfold of at h
    split at h <;> split at h <;> simp_all
  · rintro (⟨rfl, rfl⟩ | ⟨rfl, rfl⟩)
    · rfl
    · exact of_comm _ _

/-- The pairs in ascending order, each once. -/
def sortedDistinct (ps : List Pair) : List Pair := (Std.ExtTreeSet.ofList ps).toList

end Pair

/-- Two witnesses of opposite orders. -/
structure Violation where
  /-- The order that was seen first. -/
  established : Witness
  /-- The acquisition that contradicts it. -/
  conflicting : Witness
  deriving DecidableEq, Repr

namespace Violation

def pair (v : Violation) : Pair := .of v.conflicting.older.id v.conflicting.younger.id

/-- Both places, the later one first. -/
def describe (v : Violation) : String :=
  s!"Lock order violation: {v.conflicting.younger.name} acquired after " ++
    s!"{v.conflicting.older.name}, but in the past before\n" ++
    s!"  now:    {v.conflicting.context.text}\n  before: {v.established.context.text}"

end Violation

/-- Classifiers each of which is ordered, in steps, before every other. -/
structure Cycle where
  members : List Classifier
  deriving DecidableEq, Repr

def Cycle.involves (c : Cycle) (a : ClassifierId) : Bool := c.members.any fun m => m.id == a

end LockDiscipline.Order
