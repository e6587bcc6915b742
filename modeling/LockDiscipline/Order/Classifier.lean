namespace LockDiscipline.Order

abbrev ClassifierId := UInt64

/-- What locks are grouped under. The id belongs to no other classifier, not even after the end of
this one; the name is only for people. -/
@[ext] structure Classifier where
  id : ClassifierId
  name : String
  deriving DecidableEq, Repr

namespace Classifier

/-- Whether a list holds the classifier. -/
def isIn (c : Classifier) (cs : List Classifier) : Bool := cs.any fun d => d.id == c.id

/-- The name with the id. -/
def inspect (c : Classifier) : String := s!"LockClassifier({c.name}#{c.id})"

/-- A reference that does not keep the classifier alive. -/
def inspectWeak (c : Classifier) (alive : Bool) : String :=
  s!"WeakClassifier(#{c.id}, alive={alive})"

theorem isIn_iff {c : Classifier} {cs : List Classifier} :
    c.isIn cs = true ↔ ∃ d ∈ cs, d.id = c.id := by
  simp [isIn]

theorem isIn_eq_false_iff {c : Classifier} {cs : List Classifier} :
    c.isIn cs = false ↔ ∀ d ∈ cs, d.id ≠ c.id := by
  simp [isIn]

end Classifier

/-- A reference that does not keep its classifier alive. -/
structure WeakClassifier where
  id : ClassifierId
  /-- The classifier it was made from. -/
  target : Classifier
  deriving DecidableEq, Repr

def Classifier.downgrade (c : Classifier) : WeakClassifier := ⟨c.id, c⟩

/-- Whether the classifier still lives; the reference itself may be any age. -/
def WeakClassifier.isAlive (alive : ClassifierId → Bool) (k : WeakClassifier) : Bool :=
  alive k.target.id

/-- The list without the last occurrence of the classifier, if it holds it. -/
def eraseLast (c : Classifier) (cs : List Classifier) : List Classifier :=
  (cs.reverse.eraseP fun d => d.id == c.id).reverse

theorem eraseLast_sublist (c : Classifier) (cs : List Classifier) :
    (eraseLast c cs).Sublist cs := by
  have h := (List.eraseP_sublist (p := fun d : Classifier => d.id == c.id) (l := cs.reverse)).reverse
  simpa [eraseLast] using h

end LockDiscipline.Order
