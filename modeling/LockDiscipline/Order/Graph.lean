import LockDiscipline.Order.Evidence
import Std.Data.ExtTreeMap

namespace LockDiscipline.Order

/-- A classifier in the graph. The name is there for reports also when the classifier is not. -/
structure Node where
  key : WeakClassifier
  name : String
  deriving DecidableEq, Repr

def Node.of (c : Classifier) : Node := ⟨c.downgrade, c.name⟩

/-- The key of a node leads back to the classifier. -/
theorem Node.of_injective {c d : Classifier} (h : Node.of c = .of d) : c = d :=
  congrArg (·.key.target) h

/-- Which classifier was taken while which other one was held. Nodes do not keep classifiers alive;
dead ones are swept from time to time. -/
@[ext] structure Graph where
  /-- After how many new edges the graph is swept; at least one. -/
  sweepEvery : Nat
  nodes : Std.ExtTreeMap ClassifierId Node
  /-- The witnesses, under the older and the younger classifier. -/
  edges : Std.ExtTreeMap (ClassifierId × ClassifierId) Witness lexOrd.compare
  /-- The pairs that were reported. -/
  known : Std.ExtTreeSet Pair
  /-- How many edges were added since the last sweep. -/
  fresh : Nat
  deriving DecidableEq, Repr

/-- What recording an acquisition brought about. -/
@[ext] structure Outcome where
  /-- The witnesses of the new edges. -/
  inserted : List Witness
  /-- The violations that were not known. -/
  violations : List Violation
  /-- How many classifiers were swept afterwards. -/
  swept : Nat
  deriving DecidableEq, Repr

namespace Graph

def empty (sweepEvery : Nat) : Graph := ⟨max 1 sweepEvery, ∅, ∅, ∅, 0⟩

/-- The number of insertions between sweeps where none is given. -/
def standardSweep : Nat := 1024

def edge? (g : Graph) (older younger : ClassifierId) : Option Witness := g.edges[(older, younger)]?

def hasEdge (g : Graph) (older younger : ClassifierId) : Bool := g.edges.contains (older, younger)

def isKnown (g : Graph) (a b : ClassifierId) : Bool := g.known.contains (.of a b)

/-- Makes the classifier a node unless it is one. -/
def addNode (g : Graph) (c : Classifier) : Graph :=
  { g with nodes := g.nodes.insertIfNew c.id (.of c) }

/-- The held classifiers without an order before the younger one. -/
def missing (g : Graph) (older : List Classifier) (younger : Classifier) : List Classifier :=
  older.filter fun o => o.id != younger.id && !g.hasEdge o.id younger.id

/-- Adds the edge of the witness. -/
def addEdge (g : Graph) (w : Witness) : Graph :=
  { g with edges := g.edges.insertIfNew (w.older.id, w.younger.id) w, fresh := g.fresh + 1 }

/-- The violation that the witness makes together with an edge of the opposite order, unless the
pair is known. -/
def violation? (g : Graph) (w : Witness) : Option Violation :=
  match g.edge? w.younger.id w.older.id with
  | some established =>
    if g.isKnown w.older.id w.younger.id then none else some ⟨established, w⟩
  | none => none

/-- Remembers that the pairs of the violations were reported. -/
def addKnown (g : Graph) : Option Violation → Graph
  | some v => { g with known := g.known.insert v.pair }
  | none => g

/-- Records that `older` was held when the younger one was taken. -/
def recordOne (younger : Classifier) (context : Context) (s : Graph × Outcome)
    (older : Classifier) : Graph × Outcome :=
  let (g, o) := s
  if older.id = younger.id then (g, o)
  else
    let g := g.addNode older
    if g.hasEdge older.id younger.id then (g, o)
    else
      let w : Witness := ⟨older, younger, context⟩
      let v := g.violation? w
      ((g.addKnown v).addEdge w,
        { o with inserted := o.inserted ++ [w], violations := o.violations ++ v.toList })

/-- The nodes whose keys have died. -/
def dead (alive : ClassifierId → Bool) (g : Graph) : Std.ExtTreeMap ClassifierId Node :=
  g.nodes.filter fun _ n => !n.key.isAlive alive

/-- Takes out the dead nodes, and every edge and pair that mentions one of them. -/
def sweep (alive : ClassifierId → Bool) (g : Graph) : Graph :=
  let dead := g.dead alive
  if dead.isEmpty then { g with fresh := 0 }
  else
    { g with
      nodes := g.nodes.filter fun a _ => !dead.contains a
      edges := g.edges.filter fun e _ => !dead.contains e.1 && !dead.contains e.2
      known := g.known.filter fun p => !dead.contains p.low && !dead.contains p.high
      fresh := 0 }

/-- Records an acquisition: an edge from every held classifier to the younger one that has none.
Then the graph is swept if it is time. -/
def record (alive : ClassifierId → Bool) (g : Graph) (older : List Classifier)
    (younger : Classifier) (context : Context) : Graph × Outcome :=
  let (g, o) := older.foldl (recordOne younger context) (g.addNode younger, ⟨[], [], 0⟩)
  if g.sweepEvery ≤ g.fresh then (g.sweep alive, { o with swept := (g.dead alive).size })
  else (g, o)

theorem hasEdge_eq_isSome (g : Graph) (a b : ClassifierId) :
    g.hasEdge a b = (g.edge? a b).isSome := by
  simp [hasEdge, edge?]

@[simp] theorem edge?_addNode (g : Graph) (c : Classifier) (a b : ClassifierId) :
    (g.addNode c).edge? a b = g.edge? a b :=
  rfl

@[simp] theorem edge?_addKnown (g : Graph) (v : Option Violation) (a b : ClassifierId) :
    (g.addKnown v).edge? a b = g.edge? a b := by
  cases v <;> rfl

/-- A new edge does not replace the witness of one that is there. -/
theorem edge?_addEdge (g : Graph) (w : Witness) (a b : ClassifierId) :
    (g.addEdge w).edge? a b = (g.edge? a b).or (if w.orders a b then some w else none) := by
  unfold edge? addEdge Witness.orders
  rw [Std.ExtTreeMap.getElem?_insertIfNew]
  by_cases h : w.older.id = a ∧ w.younger.id = b
  · obtain ⟨rfl, rfl⟩ := h
    by_cases hm : (w.older.id, w.younger.id) ∈ g.edges <;> simp [hm]
  · have hc : ¬ lexOrd.compare (w.older.id, w.younger.id) (a, b) = .eq := by
      rw [Std.LawfulEqCmp.compare_eq_iff_eq, Prod.mk.injEq]
      exact h
    simp [hc, h]

end Graph

end LockDiscipline.Order
