import LockDiscipline.Order.Closure
import LockDiscipline.Order.Graph

namespace LockDiscipline.Order.Graph

/-- The live classifiers of the graph by ascending id. -/
def live (alive : ClassifierId → Bool) (g : Graph) : List Classifier :=
  (g.nodes.toList.filter fun e => e.2.key.isAlive alive).map fun e => ⟨e.1, e.2.name⟩

/-- The orders between the classifiers: the row of each has a bit for every one that it is ordered
before. -/
def rows (g : Graph) (cs : List Classifier) : List Nat :=
  cs.map fun a => ofBits (cs.map fun b => g.hasEdge a.id b.id)

/-- The cycles by ascending smallest id, the members of each by ascending id. -/
def cycles (alive : ClassifierId → Bool) (g : Graph) : List Cycle :=
  let nodes := g.live alive
  let table := (nodes.zip (closure (g.rows nodes))).zipIdx
  table.filterMap fun ((c, after), i) =>
    let mutually := table.filter fun ((_, back), j) => after.testBit j && back.testBit i
    let members := mutually.map (·.1.1)
    if 1 < members.length && members.head? == some c then some ⟨members⟩ else none

end LockDiscipline.Order.Graph
