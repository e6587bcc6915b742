import Std.Data.ExtTreeSet

namespace LockDiscipline.Sampling

/-- The locks that a thread holds at one moment, the one taken last first. -/
structure Snapshot where
  threadName : String
  held : List String
  deriving DecidableEq, Repr

/-- The start of the names that are kept; all are kept where it is absent. -/
abbrev NameFilter := Option String

def NameFilter.accepts (f : NameFilter) (name : String) : Bool :=
  match f with
  | none => true
  | some start => start.toList.isPrefixOf name.toList

@[ext] structure SampleSet where
  names : Std.ExtTreeSet String
  /-- Orders of at least two names, the innermost first. -/
  orderings : Std.ExtTreeSet (List String)
  /-- How many rounds of snapshots were recorded. -/
  ticks : UInt64
  deriving DecidableEq, Repr

/-- Neighbours that are equal become one: a lock that is taken again is held once. -/
def collapse : List String → List String
  | [] => []
  | [a] => [a]
  | a :: b :: cs => if a = b then collapse (b :: cs) else a :: collapse (b :: cs)

/-- The pairs in which the first name stands outside of the second, which differs from it. -/
def nestings : List String → List (String × String)
  | [] => []
  | inner :: outers =>
    (outers.filter (· ≠ inner)).map (fun outer => (outer, inner)) ++ nestings outers

namespace SampleSet

def empty : SampleSet := ⟨∅, ∅, 0⟩

/-- What a held list shows under a filter. -/
def reduced (f : NameFilter) (held : List String) : List String := collapse (held.filter f.accepts)

/-- Adds what one thread held. -/
def record (f : NameFilter) (s : SampleSet) (snapshot : Snapshot) : SampleSet :=
  let shown := reduced f snapshot.held
  { s with
    names := s.names.insertMany shown
    orderings := if 1 < shown.length then s.orderings.insert shown else s.orderings }

/-- Adds a round of snapshots. -/
def recordRound (f : NameFilter) (s : SampleSet) (round : List Snapshot) : SampleSet :=
  let s := round.foldl (record f) s
  { s with ticks := s.ticks + 1 }

def isEmpty (s : SampleSet) : Bool := s.names.isEmpty && s.orderings.isEmpty

/-- The pairs that some ordering nests, the outer name first. -/
def nested (s : SampleSet) : Std.ExtTreeSet (String × String) lexOrd.compare :=
  .ofList (s.orderings.toList.flatMap nestings) lexOrd.compare

/-- The pairs of names that were held in both orders, each once, in ascending order. -/
def conflicts (s : SampleSet) : List (String × String) :=
  let seen := s.nested
  seen.toList.filter fun p => p.1 < p.2 && seen.contains (p.2, p.1)

end SampleSet

theorem mem_collapse {x : String} {xs : List String} : x ∈ collapse xs ↔ x ∈ xs := by
  fun_induction collapse xs with
  | case1 => rfl
  | case2 => rfl
  | case3 b cs ih => simp [ih]
  | case4 a b cs h ih => simp [ih]

namespace SampleSet

theorem mem_names_record {f : NameFilter} {s : SampleSet} {snapshot : Snapshot} {x : String} :
    x ∈ (s.record f snapshot).names ↔
      x ∈ s.names ∨ (x ∈ snapshot.held ∧ f.accepts x = true) := by
  simp [record, reduced, mem_collapse]

theorem mem_nested {s : SampleSet} {p : String × String} :
    p ∈ s.nested ↔ ∃ o ∈ s.orderings, p ∈ nestings o := by
  simp [nested, Std.ExtTreeSet.mem_ofList]

theorem mem_conflicts {s : SampleSet} {a b : String} :
    (a, b) ∈ s.conflicts ↔ a < b ∧ (a, b) ∈ s.nested ∧ (b, a) ∈ s.nested := by
  simp [conflicts, and_left_comm]

end SampleSet

end LockDiscipline.Sampling
