import LockDiscipline.Sampling.SampleSet

namespace LockDiscipline.Sampling

structure Report where
  names : List String
  /-- The innermost name first. -/
  orderings : List (List String)
  /-- The pairs that were held in both orders. -/
  conflicts : List (String × String)
  ticks : UInt64
  deriving DecidableEq, Repr

namespace Report

def ofSamples (s : SampleSet) : Report :=
  ⟨s.names.toList, s.orderings.toList, s.conflicts, s.ticks⟩

def hasConflicts (r : Report) : Bool := !r.conflicts.isEmpty

/-- A line of a list. -/
def item (s : String) : String := "  " ++ s ++ "\n"

def render (r : Report) : String :=
  let conflicts :=
    if r.hasConflicts then
      s!"Conflicting orders ({r.conflicts.length}):\n" ++
        String.join (r.conflicts.map fun p => item s!"{p.1} <-> {p.2}")
    else ""
  s!"Observed lock names ({r.names.length}):\n" ++ String.join (r.names.map item) ++
    s!"Observed lock orderings ({r.orderings.length}, innermost first):\n" ++
    String.join (r.orderings.map fun o => item (String.intercalate ", " o)) ++ conflicts

end Report

end LockDiscipline.Sampling
