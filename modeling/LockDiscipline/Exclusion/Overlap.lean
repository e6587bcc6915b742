import LockDiscipline.Exclusion.Guard

namespace LockDiscipline.Exclusion

/-- A moment at which a call goes on. -/
structure Moment where
  time : Nat
  call : Nat

/-- When the calls start and when their windows end, in order of time. -/
def moments (gap window calls : Nat) : List Moment :=
  let starts := (List.range calls).map fun i => Moment.mk (i * gap) i
  let ends := (List.range calls).map fun i => Moment.mk (i * gap + window) i
  (ends ++ starts).mergeSort fun a b => a.time ≤ b.time

/-- Lets a call go on until it waits or ends. -/
def proceed (s : Guard × List Call) (m : Moment) : Guard × List Call :=
  match s.2[m.call]? with
  | none => s
  | some c =>
    let (g, c) := c.advance Call.longest s.1
    (g, s.2.set m.call c)

/-- The results of checks of these values, in the order in which they start. -/
def Guard.overlap (g : Guard) (gap window : Nat) (keys : List Key) :
    Guard × List (Except Fault Unit) :=
  let (g, calls) := (moments gap window keys.length).foldl proceed (g, keys.map Call.check)
  (g, calls.map fun c => c.result?.getD (.ok ()))

end LockDiscipline.Exclusion
