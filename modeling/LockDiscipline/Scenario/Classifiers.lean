import LockDiscipline.Scenario.State

namespace LockDiscipline.Scenario.Play

open LockDiscipline.Order

def bind (h : String) (c : Classifier) : Play Classifier := do
  modify fun s => { s with handles := s.handles.set h c }
  return c

/-- A fresh classifier; two of one name are different. -/
def create (h name : String) : Play Classifier := do
  let n := (← get).created
  modify fun s => { s with created := n + 1 }
  bind h ⟨UInt64.ofNat (101 + n), name⟩

/-- The classifier of a type. -/
def ofType (h : String) (t : ValueType) : Play Classifier := bind h t.classifier

def classifier (h : String) : Play Classifier := named (·.handles) h

def classifiers (hs : List String) : Play (List Classifier) := hs.mapM classifier

def clone (h source : String) : Play Classifier := do bind h (← classifier source)

/-- Lets go of a name; tells whether it stood for anything. -/
def dropHandle (h : String) : Play Bool := do
  let s ← get
  set { s with handles := s.handles.erase h }
  return (s.handles.get? h).isSome

def same (a b : String) : Play Bool := return (← classifier a).id == (← classifier b).id

def weaken (h w : String) : Play Classifier := do
  let c ← classifier h
  modify fun s => { s with weaks := s.weaks.set w c.downgrade }
  return c

/-- A classifier that is not kept alive, and whether it lives. -/
def weak (w : String) : Play (Classifier × Bool) := do
  let k ← named (·.weaks) w
  return (k.target, k.isAlive (← get).isAlive)

end LockDiscipline.Scenario.Play
