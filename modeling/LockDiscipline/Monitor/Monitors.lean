import LockDiscipline.Monitor.Runtime

namespace LockDiscipline.Monitor

open LockDiscipline.Order

/-- Who owns a monitor, and how often it was entered. -/
structure Owner where
  thread : Thread
  depth : Nat
  deriving DecidableEq, Repr

/-- A guard, known by its label on its thread. -/
structure HeldGuard where
  thread : Thread
  label : String
  classifier : Classifier
  /-- The number of the runtime through which the monitor was entered. -/
  runtime : Option Nat
  /-- The number of the recorder that the guard keeps from being dropped. -/
  recorder : Option Nat
  deriving DecidableEq, Repr

/-- Every classifier has a monitor that one thread at a time can own, as often as it likes. It is
entered with a guard and left when the guard is dropped. -/
@[ext] structure Monitors where
  owners : Table ClassifierId Owner
  runtimes : List Runtime
  /-- In the order in which they were taken. -/
  guards : List HeldGuard
  deriving DecidableEq, Repr

namespace Monitors

def empty : Monitors := ⟨.empty, [], []⟩

def owner? (m : Monitors) (c : ClassifierId) : Option Owner := m.owners.get? c

def owns (m : Monitors) (thread : Thread) (c : ClassifierId) : Bool :=
  (m.owner? c).any fun o => o.thread = thread

/-- Whether the thread can enter the monitor now. -/
def isOpenTo (m : Monitors) (thread : Thread) (c : ClassifierId) : Bool :=
  (m.owner? c).all fun o => o.thread = thread

def runtimeAt (m : Monitors) (i : Nat) : Runtime := m.runtimes[i]?.getD .empty

/-- Enters a monitor that is open to the thread. -/
def acquire (m : Monitors) (thread : Thread) (c : ClassifierId) : Monitors :=
  let depth := (m.owner? c).elim 0 (·.depth)
  { m with owners := m.owners.set c ⟨thread, depth + 1⟩ }

/-- Leaves a monitor once. -/
def surrender (m : Monitors) (c : ClassifierId) : Monitors :=
  match m.owner? c with
  | none => m
  | some o =>
    { m with
      owners :=
        if o.depth ≤ 1 then m.owners.erase c else m.owners.set c ⟨o.thread, o.depth - 1⟩ }

def changeRuntime (m : Monitors) (i : Option Nat) (f : Runtime → Runtime) : Monitors :=
  match i with
  | none => m
  | some i => { m with runtimes := m.runtimes.modify i f }

def guard? (m : Monitors) (thread : Thread) (label : String) : Option HeldGuard :=
  m.guards.find? fun g => g.thread = thread && g.label = label

/-- Drops a guard: its entry in the runtime goes first, and then the monitor is left. -/
def drop (m : Monitors) (g : HeldGuard) : Monitors :=
  let m := (m.changeRuntime g.runtime (·.leave g.thread g.classifier)).surrender g.classifier.id
  { m with guards := m.guards.erase g }

/-- Enters a monitor with a guard. One that had the label is dropped afterwards. There is no answer
while another thread owns the monitor. -/
def lock (m : Monitors) (g : HeldGuard) : Option Monitors :=
  if m.isOpenTo g.thread g.classifier.id then
    let old := m.guard? g.thread g.label
    let m := m.acquire g.thread g.classifier.id
    let m := m.changeRuntime g.runtime (·.enter g.thread g.classifier)
    let m := old.elim m m.drop
    some { m with guards := m.guards ++ [g] }
  else none

/-- Drops the guard with the label; tells which one it was. -/
def unlock (m : Monitors) (thread : Thread) (label : String) : Monitors × Option HeldGuard :=
  match m.guard? thread label with
  | none => (m, none)
  | some g => (m.drop g, some g)

/-- Drops all guards of a thread, the latest first. -/
def dropThread (m : Monitors) (thread : Thread) : Monitors :=
  ((m.guards.filter fun g => g.thread = thread).reverse).foldl drop m

/-- Whether a guard keeps the classifier alive. -/
def pins (m : Monitors) (c : ClassifierId) : Bool := m.guards.any fun g => g.classifier.id == c

/-- Whether a guard keeps the recorder. -/
def keeps (m : Monitors) (recorder : Nat) : Bool :=
  m.guards.any fun g => g.recorder == some recorder

theorem owner?_acquire (m : Monitors) (t : Thread) (c d : ClassifierId) :
    (m.acquire t c).owner? d =
      if d = c then some ⟨t, (m.owner? c).elim 0 (·.depth) + 1⟩ else m.owner? d := by
  unfold acquire owner?
  rw [Table.get?_set]

end Monitors

end LockDiscipline.Monitor
