import LockDiscipline.Config.Draft
import LockDiscipline.Exclusion.Guard
import LockDiscipline.Monitor.Monitors
import LockDiscipline.Order.Detector
import LockDiscipline.Scenario.ValueType

namespace LockDiscipline.Scenario

open LockDiscipline.Order LockDiscipline.Monitor

/-- One entry point for all detectors: a configuration in force, a runtime and a recorder that asks
the monitors. -/
structure Watch where
  config : Config.Approved
  runtime : Nat
  recorder : Nat

/-- A guard with its settings. -/
structure GuardPost where
  settings : Config.GuardSettings
  guard : Exclusion.Guard

/-- All that operations share, under the names that they use. Binding a name again lets go of what
it named. -/
structure State where
  /-- How many classifiers were named. -/
  created : Nat
  handles : Table String Classifier
  weaks : Table String WeakClassifier
  detector : Detector
  graphs : Table String Nat
  recorders : Table String Nat
  probes : Table String Nat
  sinks : Table String Nat
  notes : Table String Nat
  monitors : Monitors
  runtimes : Table String Nat
  watches : Table String Watch
  guards : Table String GuardPost
  objects : Table String Exclusion.Key
  /-- How many objects were placed. -/
  placed : Nat
  /-- The threads that run, under their names. -/
  threads : Table String Thread
  /-- How many threads were started. -/
  started : Nat

namespace State

def start : State where
  created := 0
  handles := .empty
  weaks := .empty
  detector := .empty
  graphs := .empty
  recorders := .empty
  probes := .empty
  sinks := .empty
  notes := .empty
  monitors := .empty
  runtimes := .empty
  watches := .empty
  guards := .empty
  objects := .empty
  placed := 0
  threads := .empty
  started := 0

/-- Whether something else than a stack keeps the classifier alive. -/
def pins (s : State) (c : ClassifierId) : Bool :=
  ValueType.isTypeId c || s.handles.values.any (fun h => h.id == c) || s.monitors.pins c

def isAlive (s : State) (c : ClassifierId) : Bool := s.pins c || s.detector.onStack c

/-- Whether a watch has the recorder: one with a name, or one that a guard keeps. -/
def isWatched (s : State) (recorder : Nat) : Bool :=
  s.watches.values.any (fun w => w.recorder == recorder) || s.monitors.keeps recorder

/-- A thread has dropped a guard. The last guard of a watch without a name takes the recorder along,
with the stack that this thread keeps for it. -/
def settle (s : State) (g : HeldGuard) : State :=
  match g.recorder with
  | none => s
  | some r =>
    if s.isWatched r then s else { s with detector := s.detector.dropRecorder g.thread r }

theorem isAlive_of_handle {s : State} {h : String} {c : Classifier}
    (hc : s.handles.get? h = some c) : s.isAlive c.id = true := by
  have : s.handles.values.any (fun h => h.id == c.id) = true :=
    List.any_eq_true.2 ⟨c, Table.mem_values_of_get? hc, by simp⟩
  simp [isAlive, pins, this]

end State

/-- An operation on a scenario; there is no answer where it uses a name that stands for nothing. -/
abbrev Play := StateT State Option

namespace Play

/-- What a name stands for. -/
def named {α : Type} (names : State → Table String α) (name : String) : Play α := do
  match (names (← get)).get? name with
  | some x => return x
  | none => failure

/-- An operation that a thread runs; the thread starts when it is first needed. -/
def onThread (name : String) : Play Thread := do
  let s ← get
  match s.threads.get? name with
  | some t => return t
  | none => do
    let t : Thread := ⟨s.started, name⟩
    set { s with threads := s.threads.set name t, started := s.started + 1 }
    return t

end Play

/-- An answer, and what the library logged on the way to it. -/
structure Logged (α : Type) where
  log : List LogLine
  value : α

end LockDiscipline.Scenario
