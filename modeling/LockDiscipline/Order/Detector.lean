import LockDiscipline.Config.Settings
import LockDiscipline.Log
import LockDiscipline.Order.Graph
import LockDiscipline.Order.Probe
import LockDiscipline.Order.Sink
import LockDiscipline.Order.Stack
import LockDiscipline.Thread

namespace LockDiscipline.Order

open LockDiscipline.Config

structure Recorder where
  /-- The number of its graph. -/
  graph : Nat
  settings : RecorderSettings
  probe : Probe
  /-- The number of its sink. -/
  sink : Option Nat
  /-- Every violation it reported, the oldest first. -/
  history : List Violation
  deriving DecidableEq, Repr

/-- Recorders may share graphs and sinks. Beginning an acquisition records an edge from everything
held to the candidate, and an edge whose opposite is there is a violation: it is logged, delivered
and kept. -/
@[ext] structure Detector where
  graphs : List Graph
  recorders : List Recorder
  sinks : List Sink
  scripts : List Script
  /-- What each thread holds as far as each recorder knows; no stack is empty. -/
  held : Table (Thread × Nat) (List Classifier)
  /-- The threads whose local storage is gone. Destructors may still run there. -/
  gone : List Thread

/-- How a call ended. -/
inductive Verdict where
  | returned
  /-- The thread does not go on; the message says why. -/
  | stopped (message : String)
  deriving DecidableEq, Repr

/-- What a call that ended so gave back, if it was to give back the classifier. -/
def Verdict.yields (c : Classifier) : Verdict → Option Classifier
  | returned => some c
  | stopped _ => none

/-- What beginning an acquisition brought about besides the change of state. -/
structure Began where
  outcome : Outcome
  log : List LogLine
  verdict : Verdict
  /-- The classifier whose lock the thread is to take now; none if the thread does not go on. -/
  lock : Option Classifier
  deriving DecidableEq, Repr

namespace Detector

def empty : Detector := ⟨[], [], [], [], .empty, []⟩

def graphAt (d : Detector) (i : Nat) : Graph := d.graphs[i]?.getD (.empty Graph.standardSweep)

def setGraph (d : Detector) (i : Nat) (g : Graph) : Detector :=
  { d with graphs := d.graphs.set i g }

def stackOf (d : Detector) (thread : Thread) (recorder : Nat) : List Classifier :=
  (d.held.get? (thread, recorder)).getD []

def isGone (d : Detector) (thread : Thread) : Bool := d.gone.contains thread

/-- The stack of a thread that still has its local storage. -/
def stack? (d : Detector) (thread : Thread) (recorder : Nat) : Option (List Classifier) :=
  if d.isGone thread then none else some (d.stackOf thread recorder)

/-- What a recorder answers to a thread that asks what it holds. -/
def heldBy (d : Detector) (thread : Thread) (recorder : Nat) : List Classifier :=
  (d.stack? thread recorder).getD []

/-- Puts a stack in the place of the old one; an empty stack is not kept. -/
def setStack (d : Detector) (thread : Thread) (recorder : Nat) (held : List Classifier) :
    Detector :=
  { d with
    held :=
      if held.isEmpty then d.held.erase (thread, recorder)
      else d.held.set (thread, recorder) held }

/-- Whether some stack holds the classifier. -/
def onStack (d : Detector) (c : ClassifierId) : Bool :=
  d.held.values.any fun held => held.any fun e => e.id == c

theorem stackOf_setStack (d : Detector) (t u : Thread) (r q : Nat) (held : List Classifier) :
    (d.setStack t r held).stackOf u q = if (u, q) = (t, r) then held else d.stackOf u q := by
  unfold setStack stackOf
  cases held with
  | nil =>
    simp only [List.isEmpty_nil, if_true, Table.get?_erase]
    split <;> rfl
  | cons c cs =>
    simp only [List.isEmpty_cons, Bool.false_eq_true, if_false, Table.get?_set]
    split <;> rfl

/-- Delivers violations one after another, until a delivery fails. -/
def deliver (sink : Option Nat) : Detector → List Violation → Detector × List LogLine × Verdict
  | d, [] => (d, [], .returned)
  | d, v :: vs =>
    let line : LogLine := ⟨.warn, v.describe⟩
    match sink with
    | none =>
      let (d, log, verdict) := deliver sink d vs
      (d, line :: log, verdict)
    | some i =>
      match d.sinks[i]? with
      | none =>
        let (d, log, verdict) := deliver sink d vs
        (d, line :: log, verdict)
      | some s =>
        let (s, failure) := s.receive v
        let d := { d with sinks := d.sinks.set i s }
        match failure with
        | some message => (d, [line], .stopped message)
        | none =>
          let (d, log, verdict) := deliver sink d vs
          (d, line :: log, verdict)

/-- Adds violations to the history of a recorder. -/
def remember (d : Detector) (r : Nat) (vs : List Violation) : Detector :=
  { d with recorders := d.recorders.modify r fun q => { q with history := q.history ++ vs } }

/-- Reports violations: they are logged and delivered, and then kept. A strict recorder stops the
thread with the first of them. -/
def report (d : Detector) (r : Nat) (q : Recorder) (vs : List Violation) :
    Detector × List LogLine × Verdict :=
  match vs with
  | [] => (d, [], .returned)
  | v :: _ =>
    let (d, log, verdict) := d.deliver q.sink vs
    match verdict with
    | .stopped message => (d, log, .stopped message)
    | .returned =>
      (d.remember r vs, log, if q.settings.strict then .stopped v.describe else .returned)

/-- What is logged about a graph after an acquisition. -/
def outcomeLog (q : Recorder) (o : Outcome) : List LogLine :=
  (if o.swept = 0 then [] else [⟨.debug, s!"order graph swept {o.swept} dead classifiers"⟩]) ++
    if q.settings.echoWitnesses then o.inserted.map fun w => ⟨.debug, "lock order: " ++ w.text⟩
    else []

/-- Records the edges from `older` that the graph misses. `pinned` tells which classifiers something
else than a stack keeps alive. -/
def recordEdges (pinned : ClassifierId → Bool) (d : Detector) (thread : Thread) (r : Nat)
    (q : Recorder) (older : List Classifier) (candidate : Classifier) (site : String) :
    Detector × Began :=
  let g := d.graphAt q.graph
  let missing := g.missing older candidate
  if missing.isEmpty then (d, ⟨⟨[], [], 0⟩, [], .returned, some candidate⟩)
  else
    let context : Context :=
      ⟨thread.name, site, if q.settings.captureBacktrace then some "<backtrace>" else none⟩
    let alive (c : ClassifierId) : Bool := pinned c || d.onStack c
    let (g, o) := g.record alive missing candidate context
    let (d, log, verdict) := (d.setGraph q.graph g).report r q o.violations
    (d, ⟨o, outcomeLog q o ++ log, verdict, verdict.yields candidate⟩)

/-- A thread is about to take the candidate. `held` is what the probe says. -/
def begin (pinned held : ClassifierId → Bool) (d : Detector) (thread : Thread) (r : Nat)
    (candidate : Classifier) (site : String) : Detector × Began :=
  match d.recorders[r]? with
  | none => (d, ⟨⟨[], [], 0⟩, [], .returned, some candidate⟩)
  | some q =>
    match Push.of held candidate (d.stack? thread r) with
    | .untracked => (d, ⟨⟨[], [], 0⟩, [], .returned, some candidate⟩)
    | .onto older =>
      let dropped := (d.stackOf thread r).length - older.length
      let d := d.setStack thread r (older ++ [candidate])
      let note : List LogLine :=
        if dropped = 0 then []
        else [⟨.trace, s!"pruned {dropped} stale lock(s) before {candidate.name}"⟩]
      let (d, b) := recordEdges pinned d thread r q older candidate site
      (d, { b with log := note ++ b.log })

/-- A thread let go of the classifier: its last entry is dropped. Tells whether there was one. -/
def release (d : Detector) (thread : Thread) (r : Nat) (c : Classifier) : Detector × Bool :=
  match d.stack? thread r with
  | none => (d, false)
  | some stack => (d.setStack thread r (eraseLast c stack), c.isIn stack)

/-- Drops a recorder on a thread, with the stack that the thread keeps for it. -/
def dropRecorder (d : Detector) (thread : Thread) (r : Nat) : Detector :=
  match d.stack? thread r with
  | none => d
  | some _ => d.setStack thread r []

/-- A thread ends: its local storage goes, with all its stacks. -/
def endThread (d : Detector) (thread : Thread) : Detector :=
  { d with
    held := ⟨d.held.entries.filter fun e => e.1.1 ≠ thread⟩
    gone := thread :: d.gone }

/-- Sweeps a graph now; tells how many classifiers it removed. -/
def sweepGraph (alive : ClassifierId → Bool) (d : Detector) (i : Nat) :
    Detector × Nat × List LogLine :=
  let g := d.graphAt i
  let n := (g.dead alive).size
  (d.setGraph i (g.sweep alive), n,
    if n = 0 then [] else [⟨.debug, s!"order graph swept {n} dead classifiers"⟩])

end Detector

end LockDiscipline.Order
