import LockDiscipline.Order.Cycles
import LockDiscipline.Scenario.Classifiers

namespace LockDiscipline.Scenario

open LockDiscipline.Order LockDiscipline.Config

/-- The size of a graph. -/
structure GraphStats where
  nodes : Nat
  edges : Nat
  known : Nat
  deriving DecidableEq, Repr

def GraphStats.of (g : Graph) : GraphStats := ⟨g.nodes.size, g.edges.size, g.known.size⟩

/-- What a graph knows about an order. -/
structure EdgeInfo where
  witness : Option Witness
  known : Bool
  deriving DecidableEq, Repr

/-- How a recorder is set up besides its settings; its graph is its own if none is named. -/
structure RecorderSetup where
  graph : Option String
  /-- A scripted probe; the monitors are asked if none is named. -/
  script : Option String
  sink : Option String
  /-- A sink that notes, and whether it fails. -/
  noting : Option (String × Bool)

/-- How an acquisition went, and what the thread and the graph hold afterwards. -/
structure Acquisition where
  verdict : Verdict
  held : List ClassifierId
  stats : GraphStats

namespace Play

def addGraph (sweepEvery : Nat) : Play Nat := do
  let s ← get
  let d := s.detector
  set { s with detector := { d with graphs := d.graphs ++ [Graph.empty sweepEvery] } }
  return d.graphs.length

def newGraph (g : String) (sweepEvery : Option Nat) : Play Unit := do
  let i ← addGraph (sweepEvery.getD Graph.standardSweep)
  modify fun s => { s with graphs := s.graphs.set g i }

def graph (g : String) : Play Graph := do
  let i ← named (·.graphs) g
  return (← get).detector.graphAt i

def record (g : String) (older : List String) (younger : String) (context : Context) :
    Play Outcome := do
  let older ← classifiers older
  let younger ← classifier younger
  let i ← named (·.graphs) g
  let s ← get
  let (after, o) := (s.detector.graphAt i).record s.isAlive older younger context
  set { s with detector := s.detector.setGraph i after }
  return o

def missing (g : String) (older : List String) (younger : String) : Play (List Classifier) := do
  return (← graph g).missing (← classifiers older) (← classifier younger)

def sweep (g : String) : Play (Logged Nat) := do
  let i ← named (·.graphs) g
  let s ← get
  let (d, n, log) := s.detector.sweepGraph s.isAlive i
  set { s with detector := d }
  return ⟨log, n⟩

def stats (g : String) : Play GraphStats := return .of (← graph g)

def edge (g a b : String) : Play EdgeInfo := do
  let g ← graph g
  let a ← classifier a
  let b ← classifier b
  return ⟨g.edge? a.id b.id, g.isKnown a.id b.id⟩

def cycles (g : String) : Play (List Cycle) := return (← graph g).cycles (← get).isAlive

/-- The number of a recorder; a watch has one too. -/
def recorderNumber (r : String) : Play Nat := do
  let s ← get
  match s.recorders.get? r, s.watches.get? r with
  | some i, _ => return i
  | none, some w => return w.recorder
  | none, none => failure

def recorder (r : String) : Play Recorder := do
  match (← get).detector.recorders[← recorderNumber r]? with
  | some q => return q
  | none => failure

def addRecorder (q : Recorder) : Play Nat := do
  let s ← get
  let d := s.detector
  set { s with detector := { d with recorders := d.recorders ++ [q] } }
  return d.recorders.length

def addSink (sink : Sink) : Play Nat := do
  let s ← get
  let d := s.detector
  set { s with detector := { d with sinks := d.sinks ++ [sink] } }
  return d.sinks.length

def newSink (name : String) : Play Unit := do
  let i ← addSink (.collecting [])
  modify fun s => { s with sinks := s.sinks.set name i }

/-- The sink of a recorder that is set up. -/
def sinkOf (setup : RecorderSetup) : Play (Option Nat) := do
  match setup.noting, setup.sink with
  | some (name, fails), _ => do
    let i ← addSink (.custom [] fun _ _ => if fails then some "sink failed" else none)
    modify fun s => { s with notes := s.notes.set name i }
    return some i
  | none, some name => return some (← named (·.sinks) name)
  | none, none => return none

def newRecorder (r : String) (settings : RecorderSettings) (setup : RecorderSetup) :
    Play Unit := do
  let graph ← match setup.graph with
    | some g => named (·.graphs) g
    | none => addGraph settings.sweepEvery.toNat
  let probe ← match setup.script with
    | some p => do pure (Probe.scripted (← named (·.probes) p))
    | none => pure Probe.monitor
  let sink ← sinkOf setup
  let i ← addRecorder ⟨graph, settings, probe, sink, []⟩
  modify fun s => { s with recorders := s.recorders.set r i }

/-- Names the graph of a recorder. -/
def graphOf (r g : String) : Play Unit := do
  let q ← recorder r
  modify fun s => { s with graphs := s.graphs.set g q.graph }

def newScript (p : String) : Play Unit := do
  modify fun s =>
    { s with
      probes := s.probes.set p s.detector.scripts.length
      detector := { s.detector with scripts := s.detector.scripts ++ [Table.empty] } }

def setScript (p h : String) (held : Bool) : Play Unit := do
  let c ← classifier h
  let i ← named (·.probes) p
  modify fun s =>
    { s with
      detector := { s.detector with scripts := s.detector.scripts.modify i (·.set c.id held) } }

def ids (cs : List Classifier) : List ClassifierId := cs.map (·.id)

/-- A thread tells a recorder that it is about to take a classifier's lock. -/
def beginAt (t : Thread) (i : Nat) (c : Classifier) (site : String) :
    Play (Logged Acquisition) := do
  let s ← get
  match s.detector.recorders[i]? with
  | none => failure
  | some q => do
    let held := q.probe.held (s.monitors.owns t) s.detector.scripts
    let (d, b) := s.detector.begin s.pins held t i c site
    set { s with detector := d }
    return ⟨b.log, b.verdict, ids (d.heldBy t i), .of (d.graphAt q.graph)⟩

def begin (t r h site : String) : Play (Logged Acquisition) := do
  let t ← onThread t
  beginAt t (← recorderNumber r) (← classifier h) site

def held (t r : String) : Play (List ClassifierId) := do
  let t ← onThread t
  let i ← recorderNumber r
  return ids ((← get).detector.heldBy t i)

/-- Tells whether the classifier was on the stack, and what the stack holds afterwards. -/
def release (t r h : String) : Play (Bool × List ClassifierId) := do
  let t ← onThread t
  let c ← classifier h
  let i ← recorderNumber r
  let s ← get
  let (d, released) := s.detector.release t i c
  set { s with detector := d }
  return (released, ids (d.heldBy t i))

def violations (r : String) : Play (List Violation) := return (← recorder r).history

def witness (r a b : String) : Play (Option Witness) := do
  let q ← recorder r
  let a ← classifier a
  let b ← classifier b
  return ((← get).detector.graphAt q.graph).edge? a.id b.id

/-- Drops a recorder on a thread. That of a watch goes with the watch. -/
def dropRecorder (t r : String) : Play Unit := do
  let t ← onThread t
  let i ← named (·.recorders) r
  modify fun s =>
    { s with recorders := s.recorders.erase r, detector := s.detector.dropRecorder t i }

def sinkAt (i : Nat) : Play Sink := do
  match (← get).detector.sinks[i]? with
  | some s => return s
  | none => failure

/-- The violations in a collecting sink, which is emptied if told so. -/
def readSink (name : String) (drain : Bool) : Play (List Violation) := do
  let i ← named (·.sinks) name
  let sink ← sinkAt i
  if drain then
    modify fun s =>
      { s with detector := { s.detector with sinks := s.detector.sinks.set i sink.drain } }
  return sink.received

def notes (name : String) : Play (List String) := do
  return (← sinkAt (← named (·.notes) name)).heard.map fun v =>
    s!"{v.conflicting.older.name} then {v.conflicting.younger.name}"

/-- Where a thread is. -/
def capture (t : String) (backtrace : Bool) : Play Context := do
  let t ← onThread t
  return ⟨t.name, "capture", if backtrace then some "<backtrace>" else none⟩

end Play

end LockDiscipline.Scenario
