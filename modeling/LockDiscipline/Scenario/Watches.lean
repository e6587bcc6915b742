import LockDiscipline.Config.Steps
import LockDiscipline.Sampling.Session
import LockDiscipline.Scenario.Graphs

namespace LockDiscipline.Scenario

open LockDiscipline.Order LockDiscipline.Monitor LockDiscipline.Sampling LockDiscipline.Config

/-- What became of an attempt to take a monitor. -/
inductive Entry (α : Type) where
  | done (value : α)
  /-- Another thread owns the monitor, so nothing was tried. -/
  | wouldBlock

namespace Play

def addRuntime : Play Nat := do
  let s ← get
  let m := s.monitors
  set { s with monitors := { m with runtimes := m.runtimes ++ [Runtime.empty] } }
  return m.runtimes.length

def newRuntime (name : String) : Play Unit := do
  let i ← addRuntime
  modify fun s => { s with runtimes := s.runtimes.set name i }

/-- The number of a runtime; a watch has one too. -/
def runtimeNumber (name : String) : Play Nat := do
  let s ← get
  match s.runtimes.get? name, s.watches.get? name with
  | some i, _ => return i
  | none, some w => return w.runtime
  | none, none => failure

/-- Takes a monitor with a guard; the one that had its label is dropped. -/
def lockWith (g : HeldGuard) : Play (Entry Unit) := do
  let s ← get
  match s.monitors.lock g with
  | some m => do
    let s' := { s with monitors := m }
    set ((s.monitors.guard? g.thread g.label).elim s' s'.settle)
    return .done ()
  | none => return .wouldBlock

def lock (t h label : String) : Play (Entry Unit) := do
  let t ← onThread t
  lockWith ⟨t, label, ← classifier h, none, none⟩

def enter (t rt h label : String) : Play (Entry Unit) := do
  let t ← onThread t
  lockWith ⟨t, label, ← classifier h, some (← runtimeNumber rt), none⟩

/-- Drops a guard; tells the classifier of its monitor. -/
def unlock (t label : String) : Play (Option ClassifierId) := do
  let t ← onThread t
  let s ← get
  let (m, dropped) := s.monitors.unlock t label
  let s := { s with monitors := m }
  set (dropped.elim s s.settle)
  return dropped.map (·.classifier.id)

def owns (t h : String) : Play Bool := do
  let t ← onThread t
  let c ← classifier h
  return (← get).monitors.owns t c.id

def runtime (rt : String) : Play Runtime := do
  let i ← runtimeNumber rt
  return (← get).monitors.runtimeAt i

/-- A thread drops its guards and ends; tells whether there was one. -/
def endThread (t : String) : Play Bool := do
  let s ← get
  match s.threads.get? t with
  | none => return false
  | some thread => do
    set { s with
      monitors := s.monitors.dropThread thread
      detector := s.detector.endThread thread
      threads := s.threads.erase t }
    return true

/-- Sets up a watch: a runtime, and a recorder of its own that asks the monitors. -/
def newWatch (name : String) (config : Approved) : Play Unit := do
  let settings := config.draft.recorderSettings
  let runtime ← addRuntime
  let graph ← addGraph settings.sweepEvery.toNat
  let recorder ← addRecorder ⟨graph, settings, .monitor, none, []⟩
  modify fun s => { s with watches := s.watches.set name ⟨config, runtime, recorder⟩ }

/-- Drafts and checks a configuration, and sets up a watch with it. -/
def draftWatch (name : String) (start : Draft) (steps : List Config.Step) :
    Play (Except Config.Fault Approved) := do
  match start.takeAll steps with
  | .error f => return .error f
  | .ok d =>
    match d.build with
    | .error f => return .error f
    | .ok config => do
      newWatch name config
      return .ok config

/-- Records an acquisition and then enters the monitor, unless recording stopped the thread. The
guard keeps the watch's recorder even where the watch loses its name. -/
def watchEnter (t w h label site : String) : Play (Entry (Logged Acquisition)) := do
  let t ← onThread t
  let c ← classifier h
  let watch ← named (·.watches) w
  if (← get).monitors.isOpenTo t c.id then
    let a ← beginAt t watch.recorder c site
    match a.value.verdict with
    | .returned => do
      let _ ← lockWith ⟨t, label, c, some watch.runtime, some watch.recorder⟩
    | .stopped _ => pure ()
    return .done a
  else return .wouldBlock

/-- Samples what the threads hold in the watch's runtime. -/
def collect (w : String) : Play (Logged SampleSet) := do
  let watch ← named (·.watches) w
  let settings := watch.config.draft.samplerSettings
  let answer := Answer.snapshots ((← get).monitors.runtimeAt watch.runtime).snapshot
  return ⟨[startLine settings], (Session.start settings [answer]).stop.samples⟩

end Play

end LockDiscipline.Scenario
