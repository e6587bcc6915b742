import LockDiscipline.Config.Settings
import LockDiscipline.Log
import LockDiscipline.Sampling.Fault
import LockDiscipline.Sampling.Report
import LockDiscipline.Text.Duration
import LockDiscipline.Text.Quoted

namespace LockDiscipline.Sampling

open LockDiscipline.Config

/-- What the worker is told when it asks. -/
inductive Answer where
  | snapshots (round : List Snapshot)
  | unavailable (reason : String)
  /-- The error of a thread that could not be started. There may be anything behind it, so that
  dropping it may panic. -/
  | spawn (reason : String) (bursts : Bool)
  /-- The question itself panicked; dropping what it panicked with may panic once more. -/
  | panicked (bursts : Bool)
  deriving DecidableEq, Repr

/-- The question broke down, with a message and nothing else. -/
def Answer.broken : Answer := .panicked false

/-- Whether dropping the answer panics. -/
def Answer.bursts : Answer → Bool
  | snapshots _ | unavailable _ => false
  | spawn _ bursts | panicked bursts => bursts

/-- Why a worker asked no more. -/
inductive Ending where
  | told
  | failed (fault : Fault)
  | panicked
  deriving DecidableEq, Repr

/-- What a worker has at its end. -/
structure Gathered where
  samples : SampleSet
  ending : Ending
  /-- Whether the worker itself panicked, as it dropped the answer that had ended it. -/
  lost : Bool
  deriving DecidableEq, Repr

/-- The worker's run over the answers to what it asks before it is told to stop. -/
def gather (f : NameFilter) : SampleSet → List Answer → Gathered
  | s, [] => ⟨s, .told, false⟩
  | s, .snapshots round :: rest => gather f (s.recordRound f round) rest
  | s, .unavailable reason :: _ => ⟨s, .failed (.unavailable reason), false⟩
  | s, .spawn reason bursts :: _ => ⟨s, .failed (.spawn reason), bursts⟩
  | s, .panicked bursts :: _ => ⟨s, .panicked, bursts⟩

/-- What is logged about an answer that ends the worker. -/
def Ending.complaint : Ending → List LogLine
  | told => []
  | failed fault => [⟨.debug, "sampling worker stopped: " ++ fault.message⟩]
  | panicked => [⟨.debug, "sampling worker stopped: snapshot panicked"⟩]

def SampleSet.exitLine (s : SampleSet) : LogLine :=
  ⟨.debug, s!"sampling worker exiting after {s.ticks} ticks"⟩

/-- What the worker logs at its end. -/
def Gathered.log (g : Gathered) : List LogLine :=
  g.ending.complaint ++ if g.lost then [] else [g.samples.exitLine]

/-- What the worker hands over to whoever waits for it. -/
def Gathered.result (g : Gathered) : Option SampleSet := if g.lost then none else some g.samples

/-- What the thread that starts a worker logs. -/
def startLine (s : SamplerSettings) : LogLine :=
  let nameSpace := match s.nameSpace with
    | none => "None"
    | some n => "Some(" ++ Text.quoted n ++ ")"
  ⟨.debug, s!"sampling worker started (interval {Text.duration s.intervalMs.toNat}, " ++
    s!"namespace {nameSpace})"⟩

/-- A session: its worker until somebody waited for it, and then the samples. -/
structure Session where
  worker : Option Gathered
  samples : SampleSet
  deriving DecidableEq, Repr

namespace Session

/-- A session whose worker gets these answers. -/
def start (s : SamplerSettings) (answers : List Answer) : Session :=
  ⟨some (gather s.nameSpace .empty answers), .empty⟩

/-- A worker that no answer stopped goes on until it is told to stop. -/
def isRunning (s : Session) : Bool := s.worker.any fun g => g.ending = .told

/-- Tells the worker to stop and takes over its samples, if it hands them over. -/
def stop (s : Session) : Session :=
  match s.worker with
  | some g => ⟨none, g.result.getD s.samples⟩
  | none => s

/-- What the thread that stops the worker logs. -/
def stopLog (s : Session) : List LogLine :=
  if s.worker.any fun g => g.result = none then
    [⟨.debug, "sampling worker terminated abnormally"⟩]
  else []

theorem stop_stop (s : Session) : s.stop.stop = s.stop := by
  unfold stop
  cases h : s.worker <;> simp [h]

theorem isRunning_stop (s : Session) : s.stop.isRunning = false := by
  unfold stop
  split
  · rfl
  · next h => simp [isRunning, h]

/-- What a stopped session reports. -/
def report (s : Session) : Report := .ofSamples s.stop.samples

end Session

end LockDiscipline.Sampling
