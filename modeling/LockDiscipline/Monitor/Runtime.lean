import LockDiscipline.Order.Classifier
import LockDiscipline.Sampling.SampleSet
import LockDiscipline.Table
import LockDiscipline.Thread

namespace LockDiscipline.Monitor

open LockDiscipline.Order LockDiscipline.Sampling

/-- What threads entered and have not left yet, for others to see. -/
structure Runtime where
  /-- The monitors of each thread that has some, the outermost first. -/
  held : Table Thread (List Classifier)
  deriving DecidableEq, Repr

namespace Runtime

def empty : Runtime := ⟨.empty⟩

def heldBy (r : Runtime) (thread : Thread) : List Classifier := (r.held.get? thread).getD []

def enter (r : Runtime) (thread : Thread) (c : Classifier) : Runtime :=
  ⟨r.held.set thread (r.heldBy thread ++ [c])⟩

/-- Drops the last entry for the classifier; a thread without entries is not listed. -/
def leave (r : Runtime) (thread : Thread) (c : Classifier) : Runtime :=
  let rest := eraseLast c (r.heldBy thread)
  ⟨if rest.isEmpty then r.held.erase thread else r.held.set thread rest⟩

def threadCount (r : Runtime) : Nat := r.held.entries.length

/-- What every listed thread holds, the monitor entered last first; threads by name. -/
def snapshot (r : Runtime) : List Snapshot :=
  let all := r.held.entries.map fun e => Snapshot.mk e.1.name (e.2.reverse.map (·.name))
  all.mergeSort fun a b => a.threadName ≤ b.threadName

theorem heldBy_enter (r : Runtime) (t u : Thread) (c : Classifier) :
    (r.enter t c).heldBy u = if u = t then r.heldBy t ++ [c] else r.heldBy u := by
  unfold enter heldBy
  rw [Table.get?_set]
  split <;> simp_all

end Runtime

end LockDiscipline.Monitor
