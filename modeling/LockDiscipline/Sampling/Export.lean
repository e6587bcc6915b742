import LockDiscipline.Document.Shape
import LockDiscipline.Json.Value
import LockDiscipline.Sampling.Report

namespace LockDiscipline.Sampling

open LockDiscipline.Document LockDiscipline.Json

def Snapshot.toJson (s : Snapshot) : Value :=
  .record [("thread_name", .text s.threadName), ("held", .texts s.held)]

def Snapshot.shape : Shape Snapshot where
  name := "ThreadSnapshot"
  strict := false
  start := ⟨"", []⟩
  fields := [
    .must "thread_name" .text fun n s => { s with threadName := n },
    .must "held" (.list .text) fun h s => { s with held := h }]

def SampleSet.toJson (s : SampleSet) : Value :=
  .record [("names", .texts s.names.toList),
    ("orderings", .list (s.orderings.toList.map .texts)), ("ticks", .natural s.ticks.toNat)]

/-- Names and orderings may stand in any order and more than once. -/
def SampleSet.shape : Shape SampleSet where
  name := "SampleSet"
  strict := false
  start := .empty
  fields := [
    .must "names" (.list .text) fun ns s => { s with names := .ofList ns },
    .must "orderings" (.list (.list .text)) fun os s => { s with orderings := .ofList os },
    .must "ticks" (.word "u64") fun n s => { s with ticks := n }]

def Report.toJson (r : Report) : Value :=
  .record [("names", .texts r.names), ("orderings", .list (r.orderings.map .texts)),
    ("conflicts", .list (r.conflicts.map fun p => .texts [p.1, p.2])),
    ("ticks", .natural r.ticks.toNat)]

def Report.shape : Shape Report where
  name := "SamplingReport"
  strict := false
  start := ⟨[], [], [], 0⟩
  fields := [
    .must "names" (.list .text) fun ns r => { r with names := ns },
    .must "orderings" (.list (.list .text)) fun os r => { r with orderings := os },
    .must "conflicts" (.list (.pair .text .text "a tuple of size 2" "a tuple of size 2"))
      fun cs r => { r with conflicts := cs },
    .must "ticks" (.word "u64") fun n r => { r with ticks := n }]

end LockDiscipline.Sampling
