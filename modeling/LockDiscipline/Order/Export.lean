import LockDiscipline.Document.Shape
import LockDiscipline.Json.Value
import LockDiscipline.Order.Evidence

namespace LockDiscipline.Order

open LockDiscipline.Document LockDiscipline.Json

def Classifier.toJson (c : Classifier) : Value :=
  .record [("id", .natural c.id.toNat), ("name", .text c.name)]

def Classifier.shape : Shape Classifier where
  name := "ClassifierRef"
  strict := false
  start := ⟨0, ""⟩
  fields := [
    .must "id" (.word "u64") fun i c => { c with id := i },
    .must "name" .text fun n c => { c with name := n }]

def Context.toJson (c : Context) : Value :=
  .recordOf [some ("thread", .text c.thread), some ("location", .text c.location),
    Value.optionalEntry "backtrace" (c.backtrace.map .text)]

def Context.shape : Shape Context where
  name := "CapturedContext"
  strict := false
  start := ⟨"", "", none⟩
  fields := [
    .must "thread" .text fun t c => { c with thread := t },
    .must "location" .text fun l c => { c with location := l },
    .may "backtrace" (.optional .text) fun b c => { c with backtrace := b }]

/-- A witness of nothing, from which reading starts. -/
def Witness.blank : Witness := ⟨⟨0, ""⟩, ⟨0, ""⟩, ⟨"", "", none⟩⟩

def Witness.toJson (w : Witness) : Value :=
  .record [("older", w.older.toJson), ("younger", w.younger.toJson),
    ("context", w.context.toJson)]

def Witness.shape : Shape Witness where
  name := "OrderWitness"
  strict := false
  start := .blank
  fields := [
    .must "older" Classifier.shape.reader fun c w => { w with older := c },
    .must "younger" Classifier.shape.reader fun c w => { w with younger := c },
    .must "context" Context.shape.reader fun c w => { w with context := c }]

def Violation.toJson (v : Violation) : Value :=
  .record [("established", v.established.toJson), ("conflicting", v.conflicting.toJson)]

def Violation.shape : Shape Violation where
  name := "OrderViolation"
  strict := false
  start := ⟨.blank, .blank⟩
  fields := [
    .must "established" Witness.shape.reader fun w v => { v with established := w },
    .must "conflicting" Witness.shape.reader fun w v => { v with conflicting := w }]

def Cycle.toJson (c : Cycle) : Value :=
  .record [("members", .list (c.members.map (·.toJson)))]

def Cycle.shape : Shape Cycle where
  name := "OrderCycle"
  strict := false
  start := ⟨[]⟩
  fields := [.must "members" (.list Classifier.shape.reader) fun ms _ => ⟨ms⟩]

def Pair.toJson (p : Pair) : Value :=
  .list [.natural p.low.toNat, .natural p.high.toNat]

/-- The members as they are written, in whichever order. -/
def Pair.reader : Reader Pair :=
  (Reader.pair (.word "u64") (.word "u64") "tuple struct UnorderedPair"
    "tuple struct UnorderedPair with 2 elements").map fun p => ⟨p.1, p.2⟩

end LockDiscipline.Order
