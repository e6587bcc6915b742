import LockDiscipline.Config.Settings
import LockDiscipline.Exclusion.Fault
import LockDiscipline.Table

namespace LockDiscipline.Exclusion

/-- What is known about the detection of a type. -/
structure Detection where
  enabled : Bool
  /-- Whether a value was checked since detection was last switched on. -/
  exercised : Bool
  deriving DecidableEq, Repr

/-- A value: its type and where it lies. -/
structure Key where
  typeName : String
  address : Nat
  deriving DecidableEq, Repr

/-- The memory that all calls share. -/
@[ext] structure Guard where
  types : Table String Detection
  marks : List Key
  /-- How many types have detection on; a check looks here first. -/
  enabledTypes : UInt64
  deriving DecidableEq, Repr

namespace Guard

def empty : Guard := ⟨.empty, [], 0⟩

def detection? (g : Guard) (t : String) : Option Detection := g.types.get? t

/-- Changes what is known about a type, if anything is. -/
def update (g : Guard) (t : String) (f : Detection → Detection) : Guard :=
  match g.detection? t with
  | some d => { g with types := g.types.set t (f d) }
  | none => g

/-- Starts to know the type. -/
def register (g : Guard) (t : String) : Guard :=
  match g.detection? t with
  | some _ => g
  | none => { g with types := g.types.set t ⟨false, false⟩ }

def isEnabled (g : Guard) (t : String) : Bool := (g.detection? t).any (·.enabled)

def wasExercised (g : Guard) (t : String) : Bool := (g.detection? t).any (·.exercised)

def isMarked (g : Guard) (k : Key) : Bool := g.marks.contains k

def mark (g : Guard) (k : Key) : Guard := { g with marks := k :: g.marks }

def clear (g : Guard) (k : Key) : Guard := { g with marks := g.marks.filter (· ≠ k) }

end Guard

/-- How far a call has come. Others can come between any two steps, and a step is one access to the
shared memory. -/
inductive Call where
  /-- A check that has not looked at anything. -/
  | check (k : Key)
  /-- A check that saw some type with detection on. -/
  | checkSome (k : Key)
  /-- A check that knows its type. -/
  | checkKnown (k : Key)
  /-- A check of a type with detection on. -/
  | checkEnabled (k : Key)
  /-- A check that is about to mark its value. -/
  | checkExercised (k : Key)
  /-- A check that found a mark and is about to clear it. -/
  | collided (k : Key)
  /-- A check that set its mark and waits for the window to end. -/
  | marked (k : Key)
  /-- Switching detection on. -/
  | enable (t : String)
  | enableKnown (t : String)
  | enableReset (t : String)
  /-- Detection is on and was off; the number of types is behind. -/
  | enableCount (t : String)
  /-- Switching detection off. -/
  | disable (t : String)
  | disableKnown (t : String)
  /-- Detection is off and was on; the number of types is ahead. -/
  | disableCount (t : String)
  /-- All is switched off; whether it was of use is to be seen. -/
  | disableVerdict (t : String)
  | ended (result : Except Fault Unit)

namespace Call

def result? : Call → Option (Except Fault Unit)
  | ended r => some r
  | _ => none

/-- Whether the call waits for its window to end. -/
def isWaiting : Call → Bool
  | marked _ => true
  | _ => false

/-- One access to the shared memory. -/
def step (g : Guard) : Call → Guard × Call
  | check k => (g, if g.enabledTypes = 0 then ended (.ok ()) else checkSome k)
  | checkSome k =>
    (g, if (g.detection? k.typeName).isSome then checkKnown k else ended (.ok ()))
  | checkKnown k => (g, if g.isEnabled k.typeName then checkEnabled k else ended (.ok ()))
  | checkEnabled k =>
    (g.update k.typeName fun d => { d with exercised := true }, checkExercised k)
  | checkExercised k => if g.isMarked k then (g, collided k) else (g.mark k, marked k)
  | collided k => (g.clear k, ended (.error (.concurrentAccess k.typeName k.address)))
  | marked k =>
    (g.clear k,
      ended (if g.isMarked k then .ok () else .error (.concurrentAccess k.typeName k.address)))
  | enable t => (g.register t, enableKnown t)
  | enableKnown t => (g.update t fun d => { d with exercised := false }, enableReset t)
  | enableReset t =>
    (g.update t fun d => { d with enabled := true },
      if g.isEnabled t then ended (.ok ()) else enableCount t)
  | enableCount _ => ({ g with enabledTypes := g.enabledTypes + 1 }, ended (.ok ()))
  | disable t =>
    (g, if (g.detection? t).isSome then disableKnown t else ended (.error (.notExercised t)))
  | disableKnown t =>
    (g.update t fun d => { d with enabled := false },
      if g.isEnabled t then disableCount t else ended (.error (.notExercised t)))
  | disableCount t => ({ g with enabledTypes := g.enabledTypes - 1 }, disableVerdict t)
  | disableVerdict t =>
    (g, ended (if g.wasExercised t then .ok () else .error (.notExercised t)))
  | ended r => (g, ended r)

theorem step_of_result {g : Guard} {c : Call} {r : Except Fault Unit}
    (h : c.result? = some r) : c.step g = (g, c) := by
  cases c <;> simp_all [result?, step]

/-- How many steps a call has at most. -/
def longest : Nat := 7

/-- Steps of one call with nothing in between, until it waits or ends. -/
def advance : Nat → Guard → Call → Guard × Call
  | 0, g, c => (g, c)
  | n + 1, g, c =>
    let (g, c) := c.step g
    if c.isWaiting then (g, c) else advance n g c

/-- All steps of one call with nothing in between. -/
def complete : Nat → Guard → Call → Guard × Call
  | 0, g, c => (g, c)
  | n + 1, g, c =>
    let (g, c) := c.step g
    complete n g c

end Call

namespace Guard

/-- A call that no other comes between. -/
def run (g : Guard) (c : Call) : Guard × Except Fault Unit :=
  let (g, c) := c.complete Call.longest g
  (g, c.result?.getD (.ok ()))

/-- Switches detection on or off for a type. -/
def setDetection (g : Guard) (t : String) (enabled : Bool) : Guard × Except Fault Unit :=
  g.run (if enabled then .enable t else .disable t)

/-- Checks that nobody else uses the value. -/
def check (g : Guard) (k : Key) : Guard × Except Fault Unit := g.run (.check k)

end Guard

end LockDiscipline.Exclusion
