import LockDiscipline.Exclusion.Overlap
import LockDiscipline.Scenario.State

namespace LockDiscipline.Scenario.Play

open LockDiscipline.Config LockDiscipline.Exclusion

def newGuard (name : String) (settings : GuardSettings) : Play Unit :=
  modify fun s => { s with guards := s.guards.set name ⟨settings, .empty⟩ }

/-- A fresh object of a type, at an address of its own. -/
def place (o : String) (t : ValueType) : Play Unit :=
  modify fun s =>
    { s with objects := s.objects.set o ⟨t.name, s.placed⟩, placed := s.placed + 1 }

/-- Lets a guard work and keeps what it became. -/
def withGuard {α : Type} (name : String) (work : GuardPost → Guard × α) : Play α := do
  let post ← named (·.guards) name
  let (g, x) := work post
  modify fun s => { s with guards := s.guards.set name { post with guard := g } }
  return x

def setDetection (name : String) (t : ValueType) (enabled : Bool) :
    Play (Except Exclusion.Fault Unit) :=
  withGuard name fun p => p.guard.setDetection t.name enabled

def check (name o : String) : Play (Except Exclusion.Fault Unit) := do
  let key ← named (·.objects) o
  withGuard name fun p => p.guard.check key

/-- What a guard knows about a type. -/
def detection (name : String) (t : ValueType) : Play Detection := do
  let p ← named (·.guards) name
  return ⟨p.guard.isEnabled t.name, p.guard.wasExercised t.name⟩

/-- Checks of objects that start at equal distances. -/
def overlap (name : String) (os : List String) (gapMs : Nat) :
    Play (List (Except Exclusion.Fault Unit)) := do
  let keys ← os.mapM (named (·.objects))
  withGuard name fun p => p.guard.overlap gapMs p.settings.windowMs.toNat keys

end LockDiscipline.Scenario.Play
