namespace LockDiscipline

/-- The id belongs to no other thread, not even after the thread's end. The name is only for people,
and another thread may have it too. -/
structure Thread where
  id : Nat
  name : String
  deriving DecidableEq, Repr

end LockDiscipline
