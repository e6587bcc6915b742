namespace LockDiscipline

inductive Level where
  | trace
  | debug
  | warn
  deriving DecidableEq, Repr

structure LogLine where
  level : Level
  text : String
  deriving DecidableEq, Repr

end LockDiscipline
