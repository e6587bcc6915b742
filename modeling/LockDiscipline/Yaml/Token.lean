namespace LockDiscipline.Yaml

/-- How a scalar is written. -/
inductive Style where
  | plain
  | single
  | double
  | literal
  | folded
  deriving DecidableEq, Repr

/-- The name of a tag: a handle that directives may redefine, and the rest. -/
structure TagName where
  handle : String
  suffix : String
  deriving DecidableEq, Repr

inductive Token where
  | version (major minor : Nat)
  | tagHandle (handle target : String)
  | documentStart
  | documentEnd
  | streamEnd
  | blockList
  | blockRecord
  | blockEnd
  | flowList
  | flowListEnd
  | flowRecord
  | flowRecordEnd
  /-- The dash before an item of a block. -/
  | entry
  /-- The comma between items of a flow collection. -/
  | separator
  | key
  | value
  | reference (name : String)
  | anchor (name : String)
  | tag (name : TagName)
  | scalar (text : String) (style : Style)
  deriving DecidableEq, Repr

end LockDiscipline.Yaml
