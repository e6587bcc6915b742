import LockDiscipline.Order.Classifier

namespace LockDiscipline.Scenario

open LockDiscipline.Order

inductive ValueType where
  | octet
  | word
  | flag
  | text
  | octets
  | textSlice
  | octetSlice
  | maybeNumber
  deriving DecidableEq, Repr

namespace ValueType

def all : List ValueType :=
  [octet, word, flag, text, octets, textSlice, octetSlice, maybeNumber]

def label : ValueType → String
  | octet => "u8"
  | word => "u64"
  | flag => "bool"
  | text => "String"
  | octets => "Vec<u8>"
  | textSlice => "str"
  | octetSlice => "[u8]"
  | maybeNumber => "Option<u32>"

/-- The full name, under which the type is reported. -/
def name : ValueType → String
  | octet => "u8"
  | word => "u64"
  | flag => "bool"
  | text => "alloc::string::String"
  | octets => "alloc::vec::Vec<u8>"
  | textSlice => "str"
  | octetSlice => "[u8]"
  | maybeNumber => "core::option::Option<u32>"

def ofLabel? (s : String) : Option ValueType := all.find? fun t => t.label = s

theorem ofLabel?_label (t : ValueType) : ofLabel? t.label = some t := by
  cases t <;> decide +kernel

/-- The types are numbered from one. -/
def classifier (t : ValueType) : Classifier := ⟨UInt64.ofNat (all.idxOf t + 1), t.name⟩

/-- Whether the id is that of a type. -/
def isTypeId (c : ClassifierId) : Bool := all.any fun t => t.classifier.id == c

end ValueType

end LockDiscipline.Scenario
