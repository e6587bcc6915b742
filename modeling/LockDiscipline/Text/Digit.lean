namespace LockDiscipline.Text

/-- The value of a digit; letters of either case follow nine. -/
def digitValue (c : Char) : Option Nat :=
  if '0' ≤ c && c ≤ '9' then some (c.toNat - '0'.toNat)
  else if 'a' ≤ c && c ≤ 'z' then some (c.toNat - 'a'.toNat + 10)
  else if 'A' ≤ c && c ≤ 'Z' then some (c.toNat - 'A'.toNat + 10)
  else none

/-- The value of a digit of the radix. -/
def digitIn (radix : Nat) (c : Char) : Option Nat := (digitValue c).filter (· < radix)

def hexValue (c : Char) : Option Nat := digitIn 16 c

/-- Appends digits to a number. -/
def appendDigits (radix : Nat) : Nat → List Char → Option Nat
  | n, [] => some n
  | n, c :: cs =>
    match digitIn radix c with
    | some d => appendDigits radix (n * radix + d) cs
    | none => none

/-- The number that the digits write; at least one is needed. -/
def naturalIn (radix : Nat) : List Char → Option Nat
  | [] => none
  | cs => appendDigits radix 0 cs

theorem naturalIn_singleton (radix : Nat) (c : Char) : naturalIn radix [c] = digitIn radix c := by
  simp only [naturalIn, appendDigits]
  cases digitIn radix c <;> simp

end LockDiscipline.Text
