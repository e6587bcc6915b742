namespace LockDiscipline.Text

/-- The decimals of a number of thousandths, without zeros at the end. -/
def thousandths (n : Nat) : String :=
  if n = 0 then ""
  else if n % 100 = 0 then s!".{n / 100}"
  else if n % 10 = 0 then (if n < 100 then ".0" else ".") ++ Nat.repr (n / 10)
  else (if n < 10 then ".00" else if n < 100 then ".0" else ".") ++ Nat.repr n

/-- A span of milliseconds. No time at all has the smallest unit. -/
def duration (ms : Nat) : String :=
  if ms = 0 then "0ns"
  else if ms < 1000 then s!"{ms}ms"
  else Nat.repr (ms / 1000) ++ thousandths (ms % 1000) ++ "s"

end LockDiscipline.Text
