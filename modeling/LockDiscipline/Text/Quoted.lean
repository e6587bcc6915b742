import LockDiscipline.Text.Printable

namespace LockDiscipline.Text

/-- The digits of a code point in base 16, without leading zeros. -/
def hexDigits (n : Nat) : List Char := Nat.toDigits 16 n

/-- The written form of one character between double quotes. -/
def quoteChar (c : Char) : List Char :=
  if c = '\x00' then ['\\', '0']
  else if c = '\t' then ['\\', 't']
  else if c = '\r' then ['\\', 'r']
  else if c = '\n' then ['\\', 'n']
  else if c = '\\' then ['\\', '\\']
  else if c = '\x22' then ['\\', '\x22']
  else if isPrintable c then [c]
  else ['\\', 'u', '\x7b'] ++ hexDigits c.toNat ++ ['\x7d']

theorem quoteChar_of_plain {c : Char} (hp : isPrintable c = true) (hq : c ≠ '\x22')
    (hb : c ≠ '\\') : quoteChar c = [c] := by
  have h0 : c ≠ '\x00' := by rintro rfl; exact absurd hp (by decide +kernel)
  have ht : c ≠ '\t' := by rintro rfl; exact absurd hp (by decide +kernel)
  have hr : c ≠ '\r' := by rintro rfl; exact absurd hp (by decide +kernel)
  have hn : c ≠ '\n' := by rintro rfl; exact absurd hp (by decide +kernel)
  simp [quoteChar, h0, ht, hr, hn, hb, hq, hp]

/-- The text between double quotes, with escapes for what would not print. -/
def quoted (s : String) : String :=
  String.ofList ('\x22' :: s.toList.flatMap quoteChar ++ ['\x22'])

end LockDiscipline.Text
