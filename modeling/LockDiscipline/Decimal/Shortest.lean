import LockDiscipline.Decimal.Binary64

namespace LockDiscipline.Decimal

/-- The decimal number `digits * 10 ^ scale`. -/
structure Digits where
  digits : Nat
  scale : Int
  deriving DecidableEq, Repr

namespace Binary64

/-- Twice the ends of the interval of reals that round to the number, over the denominator of
`toRatio` doubled: below a power of two the lower gap is half as wide. -/
def interval (x : Binary64) : (Nat × Nat) × Nat :=
  let (num, den) := x.toRatio
  let gap := Nat.pow 2 x.exponent.toNat
  let lower := if x.mantissa = Nat.pow 2 52 && x.exponent > -1074 then gap else 2 * gap
  ((4 * num - lower, 4 * num + 2 * gap), 4 * den)

/-- Whether the decimal `c * 10 ^ s` rounds to the number. -/
def admits (x : Binary64) (c : Nat) (s : Int) : Bool :=
  let ((lo, hi), den) := x.interval
  let num := c * Nat.pow 10 s.toNat * den
  let unit := Nat.pow 10 (-s).toNat
  if x.mantissa % 2 = 0 then lo * unit ≤ num && num ≤ hi * unit
  else lo * unit < num && num < hi * unit

/-- The decimal exponent of the leading digit of a positive number. -/
def leading (x : Binary64) : Int :=
  let (num, den) := x.toRatio
  if num ≥ den then ((Nat.repr (num / den)).length : Int) - 1
  else
    let up := (Nat.repr (den / num)).length
    if num * Nat.pow 10 (up - 1) ≥ den then -((up - 1 : Nat) : Int) else -(up : Int)

/-- The admitted neighbour of the number on the grid of step `10 ^ s`, the nearer one of two. -/
def onGrid (x : Binary64) (s : Int) : Option Digits :=
  let (num, den) := x.toRatio
  let n := num * Nat.pow 10 (-s).toNat
  let d := den * Nat.pow 10 s.toNat
  let q := n / d
  let near := roundHalfEven n d
  let far := if near = q then q + 1 else q
  if x.admits near s then some ⟨near, s⟩
  else if x.admits far s then some ⟨far, s⟩
  else none

/-- The digits without the zeros at their end. -/
def stripZeros : Nat → Digits → Digits
  | 0, d => d
  | n + 1, d =>
    if d.digits ≠ 0 && d.digits % 10 = 0 then stripZeros n ⟨d.digits / 10, d.scale + 1⟩ else d

/-- The fewest digits that round to the number. Seventeen always do. -/
def shortest (x : Binary64) : Digits :=
  if x.mantissa = 0 then ⟨0, 0⟩
  else
    let top := x.leading
    let found := (List.range 17).findSome? fun (n : Nat) => x.onGrid (top - n)
    stripZeros 20 (found.getD ⟨x.mantissa, x.exponent⟩)

end Binary64

namespace Digits

/-- The digits as text. -/
def text (d : Digits) : String := Nat.repr d.digits

/-- Positional notation, with a point only where there is a fraction. -/
def positional (d : Digits) : String :=
  let t := d.text.toList
  if 0 ≤ d.scale then String.ofList (t ++ List.replicate d.scale.toNat '0')
  else
    let places := (-d.scale).toNat
    if places < t.length then
      String.ofList (t.take (t.length - places) ++ '.' :: t.drop (t.length - places))
    else String.ofList ('0' :: '.' :: List.replicate (places - t.length) '0' ++ t)

/-- Positional notation with a fraction from `10 ^ -5` to below `10 ^ 16`, and otherwise one digit
before the point and a signed exponent. -/
def scientific (d : Digits) : String :=
  let t := d.text.toList
  let top : Int := d.scale + t.length - 1
  if -5 ≤ top && top ≤ 15 then
    if 0 ≤ d.scale then d.positional ++ ".0" else d.positional
  else
    let mark := if top < 0 then "e-" else "e+"
    let fraction := if t.length > 1 then '.' :: t.drop 1 else []
    String.ofList (t.take 1 ++ fraction) ++ mark ++ Nat.repr top.natAbs

end Digits

end LockDiscipline.Decimal
