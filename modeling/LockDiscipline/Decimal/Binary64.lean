namespace LockDiscipline.Decimal

/-- The quotient rounded to the nearest integer; a half goes to the even neighbour. -/
def roundHalfEven (num den : Nat) : Nat :=
  let q := num / den
  let r := num % den
  if 2 * r > den || (2 * r == den && q % 2 == 1) then q + 1 else q

/-- A rounded quotient is at most half a unit away from the quotient. -/
theorem roundHalfEven_near (num den : Nat) (hd : 0 < den) :
    2 * num ≤ (2 * roundHalfEven num den + 1) * den ∧
      2 * roundHalfEven num den * den ≤ 2 * num + den := by
  have hm := Nat.div_add_mod num den
  have hl := Nat.mod_lt num hd
  have e1 : (2 * (num / den) + 1) * den = 2 * (den * (num / den)) + den := by
    rw [Nat.add_mul, Nat.one_mul, Nat.mul_assoc, Nat.mul_comm (num / den) den]
  have e2 : (2 * (num / den + 1) + 1) * den = 2 * (den * (num / den)) + 3 * den := by
    rw [Nat.mul_add, Nat.add_assoc, Nat.add_mul, Nat.mul_assoc, Nat.mul_comm (num / den) den]
  have e3 : 2 * (num / den) * den = 2 * (den * (num / den)) := by
    rw [Nat.mul_assoc, Nat.mul_comm (num / den) den]
  have e4 : 2 * (num / den + 1) * den = 2 * (den * (num / den)) + 2 * den := by
    rw [Nat.mul_add, Nat.add_mul, Nat.mul_assoc, Nat.mul_comm (num / den) den]
  unfold roundHalfEven
  simp only [Bool.or_eq_true, decide_eq_true_eq, Bool.and_eq_true, beq_iff_eq]
  split
  · next h => rw [e2, e4]; omega
  · next h => rw [e1, e3]; omega

/-- The number `mantissa * 2 ^ exponent`. A rounded one has `mantissa < 2 ^ 53` and
`-1074 ≤ exponent ≤ 971`. -/
structure Binary64 where
  mantissa : Nat
  exponent : Int
  deriving DecidableEq, Repr

namespace Binary64

def zero : Binary64 := ⟨0, -1074⟩

/-- The value as a quotient of natural numbers. -/
def toRatio (x : Binary64) : Nat × Nat :=
  (x.mantissa * Nat.pow 2 x.exponent.toNat, Nat.pow 2 (-x.exponent).toNat)

/-- The number nearest to `num / den`; `none` if that is beyond the largest one. -/
def ofRatio (num den : Nat) : Option Binary64 :=
  if num = 0 then some zero
  else
    let guess : Int := (num.log2 : Int) - den.log2 - 52
    let scaled (e : Int) : Nat × Nat := (num * Nat.pow 2 (-e).toNat, den * Nat.pow 2 e.toNat)
    let fits (e : Int) : Bool := (scaled e).1 / (scaled e).2 ≥ Nat.pow 2 52
    let e := max (if fits guess then guess else guess - 1) (-1074)
    let m := roundHalfEven (scaled e).1 (scaled e).2
    let (m, e) := if m = Nat.pow 2 53 then (Nat.pow 2 52, e + 1) else (m, e)
    if e > 971 then none else some ⟨m, e⟩

/-- The number nearest to the product. -/
def mul (x y : Binary64) : Option Binary64 :=
  ofRatio (x.toRatio.1 * y.toRatio.1) (x.toRatio.2 * y.toRatio.2)

/-- The number nearest to the quotient. -/
def div (x y : Binary64) : Option Binary64 :=
  ofRatio (x.toRatio.1 * y.toRatio.2) (x.toRatio.2 * y.toRatio.1)

/-- The number nearest to `digits * 10 ^ scale`; `none` if that is beyond the largest one. The two
bounds on the size spare the computation of powers that cannot matter. -/
def ofScientific (digits : Nat) (scale : Int) : Option Binary64 :=
  let size : Int := (Nat.repr digits).length + scale
  if digits = 0 then some zero
  else if size > 310 then none
  else if size < -330 then some zero
  else ofRatio (digits * Nat.pow 10 scale.toNat) (Nat.pow 10 (-scale).toNat)

end Binary64

end LockDiscipline.Decimal
