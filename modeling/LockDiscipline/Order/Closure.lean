namespace LockDiscipline.Order

/-- A number that has the bits, the lowest first. -/
def ofBits : List Bool → Nat
  | [] => 0
  | b :: bs => 2 * ofBits bs + b.toNat

theorem testBit_ofBits (bs : List Bool) (j : Nat) : (ofBits bs).testBit j = bs[j]?.getD false := by
  induction bs generalizing j with
  | nil => simp [ofBits]
  | cons b bs ih =>
    cases j with
    | zero => cases b <;> simp [ofBits, Nat.testBit_zero]
    | succ j =>
      have hb := Bool.toNat_lt b
      have h : (2 * ofBits bs + b.toNat) / 2 = ofBits bs := by omega
      simp [ofBits, Nat.testBit_succ, h, ih]

/-- Whether a row has the bit. -/
def related (rows : List Nat) (i j : Nat) : Bool := (rows[i]?.getD 0).testBit j

/-- Relates what a station links. -/
def addStation (rows : List Nat) (k : Nat) : List Nat :=
  let onward := rows[k]?.getD 0
  rows.map fun row => if row.testBit k then row ||| onward else row

/-- The least transitive relation around the one of the rows, by Warshall's method. -/
def closure (rows : List Nat) : List Nat := (List.range rows.length).foldl addStation rows

theorem related_addStation (rows : List Nat) (k i j : Nat) :
    related (addStation rows k) i j =
      (related rows i j || (related rows i k && related rows k j)) := by
  unfold related addStation
  rw [List.getElem?_map]
  cases rows[i]? with
  | none => simp
  | some row => cases h : row.testBit k <;> simp [h]

end LockDiscipline.Order
