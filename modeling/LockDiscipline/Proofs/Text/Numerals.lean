import LockDiscipline.Text.Digit

namespace LockDiscipline.Text

variable {radix n : Nat} {cs ds : List Char}

theorem appendDigits_append (radix n : Nat) (cs ds : List Char) :
    appendDigits radix n (cs ++ ds) =
      (appendDigits radix n cs).bind fun m => appendDigits radix m ds := by
  induction cs generalizing n with
  | nil => rfl
  | cons c cs ih =>
    simp only [List.cons_append, appendDigits]
    cases digitIn radix c with
    | none => rfl
    | some d => exact ih _

/-- Zeros in front say nothing. -/
theorem appendDigits_zeros (h : digitIn radix '0' = some 0) (k : Nat) (ds : List Char) :
    appendDigits radix 0 (List.replicate k '0' ++ ds) = appendDigits radix 0 ds := by
  induction k with
  | zero => rfl
  | succ k ih =>
    rw [List.replicate_succ, List.cons_append, appendDigits, h]
    simpa using ih

/-- The digits of a number stand for it, also in another shape `f` that has the same values. -/
theorem appendDigits_toDigits (hradix : 1 < radix) {f : Char → Char}
    (hf : ∀ d < radix, digitIn radix (f d.digitChar) = some d) (n : Nat) :
    appendDigits radix 0 ((Nat.toDigits radix n).map f) = some n := by
  induction n using Nat.strongRecOn with
  | ind n ih =>
    rcases Nat.lt_or_ge n radix with hlt | hge
    · simp [Nat.toDigits_of_lt_base hlt, appendDigits, hf n hlt]
    · have hless : n / radix < n := Nat.div_lt_self (by omega) hradix
      have hdigit : n % radix < radix := Nat.mod_lt n (by omega)
      rw [Nat.toDigits_of_base_le hradix hge, List.map_append, appendDigits_append, ih _ hless]
      simp only [List.map_cons, List.map_nil, Option.bind_some, appendDigits, hf _ hdigit]
      rw [Nat.div_add_mod']

theorem digitIn_ten : ∀ d < 10, digitIn 10 d.digitChar = some d := by decide

theorem hexValue_toUpper : ∀ d < 16, hexValue d.digitChar.toUpper = some d := by decide

/-- A number is read from its decimal digits. -/
theorem naturalIn_toDigits (n : Nat) : naturalIn 10 (Nat.toDigits 10 n) = some n := by
  have h := appendDigits_toDigits (f := id) (by decide) digitIn_ten n
  rw [List.map_id] at h
  obtain ⟨d, ds, hds⟩ := List.exists_cons_of_ne_nil (Nat.toDigits_ne_nil (n := n) (b := 10))
  rw [hds] at h ⊢
  exact h

/-- No number but zero starts with a zero. -/
theorem toDigits_eq_cons (n : Nat) (hn : n ≠ 0) :
    ∃ c cs, Nat.toDigits 10 n = c :: cs ∧ c ≠ '0' := by
  induction n using Nat.strongRecOn with
  | ind n ih =>
    rcases Nat.lt_or_ge n 10 with hlt | hge
    · have hdigit : ∀ d < 10, d ≠ 0 → d.digitChar ≠ '0' := by decide
      exact ⟨_, [], Nat.toDigits_of_lt_base hlt, hdigit n hlt hn⟩
    · obtain ⟨c, cs, hcs, hc⟩ := ih (n / 10) (by omega) (by omega)
      exact ⟨c, cs ++ [(n % 10).digitChar], by
        rw [Nat.toDigits_of_base_le (by decide) hge, hcs, List.cons_append], hc⟩

end LockDiscipline.Text
