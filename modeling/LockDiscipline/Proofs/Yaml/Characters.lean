import LockDiscipline.Yaml.Written

namespace LockDiscipline.Yaml

variable {c : Char} {cs tail rest : List Char} {m : Nat}

theorem Position.after_of_not_break (h : isBreak c = false) (p : Position) :
    p.after c = ⟨p.line, p.column + 1, p.octets + c.utf8Size⟩ := by
  simp [Position.after, h]

theorem Position.column_after_break (h : isBreak c = true) (p : Position) :
    (p.after c).column = 0 := by
  simp [Position.after, h]

theorem Position.column_after_pos (h : isBreak c = false) (p : Position) :
    0 < (p.after c).column := by
  rw [Position.after_of_not_break h]
  exact Nat.succ_pos _

theorem Position.lt_column_after {i : Nat} (h : isBreak c = false) {p : Position}
    (hcolumn : i < p.column) : i < (p.after c).column := by
  rw [Position.after_of_not_break h]
  exact Nat.lt_succ_of_lt hcolumn

/-- Characters that break no line lead to the right. -/
theorem foldl_after (h : ∀ c ∈ cs, isBreak c = false) (p : Position) :
    (cs.foldl .after p).line = p.line ∧ (cs.foldl .after p).column = p.column + cs.length := by
  induction cs generalizing p with
  | nil => exact ⟨rfl, rfl⟩
  | cons c cs ih =>
    obtain ⟨hline, hcolumn⟩ := ih (fun d hd => h d (List.mem_cons_of_mem _ hd)) (p.after c)
    rw [Position.after_of_not_break (h c (List.mem_cons_self ..))] at hline hcolumn
    rw [List.foldl_cons, Position.after_of_not_break (h c (List.mem_cons_self ..)), hline, hcolumn,
      List.length_cons]
    exact ⟨rfl, by dsimp only; omega⟩

/-- Characters of one octet each. -/
theorem octets_foldl_after (h : ∀ c ∈ cs, isBreak c = false ∧ c.utf8Size = 1) (p : Position) :
    (cs.foldl .after p).octets = p.octets + cs.length := by
  induction cs generalizing p with
  | nil => rfl
  | cons c cs ih =>
    obtain ⟨hbreak, hsize⟩ := h c (List.mem_cons_self ..)
    rw [List.foldl_cons, ih fun d hd => h d (List.mem_cons_of_mem _ hd),
      Position.after_of_not_break hbreak, hsize, List.length_cons]
    dsimp only
    omega

/-- A line that is indented by `m` goes on in column `m`. -/
theorem column_indented (m : Nat) (p : Position) :
    ((List.replicate m ' ').foldl .after (p.after '\n')).column = m := by
  rw [(foldl_after (fun c hc => by rw [List.eq_of_mem_replicate hc]; decide) _).2,
    Position.column_after_break (by decide), List.length_replicate, Nat.zero_add]

theorem isBreak_space : isBreak ' ' = false := by decide

theorem isBlank_space : isBlank ' ' = true := by decide

theorem isBlank_of_isBreak (h : isBreak c = true) : isBlank c = false := by
  simp only [isBreak, Bool.or_eq_true, decide_eq_true_eq] at h
  rcases h with (rfl | rfl) | rfl <;> decide

theorem ne_tab_of_isShown (h : isShown c = true) : c ≠ '\t' := by
  rintro rfl
  revert h
  decide

theorem isBlank_of_isShown (h : isShown c = true) : isBlank c = isSpace c := by
  simp [isBlank, isSpace, ne_tab_of_isShown h]

theorem isAllowed_of_isShown (h : isShown c = true) : isAllowed c = true := by
  simp only [isShown, isAllowed, Bool.or_eq_true, Bool.and_eq_true, beq_iff_eq, bne_iff_ne,
    decide_eq_true_eq] at h ⊢
  omega

theorem normalizeBreaks_of_isShown (h : ∀ c ∈ cs, isShown c = true) : normalizeBreaks cs = cs := by
  induction cs with
  | nil => rfl
  | cons c cs ih =>
    have hreturn : c ≠ '\r' := by
      rintro rfl
      exact absurd (h _ (List.mem_cons_self ..)) (by decide)
    have hnext : c ≠ '\u0085' := by
      rintro rfl
      exact absurd (h _ (List.mem_cons_self ..)) (by decide)
    have hrest := ih fun d hd => h d (List.mem_cons_of_mem _ hd)
    rw [normalizeBreaks.eq_def]
    split
    · next heq => cases heq
    · next heq => exact absurd (List.cons.inj heq).1 hreturn
    · next heq =>
      obtain ⟨rfl, rfl⟩ := List.cons.inj heq
      simp [hreturn, hnext, hrest]

/-- Whether a word ends with the text is the same where the line does. -/
theorem atGap_append_break (cs tail : List Char) : atGap (cs ++ '\n' :: tail) = atGap cs := by
  cases cs with
  | nil => exact (by decide : isGap '\n' = true)
  | cons c cs => rfl

/-- A character of a key or of a word. -/
def isKeyChar (c : Char) : Bool := c.isAlphanum || c = '_'

theorem ne_of_isKeyChar (h : isKeyChar c = true) {d : Char} (hd : isKeyChar d = false) : c ≠ d := by
  rintro rfl
  rw [h] at hd
  cases hd

theorem toNat_of_isKeyChar (h : isKeyChar c = true) :
    (48 ≤ c.toNat ∧ c.toNat ≤ 57) ∨ (65 ≤ c.toNat ∧ c.toNat ≤ 90) ∨ c.toNat = 95 ∨
      (97 ≤ c.toNat ∧ c.toNat ≤ 122) := by
  have halpha : c.isAlphanum = (decide ('A'.val ≤ c.val ∧ c.val ≤ 'Z'.val) ||
      decide ('a'.val ≤ c.val) && decide (c.val ≤ 'z'.val) ||
      decide ('0'.val ≤ c.val) && decide (c.val ≤ '9'.val)) := rfl
  simp only [isKeyChar, halpha, Bool.or_eq_true, Bool.and_eq_true, decide_eq_true_eq,
    UInt32.le_iff_toNat_le] at h
  change (((65 ≤ c.toNat ∧ c.toNat ≤ 90) ∨ (97 ≤ c.toNat ∧ c.toNat ≤ 122)) ∨
    (48 ≤ c.toNat ∧ c.toNat ≤ 57)) ∨ c = '_' at h
  rcases h with ((h | h) | h) | rfl
  · exact Or.inr (Or.inl h)
  · exact Or.inr (Or.inr (Or.inr h))
  · exact Or.inl h
  · decide

theorem isShown_of_isKeyChar (h : isKeyChar c = true) : isShown c = true := by
  have hrange := toNat_of_isKeyChar h
  simp only [isShown, Bool.or_eq_true, Bool.and_eq_true, beq_iff_eq, bne_iff_ne, decide_eq_true_eq]
  omega

theorem isGap_of_isKeyChar (h : isKeyChar c = true) : isBlank c = false ∧ isBreak c = false := by
  have hspace := ne_of_isKeyChar h (d := ' ') (by decide)
  have htab := ne_of_isKeyChar h (d := '\t') (by decide)
  have hfeed := ne_of_isKeyChar h (d := '\n') (by decide)
  have hline := ne_of_isKeyChar h (d := '\u2028') (by decide)
  have hpart := ne_of_isKeyChar h (d := '\u2029') (by decide)
  simp [isBlank, isBreak, hspace, htab, hfeed, hline, hpart]

/-- A character of a key is none of the marks. -/
theorem contains_eq_false {marks : String} (hmarks : marks.toList.all (!isKeyChar ·) = true)
    (h : isKeyChar c = true) : marks.contains c = false := by
  rw [String.contains_char_eq, decide_eq_false_iff_not]
  intro hc
  have hother := List.all_eq_true.1 hmarks c hc
  rw [h] at hother
  cases hother

theorem utf8Size_of_isKeyChar (h : isKeyChar c = true) : c.utf8Size = 1 := by
  have hrange := toNat_of_isKeyChar h
  rw [Char.utf8Size_eq_one_iff, UInt32.le_iff_toNat_le]
  change c.toNat ≤ 127
  omega

/-- A name that is written in front of a colon. -/
structure IsKey (key : String) : Prop where
  word : ∀ c ∈ key.toList, isKeyChar c = true
  ne_nil : key.toList ≠ []
  short : key.toList.length ≤ 1024

instance (key : String) : Decidable (IsKey key) :=
  decidable_of_iff (key.toList.all isKeyChar = true ∧ key.toList ≠ [] ∧ key.toList.length ≤ 1024)
    ⟨fun ⟨h, i, j⟩ => ⟨List.all_eq_true.1 h, i, j⟩, fun ⟨h, i, j⟩ => ⟨List.all_eq_true.2 h, i, j⟩⟩

namespace Gap

theorem fold_addBlank (c : Char) :
    ∀ {gap : Gap}, gap.hasBreaks = false → (gap.addBlank c).fold = gap.fold ++ [c]
  | none, _ => rfl
  | blanks _, _ => rfl

theorem hasBreaks_addBlank (gap : Gap) (c : Char) : (gap.addBlank c).hasBreaks = gap.hasBreaks := by
  cases gap <;> rfl

/-- Only a line feed folds. -/
theorem fold_breaks {b : Char} (h : b ≠ '\n') (more : List Char) :
    (breaks (some b) more).fold = b :: more := by
  rw [fold.eq_def]
  split
  · next heq => cases heq
  · next heq => cases heq
  · next heq =>
    cases heq
    exact absurd rfl h
  · next heq =>
    cases heq
    exact absurd rfl h
  · next heq =>
    cases heq
    rfl
  · next heq => cases heq

end Gap

/-- What stands behind the lines of a value: a key at some column, or nothing more. -/
inductive Follows : Nat → List Char → Prop where
  | nothing : Follows 0 []
  | key {column : Nat} {c : Char} {cs : List Char} (word : isKeyChar c = true) :
      Follows column (c :: cs)

end LockDiscipline.Yaml
