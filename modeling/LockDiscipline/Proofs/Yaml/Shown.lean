import LockDiscipline.Proofs.Yaml.LiteralText
import LockDiscipline.Proofs.Yaml.QuotedText

namespace LockDiscipline.Yaml

variable {c d : Char} {cs pad : List Char}

theorem mem_indentLines {atStart : Bool} (h : c ∈ indentLines pad atStart cs) :
    c ∈ pad ∨ c ∈ cs := by
  induction cs generalizing atStart with
  | nil => cases h
  | cons d cs ih =>
    rw [indentLines] at h
    split at h
    · rcases List.mem_cons.1 h with rfl | h
      · exact Or.inr (List.mem_cons_self ..)
      · exact (ih h).imp_right (List.mem_cons_of_mem d)
    · rcases List.mem_append.1 h with h | h
      · cases atStart with
        | true => exact Or.inl h
        | false => cases h
      · rcases List.mem_cons.1 h with rfl | h
        · exact Or.inr (List.mem_cons_self ..)
        · exact (ih h).imp_right (List.mem_cons_of_mem d)

theorem isShown_of_hexValue {v : Nat} (h : Text.hexValue c = some v) : isShown c = true := by
  have hdigit : ∃ w, Text.digitValue c = some w := by
    cases hc : Text.digitValue c with
    | none => simp [Text.hexValue, Text.digitIn, hc] at h
    | some w => exact ⟨w, rfl⟩
  obtain ⟨w, hw⟩ := hdigit
  simp only [Text.digitValue, Bool.and_eq_true, decide_eq_true_eq, Char.le_def,
    UInt32.le_iff_toNat_le] at hw
  simp only [isShown, Bool.or_eq_true, Bool.and_eq_true, beq_iff_eq, bne_iff_ne, decide_eq_true_eq]
  rcases ite_eq_iff.1 hw with ⟨hr, -⟩ | ⟨-, hw⟩
  · change 48 ≤ c.toNat ∧ c.toNat ≤ 57 at hr
    omega
  rcases ite_eq_iff.1 hw with ⟨hr, -⟩ | ⟨-, hw⟩
  · change 97 ≤ c.toNat ∧ c.toNat ≤ 122 at hr
    omega
  rcases ite_eq_iff.1 hw with ⟨hr, -⟩ | ⟨-, hw⟩
  · change 65 ≤ c.toNat ∧ c.toNat ≤ 90 at hr
    omega
  cases hw

theorem isShown_of_appendDigits {n v : Nat} (h : Text.appendDigits 16 n cs = some v) :
    ∀ c ∈ cs, isShown c = true := by
  induction cs generalizing n with
  | nil =>
    intro c hc
    cases hc
  | cons d cs ih =>
    cases hd : Text.digitIn 16 d with
    | none => simp [Text.appendDigits, hd] at h
    | some w =>
      simp only [Text.appendDigits, hd] at h
      intro c hc
      rcases List.mem_cons.1 hc with rfl | hc
      · exact isShown_of_hexValue hd
      · exact ih h c hc

theorem isShown_of_mem_hexDigits {n value : Nat} (h : c ∈ hexDigits n value) : isShown c = true := by
  refine isShown_of_appendDigits (n := 0) (v := value) ?_ c h
  rw [hexDigits, Text.appendDigits_zeros (by decide)]
  exact Text.appendDigits_toDigits (by decide) Text.hexValue_toUpper value

theorem isShown_of_mem_escape (h : d ∈ escape c) : isShown d = true := by
  cases hletter : escapeLetter c with
  | some l =>
    simp only [escape, hletter, List.mem_cons, List.not_mem_nil, or_false] at h
    rcases h with rfl | rfl
    · decide
    · exact (of_escapeLetter hletter).2.2
  | none =>
    cases hshown : isShown c with
    | true =>
      simp only [escape, hletter, hshown, if_true, List.mem_singleton] at h
      rwa [h]
    | false =>
      obtain ⟨mark, n, -, -, -, hmark, -, -, hescape⟩ := escape_eq_code hletter hshown
      rw [hescape] at h
      rcases List.mem_cons.1 h with rfl | h
      · decide
      rcases List.mem_cons.1 h with rfl | h
      · exact hmark
      · exact isShown_of_mem_hexDigits h

theorem isShown_of_mem_writeSingle (hpad : ∀ c ∈ pad, isShown c = true)
    (hcs : ∀ c ∈ cs, isShown c = true) : ∀ c ∈ writeSingle pad cs, isShown c = true := by
  have hdoubled : ∀ c ∈ cs.flatMap doubled, isShown c = true := by
    intro c hc
    obtain ⟨d, hd, hc⟩ := List.mem_flatMap.1 hc
    obtain rfl : c = d := by
      unfold doubled at hc
      split at hc <;> simpa using hc
    exact hcs c hd
  intro c hc
  simp only [writeSingle, List.cons_append, List.mem_cons, List.mem_append, List.not_mem_nil,
    or_false] at hc
  rcases hc with rfl | (hc | hc) | rfl
  · decide
  · exact (mem_indentLines hc).elim (hpad c) (hdoubled c)
  · split at hc
    · exact hpad c hc
    · cases hc
  · decide

theorem isShown_of_mem_writeDouble : ∀ c ∈ writeDouble cs, isShown c = true := by
  intro c hc
  simp only [writeDouble, List.cons_append, List.mem_cons, List.mem_append, List.not_mem_nil,
    or_false] at hc
  rcases hc with rfl | hc | rfl
  · decide
  · obtain ⟨d, -, hc⟩ := List.mem_flatMap.1 hc
    exact isShown_of_mem_escape hc
  · decide

theorem isShown_of_mem_writeLiteral (hpad : ∀ c ∈ pad, isShown c = true)
    (hcs : ∀ c ∈ cs, isShown c = true) : ∀ c ∈ writeLiteral pad cs, isShown c = true := by
  have hmark : ∀ k : Chomping, k.mark.all isShown = true := by
    intro k
    cases k <;> decide
  intro c hc
  rw [writeLiteral, literalHeader_eq] at hc
  simp only [List.cons_append, List.mem_cons, List.mem_append] at hc
  rcases hc with rfl | (hc | hc) | rfl | hc
  · decide
  · split at hc
    · rw [List.eq_of_mem_singleton hc]
      decide
    · cases hc
  · exact List.all_eq_true.1 (hmark _) c hc
  · decide
  · exact (mem_indentLines hc).elim (hpad c) (hcs c)

/-- How a text is written, and why it may be. -/
theorem styleFor_cases (s : String) :
    (styleFor s = .literal ∧ s.toList ≠ [] ∧ ∀ c ∈ s.toList, isShown c = true) ∨
      (styleFor s = .plain ∧ resolvesToText s = true ∧ mayBePlain s.toList = true) ∨
      (styleFor s = .single ∧ '\n' ∉ s.toList ∧ mayBeSingle s.toList = true) ∨
      styleFor s = .double := by
  unfold styleFor
  dsimp only
  split
  · next hfeed =>
    split
    · next hliteral =>
      refine Or.inl ⟨rfl, ?_, ?_⟩
      · rintro hnil
        rw [hnil] at hfeed
        cases hfeed
      · simp only [mayBeLiteral, Bool.and_eq_true, List.all_eq_true] at hliteral
        exact hliteral.1.1
    · exact Or.inr (Or.inr (Or.inr rfl))
  · next hfeed =>
    split
    · next hplain => exact Or.inr (Or.inl ⟨rfl, Bool.and_eq_true_iff.1 hplain⟩)
    · split
      · next hsingle => exact Or.inr (Or.inr (Or.inl ⟨rfl, by simpa using hfeed, hsingle⟩))
      · exact Or.inr (Or.inr (Or.inr rfl))

theorem ne_nil_of_resolvesToText {s : String} (h : resolvesToText s = true) : s.toList ≠ [] := by
  intro hnil
  obtain rfl : s = "" := by rwa [String.toList_eq_nil_iff] at hnil
  exact absurd h (by decide)

/-- A text is shown in the style that it is written in. -/
theorem isShown_of_mem_writeText (hpad : ∀ c ∈ pad, isShown c = true) (s : String) :
    ∀ c ∈ writeText pad s, isShown c = true := by
  have hfeed (b : Bool) : (if b then ([] : List Char) else ['\n']).all isShown = true := by
    cases b <;> decide
  intro c hc
  rcases styleFor_cases s with ⟨hstyle, -, hshown⟩ | ⟨hstyle, -, hplain⟩ |
    ⟨hstyle, -, hsingle⟩ | hstyle
  · simp only [writeText, hstyle, List.mem_append] at hc
    exact hc.elim (isShown_of_mem_writeLiteral hpad hshown c) (List.all_eq_true.1 (hfeed _) c)
  · simp only [writeText, hstyle, List.mem_append] at hc
    simp only [mayBePlain, Bool.and_eq_true, List.all_eq_true] at hplain
    exact hc.elim (fun hc => (hplain.1.1.1.1 c hc).1) (List.all_eq_true.1 (hfeed false) c)
  · simp only [writeText, hstyle, List.mem_append] at hc
    simp only [mayBeSingle, Bool.and_eq_true, List.all_eq_true] at hsingle
    exact hc.elim (isShown_of_mem_writeSingle hpad hsingle.1.1 c) (List.all_eq_true.1 (hfeed false) c)
  · simp only [writeText, hstyle, List.mem_append] at hc
    exact hc.elim (isShown_of_mem_writeDouble c) (List.all_eq_true.1 (hfeed false) c)

end LockDiscipline.Yaml
