import Mathlib.Algebra.Group.Nat.Defs
import Mathlib.Logic.Basic
import LockDiscipline.Proofs.Text.Numerals
import LockDiscipline.Proofs.Yaml.Characters
import LockDiscipline.Yaml.Quoted

namespace LockDiscipline.Yaml

variable {quote c d : Char} {cs ds tail : List Char} {gap : Gap} {done : List Char} {p : Position}

theorem quotedFrom_space (quote : Char) (gap : Gap) (done : List Char) (p : Position)
    (cs : List Char) :
    quotedFrom quote .text gap done p (' ' :: cs) =
      quotedFrom quote .text (gap.addBlank ' ') done (p.after ' ') cs :=
  quotedFrom_blank isBlank_space quote gap done p cs

theorem quotedFrom_break (h : isBreak c = true) :
    quotedFrom quote .text gap done p (c :: cs) =
      quotedFrom quote .text (gap.addBreak c) done (p.after c) cs := by
  rw [quotedFrom.eq_2, isBlank_of_isBreak h, h, if_neg Bool.false_ne_true, if_pos rfl]

/-- A character that is neither a gap nor a mark stands for itself. -/
theorem quotedFrom_char (hblank : isBlank c = false) (hbreak : isBreak c = false)
    (hquote : c ≠ quote) (hescape : quote = '\x27' ∨ c ≠ '\\') (hcolumn : 0 < p.column) :
    quotedFrom quote .text gap done p (c :: cs) =
      quotedFrom quote .text .none (c :: (gap.fold.reverse ++ done)) (p.after c) cs := by
  have hstart : (decide (p.column = 0) && documentMark (c :: cs)) = false := by
    simp [Nat.ne_of_gt hcolumn]
  have hplain : ¬ (quote ≠ '\x27' && c = '\\') := by
    rcases hescape with rfl | hne
    · simp
    · simp [hne]
  rw [quotedFrom.eq_2, hblank, hbreak, hstart]
  simp only [Bool.false_eq_true, if_false, hquote, hplain]

/-- The quote ends the scalar unless another one follows. -/
theorem quotedFrom_close (hblank : isBlank quote = false) (hbreak : isBreak quote = false)
    (hcolumn : 0 < p.column) (hd : d ≠ quote) :
    quotedFrom quote .text gap done p (quote :: d :: tail) =
      some (done.reverse ++ gap.fold, ⟨p.after quote, d :: tail⟩) := by
  have hstart : (decide (p.column = 0) && documentMark (quote :: d :: tail)) = false := by
    simp [Nat.ne_of_gt hcolumn]
  rw [quotedFrom.eq_2, hblank, hbreak, hstart]
  simp [hd]

theorem quotedFrom_backslash (hcolumn : 0 < p.column) :
    quotedFrom '\x22' .text gap done p ('\\' :: cs) =
      quotedFrom '\x22' .escaped .none (gap.fold.reverse ++ done) (p.after '\\') cs := by
  have hstart : (decide (p.column = 0) && documentMark ('\\' :: cs)) = false := by
    simp [Nat.ne_of_gt hcolumn]
  rw [quotedFrom.eq_2, hstart]
  rfl

/-- A letter of an escape is read for the character that it stands for. -/
theorem of_escapeLetter {l : Char} (h : escapeLetter c = some l) :
    unescape l = some c ∧ isBreak l = false ∧ isShown l = true := by
  unfold escapeLetter at h
  iterate 9
    rcases ite_eq_iff.1 h with ⟨rfl, ⟨⟩⟩ | ⟨-, h⟩
    · decide
  rcases ite_eq_iff.1 h with ⟨hc, ⟨⟩⟩ | ⟨-, h⟩
  · simp only [Bool.or_eq_true, decide_eq_true_eq] at hc
    rcases hc with rfl | rfl <;> decide
  iterate 3
    rcases ite_eq_iff.1 h with ⟨rfl, ⟨⟩⟩ | ⟨-, h⟩
    · decide
  cases h

/-- Where a character that is shown has no letter, it is no mark and no gap but a space. -/
theorem of_escapeLetter_eq_none (h : escapeLetter c = none) (hshown : isShown c = true) :
    c ≠ '\x22' ∧ c ≠ '\\' ∧ isBreak c = false ∧ isBlank c = isSpace c := by
  have hne : ∀ d, escapeLetter d ≠ none → c ≠ d := by
    rintro d hd rfl
    exact hd h
  refine ⟨hne _ (by decide), hne _ (by decide), ?_, isBlank_of_isShown hshown⟩
  simp [isBreak, hne '\n' (by decide), hne '\u2028' (by decide), hne '\u2029' (by decide)]

/-- A character that is not shown and has no letter is written by its number. -/
theorem escape_eq_code (hletter : escapeLetter c = none) (hshown : isShown c = false) :
    ∃ mark n, unescape mark = none ∧ codeLength mark = some n ∧ isBreak mark = false ∧
      isShown mark = true ∧ 0 < n ∧ c.toNat < 16 ^ n ∧
      escape c = '\\' :: mark :: hexDigits n c.toNat := by
  have hescape : escape c = if c.toNat ≤ 0xFF then '\\' :: 'x' :: hexDigits 2 c.toNat
      else if c.toNat ≤ 0xFFFF then '\\' :: 'u' :: hexDigits 4 c.toNat
      else '\\' :: 'U' :: hexDigits 8 c.toNat := by
    simp [escape, hletter, hshown]
  rw [hescape]
  split
  · next h => exact ⟨'x', 2, by decide, by decide, by decide, by decide, by decide, by omega, rfl⟩
  split
  · next h => exact ⟨'u', 4, by decide, by decide, by decide, by decide, by decide, by omega, rfl⟩
  · have hlt : c.toNat < 16 ^ 8 := c.val.toNat_lt
    exact ⟨'U', 8, by decide, by decide, by decide, by decide, by decide, hlt, rfl⟩

theorem isBreak_of_hexValue {v : Nat} (h : Text.hexValue c = some v) : isBreak c = false := by
  have hne : ∀ d, Text.hexValue d = none → c ≠ d := by
    rintro d hd rfl
    rw [hd] at h
    cases h
  simp [isBreak, hne '\n' (by decide), hne '\u2028' (by decide), hne '\u2029' (by decide)]

theorem charOf_toNat (c : Char) : charOf c.toNat = some c := by
  have hvalid : c.toNat.isValidChar := c.valid
  rw [charOf, if_pos hvalid, Char.ofNat_toNat]

/-- The digits of an escape by number are read for the character with the number. -/
theorem quotedFrom_code (quote : Char) (done tail : List Char) (hne : ds ≠ []) {value : Nat}
    (h : Text.appendDigits 16 value ds = some c.toNat) (hcolumn : 0 < p.column) :
    ∃ q, 0 < q.column ∧ quotedFrom quote (.code ds.length value) .none done p (ds ++ tail) =
      quotedFrom quote .text .none (c :: done) q tail := by
  induction ds generalizing value p with
  | nil => exact absurd rfl hne
  | cons d ds ih =>
    cases hd : Text.digitIn 16 d with
    | none => simp [Text.appendDigits, hd] at h
    | some v =>
      simp only [Text.appendDigits, hd] at h
      have hbreak := isBreak_of_hexValue (c := d) hd
      have hnext := Position.column_after_pos hbreak p
      rw [List.cons_append, List.length_cons, quotedFrom.eq_4]
      simp only [Text.hexValue, hd, Nat.add_one_sub_one]
      cases ds with
      | nil =>
        obtain hc : value * 16 + v = c.toNat := Option.some.inj h
        exact ⟨p.after d, hnext, by simp [hc, charOf_toNat]⟩
      | cons e es =>
        obtain ⟨q, hq, hread⟩ := ih (List.cons_ne_nil e es) h hnext
        exact ⟨q, hq, by rw [if_neg (by simp), hread]⟩

theorem appendDigits_hexDigits {n value : Nat} (h : value < 16 ^ n) (hn : 0 < n) :
    (hexDigits n value).length = n ∧ Text.appendDigits 16 0 (hexDigits n value) = some value := by
  have hlength : ((Nat.toDigits 16 value).map Char.toUpper).length ≤ n := by
    rw [List.length_map]
    exact (Nat.length_toDigits_le_iff (by decide) hn).2 h
  refine ⟨?_, ?_⟩
  · simp only [hexDigits, List.length_append, List.length_replicate]
    omega
  · rw [hexDigits, Text.appendDigits_zeros (by decide)]
    exact Text.appendDigits_toDigits (by decide) Text.hexValue_toUpper value

/-- An escape by number is read for the character with the number. -/
theorem quotedFrom_number {mark : Char} {n : Nat} (hmark : unescape mark = none)
    (hlength : codeLength mark = some n) (hbreak : isBreak mark = false) (hn : 0 < n)
    (h : c.toNat < 16 ^ n) (hcolumn : 0 < p.column) (gap : Gap) (done tail : List Char) :
    ∃ q, 0 < q.column ∧
      quotedFrom '\x22' .text gap done p ('\\' :: mark :: hexDigits n c.toNat ++ tail) =
        quotedFrom '\x22' .text .none (c :: (gap.fold.reverse ++ done)) q tail := by
  obtain ⟨hdigits, hvalue⟩ := appendDigits_hexDigits h hn
  have hne : hexDigits n c.toNat ≠ [] := by
    intro hnil
    rw [hnil] at hdigits
    exact absurd hdigits (Nat.ne_of_lt hn)
  obtain ⟨q, hq, hread⟩ := quotedFrom_code '\x22' (gap.fold.reverse ++ done) tail hne hvalue
    (Position.column_after_pos hbreak (p.after '\\'))
  rw [hdigits] at hread
  refine ⟨q, hq, ?_⟩
  rw [← hread, List.cons_append, List.cons_append, quotedFrom_backslash hcolumn, quotedFrom.eq_3,
    hbreak, if_neg Bool.false_ne_true, hmark, hlength]

/-- What is written for a character between double quotes is read as the character. -/
theorem quotedFrom_escape (c : Char) (hgap : gap.hasBreaks = false) (hcolumn : 0 < p.column)
    (done tail : List Char) :
    ∃ gap' done' q, gap'.hasBreaks = false ∧ 0 < q.column ∧
      done'.reverse ++ gap'.fold = done.reverse ++ gap.fold ++ [c] ∧
      quotedFrom '\x22' .text gap done p (escape c ++ tail) =
        quotedFrom '\x22' .text gap' done' q tail := by
  have hread : (c :: (gap.fold.reverse ++ done)).reverse ++ Gap.none.fold =
      done.reverse ++ gap.fold ++ [c] := by simp [Gap.fold]
  cases hletter : escapeLetter c with
  | some l =>
    obtain ⟨hl, hbreak, -⟩ := of_escapeLetter hletter
    refine ⟨.none, _, (p.after '\\').after l, rfl, Position.column_after_pos hbreak _, hread, ?_⟩
    rw [escape, hletter]
    change quotedFrom '\x22' .text gap done p ('\\' :: l :: tail) = _
    rw [quotedFrom_backslash hcolumn, quotedFrom.eq_3, hbreak, if_neg Bool.false_ne_true, hl]
  | none =>
    by_cases hshown : isShown c = true
    · obtain ⟨hquote, hback, hbreak, hblank⟩ := of_escapeLetter_eq_none hletter hshown
      have hnext := Position.column_after_pos hbreak p
      have hself : escape c = [c] := by simp [escape, hletter, hshown]
      rw [hself, List.singleton_append]
      by_cases hspace : c = ' '
      · subst hspace
        refine ⟨gap.addBlank ' ', done, p.after ' ', ?_, hnext, ?_, quotedFrom_space ..⟩
        · rw [Gap.hasBreaks_addBlank, hgap]
        · rw [Gap.fold_addBlank _ hgap, List.append_assoc]
      · have hplain : isBlank c = false := by simp [hblank, isSpace, hspace]
        exact ⟨.none, _, p.after c, rfl, hnext, hread,
          quotedFrom_char hplain hbreak hquote (Or.inr hback) hcolumn⟩
    · obtain ⟨mark, n, hmark, hlength, hbreak, -, hn, hlt, hescape⟩ :=
        escape_eq_code hletter (by simpa using hshown)
      obtain ⟨q, hq, hnumber⟩ :=
        quotedFrom_number hmark hlength hbreak hn hlt hcolumn gap done tail
      exact ⟨.none, _, q, rfl, hq, hread, by rw [hescape, hnumber]⟩

theorem quotedFrom_escapes (cs : List Char) (gap : Gap) (hgap : gap.hasBreaks = false)
    (hcolumn : 0 < p.column) (done tail : List Char) (hd : d ≠ '\x22') :
    ∃ q, quotedFrom '\x22' .text gap done p (cs.flatMap escape ++ '\x22' :: d :: tail) =
      some (done.reverse ++ gap.fold ++ cs, ⟨q, d :: tail⟩) := by
  induction cs generalizing gap done p with
  | nil =>
    refine ⟨p.after '\x22', ?_⟩
    rw [List.flatMap_nil, List.nil_append, quotedFrom_close (by decide) (by decide) hcolumn hd,
      List.append_nil]
  | cons c cs ih =>
    obtain ⟨gap', done', p', hgap', hcolumn', htext, hstep⟩ :=
      quotedFrom_escape c hgap hcolumn done (cs.flatMap escape ++ '\x22' :: d :: tail)
    obtain ⟨q, hrest⟩ := ih gap' hgap' hcolumn' done'
    refine ⟨q, ?_⟩
    rw [List.flatMap_cons, List.append_assoc, hstep, hrest, htext, List.append_assoc _ [c],
      List.singleton_append]

/-- What is written between double quotes is read back. -/
theorem quoted_double (cs tail : List Char) (p : Position) (hd : d ≠ '\x22') :
    ∃ q, quoted ⟨p, writeDouble cs ++ d :: tail⟩ = some (cs, ⟨q, d :: tail⟩) := by
  obtain ⟨q, hread⟩ := quotedFrom_escapes cs .none rfl
    (Position.column_after_pos (c := '\x22') (by decide) p) [] tail hd
  refine ⟨q, ?_⟩
  have hwritten : writeDouble cs ++ d :: tail =
      '\x22' :: (cs.flatMap escape ++ '\x22' :: d :: tail) := by simp [writeDouble]
  rw [hwritten, quoted]
  exact hread

/-- What the gap before the next character says about the character before it, where no line feed
stands. -/
def Gap.Kept (x : Char) : Gap → Prop
  | none => isBreak x = false
  | blanks _ => x = ' '
  | breaks first _ => isBreak x = true ∧ ∃ b, first = some b ∧ b ≠ '\n'

namespace Gap.Kept

variable {x : Char}

theorem hasBreaks_eq : ∀ {gap : Gap}, gap.Kept x → gap.hasBreaks = isBreak x
  | .none, h => h.symm
  | .blanks _, h => by
    obtain rfl : x = ' ' := h
    rfl
  | .breaks _ _, h => h.1.symm

/-- A line break that is no line feed, and not behind a space, is kept. -/
theorem addBreak (hc : isBreak c = true) (hfeed : c ≠ '\n') (hspace : isSpace x = false) :
    ∀ {gap : Gap}, gap.Kept x →
      (gap.addBreak c).Kept c ∧ (gap.addBreak c).fold = gap.fold ++ [c]
  | .none, _ => ⟨⟨hc, c, rfl, hfeed⟩, Gap.fold_breaks hfeed []⟩
  | .blanks _, h => by
    obtain rfl : x = ' ' := h
    cases hspace
  | .breaks first more, h => by
    obtain ⟨-, b, rfl, hb⟩ := h
    refine ⟨⟨hc, b, rfl, hb⟩, ?_⟩
    rw [Gap.addBreak, Gap.fold_breaks hb, Gap.fold_breaks hb]
    rfl

theorem addBlank (hbreak : isBreak x = false) :
    ∀ {gap : Gap}, gap.Kept x → (gap.addBlank ' ').Kept ' '
  | .none, _ => rfl
  | .blanks _, _ => rfl
  | .breaks _ _, h => by
    rw [h.1] at hbreak
    cases hbreak

end Gap.Kept

/-- The indentation of a line is passed over. -/
theorem quotedFrom_indentation (quote : Char) (hgap : gap.hasBreaks = true) (done cs : List Char)
    (k : Nat) (p : Position) :
    quotedFrom quote .text gap done p (List.replicate k ' ' ++ cs) =
      quotedFrom quote .text gap done ((List.replicate k ' ').foldl .after p) cs := by
  induction k generalizing p with
  | zero => rfl
  | succ k ih =>
    have hsame : gap.addBlank ' ' = gap := by
      cases gap with
      | breaks first more => rfl
      | _ => cases hgap
    rw [List.replicate_succ, List.cons_append, quotedFrom_space, hsame, ih, List.foldl_cons]

/-- A line is reached through its indentation, if it is not the first. -/
theorem quotedFrom_line {x : Char} {k : Nat} (quote : Char) (hgap : gap.Kept x)
    (hcolumn : isBreak x = false → 0 < p.column) (hk : 0 < k) (done cs : List Char) :
    ∃ q, 0 < q.column ∧
      quotedFrom quote .text gap done p
          ((if isBreak x then List.replicate k ' ' else []) ++ cs) =
        quotedFrom quote .text gap done q cs := by
  cases hx : isBreak x with
  | false => exact ⟨p, hcolumn hx, rfl⟩
  | true =>
    refine ⟨(List.replicate k ' ').foldl .after p, ?_, ?_⟩
    · rw [(foldl_after (fun c hc => by rw [List.eq_of_mem_replicate hc]; decide) p).2,
        List.length_replicate]
      omega
    · rw [if_pos rfl, quotedFrom_indentation quote (hgap.hasBreaks_eq.trans hx)]

/-- What is written for a character between single quotes: a quote is doubled. -/
def doubled (c : Char) : List Char := if c = '\x27' then [c, c] else [c]

/-- A character that breaks no line is read as itself. -/
theorem quotedFrom_doubled {x : Char} (hgap : gap.Kept x) (hshown : isShown c = true)
    (hbreak : isBreak c = false) (hspace : isBreak x = true → isSpace c = false)
    (hcolumn : 0 < p.column) (done tail : List Char) :
    ∃ gap' done' q, gap'.Kept c ∧ 0 < q.column ∧
      done'.reverse ++ gap'.fold = done.reverse ++ gap.fold ++ [c] ∧
      quotedFrom '\x27' .text gap done p (doubled c ++ tail) =
        quotedFrom '\x27' .text gap' done' q tail := by
  have hread : (c :: (gap.fold.reverse ++ done)).reverse ++ Gap.none.fold =
      done.reverse ++ gap.fold ++ [c] := by simp [Gap.fold]
  have hnext := Position.column_after_pos hbreak p
  by_cases hquote : c = '\x27'
  · subst hquote
    have hstart (cs : List Char) : (decide (p.column = 0) && documentMark cs) = false := by
      simp [Nat.ne_of_gt hcolumn]
    refine ⟨.none, _, p.along 2, hbreak, by simp [Position.along], hread, ?_⟩
    change quotedFrom '\x27' .text gap done p ('\x27' :: '\x27' :: tail) = _
    rw [quotedFrom.eq_2, hstart]
    rfl
  · have hself : doubled c = [c] := by simp [doubled, hquote]
    rw [hself, List.singleton_append]
    by_cases hblank : c = ' '
    · subst hblank
      have hx : isBreak x = false := by
        cases h : isBreak x with
        | false => rfl
        | true => exact absurd (hspace h) (by decide)
      refine ⟨gap.addBlank ' ', done, p.after ' ', hgap.addBlank hx, hnext, ?_,
        quotedFrom_space ..⟩
      rw [Gap.fold_addBlank _ (hgap.hasBreaks_eq.trans hx), List.append_assoc]
    · have hplain : isBlank c = false := by
        rw [isBlank_of_isShown hshown]
        simp [isSpace, hblank]
      exact ⟨.none, _, p.after c, hbreak, hnext, hread,
        quotedFrom_char hplain hbreak hquote (Or.inl rfl) hcolumn⟩

theorem indentLines_doubled (pad cs : List Char) (atStart : Bool) (h : isBreak c = false) :
    indentLines pad atStart (doubled c ++ cs) =
      (if atStart then pad else []) ++ (doubled c ++ indentLines pad false cs) := by
  unfold doubled
  split <;> cases atStart <;> simp [indentLines, h]

/-- The text between single quotes is read to the quote behind it; `x` is the character before. -/
theorem quotedFrom_indentLines {k : Nat} (hk : 0 < k) (hd : d ≠ '\x27') (tail : List Char)
    (gap : Gap) (x : Char) (done : List Char) (p : Position) (hgap : gap.Kept x)
    (hcolumn : isBreak x = false → 0 < p.column)
    (hshown : ∀ c ∈ cs, isShown c = true ∧ c ≠ '\n')
    (hspace : adjacent isSpace isBreak (x :: cs) = false)
    (hbreak : adjacent isBreak isSpace (x :: cs) = false) :
    ∃ q, quotedFrom '\x27' .text gap done p
        (indentLines (List.replicate k ' ') (isBreak x) (cs.flatMap doubled) ++
          ((if (x :: cs).getLast?.any isBreak then List.replicate k ' ' else []) ++
            '\x27' :: d :: tail)) =
      some (done.reverse ++ gap.fold ++ cs, ⟨q, d :: tail⟩) := by
  induction cs generalizing gap x done p with
  | nil =>
    obtain ⟨q, hq, hline⟩ := quotedFrom_line '\x27' hgap hcolumn hk done ('\x27' :: d :: tail)
    refine ⟨q.after '\x27', ?_⟩
    change quotedFrom '\x27' .text gap done p
      ((if isBreak x then List.replicate k ' ' else []) ++ '\x27' :: d :: tail) = _
    rw [hline, quotedFrom_close (by decide) (by decide) hq hd, List.append_nil]
  | cons c cs ih =>
    obtain ⟨hc, hfeed⟩ := hshown c (List.mem_cons_self ..)
    have hrest := fun e he => hshown e (List.mem_cons_of_mem c he)
    simp only [adjacent, Bool.or_eq_false_iff] at hspace hbreak
    obtain ⟨hspace, hspaces⟩ := hspace
    obtain ⟨hbreak, hbreaks⟩ := hbreak
    rw [List.getLast?_cons_cons, List.flatMap_cons]
    by_cases hstop : isBreak c = true
    · have hself : doubled c = [c] := if_neg (by rintro rfl; exact absurd hstop (by decide))
      have hx : isSpace x = false := by simpa [hstop] using hspace
      obtain ⟨hkept, hfold⟩ := hgap.addBreak hstop hfeed hx
      obtain ⟨q, hread⟩ := ih (gap.addBreak c) c done (p.after c) hkept
        (fun h => absurd (hstop.symm.trans h) (by decide)) hrest hspaces hbreaks
      rw [hstop] at hread
      refine ⟨q, ?_⟩
      rw [hself, List.singleton_append, indentLines, if_pos hstop, List.cons_append,
        quotedFrom_break hstop, hread, hfold, ← List.append_assoc, List.append_assoc _ [c],
        List.singleton_append]
    · have hinside : isBreak c = false := by simpa using hstop
      have hx : isBreak x = true → isSpace c = false := fun h => by simpa [h] using hbreak
      rw [indentLines_doubled _ _ _ hinside, List.append_assoc, List.append_assoc]
      obtain ⟨q₁, hq₁, hline⟩ := quotedFrom_line '\x27' hgap hcolumn hk done _
      rw [hline]
      obtain ⟨gap', done', q₂, hgap', hq₂, htext, hstep⟩ :=
        quotedFrom_doubled hgap hc hinside hx hq₁ done _
      obtain ⟨q, hread⟩ := ih gap' c done' q₂ hgap' (fun _ => hq₂) hrest hspaces hbreaks
      rw [hinside] at hread
      exact ⟨q, by rw [hstep, hread, htext, List.append_assoc _ [c], List.singleton_append]⟩

/-- What is written between single quotes is read back. -/
theorem quoted_single {k : Nat} (hk : 0 < k) (hsingle : mayBeSingle cs = true)
    (hfeed : '\n' ∉ cs) (tail : List Char) (p : Position) (hd : d ≠ '\x27') :
    ∃ q, quoted ⟨p, writeSingle (List.replicate k ' ') cs ++ d :: tail⟩ =
      some (cs, ⟨q, d :: tail⟩) := by
  simp only [mayBeSingle, Bool.and_eq_true, Bool.not_eq_true', List.all_eq_true] at hsingle
  obtain ⟨⟨hshown, hspace⟩, hbreak⟩ := hsingle
  have hshown' : ∀ c ∈ cs, isShown c = true ∧ c ≠ '\n' := fun c hc =>
    ⟨hshown c hc, fun h => hfeed (h ▸ hc)⟩
  have hpast (p q : Char → Bool) (hp : p '\x27' = false) (h : adjacent p q cs = false) :
      adjacent p q ('\x27' :: cs) = false := by
    cases cs with
    | nil => rfl
    | cons c cs => simpa [adjacent, hp] using h
  obtain ⟨q, hread⟩ := quotedFrom_indentLines hk hd tail .none '\x27' [] (p.after '\x27')
    (show isBreak '\x27' = false by decide)
    (fun _ => Position.column_after_pos (by decide) p) hshown'
    (hpast _ _ (by decide) hspace) (hpast _ _ (by decide) hbreak)
  refine ⟨q, ?_⟩
  have hlast : ('\x27' :: cs).getLast?.any isBreak = cs.getLast?.any isBreak := by
    cases cs with
    | nil => rfl
    | cons c cs => rw [List.getLast?_cons_cons]
  rw [hlast] at hread
  simp only [writeSingle, List.cons_append, List.append_assoc, List.nil_append, quoted]
  exact hread

end LockDiscipline.Yaml
