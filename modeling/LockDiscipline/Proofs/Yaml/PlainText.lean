import LockDiscipline.Proofs.Yaml.Characters
import LockDiscipline.Yaml.Plain

namespace LockDiscipline.Yaml

variable {cs tail rest : List Char} {c : Char} {i m : Nat} {p : Position}

/-- What the gap before the next character says about the character before it. -/
def Gap.Behind (x : Char) : Gap → Prop
  | none => True
  | blanks _ => x = ' '
  | breaks _ _ => False

theorem Gap.Behind.hasBreaks {x : Char} : ∀ {gap : Gap}, gap.Behind x → gap.hasBreaks = false
  | .none, _ => rfl
  | .blanks _, _ => rfl

theorem Gap.Behind.addBlank {x : Char} :
    ∀ {gap : Gap}, gap.Behind x → (gap.addBlank ' ').Behind ' '
  | .none, _ => rfl
  | .blanks _, _ => rfl

/-- What a text in which nothing ends early says about the second of its characters. -/
theorem endsEarly_cons_cons {x : Char} (h : endsEarly (x :: c :: cs) = false) :
    (c = ':' && atGap cs) = false ∧ (c = '#' && isGap x) = false ∧ endsEarly (c :: cs) = false := by
  rw [endsEarly.eq_2] at h
  simp only [Bool.or_eq_false_iff] at h
  exact ⟨h.1.1, h.1.2, h.2⟩

theorem isSpace_of_getLast?_tail (h : ∀ d ∈ (c :: cs).getLast?, isSpace d = false) :
    ∀ d ∈ cs.getLast?, isSpace d = false := by
  intro d hd
  have hne : cs ≠ [] := by
    rintro rfl
    cases hd
  exact h d (by rwa [List.getLast?_cons_of_ne_nil hne])

/-- Behind a gap that breaks no line, only a `#` behind a space ends the scalar. -/
theorem stays_inside {gap : Gap} {x : Char} (hgap : gap.Behind x) (hcolumn : i < p.column)
    (hhash : (c = '#' && isGap x) = false) (text : List Char) :
    ¬ (gap ≠ .none && ((!false && decide (p.column < i + 1)) ||
      (decide (p.column = 0) && documentMark text) || decide (c = '#'))) := by
  intro h
  simp only [Bool.and_eq_true, decide_eq_true_eq, Bool.or_eq_true, Bool.not_false,
    true_and] at h
  obtain ⟨hgap', (h | h) | h⟩ := h
  · omega
  · omega
  · subst h
    cases gap with
    | none => exact hgap' rfl
    | blanks text =>
      obtain rfl : x = ' ' := hgap
      exact absurd hhash (by decide)
    | breaks first more => exact hgap

/-- Where no character ends the scalar, all of them belong to it; `x` is the one before them. -/
theorem plainFrom_inside (gap : Gap) (done : List Char) (p : Position) (x : Char)
    (hgap : gap.Behind x) (hnone : cs = [] → gap = .none) (hcolumn : i < p.column)
    (hshown : ∀ c ∈ cs, isShown c = true ∧ isBreak c = false)
    (hlast : ∀ c ∈ cs.getLast?, isSpace c = false)
    (hends : endsEarly (x :: cs) = false) (tail : List Char) :
    plainFrom false (i + 1) gap done p (cs ++ '\n' :: tail) =
      plainFrom false (i + 1) .none ((gap.fold ++ cs).reverse ++ done) (cs.foldl .after p)
        ('\n' :: tail) := by
  induction cs generalizing gap done p x with
  | nil =>
    obtain rfl := hnone rfl
    rfl
  | cons c cs ih =>
    obtain ⟨hc, hbreak⟩ := hshown c (List.mem_cons_self ..)
    obtain ⟨hcolon, hhash, hmore⟩ := endsEarly_cons_cons hends
    have hnext := Position.lt_column_after hbreak hcolumn
    have hrest := fun d hd => hshown d (List.mem_cons_of_mem c hd)
    have hlater := isSpace_of_getLast?_tail hlast
    rw [List.cons_append, plainFrom.eq_2, isBlank_of_isShown hc, List.foldl_cons]
    by_cases hspace : isSpace c = true
    · obtain rfl : c = ' ' := by simpa [isSpace] using hspace
      have hne : cs ≠ [] := by
        rintro rfl
        exact absurd (hlast ' ' rfl) (by decide)
      rw [if_pos hspace, if_neg (by simp [hgap.hasBreaks]),
        ih _ done _ ' ' hgap.addBlank (fun h => absurd h hne) hnext hrest hlater hmore,
        Gap.fold_addBlank ' ' hgap.hasBreaks, List.append_assoc, List.singleton_append]
    · have hstay := stays_inside hgap hcolumn hhash (c :: (cs ++ '\n' :: tail))
      have hkeeps :
          ((c = ':' && atGap (cs ++ '\n' :: tail)) || (false && isFlowMark c)) = false := by
        rw [atGap_append_break, hcolon]
        rfl
      rw [if_neg hspace, hbreak, if_neg Bool.false_ne_true, if_neg hstay, if_neg (by simp), hkeeps,
        if_neg Bool.false_ne_true]
      rw [ih .none _ _ c trivial (fun _ => rfl) hnext hrest hlater hmore]
      simp [Gap.fold]

/-- Behind a line break a scalar ends where nothing follows, or a line that is not deep enough. -/
theorem plainFrom_outside (hrest : Follows m rest) (first : Option Char) (more done : List Char)
    (k : Nat) (p : Position) (hcolumn : p.column + k ≤ i) :
    plainFrom false (i + 1) (.breaks first more) done p (List.replicate k ' ' ++ rest) =
      some ⟨done.reverse, true, ⟨(List.replicate k ' ').foldl .after p, rest⟩⟩ := by
  induction k generalizing p with
  | zero =>
    cases hrest with
    | nothing => rfl
    | @key _ c cs hword =>
      obtain ⟨hblank, hbreak⟩ := isGap_of_isKeyChar hword
      have hends : p.column < i + 1 := by omega
      simp [plainFrom, hblank, hbreak, Gap.hasBreaks, hends]
  | succ k ih =>
    have hnext : (p.after ' ').column + k ≤ i := by
      rw [Position.after_of_not_break isBreak_space]
      dsimp only
      omega
    rw [List.replicate_succ, List.cons_append, plainFrom.eq_2, if_pos isBlank_space,
      if_neg (by simp), List.foldl_cons, ← ih _ hnext]
    rfl

/-- What makes a text that is not empty one that may be plain. -/
theorem of_mayBePlain (h : mayBePlain (c :: cs) = true) :
    (∀ d ∈ c :: cs, isShown d = true ∧ isBreak d = false) ∧ isSpace c = false ∧
      (∀ d ∈ (c :: cs).getLast?, isSpace d = false) ∧ leadsAstray (c :: cs) = false ∧
      endsEarly (c :: cs) = false := by
  simp only [mayBePlain, Bool.and_eq_true, Bool.not_eq_true', List.all_eq_true] at h
  obtain ⟨⟨⟨⟨hall, hhead⟩, hlast⟩, hstart⟩, hends⟩ := h
  refine ⟨hall, hhead, fun d hd => ?_, hstart, hends⟩
  rw [Option.mem_def] at hd
  simpa [hd] using hlast

/-- No mark of another token stands at the start of such a text. -/
theorem of_leadsAstray (h : leadsAstray (c :: cs) = false) :
    "#,[]\x7b\x7d&*!|>\x27\x22%@\x60".contains c = false ∧
      ("?:-".contains c && atGap cs) = false := by
  simp only [leadsAstray, Bool.or_eq_false_iff] at h
  exact h.2

/-- A text that may be plain is read to its end, and the lines after it up to what follows. -/
theorem plain_written (hne : cs ≠ []) (hplain : mayBePlain cs = true) (hcolumn : i < p.column)
    (hm : m ≤ i) (hrest : Follows m rest) :
    ∃ q, plain false (i + 1) ⟨p, cs ++ '\n' :: (List.replicate m ' ' ++ rest)⟩ =
      some ⟨cs, true, ⟨q, rest⟩⟩ ∧ q.column = m := by
  obtain ⟨c, cs, rfl⟩ := List.exists_cons_of_ne_nil hne
  obtain ⟨hshown, hhead, hlast, hstart, hends⟩ := of_mayBePlain hplain
  obtain ⟨hc, hbreak⟩ := hshown c (List.mem_cons_self ..)
  have hcolon : (c = ':' && atGap (cs ++ '\n' :: (List.replicate m ' ' ++ rest))) = false := by
    rw [atGap_append_break]
    have hmark := (of_leadsAstray hstart).2
    by_cases h : c = ':'
    · subst h
      simpa [String.contains_char_eq] using hmark
    · simp [h]
  have hlater := isSpace_of_getLast?_tail hlast
  have hnext := Position.lt_column_after hbreak hcolumn
  have hbehind : ((cs.foldl .after (p.after c)).after '\n').column + m ≤ i := by
    rw [Position.column_after_break (by decide)]
    omega
  refine ⟨(List.replicate m ' ').foldl .after ((cs.foldl .after (p.after c)).after '\n'), ?_,
    column_indented ..⟩
  rw [plain, List.cons_append, plainFrom.eq_2, isBlank_of_isShown hc, hhead, hbreak, hcolon]
  simp only [Bool.false_eq_true, if_false, ne_eq, not_true_eq_false, decide_false, Bool.false_and,
    Bool.or_false]
  rw [plainFrom_inside .none _ _ c trivial (fun _ => rfl) hnext
    (fun d hd => hshown d (List.mem_cons_of_mem c hd)) hlater hends, plainFrom.eq_2,
    if_neg (by decide), if_pos (by decide)]
  rw [show Gap.none.addBreak '\n' = .breaks (some '\n') [] from rfl,
    plainFrom_outside hrest _ _ _ m _ hbehind]
  simp [Gap.fold]

/-- A key holds nothing that ends it before its colon. -/
theorem plainFrom_key (hcs : ∀ c ∈ cs, isKeyChar c = true) (htail : atGap tail = true)
    (done : List Char) (p : Position) (indent : Nat) :
    plainFrom false indent .none done p (cs ++ ':' :: tail) =
      some ⟨done.reverse ++ cs, false, ⟨cs.foldl .after p, ':' :: tail⟩⟩ := by
  induction cs generalizing done p with
  | nil =>
    rw [List.nil_append, plainFrom.eq_2]
    simp [isBlank, isBreak, htail, Gap.hasBreaks]
  | cons c cs ih =>
    have hc := hcs c (List.mem_cons_self ..)
    obtain ⟨hblank, hbreak⟩ := isGap_of_isKeyChar hc
    have hcolon := ne_of_isKeyChar hc (d := ':') (by decide)
    rw [List.cons_append, plainFrom.eq_2, hblank, hbreak]
    simp only [Bool.false_eq_true, if_false, ne_eq, not_true_eq_false, decide_false, Bool.false_and,
      Bool.or_false, hcolon]
    rw [ih fun d hd => hcs d (List.mem_cons_of_mem c hd)]
    simp [Gap.fold]

/-- A key is read up to the colon behind it. -/
theorem plain_key (hcs : ∀ c ∈ cs, isKeyChar c = true) (htail : atGap tail = true) (indent : Nat) :
    plain false indent ⟨p, cs ++ ':' :: tail⟩ =
      some ⟨cs, false, ⟨cs.foldl .after p, ':' :: tail⟩⟩ :=
  plainFrom_key hcs htail [] p indent

end LockDiscipline.Yaml
