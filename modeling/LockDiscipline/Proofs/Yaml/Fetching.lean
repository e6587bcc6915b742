import Mathlib.Logic.Relation
import LockDiscipline.Proofs.Yaml.PlainText
import LockDiscipline.Proofs.Yaml.Shown
import LockDiscipline.Yaml.Tokens

namespace LockDiscipline.Yaml

variable {c : Char} {cs tail rest : List Char} {p : Position} {m column : Nat} {ts : List Token}
  {is : List Nat}

namespace Lexer

/-- One token more, from a state in which no open key has expired. -/
structure Step (l next : Lexer) : Prop where
  fresh : l.closeExpired = some l
  unended : l.tokens.back? ≠ some .streamEnd
  fetched : l.fetch = some next
  shorter : next.cursor.rest.length < l.cursor.rest.length

abbrev Reaches : Lexer → Lexer → Prop := Relation.ReflTransGen Step

theorem run_step {l next : Lexer} (h : l.Step next) (fuel given : Nat) :
    run (fuel + 1) given l = run fuel l.settled next := by
  simp [run, h.fresh, h.unended, h.fetched]

/-- What lies on the way to a state does not change the tokens, as long as the fuel lasts. -/
theorem run_reaches {l next : Lexer} (h : l.Reaches next) (fuel given : Nat)
    (hfuel : l.cursor.rest.length + 1 < fuel) :
    ∃ fuel' given', next.cursor.rest.length + 1 < fuel' ∧
      run fuel given l = run fuel' given' next := by
  induction h using Relation.ReflTransGen.head_induction_on generalizing fuel given with
  | refl => exact ⟨fuel, given, hfuel, rfl⟩
  | @head l mid hstep _ ih =>
    obtain ⟨fuel, rfl⟩ := Nat.exists_eq_succ_of_ne_zero (Nat.ne_of_gt (Nat.zero_lt_of_lt hfuel))
    have hless := hstep.shorter
    rw [Nat.succ_eq_add_one, run_step hstep]
    exact ih _ _ (by omega)

/-- A character at which a token starts. -/
structure Starts (c : Char) : Prop where
  unbroken : isBreak c = false
  filled : isBlank c = false
  spoken : c ≠ '#'
  marked : c ≠ '\ufeff'

theorem starts_of_isKeyChar (h : isKeyChar c = true) : Starts c := by
  obtain ⟨hblank, hbreak⟩ := isGap_of_isKeyChar h
  exact ⟨hbreak, hblank, ne_of_isKeyChar h (by decide), ne_of_isKeyChar h (by decide)⟩

theorem skipFrom_starts (h : Starts c) (flow allowed : Bool) (p : Position) (cs : List Char) :
    skipFrom flow false allowed p (c :: cs) = (allowed, ⟨p, c :: cs⟩) := by
  obtain ⟨hbreak, hblank, hcomment, hmark⟩ := h
  simp only [isBlank, Bool.or_eq_false_iff, decide_eq_false_iff_not] at hblank
  simp [skipFrom, hbreak, hcomment, hmark, hblank]

theorem skipFrom_spaces (flow allowed : Bool) (n : Nat) (p : Position) (cs : List Char) :
    skipFrom flow false allowed p (List.replicate n ' ' ++ cs) =
      skipFrom flow false allowed ((List.replicate n ' ').foldl .after p) cs := by
  induction n generalizing p with
  | zero => rfl
  | succ n ih =>
    rw [List.replicate_succ, List.cons_append, skipFrom.eq_2, if_neg (by decide),
      if_neg (by decide), if_pos (by simp), List.foldl_cons, ih]

theorem skipFrom_follows (h : Follows m rest) (flow allowed : Bool) (p : Position) :
    skipFrom flow false allowed p rest = (allowed, ⟨p, rest⟩) := by
  cases h with
  | nothing => rfl
  | key hword => exact skipFrom_starts (starts_of_isKeyChar hword) ..

/-- From the end of a line the next token is where the next line starts. -/
theorem skipFrom_newline (h : Follows m rest) (allowed : Bool) (p : Position) :
    ∃ q, q.column = m ∧
      skipFrom false false allowed p ('\n' :: (List.replicate m ' ' ++ rest)) =
        (true, ⟨q, rest⟩) := by
  refine ⟨_, column_indented m p, ?_⟩
  rw [skipFrom.eq_2, if_pos (by decide), Bool.not_false, Bool.or_true, skipFrom_spaces,
    skipFrom_follows h]

/-- The state at the next token, where the blocks that are indented deeper have ended. -/
def ready (l : Lexer) : Lexer := l.skipGap.dedent l.skipGap.column

theorem dedentFrom_indents (column : Nat) (is js : List Nat) (l : Lexer) :
    dedentFrom column is { l with indents := js } = dedentFrom column is l := by
  induction is generalizing l with
  | nil => rfl
  | cons i is ih =>
    unfold dedentFrom
    split
    · exact ih (l.emit .blockEnd)
    · rfl

theorem dedentFrom_of_le (h : ∀ i ∈ is.head?, i ≤ column) (l : Lexer) :
    dedentFrom column is l = { l with indents := is } := by
  cases is with
  | nil => rfl
  | cons i is =>
    have hle : ¬ column < i := Nat.not_lt.2 (h i rfl)
    rw [dedentFrom, if_neg hle]

/-- The text has been cut into `ts` up to what stands at the column, apart from the ends of those of
the blocks `is` that are indented deeper. -/
structure At (l : Lexer) (ts : List Token) (is : List Nat) (column : Nat) (rest : List Char) :
    Prop where
  openKey : l.openKey = none
  outer : l.outer = []
  unended : l.tokens.back? ≠ some .streamEnd
  ready : ∃ p : Position, p.column = column ∧
    l.ready = dedentFrom column is ⟨⟨p, rest⟩, ts.toArray, is, none, [], true⟩
  length_le : rest.length ≤ l.cursor.rest.length

/-- A block that is indented deeper ends. -/
theorem At.close {l : Lexer} {i : Nat} (h : l.At ts (i :: is) column rest) (hi : column < i) :
    l.At (ts ++ [.blockEnd]) is column rest := by
  obtain ⟨p, hp, hready⟩ := h.ready
  refine ⟨h.openKey, h.outer, h.unended, ⟨p, hp, ?_⟩, h.length_le⟩
  rw [hready, dedentFrom, if_pos hi, emit, ← dedentFrom_indents _ _ is]
  simp

/-- Where a block stands at the column or further left, nothing ends. -/
theorem At.ready_eq {l : Lexer} (h : l.At ts is column rest) (his : ∀ i ∈ is.head?, i ≤ column) :
    ∃ p : Position, p.column = column ∧
      l.ready = ⟨⟨p, rest⟩, ts.toArray, is, none, [], true⟩ := by
  obtain ⟨p, hp, hready⟩ := h.ready
  exact ⟨p, hp, by rw [hready, dedentFrom_of_le his]⟩

theorem closeExpired_of_none {l : Lexer} (hkey : l.openKey = none) (houter : l.outer = []) :
    l.closeExpired = some l := by
  obtain ⟨cursor, tokens, indents, openKey, outer, keyAllowed⟩ := l
  obtain rfl : openKey = none := hkey
  obtain rfl : outer = [] := houter
  rfl

/-- Without an open key, a token is fetched at the place where it stands. -/
theorem fetch_of_none {l : Lexer} (hkey : l.openKey = none) (houter : l.outer = []) :
    l.fetch = l.ready.fetchHere := by
  rw [fetch, closeExpired_of_none (l := l.skipGap) hkey houter]
  rfl

theorem At.step {l next : Lexer} (h : l.At ts is column rest)
    (hfetch : l.ready.fetchHere = some next) (hless : next.cursor.rest.length < rest.length) :
    l.Step next where
  fresh := closeExpired_of_none h.openKey h.outer
  unended := h.unended
  fetched := by rw [fetch_of_none h.openKey h.outer, hfetch]
  shorter := Nat.lt_of_lt_of_le hless h.length_le

theorem tripled_of_ne {mark : Char} (h : c ≠ mark) (cs : List Char) :
    tripled mark (c :: cs) = false := by
  match cs with
  | [] | [_] => rfl
  | _ :: _ :: _ => simp [tripled, h]

/-- A mark that needs a gap behind it to be one starts a plain scalar without. -/
theorem startsPlain_of (hstarts : Starts c)
    (hmarks : "#,[]\x7b\x7d&*!|>\x27\x22%@\x60".contains c = false)
    (hdash : ("?:-".contains c && atGap cs) = false) : startsPlain false (c :: cs) = true := by
  have hgap : isGap c = false := by simp [isGap, hstarts.filled, hstarts.unbroken]
  by_cases hmark : "?:-".contains c = true
  · rw [hmark, Bool.true_and] at hdash
    obtain ⟨d, ds, rfl⟩ : ∃ d ds, cs = d :: ds := by
      cases cs with
      | nil => cases hdash
      | cons d ds => exact ⟨d, ds, rfl⟩
    have hblank : isBlank d = false := (Bool.or_eq_false_iff.1 hdash).1
    rw [String.contains_char_eq, decide_eq_true_eq] at hmark
    have hcases : c = '?' ∨ c = ':' ∨ c = '-' := by simpa using hmark
    rcases hcases with rfl | rfl | rfl <;> simp [startsPlain, hdash, hblank]
  · have hindicator : isIndicator c = false := by
      have hcover : ("-?:,[]\x7b\x7d#&*!|>\x27\x22%@\x60".toList.all fun d =>
          d ∈ "#,[]\x7b\x7d&*!|>\x27\x22%@\x60".toList ∨ d ∈ "?:-".toList) = true := by decide
      rw [String.contains_char_eq, decide_eq_false_iff_not] at hmarks
      rw [Bool.not_eq_true, String.contains_char_eq, decide_eq_false_iff_not] at hmark
      rw [isIndicator, String.contains_char_eq, decide_eq_false_iff_not]
      intro hc
      exact (of_decide_eq_true (List.all_eq_true.1 hcover c hc)).elim hmarks hmark
    simp [startsPlain, hgap, hindicator]

/-- Nothing but a plain scalar starts with a character that is no mark. -/
theorem fetchHere_plain {l : Lexer} (houter : l.outer = []) (hrest : l.cursor.rest = c :: cs)
    (hstarts : Starts c) (hmarks : "#,[]\x7b\x7d&*!|>\x27\x22%@\x60".contains c = false)
    (hdash : ("?:-".contains c && atGap cs) = false)
    (hfirst : l.cursor.position.column = 0 → isKeyChar c = true) :
    l.fetchHere = l.fetchPlain := by
  have hflow : l.inFlow = false := by simp [inFlow, houter]
  have hne : ∀ d ∈ "#,[]\x7b\x7d&*!|>\x27\x22%@\x60".toList, c ≠ d := by
    rw [String.contains_char_eq, decide_eq_false_iff_not] at hmarks
    rintro d hd rfl
    exact hmarks hd
  have hmark : ∀ d ∈ "?:-".toList, (decide (c = d) && atGap cs) = false := by
    intro d hd
    by_cases hcd : c = d
    · subst hcd
      rw [String.contains_char_eq, decide_eq_true hd] at hdash
      simpa using hdash
    · simp [hcd]
  have hdocument : ∀ mark ∈ ['-', '.'],
      (decide (l.cursor.position.column = 0) && tripled mark (c :: cs)) = false := by
    intro mark hin
    by_cases hcolumn : l.cursor.position.column = 0
    · have hplain : isKeyChar mark = false := by
        rcases List.mem_cons.1 hin with rfl | hin
        · decide
        · rw [List.eq_of_mem_singleton hin]
          decide
      rw [tripled_of_ne (ne_of_isKeyChar (hfirst hcolumn) hplain), Bool.and_false]
    · simp [hcolumn]
  have hplain := startsPlain_of hstarts hmarks hdash
  simp only [fetchHere, hrest, hflow, hdocument '-' (by decide), hdocument '.' (by decide),
    hmark '-' (by decide), hmark '?' (by decide), hmark ':' (by decide), hne '%' (by decide),
    hne '[' (by decide), hne '\x7b' (by decide), hne ']' (by decide), hne '\x7d' (by decide),
    hne ',' (by decide),
    hne '*' (by decide), hne '&' (by decide), hne '!' (by decide), hne '|' (by decide),
    hne '>' (by decide), hne '\x27' (by decide), hne '\x22' (by decide), hplain,
    decide_false, Bool.and_false, Bool.false_or, Bool.false_and, Bool.false_eq_true, if_false,
    if_true]

/-- What a key at the column does to the blocks: it opens one, or stands in the innermost. -/
inductive Opens (column : Nat) : List Nat → List Nat → List Token → Prop where
  | opening {is : List Nat} (h : ∀ i ∈ is.head?, i < column) :
      Opens column is (column :: is) [.blockRecord]
  | standing {is : List Nat} : Opens column (column :: is) (column :: is) []

theorem Opens.head_le {js : List Nat} {o : List Token} (h : Opens column is js o) :
    ∀ i ∈ is.head?, i ≤ column := by
  cases h with
  | opening h => exact fun i hi => Nat.le_of_lt (h i hi)
  | standing =>
    intro i hi
    obtain rfl := Option.some.inj hi
    exact Nat.le_refl _

theorem insertIdx_length_append {α : Type} (xs ys : List α) (a : α) :
    (xs ++ ys).insertIdx xs.length a = xs ++ a :: ys := by
  induction xs with
  | nil => rfl
  | cons x xs ih => simpa using ih

/-- The state behind a key, which is open until its colon. -/
def atColon (key : String) (p : Position) (tail : List Char) (ts : List Token) (is : List Nat) :
    Lexer :=
  ⟨⟨key.toList.foldl .after p, ':' :: tail⟩, (ts ++ [Token.scalar key .plain]).toArray, is,
    some ⟨ts.length, p, is.head? == some p.column⟩, [], false⟩

/-- A key is read up to its colon. -/
theorem fetchPlain_key {key : String} (hkey : IsKey key) (htail : atGap tail = true) (p : Position)
    (ts : List Token) (is : List Nat) :
    fetchPlain ⟨⟨p, key.toList ++ ':' :: tail⟩, ts.toArray, is, none, [], true⟩ =
      some (atColon key p tail ts is) := by
  simp [atColon, fetchPlain, mark, closeKey, inFlow, Lexer.column, put, emit,
    plain_key hkey.word htail]

/-- The state where a value stands, behind the colon of its key. -/
def atValue (p : Position) (rest : List Char) (ts : List Token) (is : List Nat) : Lexer :=
  ⟨⟨p, rest⟩, ts.toArray, is, none, [], false⟩

/-- The colon makes a key of what stands before it. -/
theorem fetchValue_key {key : String} {js : List Nat} {o : List Token} (h : Opens p.column is js o)
    (tail : List Char) (ts : List Token) :
    fetchValue (atColon key p tail ts is) =
      some (atValue ((key.toList.foldl .after p).along 1) tail
        (ts ++ o ++ [.key, .scalar key .plain, .value]) js) := by
  unfold atColon atValue
  cases h with
  | opening h =>
    have hdeeper : is.head?.all (fun i => decide (i < p.column)) = true := by
      rw [Option.all_eq_true]
      exact fun i hi => decide_eq_true (h i hi)
    simp [fetchValue, indent, inFlow, hdeeper, take, emit, Cursor.skip,
      insertIdx_length_append]
  | standing =>
    simp [fetchValue, indent, inFlow, take, emit, Cursor.skip, insertIdx_length_append]

/-- At a mark that no gap precedes, a token is fetched as it stands. -/
theorem fetch_starts {l : Lexer} (hstarts : Starts c) (hrest : l.cursor.rest = c :: cs)
    (hfresh : l.closeExpired = some l) (houter : l.outer = [])
    (hdeep : ∀ i ∈ l.indents.head?, i ≤ l.column) : l.fetch = l.fetchHere := by
  have hflow : l.inFlow = false := by simp [inFlow, houter]
  have hskip : l.skipGap = l := by
    rw [skipGap, hrest, skipFrom_starts hstarts, ← hrest]
  have hdedent : l.dedent l.column = l := by
    rw [dedent, hflow, if_neg Bool.false_ne_true, dedentFrom_of_le hdeep]
  rw [fetch, hskip, hfresh]
  exact congrArg fetchHere hdedent

theorem fetchHere_colon {l : Lexer} (hrest : l.cursor.rest = ':' :: tail)
    (htail : atGap tail = true) (hcolumn : 0 < l.cursor.position.column) :
    l.fetchHere = l.fetchValue := by
  simp [fetchHere, hrest, htail, Nat.ne_of_gt hcolumn]

/-- A key is read together with the colon behind it. -/
theorem reaches_value {l : Lexer} {key : String} {js : List Nat} {o : List Token}
    (h : l.At ts is column (key.toList ++ ':' :: tail)) (hkey : IsKey key)
    (hopens : Opens column is js o) (htail : atGap tail = true) :
    ∃ p : Position, column < p.column ∧
      l.Reaches (atValue p tail (ts ++ o ++ [.key, .scalar key .plain, .value]) js) := by
  obtain ⟨p, rfl, hready⟩ := h.ready_eq hopens.head_le
  obtain ⟨c, cs, hcs⟩ := List.exists_cons_of_ne_nil hkey.ne_nil
  have hword : isKeyChar c = true := hkey.word c (by simp [hcs])
  have hplain := hkey.word
  obtain ⟨hline, hcolumn⟩ :=
    foldl_after (fun d hd => (isGap_of_isKeyChar (hplain d hd)).2) p
  have hoctets := octets_foldl_after
    (fun d hd => ⟨(isGap_of_isKeyChar (hplain d hd)).2, utf8Size_of_isKeyChar (hplain d hd)⟩) p
  have hlength : 0 < key.toList.length := List.length_pos_iff.2 hkey.ne_nil
  have hshort := hkey.short
  -- the key itself, which is no key yet
  have hfirst : l.Step (atColon key p tail ts is) := by
    refine h.step ?_ (by simp [atColon, hlength])
    rw [hready, ← fetchPlain_key hkey htail]
    exact fetchHere_plain rfl (by rw [hcs]; rfl) (starts_of_isKeyChar hword)
      (contains_eq_false (by decide) hword) (by rw [contains_eq_false (by decide) hword]; rfl)
      fun _ => hword
  -- the colon makes it one
  have hsecond : (atColon key p tail ts is).Step (atValue ((key.toList.foldl .after p).along 1) tail
      (ts ++ o ++ [.key, .scalar key .plain, .value]) js) := by
    have hopen : OpenKey.expired ⟨ts.length, p, is.head? == some p.column⟩
        (key.toList.foldl .after p) = false := by
      simp only [OpenKey.expired, hline, hoctets, Bool.or_eq_false_iff, decide_eq_false_iff_not]
      omega
    have hfresh : (atColon key p tail ts is).closeExpired = some (atColon key p tail ts is) := by
      simp [atColon, closeExpired, refresh, hopen]
    have hright : p.column < (atColon key p tail ts is).cursor.position.column := by
      simp only [atColon]
      omega
    refine ⟨hfresh, by simp [atColon], ?_, by simp [atColon, atValue]⟩
    rw [fetch_starts (c := ':') ⟨by decide, by decide, by decide, by decide⟩ rfl hfresh rfl,
      fetchHere_colon rfl htail (Nat.zero_lt_of_lt hright), fetchValue_key hopens]
    exact fun i hi => Nat.le_trans (hopens.head_le i hi) (Nat.le_of_lt hright)
  refine ⟨_, ?_, .head hfirst (.single hsecond)⟩
  simp only [Position.along]
  omega

/-- Behind the space after a colon, a token is fetched as it stands. -/
theorem fetch_atValue (hstarts : Starts c) (hcolumn : column < p.column) :
    (atValue p (' ' :: c :: cs) ts (column :: is)).fetch =
      (atValue (p.after ' ') (c :: cs) ts (column :: is)).fetchHere := by
  have hskip : (atValue p (' ' :: c :: cs) ts (column :: is)).skipGap =
      atValue (p.after ' ') (c :: cs) ts (column :: is) := by
    have hspace : skipFrom false false false p (' ' :: c :: cs) =
        (false, ⟨p.after ' ', c :: cs⟩) := by
      rw [← skipFrom_starts hstarts false false]
      exact skipFrom_spaces false false 1 p (c :: cs)
    simp only [skipGap, atValue, inFlow, List.isEmpty_nil, Bool.not_true, hspace]
  have hdeep : ∀ i ∈ (column :: is).head?, i ≤ (p.after ' ').column := by
    intro i hi
    obtain rfl := Option.some.inj hi
    rw [Position.after_of_not_break isBreak_space]
    exact Nat.le_succ_of_le (Nat.le_of_lt hcolumn)
  rw [fetch_of_none rfl rfl, ready, hskip]
  exact congrArg fetchHere (dedentFrom_of_le hdeep _)

/-- What stands behind a value, in the line that follows it. -/
theorem at_here (h : Follows m rest) (hcolumn : p.column = m)
    (hlast : ts.getLast? ≠ some .streamEnd) :
    At ⟨⟨p, rest⟩, ts.toArray, is, none, [], true⟩ ts is m rest where
  openKey := rfl
  outer := rfl
  unended := by simpa using hlast
  ready := by
    refine ⟨p, hcolumn, ?_⟩
    rw [ready, skipGap, skipFrom_follows h]
    simp only [dedent, inFlow, Lexer.column, hcolumn]
    rfl
  length_le := Nat.le_refl _

theorem at_newline (h : Follows m rest) (hlast : ts.getLast? ≠ some .streamEnd) :
    (atValue p ('\n' :: (List.replicate m ' ' ++ rest)) ts is).At ts is m rest where
  openKey := rfl
  outer := rfl
  unended := by simpa [atValue] using hlast
  ready := by
    obtain ⟨q, hq, hskip⟩ := skipFrom_newline h false p
    refine ⟨q, hq, ?_⟩
    rw [ready, skipGap]
    simp only [atValue, inFlow, List.isEmpty_nil, Bool.not_true, hskip, dedent, Lexer.column, hq]
    rfl
  length_le := by
    simp only [atValue, List.length_cons, List.length_append]
    omega

theorem step_atValue {next : Lexer} (hstarts : Starts c) (hcolumn : column < p.column)
    (hlast : ts.getLast? ≠ some .streamEnd)
    (hfetch : (atValue (p.after ' ') (c :: cs) ts (column :: is)).fetchHere = some next)
    (hless : next.cursor.rest.length < cs.length + 2) :
    (atValue p (' ' :: c :: cs) ts (column :: is)).Step next where
  fresh := rfl
  unended := by simpa [atValue] using hlast
  fetched := by rw [fetch_atValue hstarts hcolumn, hfetch]
  shorter := hless

/-- A scalar without quotes is read to the end of its line. -/
theorem reaches_plain {s : String} (hne : s.toList ≠ []) (hplain : mayBePlain s.toList = true)
    (hcolumn : column < p.column) (hlast : ts.getLast? ≠ some .streamEnd) (hm : m ≤ column)
    (hrest : Follows m rest) (is : List Nat) :
    ∃ l, (atValue p (' ' :: (s.toList ++ '\n' :: (List.replicate m ' ' ++ rest))) ts
        (column :: is)).Reaches l ∧ l.At (ts ++ [.scalar s .plain]) (column :: is) m rest := by
  have hnext := Position.lt_column_after isBreak_space hcolumn
  obtain ⟨q, hread, hq⟩ := plain_written (p := p.after ' ') hne hplain hnext hm hrest
  obtain ⟨c, cs, hcs⟩ := List.exists_cons_of_ne_nil hne
  have htext : String.ofList (c :: cs) = s := by rw [← hcs, String.ofList_toList]
  rw [hcs, List.cons_append] at hread ⊢
  rw [hcs] at hplain
  obtain ⟨hshown, hhead, -, hstart, -⟩ := of_mayBePlain hplain
  obtain ⟨hmarks, hdash⟩ := of_leadsAstray hstart
  obtain ⟨hc, hbreak⟩ := hshown c (List.mem_cons_self ..)
  have hstarts : Starts c := by
    refine ⟨hbreak, by rw [isBlank_of_isShown hc, hhead], ?_, ?_⟩
    · rintro rfl
      simp [String.contains_char_eq] at hmarks
    · rintro rfl
      exact absurd hc (by decide)
  have hfetch : (atValue (p.after ' ') (c :: (cs ++ '\n' :: (List.replicate m ' ' ++ rest))) ts
      (column :: is)).fetchHere =
      some ⟨⟨q, rest⟩, (ts ++ [Token.scalar s .plain]).toArray, column :: is, none, [], true⟩ := by
    rw [fetchHere_plain rfl rfl hstarts hmarks (by rwa [atGap_append_break])
      fun h => absurd h (Nat.ne_of_gt (Nat.zero_lt_of_lt hnext))]
    simp [fetchPlain, mark, atValue, inFlow, hread, put, emit, htext]
  refine ⟨_, .single (step_atValue hstarts hcolumn hlast hfetch ?_), at_here hrest hq ?_⟩
  · simp only [List.length_append, List.length_cons]
    omega
  · simp

/-- A scalar between quotes is read to its closing quote. -/
theorem reaches_quoted {text : List Char} {style : Style} {q : Position}
    (hcolumn : column < p.column) (hlast : ts.getLast? ≠ some .streamEnd) (hrest : Follows m rest)
    (is : List Nat) (hmark : c = '\x27' ∧ style = .single ∨ c = '\x22' ∧ style = .double)
    (hread : quoted ⟨p.after ' ', c :: cs⟩ =
      some (text, ⟨q, '\n' :: (List.replicate m ' ' ++ rest)⟩))
    (hless : ('\n' :: (List.replicate m ' ' ++ rest)).length < cs.length + 2) :
    ∃ l, (atValue p (' ' :: c :: cs) ts (column :: is)).Reaches l ∧
      l.At (ts ++ [.scalar (String.ofList text) style]) (column :: is) m rest := by
  have hnext : (p.after ' ').column ≠ 0 :=
    Nat.ne_of_gt (Position.column_after_pos isBreak_space p)
  have hstarts : Starts c := by
    rcases hmark with ⟨rfl, -⟩ | ⟨rfl, -⟩ <;> exact ⟨by decide, by decide, by decide, by decide⟩
  have hfetch : (atValue (p.after ' ') (c :: cs) ts (column :: is)).fetchHere =
      some (atValue q ('\n' :: (List.replicate m ' ' ++ rest))
        (ts ++ [.scalar (String.ofList text) style]) (column :: is)) := by
    rcases hmark with ⟨rfl, rfl⟩ | ⟨rfl, rfl⟩ <;>
      simp [fetchHere, fetchMarked, mark, atValue, inFlow, hnext, put, emit, hread]
  exact ⟨_, .single (step_atValue hstarts hcolumn hlast hfetch hless),
    at_newline hrest (by simp)⟩

/-- A block scalar is read to the end of its last line. -/
theorem reaches_literal {text : List Char} {q : Position} (hcolumn : column < p.column)
    (hlast : ts.getLast? ≠ some .streamEnd) (hrest : Follows m rest) (is : List Nat)
    (hread : block false (some column) ⟨p.after ' ', '|' :: cs⟩ = some (text, ⟨q, rest⟩))
    (hq : q.column = m) (hless : rest.length < cs.length + 2) :
    ∃ l, (atValue p (' ' :: '|' :: cs) ts (column :: is)).Reaches l ∧
      l.At (ts ++ [.scalar (String.ofList text) .literal]) (column :: is) m rest := by
  have hnext : (p.after ' ').column ≠ 0 :=
    Nat.ne_of_gt (Position.column_after_pos isBreak_space p)
  have hfetch : (atValue (p.after ' ') ('|' :: cs) ts (column :: is)).fetchHere =
      some ⟨⟨q, rest⟩, (ts ++ [Token.scalar (String.ofList text) .literal]).toArray, column :: is,
        none, [], true⟩ := by
    simp [fetchHere, fetchBlockScalar, closeKey, atValue, inFlow, hnext, put, emit, hread]
  exact ⟨_, .single (step_atValue ⟨by decide, by decide, by decide, by decide⟩ hcolumn hlast hfetch
    hless), at_here hrest hq (by simp)⟩

/-- A record without entries stands between its two marks. -/
theorem reaches_empty (hcolumn : column < p.column) (hlast : ts.getLast? ≠ some .streamEnd)
    (hrest : Follows m rest) (is : List Nat) :
    ∃ l, (atValue p (' ' :: '\x7b' :: '\x7d' :: '\n' :: (List.replicate m ' ' ++ rest)) ts
        (column :: is)).Reaches l ∧
      l.At (ts ++ [.flowRecord, .flowRecordEnd]) (column :: is) m rest := by
  have hnext : (p.after ' ').column ≠ 0 :=
    Nat.ne_of_gt (Position.column_after_pos isBreak_space p)
  have hopened : (atValue (p.after ' ')
      ('\x7b' :: '\x7d' :: '\n' :: (List.replicate m ' ' ++ rest)) ts (column :: is)).fetchHere =
      some ⟨⟨(p.after ' ').along 1, '\x7d' :: '\n' :: (List.replicate m ' ' ++ rest)⟩,
        (ts ++ [Token.flowRecord]).toArray, column :: is, none, [none], true⟩ := by
    simp [fetchHere, fetchFlowStart, mark, atValue, hnext, take, emit, Cursor.skip]
  have hclosed : Step ⟨⟨(p.after ' ').along 1, '\x7d' :: '\n' :: (List.replicate m ' ' ++ rest)⟩,
      (ts ++ [Token.flowRecord]).toArray, column :: is, none, [none], true⟩
      (atValue (((p.after ' ').along 1).along 1) ('\n' :: (List.replicate m ' ' ++ rest))
        (ts ++ [.flowRecord, .flowRecordEnd]) (column :: is)) := by
    refine ⟨rfl, by simp, ?_, by simp [atValue]⟩
    have hstarts : Starts '\x7d' := ⟨by decide, by decide, by decide, by decide⟩
    simp [fetch, skipGap, inFlow, skipFrom_starts hstarts, closeExpired, refresh, dedent, fetchHere,
      fetchFlowEnd, closeKey, take, emit, Cursor.skip, atValue, Position.along]
  refine ⟨_, .head (step_atValue ⟨by decide, by decide, by decide, by decide⟩ hcolumn hlast hopened
    (by simp)) (.single hclosed), at_newline hrest (by simp)⟩

/-- A text is read in the style that it is written in. -/
theorem reaches_text (s : String) (hcolumn : column < p.column)
    (hlast : ts.getLast? ≠ some .streamEnd) (hm : m ≤ column) (hrest : Follows m rest)
    (is : List Nat) :
    ∃ l, (atValue p (' ' :: (writeText (List.replicate (column + 2) ' ') s ++
        (List.replicate m ' ' ++ rest))) ts (column :: is)).Reaches l ∧
      l.At (ts ++ [.scalar s (styleFor s)]) (column :: is) m rest := by
  rcases styleFor_cases s with ⟨hstyle, hne, hshown⟩ | ⟨hstyle, htext, hplain⟩ |
    ⟨hstyle, hfeed, hsingle⟩ | hstyle
  · obtain ⟨q, hq, hread⟩ := block_literal hshown hne hm hrest (p.after ' ')
    obtain ⟨cs, hcs⟩ : ∃ cs, writeLiteral (List.replicate (column + 2) ' ') s.toList = '|' :: cs :=
      ⟨_, rfl⟩
    rw [hcs, List.cons_append] at hread
    have h := reaches_literal hcolumn hlast hrest is hread hq (by simp; omega)
    simpa [writeText, hstyle, hcs] using h
  · have h := reaches_plain (ne_nil_of_resolvesToText htext) hplain hcolumn hlast hm hrest is
    simpa [writeText, hstyle] using h
  · obtain ⟨q, hread⟩ := quoted_single (k := column + 2) (d := '\n') (by omega) hsingle hfeed
      (List.replicate m ' ' ++ rest) (p.after ' ') (by decide)
    obtain ⟨cs, hcs⟩ : ∃ cs, writeSingle (List.replicate (column + 2) ' ') s.toList = '\x27' :: cs :=
      ⟨_, rfl⟩
    rw [hcs, List.cons_append] at hread
    have h := reaches_quoted hcolumn hlast hrest is (Or.inl ⟨rfl, rfl⟩) hread (by simp; omega)
    simpa [writeText, hstyle, hcs] using h
  · obtain ⟨q, hread⟩ := quoted_double (d := '\n') s.toList (List.replicate m ' ' ++ rest)
      (p.after ' ') (by decide)
    obtain ⟨cs, hcs⟩ : ∃ cs, writeDouble s.toList = '\x22' :: cs := ⟨_, rfl⟩
    rw [hcs, List.cons_append] at hread
    have h := reaches_quoted hcolumn hlast hrest is (Or.inr ⟨rfl, rfl⟩) hread (by simp; omega)
    simpa [writeText, hstyle, hcs] using h

end Lexer

end LockDiscipline.Yaml
