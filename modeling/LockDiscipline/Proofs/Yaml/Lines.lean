import LockDiscipline.Proofs.Yaml.Fetching

namespace LockDiscipline.Yaml

namespace Layout

mutual

/-- The tokens that a layout stands for. -/
def tokens : Layout → List Token
  | word s => [.scalar s .plain]
  | text s => [.scalar s (styleFor s)]
  | record [] => [.flowRecord, .flowRecordEnd]
  | record (e :: es) => .blockRecord :: (entryTokens (e :: es) ++ [.blockEnd])

def entryTokens : List (String × Layout) → List Token
  | [] => []
  | (k, v) :: es => .key :: .scalar k .plain :: .value :: (tokens v ++ entryTokens es)

end

mutual

/-- Whether all words stand for themselves and all keys are names. -/
def Sound : Layout → Prop
  | word s => s.toList ≠ [] ∧ mayBePlain s.toList = true
  | text _ => True
  | record es => SoundEntries es

def SoundEntries : List (String × Layout) → Prop
  | [] => True
  | (k, v) :: es => IsKey k ∧ Sound v ∧ SoundEntries es

end

/-- The column and the text that the entries start at, or what follows where there are none. -/
def next (column m : Nat) (rest : List Char) : List (String × Layout) → Nat × List Char
  | [] => (m, rest)
  | (k, v) :: es =>
    (column, k.toList ++ ':' :: (afterKey column v ++ (lines column es ++
      (List.replicate m ' ' ++ rest))))

variable {column m : Nat} {rest : List Char} {es : List (String × Layout)}

theorem lines_next (column m : Nat) (rest : List Char) (es : List (String × Layout)) :
    lines column es ++ (List.replicate m ' ' ++ rest) =
      List.replicate (next column m rest es).1 ' ' ++ (next column m rest es).2 := by
  cases es with
  | nil => rfl
  | cons e es => simp [lines, next]

theorem follows_next (column : Nat) (hrest : Follows m rest) (hes : SoundEntries es) :
    Follows (next column m rest es).1 (next column m rest es).2 := by
  cases es with
  | nil => exact hrest
  | cons e es =>
    obtain ⟨k, v⟩ := e
    obtain ⟨hkey, -⟩ := hes
    obtain ⟨c, cs, hcs⟩ := List.exists_cons_of_ne_nil hkey.ne_nil
    simp only [next, hcs, List.cons_append]
    exact .key (hkey.word c (by simp [hcs]))

theorem next_le (hm : m ≤ column) : (next column m rest es).1 ≤ column := by
  cases es with
  | nil => exact hm
  | cons e es => exact Nat.le_refl _

theorem atGap_afterKey (column : Nat) (v : Layout) (tail : List Char) :
    atGap (afterKey column v ++ tail) = true := by
  cases v with
  | word s => rfl
  | text s => rfl
  | record es => cases es <;> rfl

open Lexer

variable {ts : List Token} {is : List Nat}

/-- An entry is read if its value is. -/
theorem reaches_entry {l : Lexer} {k : String} {v : Layout} {js : List Nat} {o : List Token}
    (h : l.At ts is column (next column m rest ((k, v) :: es)).2) (hkey : IsKey k)
    (hopens : Opens column is js o)
    (hvalue : ∀ (p : Position) (us : List Token), column < p.column →
      us.getLast? ≠ some .streamEnd →
      ∃ l, (atValue p (afterKey column v ++ (List.replicate (next column m rest es).1 ' ' ++
          (next column m rest es).2)) us js).Reaches l ∧
        l.At (us ++ v.tokens) js (next column m rest es).1 (next column m rest es).2) :
    ∃ l', l.Reaches l' ∧
      l'.At (ts ++ o ++ [.key, .scalar k .plain, .value] ++ v.tokens) js
        (next column m rest es).1 (next column m rest es).2 := by
  simp only [next] at h
  obtain ⟨p, hp, hcolon⟩ := reaches_value h hkey hopens (atGap_afterKey column v _)
  rw [lines_next] at hcolon
  obtain ⟨l', hreach, hat⟩ := hvalue p (ts ++ o ++ [.key, .scalar k .plain, .value]) hp (by simp)
  exact ⟨l', hcolon.trans hreach, hat⟩

mutual

/-- What is written for a value is read behind its key. -/
theorem reaches_afterKey (v : Layout) (hv : v.Sound) {column m : Nat} {rest : List Char}
    (hrest : Follows m rest) (hm : m ≤ column) (is : List Nat) (p : Position) (ts : List Token)
    (hp : column < p.column) (hlast : ts.getLast? ≠ some .streamEnd) :
    ∃ l, (atValue p (afterKey column v ++ (List.replicate m ' ' ++ rest)) ts
        (column :: is)).Reaches l ∧ l.At (ts ++ v.tokens) (column :: is) m rest := by
  match v with
  | word s =>
    have h := reaches_plain hv.1 hv.2 hp hlast hm hrest is
    simpa [afterKey, Layout.tokens] using h
  | text s =>
    have h := reaches_text s hp hlast hm hrest is
    simpa [afterKey, Layout.tokens] using h
  | record [] =>
    have h := reaches_empty hp hlast hrest is
    simpa [afterKey, Layout.tokens] using h
  | record ((k, v) :: es) =>
    obtain ⟨hkey, hv, hes⟩ := hv
    have hbelow : m ≤ column + 2 := Nat.le_add_right_of_le hm
    have hstart : (atValue p (afterKey column (.record ((k, v) :: es)) ++
        (List.replicate m ' ' ++ rest)) ts (column :: is)).At ts (column :: is) (column + 2)
        (next (column + 2) m rest ((k, v) :: es)).2 := by
      rw [afterKey, List.cons_append, lines_next]
      have hentries : SoundEntries ((k, v) :: es) := ⟨hkey, hv, hes⟩
      exact at_newline (follows_next (column + 2) hrest hentries) hlast
    have hopens : Opens (column + 2) (column :: is) ((column + 2) :: column :: is)
        [.blockRecord] := .opening fun i hi => by
      obtain rfl := Option.some.inj hi
      omega
    obtain ⟨l₁, hreach₁, hat₁⟩ := reaches_entry hstart hkey hopens fun p us hp hlast =>
      reaches_afterKey v hv (follows_next _ hrest hes) (next_le hbelow) (column :: is) p us hp hlast
    obtain ⟨l₂, hreach₂, hat₂⟩ := reaches_lines es hes hrest hbelow (column :: is) hat₁
    refine ⟨l₂, hreach₁.trans hreach₂, ?_⟩
    have hclosed := hat₂.close (by omega)
    simpa [Layout.tokens, entryTokens] using hclosed

/-- The further entries of a record are read one after another. -/
theorem reaches_lines (es : List (String × Layout)) (hes : SoundEntries es) {column m : Nat}
    {rest : List Char} (hrest : Follows m rest) (hm : m ≤ column) (is : List Nat) {l : Lexer}
    {ts : List Token}
    (h : l.At ts (column :: is) (next column m rest es).1 (next column m rest es).2) :
    ∃ l', l.Reaches l' ∧ l'.At (ts ++ entryTokens es) (column :: is) m rest := by
  match es with
  | [] => exact ⟨l, .refl, by simpa [entryTokens, next] using h⟩
  | (k, v) :: es =>
    obtain ⟨hkey, hv, hes⟩ := hes
    obtain ⟨l₁, hreach₁, hat₁⟩ := reaches_entry h hkey .standing fun p us hp hlast =>
      reaches_afterKey v hv (follows_next _ hrest hes) (next_le hm) is p us hp hlast
    obtain ⟨l₂, hreach₂, hat₂⟩ := reaches_lines es hes hrest hm is hat₁
    exact ⟨l₂, hreach₁.trans hreach₂, by simpa [entryTokens] using hat₂⟩

end

theorem isShown_of_mem_pad (n : Nat) : ∀ c ∈ List.replicate n ' ', isShown c = true := by
  intro c hc
  rw [List.eq_of_mem_replicate hc]
  decide

mutual

/-- What is written for a value is shown. -/
theorem isShown_of_mem_afterKey (v : Layout) (hv : v.Sound) (column : Nat) :
    ∀ c ∈ afterKey column v, isShown c = true := by
  match v with
  | word s =>
    intro c hc
    simp only [afterKey, List.cons_append, List.mem_cons, List.mem_append, List.not_mem_nil,
      or_false] at hc
    rcases hc with rfl | hc | rfl
    · decide
    · have hplain := hv.2
      simp only [mayBePlain, Bool.and_eq_true, List.all_eq_true] at hplain
      exact (hplain.1.1.1.1 c hc).1
    · decide
  | text s =>
    intro c hc
    rcases List.mem_cons.1 hc with rfl | hc
    · decide
    · exact isShown_of_mem_writeText (isShown_of_mem_pad _) s c hc
  | record [] =>
    exact List.all_eq_true.1 (show [' ', '\x7b', '\x7d', '\n'].all isShown = true by decide)
  | record (e :: es) =>
    intro c hc
    rcases List.mem_cons.1 hc with rfl | hc
    · decide
    · exact isShown_of_mem_lines (e :: es) hv (column + 2) c hc

theorem isShown_of_mem_lines (es : List (String × Layout)) (hes : SoundEntries es) (column : Nat) :
    ∀ c ∈ lines column es, isShown c = true := by
  match es with
  | [] =>
    intro c hc
    cases hc
  | (k, v) :: es =>
    obtain ⟨hkey, hv, hes⟩ := hes
    intro c hc
    simp only [lines, List.mem_append, List.mem_cons] at hc
    rcases hc with ((hc | hc) | (rfl | hc)) | hc
    · exact isShown_of_mem_pad _ c hc
    · exact isShown_of_isKeyChar (hkey.word c hc)
    · decide
    · exact isShown_of_mem_afterKey v hv column c hc
    · exact isShown_of_mem_lines es hes column c hc

end

/-- Where the text ends, so do all blocks. -/
theorem run_end {l : Lexer} (h : l.At ts is column []) (his : ∀ i ∈ is.head?, i ≤ column)
    (fuel given : Nat) :
    (l.run (fuel + 2) given).toList = ts ++ is.map (fun _ => Token.blockEnd) ++ [.streamEnd] := by
  obtain ⟨p, -, hready⟩ := h.ready_eq his
  have hfetch : l.fetch = some ⟨⟨p.atLineStart, []⟩,
      (ts ++ is.map (fun _ => Token.blockEnd) ++ [Token.streamEnd]).toArray, [], none, [], false⟩ := by
    rw [fetch_of_none h.openKey h.outer, hready]
    simp [fetchHere, fetchEnd, dedentAll, inFlow, closeKey, emit]
  rw [run, closeExpired_of_none h.openKey h.outer]
  simp only [h.unended, if_false, hfetch]
  rw [run, closeExpired_of_none rfl rfl]
  simp

/-- The lines of a document are cut into the tokens of its entries. -/
theorem run_lines (hes : SoundEntries es) (hne : es ≠ []) :
    ((Lexer.start (lines 0 es)).run ((lines 0 es).length + 2) 0).toList =
      (Layout.record es).tokens ++ [.streamEnd] := by
  obtain ⟨⟨k, v⟩, es, rfl⟩ := List.exists_cons_of_ne_nil hne
  have hlines : lines 0 ((k, v) :: es) = (next 0 0 [] ((k, v) :: es)).2 := by
    simpa [next] using lines_next 0 0 [] ((k, v) :: es)
  have hstart : (Lexer.start (lines 0 ((k, v) :: es))).At [] [] 0
      (next 0 0 [] ((k, v) :: es)).2 := by
    rw [hlines]
    exact at_here (follows_next 0 .nothing hes) rfl (by simp)
  obtain ⟨hkey, hv, hes⟩ := hes
  obtain ⟨l₁, hreach₁, hat₁⟩ := reaches_entry hstart hkey (.opening (by simp))
    fun p us hp hlast =>
      reaches_afterKey v hv (follows_next 0 .nothing hes) (next_le (Nat.le_refl 0)) [] p us hp hlast
  obtain ⟨l₂, hreach₂, hat₂⟩ := reaches_lines es hes .nothing (Nat.le_refl 0) [] hat₁
  obtain ⟨fuel, given, hfuel, hrun⟩ := run_reaches (hreach₁.trans hreach₂)
    ((lines 0 ((k, v) :: es)).length + 2) 0 (by simp [Lexer.start])
  obtain ⟨fuel, rfl⟩ : ∃ n, fuel = n + 2 := ⟨fuel - 2, by omega⟩
  rw [hrun, run_end hat₂ (by simp)]
  simp [Layout.tokens, entryTokens]

/-- A document is cut into the tokens of its record. -/
theorem tokens_document (hes : SoundEntries es) (hne : es ≠ []) :
    Yaml.tokens (document es) = (Layout.record es).tokens ++ [.streamEnd] := by
  have hshown := isShown_of_mem_lines es hes 0
  have hallowed : (lines 0 es).all isAllowed = true :=
    List.all_eq_true.2 fun c hc => isAllowed_of_isShown (hshown c hc)
  simp only [Yaml.tokens, document, String.toList_ofList, hallowed, if_true,
    normalizeBreaks_of_isShown hshown, run_lines hes hne]

end Layout

end LockDiscipline.Yaml
