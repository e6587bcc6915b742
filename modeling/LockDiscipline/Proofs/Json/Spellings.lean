import Mathlib.Data.List.DropRight
import LockDiscipline.Proofs.Json.Scalars

namespace LockDiscipline.Json

open LockDiscipline.Document

variable {c : Char} {cs ds ws gap rest : List Char} {fuel level : Nat}

/-- A text of nothing but space. -/
def Blank (ws : List Char) : Prop := ∀ c ∈ ws, isSpace c = true

theorem blank_nil : Blank [] := fun _ h => absurd h List.not_mem_nil

theorem blank_space : Blank [' '] := by
  intro c hc
  obtain rfl := List.mem_singleton.1 hc
  rfl

theorem blank_lineBreak (level : Nat) : Blank (Value.lineBreak level) := by
  intro c hc
  rcases List.mem_cons.1 hc with rfl | hc
  · rfl
  · rw [List.eq_of_mem_replicate hc]
    rfl

theorem skipSpace_blank (h : Blank ws) (cs : List Char) : skipSpace (ws ++ cs) = skipSpace cs :=
  List.dropWhile_append_of_pos h

theorem skipSpace_cons (h : isSpace c = false) (cs : List Char) : skipSpace (c :: cs) = c :: cs := by
  simp [skipSpace, h]

theorem skipSpace_skipSpace (cs : List Char) : skipSpace (skipSpace cs) = skipSpace cs :=
  List.dropWhile_idempotent isSpace cs

theorem closed_cons (h : c.isDigit = false ∧ c ≠ '.' ∧ c ≠ 'e' ∧ c ≠ 'E') : Closed (c :: cs) := by
  intro d hd
  obtain rfl : c = d := Option.some.inj hd
  exact h

theorem closed_nil : Closed [] := fun _ h => absurd h (by simp)

theorem closed_comma (cs : List Char) : Closed (',' :: cs) := closed_cons (by decide)

/-- Space ends a number, and so does what stands behind the space. -/
theorem Closed.blank (h : Closed rest) (hws : Blank ws) : Closed (ws ++ rest) := by
  cases ws with
  | nil => exact h
  | cons c ws =>
    have hc : isSpace c = true := hws c (List.mem_cons_self ..)
    simp only [isSpace, Bool.or_eq_true, decide_eq_true_eq] at hc
    rcases hc with ((rfl | rfl) | rfl) | rfl <;> exact closed_cons (by decide)

namespace Value

mutual

/-- What a reader finds in the value. -/
def datum : Value → Datum Scalar
  | null => .leaf .null
  | flag b => .leaf (.flag b)
  | natural n => .leaf (.integer n)
  | text s => .leaf (.text s)
  | list items => .list (itemData items)
  | record entries => .record (entryData entries)

def itemData : List Value → List (Datum Scalar)
  | [] => []
  | v :: vs => v.datum :: itemData vs

def entryData : List (String × Value) → List (Datum Scalar × Datum Scalar)
  | [] => []
  | (k, v) :: es => (.leaf (.text k), v.datum) :: entryData es

end

mutual

/-- The text spells the value: its parts stand in their order, with space between them. A number has
at most 64 bits, since a larger one would be read as something else. -/
inductive Spells : List Char → Value → Prop where
  | null : Spells "null".toList null
  | flag (b : Bool) : Spells (if b then "true" else "false").toList (flag b)
  | natural {n : Nat} (fits : n < UInt64.size) : Spells (Nat.repr n).toList (natural n)
  | text (s : String) : Spells (textChars s) (text s)
  | emptyList : Spells ['[', ']'] (list [])
  | list {cs ws : List Char} {vs : List Value} (items : SpellsItems cs vs) (stop : Blank ws) :
    Spells ('[' :: cs ++ ws ++ [']']) (list vs)
  | emptyRecord : Spells ['\x7b', '\x7d'] (record [])
  | record {cs ws : List Char} {es : List (String × Value)} (entries : SpellsEntries cs es)
    (stop : Blank ws) : Spells ('\x7b' :: cs ++ ws ++ ['\x7d']) (record es)

/-- The items of a list that is not empty. -/
inductive SpellsItems : List Char → List Value → Prop where
  | last {ws cs : List Char} {v : Value} (start : Blank ws) (value : Spells cs v) :
    SpellsItems (ws ++ cs) [v]
  | more {ws cs ds : List Char} {v : Value} {vs : List Value} (start : Blank ws)
    (value : Spells cs v) (later : SpellsItems ds vs) : SpellsItems (ws ++ cs ++ ',' :: ds) (v :: vs)

/-- The entries of a record that is not empty. -/
inductive SpellsEntries : List Char → List (String × Value) → Prop where
  | last {ws gap cs : List Char} {k : String} {v : Value} (start : Blank ws) (colon : Blank gap)
    (value : Spells cs v) : SpellsEntries (ws ++ textChars k ++ ':' :: (gap ++ cs)) [(k, v)]
  | more {ws gap cs ds : List Char} {k : String} {v : Value} {es : List (String × Value)}
    (start : Blank ws) (colon : Blank gap) (value : Spells cs v) (later : SpellsEntries ds es) :
    SpellsEntries (ws ++ textChars k ++ ':' :: (gap ++ cs) ++ ',' :: ds) ((k, v) :: es)

end

mutual

/-- Whether all numbers of the value have at most 64 bits. -/
def Fits : Value → Prop
  | natural n => n < UInt64.size
  | list items => ItemsFit items
  | record entries => EntriesFit entries
  | _ => True

def ItemsFit : List Value → Prop
  | [] => True
  | v :: vs => v.Fits ∧ ItemsFit vs

def EntriesFit : List (String × Value) → Prop
  | [] => True
  | (_, v) :: es => v.Fits ∧ EntriesFit es

end

mutual

theorem spells_compact : ∀ {v : Value}, v.Fits → Spells v.compactChars v
  | null, _ => .null
  | flag b, _ => .flag b
  | natural _, h => .natural h
  | text s, _ => .text s
  | list [], _ => .emptyList
  | list (_ :: _), h => by
    have hitems := spells_compactItems (by simp) h
    simpa [compactChars] using Spells.list hitems blank_nil
  | record [], _ => .emptyRecord
  | record (_ :: _), h => by
    have hentries := spells_compactEntries (by simp) h
    simpa [compactChars] using Spells.record hentries blank_nil

theorem spells_compactItems :
    ∀ {vs : List Value}, vs ≠ [] → ItemsFit vs → SpellsItems (compactItems vs) vs
  | [], hne, _ => absurd rfl hne
  | [_], _, h => .last blank_nil (spells_compact h.1)
  | _ :: _ :: _, _, h => .more blank_nil (spells_compact h.1)
    (spells_compactItems (by simp) h.2)

theorem spells_compactEntries :
    ∀ {es : List (String × Value)}, es ≠ [] → EntriesFit es → SpellsEntries (compactEntries es) es
  | [], hne, _ => absurd rfl hne
  | [(_, _)], _, h => .last blank_nil blank_nil (spells_compact h.1)
  | (_, _) :: _ :: _, _, h => by
    have hlater := spells_compactEntries (by simp) h.2
    simpa [compactEntries] using
      SpellsEntries.more blank_nil blank_nil (spells_compact h.1) hlater

end

mutual

theorem spells_pretty (level : Nat) : ∀ {v : Value}, v.Fits → Spells (v.prettyChars level) v
  | null, _ => .null
  | flag b, _ => .flag b
  | natural _, h => .natural h
  | text s, _ => .text s
  | list [], _ => .emptyList
  | list (_ :: _), h =>
    .list (spells_prettyItems (level + 1) (by simp) h) (blank_lineBreak level)
  | record [], _ => .emptyRecord
  | record (_ :: _), h =>
    .record (spells_prettyEntries (level + 1) (by simp) h) (blank_lineBreak level)

theorem spells_prettyItems (level : Nat) :
    ∀ {vs : List Value}, vs ≠ [] → ItemsFit vs → SpellsItems (prettyItems level vs) vs
  | [], hne, _ => absurd rfl hne
  | [_], _, h => .last (blank_lineBreak level) (spells_pretty level h.1)
  | _ :: _ :: _, _, h => .more (blank_lineBreak level) (spells_pretty level h.1)
    (spells_prettyItems level (by simp) h.2)

theorem spells_prettyEntries (level : Nat) :
    ∀ {es : List (String × Value)}, es ≠ [] → EntriesFit es →
      SpellsEntries (prettyEntries level es) es
  | [], hne, _ => absurd rfl hne
  | [(_, _)], _, h => .last (blank_lineBreak level) blank_space (spells_pretty level h.1)
  | (_, _) :: _ :: _, _, h => by
    have hlater := spells_prettyEntries level (by simp) h.2
    simpa [prettyEntries] using
      SpellsEntries.more (blank_lineBreak level) blank_space (spells_pretty level h.1) hlater

end

/-- No spelling starts with space or with the end of a list. -/
theorem Spells.head {v : Value} (h : Spells cs v) :
    ∃ c ds, cs = c :: ds ∧ isSpace c = false ∧ c ≠ ']' := by
  cases h with
  | natural =>
    obtain ⟨c, ds, hcs, hc⟩ := head_repr _
    exact ⟨c, ds, hcs, isSpace_of_isDigit hc, ne_of_isDigit hc (by decide)⟩
  | flag b => cases b <;> exact ⟨_, _, rfl, by decide, by decide⟩
  | _ => exact ⟨_, _, rfl, by decide, by decide⟩

theorem SpellsItems.head {vs : List Value} (h : SpellsItems cs vs) (rest : List Char) :
    ∃ c ds, skipSpace (cs ++ rest) = c :: ds ∧ c ≠ ']' := by
  cases h with
  | last start value | more start value =>
    obtain ⟨c, ds, rfl, hspace, hc⟩ := value.head
    simp only [List.append_assoc, List.cons_append, skipSpace_blank start, skipSpace_cons hspace]
    exact ⟨c, _, rfl, hc⟩

theorem SpellsEntries.head {es : List (String × Value)} (h : SpellsEntries cs es) (rest : List Char) :
    ∃ ds, skipSpace (cs ++ rest) = '\x22' :: ds := by
  cases h with
  | last start | more start =>
    simp only [List.append_assoc, List.cons_append, skipSpace_blank start, textChars,
      skipSpace_cons (show isSpace '\x22' = false by decide)]
    exact ⟨_, rfl⟩

end Value

theorem valueFrom_skipSpace (fuel : Nat) (cs : List Char) :
    valueFrom fuel (skipSpace cs) = valueFrom fuel cs := by
  cases fuel with
  | zero => rfl
  | succ fuel => rw [valueFrom, valueFrom, skipSpace_skipSpace]

theorem valueFrom_blank (h : Blank ws) (fuel : Nat) (cs : List Char) :
    valueFrom fuel (ws ++ cs) = valueFrom fuel cs := by
  rw [← valueFrom_skipSpace, skipSpace_blank h, valueFrom_skipSpace]

theorem itemsFrom_skipSpace (fuel : Nat) (cs : List Char) :
    itemsFrom fuel (skipSpace cs) = itemsFrom fuel cs := by
  cases fuel with
  | zero => rfl
  | succ fuel => rw [itemsFrom, itemsFrom, valueFrom_skipSpace]

theorem entriesFrom_skipSpace (fuel : Nat) (cs : List Char) :
    entriesFrom fuel (skipSpace cs) = entriesFrom fuel cs := by
  cases fuel with
  | zero => rfl
  | succ fuel => rw [entriesFrom, entriesFrom, skipSpace_skipSpace]

theorem entriesFrom_blank (h : Blank ws) (fuel : Nat) (cs : List Char) :
    entriesFrom fuel (ws ++ cs) = entriesFrom fuel cs := by
  rw [← entriesFrom_skipSpace, skipSpace_blank h, entriesFrom_skipSpace]

theorem valueFrom_scalar {s : Scalar} (hspace : isSpace c = false) (hlist : c ≠ '[')
    (hrecord : c ≠ '\x7b') (h : scalar (c :: cs) = some (s, rest)) :
    valueFrom (fuel + 1) (c :: cs) = (.leaf s, some rest) := by
  rw [valueFrom, skipSpace_cons hspace]
  split
  · next heq => exact absurd (List.cons.inj heq).1 hlist
  · next heq => exact absurd (List.cons.inj heq).1 hrecord
  · rw [h]

/-- The items of a list that does not end at once. -/
theorem valueFrom_list (h : ∃ c ds, skipSpace cs = c :: ds ∧ c ≠ ']') :
    valueFrom (fuel + 1) ('[' :: cs) =
      (.list (itemsFrom fuel cs).1, (itemsFrom fuel cs).2) := by
  obtain ⟨c, ds, hcs, hc⟩ := h
  rw [← itemsFrom_skipSpace, valueFrom, skipSpace_cons (by decide)]
  simp only [hcs]
  split
  · next heq => exact absurd (List.cons.inj heq).1 hc
  · rfl

theorem valueFrom_record (h : ∃ ds, skipSpace cs = '\x22' :: ds) :
    valueFrom (fuel + 1) ('\x7b' :: cs) =
      (.record (entriesFrom fuel cs).1, (entriesFrom fuel cs).2) := by
  obtain ⟨ds, hcs⟩ := h
  rw [← entriesFrom_skipSpace, valueFrom, skipSpace_cons (by decide)]
  simp [hcs]

theorem itemsFrom_last {t : Datum Scalar} {after : List Char}
    (hvalue : valueFrom fuel cs = (t, some after)) (hend : skipSpace after = ']' :: rest) :
    itemsFrom (fuel + 1) cs = ([t], some rest) := by
  simp [itemsFrom, hvalue, hend]

theorem itemsFrom_more {t : Datum Scalar} {after : List Char}
    (hvalue : valueFrom fuel cs = (t, some after)) (hmore : skipSpace after = ',' :: rest) :
    itemsFrom (fuel + 1) cs = (t :: (itemsFrom fuel rest).1, (itemsFrom fuel rest).2) := by
  simp [itemsFrom, hvalue, hmore]

theorem textChars_append (k : String) (cs : List Char) :
    textChars k ++ cs = '\x22' :: (k.toList.flatMap escape ++ '\x22' :: cs) := by
  simp [textChars]

theorem entriesFrom_last {k : String} {t : Datum Scalar} {after : List Char}
    (hvalue : valueFrom fuel cs = (t, some after)) (hend : skipSpace after = '\x7d' :: rest) :
    entriesFrom (fuel + 1) (textChars k ++ ':' :: cs) = ([(.leaf (.text k), t)], some rest) := by
  rw [textChars_append, entriesFrom, skipSpace_cons (by decide)]
  simp [textFrom_textChars, skipSpace_cons (show isSpace ':' = false by decide), hvalue, hend]

theorem entriesFrom_more {k : String} {t : Datum Scalar} {after : List Char}
    (hvalue : valueFrom fuel cs = (t, some after)) (hmore : skipSpace after = ',' :: rest) :
    entriesFrom (fuel + 1) (textChars k ++ ':' :: cs) =
      ((.leaf (.text k), t) :: (entriesFrom fuel rest).1, (entriesFrom fuel rest).2) := by
  rw [textChars_append, entriesFrom, skipSpace_cons (by decide)]
  simp [textFrom_textChars, skipSpace_cons (show isSpace ':' = false by decide), hvalue, hmore]

namespace Value

theorem Spells.length_pos {v : Value} (h : Spells cs v) : 0 < cs.length := by
  obtain ⟨c, ds, rfl, -⟩ := h.head
  exact Nat.succ_pos _

mutual

-- Every character of a spelling pays for two steps: that of the value which it starts, and that of
-- the item or entry around it.

/-- A spelling is read as its value, and what follows it is left. -/
theorem valueFrom_of_spells : ∀ {cs : List Char} {v : Value}, Spells cs v →
    ∀ fuel : Nat, 2 * cs.length ≤ fuel + 1 → ∀ {rest : List Char}, Closed rest →
      valueFrom (fuel + 1) (cs ++ rest) = (v.datum, some rest)
  | _, _, .null, _, _, _, _ => valueFrom_scalar (by decide) (by decide) (by decide) (by rfl)
  | _, _, .flag b, _, _, _, _ => by
    cases b <;> exact valueFrom_scalar (by decide) (by decide) (by decide) (by rfl)
  | _, _, .natural (n := n) hn, _, _, rest, hrest => by
    obtain ⟨c, ds, hcs, hc⟩ := head_repr n
    have hscalar := scalar_number hn hrest
    rw [hcs, List.cons_append] at hscalar ⊢
    exact valueFrom_scalar (isSpace_of_isDigit hc) (ne_of_isDigit hc (by decide))
      (ne_of_isDigit hc (by decide)) hscalar
  | _, _, .text s, _, _, rest, _ => by
    rw [textChars_append]
    refine valueFrom_scalar (by decide) (by decide) (by decide) ?_
    simp [scalar, textFrom_textChars]
  | _, _, .emptyList, _, _, _, _ => rfl
  | _, _, .list hitems hstop, fuel, hfuel, rest, _ => by
    simp only [List.length_cons, List.length_append, List.length_nil] at hfuel
    obtain ⟨k, rfl⟩ : ∃ k, fuel = k + 1 := ⟨fuel - 1, by omega⟩
    simp only [List.cons_append, List.append_assoc, List.nil_append]
    rw [valueFrom_list (hitems.head _), itemsFrom_of_spells hitems k (by omega) hstop rest]
    rfl
  | _, _, .emptyRecord, _, _, _, _ => rfl
  | _, _, .record hentries hstop, fuel, hfuel, rest, _ => by
    simp only [List.length_cons, List.length_append, List.length_nil] at hfuel
    obtain ⟨k, rfl⟩ : ∃ k, fuel = k + 1 := ⟨fuel - 1, by omega⟩
    simp only [List.cons_append, List.append_assoc, List.nil_append]
    rw [valueFrom_record (hentries.head _), entriesFrom_of_spells hentries k (by omega) hstop rest]
    rfl

theorem itemsFrom_of_spells : ∀ {cs : List Char} {vs : List Value}, SpellsItems cs vs →
    ∀ fuel : Nat, 2 * cs.length ≤ fuel → ∀ {ws : List Char}, Blank ws → ∀ rest : List Char,
      itemsFrom (fuel + 1) (cs ++ (ws ++ ']' :: rest)) = (itemData vs, some rest)
  | _, _, .last hstart hvalue, fuel, hfuel, ws, hws, rest => by
    have hpos := hvalue.length_pos
    simp only [List.length_append] at hfuel
    obtain ⟨k, rfl⟩ : ∃ k, fuel = k + 1 := ⟨fuel - 1, by omega⟩
    have hafter : Closed (ws ++ ']' :: rest) := (closed_cons (by decide)).blank hws
    have hread := valueFrom_of_spells hvalue k (by omega) hafter
    rw [List.append_assoc]
    exact itemsFrom_last ((valueFrom_blank hstart _ _).trans hread)
      ((skipSpace_blank hws _).trans (skipSpace_cons (by decide) rest))
  | _, _, .more hstart hvalue hlater, fuel, hfuel, ws, hws, rest => by
    have hpos := hvalue.length_pos
    simp only [List.length_append, List.length_cons] at hfuel
    obtain ⟨k, rfl⟩ : ∃ k, fuel = k + 1 := ⟨fuel - 1, by omega⟩
    have hread := fun after => valueFrom_of_spells hvalue k (by omega) (closed_comma after)
    have hitems := itemsFrom_of_spells hlater k (by omega) hws rest
    simp only [List.append_assoc, List.cons_append]
    rw [itemsFrom_more ((valueFrom_blank hstart _ _).trans (hread _)) (skipSpace_cons (by decide) _),
      hitems]
    rfl

theorem entriesFrom_of_spells : ∀ {cs : List Char} {es : List (String × Value)},
    SpellsEntries cs es → ∀ fuel : Nat, 2 * cs.length ≤ fuel →
      ∀ {ws : List Char}, Blank ws → ∀ rest : List Char,
        entriesFrom (fuel + 1) (cs ++ (ws ++ '\x7d' :: rest)) = (entryData es, some rest)
  | _, _, .last hstart hcolon hvalue, fuel, hfuel, ws, hws, rest => by
    have hpos := hvalue.length_pos
    simp only [List.length_append, List.length_cons] at hfuel
    obtain ⟨k, rfl⟩ : ∃ k, fuel = k + 1 := ⟨fuel - 1, by omega⟩
    have hafter : Closed (ws ++ '\x7d' :: rest) := (closed_cons (by decide)).blank hws
    have hread := valueFrom_of_spells hvalue k (by omega) hafter
    simp only [List.append_assoc, List.cons_append]
    rw [entriesFrom_blank hstart]
    exact entriesFrom_last ((valueFrom_blank hcolon _ _).trans hread)
      ((skipSpace_blank hws _).trans (skipSpace_cons (by decide) rest))
  | _, _, .more hstart hcolon hvalue hlater, fuel, hfuel, ws, hws, rest => by
    have hpos := hvalue.length_pos
    simp only [List.length_append, List.length_cons] at hfuel
    obtain ⟨k, rfl⟩ : ∃ k, fuel = k + 1 := ⟨fuel - 1, by omega⟩
    have hread := fun after => valueFrom_of_spells hvalue k (by omega) (closed_comma after)
    have hentries := entriesFrom_of_spells hlater k (by omega) hws rest
    simp only [List.append_assoc, List.cons_append]
    rw [entriesFrom_blank hstart, entriesFrom_more ((valueFrom_blank hcolon _ _).trans (hread _))
      (skipSpace_cons (by decide) _), hentries]
    rfl

end

end Value

/-- A spelling is the text of its value and of nothing else. -/
theorem parse_of_spells {v : Value} (h : Value.Spells cs v) :
    parse (String.ofList cs) = ⟨v.datum, true⟩ := by
  have hread := Value.valueFrom_of_spells h (2 * cs.length + 1) (by omega) closed_nil
  rw [List.append_nil] at hread
  simp only [parse, String.toList_ofList, hread]
  rfl

end LockDiscipline.Json
