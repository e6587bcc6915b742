import LockDiscipline.Json.Text
import LockDiscipline.Json.Value
import LockDiscipline.Proofs.Text.Numerals

namespace LockDiscipline.Json

variable {c d : Char} {cs ds rest done : List Char} {m n k : Nat}

/-- A character is escaped by a letter or by its number, or it is written as itself. -/
theorem escape_cases (c : Char) :
    (∃ l, escape c = ['\\', l] ∧ l ≠ 'u' ∧ unescape l = some c) ∨
      (c.toNat < 0x20 ∧
        escape c = ['\\', 'u', '0', '0', hexDigit (c.toNat / 16), hexDigit c.toNat]) ∨
      (0x20 ≤ c.toNat ∧ c ≠ '\x22' ∧ c ≠ '\\' ∧ escape c = [c]) := by
  have letter : ∀ d l, escape d = ['\\', l] ∧ l ≠ 'u' ∧ unescape l = some d → c = d →
      ∃ l, escape c = ['\\', l] ∧ l ≠ 'u' ∧ unescape l = some c := by
    rintro d l h rfl
    exact ⟨l, h⟩
  by_cases hquote : c = '\x22'
  · exact .inl (letter _ '\x22' (by decide) hquote)
  by_cases hslash : c = '\\'
  · exact .inl (letter _ '\\' (by decide) hslash)
  by_cases h8 : c = '\x08'
  · exact .inl (letter _ 'b' (by decide) h8)
  by_cases h12 : c = '\x0c'
  · exact .inl (letter _ 'f' (by decide) h12)
  by_cases h10 : c = '\n'
  · exact .inl (letter _ 'n' (by decide) h10)
  by_cases h13 : c = '\r'
  · exact .inl (letter _ 'r' (by decide) h13)
  by_cases h9 : c = '\t'
  · exact .inl (letter _ 't' (by decide) h9)
  rcases Nat.lt_or_ge c.toNat 0x20 with hlow | hhigh
  · exact .inr (.inl ⟨hlow, by simp [escape, hquote, hslash, h8, h12, h10, h13, h9, hlow]⟩)
  · exact .inr (.inr ⟨hhigh, hquote, hslash, escape_of_plain hhigh hquote hslash⟩)

theorem hexValue_hexDigit (n : Nat) : Text.hexValue (hexDigit n) = some (n % 16) :=
  (by decide : ∀ d < 16, Text.hexValue d.digitChar = some d) _ (Nat.mod_lt n (by decide))

theorem textFrom_digit (left value n : Nat) (p : Partial) (cs : List Char) :
    textFrom (.unit (left + 2) value) p (hexDigit n :: cs) =
      textFrom (.unit (left + 1) (value * 16 + n % 16)) p cs := by
  simp [textFrom, hexValue_hexDigit]

theorem textFrom_lastDigit (value n : Nat) (p : Partial) (cs : List Char) :
    textFrom (.unit 1 value) p (hexDigit n :: cs) =
      textFrom .plain (p.pushUnit (value * 16 + n % 16)) cs := by
  simp [textFrom, hexValue_hexDigit]

/-- A character below the surrogates is a unit of its own. -/
theorem pushUnit_toNat (done : List Char) (h : c.toNat < 0xD800) :
    Partial.pushUnit ⟨done, none, false⟩ c.toNat = ⟨c :: done, none, false⟩ := by
  have hlow : ¬ (0xDC00 ≤ c.toNat ∧ c.toNat ≤ 0xDFFF) := by omega
  have hhigh : ¬ (0xD800 ≤ c.toNat ∧ c.toNat ≤ 0xDBFF) := by omega
  simp [Partial.pushUnit, Partial.push, hlow, hhigh, Char.ofNat_toNat]

/-- What is written for a character is read as the character. -/
theorem textFrom_escape (done : List Char) (c : Char) (cs : List Char) :
    textFrom .plain ⟨done, none, false⟩ (escape c ++ cs) =
      textFrom .plain ⟨c :: done, none, false⟩ cs := by
  rcases escape_cases c with ⟨l, hescape, hne, hl⟩ | ⟨hlow, hescape⟩ | ⟨hhigh, hquote, hslash, hescape⟩
  · simp [hescape, textFrom, hne, hl, Partial.push]
  · have hcode : textFrom .plain ⟨done, none, false⟩ (escape c ++ cs) = textFrom (.unit 4 0)
        ⟨done, none, false⟩
        (hexDigit 0 :: hexDigit 0 :: hexDigit (c.toNat / 16) :: hexDigit c.toNat :: cs) := by
      rw [hescape]
      rfl
    have hvalue : ((0 * 16 + 0 % 16) * 16 + 0 % 16) * 16 + c.toNat / 16 % 16 = c.toNat / 16 := by
      omega
    rw [hcode, textFrom_digit, textFrom_digit, textFrom_digit, hvalue, textFrom_lastDigit,
      Nat.div_add_mod', pushUnit_toNat done (by omega)]
  · simp [hescape, textFrom, hquote, hslash, Nat.not_lt.2 hhigh, Partial.push]

theorem textFrom_escapes (done cs rest : List Char) :
    textFrom .plain ⟨done, none, false⟩ (cs.flatMap escape ++ '\x22' :: rest) =
      some (.text (String.ofList (done.reverse ++ cs)), rest) := by
  induction cs generalizing done with
  | nil => simp [textFrom, Partial.finish]
  | cons c cs ih =>
    rw [List.flatMap_cons, List.append_assoc, textFrom_escape, ih, List.reverse_cons,
      List.append_assoc]
    rfl

/-- A text is read from what stands between its quotes. -/
theorem textFrom_textChars (s : String) (rest : List Char) :
    textFrom .plain ⟨[], none, false⟩ (s.toList.flatMap escape ++ '\x22' :: rest) =
      some (.text s, rest) := by
  rw [textFrom_escapes, List.reverse_nil, List.nil_append, String.ofList_toList]

/-- What cannot belong to a number that stands before it. -/
def Closed (rest : List Char) : Prop :=
  ∀ c ∈ rest.head?, c.isDigit = false ∧ c ≠ '.' ∧ c ≠ 'e' ∧ c ≠ 'E'

theorem digitRun_append (hds : ∀ c ∈ ds, c.isDigit = true) (h : Closed rest) :
    digitRun (ds ++ rest) = (ds, rest) := by
  have hrun : rest.takeWhile Char.isDigit = [] ∧ rest.dropWhile Char.isDigit = rest := by
    cases rest with
    | nil => exact ⟨rfl, rfl⟩
    | cons c cs => simp [(h c rfl).1]
  simp only [digitRun, List.takeWhile_append_of_pos hds, List.dropWhile_append_of_pos hds, hrun,
    List.append_nil]

theorem digitValue_of_digitIn (hc : c.isDigit = true) (h : Text.digitIn 10 c = some k) :
    digitValue c = k := by
  have hrange : '0' ≤ c ∧ c ≤ '9' := by
    simpa [Char.isDigit, Char.le_def] using hc
  simp only [Text.digitIn, Text.digitValue, hrange, decide_true, Bool.and_self, if_true,
    Option.filter_eq_some_iff, Option.some.injEq] at h
  exact h.1

/-- Digits are taken up as long as their number fits. -/
theorem absorb_of_appendDigits (hds : ∀ c ∈ ds, c.isDigit = true)
    (h : Text.appendDigits 10 m ds = some n) (hn : n < UInt64.size) :
    m ≤ n ∧ absorb m ds = (n, 0) := by
  induction ds generalizing m with
  | nil =>
    obtain rfl : m = n := Option.some.inj h
    exact ⟨Nat.le_refl _, rfl⟩
  | cons c cs ih =>
    cases hc : Text.digitIn 10 c with
    | none => simp [Text.appendDigits, hc] at h
    | some k =>
      simp only [Text.appendDigits, hc] at h
      have hvalue : digitValue c = k := digitValue_of_digitIn (hds c (List.mem_cons_self ..)) hc
      obtain ⟨hle, hrest⟩ := ih (fun d hd => hds d (List.mem_cons_of_mem _ hd)) h
      -- what has been read so far is never more than the whole number
      have hfits : m * 10 + k < UInt64.size := by omega
      exact ⟨by omega, by simp only [absorb, hvalue, hfits, if_true, hrest]⟩

/-- A number of 64 bits is read from its digits. -/
theorem number_repr (hn : n < UInt64.size) (h : Closed rest) :
    number false ((Nat.repr n).toList ++ rest) = some (.integer n, rest) := by
  have hdigits : ∀ c ∈ Nat.toDigits 10 n, c.isDigit = true := fun c hc =>
    Nat.isDigit_of_mem_toDigits (by decide) (by decide) hc
  have hvalue : Text.appendDigits 10 0 (Nat.toDigits 10 n) = some n := by
    simpa using Text.appendDigits_toDigits (f := id) (by decide) Text.digitIn_ten n
  have hzero : ((Nat.toDigits 10 n).isEmpty ||
      (decide ((Nat.toDigits 10 n).length > 1) && (Nat.toDigits 10 n).head? == some '0')) = false := by
    by_cases hn : n = 0
    · subst hn
      decide
    · obtain ⟨c, cs, hcs, hc⟩ := Text.toDigits_eq_cons n hn
      simp [hcs, hc]
  rw [Nat.toList_repr, number, digitRun_append hdigits h]
  simp only [hzero, Bool.false_eq_true, if_false, (absorb_of_appendDigits hdigits hvalue hn).2]
  cases rest with
  | nil => rfl
  | cons c cs =>
    obtain ⟨-, hdot, he, hE⟩ := h c rfl
    simp [he, hE, integerOf]

theorem head_repr (n : Nat) : ∃ c ds, (Nat.repr n).toList = c :: ds ∧ c.isDigit = true := by
  rw [Nat.toList_repr]
  obtain ⟨c, ds, hcs⟩ := List.exists_cons_of_ne_nil (Nat.toDigits_ne_nil (n := n) (b := 10))
  exact ⟨c, ds, hcs,
    Nat.isDigit_of_mem_toDigits (by decide) (by decide) (hcs ▸ List.mem_cons_self ..)⟩

theorem ne_of_isDigit (hc : c.isDigit = true) {d : Char} (hd : d.isDigit = false) : c ≠ d := by
  rintro rfl
  rw [hc] at hd
  cases hd

theorem isSpace_of_isDigit (hc : c.isDigit = true) : isSpace c = false := by
  have hne := fun d => ne_of_isDigit hc (d := d)
  simp [isSpace, hne ' ' (by decide), hne '\n' (by decide), hne '\t' (by decide),
    hne '\r' (by decide)]

theorem scalar_number {n : Nat} (hn : n < UInt64.size) (h : Closed rest) :
    scalar ((Nat.repr n).toList ++ rest) = some (.integer n, rest) := by
  obtain ⟨c, ds, hcs, hc⟩ := head_repr n
  have hnumber := number_repr hn h
  rw [hcs, List.cons_append] at hnumber ⊢
  simp [scalar, ne_of_isDigit hc (show '\x22'.isDigit = false by decide),
    ne_of_isDigit hc (show '-'.isDigit = false by decide), hc, hnumber]

end LockDiscipline.Json
