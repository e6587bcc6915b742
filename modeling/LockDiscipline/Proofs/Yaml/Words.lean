import LockDiscipline.Proofs.Document.Entries
import LockDiscipline.Proofs.Yaml.Gathering

namespace LockDiscipline.Yaml

open LockDiscipline.Document

variable {c : Char} {cs : List Char} {anchored : Nat → Option (Datum Scalar)}

theorem isKeyChar_of_isDigit (h : c.isDigit = true) : isKeyChar c = true := by
  simp [isKeyChar, Char.isAlphanum, h]

/-- In a word nothing is read as anything else. -/
theorem mayBePlain_of_word (hword : cs.all isKeyChar = true) : mayBePlain cs = true := by
  have h : ∀ c ∈ cs, isKeyChar c = true := List.all_eq_true.1 hword
  have hspace : ∀ c ∈ cs, isSpace c = false := fun c hc => by
    simp [isSpace, ne_of_isKeyChar (h c hc) (d := ' ') (by decide)]
  have hends : ∀ ds : List Char, (∀ c ∈ ds, isKeyChar c = true) → endsEarly ds = false := by
    intro ds hds
    induction ds with
    | nil => rfl
    | cons c ds ih =>
      rw [endsEarly.eq_def]
      simp only [ih fun d hd => hds d (List.mem_cons_of_mem c hd), Bool.or_false]
      cases ds with
      | nil => rfl
      | cons d ds =>
        have hd := hds d (by simp)
        simp [ne_of_isKeyChar hd (d := ':') (by decide), ne_of_isKeyChar hd (d := '#') (by decide)]
  have hastray : leadsAstray cs = false := by
    cases cs with
    | nil => decide
    | cons c cs =>
      have hc := h c (List.mem_cons_self ..)
      have hdash := ne_of_isKeyChar hc (d := '-') (by decide)
      have hdot := ne_of_isKeyChar hc (d := '.') (by decide)
      have hmarks : "#,[]\x7b\x7d&*!|>\x27\x22%@\x60".contains c = false :=
        contains_eq_false (by decide) hc
      have hgap : "?:-".contains c = false := contains_eq_false (by decide) hc
      simp [leadsAstray, List.isPrefixOf, hmarks, hgap, hdash.symm, hdot.symm]
  have hhead : cs.head?.any isSpace = false := by
    cases cs with
    | nil => rfl
    | cons c cs => exact hspace c (List.mem_cons_self ..)
  have hlast : cs.getLast?.any isSpace = false := by
    cases hcs : cs.getLast? with
    | none => rfl
    | some d => exact hspace d (List.mem_of_getLast? hcs)
  simp only [mayBePlain, hhead, hlast, hastray, hends cs h, Bool.not_false, Bool.and_true,
    List.all_eq_true, Bool.and_eq_true, Bool.not_eq_true']
  exact fun c hc => ⟨isShown_of_isKeyChar (h c hc), (isGap_of_isKeyChar (h c hc)).2⟩

theorem isKeyChar_of_mem_repr {n : Nat} (h : c ∈ (Nat.repr n).toList) : isKeyChar c = true := by
  rw [Nat.toList_repr] at h
  exact isKeyChar_of_isDigit (Nat.isDigit_of_mem_toDigits (by decide) (by decide) h)

theorem toList_repr_ne_nil (n : Nat) : (Nat.repr n).toList ≠ [] := by
  rw [Nat.toList_repr]
  exact Nat.toDigits_ne_nil

/-- Digits that do not start with a zero are a number in radix ten. -/
theorem naturalOf_digits {s : String} (hs : s.toList = c :: cs) (hc : c.isDigit = true)
    (hzero : c ≠ '0') : naturalOf s = Text.naturalIn 10 (c :: cs) := by
  have hword := isKeyChar_of_isDigit hc
  have hplus : c ≠ '+' := ne_of_isKeyChar hword (by decide)
  have hminus : c ≠ '-' := ne_of_isKeyChar hword (by decide)
  have hradix : radix (c :: cs) = none := by
    unfold radix
    split
    · next heq => exact absurd (List.cons.inj heq).1 hzero
    · next heq => exact absurd (List.cons.inj heq).1 hzero
    · next heq => exact absurd (List.cons.inj heq).1 hzero
    · rfl
  have hled : zeroLed (c :: cs) = false := by
    have hsign : isSign c = false := by simp [isSign, hplus, hminus]
    simp only [zeroLed, hsign, Bool.false_eq_true, if_false]
    split
    · next heq => exact absurd (List.cons.inj heq).1 hzero
    · rfl
  simp [naturalOf, hs, hplus, hradix, hled]

/-- A number is read from its digits. -/
theorem naturalOf_repr (n : Nat) : naturalOf (Nat.repr n) = some n := by
  by_cases hn : n = 0
  · subst hn
    decide
  · obtain ⟨c, cs, hcs, hzero⟩ := Text.toDigits_eq_cons n hn
    have hdigit : c.isDigit = true :=
      Nat.isDigit_of_mem_toDigits (by decide) (by decide) (hcs ▸ List.mem_cons_self ..)
    have hlist : (Nat.repr n).toList = c :: cs := by rw [Nat.toList_repr, hcs]
    rw [naturalOf_digits hlist hdigit hzero, ← hcs, Text.naturalIn_toDigits]

theorem names_key (k : String) : Scope.Names ⟨dialect, anchored⟩ k (.leaf ⟨k, .plain, none⟩) :=
  fun _ _ => rfl

theorem reads_text (s : Scalar) : Reader.text.Reads ⟨dialect, anchored⟩ (.leaf s) s.text :=
  fun _ => rfl

/-- A text is there, since one that would be read as nothing is not written plain. -/
theorem reads_optional_text (s : String) :
    (Reader.optional .text).Reads ⟨dialect, anchored⟩ (.leaf ⟨s, styleFor s, none⟩) (some s) := by
  have hpresent : Scalar.presence ⟨s, styleFor s, none⟩ = .present := by
    rcases styleFor_cases s with ⟨hstyle, -⟩ | ⟨hstyle, htext, -⟩ | ⟨hstyle, -⟩ | hstyle
    · simp [Scalar.presence, hstyle]
    · have hfilled : (s = "" || isNullWord s) = false := by
        cases h : s = "" || isNullWord s with
        | false => rfl
        | true => simp [resolvesToText, resolve, h] at htext
      simp only [Scalar.presence, hstyle, ne_eq, not_true_eq_false, if_false]
      simpa using hfilled
    · simp [Scalar.presence, hstyle]
    · simp [Scalar.presence, hstyle]
  intro path
  simp only [Reader.optional, Scope.follow, dialect, hpresent]
  rfl

theorem reads_flag (b : Bool) :
    Reader.flag.Reads ⟨dialect, anchored⟩ (.leaf ⟨if b then "true" else "false", .plain, none⟩) b := by
  intro path
  cases b <;> rfl

theorem reads_word (type : String) (n : UInt64) :
    (Reader.word type).Reads ⟨dialect, anchored⟩ (.leaf ⟨Nat.repr n.toNat, .plain, none⟩) n := by
  have hlt : n.toNat < UInt64.size := n.toNat_lt
  refine Reader.reads_word rfl ?_ type
  simp [dialect, Scalar.answers, naturalOf_repr, hlt]

end LockDiscipline.Yaml
