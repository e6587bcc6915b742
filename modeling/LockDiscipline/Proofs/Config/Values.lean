import LockDiscipline.Config.Environment
import LockDiscipline.Proofs.Text.Lowering
import Mathlib.Data.List.TakeWhile

namespace LockDiscipline.Config.Environment

/-- The value of a decimal digit. -/
@[irreducible] def digit (c : Char) : Nat := c.toNat - '0'.toNat

/-- The number that is written by decimal digits after those of another one. -/
def decimal : Nat → List Char → Nat
  | n, [] => n
  | n, c :: cs => decimal (n * 10 + digit c) cs

/-- A text without the plus sign that it starts with, unless it is that sign alone. -/
def unsigned : List Char → List Char
  | '+' :: c :: cs => c :: cs
  | cs => cs

/-- The text writes the word in decimal digits, perhaps after a plus sign. -/
def IsWord (s : String) (n : UInt64) : Prop :=
  ∃ ds, (s.toList = ds ∨ s.toList = '+' :: ds) ∧ ds ≠ [] ∧ (∀ c ∈ ds, c.isDigit = true) ∧
    decimal 0 ds = n.toNat

/-- What is said of a text that writes no word. The digits count up to the first character that is
none. -/
def wordComplaint (s : String) : String :=
  if s.toList = [] then "cannot parse integer from empty string"
  else if UInt64.size ≤ decimal 0 ((unsigned s.toList).takeWhile Char.isDigit) then
    "number too large to fit in target type"
  else "invalid digit found in string"

theorem digitIn_eq (c : Char) :
    Text.digitIn 10 c = if c.isDigit = true then some (digit c) else none := by
  have hle : ∀ a b : Char, (a ≤ b) = (a.toNat ≤ b.toNat) :=
    fun _ _ => propext UInt32.le_iff_toNat_le
  have hdigit : c.isDigit = true ↔ '0'.toNat ≤ c.toNat ∧ c.toNat ≤ '9'.toNat :=
    Char.isDigit_iff_toNat
  have hzero : '0'.toNat = 48 := rfl
  have hnine : '9'.toNat = 57 := rfl
  unfold Text.digitIn Text.digitValue digit
  simp only [hle, hdigit, hzero, hnine, Bool.and_eq_true, decide_eq_true_eq]
  split
  · simp
    omega
  · -- letters count from ten
    split
    · simp
    · split <;> simp

theorem le_decimal (n : Nat) (cs : List Char) : n ≤ decimal n cs := by
  induction cs generalizing n with
  | nil => exact Nat.le_refl n
  | cons c cs ih =>
    calc
      n ≤ n * 10 + digit c := by omega
      _ ≤ decimal (n * 10 + digit c) cs := ih _

/-- Digits that follow make a number no smaller, so what is too large once is too large. -/
theorem wordFrom_eq {n : Nat} (hn : n < UInt64.size) (cs : List Char) :
    wordFrom n cs =
      if UInt64.size ≤ decimal n (cs.takeWhile Char.isDigit) then
        .error "number too large to fit in target type"
      else if cs.all Char.isDigit = true then .ok (decimal n cs)
      else .error "invalid digit found in string" := by
  induction cs generalizing n with
  | nil =>
    rw [List.takeWhile_nil, decimal, if_neg (Nat.not_le.2 hn)]
    rfl
  | cons c cs ih =>
    rw [wordFrom, digitIn_eq, List.takeWhile_cons, List.all_cons]
    cases hc : c.isDigit with
    | false =>
      rw [if_neg Bool.false_ne_true, if_neg Bool.false_ne_true, Bool.false_and,
        if_neg Bool.false_ne_true, decimal, if_neg (Nat.not_le.2 hn)]
    | true =>
      rw [if_pos rfl, if_pos rfl, Bool.true_and, decimal, decimal]
      by_cases hsize : n * 10 + digit c < UInt64.size
      · rw [← ih hsize]
        exact if_pos hsize
      · -- the word stops here, and the digits after this one are too many as well
        rw [if_pos (Nat.le_trans (Nat.not_lt.1 hsize) (le_decimal _ _))]
        exact if_neg hsize

theorem word_eq (s : String) :
    word s =
      if s.toList = [] then .error "cannot parse integer from empty string"
      else if UInt64.size ≤ decimal 0 ((unsigned s.toList).takeWhile Char.isDigit) then
        .error "number too large to fit in target type"
      else if (unsigned s.toList).all Char.isDigit = true then
        .ok (UInt64.ofNat (decimal 0 (unsigned s.toList)))
      else .error "invalid digit found in string" := by
  have hword : word s = if s.toList = [] then .error "cannot parse integer from empty string"
      else (wordFrom 0 (unsigned s.toList)).map UInt64.ofNat := by
    unfold word unsigned
    generalize s.toList = cs
    split <;> simp_all
  rw [hword, wordFrom_eq (by decide), apply_ite (Except.map UInt64.ofNat),
    apply_ite (Except.map UInt64.ofNat)]
  rfl

theorem unsigned_cases (cs : List Char) : cs = unsigned cs ∨ cs = '+' :: unsigned cs := by
  unfold unsigned
  split
  · exact Or.inr rfl
  · exact Or.inl rfl

theorem unsigned_ne_nil {cs : List Char} (h : cs ≠ []) : unsigned cs ≠ [] := by
  unfold unsigned
  split
  · exact List.cons_ne_nil _ _
  · exact h

/-- No digit is a plus sign. -/
theorem unsigned_digits {ds : List Char} (h : ∀ c ∈ ds, c.isDigit = true) : unsigned ds = ds := by
  unfold unsigned
  split
  · exact absurd (h '+' (List.mem_cons_self ..)) (by decide)
  · rfl

theorem unsigned_plus {ds : List Char} (h : ds ≠ []) : unsigned ('+' :: ds) = ds := by
  cases ds with
  | nil => exact absurd rfl h
  | cons d ds => rfl

theorem isWord_iff {s : String} {n : UInt64} :
    IsWord s n ↔ s.toList ≠ [] ∧ (unsigned s.toList).all Char.isDigit = true ∧
      decimal 0 (unsigned s.toList) = n.toNat := by
  rw [List.all_eq_true]
  constructor
  · rintro ⟨ds, hs | hs, hne, hdigits, hvalue⟩
    · rw [hs, unsigned_digits hdigits]
      exact ⟨hne, hdigits, hvalue⟩
    · rw [hs, unsigned_plus hne]
      exact ⟨List.cons_ne_nil _ _, hdigits, hvalue⟩
  · rintro ⟨hne, hdigits, hvalue⟩
    exact ⟨_, unsigned_cases s.toList, unsigned_ne_nil hne, hdigits, hvalue⟩

theorem word_eq_ok_iff {s : String} {n : UInt64} : word s = .ok n ↔ IsWord s n := by
  rw [isWord_iff, word_eq]
  constructor
  · intro h
    split at h
    · cases h
    · next hne =>
      split at h
      · cases h
      · next hsize =>
        split at h
        · next hall =>
          cases h
          rw [List.takeWhile_eq_self_iff.2 (List.all_eq_true.1 hall), Nat.not_le] at hsize
          exact ⟨hne, hall, (UInt64.toNat_ofNat_of_lt' hsize).symm⟩
        · cases h
  · rintro ⟨hne, hall, hvalue⟩
    have hsize := UInt64.toNat_lt_size n
    rw [← hvalue] at hsize
    rw [if_neg hne, List.takeWhile_eq_self_iff.2 (List.all_eq_true.1 hall),
      if_neg (Nat.not_le.2 hsize), if_pos hall, hvalue, UInt64.ofNat_toNat]

theorem word_eq_error {s : String} (h : ¬ ∃ n, IsWord s n) :
    word s = .error (wordComplaint s) := by
  simp only [← word_eq_ok_iff] at h
  rw [word_eq] at h ⊢
  unfold wordComplaint
  by_cases hne : s.toList = []
  · rw [if_pos hne, if_pos hne]
  · rw [if_neg hne] at h
    rw [if_neg hne, if_neg hne]
    split
    · rfl
    · next hsize =>
      rw [if_neg hsize] at h
      exact if_neg fun hall => h ⟨_, if_pos hall⟩

/-- The words for a truth value. -/
def flagWords : Bool → List String
  | true => ["1", "true", "yes", "on"]
  | false => ["0", "false", "no", "off"]

theorem flagWords_ascii (b : Bool) :
    ∀ w ∈ flagWords b, ∀ d ∈ w.toList, d.toNat < 128 ∧ d ≠ 'k' := by
  cases b <;> simp [flagWords]

/-- The text says the truth value, in letters of either case. -/
def IsFlag (u : Text.Lowering) (s : String) (b : Bool) : Prop := u.lower s ∈ flagWords b

/-- The ASCII letters are enough to find the words for a truth value. -/
theorem isFlag_iff (u : Text.Lowering) {s : String} {b : Bool} :
    IsFlag u s b ↔ Text.lowerAscii s ∈ flagWords b := by
  unfold IsFlag
  constructor
  · intro h
    rwa [(u.lower_eq_iff (flagWords_ascii b _ h)).1 rfl]
  · intro h
    rwa [(u.lower_eq_iff (flagWords_ascii b _ h)).2 rfl]

theorem flag_eq (s : String) :
    flag s = if Text.lowerAscii s ∈ flagWords true then .ok true
      else if Text.lowerAscii s ∈ flagWords false then .ok false
      else .error "expected a boolean flag" := by
  simp [flag, flagWords]

theorem flagWords_disjoint : ∀ w ∈ flagWords false, w ∉ flagWords true := by decide

theorem flag_eq_ok_iff (u : Text.Lowering) {s : String} {b : Bool} :
    flag s = .ok b ↔ IsFlag u s b := by
  rw [isFlag_iff, flag_eq]
  generalize Text.lowerAscii s = w
  cases b with
  | true =>
    by_cases h : w ∈ flagWords true
    · simp [h]
    · rw [if_neg h]
      split <;> simp [h]
  | false =>
    by_cases h : w ∈ flagWords false
    · simp [h, flagWords_disjoint w h]
    · rw [if_neg h]
      split <;> simp [h]

theorem flag_eq_error {s : String} (h : ¬ ∃ b, flag s = .ok b) :
    flag s = .error "expected a boolean flag" := by
  rw [flag_eq] at h ⊢
  split
  · next htrue => exact absurd ⟨_, if_pos htrue⟩ h
  · next htrue =>
    rw [if_neg htrue] at h
    exact if_neg fun hfalse => h ⟨_, if_pos hfalse⟩

end LockDiscipline.Config.Environment
