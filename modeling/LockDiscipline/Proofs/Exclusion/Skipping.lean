import LockDiscipline.Proofs.Exclusion.Counting

namespace LockDiscipline.Exclusion

namespace Crowd

variable {turns : Nat → Option Nat} {tasks : Nat → Task} {i e a b c n : Nat} {k : Key}
  {t : String}

theorem isEnabled_succ
    (hquiet : ∀ j, turns n = some j → (fresh tasks turns n).calls j ≠ .disableKnown t)
    (h : (fresh tasks turns n).guard.isEnabled t = true) :
    (fresh tasks turns (n + 1)).guard.isEnabled t = true := by
  obtain ⟨on, late, early, hledger⟩ := exists_ledger tasks turns n
  cases ht : turns n with
  | none => rwa [fresh, moment_succ_none ht]
  | some j =>
    rw [fresh, moment_succ_some ht, ← (hledger.step j).mem_on]
    exact Call.mem_regroup_of_mem ((hledger.mem_on t).2 h) (hquiet j ht)

theorem isEnabled_of_quiet (hquiet : ∀ m j, a ≤ m → m < n → turns m = some j →
      (fresh tasks turns m).calls j ≠ .disableKnown t)
    (h : (fresh tasks turns a).guard.isEnabled t = true) (han : a ≤ n) :
    (fresh tasks turns n).guard.isEnabled t = true := by
  induction han with
  | refl => exact h
  | @step m ham ih =>
    exact isEnabled_succ (hquiet m · ham (Nat.lt_succ_self m))
      (ih fun l j hal hlm => hquiet l j hal (Nat.lt_succ_of_lt hlm))

/-- Once detection has been switched on for a type, it is on as long as nobody takes its flag off. A
call that is made to switch the type off does so with its second access. -/
theorem isEnabled_of_enabled {r : Except Fault Unit} (hba : b ≤ a) (han : a ≤ n)
    (hbegins : (fresh tasks turns b).calls e = .enable t)
    (hends : (fresh tasks turns a).calls e = .ended r)
    (hquiet : ∀ m j, b ≤ m → m < n → turns m = some j →
      (fresh tasks turns m).calls j ≠ .disableKnown t) :
    (fresh tasks turns n).guard.isEnabled t = true := by
  obtain ⟨m, hbm, hma, -, hm, hknown⟩ := exists_going hba hbegins (by simp [hends])
  have hcall : (fresh tasks turns (m + 1)).calls e = .enableKnown t := by
    rw [fresh, hknown, calls_step_self, hm, Call.step]
  obtain ⟨p, hmp, hpa, -, hp, hreset⟩ := exists_going (n := a) hma hcall (by simp [hends])
  have hcall : (fresh tasks turns (p + 1)).calls e = .enableReset t := by
    rw [fresh, hreset, calls_step_self, hp, Call.step]
  obtain ⟨q, hpq, hqa, -, hq, hon⟩ := exists_going (n := a) hpa hcall (by simp [hends])
  -- the type is known when it is switched on, so it really is on afterwards
  obtain ⟨on, late, early, hledger⟩ := exists_ledger tasks turns q
  have hset : (fresh tasks turns (q + 1)).guard.isEnabled t = true := by
    rw [fresh, hon, ← (hledger.step e).mem_on, hq]
    exact Finset.mem_insert_self t on
  exact isEnabled_of_quiet (fun l j hl => hquiet l j (by omega)) hset (by omega)

/-- The check has said at moment `a` that its type was exercised, and has set the mark of its value
at moment `b`, or has found one there. -/
structure Marks (tasks : Nat → Task) (turns : Nat → Option Nat) (k : Key) (i a b : Nat) : Prop where
  flagTurn : turns a = some i
  flags : (fresh tasks turns a).calls i = .checkEnabled k
  exercised : (fresh tasks turns (a + 1)).guard.wasExercised k.typeName = true
  markTurn : turns b = some i
  marks : (fresh tasks turns b).calls i = .checkExercised k
  marked : (fresh tasks turns (b + 1)).guard.isMarked k = true

/-- A check that has not been turned away at once marks its value if its type stays on. -/
theorem exists_marks {r : Except Fault Unit} (hcn : c ≤ n)
    (hcalls : (fresh tasks turns c).calls i = .checkSome k)
    (hended : (fresh tasks turns n).calls i = .ended r)
    (hon : ∀ m, c ≤ m → m ≤ n → (fresh tasks turns m).guard.isEnabled k.typeName = true) :
    ∃ a b, c ≤ a ∧ a < b ∧ b < n ∧ Marks tasks turns k i a b := by
  -- the check goes on four times before it waits, and each time it looks its type is on
  obtain ⟨p, hcp, hpn, -, hp, hknown⟩ := exists_going hcn hcalls (by simp [hended])
  have hcall : (fresh tasks turns (p + 1)).calls i = .checkKnown k := by
    rw [fresh, hknown, calls_step_self, hp, Call.step,
      if_pos (Guard.isSome_of_isEnabled (hon p hcp (Nat.le_of_lt hpn)))]
  obtain ⟨q, hpq, hqn, -, hq, henabled⟩ := exists_going (n := n) hpn hcall (by simp [hended])
  have hcall : (fresh tasks turns (q + 1)).calls i = .checkEnabled k := by
    rw [fresh, henabled, calls_step_self, hq, Call.step, if_pos (hon q (by omega) (by omega))]
  obtain ⟨a, hqa, han, hta, ha, hflag⟩ := exists_going (n := n) hqn hcall (by simp [hended])
  have hexercised : (fresh tasks turns (a + 1)).guard.wasExercised k.typeName = true := by
    have hknown := Guard.isSome_of_isEnabled (hon a (by omega) (by omega))
    rw [fresh, hflag, step, ha]
    exact Guard.wasExercised_update hknown
  have hcall : (fresh tasks turns (a + 1)).calls i = .checkExercised k := by
    rw [fresh, hflag, calls_step_self, ha, Call.step]
  obtain ⟨b, hab, hbn, htb, hb, hmark⟩ := exists_going (n := n) han hcall (by simp [hended])
  refine ⟨a, b, by omega, hab, hbn, hta, ha, hexercised, htb, hb, ?_⟩
  rw [fresh, hmark]
  exact (enters_step hb).1

/-- A check whose type nobody switches off marks its value, unless the calls that still have a type
to add are as many, when it looks at the count, as the types that are on and the calls that still
have one to take off. -/
theorem marks_iff {q r : Except Fault Unit} (hba : b ≤ a) (hac : a ≤ c) (hcn : c ≤ n)
    (hbegins : (fresh tasks turns b).calls e = .enable k.typeName)
    (henabled : (fresh tasks turns a).calls e = .ended q)
    (hquiet : ∀ m j, b ≤ m → m < n → turns m = some j →
      (fresh tasks turns m).calls j ≠ .disableKnown k.typeName)
    (hturn : turns c = some i) (hcheck : (fresh tasks turns c).calls i = .check k)
    (hended : (fresh tasks turns n).calls i = .ended r) :
    (∃ a b, c < a ∧ a < b ∧ b < n ∧ Marks tasks turns k i a b) ↔
      ¬ (fresh tasks turns c).uncounted ≡
        (fresh tasks turns c).typesOn + (fresh tasks turns c).stillCounted [MOD UInt64.size] := by
  have hlater : c < n := by
    refine Nat.lt_of_le_of_ne hcn ?_
    rintro rfl
    rw [hcheck] at hended
    cases hended
  have hon : ∀ m, c + 1 ≤ m → m ≤ n → (fresh tasks turns m).guard.isEnabled k.typeName = true :=
    fun m hcm hmn => isEnabled_of_enabled hba (by omega) hbegins henabled
      fun l j hbl hlm => hquiet l j hbl (by omega)
  have hnext : (fresh tasks turns (c + 1)).calls i =
      if (fresh tasks turns c).guard.enabledTypes = 0 then .ended (.ok ()) else .checkSome k := by
    rw [fresh, moment_succ_some hturn, calls_step_self, hcheck, Call.step]
  rw [← enabledTypes_eq_zero_iff]
  constructor
  · rintro ⟨p, l, hcp, hpl, -, hmarks⟩ hzero
    rw [if_pos hzero] at hnext
    have hstuck := calls_of_ended hnext (show c + 1 ≤ l by omega)
    rw [hmarks.marks] at hstuck
    cases hstuck
  · intro hcount
    rw [if_neg hcount] at hnext
    obtain ⟨p, l, hcp, hpl, hln, hmarks⟩ := exists_marks hlater hnext hended hon
    exact ⟨p, l, hcp, hpl, hln, hmarks⟩

/-- One call switches a type on for good. Two calls switch another type on and off, and a check is
about the first type. -/
def rivals : Nat → Task
  | 0 => .enable "u8"
  | 1 => .enable "u16"
  | 2 => .disable "u16"
  | _ => .check ⟨"u8", 0⟩

/-- The other type is on but not counted yet while the value is checked. -/
def behind (n : Nat) : Option Nat := [0, 0, 0, 0, 1, 1, 1, 3, 3, 3, 3, 3, 3][n]?

/-- The other type is on but not counted yet when it is switched off, counted or not. -/
def overtaking (n : Nat) : Option Nat := [0, 0, 0, 0, 1, 1, 1, 2, 2, 2, 3][n]?

/-- Nobody ever switches the type off. -/
theorem rivals_quiet (turns : Nat → Option Nat) (n j : Nat) :
    (fresh rivals turns n).calls j ≠ .disableKnown "u8" := by
  intro h
  have htask := task?_moment Guard.empty rivals turns n j
  rw [h] at htask
  rcases j with _ | _ | _ | j <;> simp [Call.task?, rivals] at htask

theorem marks_iff_behind :
    (fresh rivals behind 4).calls 0 = .ended (.ok ()) ∧
      (fresh rivals behind 13).calls 3 = .ended (.ok ()) ∧
      ¬ (fresh rivals behind 7).uncounted ≡
        (fresh rivals behind 7).typesOn + (fresh rivals behind 7).stillCounted [MOD UInt64.size] :=
  ⟨rfl, rfl, (marks_iff (e := 0) (i := 3) (b := 0) (a := 4) (c := 7) (n := 13) (k := ⟨"u8", 0⟩)
    (by decide) (by decide) (by decide) rfl rfl
    (fun m j _ _ _ => rivals_quiet behind m j) rfl rfl rfl).1
      ⟨10, 11, by decide, by decide, by decide, rfl, rfl, rfl, rfl, rfl, rfl⟩⟩

/-- The type has been on from moment 3, all calls for it have ended, nobody ever switches it off,
and still the check that starts at moment 10 is over at once and has marked nothing. -/
theorem skipped_while_on :
    (fresh rivals overtaking 4).calls 0 = .ended (.ok ()) ∧
      (∀ i, rivals i ≠ .disable "u8") ∧
      (fresh rivals overtaking 10).guard.isEnabled "u8" = true ∧
      (fresh rivals overtaking 10).calls 3 = .check ⟨"u8", 0⟩ ∧
      overtaking 10 = some 3 ∧
      (fresh rivals overtaking 11).calls 3 = .ended (.ok ()) ∧
      (fresh rivals overtaking 11).guard.wasExercised "u8" = false ∧
      (fresh rivals overtaking 11).guard.isMarked ⟨"u8", 0⟩ = false := by
  refine ⟨rfl, fun i => ?_, rfl, rfl, rfl, rfl, rfl, rfl⟩
  rcases i with _ | _ | _ | i <;> simp [rivals]

end Crowd

end LockDiscipline.Exclusion
