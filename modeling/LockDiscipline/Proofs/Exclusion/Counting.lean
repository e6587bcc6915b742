import Mathlib.Data.Set.Card
import LockDiscipline.Proofs.Exclusion.Windows

namespace LockDiscipline.Exclusion

namespace Call

/-- Whether the call has switched a type on and not counted it yet. -/
def isLate : Call → Bool
  | enableCount _ => true
  | _ => false

/-- Whether the call has switched a type off that is still counted. -/
def isEarly : Call → Bool
  | disableCount _ => true
  | _ => false

/-- The types that have detection on after the access. -/
def regroup : Call → Finset String → Finset String
  | enableReset t, on => insert t on
  | disableKnown t, on => on.erase t
  | _, on => on

/-- What the call is about to change is known. -/
def Grounded (g : Guard) : Call → Prop
  | enableKnown t | enableReset t => (g.detection? t).isSome = true
  | _ => True

variable {g : Guard} {c d : Call} {t : String} {on : Finset String}

theorem isSome_step (g : Guard) (c : Call) (h : (g.detection? t).isSome = true) :
    ((c.step g).1.detection? t).isSome = true := by
  cases c with
  | checkExercised k => simp only [step]; split <;> exact h
  | enableCount u | disableCount u => exact h
  | _ => simp [step, h]

theorem Grounded.after (h : d.Grounded g) (c : Call) : d.Grounded (c.step g).1 := by
  cases d with
  | enableKnown t | enableReset t => exact isSome_step g c h
  | _ => trivial

theorem Grounded.step (h : c.Grounded g) : (c.step g).2.Grounded (c.step g).1 := by
  cases c with
  | enable t => simp [Call.step, Grounded]
  | enableKnown t => simpa [Call.step, Grounded] using h
  | check k | checkSome k | checkKnown k | checkExercised k | enableReset t | disable t
  | disableKnown t =>
    simp only [Call.step]
    split <;> trivial
  | _ => trivial

theorem mem_regroup (hon : ∀ t, t ∈ on ↔ g.isEnabled t = true) (hc : c.Grounded g) (t : String) :
    t ∈ c.regroup on ↔ (c.step g).1.isEnabled t = true := by
  cases c with
  | enableReset u =>
    obtain ⟨d, hd⟩ := Option.isSome_iff_exists.1 hc
    simp only [regroup, Finset.mem_insert, step, Guard.isEnabled_update, hd, hon]
    split
    · next h => simp [h]
    · next h => simp [h]
  | disableKnown u =>
    simp only [regroup, Finset.mem_erase, step, Guard.isEnabled_update, hon]
    split
    · next h => simp [h]
    · next h => simp [h]
  | enableKnown u =>
    refine (hon t).trans ?_
    rw [step, Guard.isEnabled_update_of_same]
    exact fun _ => rfl
  | checkEnabled k =>
    refine (hon t).trans ?_
    rw [step, Guard.isEnabled_update_of_same]
    exact fun _ => rfl
  | enable u =>
    refine (hon t).trans ?_
    rw [step, Guard.isEnabled_register]
  | checkExercised k =>
    refine (hon t).trans ?_
    simp only [step]
    split <;> rfl
  | _ => exact hon t

theorem mem_regroup_of_mem (h : t ∈ on) (hc : c ≠ .disableKnown t) : t ∈ c.regroup on := by
  cases c with
  | enableReset u => exact Finset.mem_insert_of_mem h
  | disableKnown u => exact Finset.mem_erase.2 ⟨fun heq => hc (heq ▸ rfl), h⟩
  | _ => exact h

/-- How an access changes the count and all that it is made of, up to whole turns of the count. -/
theorem count_step (hon : ∀ t, t ∈ on ↔ g.isEnabled t = true) :
    ((c.step g).1.enabledTypes.toNat + (c.step g).2.isLate.toNat + (on.card + c.isEarly.toNat)) %
        UInt64.size =
      (g.enabledTypes.toNat + c.isLate.toNat +
        ((c.regroup on).card + (c.step g).2.isEarly.toNat)) % UInt64.size := by
  cases c with
  | enableReset t =>
    cases ht : g.isEnabled t with
    | true => simp [step, isLate, isEarly, regroup, ht, (hon t).2 ht]
    | false =>
      have hnew : t ∉ on := by simp [hon, ht]
      simp only [step, isLate, isEarly, regroup, ht, Finset.card_insert_of_notMem hnew,
        Guard.enabledTypes_update, Bool.false_eq_true, if_false, Bool.toNat_true, Bool.toNat_false]
      congr 1
      omega
  | disableKnown t =>
    cases ht : g.isEnabled t with
    | true =>
      have hcard := Finset.card_erase_add_one ((hon t).2 ht)
      simp only [step, isLate, isEarly, regroup, ht, if_true, Guard.enabledTypes_update,
        Bool.toNat_true, Bool.toNat_false, hcard]
      rfl
    | false =>
      have hnew : t ∉ on := by simp [hon, ht]
      simp [step, isLate, isEarly, regroup, ht, Finset.erase_eq_of_notMem hnew]
  | enableCount t =>
    simp only [step, isLate, isEarly, regroup, UInt64.toNat_add, Bool.toNat_true, Bool.toNat_false,
      UInt64.size, UInt64.reduceToNat]
    omega
  | disableCount t =>
    simp only [step, isLate, isEarly, regroup, UInt64.toNat_sub, Bool.toNat_true, Bool.toNat_false,
      UInt64.size, UInt64.reduceToNat]
    omega
  | check k | checkSome k | checkKnown k | checkExercised k | marked k | disable t =>
    simp only [step]
    split <;> simp [isLate, isEarly, regroup]
  | _ => simp [step, isLate, isEarly, regroup]

end Call

namespace Crowd

variable {s : Crowd} {i n : Nat} {on : Finset String} {late early : Finset Nat}

/-- The calls of which something holds, after one of them has gone on. -/
def place (i : Nat) (p : Bool) (calls : Finset Nat) : Finset Nat :=
  if p then insert i calls else calls.erase i

theorem mem_place {p : Call → Bool} (h : ∀ j, j ∈ late ↔ p (s.calls j) = true) (i j : Nat) :
    j ∈ place i (p ((s.step i).calls i)) late ↔ p ((s.step i).calls j) = true := by
  by_cases hj : j = i
  · subst hj
    cases hp : p ((s.step j).calls j) <;> simp [place]
  · rw [calls_step_of_ne s hj, ← h]
    cases p ((s.step i).calls i) <;> simp [place, hj]

theorem card_place {p : Call → Bool} (h : ∀ j, j ∈ late ↔ p (s.calls j) = true) (i : Nat) (q : Bool) :
    (place i q late).card + (p (s.calls i)).toNat = late.card + q.toNat := by
  cases hp : p (s.calls i) with
  | true =>
    have hmem := (h i).2 hp
    cases q with
    | true => simp [place, hmem]
    | false => simpa [place] using Finset.card_erase_add_one hmem
  | false =>
    have hnew : i ∉ late := by simp [h, hp]
    cases q with
    | true => simp [place, Finset.card_insert_of_notMem hnew]
    | false => simp [place, hnew]

/-- What the count of the types is made of after some accesses, up to whole turns of the count: the
types that have detection on, the calls that still have one to add and those that still have one to
take off. -/
structure Ledger (on : Finset String) (late early : Finset Nat) (s : Crowd) : Prop where
  mem_on : ∀ t, t ∈ on ↔ s.guard.isEnabled t = true
  mem_late : ∀ i, i ∈ late ↔ (s.calls i).isLate = true
  mem_early : ∀ i, i ∈ early ↔ (s.calls i).isEarly = true
  grounded : ∀ i, (s.calls i).Grounded s.guard
  count : (s.guard.enabledTypes.toNat + late.card) % UInt64.size =
    (on.card + early.card) % UInt64.size

namespace Ledger

theorem start (tasks : Nat → Task) : Ledger ∅ ∅ ∅ (Crowd.start Guard.empty tasks) where
  mem_on t := by
    have hoff : Guard.empty.isEnabled t = false := rfl
    simp [Crowd.start, hoff]
  mem_late i := by
    show _ ↔ ((tasks i).call).isLate = true
    cases tasks i <;> simp [Task.call, Call.isLate]
  mem_early i := by
    show _ ↔ ((tasks i).call).isEarly = true
    cases tasks i <;> simp [Task.call, Call.isEarly]
  grounded i := by
    show ((tasks i).call).Grounded _
    cases tasks i <;> trivial
  count := rfl

/-- One access keeps the books, whatever it is. -/
theorem step (h : Ledger on late early s) (i : Nat) :
    Ledger ((s.calls i).regroup on) (place i ((s.step i).calls i).isLate late)
      (place i ((s.step i).calls i).isEarly early) (s.step i) := by
  have hlate := card_place h.mem_late i ((s.step i).calls i).isLate
  have hearly := card_place h.mem_early i ((s.step i).calls i).isEarly
  have hstep := Call.count_step (c := s.calls i) h.mem_on
  have hcount := h.count
  rw [← calls_step_self] at hstep
  refine ⟨Call.mem_regroup h.mem_on (h.grounded i), mem_place h.mem_late i, mem_place h.mem_early i,
    fun j => ?_, ?_⟩
  · by_cases hj : j = i
    · subst hj
      rw [calls_step_self]
      exact (h.grounded j).step
    · rw [calls_step_of_ne s hj]
      exact (h.grounded j).after _
  · -- what the access adds to one side of the books it adds to the other
    change ((((s.calls i).step s.guard).1.enabledTypes.toNat + _) % _) = _
    simp only [UInt64.size] at hstep hcount ⊢
    omega

end Ledger

/-- A fresh guard and the calls that go on with it, after some time. -/
abbrev fresh (tasks : Nat → Task) (turns : Nat → Option Nat) (n : Nat) : Crowd :=
  (start Guard.empty tasks).moment turns n

theorem exists_ledger (tasks : Nat → Task) (turns : Nat → Option Nat) (n : Nat) :
    ∃ on late early, Ledger on late early (fresh tasks turns n) := by
  refine moment_induction (P := fun u => ∃ on late early, Ledger on late early u) ?_ (a := 0)
    ⟨_, _, _, .start tasks⟩ (Nat.zero_le n)
  rintro u i ⟨on, late, early, h⟩
  exact ⟨_, _, _, h.step i⟩

/-- How many types have detection on. -/
noncomputable def typesOn (s : Crowd) : Nat := {t | s.guard.isEnabled t = true}.ncard

/-- How many calls have switched a type on and not counted it yet. -/
noncomputable def uncounted (s : Crowd) : Nat := {i | (s.calls i).isLate = true}.ncard

/-- How many calls have switched a type off that is still counted. -/
noncomputable def stillCounted (s : Crowd) : Nat := {i | (s.calls i).isEarly = true}.ncard

theorem ncard_eq_card {α : Type} {S : Finset α} {P : α → Prop} (h : ∀ x, x ∈ S ↔ P x) :
    {x | P x}.ncard = S.card := by
  rw [← Set.ncard_coe_finset]
  congr 1
  ext x
  exact (h x).symm

/-- The count is zero when as many calls have a type to add as there are types that have detection
on and calls that have one to take off, up to whole turns of the count. -/
theorem enabledTypes_eq_zero_iff (tasks : Nat → Task) (turns : Nat → Option Nat) (n : Nat) :
    (fresh tasks turns n).guard.enabledTypes = 0 ↔
      (fresh tasks turns n).uncounted ≡
        (fresh tasks turns n).typesOn + (fresh tasks turns n).stillCounted [MOD UInt64.size] := by
  obtain ⟨on, late, early, h⟩ := exists_ledger tasks turns n
  have hcount := h.count
  have hlt := (fresh tasks turns n).guard.enabledTypes.toNat_lt
  rw [typesOn, stillCounted, uncounted, ncard_eq_card h.mem_on, ncard_eq_card h.mem_late,
    ncard_eq_card h.mem_early, ← UInt64.toNat_inj, UInt64.toNat_zero, Nat.ModEq]
  simp only [UInt64.size] at hcount ⊢
  omega

end Crowd

end LockDiscipline.Exclusion
