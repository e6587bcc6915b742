import LockDiscipline.Proofs.Exclusion.Crowd

namespace LockDiscipline.Exclusion

/-- Whether calls for the task can matter to checks of the value. -/
def Task.concerns (k : Key) : Task → Bool
  | .check l => l = k
  | .enable _ | .disable _ => true

/-- What checks of the value see is the same in both guards. -/
structure Alike (k : Key) (g h : Guard) : Prop where
  marked : g.isMarked k = h.isMarked k
  count : g.enabledTypes = h.enabledTypes
  types : ∀ t, (g.detection? t).map (·.enabled) = (h.detection? t).map (·.enabled)

namespace Call

/-- The call, but for the result that it ended with. -/
def stage : Call → Call
  | ended _ => ended (.ok ())
  | c => c

theorem eq_or_ended_of_stage {c d : Call} (h : c.stage = d.stage) :
    c = d ∨ ∃ q r, c = ended q ∧ d = ended r := by
  cases c <;> cases d <;> simp_all [stage]

end Call

/-- Two calls for the same task stand at the same access. What a switch ends with does not
matter. -/
def Task.Same : Task → Call → Call → Prop
  | .check _, c, d => c = d
  | .enable _, c, d | .disable _, c, d => c.stage = d.stage

namespace Alike

variable {k l : Key} {g h : Guard} {t : String} {c d : Call} {task : Task}

theorem isSome (hgh : Alike k g h) (t : String) :
    (g.detection? t).isSome = (h.detection? t).isSome := by
  rw [← Option.isSome_map (f := (·.enabled)), hgh.types t, Option.isSome_map]

theorem isEnabled (hgh : Alike k g h) (t : String) : g.isEnabled t = h.isEnabled t := by
  have hmap : ∀ g : Guard, g.isEnabled t = ((g.detection? t).map (·.enabled)).any id := by
    intro g
    rw [Option.any_map]
    rfl
  rw [hmap, hmap, hgh.types t]

theorem mark (hgh : Alike k g h) (l : Key) : Alike k (g.mark l) (h.mark l) :=
  ⟨by simp [hgh.marked], hgh.count, hgh.types⟩

theorem clear (hgh : Alike k g h) (l : Key) : Alike k (g.clear l) (h.clear l) :=
  ⟨by simp [hgh.marked], hgh.count, hgh.types⟩

/-- A change that goes by nothing but whether detection is on. -/
theorem update (hgh : Alike k g h) (t : String) {f : Detection → Detection} {e : Bool → Bool}
    (hf : ∀ x, (f x).enabled = e x.enabled) : Alike k (g.update t f) (h.update t f) := by
  have hmap : ∀ o : Option Detection,
      (o.map f).map (·.enabled) = (o.map (·.enabled)).map e := by
    rintro (_ | x)
    · rfl
    · simp [hf]
  refine ⟨by simp [hgh.marked], by simp [hgh.count], fun u => ?_⟩
  rw [Guard.detection?_update, Guard.detection?_update]
  split
  · rw [hmap, hmap, hgh.types t]
  · exact hgh.types u

theorem register (hgh : Alike k g h) (t : String) : Alike k (g.register t) (h.register t) := by
  refine ⟨by simp [hgh.marked], by simp [hgh.count], fun u => ?_⟩
  have htypes := hgh.types t
  rw [Guard.detection?_register, Guard.detection?_register]
  split
  · cases hg : g.detection? t <;> cases hh : h.detection? t <;> rw [hg, hh] at htypes <;>
      simp_all
  · exact hgh.types u

theorem recount (hgh : Alike k g h) (f : UInt64 → UInt64) :
    Alike k { g with enabledTypes := f g.enabledTypes } { h with enabledTypes := f h.enabledTypes } :=
  ⟨hgh.marked, by simp [hgh.count], hgh.types⟩

/-- A check of another value changes nothing that can be seen. -/
theorem step_other (hgh : Alike k g h) (hl : l ≠ k)
    (hc : c.task? = none ∨ c.task? = some (.check l)) : Alike k (c.step g).1 h := by
  cases c with
  | check | checkSome | checkKnown | ended => exact hgh
  | checkEnabled m =>
    refine ⟨by simp [Call.step, hgh.marked], by simp [Call.step, hgh.count], fun u => ?_⟩
    rw [← hgh.types u, Call.step, Guard.detection?_update]
    split
    · next hu =>
      rw [hu, Option.map_map]
      rfl
    · rfl
  | checkExercised m =>
    simp only [Call.task?, reduceCtorEq, Option.some.injEq, Task.check.injEq, false_or] at hc
    subst hc
    rw [Call.step]
    split
    · exact hgh
    · exact ⟨by simp [hgh.marked, Ne.symm hl], hgh.count, hgh.types⟩
  | collided m | marked m =>
    simp only [Call.task?, reduceCtorEq, Option.some.injEq, Task.check.injEq, false_or] at hc
    subst hc
    exact ⟨by simp [Call.step, hgh.marked, Ne.symm hl], hgh.count, hgh.types⟩
  | _ => simp [Call.task?] at hc

/-- A check of the value goes on in the same way. -/
theorem step_check (hgh : Alike k g h) (hc : c.task? = none ∨ c.task? = some (.check k)) :
    Alike k (c.step g).1 (c.step h).1 ∧ (c.step g).2 = (c.step h).2 := by
  cases c with
  | check l => exact ⟨hgh, by simp only [Call.step, hgh.count]⟩
  | checkSome l => exact ⟨hgh, by simp only [Call.step, hgh.isSome]⟩
  | checkKnown l => exact ⟨hgh, by simp only [Call.step, hgh.isEnabled]⟩
  | checkEnabled l => exact ⟨hgh.update l.typeName (e := id) fun _ => rfl, rfl⟩
  | checkExercised l =>
    simp only [Call.task?, reduceCtorEq, Option.some.injEq, Task.check.injEq, false_or] at hc
    subst hc
    rw [Call.step, Call.step, hgh.marked]
    split
    · exact ⟨hgh, rfl⟩
    · exact ⟨hgh.mark l, rfl⟩
  | collided l => exact ⟨hgh.clear l, rfl⟩
  | marked l =>
    simp only [Call.task?, reduceCtorEq, Option.some.injEq, Task.check.injEq, false_or] at hc
    subst hc
    exact ⟨hgh.clear l, by simp only [Call.step, hgh.marked]⟩
  | ended r => exact ⟨hgh, rfl⟩
  | _ => simp [Call.task?] at hc

/-- A switch goes on in the same way, but for its verdict. -/
theorem step_switch (hgh : Alike k g h) (hc : ∀ l, c.task? ≠ some (.check l)) :
    Alike k (c.step g).1 (c.step h).1 ∧ (c.step g).2.stage = (c.step h).2.stage := by
  cases c with
  | enable t => exact ⟨hgh.register t, rfl⟩
  | enableKnown t => exact ⟨hgh.update t (e := id) fun _ => rfl, rfl⟩
  | enableReset t =>
    exact ⟨hgh.update t (e := fun _ => true) fun _ => rfl, by simp only [Call.step, hgh.isEnabled]⟩
  | enableCount t => exact ⟨hgh.recount (· + 1), rfl⟩
  | disable t => exact ⟨hgh, by simp only [Call.step, hgh.isSome]⟩
  | disableKnown t =>
    exact ⟨hgh.update t (e := fun _ => false) fun _ => rfl,
      by simp only [Call.step, hgh.isEnabled]⟩
  | disableCount t => exact ⟨hgh.recount (· - 1), rfl⟩
  | disableVerdict t => exact ⟨hgh, rfl⟩
  | ended r => exact ⟨hgh, rfl⟩
  | _ => simp [Call.task?] at hc

theorem step (hgh : Alike k g h) (htask : task.concerns k = true)
    (hc : c.task? = none ∨ c.task? = some task) (hsame : task.Same c d) :
    Alike k (c.step g).1 (d.step h).1 ∧ task.Same (c.step g).2 (d.step h).2 := by
  cases task with
  | check l =>
    obtain rfl : l = k := by simpa [Task.concerns] using htask
    obtain rfl : c = d := hsame
    exact hgh.step_check hc
  | enable t | disable t =>
    rcases Call.eq_or_ended_of_stage hsame with rfl | ⟨q, r, rfl, rfl⟩
    · refine hgh.step_switch fun l hl => ?_
      rw [hl] at hc
      simp at hc
    · exact ⟨hgh, rfl⟩

end Alike

namespace Crowd

variable {tasks : Nat → Task} {turns : Nat → Option Nat} {k : Key}

/-- The turns that are left where checks of other values never go on. -/
def turnsFor (k : Key) (tasks : Nat → Task) (turns : Nat → Option Nat) (n : Nat) : Option Nat :=
  (turns n).filter fun i => (tasks i).concerns k

theorem alike_moment (g : Guard) (tasks : Nat → Task) (turns : Nat → Option Nat) (k : Key)
    (n : Nat) :
    Alike k ((start g tasks).moment turns n).guard
        ((start g tasks).moment (turnsFor k tasks turns) n).guard ∧
      ∀ i, (tasks i).concerns k = true →
        (tasks i).Same (((start g tasks).moment turns n).calls i)
          (((start g tasks).moment (turnsFor k tasks turns) n).calls i) := by
  induction n with
  | zero =>
    refine ⟨⟨rfl, rfl, fun _ => rfl⟩, fun i _ => ?_⟩
    cases h : tasks i <;> exact rfl
  | succ n ih =>
    obtain ⟨halike, hsame⟩ := ih
    have htask := task?_moment g tasks turns n
    cases ht : turns n with
    | none =>
      have htFor : turnsFor k tasks turns n = none := by rw [turnsFor, ht, Option.filter_none]
      rw [moment_succ_none ht, moment_succ_none htFor]
      exact ⟨halike, hsame⟩
    | some j =>
      rw [moment_succ_some ht]
      cases hj : (tasks j).concerns k with
      | false =>
        have htFor : turnsFor k tasks turns n = none := by simp [turnsFor, ht, hj]
        rw [moment_succ_none htFor]
        constructor
        · cases hl : tasks j with
          | check l =>
            rw [hl] at hj
            refine halike.step_other (l := l) (by simpa [Task.concerns] using hj) ?_
            rw [← hl]
            exact htask j
          | enable t | disable t => rw [hl] at hj; cases hj
        · intro i hi
          have hne : i ≠ j := by
            rintro rfl
            rw [hi] at hj
            cases hj
          rw [calls_step_of_ne _ hne]
          exact hsame i hi
      | true =>
        have htFor : turnsFor k tasks turns n = some j := by simp [turnsFor, ht, hj]
        rw [moment_succ_some htFor]
        obtain ⟨hguards, hcalls⟩ := halike.step hj (htask j) (hsame j hj)
        refine ⟨hguards, fun i hi => ?_⟩
        by_cases hij : i = j
        · subst hij
          rw [calls_step_self, calls_step_self]
          exact hcalls
        · rw [calls_step_of_ne _ hij, calls_step_of_ne _ hij]
          exact hsame i hi

/-- A check goes the same way whatever checks of other values do meanwhile. -/
theorem isolated (g : Guard) (n : Nat) {i : Nat} (hi : tasks i = .check k) :
    ((start g tasks).moment turns n).calls i =
      ((start g tasks).moment (turnsFor k tasks turns) n).calls i := by
  have hconcerns : (tasks i).concerns k = true := by rw [hi]; simp [Task.concerns]
  have hsame := (alike_moment g tasks turns k n).2 i hconcerns
  rw [hi] at hsame
  exact hsame

end Crowd

end LockDiscipline.Exclusion
