import LockDiscipline.Proofs.Exclusion.Memory
import Mathlib.Logic.Function.Basic

namespace LockDiscipline.Exclusion

/-- What a call is made for. -/
inductive Task where
  | check (k : Key)
  | enable (t : String)
  | disable (t : String)
  deriving DecidableEq, Repr

/-- The call before its first access. -/
def Task.call : Task → Call
  | check k => .check k
  | enable t => .enable t
  | disable t => .disable t

/-- What a check of the value fails with. -/
def Key.conflict (k : Key) : Fault := .concurrentAccess k.typeName k.address

theorem Key.conflict_inj {k l : Key} : k.conflict = l.conflict ↔ k = l := by
  obtain ⟨t, a⟩ := k
  obtain ⟨u, b⟩ := l
  simp [Key.conflict]

namespace Call

/-- Whether the call has set a mark for the value and has not removed one yet. -/
def isInside (k : Key) : Call → Bool
  | collided l | marked l => l = k
  | _ => false

/-- All that an access can do as far as one value is concerned. -/
inductive Touches (k : Key) (g : Guard) (c : Call) (h : Guard) (d : Call) : Prop where
  /-- The call sets the mark, and goes by whether there was one. -/
  | enters (begins : c = .checkExercised k) (mark : h.isMarked k = true)
      (next : d = if g.isMarked k then .collided k else .marked k)
  /-- The call removes the mark and ends. -/
  | leaves (inside : c.isInside k = true) (mark : h.isMarked k = false)
      (next : d = .ended (.error k.conflict) ∧ (c = .collided k ∨ g.isMarked k = false) ∨
        d = .ended (.ok ()) ∧ c = .marked k ∧ g.isMarked k = true)
  /-- The access is about something else. -/
  | passes (apart : c ≠ .checkExercised k) (outside : c.isInside k = false)
      (mark : h.isMarked k = g.isMarked k) (next : d.isInside k = false)
      (ending : d = .ended (.error k.conflict) → c = d)

theorem step_touches (k : Key) (g : Guard) (c : Call) :
    Touches k g c (c.step g).1 (c.step g).2 := by
  cases c with
  | checkExercised l =>
    by_cases hl : l = k
    · subst hl
      refine .enters rfl ?_ ?_ <;> cases h : g.isMarked l <;> simp [step, h]
    · refine .passes (by simpa using hl) rfl ?_ ?_ ?_ <;>
        cases h : g.isMarked l <;> simp [step, h, isInside, hl, Ne.symm hl]
  | collided l =>
    by_cases hl : l = k
    · subst hl
      exact .leaves (by simp [isInside]) (by simp [step]) (Or.inl ⟨rfl, Or.inl rfl⟩)
    · have hfault : l.conflict ≠ k.conflict := Key.conflict_inj.not.2 hl
      exact .passes (by simp) (by simp [isInside, hl]) (by simp [step, Ne.symm hl]) rfl
        fun h => absurd (Except.error.inj (ended.inj h)) hfault
  | marked l =>
    by_cases hl : l = k
    · subst hl
      refine .leaves (by simp [isInside]) (by simp [step]) ?_
      cases h : g.isMarked l <;> simp [step, h, Key.conflict]
    · have hfault : l.conflict ≠ k.conflict := Key.conflict_inj.not.2 hl
      refine .passes (by simp) (by simp [isInside, hl]) (by simp [step, Ne.symm hl]) rfl ?_
      intro hd
      cases h : g.isMarked l with
      | true => simp [step, h] at hd
      | false =>
        simp only [step, h, Bool.false_eq_true, if_false] at hd
        exact absurd (Except.error.inj (ended.inj hd)) hfault
  | ended r => exact .passes (by simp) rfl rfl rfl fun _ => rfl
  | _ =>
    -- the mark of no value is touched, and whether a conflict is found does not show here
    refine .passes (by simp) rfl ?_ ?_ ?_
    · simp [step] <;> rfl
    · simp only [step]
      (try split) <;> rfl
    · simp only [step, Key.conflict]
      (try split) <;> simp

/-- What the call is made for, unless it has ended. -/
def task? : Call → Option Task
  | check k | checkSome k | checkKnown k | checkEnabled k | checkExercised k | collided k
  | marked k => some (.check k)
  | enable t | enableKnown t | enableReset t | enableCount t => some (.enable t)
  | disable t | disableKnown t | disableCount t | disableVerdict t => some (.disable t)
  | ended _ => none

theorem task?_step (g : Guard) (c : Call) :
    (c.step g).2.task? = none ∨ (c.step g).2.task? = c.task? := by
  cases c <;> simp only [step] <;> (try split) <;> simp [task?]

end Call

/-- What calls for the task can fail with. -/
def Task.fault? : Task → Option Fault
  | .check k => some k.conflict
  | .enable _ => none
  | .disable t => some (.notExercised t)

/-- A call fails with nothing but the fault of its task. -/
theorem Call.result_step {g : Guard} {c : Call} {task : Task} {r : Except Fault Unit}
    (hc : c.task? = some task) (h : (c.step g).2 = .ended r) :
    r = .ok () ∨ ∃ f, task.fault? = some f ∧ r = .error f := by
  cases c <;> simp only [task?, Option.some.injEq, reduceCtorEq] at hc <;> subst hc <;>
    simp only [step] at h <;> (try split at h) <;> cases h <;> simp [Task.fault?, Key.conflict]

/-- A guard and the calls that go on with it, each known by its number. -/
structure Crowd where
  guard : Guard
  calls : Nat → Call

namespace Crowd

def start (g : Guard) (tasks : Nat → Task) : Crowd := ⟨g, fun i => (tasks i).call⟩

/-- One call makes its next access. -/
def step (s : Crowd) (i : Nat) : Crowd where
  guard := ((s.calls i).step s.guard).1
  calls := Function.update s.calls i ((s.calls i).step s.guard).2

/-- What has become of the crowd after some time, where `turns` tells who goes on at each moment, if
anybody does. -/
def moment (s : Crowd) (turns : Nat → Option Nat) : Nat → Crowd
  | 0 => s
  | n + 1 => (turns n).elim (s.moment turns n) (s.moment turns n).step

variable {s : Crowd} {turns : Nat → Option Nat} {i j a n : Nat} {k : Key}

@[simp] theorem calls_step_self (s : Crowd) (i : Nat) :
    (s.step i).calls i = ((s.calls i).step s.guard).2 :=
  Function.update_self ..

@[simp] theorem calls_step_of_ne (s : Crowd) (h : j ≠ i) : (s.step i).calls j = s.calls j :=
  Function.update_of_ne h ..

theorem touches_step (s : Crowd) (i : Nat) (k : Key) :
    Call.Touches k s.guard (s.calls i) (s.step i).guard ((s.step i).calls i) := by
  rw [calls_step_self]
  exact Call.step_touches k s.guard (s.calls i)

theorem moment_succ_none (h : turns n = none) : s.moment turns (n + 1) = s.moment turns n := by
  rw [moment, h, Option.elim_none]

theorem moment_succ_some (h : turns n = some i) :
    s.moment turns (n + 1) = (s.moment turns n).step i := by
  rw [moment, h, Option.elim_some]

theorem moment_add (s : Crowd) (turns : Nat → Option Nat) (a n : Nat) :
    s.moment turns (a + n) = (s.moment turns a).moment (fun m => turns (a + m)) n := by
  induction n with
  | zero => rfl
  | succ n ih => rw [← Nat.add_assoc, moment, moment, ih]

/-- What is kept by every access is kept over time. -/
theorem moment_induction {P : Crowd → Prop} (hstep : ∀ s i, P s → P (s.step i))
    (h : P (s.moment turns a)) (han : a ≤ n) : P (s.moment turns n) := by
  induction han with
  | refl => exact h
  | @step n _ ih =>
    cases ht : turns n with
    | none => rwa [moment_succ_none ht]
    | some i =>
      rw [moment_succ_some ht]
      exact hstep _ i ih

theorem calls_of_ended {r : Except Fault Unit} (h : (s.moment turns a).calls i = .ended r)
    (han : a ≤ n) : (s.moment turns n).calls i = .ended r := by
  refine moment_induction (P := fun u => u.calls i = .ended r) ?_ h han
  intro u j hu
  by_cases hj : i = j
  · subst hj
    rw [calls_step_self, hu, Call.step]
  · rwa [calls_step_of_ne u hj]

theorem calls_of_isInside (h : ((s.moment turns a).calls i).isInside k = true) (han : a ≤ n) :
    (s.moment turns n).calls i = (s.moment turns a).calls i ∨
      ∃ r, (s.moment turns n).calls i = .ended r := by
  refine moment_induction (P := fun u => u.calls i = (s.moment turns a).calls i ∨
    ∃ r, u.calls i = .ended r) ?_ (Or.inl rfl) han
  intro u j hu
  by_cases hj : i = j
  · subst hj
    right
    rcases hu with hu | ⟨r, hu⟩
    · rw [← hu] at h
      cases u.touches_step i k with
      | enters begins => rw [begins] at h; cases h
      | leaves inside mark next =>
        rcases next with ⟨next, -⟩ | ⟨next, -⟩
        · exact ⟨_, next⟩
        · exact ⟨_, next⟩
      | passes apart outside => rw [outside] at h; cases h
    · exact ⟨r, by rw [calls_step_self, hu, Call.step]⟩
  · rwa [calls_step_of_ne u hj]

/-- A call whose turn never came stands where it stood. -/
theorem calls_of_no_turn (h : ∀ m, turns m ≠ some i) : (s.moment turns n).calls i = s.calls i := by
  induction n with
  | zero => rfl
  | succ n ih =>
    cases ht : turns n with
    | none => rwa [moment_succ_none ht]
    | some j =>
      have hne : i ≠ j := by
        rintro rfl
        exact h n ht
      rwa [moment_succ_some ht, calls_step_of_ne _ hne]

theorem task?_moment (g : Guard) (tasks : Nat → Task) (turns : Nat → Option Nat) (n i : Nat) :
    (((start g tasks).moment turns n).calls i).task? = none ∨
      (((start g tasks).moment turns n).calls i).task? = some (tasks i) := by
  refine moment_induction (P := fun u => (u.calls i).task? = none ∨
    (u.calls i).task? = some (tasks i)) ?_ (a := 0) ?_ (Nat.zero_le n)
  · intro u j hu
    by_cases hj : i = j
    · subst hj
      rw [calls_step_self]
      rcases Call.task?_step u.guard (u.calls i) with h | h
      · exact Or.inl h
      · rwa [h]
    · rwa [calls_step_of_ne u hj]
  · right
    show ((tasks i).call).task? = _
    cases tasks i <;> rfl

theorem result_moment {g : Guard} {tasks : Nat → Task} {r : Except Fault Unit}
    (h : ((start g tasks).moment turns n).calls i = .ended r) :
    r = .ok () ∨ ∃ f, (tasks i).fault? = some f ∧ r = .error f := by
  induction n with
  | zero =>
    exfalso
    cases hi : tasks i <;> simp [moment, start, Task.call, hi] at h
  | succ n ih =>
    cases ht : turns n with
    | none =>
      rw [moment_succ_none ht] at h
      exact ih h
    | some j =>
      rw [moment_succ_some ht] at h
      by_cases hij : i = j
      · subst hij
        rw [calls_step_self] at h
        rcases task?_moment g tasks turns n i with hnone | htask
        · cases hcall : ((start g tasks).moment turns n).calls i with
          | ended q =>
            rw [hcall] at h
            exact ih (hcall.trans h)
          | _ => rw [hcall] at hnone; cases hnone
        · exact Call.result_step htask h
      · rw [calls_step_of_ne _ hij] at h
        exact ih h

end Crowd

end LockDiscipline.Exclusion
