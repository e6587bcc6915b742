import LockDiscipline.Proofs.Exclusion.Crowd

namespace LockDiscipline.Exclusion

namespace Crowd

variable {s u : Crowd} {turns : Nat → Option Nat} {i j a b n : Nat} {k : Key}

/-- Nobody is about the value, and it has no mark. -/
structure Still (k : Key) (s : Crowd) : Prop where
  unmarked : s.guard.isMarked k = false
  outside : ∀ i, (s.calls i).isInside k = false

theorem still_start {g : Guard} (h : g.marks = []) (tasks : Nat → Task) (k : Key) :
    Still k (start g tasks) := by
  constructor
  · show g.marks.contains k = false
    rw [h]
    rfl
  · intro i
    show ((tasks i).call).isInside k = false
    cases tasks i <;> rfl

theorem enters_step (h : u.calls i = .checkExercised k) :
    (u.step i).guard.isMarked k = true ∧
      (u.step i).calls i = if u.guard.isMarked k then .collided k else .marked k := by
  cases u.touches_step i k with
  | enters _ mark next => exact ⟨mark, next⟩
  | leaves inside =>
    rw [h] at inside
    cases inside
  | passes apart => exact absurd h apart

theorem exists_inside_step (h : u.guard.isMarked k = true → ∃ i, (u.calls i).isInside k = true)
    (hmark : (u.step i).guard.isMarked k = true) :
    ∃ j, ((u.step i).calls j).isInside k = true := by
  cases u.touches_step i k with
  | enters _ _ next =>
    refine ⟨i, ?_⟩
    rw [next]
    split <;> simp [Call.isInside]
  | leaves _ mark =>
    rw [mark] at hmark
    cases hmark
  | passes _ outside mark =>
    rw [mark] at hmark
    obtain ⟨j, hj⟩ := h hmark
    have hne : j ≠ i := by
      rintro rfl
      rw [outside] at hj
      cases hj
    exact ⟨j, by rwa [calls_step_of_ne u hne]⟩

/-- A mark stands only while some window is open. -/
theorem exists_inside (hs : Still k s) (hmark : (s.moment turns n).guard.isMarked k = true) :
    ∃ i, ((s.moment turns n).calls i).isInside k = true := by
  refine moment_induction (P := fun u => u.guard.isMarked k = true →
    ∃ i, (u.calls i).isInside k = true) ?_ (a := 0) ?_ (Nat.zero_le n) hmark
  · exact fun u i hu => exists_inside_step hu
  · intro hmark
    rw [moment, hs.unmarked] at hmark
    cases hmark

theorem still_of_quiet (hs : Still k s)
    (hquiet : ∀ i, ((s.moment turns n).calls i).isInside k = false) :
    Still k (s.moment turns n) := by
  refine ⟨?_, hquiet⟩
  by_contra hmark
  obtain ⟨i, hi⟩ := exists_inside hs (by simpa using hmark)
  rw [hquiet i] at hi
  cases hi

theorem exists_change {P : Nat → Prop} (hab : a ≤ b) (ha : P a) (hb : ¬ P b) :
    ∃ m, a ≤ m ∧ m < b ∧ P m ∧ ¬ P (m + 1) := by
  induction hab with
  | refl => exact absurd ha hb
  | @step b hab ih =>
    by_cases h : P b
    · exact ⟨b, hab, b.lt_succ_self, h, hb⟩
    · obtain ⟨m, ham, hmb, hm⟩ := ih h
      exact ⟨m, ham, Nat.lt_trans hmb b.lt_succ_self, hm⟩

/-- Where something changes somebody goes on. -/
theorem exists_turn (s : Crowd) (turns : Nat → Option Nat) (n : Nat)
    (h : s.moment turns (n + 1) ≠ s.moment turns n) :
    ∃ i, turns n = some i ∧ s.moment turns (n + 1) = (s.moment turns n).step i := by
  cases ht : turns n with
  | none => exact absurd (moment_succ_none ht) h
  | some i => exact ⟨i, rfl, moment_succ_some ht⟩

/-- Where a call changes it goes on itself. -/
theorem turn_of_ne (s : Crowd) (turns : Nat → Option Nat) (n i : Nat)
    (h : (s.moment turns (n + 1)).calls i ≠ (s.moment turns n).calls i) :
    turns n = some i ∧ s.moment turns (n + 1) = (s.moment turns n).step i := by
  obtain ⟨j, ht, hnext⟩ := exists_turn s turns n fun heq => h (by rw [heq])
  by_cases hij : i = j
  · subst hij
    exact ⟨ht, hnext⟩
  · rw [hnext, calls_step_of_ne _ hij] at h
    exact absurd rfl h

/-- A call that does not stand where it stood has gone on at some moment. -/
theorem exists_going {x : Call} (han : a ≤ n) (ha : (s.moment turns a).calls i = x)
    (hn : (s.moment turns n).calls i ≠ x) :
    ∃ m, a ≤ m ∧ m < n ∧ turns m = some i ∧ (s.moment turns m).calls i = x ∧
      s.moment turns (m + 1) = (s.moment turns m).step i := by
  obtain ⟨m, ham, hmn, hm, hnext⟩ :=
    exists_change (P := fun m => (s.moment turns m).calls i = x) han ha hn
  obtain ⟨ht, hstep⟩ := turn_of_ne s turns m i fun heq => hnext (heq.trans hm)
  exact ⟨m, ham, hmn, ht, hm, hstep⟩

/-- A call inside its window has entered it, and has done nothing since. -/
theorem exists_entry (hs : (s.calls i).isInside k = false)
    (h : ((s.moment turns n).calls i).isInside k = true) :
    ∃ a < n, turns a = some i ∧ (s.moment turns a).calls i = .checkExercised k ∧
      (s.moment turns (a + 1)).guard.isMarked k = true ∧
      ((s.moment turns n).calls i =
        if (s.moment turns a).guard.isMarked k then .collided k else .marked k) ∧
      ∀ m, a < m → m ≤ n → (s.moment turns m).calls i = (s.moment turns n).calls i := by
  obtain ⟨a, -, han, hout, hin⟩ :=
    exists_change (P := fun m => ((s.moment turns m).calls i).isInside k = false) (Nat.zero_le n)
      hs (by simpa using h)
  rw [Bool.not_eq_false] at hin
  obtain ⟨ht, hnext⟩ := turn_of_ne s turns a i fun heq => by
    rw [heq, hout] at hin
    cases hin
  have hstay : ∀ m, a < m → m ≤ n →
      (s.moment turns m).calls i = (s.moment turns (a + 1)).calls i := by
    intro m ham hmn
    rcases calls_of_isInside hin ham with hm | ⟨r, hm⟩
    · exact hm
    · rw [calls_of_ended hm hmn] at h
      cases h
  have hlast := hstay n han (Nat.le_refl n)
  have htouch := (s.moment turns a).touches_step i k
  rw [← hnext] at htouch
  cases htouch with
  | enters begins mark next =>
    refine ⟨a, han, ht, begins, mark, by rw [hlast, next], ?_⟩
    intro m ham hmn
    rw [hstay m ham hmn, hlast]
  | leaves inside => rw [hout] at inside; cases inside
  | passes _ _ _ next => rw [next] at hin; cases hin

/-- A call that has ended since it was inside its window went on to its end at some moment. -/
theorem exists_exit {r : Except Fault Unit} (han : a ≤ n)
    (ha : ((s.moment turns a).calls i).isInside k = true)
    (h : (s.moment turns n).calls i = .ended r) :
    ∃ b, a ≤ b ∧ b < n ∧ turns b = some i ∧
      (s.moment turns b).calls i = (s.moment turns a).calls i ∧
      (r = .ok () → (s.moment turns b).guard.isMarked k = true) ∧
      (s.moment turns (b + 1)).guard.isMarked k = false ∧
      (s.moment turns (b + 1)).calls i = .ended r := by
  obtain ⟨b, hab, hbn, ht, hcall, hnext⟩ := exists_going han rfl fun heq => by
    rw [← heq, h] at ha
    cases ha
  have hin : ((s.moment turns b).calls i).isInside k = true := by rwa [hcall]
  have htouch := (s.moment turns b).touches_step i k
  rw [← hnext] at htouch
  cases htouch with
  | enters begins => rw [begins] at hin; cases hin
  | leaves _ mark next =>
    have hended : ∃ q, (s.moment turns (b + 1)).calls i = .ended q := by
      rcases next with ⟨next, -⟩ | ⟨next, -⟩
      · exact ⟨_, next⟩
      · exact ⟨_, next⟩
    obtain ⟨q, hq⟩ := hended
    have hr := calls_of_ended hq (Nat.succ_le_of_lt hbn)
    rw [h, Call.ended.injEq] at hr
    refine ⟨b, hab, hbn, ht, hcall, ?_, mark, by rw [hq, hr]⟩
    rintro rfl
    rcases next with ⟨next, -⟩ | ⟨-, -, hfound⟩
    · rw [hq, ← hr] at next
      cases next
    · exact hfound
  | passes _ outside => rw [outside] at hin; cases hin

/-- A mark that goes is removed by a call that leaves its window. -/
theorem exists_removal (hab : a ≤ b) (ha : (s.moment turns a).guard.isMarked k = true)
    (hb : (s.moment turns b).guard.isMarked k = false) :
    ∃ m, a ≤ m ∧ m < b ∧ ∃ j, turns m = some j ∧
      ((s.moment turns m).calls j).isInside k = true ∧
      ∃ r, (s.moment turns (m + 1)).calls j = .ended r := by
  obtain ⟨m, ham, hmb, hbefore, hafter⟩ :=
    exists_change (P := fun m => (s.moment turns m).guard.isMarked k = true) hab ha (by simp [hb])
  obtain ⟨j, ht, hnext⟩ := exists_turn s turns m fun heq => by
    rw [heq] at hafter
    exact hafter hbefore
  refine ⟨m, ham, hmb, j, ht, ?_⟩
  have htouch := (s.moment turns m).touches_step j k
  rw [← hnext] at htouch
  cases htouch with
  | enters _ mark => exact absurd mark hafter
  | leaves inside _ next =>
    rcases next with ⟨next, -⟩ | ⟨next, -, -⟩
    · exact ⟨inside, _, next⟩
    · exact ⟨inside, _, next⟩
  | passes _ _ mark => rw [mark] at hafter; exact absurd hbefore hafter

/-- A mark that comes is set by a call that enters its window. -/
theorem exists_setting (hab : a ≤ b) (ha : (s.moment turns a).guard.isMarked k = false)
    (hb : (s.moment turns b).guard.isMarked k = true) :
    ∃ m, a ≤ m ∧ m < b ∧ ∃ j, turns m = some j ∧
      (s.moment turns m).calls j = .checkExercised k := by
  obtain ⟨m, ham, hmb, hbefore, hafter⟩ :=
    exists_change (P := fun m => (s.moment turns m).guard.isMarked k = false) hab ha (by simp [hb])
  obtain ⟨j, ht, hnext⟩ := exists_turn s turns m fun heq => by
    rw [heq] at hafter
    exact hafter hbefore
  refine ⟨m, ham, hmb, j, ht, ?_⟩
  have htouch := (s.moment turns m).touches_step j k
  rw [← hnext] at htouch
  cases htouch with
  | enters begins => exact begins
  | leaves _ mark => exact absurd mark hafter
  | passes _ _ mark => rw [mark] at hafter; exact absurd hbefore hafter

/-- The window of a call was once open together with the window of another one. -/
def Met (s : Crowd) (turns : Nat → Option Nat) (k : Key) (n i : Nat) : Prop :=
  ∃ m ≤ n, ∃ j, j ≠ i ∧ ((s.moment turns m).calls i).isInside k = true ∧
    ((s.moment turns m).calls j).isInside k = true

/-- A call that fails does so at the end of its window. -/
theorem exists_failure (hbefore : (s.calls i).result? = none)
    (h : (s.moment turns n).calls i = .ended (.error k.conflict)) :
    ∃ b < n, ((s.moment turns b).calls i).isInside k = true ∧
      ((s.moment turns b).calls i = .collided k ∨
        (s.moment turns b).guard.isMarked k = false) := by
  obtain ⟨b, -, hbn, hopen, hended⟩ :=
    exists_change (P := fun m => (s.moment turns m).calls i ≠ .ended (.error k.conflict))
      (Nat.zero_le n) (fun heq => by rw [moment] at heq; rw [heq] at hbefore; cases hbefore)
      (not_not_intro h)
  rw [not_not] at hended
  obtain ⟨-, hnext⟩ := turn_of_ne s turns b i fun heq => by
    rw [hended] at heq
    exact hopen heq.symm
  have htouch := (s.moment turns b).touches_step i k
  rw [← hnext] at htouch
  cases htouch with
  | enters _ _ next =>
    rw [hended] at next
    split at next <;> cases next
  | leaves inside _ next =>
    rcases next with ⟨-, hwhy⟩ | ⟨next, -, -⟩
    · exact ⟨b, hbn, inside, hwhy⟩
    · rw [hended] at next
      cases next
  | passes _ _ _ _ ending =>
    rw [← ending hended] at hended
    exact absurd hended hopen

/-- A check fails only if its window was open together with another one. -/
theorem met_of_conflict (hs : Still k s) (hbefore : (s.calls i).result? = none)
    (h : (s.moment turns n).calls i = .ended (.error k.conflict)) : Met s turns k n i := by
  obtain ⟨b, hbn, hin, hwhy⟩ := exists_failure hbefore h
  obtain ⟨a, hab, ht, hbegins, hset, hfound, hstay⟩ := exists_entry (hs.outside i) hin
  rcases hwhy with hcollided | hfree
  · -- the mark that was found belongs to a window that was open then
    have hmark : (s.moment turns a).guard.isMarked k = true := by
      by_contra hnone
      rw [hcollided, if_neg hnone] at hfound
      cases hfound
    obtain ⟨j, hj⟩ := exists_inside hs hmark
    have hne : j ≠ i := by
      rintro rfl
      rw [hbegins] at hj
      cases hj
    refine ⟨a + 1, by omega, j, hne, ?_, ?_⟩
    · rwa [hstay (a + 1) (by omega) (by omega)]
    · rwa [moment_succ_some ht, calls_step_of_ne _ hne]
  · -- the mark that was set is gone, and the call itself has removed none yet
    obtain ⟨m, ham, hmb, j, -, hj, r, hend⟩ := exists_removal (by omega) hset hfree
    have hne : j ≠ i := by
      rintro rfl
      rw [hstay (m + 1) (by omega) (by omega)] at hend
      rw [hend] at hin
      cases hin
    refine ⟨m, by omega, j, hne, ?_, hj⟩
    rwa [hstay m (by omega) (by omega)]

/-- No window is open but one, and what its check has set is still there. -/
def Lone (k : Key) (s : Crowd) : Prop :=
  ∀ i, (s.calls i).isInside k = true → s.calls i = .marked k ∧ s.guard.isMarked k = true ∧
    ∀ j, (s.calls j).isInside k = true → j = i

/-- The call fails, or has failed. -/
def Doomed (k : Key) (c : Call) : Prop := c = .collided k ∨ c = .ended (.error k.conflict)

theorem Doomed.step (h : Doomed k (u.calls i)) (j : Nat) : Doomed k ((u.step j).calls i) := by
  by_cases hij : i = j
  · subst hij
    rw [calls_step_self]
    rcases h with h | h
    · exact Or.inr (by rw [h]; rfl)
    · exact Or.inr (by rw [h]; rfl)
  · rwa [calls_step_of_ne u hij]

theorem Doomed.moment (h : Doomed k ((s.moment turns a).calls i)) (han : a ≤ n) :
    Doomed k ((s.moment turns n).calls i) :=
  moment_induction (P := fun u => Doomed k (u.calls i)) (fun _ j hu => hu.step j) h han

/-- A second window opens only with a check that finds the mark of the first one. -/
theorem Lone.step (h : Lone k u) (i : Nat) :
    Lone k (u.step i) ∨ u.calls i = .checkExercised k ∧ (u.step i).calls i = .collided k := by
  cases u.touches_step i k with
  | enters begins mark next =>
    cases hmark : u.guard.isMarked k with
    | true => exact Or.inr ⟨begins, by rw [next, if_pos hmark]⟩
    | false =>
      have hnobody : ∀ j, (u.calls j).isInside k = false := by
        intro j
        by_contra hj
        have hmarked := (h j (by simpa using hj)).2.1
        rw [hmark] at hmarked
        cases hmarked
      have hentered : (u.step i).calls i = .marked k := by rw [next, hmark]; rfl
      have honly : ∀ j, ((u.step i).calls j).isInside k = true → j = i := by
        intro j hj
        by_contra hne
        rw [calls_step_of_ne u hne, hnobody j] at hj
        cases hj
      left
      intro j hj
      obtain rfl := honly j hj
      exact ⟨hentered, mark, honly⟩
  | leaves inside mark next =>
    have hgone : ((u.step i).calls i).isInside k = false := by
      rcases next with ⟨next, -⟩ | ⟨next, -, -⟩ <;> rw [next] <;> rfl
    left
    intro j hj
    by_cases hji : j = i
    · subst hji
      rw [hgone] at hj
      cases hj
    · rw [calls_step_of_ne u hji] at hj
      exact absurd ((h i inside).2.2 j hj) hji
  | passes apart outside mark next ending =>
    have hsame : ∀ j, ((u.step i).calls j).isInside k = true →
        (u.step i).calls j = u.calls j := by
      intro j hj
      by_cases hji : j = i
      · subst hji
        rw [next] at hj
        cases hj
      · exact calls_step_of_ne u hji
    left
    intro j hj
    have hcall := hsame j hj
    rw [hcall] at hj ⊢
    obtain ⟨hmarked, hmark, honly⟩ := h j hj
    refine ⟨hmarked, by rwa [mark], ?_⟩
    intro l hl
    rw [hsame l hl] at hl
    exact honly l hl

/-- Either no two windows have been open at once so far, or a check that had not ended at the start
is bound to fail. -/
theorem lone_or_doomed (hs : Still k s) (turns : Nat → Option Nat) (n : Nat) :
    (∀ m ≤ n, Lone k (s.moment turns m)) ∨
      ∃ i, Doomed k ((s.moment turns n).calls i) ∧ (s.calls i).result? = none := by
  induction n with
  | zero =>
    left
    intro m hm i hi
    obtain rfl : m = 0 := Nat.le_zero.1 hm
    rw [moment, hs.outside i] at hi
    cases hi
  | succ n ih =>
    cases ht : turns n with
    | none =>
      rw [moment_succ_none ht]
      refine ih.imp_left fun hlone m hm => ?_
      rcases Nat.le_succ_iff.1 hm with hm | rfl
      · exact hlone m hm
      · rw [moment_succ_none ht]
        exact hlone n (Nat.le_refl n)
    | some j =>
      rw [moment_succ_some ht]
      rcases ih with hlone | ⟨i, hi, hnew⟩
      · rcases (hlone n (Nat.le_refl n)).step j with hstep | ⟨hbegins, hcollided⟩
        · left
          intro m hm
          rcases Nat.le_succ_iff.1 hm with hm | rfl
          · exact hlone m hm
          · rwa [moment_succ_some ht]
        · refine Or.inr ⟨j, Or.inl hcollided, ?_⟩
          cases hcall : s.calls j with
          | ended r =>
            rw [calls_of_ended (a := 0) hcall (Nat.zero_le n)] at hbegins
            cases hbegins
          | _ => rfl
      · exact Or.inr ⟨i, hi.step j, hnew⟩

end Crowd

end LockDiscipline.Exclusion
