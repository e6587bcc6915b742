import LockDiscipline.Proofs.Exclusion.Crowd
import Mathlib.Data.Finset.Card

namespace LockDiscipline.Exclusion

namespace Task

/-- The type that a call for the task is about. -/
def typeName : Task → String
  | check k => k.typeName
  | enable t | disable t => t

/-- The call, if it does not look at the count of the types first. -/
def direct : Task → Call
  | check k => .checkSome k
  | enable t => .enable t
  | disable t => .disable t

/-- What is known about the type afterwards, by what was known before. -/
def learn : Task → Option Detection → Option Detection
  | check _, d => d.map fun d => ⟨d.enabled, d.exercised || d.enabled⟩
  | enable _, _ => some ⟨true, false⟩
  | disable _, d => d.map fun d => ⟨false, d.exercised⟩

/-- What the call answers, by what was known about the type before. -/
def answer : Task → Option Detection → Except Fault Unit
  | check _, _ | enable _, _ => .ok ()
  | disable t, d => if d = some ⟨true, true⟩ then .ok () else .error (.notExercised t)

/-- Whether the type has detection on afterwards, by whether it had before. -/
def switch : Task → Bool → Bool
  | check _, b => b
  | enable _, _ => true
  | disable _, _ => false

/-- How many types have detection on afterwards, where the type of the task was among them or
not. -/
def recount : Task → Bool → UInt64 → UInt64
  | check _, _, n => n
  | enable _, b, n => if b then n else n + 1
  | disable _, b, n => if b then n - 1 else n

/-- The types that have detection on afterwards. -/
def regroup : Task → Finset String → Finset String
  | check _, on => on
  | enable t, on => insert t on
  | disable t, on => on.erase t

variable {a : Task} {on : Finset String}

theorem any_learn (a : Task) (d : Option Detection) :
    (a.learn d).any (·.enabled) = a.switch (d.any (·.enabled)) := by
  cases a <;> cases d <;> rfl

theorem regroup_subset (a : Task) (on : Finset String) :
    a.regroup on ⊆ insert a.typeName on := by
  cases a with
  | check k => exact Finset.subset_insert _ _
  | enable t => exact Finset.Subset.refl _
  | disable t => exact (Finset.erase_subset _ _).trans (Finset.subset_insert _ _)

theorem mem_regroup (t : String) :
    t ∈ a.regroup on ↔ if t = a.typeName then a.switch (decide (t ∈ on)) = true else t ∈ on := by
  cases a with
  | check k => simp [regroup, switch]
  | enable u => by_cases h : t = u <;> simp [regroup, switch, typeName, h]
  | disable u => by_cases h : t = u <;> simp [regroup, switch, typeName, h]

/-- The count neither wraps nor runs below zero. -/
theorem toNat_recount {n : UInt64} (hn : n.toNat = on.card)
    (hroom : (insert a.typeName on).card < UInt64.size) :
    (a.recount (decide (a.typeName ∈ on)) n).toNat = (a.regroup on).card := by
  cases a with
  | check k => exact hn
  | enable t =>
    by_cases ht : t ∈ on
    · simp [recount, regroup, typeName, ht, hn]
    · rw [typeName, Finset.card_insert_of_notMem ht, ← hn] at hroom
      simp only [recount, regroup, typeName, ht, decide_false, Bool.false_eq_true, if_false,
        Finset.card_insert_of_notMem ht, UInt64.toNat_add, ← hn]
      exact Nat.mod_eq_of_lt hroom
  | disable t =>
    by_cases ht : t ∈ on
    · have hone : 1 ≤ n := by
        rw [UInt64.le_iff_toNat_le, hn]
        exact Finset.card_pos.2 ⟨t, ht⟩
      simp only [recount, regroup, typeName, ht, decide_true, if_true,
        Finset.card_erase_of_mem ht, ← hn]
      exact UInt64.toNat_sub_of_le _ _ hone
    · simp [recount, regroup, typeName, ht, hn]

end Task

namespace Call

variable {g : Guard} {c : Call} {n : Nat}

/-- How many steps the call has left, if all goes well. -/
def rest : Call → Nat
  | check _ => 6
  | checkSome _ => 5
  | checkKnown _ | enable _ | disable _ => 4
  | checkEnabled _ | enableKnown _ | disableKnown _ => 3
  | checkExercised _ | enableReset _ | disableCount _ => 2
  | collided _ | marked _ | enableCount _ | disableVerdict _ => 1
  | ended _ => 0

theorem rest_step (g : Guard) (c : Call) : (c.step g).2.rest ≤ c.rest - 1 := by
  cases c <;> simp only [step] <;> (try split) <;> simp [rest]

theorem exists_ended (h : c.rest ≤ n) : ∃ r, (c.complete n g).2 = .ended r := by
  induction n generalizing g c with
  | zero =>
    cases c with
    | ended r => exact ⟨r, rfl⟩
    | _ => simp [rest] at h
  | succ n ih =>
    have hless : (c.step g).2.rest ≤ n := by
      have hstep := rest_step g c
      omega
    exact ih hless

end Call

/-- A call that nothing comes between ends, and its answer is what it ended with. -/
theorem Task.exists_ended (g : Guard) (a : Task) :
    ∃ r, (a.call.complete Call.longest g).2 = .ended r ∧ (g.run a.call).2 = r := by
  have hrest : a.call.rest ≤ Call.longest := by
    cases a <;> simp [Task.call, Call.rest, Call.longest]
  obtain ⟨r, hr⟩ := Call.exists_ended (g := g) hrest
  exact ⟨r, hr, by simp [Guard.run, hr, Call.result?]⟩

/-- A guard and an answer are what a call for the task makes of a guard. -/
structure Effect (a : Task) (g : Guard) (r : Guard × Except Fault Unit) : Prop where
  answer : r.2 = a.answer (g.detection? a.typeName)
  marks : r.1.marks = g.marks
  types : ∀ t, r.1.detection? t =
    if t = a.typeName then a.learn (g.detection? a.typeName) else g.detection? t
  count : r.1.enabledTypes = a.recount (g.isEnabled a.typeName) g.enabledTypes

/-- No value is marked, and the count is right. -/
structure Tidy (on : Finset String) (g : Guard) : Prop where
  marks : g.marks = []
  mem : ∀ t, t ∈ on ↔ g.isEnabled t = true
  count : g.enabledTypes.toNat = on.card

namespace Guard

variable {g : Guard} {k : Key} {t : String}

theorem clear_mark (h : g.marks = []) (k : Key) : (g.mark k).clear k = g := by
  obtain ⟨types, marks, count⟩ := g
  subst h
  simp [mark, clear]

theorem run_check_of_off (h : g.isEnabled k.typeName = false) :
    g.run (.check k) = (g, .ok ()) ∧ g.run (.checkSome k) = (g, .ok ()) := by
  constructor
  · by_cases hcount : g.enabledTypes = 0 <;>
      cases hknown : (g.detection? k.typeName).isSome <;>
        simp [run, Call.complete, Call.longest, Call.step, Call.result?, hcount, hknown, h]
  · cases hknown : (g.detection? k.typeName).isSome <;>
      simp [run, Call.complete, Call.longest, Call.step, Call.result?, hknown, h]

theorem run_check_of_on (hmarks : g.marks = []) (h : g.isEnabled k.typeName = true) :
    g.run (.checkSome k) =
        (g.update k.typeName fun d => { d with exercised := true }, .ok ()) ∧
      (g.enabledTypes ≠ 0 → g.run (.check k) = g.run (.checkSome k)) := by
  have hknown : (g.detection? k.typeName).isSome = true := isSome_of_isEnabled h
  have hunmarked : g.isMarked k = false := by simp [isMarked, hmarks]
  have hclear := clear_mark (g := g.update k.typeName fun d => { d with exercised := true })
    (by simpa using hmarks) k
  constructor
  · simp [run, Call.complete, Call.longest, Call.step, Call.result?, hknown, h, hunmarked, hclear]
  · intro hcount
    simp [run, Call.complete, Call.longest, Call.step, Call.result?, hknown, h, hunmarked, hcount]

theorem effect_enable (g : Guard) (t : String) :
    Effect (.enable t) g (g.run (.enable t)) := by
  set h := (g.register t).update t fun d => { d with exercised := false } with hh
  set on := h.update t fun d => { d with enabled := true } with hon
  have hbefore : h.isEnabled t = g.isEnabled t := by
    simp only [isEnabled, hh, detection?_update, detection?_register, if_true, Option.map_some,
      Option.any_some]
    cases g.detection? t <;> rfl
  have htypes : ∀ u, on.detection? u = if u = t then some ⟨true, false⟩ else g.detection? u := by
    intro u
    simp only [hon, hh, detection?_update, detection?_register]
    split <;> rfl
  have hmarks : on.marks = g.marks := by simp [hon, hh]
  have hcount : on.enabledTypes = g.enabledTypes := by simp [hon, hh]
  cases hb : g.isEnabled t with
  | true =>
    have hrun : g.run (.enable t) = (on, .ok ()) := by
      simp [run, Call.complete, Call.longest, Call.step, Call.result?, ← hh, ← hon, hbefore, hb]
    rw [hrun]
    exact ⟨rfl, hmarks, htypes, by rw [Task.typeName, hb]; exact hcount⟩
  | false =>
    have hrun : g.run (.enable t) =
        ({ on with enabledTypes := on.enabledTypes + 1 }, .ok ()) := by
      simp [run, Call.complete, Call.longest, Call.step, Call.result?, ← hh, ← hon, hbefore, hb]
    rw [hrun]
    refine ⟨rfl, hmarks, htypes, ?_⟩
    rw [Task.typeName, hb, ← hcount]
    rfl

theorem effect_disable (g : Guard) (t : String) :
    Effect (.disable t) g (g.run (.disable t)) := by
  set off := g.update t fun d => { d with enabled := false } with hoff
  have htypes : ∀ u, off.detection? u =
      if u = t then (Task.disable t).learn (g.detection? t) else g.detection? u :=
    fun u => detection?_update g t u _
  have hmarks : off.marks = g.marks := by simp [hoff]
  have hcount : off.enabledTypes = g.enabledTypes := by simp [hoff]
  have hexercised : ∀ n, ({ off with enabledTypes := n } : Guard).wasExercised t =
      g.wasExercised t := by
    intro n
    show (off.detection? t).any (·.exercised) = _
    rw [htypes, if_pos rfl, Task.learn, Option.any_map]
    rfl
  have hanswer : (if g.isEnabled t && g.wasExercised t then .ok () else .error (.notExercised t)) =
      (Task.disable t).answer (g.detection? t) := by
    rw [Task.answer, isEnabled, wasExercised]
    rcases g.detection? t with _ | ⟨_ | _, _ | _⟩ <;> simp
  cases hb : g.isEnabled t with
  | true =>
    have hknown : (g.detection? t).isSome = true := isSome_of_isEnabled hb
    have hrun : g.run (.disable t) = ({ off with enabledTypes := off.enabledTypes - 1 },
        (Task.disable t).answer (g.detection? t)) := by
      rw [← hanswer]
      simp [run, Call.complete, Call.longest, Call.step, Call.result?, ← hoff, hknown, hb,
        hexercised]
    rw [hrun]
    refine ⟨rfl, hmarks, htypes, ?_⟩
    rw [Task.typeName, hb, ← hcount]
    rfl
  | false =>
    have hrun : g.run (.disable t) = (off, (Task.disable t).answer (g.detection? t)) := by
      rw [← hanswer]
      cases hknown : (g.detection? t).isSome with
      | true =>
        simp [run, Call.complete, Call.longest, Call.step, Call.result?, ← hoff, hknown, hb]
      | false =>
        have hsame : off = g := update_of_unknown (Option.isSome_eq_false_iff.1 hknown)
        simp [run, Call.complete, Call.longest, Call.step, Call.result?, hsame, hknown, hb]
    rw [hrun]
    exact ⟨rfl, hmarks, htypes, by rw [Task.typeName, hb]; exact hcount⟩

end Guard

namespace Tidy

variable {g : Guard} {on : Finset String}

theorem empty : Tidy ∅ Guard.empty := ⟨rfl, fun t => by simp [Guard.isEnabled]; rfl, rfl⟩

/-- Where the count is zero, no type has detection on. -/
theorem run_direct (hg : Tidy on g) (a : Task) : g.run a.direct = g.run a.call := by
  cases a with
  | enable t | disable t => rfl
  | check k =>
    cases h : g.isEnabled k.typeName with
    | false =>
      obtain ⟨hcheck, hsome⟩ := Guard.run_check_of_off h
      exact hsome.trans hcheck.symm
    | true =>
      have hcount : g.enabledTypes ≠ 0 := by
        intro hzero
        have hcard := hg.count
        rw [hzero] at hcard
        have hempty := Finset.card_eq_zero.1 hcard.symm
        have hmem := (hg.mem _).2 h
        simp [hempty] at hmem
      exact ((Guard.run_check_of_on hg.marks h).2 hcount).symm

theorem effect (hg : Tidy on g) (a : Task) : Effect a g (g.run a.call) := by
  cases a with
  | enable t => exact Guard.effect_enable g t
  | disable t => exact Guard.effect_disable g t
  | check k =>
    rw [← hg.run_direct]
    cases h : g.isEnabled k.typeName with
    | false =>
      have hrun : g.run (Task.check k).direct = (g, .ok ()) := (Guard.run_check_of_off h).2
      have hsame : (Task.check k).learn (g.detection? k.typeName) = g.detection? k.typeName := by
        rw [Guard.isEnabled] at h
        rw [Task.learn]
        rcases hd : g.detection? k.typeName with _ | ⟨_ | _, e⟩
        · rfl
        · simp
        · rw [hd] at h
          cases h
      rw [hrun]
      refine ⟨rfl, rfl, fun t => ?_, rfl⟩
      split
      · next ht => rw [ht, Task.typeName, hsame]
      · rfl
    | true =>
      have hrun : g.run (Task.check k).direct = _ := (Guard.run_check_of_on hg.marks h).1
      have hnew : (g.detection? k.typeName).map (fun d => { d with exercised := true }) =
          (Task.check k).learn (g.detection? k.typeName) := by
        rw [Guard.isEnabled] at h
        rw [Task.learn]
        rcases hd : g.detection? k.typeName with _ | ⟨_ | _, e⟩
        · rfl
        · rw [hd] at h
          cases h
        · simp
      rw [hrun]
      refine ⟨rfl, by simp, fun t => ?_, by simp [Task.recount]⟩
      rw [Task.typeName, ← hnew]
      exact Guard.detection?_update g k.typeName t _

/-- A guard stays tidy as long as the types that have detection on can be counted. -/
theorem run (hg : Tidy on g) (a : Task) (hroom : (insert a.typeName on).card < UInt64.size) :
    Tidy (a.regroup on) (g.run a.call).1 := by
  have heffect := hg.effect a
  have hmem : ∀ t, g.isEnabled t = decide (t ∈ on) := by
    intro t
    rw [Bool.eq_iff_iff, decide_eq_true_iff, hg.mem]
  refine ⟨heffect.marks.trans hg.marks, fun t => ?_, ?_⟩
  · have henabled : (g.run a.call).1.isEnabled t =
        if t = a.typeName then a.switch (g.isEnabled t) else g.isEnabled t := by
      rw [Guard.isEnabled, heffect.types]
      split
      · next ht =>
        rw [Task.any_learn, ← ht]
        rfl
      · rfl
    rw [Task.mem_regroup, henabled, hmem]
    split <;> simp
  · rw [heffect.count, hmem]
    exact Task.toNat_recount hg.count hroom

end Tidy

end LockDiscipline.Exclusion
