import LockDiscipline.Monitor.Monitors
import LockDiscipline.Proofs.Order.Distinct
import Mathlib.Data.List.Count

namespace LockDiscipline.Monitor

open LockDiscipline.Order

theorem Runtime.heldBy_leave (r : Runtime) (t u : Thread) (c : Classifier) :
    (r.leave t c).heldBy u = if u = t then eraseLast c (r.heldBy t) else r.heldBy u := by
  unfold leave heldBy
  dsimp only
  split
  · next h =>
    rw [List.isEmpty_iff] at h
    rw [Table.get?_erase, h]
    split <;> rfl
  · rw [Table.get?_set]
    split <;> rfl

namespace Monitors

variable {m : Monitors} {g : HeldGuard} {t u : Thread} {c d : ClassifierId}

/-- How deeply a thread owns a monitor. -/
def depthOf (m : Monitors) (t : Thread) (c : ClassifierId) : Nat :=
  (m.owner? c).elim 0 fun o => if o.thread = t then o.depth else 0

/-- How many guards a thread has for a monitor. -/
def guardsOn (m : Monitors) (t : Thread) (c : ClassifierId) : Nat :=
  m.guards.countP fun g => t = g.thread ∧ c = g.classifier.id

/-- How many of them it got through a runtime. -/
def guardsVia (m : Monitors) (i : Nat) (t : Thread) (c : ClassifierId) : Nat :=
  m.guards.countP fun g => (g.runtime = some i ∧ t = g.thread) ∧ c = g.classifier.id

structure Balanced (m : Monitors) : Prop where
  entered : ∀ c o, m.owner? c = some o → 0 < o.depth
  depth : ∀ t c, m.depthOf t c = m.guardsOn t c
  held : ∀ i t c, i < m.runtimes.length →
    entries c ((m.runtimeAt i).heldBy t) = m.guardsVia i t c

theorem balanced_empty (n : Nat) : Balanced ⟨.empty, List.replicate n .empty, []⟩ := by
  refine ⟨?_, ?_, ?_⟩
  · intro c o h
    cases h
  · intro t c
    rfl
  · intro i t c hi
    rw [List.length_replicate] at hi
    rw [runtimeAt, List.getElem?_replicate, if_pos hi]
    rfl

theorem owner?_surrender (m : Monitors) (c d : ClassifierId) :
    (m.surrender c).owner? d = if d = c then
      (m.owner? c).bind fun o => if o.depth ≤ 1 then none else some ⟨o.thread, o.depth - 1⟩
    else m.owner? d := by
  unfold surrender
  split
  · next h =>
    split
    · next hd => rw [hd, h, Option.bind_none]
    · rfl
  · next o h =>
    rw [h, Option.bind_some]
    unfold owner?
    dsimp only
    split
    · rw [Table.get?_erase]
    · rw [Table.get?_set]

theorem depthOf_acquire (h : m.isOpenTo t c = true) (u : Thread) (d : ClassifierId) :
    (m.acquire t c).depthOf u d = m.depthOf u d + if u = t ∧ d = c then 1 else 0 := by
  unfold depthOf
  rw [owner?_acquire]
  by_cases hd : d = c
  · subst hd
    rw [if_pos rfl]
    unfold isOpenTo at h
    cases ho : m.owner? d with
    | none => by_cases hu : u = t <;> simp [hu, Ne.symm]
    | some o =>
      rw [ho] at h
      have ht : o.thread = t := by simpa using h
      by_cases hu : u = t
      · simp [ht, hu]
      · simp [ht, hu, Ne.symm hu]
  · simp [hd]

theorem depthOf_surrender (h : 0 < m.depthOf t c) (u : Thread) (d : ClassifierId) :
    (m.surrender c).depthOf u d = m.depthOf u d - if u = t ∧ d = c then 1 else 0 := by
  unfold depthOf at *
  rw [owner?_surrender]
  by_cases hd : d = c
  · subst hd
    rw [if_pos rfl]
    cases ho : m.owner? d with
    | none => simp
    | some o =>
      have ht : o.thread = t := by
        rw [ho] at h
        by_contra hne
        simp [hne] at h
      rw [Option.bind_some]
      by_cases hu : u = t
      · by_cases hone : o.depth ≤ 1
        · simp [ht, hu, hone]
        · simp [ht, hu, hone]
      · by_cases hone : o.depth ≤ 1 <;> simp [ht, hu, Ne.symm hu, hone]
  · simp [hd]

@[simp] theorem owner?_changeRuntime (m : Monitors) (i : Option Nat) (f : Runtime → Runtime)
    (c : ClassifierId) : (m.changeRuntime i f).owner? c = m.owner? c := by
  cases i <;> rfl

@[simp] theorem guards_changeRuntime (m : Monitors) (i : Option Nat) (f : Runtime → Runtime) :
    (m.changeRuntime i f).guards = m.guards := by
  cases i <;> rfl

@[simp] theorem length_changeRuntime (m : Monitors) (i : Option Nat) (f : Runtime → Runtime) :
    (m.changeRuntime i f).runtimes.length = m.runtimes.length := by
  cases i with
  | none => rfl
  | some i => exact List.length_modify f m.runtimes i

theorem runtimeAt_changeRuntime (m : Monitors) (i : Option Nat) (f : Runtime → Runtime) {j : Nat}
    (hj : j < m.runtimes.length) :
    (m.changeRuntime i f).runtimeAt j = if i = some j then f (m.runtimeAt j) else m.runtimeAt j := by
  cases i with
  | none => rfl
  | some i =>
    unfold changeRuntime runtimeAt
    dsimp only
    rw [List.getElem?_modify, List.getElem?_eq_getElem hj]
    by_cases h : i = j <;> simp [h]

@[simp] theorem runtimes_surrender (m : Monitors) (c : ClassifierId) :
    (m.surrender c).runtimes = m.runtimes := by
  unfold surrender
  split <;> rfl

@[simp] theorem guards_surrender (m : Monitors) (c : ClassifierId) :
    (m.surrender c).guards = m.guards := by
  unfold surrender
  split <;> rfl

/-- Enters a monitor with a guard that takes no label from another one. -/
def take (m : Monitors) (g : HeldGuard) : Monitors :=
  let m := (m.acquire g.thread g.classifier.id).changeRuntime g.runtime
    (·.enter g.thread g.classifier)
  { m with guards := m.guards ++ [g] }

@[simp] theorem guards_drop (m : Monitors) (g : HeldGuard) :
    (m.drop g).guards = m.guards.erase g := by
  simp [drop]

theorem guards_take (m : Monitors) (g : HeldGuard) : (m.take g).guards = m.guards ++ [g] := by
  simp [Monitors.take, acquire]

theorem drop_withGuards (m : Monitors) (gs : List HeldGuard) (g : HeldGuard) :
    drop { m with guards := gs } g = { m.drop g with guards := gs.erase g } := by
  have hchange : changeRuntime { m with guards := gs } g.runtime (·.leave g.thread g.classifier) =
      { m.changeRuntime g.runtime (·.leave g.thread g.classifier) with guards := gs } := by
    cases g.runtime <;> rfl
  unfold drop
  rw [hchange]
  generalize m.changeRuntime g.runtime (·.leave g.thread g.classifier) = e
  have howner : owner? { e with guards := gs } g.classifier.id = e.owner? g.classifier.id := rfl
  unfold surrender
  rw [howner]
  cases e.owner? g.classifier.id <;> rfl

/-- A guard whose label is taken enters like any other, and then the one that had the label goes. -/
theorem lock_eq (m : Monitors) (g : HeldGuard) :
    m.lock g = if m.isOpenTo g.thread g.classifier.id then
      some ((m.guard? g.thread g.label).elim (m.take g) (m.take g).drop) else none := by
  unfold lock
  split
  · dsimp only
    congr 1
    cases hold : m.guard? g.thread g.label with
    | none => rfl
    | some old =>
      have hmem : old ∈ (m.acquire g.thread g.classifier.id).guards :=
        List.mem_of_find?_eq_some hold
      rw [← guards_changeRuntime _ g.runtime (·.enter g.thread g.classifier)] at hmem
      rw [Option.elim_some, Option.elim_some, Monitors.take]
      generalize (m.acquire g.thread g.classifier.id).changeRuntime g.runtime
        (·.enter g.thread g.classifier) = e at hmem
      have hguards : (e.drop old).guards ++ [g] = (e.guards ++ [g]).erase old := by
        rw [List.erase_append_left [g] hmem, guards_drop]
      rw [hguards, ← drop_withGuards]
  · rfl

/-- All that taking a guard can do: it enters, and a guard of the same thread may go. -/
theorem lock_cases {e : Monitors} (h : m.lock g = some e) :
    m.isOpenTo g.thread g.classifier.id = true ∧ (e = m.take g ∨
      ∃ old ∈ (m.take g).guards, old.thread = g.thread ∧ e = (m.take g).drop old) := by
  rw [lock_eq] at h
  split at h
  · next hopen =>
    cases h
    refine ⟨hopen, ?_⟩
    cases hold : m.guard? g.thread g.label with
    | none => exact Or.inl rfl
    | some old =>
      have hthread := List.find?_some hold
      rw [Bool.and_eq_true, decide_eq_true_iff] at hthread
      refine Or.inr ⟨old, ?_, hthread.1, rfl⟩
      rw [guards_take]
      exact List.mem_append_left _ (List.mem_of_find?_eq_some hold)
  · cases h

/-- No guard comes from elsewhere. -/
theorem mem_guards_lock {e : Monitors} {f : HeldGuard} (h : m.lock g = some e)
    (hf : f ∈ e.guards) : f ∈ m.guards ∨ f = g := by
  have htake : f ∈ (m.take g).guards := by
    obtain ⟨-, rfl | ⟨old, -, -, rfl⟩⟩ := lock_cases h
    · exact hf
    · rw [guards_drop] at hf
      exact List.mem_of_mem_erase hf
  rw [guards_take, List.mem_append, List.mem_singleton] at htake
  exact htake

theorem mem_guards_unlock {f : HeldGuard} {t : Thread} {label : String}
    (hf : f ∈ (m.unlock t label).1.guards) : f ∈ m.guards := by
  unfold unlock at hf
  split at hf
  · exact hf
  · rw [guards_drop] at hf
    exact List.mem_of_mem_erase hf

theorem unlock_cases (m : Monitors) (t : Thread) (label : String) :
    (m.unlock t label).1 = m ∨
      ∃ g ∈ m.guards, g.thread = t ∧ (m.unlock t label).1 = m.drop g := by
  unfold unlock
  cases h : m.guard? t label with
  | none => exact Or.inl rfl
  | some g =>
    have hthread := List.find?_some h
    rw [Bool.and_eq_true, decide_eq_true_iff] at hthread
    exact Or.inr ⟨g, List.mem_of_find?_eq_some h, hthread.1, rfl⟩

theorem depthOf_take (h : m.isOpenTo g.thread g.classifier.id = true) (u : Thread)
    (d : ClassifierId) :
    (m.take g).depthOf u d =
      m.depthOf u d + if u = g.thread ∧ d = g.classifier.id then 1 else 0 := by
  rw [← depthOf_acquire h]
  cases hr : g.runtime <;> simp [Monitors.take, changeRuntime, hr, depthOf, owner?]

theorem length_take (m : Monitors) (g : HeldGuard) :
    (m.take g).runtimes.length = m.runtimes.length := by
  simp [Monitors.take, acquire]

theorem runtimeAt_take (m : Monitors) (g : HeldGuard) {i : Nat} (hi : i < m.runtimes.length) :
    (m.take g).runtimeAt i = if g.runtime = some i then
      (m.runtimeAt i).enter g.thread g.classifier else m.runtimeAt i :=
  runtimeAt_changeRuntime (m.acquire g.thread g.classifier.id) g.runtime _ hi

theorem heldBy_take (m : Monitors) (g : HeldGuard) {i : Nat} (hi : i < m.runtimes.length)
    (u : Thread) :
    ((m.take g).runtimeAt i).heldBy u =
      if g.runtime = some i ∧ u = g.thread then (m.runtimeAt i).heldBy u ++ [g.classifier]
      else (m.runtimeAt i).heldBy u := by
  rw [runtimeAt_take m g hi]
  by_cases hr : g.runtime = some i
  · rw [if_pos hr, Runtime.heldBy_enter]
    by_cases hu : u = g.thread
    · rw [if_pos hu, if_pos ⟨hr, hu⟩, hu]
    · rw [if_neg hu, if_neg (fun h => hu h.2)]
  · rw [if_neg hr, if_neg (fun h => hr h.1)]

theorem owner?_drop (m : Monitors) (g : HeldGuard) (d : ClassifierId) :
    (m.drop g).owner? d = (m.surrender g.classifier.id).owner? d := by
  have hdrop : (m.drop g).owner? d = ((m.changeRuntime g.runtime
      (·.leave g.thread g.classifier)).surrender g.classifier.id).owner? d := rfl
  rw [hdrop, owner?_surrender, owner?_surrender, owner?_changeRuntime, owner?_changeRuntime]

theorem depthOf_drop (h : 0 < m.depthOf g.thread g.classifier.id) (u : Thread)
    (d : ClassifierId) :
    (m.drop g).depthOf u d =
      m.depthOf u d - if u = g.thread ∧ d = g.classifier.id then 1 else 0 := by
  rw [← depthOf_surrender h, depthOf, owner?_drop]
  rfl

theorem length_drop (m : Monitors) (g : HeldGuard) :
    (m.drop g).runtimes.length = m.runtimes.length := by
  simp [drop]

theorem runtimeAt_drop (m : Monitors) (g : HeldGuard) {i : Nat} (hi : i < m.runtimes.length) :
    (m.drop g).runtimeAt i = if g.runtime = some i then
      (m.runtimeAt i).leave g.thread g.classifier else m.runtimeAt i := by
  rw [← runtimeAt_changeRuntime m g.runtime (·.leave g.thread g.classifier) hi]
  unfold drop runtimeAt
  dsimp only
  rw [runtimes_surrender]

theorem heldBy_drop (m : Monitors) (g : HeldGuard) {i : Nat} (hi : i < m.runtimes.length)
    (u : Thread) :
    ((m.drop g).runtimeAt i).heldBy u =
      if g.runtime = some i ∧ u = g.thread then eraseLast g.classifier ((m.runtimeAt i).heldBy u)
      else (m.runtimeAt i).heldBy u := by
  rw [runtimeAt_drop m g hi]
  by_cases hr : g.runtime = some i
  · rw [if_pos hr, Runtime.heldBy_leave]
    by_cases hu : u = g.thread
    · rw [if_pos hu, if_pos ⟨hr, hu⟩, hu]
    · rw [if_neg hu, if_neg (fun h => hu h.2)]
  · rw [if_neg hr, if_neg (fun h => hr h.1)]

namespace Balanced

theorem owns_iff (hm : m.Balanced) : m.owns t c = true ↔ 0 < m.depthOf t c := by
  unfold owns depthOf
  cases ho : m.owner? c with
  | none => simp
  | some o =>
    have hpos := hm.entered c o ho
    by_cases ht : o.thread = t <;> simp [ht, hpos]

theorem depthOf_guard_pos (hm : m.Balanced) (h : g ∈ m.guards) :
    0 < m.depthOf g.thread g.classifier.id := by
  rw [hm.depth, guardsOn, List.countP_pos_iff]
  exact ⟨g, h, by simp⟩

theorem take (hm : m.Balanced) (h : m.isOpenTo g.thread g.classifier.id = true) :
    (m.take g).Balanced := by
  refine ⟨?_, ?_, ?_⟩
  · intro c o ho
    have ho' : (m.acquire g.thread g.classifier.id).owner? c = some o := by
      rw [← ho]
      exact (owner?_changeRuntime _ _ _ c).symm
    rw [owner?_acquire] at ho'
    split at ho'
    · cases ho'
      exact Nat.succ_pos _
    · exact hm.entered c o ho'
  · intro t c
    rw [depthOf_take h, hm.depth, guardsOn, guardsOn, guards_take, List.countP_append,
      List.countP_singleton]
    simp only [decide_eq_true_iff]
  · intro i t c hi
    rw [length_take] at hi
    rw [heldBy_take m g hi, guardsVia, guards_take, List.countP_append, List.countP_singleton,
      ← guardsVia, ← hm.held i t c hi]
    by_cases h : g.runtime = some i ∧ t = g.thread
    · rw [if_pos h, entries_push]
      simp [h, eq_comm]
    · rw [if_neg h]
      simp [h]

theorem drop (hm : m.Balanced) (h : g ∈ m.guards) : (m.drop g).Balanced := by
  have hpos := hm.depthOf_guard_pos h
  refine ⟨?_, ?_, ?_⟩
  · intro c o ho
    rw [owner?_drop, owner?_surrender] at ho
    split at ho
    · obtain ⟨p, -, hp⟩ := Option.bind_eq_some_iff.1 ho
      split at hp
      · cases hp
      · cases hp
        dsimp only
        omega
    · exact hm.entered c o ho
  · intro t c
    rw [depthOf_drop hpos, hm.depth, guardsOn, guardsOn, guards_drop, List.countP_erase]
    simp only [decide_eq_true_iff, h, true_and]
  · intro i t c hi
    rw [length_drop] at hi
    rw [heldBy_drop m g hi, guardsVia, guards_drop, List.countP_erase, ← guardsVia,
      ← hm.held i t c hi]
    by_cases hg : g.runtime = some i ∧ t = g.thread
    · rw [if_pos hg, entries_eraseLast]
      simp [hg, h, eq_comm]
    · rw [if_neg hg]
      simp [hg]

theorem owns_take (hm : m.Balanced) (h : m.isOpenTo g.thread g.classifier.id = true) (u : Thread)
    (d : ClassifierId) : (m.take g).owns u d = true ↔
      m.owns u d = true ∨ u = g.thread ∧ d = g.classifier.id := by
  rw [(hm.take h).owns_iff, hm.owns_iff, depthOf_take h]
  by_cases hd : u = g.thread ∧ d = g.classifier.id <;> simp [hd]

theorem owns_drop (hm : m.Balanced) (h : g ∈ m.guards) (u : Thread) (d : ClassifierId) :
    (m.drop g).owns u d = true ↔
      m.owns u d = true ∧ (u = g.thread ∧ d = g.classifier.id → 1 < m.depthOf u d) := by
  rw [(hm.drop h).owns_iff, hm.owns_iff, depthOf_drop (hm.depthOf_guard_pos h)]
  by_cases hd : u = g.thread ∧ d = g.classifier.id
  · rw [if_pos hd]
    simp only [hd, and_self, forall_const]
    omega
  · simp [hd]

/-- What other threads own stays theirs while a thread takes a guard. -/
theorem owns_lock (hm : m.Balanced) {e : Monitors} (h : m.lock g = some e) (hu : u ≠ g.thread) :
    e.owns u d = m.owns u d := by
  rw [Bool.eq_iff_iff]
  obtain ⟨hopen, rfl | ⟨old, hold, hthread, rfl⟩⟩ := lock_cases h
  · rw [hm.owns_take hopen]
    simp [hu]
  · rw [(hm.take hopen).owns_drop hold, hm.owns_take hopen, hthread]
    simp [hu]

theorem owns_unlock (hm : m.Balanced) (label : String) (hu : u ≠ t) :
    (m.unlock t label).1.owns u d = m.owns u d := by
  rw [Bool.eq_iff_iff]
  obtain h | ⟨g, hg, rfl, h⟩ := m.unlock_cases t label
  · rw [h]
  · rw [h, hm.owns_drop hg]
    simp [hu]

end Balanced

end Monitors

end LockDiscipline.Monitor
