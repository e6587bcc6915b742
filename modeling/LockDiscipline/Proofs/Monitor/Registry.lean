import LockDiscipline.Proofs.Monitor.Snapshots
import LockDiscipline.Proofs.Monitor.Solo
import Mathlib.Data.Finset.Card
import Mathlib.Logic.Function.Basic

namespace LockDiscipline.Monitor

open LockDiscipline.Order LockDiscipline.Sampling

namespace Runtime

variable {r : Runtime} {t u : Thread} {c : Classifier} {cs : List Classifier}

/-- No thread is listed without entries. -/
def Filled (r : Runtime) : Prop := ∀ t, r.held.get? t ≠ some []

theorem get?_enter (r : Runtime) (t u : Thread) (c : Classifier) :
    (r.enter t c).held.get? u = if u = t then some (r.heldBy t ++ [c]) else r.held.get? u :=
  Table.get?_set ..

theorem get?_leave (r : Runtime) (t u : Thread) (c : Classifier) :
    (r.leave t c).held.get? u = if u = t then
      (if eraseLast c (r.heldBy t) = [] then none else some (eraseLast c (r.heldBy t)))
    else r.held.get? u := by
  unfold leave
  dsimp only
  by_cases h : eraseLast c (r.heldBy t) = []
  · rw [if_pos (by simp [h]), Table.get?_erase, if_pos h]
  · rw [if_neg (by simp [h]), Table.get?_set, if_neg h]

theorem Filled.enter (h : r.Filled) (t : Thread) (c : Classifier) : (r.enter t c).Filled := by
  intro u
  rw [get?_enter]
  split
  · simp
  · exact h u

theorem Filled.leave (h : r.Filled) (t : Thread) (c : Classifier) : (r.leave t c).Filled := by
  intro u
  rw [get?_leave]
  split
  · split
    · simp
    · next hrest => simpa using hrest
  · exact h u

theorem Filled.get?_eq_some_iff (h : r.Filled) :
    r.held.get? t = some cs ↔ cs ≠ [] ∧ r.heldBy t = cs := by
  unfold heldBy
  constructor
  · intro hcs
    refine ⟨?_, by rw [hcs]; rfl⟩
    rintro rfl
    exact h t hcs
  · rintro ⟨hne, hcs⟩
    cases hget : r.held.get? t with
    | none =>
      rw [hget] at hcs
      exact absurd hcs.symm hne
    | some ds =>
      rw [hget] at hcs
      rw [← hcs]
      rfl

theorem Filled.isSome_get? (h : r.Filled) (t : Thread) :
    (r.held.get? t).isSome = true ↔ r.heldBy t ≠ [] := by
  rw [Option.isSome_iff_exists]
  constructor
  · rintro ⟨cs, hcs⟩
    obtain ⟨hne, heq⟩ := h.get?_eq_some_iff.1 hcs
    rwa [heq]
  · intro hne
    exact ⟨_, h.get?_eq_some_iff.2 ⟨hne, rfl⟩⟩

theorem mem_listed_iff (h : r.held.Proper) :
    t ∈ r.held.entries.map (·.1) ↔ (r.held.get? t).isSome = true := by
  rw [List.mem_map, Option.isSome_iff_exists]
  constructor
  · rintro ⟨⟨u, cs⟩, hmem, rfl⟩
    exact ⟨cs, h.mem_entries_iff.1 hmem⟩
  · rintro ⟨cs, hcs⟩
    exact ⟨(t, cs), h.mem_entries_iff.2 hcs, rfl⟩

theorem threadCount_eq_card (h : r.held.Proper) {threads : Finset Thread}
    (hthreads : ∀ t, t ∈ threads ↔ (r.held.get? t).isSome = true) :
    r.threadCount = threads.card := by
  have hkeys : (r.held.entries.map (·.1)).toFinset = threads := by
    ext t
    rw [List.mem_toFinset, mem_listed_iff h, hthreads]
  rw [← hkeys, List.toFinset_card_of_nodup h, List.length_map]
  rfl

end Runtime

/-- The lists of one runtime, each under a number of its own. -/
structure Registry where
  lists : Nat → List Classifier
  /-- How many lists were ever made. -/
  made : Nat
  /-- The list of each thread that is registered. -/
  table : Table Thread Nat
  /-- The guards that are not dropped, each with the list that it was entered on. -/
  handles : List (HeldGuard × Nat)

namespace Registry

def empty : Registry := ⟨fun _ => [], 0, .empty, []⟩

/-- A thread that is not registered gets a new list. -/
def enter (r : Registry) (g : HeldGuard) : Registry :=
  match r.table.get? g.thread with
  | some n =>
    { r with
      lists := Function.update r.lists n (r.lists n ++ [g.classifier])
      handles := r.handles ++ [(g, n)] }
  | none =>
    { lists := Function.update r.lists r.made [g.classifier]
      made := r.made + 1
      table := r.table.set g.thread r.made
      handles := r.handles ++ [(g, r.made)] }

/-- The entry goes from the list that the guard was entered on. Where this list is empty then, the
thread is registered no longer, unless the list that it is registered with has entries. -/
def leave (r : Registry) (g : HeldGuard) : Registry :=
  match r.handles.find? fun e => e.1 = g with
  | none => r
  | some e =>
    let lists := Function.update r.lists e.2 (eraseLast g.classifier (r.lists e.2))
    let isEmpty := fun n => (lists n).isEmpty
    { r with
      lists := lists
      table :=
        if isEmpty e.2 && (r.table.get? g.thread).any isEmpty then r.table.erase g.thread
        else r.table
      handles := r.handles.eraseP fun e => e.1 = g }

/-- The registry tells of the runtime what the runtime has. -/
structure Linked (m : Monitors) (r : Registry) : Prop where
  solo : m.Solo
  filled : (m.runtimeAt 0).Filled
  handles : r.handles.map (·.1) = m.guards
  lists : ∀ t, (r.table.get? t).map r.lists = (m.runtimeAt 0).held.get? t
  /-- No guard has entries on another list than the one that its thread is registered with. -/
  own : ∀ e ∈ r.handles, r.table.get? e.1.thread = some e.2
  made : ∀ t n, r.table.get? t = some n → n < r.made
  apart : ∀ t u n, r.table.get? t = some n → r.table.get? u = some n → t = u

end Registry

namespace Monitors

variable {m : Monitors} {g : HeldGuard}

theorem Solo.runtimeAt_take (hm : m.Solo) (hg : g.runtime = some 0) :
    (m.take g).runtimeAt 0 = (m.runtimeAt 0).enter g.thread g.classifier := by
  rw [Monitors.runtimeAt_take m g hm.runtime_zero, if_pos hg]

theorem Solo.runtimeAt_drop (hm : m.Solo) (h : g ∈ m.guards) :
    (m.drop g).runtimeAt 0 = (m.runtimeAt 0).leave g.thread g.classifier := by
  rw [Monitors.runtimeAt_drop m g hm.runtime_zero, if_pos (hm.through g h)]

end Monitors

namespace Registry.Linked

variable {m e : Monitors} {r : Registry} {g : HeldGuard} {t : Thread} {n : Nat}

theorem start : Linked ⟨.empty, [.empty], []⟩ .empty := by
  refine ⟨.start, ?_, rfl, fun t => rfl, by simp [Registry.empty], ?_, ?_⟩
  · intro t h
    cases h
  · intro t n h
    cases h
  · intro t u n h
    cases h

theorem heldBy_eq (hr : Linked m r) (hn : r.table.get? t = some n) : m.heldBy t = r.lists n := by
  have hget := hr.lists t
  rw [hn, Option.map_some] at hget
  rw [Monitors.heldBy, Runtime.heldBy, ← hget, Option.getD_some]

/-- Who is registered with another list sees no change. -/
theorem lists_update (hr : Linked m r) (hn : r.table.get? t ≠ some n) (cs : List Classifier) :
    (r.table.get? t).map (Function.update r.lists n cs) = (m.runtimeAt 0).held.get? t := by
  rw [← hr.lists t]
  cases hk : r.table.get? t with
  | none => rfl
  | some k =>
    have hne : k ≠ n := by
      rintro rfl
      exact hn hk
    rw [Option.map_some, Option.map_some, Function.update_of_ne hne]

theorem take_registered (hr : Linked m r) (hopen : m.isOpenTo g.thread g.classifier.id = true)
    (hg : g.runtime = some 0) (hn : r.table.get? g.thread = some n) :
    Linked (m.take g) (r.enter g) := by
  have hat := hr.solo.runtimeAt_take hg
  have henter : r.enter g = { r with
      lists := Function.update r.lists n (r.lists n ++ [g.classifier])
      handles := r.handles ++ [(g, n)] } := by
    rw [enter, hn]
  rw [henter]
  refine ⟨hr.solo.take hopen hg, ?_, ?_, fun t => ?_, ?_, hr.made, hr.apart⟩
  · rw [hat]
    exact hr.filled.enter _ _
  · rw [List.map_append, hr.handles, Monitors.guards_take]
    rfl
  · rw [hat, Runtime.get?_enter]
    split
    · next ht =>
      have hheld : (m.runtimeAt 0).heldBy g.thread = r.lists n := hr.heldBy_eq hn
      rw [ht, hn, Option.map_some, hheld]
      simp only [Function.update_self]
    · next ht => exact hr.lists_update (fun hk => ht (hr.apart t g.thread n hk hn)) _
  · intro e he
    rcases List.mem_append.1 he with he | he
    · exact hr.own e he
    · rw [List.mem_singleton.1 he]
      exact hn

theorem take_new (hr : Linked m r) (hopen : m.isOpenTo g.thread g.classifier.id = true)
    (hg : g.runtime = some 0) (hnone : r.table.get? g.thread = none) :
    Linked (m.take g) (r.enter g) := by
  have hat := hr.solo.runtimeAt_take hg
  have henter : r.enter g =
      { lists := Function.update r.lists r.made [g.classifier]
        made := r.made + 1
        table := r.table.set g.thread r.made
        handles := r.handles ++ [(g, r.made)] } := by
    rw [enter, hnone]
  have hheld : (m.runtimeAt 0).heldBy g.thread = [] := by
    have hget := hr.lists g.thread
    rw [hnone, Option.map_none] at hget
    rw [Runtime.heldBy, ← hget, Option.getD_none]
  have hother : ∀ t, r.table.get? t ≠ some r.made :=
    fun t hk => Nat.lt_irrefl _ (hr.made t _ hk)
  rw [henter]
  refine ⟨hr.solo.take hopen hg, ?_, ?_, fun t => ?_, ?_, ?_, ?_⟩
  · rw [hat]
    exact hr.filled.enter _ _
  · rw [List.map_append, hr.handles, Monitors.guards_take]
    rfl
  · rw [hat, Runtime.get?_enter, Table.get?_set]
    split
    · rw [Option.map_some, hheld]
      simp only [Function.update_self, List.nil_append]
    · exact hr.lists_update (hother t) _
  · intro e he
    rw [Table.get?_set]
    rcases List.mem_append.1 he with he | he
    · have hown := hr.own e he
      rw [if_neg, hown]
      intro ht
      rw [ht, hnone] at hown
      cases hown
    · rw [List.mem_singleton.1 he, if_pos rfl]
  · intro t n hn
    rw [Table.get?_set] at hn
    split at hn
    · cases hn
      exact Nat.lt_succ_self _
    · exact Nat.lt_succ_of_lt (hr.made t n hn)
  · intro t u n ht hu
    rw [Table.get?_set] at ht hu
    split at ht <;> split at hu
    · next htg hug => rw [htg, hug]
    · cases ht
      exact absurd hu (hother u)
    · cases hu
      exact absurd ht (hother t)
    · exact hr.apart t u n ht hu

theorem take (hr : Linked m r) (hopen : m.isOpenTo g.thread g.classifier.id = true)
    (hg : g.runtime = some 0) : Linked (m.take g) (r.enter g) := by
  cases hn : r.table.get? g.thread with
  | none => exact hr.take_new hopen hg hn
  | some n => exact hr.take_registered hopen hg hn

/-- A guard has a handle on the list of its thread. -/
theorem exists_handle (hr : Linked m r) (h : g ∈ m.guards) :
    ∃ n, r.handles.find? (fun e => e.1 = g) = some (g, n) ∧ r.table.get? g.thread = some n := by
  rw [← hr.handles, List.mem_map] at h
  obtain ⟨d, hd, rfl⟩ := h
  cases hfind : r.handles.find? (fun e => e.1 = d.1) with
  | none =>
    have hnot := List.find?_eq_none.1 hfind d hd
    simp at hnot
  | some e =>
    have hsame : e.1 = d.1 := by simpa using List.find?_some hfind
    have hown := hr.own e (List.mem_of_find?_eq_some hfind)
    rw [hsame] at hown
    exact ⟨e.2, by rw [← hsame], hown⟩

theorem leave_eq (hr : Linked m r) (h : g ∈ m.guards) : ∃ n, r.table.get? g.thread = some n ∧
    r.leave g = { r with
      lists := Function.update r.lists n (eraseLast g.classifier (r.lists n))
      table := if eraseLast g.classifier (r.lists n) = [] then r.table.erase g.thread else r.table
      handles := r.handles.eraseP fun e => e.1 = g } := by
  obtain ⟨n, hfind, hn⟩ := hr.exists_handle h
  refine ⟨n, hn, ?_⟩
  unfold leave
  rw [hfind]
  simp [hn]

theorem drop (hr : Linked m r) (h : g ∈ m.guards) : Linked (m.drop g) (r.leave g) := by
  obtain ⟨n, hn, hleave⟩ := hr.leave_eq h
  have hat := hr.solo.runtimeAt_drop h
  have hsolo := hr.solo.drop h
  have hheld : (m.runtimeAt 0).heldBy g.thread = r.lists n := hr.heldBy_eq hn
  have hhandles : (r.handles.eraseP fun e => e.1 = g).map (·.1) = (m.drop g).guards := by
    rw [Monitors.guards_drop, ← hr.handles, List.erase_eq_eraseP', List.eraseP_map]
    rfl
  rw [hleave]
  generalize hrest : eraseLast g.classifier (r.lists n) = rest
  -- the thread is registered no longer just if it has no guard left
  have hlast : rest = [] → ∀ f ∈ (m.drop g).guards, f.thread ≠ g.thread := by
    intro hnil
    refine hsolo.heldBy_eq_nil_iff.1 ?_
    rw [Monitors.heldBy, hat, Runtime.heldBy_leave, if_pos rfl, hheld, hrest, hnil]
  have htable : ∀ t, (if rest = [] then r.table.erase g.thread else r.table).get? t =
      if rest = [] ∧ t = g.thread then none else r.table.get? t := by
    intro t
    by_cases hnil : rest = []
    · simp [hnil, Table.get?_erase]
    · simp [hnil]
  have hkept : ∀ t k, (if rest = [] then r.table.erase g.thread else r.table).get? t = some k →
      r.table.get? t = some k := by
    intro t k hk
    rw [htable] at hk
    split at hk
    · cases hk
    · exact hk
  refine ⟨hsolo, ?_, hhandles, fun t => ?_, fun e he => ?_, fun t k hk => hr.made t k (hkept t k hk),
    fun t u k ht hu => hr.apart t u k (hkept t k ht) (hkept u k hu)⟩
  · rw [hat]
    exact hr.filled.leave _ _
  · rw [hat, Runtime.get?_leave, hheld, hrest, htable]
    by_cases ht : t = g.thread
    · subst ht
      by_cases hnil : rest = []
      · simp [hnil]
      · simp [hnil, hn]
    · rw [if_neg ht, if_neg (fun hand : rest = [] ∧ t = g.thread => ht hand.2)]
      exact hr.lists_update (fun hk => ht (hr.apart t g.thread n hk hn)) rest
  · have hthread : ¬ (rest = [] ∧ e.1.thread = g.thread) := by
      rintro ⟨hnil, ht⟩
      refine hlast hnil e.1 ?_ ht
      rw [← hhandles]
      exact List.mem_map_of_mem he
    rw [htable, if_neg hthread]
    exact hr.own e (List.mem_of_mem_eraseP he)

/-- What becomes of the registry where a guard is taken, and the one that had its label goes. -/
theorem lock (hr : Linked m r) (h : m.lock g = some e) (hg : g.runtime = some 0) :
    Linked e ((m.guard? g.thread g.label).elim (r.enter g) (r.enter g).leave) := by
  rw [Monitors.lock_eq, Option.ite_none_right_eq_some] at h
  obtain ⟨hopen, heq⟩ := h
  have htake := hr.take hopen hg
  cases hold : m.guard? g.thread g.label with
  | none =>
    rw [hold, Option.elim_none, Option.some.injEq] at heq
    rw [← heq]
    exact htake
  | some old =>
    rw [hold, Option.elim_some, Option.some.injEq] at heq
    rw [← heq]
    refine htake.drop ?_
    rw [Monitors.guards_take]
    exact List.mem_append_left _ (List.mem_of_find?_eq_some hold)

theorem unlock (hr : Linked m r) (t : Thread) (label : String) :
    Linked (m.unlock t label).1 ((m.unlock t label).2.elim r r.leave) := by
  unfold Monitors.unlock
  cases hold : m.guard? t label with
  | none => exact hr
  | some g => exact hr.drop (List.mem_of_find?_eq_some hold)

end Registry.Linked

end LockDiscipline.Monitor
