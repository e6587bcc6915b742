import LockDiscipline.Proofs.Monitor.Balance

namespace LockDiscipline.Monitor

open LockDiscipline.Order

namespace Monitors

/-- What each thread has entered, the outermost first, where there is only one runtime. -/
def heldBy (m : Monitors) (t : Thread) : List Classifier := (m.runtimeAt 0).heldBy t

/-- There is one runtime, and all guards come through it. -/
structure Solo (m : Monitors) : Prop where
  balanced : m.Balanced
  single : m.runtimes.length = 1
  through : ∀ g ∈ m.guards, g.runtime = some 0

variable {m e : Monitors} {g : HeldGuard} {t u : Thread} {c : Classifier}

/-- The list for a thread has lost some first entries, and may have got one more at the end, for a
monitor that the thread did not own. -/
def Fresh (m : Monitors) (t : Thread) (new : List Classifier) : Prop :=
  ∃ added, (distinct new).Sublist (distinct (m.heldBy t) ++ added) ∧ added.length ≤ 1 ∧
    ∀ c ∈ added, m.owns t c.id = false

theorem fresh_of_sublist {new : List Classifier}
    (h : (distinct new).Sublist (distinct (m.heldBy t))) : m.Fresh t new :=
  ⟨[], by rwa [List.append_nil], Nat.zero_le 1, by simp⟩

namespace Solo

theorem start : Solo ⟨.empty, [.empty], []⟩ := ⟨balanced_empty 1, rfl, by simp⟩

theorem runtime_zero (hm : m.Solo) : 0 < m.runtimes.length := by
  rw [hm.single]
  exact Nat.zero_lt_one

theorem entries_heldBy (hm : m.Solo) (t : Thread) (a : ClassifierId) :
    entries a (m.heldBy t) = m.guardsOn t a := by
  have hvia : m.guardsVia 0 t a = m.guardsOn t a := by
    apply List.countP_congr
    intro g hg
    simp [hm.through g hg]
  rw [Monitors.heldBy, hm.balanced.held 0 t a hm.runtime_zero, hvia]

theorem isIn_heldBy (hm : m.Solo) (t : Thread) (c : Classifier) :
    c.isIn (m.heldBy t) = m.owns t c.id := by
  rw [Bool.eq_iff_iff, Classifier.isIn_iff, ← entries_pos_iff, hm.entries_heldBy,
    hm.balanced.owns_iff, hm.balanced.depth]

theorem owns_of_mem (hm : m.Solo) (hc : c ∈ m.heldBy t) : m.owns t c.id = true := by
  rw [← hm.isIn_heldBy]
  exact Classifier.isIn_iff.2 ⟨c, hc, rfl⟩

/-- What a thread owns has a first entry. -/
theorem owns_iff (hm : m.Solo) (t : Thread) (a : ClassifierId) :
    m.owns t a = true ↔ ∃ c ∈ distinct (m.heldBy t), c.id = a := by
  rw [← hm.isIn_heldBy t ⟨a, ""⟩, ← isIn_distinct, Classifier.isIn_iff]

/-- A thread has entries just if it has guards. -/
theorem heldBy_eq_nil_iff (hm : m.Solo) : m.heldBy t = [] ↔ ∀ g ∈ m.guards, g.thread ≠ t := by
  constructor
  · rintro hnil g hg rfl
    have hzero : m.guardsOn g.thread g.classifier.id = 0 := by
      rw [← hm.entries_heldBy, hnil]
      rfl
    have hpos := hm.balanced.depthOf_guard_pos hg
    rw [hm.balanced.depth] at hpos
    omega
  · intro hnone
    rw [List.eq_nil_iff_forall_not_mem]
    intro c hc
    have hpos : 0 < entries c.id (m.heldBy t) := entries_pos_iff.2 ⟨c, hc, rfl⟩
    rw [hm.entries_heldBy, guardsOn, List.countP_pos_iff] at hpos
    obtain ⟨g, hg, heq⟩ := hpos
    rw [decide_eq_true_iff] at heq
    exact hnone g hg heq.1.symm

theorem take (hm : m.Solo) (hopen : m.isOpenTo g.thread g.classifier.id = true)
    (hg : g.runtime = some 0) : (m.take g).Solo := by
  refine ⟨hm.balanced.take hopen, by rw [length_take, hm.single], ?_⟩
  intro f hf
  rw [guards_take] at hf
  rcases List.mem_append.1 hf with hf | hf
  · exact hm.through f hf
  · rw [List.mem_singleton.1 hf, hg]

theorem drop (hm : m.Solo) (h : g ∈ m.guards) : (m.drop g).Solo := by
  refine ⟨hm.balanced.drop h, by rw [length_drop, hm.single], ?_⟩
  intro f hf
  rw [guards_drop] at hf
  exact hm.through f (List.mem_of_mem_erase hf)

theorem fresh_take (hm : m.Solo) (g : HeldGuard) (u : Thread) :
    m.Fresh u ((m.take g).heldBy u) := by
  rw [Monitors.heldBy, heldBy_take m g hm.runtime_zero, ← Monitors.heldBy]
  split
  · rw [Fresh, distinct_push, hm.isIn_heldBy]
    split
    · exact fresh_of_sublist (List.Sublist.refl _)
    · next hnew => exact ⟨[g.classifier], List.Sublist.refl _, Nat.le_refl 1, by simpa using hnew⟩
  · exact fresh_of_sublist (List.Sublist.refl _)

theorem distinct_drop (hm : m.Solo) (u : Thread) :
    (distinct ((m.drop g).heldBy u)).Sublist (distinct (m.heldBy u)) := by
  rw [Monitors.heldBy, heldBy_drop m g hm.runtime_zero, ← Monitors.heldBy]
  split
  · rw [distinct_eraseLast]
    split
    · exact List.filter_sublist
    · exact List.Sublist.refl _
  · exact List.Sublist.refl _

theorem fresh_lock (hm : m.Solo) (h : m.lock g = some e) (hg : g.runtime = some 0) (u : Thread) :
    m.Fresh u (e.heldBy u) := by
  obtain ⟨hopen, rfl | ⟨old, -, -, rfl⟩⟩ := lock_cases h
  · exact hm.fresh_take g u
  · obtain ⟨added, hsub, hrest⟩ := hm.fresh_take g u
    exact ⟨added, ((hm.take hopen hg).distinct_drop u).trans hsub, hrest⟩

theorem fresh_unlock (hm : m.Solo) (t : Thread) (label : String) (u : Thread) :
    m.Fresh u ((m.unlock t label).1.heldBy u) := by
  obtain h | ⟨g, -, -, h⟩ := m.unlock_cases t label
  · rw [h]
    exact fresh_of_sublist (List.Sublist.refl _)
  · rw [h]
    exact fresh_of_sublist (hm.distinct_drop u)

end Solo

end Monitors

end LockDiscipline.Monitor
