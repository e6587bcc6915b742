import LockDiscipline.Proofs.Monitor.Solo

namespace LockDiscipline.Monitor

open LockDiscipline.Order

/-- All guards come through one runtime, and what a thread owns stands on its stack in the order in
which the runtime lists it first. A thread whose local storage is gone has no stack. -/
structure Mirrored (m : Monitors) (gone : Thread → Bool) (stack : Thread → List Classifier) :
    Prop where
  balanced : m.Balanced
  single : m.runtimes.length = 1
  through : ∀ g ∈ m.guards, g.runtime = some 0
  mirror : ∀ t, gone t = false →
    (stack t).filter (fun c => m.owns t c.id) = distinct (m.heldBy t)
  bare : ∀ t, gone t = true → stack t = []

/-- The thread may enter: it owns the monitor, or the monitor is on top of its stack and nowhere
below. -/
def Announced (m : Monitors) (stack : Thread → List Classifier) (t : Thread) (c : Classifier) :
    Prop :=
  m.owns t c.id = true ∨ ∃ older, stack t = older ++ [c] ∧ ∀ d ∈ older, d.id ≠ c.id

/-- What is on top of nothing but owned monitors is announced, unless it is owned itself. -/
theorem announced_push {m : Monitors} {stack : Thread → List Classifier} {t : Thread}
    {c : Classifier} {cs : List Classifier} (hc : m.owns t c.id = false)
    (htop : stack t = cs.filter (fun d => m.owns t d.id) ++ [c]) : Announced m stack t c := by
  refine Or.inr ⟨_, htop, ?_⟩
  intro d hd heq
  have howned := (List.mem_filter.1 hd).2
  rw [heq, hc] at howned
  cases howned

theorem Announced.congr {m e : Monitors} {stack stack' : Thread → List Classifier} {t : Thread}
    {c : Classifier} (h : Announced m stack t c) (howns : e.owns t c.id = m.owns t c.id)
    (hstack : stack' t = stack t) : Announced e stack' t c := by
  unfold Announced
  rw [howns, hstack]
  exact h

namespace Mirrored

variable {m e : Monitors} {gone : Thread → Bool} {stack : Thread → List Classifier} {g : HeldGuard}
  {t u : Thread} {c : Classifier}

theorem solo (hm : Mirrored m gone stack) : m.Solo := ⟨hm.balanced, hm.single, hm.through⟩

theorem entries_heldBy (hm : Mirrored m gone stack) (t : Thread) (a : ClassifierId) :
    entries a (m.heldBy t) = m.depthOf t a := by
  rw [hm.solo.entries_heldBy, hm.balanced.depth]

theorem isIn_heldBy (hm : Mirrored m gone stack) (t : Thread) (c : Classifier) :
    c.isIn (m.heldBy t) = m.owns t c.id :=
  hm.solo.isIn_heldBy t c

/-- What a thread owns is on its stack. -/
theorem exists_of_owns (hm : Mirrored m gone stack) (ht : gone t = false) {a : ClassifierId}
    (h : m.owns t a = true) : ∃ d ∈ stack t, d.id = a := by
  obtain ⟨d, hd, hid⟩ := (hm.solo.owns_iff t a).1 h
  rw [← hm.mirror t ht] at hd
  exact ⟨d, (List.mem_filter.1 hd).1, hid⟩

/-- Beginning to enter drops what is not owned and puts something on top that is not owned
either. -/
theorem push (hm : Mirrored m gone stack) {stack' : Thread → List Classifier}
    (ht : gone t = false) (hc : m.owns t c.id = false)
    (htop : stack' t = (stack t).filter (fun d => m.owns t d.id) ++ [c])
    (hrest : ∀ u, u ≠ t → stack' u = stack u) : Mirrored m gone stack' := by
  refine { hm with mirror := ?_, bare := ?_ }
  · intro u hu
    by_cases hut : u = t
    · rw [hut, htop, List.filter_append, List.filter_filter, ← hm.mirror t ht]
      simp [hc]
    · rw [hrest u hut]
      exact hm.mirror u hu
  · intro u hu
    rw [hrest u]
    · exact hm.bare u hu
    · rintro rfl
      rw [ht] at hu
      cases hu

/-- A thread that loses its local storage loses its stack. -/
theorem lose (hm : Mirrored m gone stack) {gone' : Thread → Bool}
    {stack' : Thread → List Classifier} (hgone : ∀ u, gone' u = (u == t || gone u))
    (hstack : ∀ u, stack' u = if u = t then [] else stack u) : Mirrored m gone' stack' := by
  refine { hm with mirror := ?_, bare := ?_ }
  · intro u hu
    rw [hgone, Bool.or_eq_false_iff, beq_eq_false_iff_ne] at hu
    rw [hstack, if_neg hu.1]
    exact hm.mirror u hu.2
  · intro u hu
    rw [hgone, Bool.or_eq_true, beq_iff_eq] at hu
    rw [hstack]
    split
    · rfl
    · next hne => exact hm.bare u (hu.resolve_left hne)

theorem take (hm : Mirrored m gone stack) (hopen : m.isOpenTo g.thread g.classifier.id = true)
    (hg : g.runtime = some 0)
    (hc : gone g.thread = false → Announced m stack g.thread g.classifier) :
    Mirrored (m.take g) gone stack := by
  have hsolo := hm.solo.take hopen hg
  refine ⟨hsolo.balanced, hsolo.single, hsolo.through, ?_, hm.bare⟩
  · intro u hgone
    have hstack := hm.mirror u hgone
    have howns := hm.balanced.owns_take hopen u
    rw [Monitors.heldBy, Monitors.heldBy_take m g (by rw [hm.single]; exact Nat.zero_lt_one),
      ← Monitors.heldBy]
    by_cases hu : u = g.thread
    · subst hu
      rw [if_pos ⟨hg, rfl⟩, distinct_push, hm.isIn_heldBy, ← hstack]
      split
      · next hin =>
        apply List.filter_congr
        intro d hd
        rw [Bool.eq_iff_iff, howns]
        constructor
        · rintro (h | ⟨-, h⟩)
          · exact h
          · rw [h]
            exact hin
        · exact Or.inl
      · next hin =>
        obtain ⟨older, htop, hne⟩ := (hc hgone).resolve_left hin
        have holder : older.filter (fun d => (m.take g).owns g.thread d.id) =
            older.filter fun d => m.owns g.thread d.id := by
          apply List.filter_congr
          intro d hd
          rw [Bool.eq_iff_iff, howns]
          simp [hne d hd]
        have hnew : (m.take g).owns g.thread g.classifier.id = true :=
          (howns _).2 (Or.inr ⟨rfl, rfl⟩)
        rw [htop, List.filter_append, List.filter_append, holder]
        simp [hnew, hin]
    · rw [if_neg (fun h => hu h.2), ← hstack]
      apply List.filter_congr
      intro d hd
      rw [Bool.eq_iff_iff, howns]
      simp [hu]

theorem drop (hm : Mirrored m gone stack) (h : g ∈ m.guards) : Mirrored (m.drop g) gone stack := by
  have hsolo := hm.solo.drop h
  refine ⟨hsolo.balanced, hsolo.single, hsolo.through, ?_, hm.bare⟩
  · intro u hgone
    have hstack := hm.mirror u hgone
    have howns := hm.balanced.owns_drop h u
    rw [Monitors.heldBy, Monitors.heldBy_drop m g (by rw [hm.single]; exact Nat.zero_lt_one),
      ← Monitors.heldBy]
    by_cases hu : u = g.thread
    · subst hu
      rw [if_pos ⟨hm.through g h, rfl⟩, distinct_eraseLast, hm.entries_heldBy, ← hstack]
      split
      · next hlast =>
        rw [List.filter_filter]
        apply List.filter_congr
        intro d hd
        rw [Bool.eq_iff_iff, howns]
        simp only [true_and, ne_eq, Bool.and_eq_true, decide_eq_true_iff]
        constructor
        · rintro ⟨howned, hdeep⟩
          refine ⟨?_, howned⟩
          intro heq
          have := hdeep heq
          rw [heq] at this
          omega
        · rintro ⟨hne, howned⟩
          exact ⟨howned, fun heq => absurd heq hne⟩
      · next hdeep =>
        apply List.filter_congr
        intro d hd
        rw [Bool.eq_iff_iff, howns]
        constructor
        · exact And.left
        · intro howned
          refine ⟨howned, ?_⟩
          rintro ⟨-, heq⟩
          rw [heq]
          omega
    · rw [if_neg (fun h => hu h.2), ← hstack]
      apply List.filter_congr
      intro d hd
      rw [Bool.eq_iff_iff, howns]
      simp [hu]

theorem lock (hm : Mirrored m gone stack) (h : m.lock g = some e) (hg : g.runtime = some 0)
    (hc : gone g.thread = false → Announced m stack g.thread g.classifier) :
    Mirrored e gone stack := by
  obtain ⟨hopen, rfl | ⟨old, hold, -, rfl⟩⟩ := Monitors.lock_cases h
  · exact hm.take hopen hg hc
  · exact (hm.take hopen hg hc).drop hold

theorem unlock (hm : Mirrored m gone stack) (t : Thread) (label : String) :
    Mirrored (m.unlock t label).1 gone stack := by
  obtain h | ⟨g, hg, -, h⟩ := m.unlock_cases t label
  · rw [h]
    exact hm
  · rw [h]
    exact hm.drop hg

end Mirrored

end LockDiscipline.Monitor
