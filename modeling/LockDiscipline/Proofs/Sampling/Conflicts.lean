import LockDiscipline.Proofs.Sampling.Worker
import Mathlib.Data.List.Sort
import Mathlib.Data.String.Basic

namespace LockDiscipline.Sampling

variable {a b : String} {o xs : List String}

/-- Some place of the first name comes before some place of the second one. -/
def Precedes (o : List String) (a b : String) : Prop :=
  ∃ i j : Nat, i < j ∧ o[i]? = some a ∧ o[j]? = some b

theorem precedes_cons {x : String} :
    Precedes (x :: xs) a b ↔ (x = a ∧ b ∈ xs) ∨ Precedes xs a b := by
  constructor
  · rintro ⟨i, j, hij, hi, hj⟩
    obtain ⟨k, rfl⟩ : ∃ k, j = k + 1 := ⟨j - 1, by omega⟩
    rw [List.getElem?_cons_succ] at hj
    cases i with
    | zero => exact Or.inl ⟨by simpa using hi, List.mem_of_getElem? hj⟩
    | succ i =>
      rw [List.getElem?_cons_succ] at hi
      exact Or.inr ⟨i, k, by omega, hi, hj⟩
  · rintro (⟨rfl, hb⟩ | ⟨i, j, hij, hi, hj⟩)
    · obtain ⟨k, hk⟩ := List.mem_iff_getElem?.1 hb
      exact ⟨0, k + 1, by omega, rfl, hk⟩
    · exact ⟨i + 1, j + 1, by omega, hi, hj⟩

theorem precedes_iff_sublist : Precedes o a b ↔ [a, b].Sublist o := by
  induction o with
  | nil => simp [Precedes]
  | cons x xs ih =>
    rw [precedes_cons, ih, List.sublist_cons_iff]
    constructor
    · rintro (⟨rfl, hb⟩ | hsub)
      · exact Or.inr ⟨[b], rfl, List.singleton_sublist.2 hb⟩
      · exact Or.inl hsub
    · rintro (hsub | ⟨r, heq, hsub⟩)
      · exact Or.inr hsub
      · cases heq
        exact Or.inl ⟨rfl, List.singleton_sublist.1 hsub⟩

/-- The pairs of an ordering are those of different names, the inner one first. -/
theorem mem_nestings_iff_precedes : (a, b) ∈ nestings o ↔ a ≠ b ∧ Precedes o b a := by
  rw [mem_nestings, precedes_iff_sublist]

namespace SampleSet

variable {s t : SampleSet} {f : NameFilter} {c : Recording}

theorem mem_conflicts_iff : (a, b) ∈ s.conflicts ↔
    a < b ∧ ∃ o ∈ s.orderings, ∃ o' ∈ s.orderings, Precedes o a b ∧ Precedes o' b a := by
  rw [mem_conflicts, mem_nested, mem_nested]
  simp only [mem_nestings_iff_precedes]
  constructor
  · rintro ⟨hlt, ⟨o', ho', -, hba⟩, o, ho, -, hab⟩
    exact ⟨hlt, o, ho, o', ho', hab, hba⟩
  · rintro ⟨hlt, o, ho, o', ho', hab, hba⟩
    have hne : a ≠ b := ne_of_lt hlt
    exact ⟨hlt, ⟨o', ho', hne, hba⟩, o, ho, hne.symm, hab⟩

/-- Pairs go by the first name, and where that is the same by the second one. -/
def Before (p q : String × String) : Prop := p.1 < q.1 ∨ p.1 = q.1 ∧ p.2 < q.2

theorem before_of_compare {p q : String × String} (h : lexOrd.compare p q = .lt) : Before p q := by
  change (compare p.1 q.1).then (compare p.2 q.2) = .lt at h
  rw [Ordering.then_eq_lt] at h
  rcases h with h | ⟨heq, h⟩
  · exact Or.inl (compare_lt_iff_lt.1 h)
  · exact Or.inr ⟨compare_eq_iff_eq.1 heq, compare_lt_iff_lt.1 h⟩

theorem pairwise_conflicts (s : SampleSet) : s.conflicts.Pairwise Before :=
  (Std.ExtTreeSet.ordered_toList.imp before_of_compare).filter _

theorem Before.asymm {p q : String × String} (h : Before p q) : ¬ Before q p := by
  rintro (hlt | ⟨heq, hlt⟩) <;> rcases h with h | ⟨h, h'⟩
  · exact lt_asymm h hlt
  · exact (ne_of_lt hlt) h.symm
  · exact (ne_of_lt h) heq.symm
  · exact lt_asymm h' hlt

instance : Std.Asymm Before := ⟨fun _ _ => Before.asymm⟩

/-- More orderings give all conflicts there were, in the same order, and perhaps others among
them. -/
theorem conflicts_sublist (h : ∀ o ∈ s.orderings, o ∈ t.orderings) :
    s.conflicts.Sublist t.conflicts := by
  have hsubset : s.conflicts ⊆ t.conflicts := by
    rintro ⟨a, b⟩ hmem
    obtain ⟨hlt, o, ho, o', ho', hab, hba⟩ := mem_conflicts_iff.1 hmem
    exact mem_conflicts_iff.2 ⟨hlt, o, h o ho, o', h o' ho', hab, hba⟩
  have hperm := List.subperm_of_subset (pairwise_conflicts s).nodup hsubset
  exact List.sublist_of_subperm_of_pairwise hperm (pairwise_conflicts s) (pairwise_conflicts t)

theorem conflicts_take (s : SampleSet) (c : Recording) : s.conflicts.Sublist (s.take c).conflicts :=
  conflicts_sublist fun _ ho => mem_orderings_take.2 (Or.inl ho)

theorem conflicts_foldl_take (s : SampleSet) (cs : List Recording) :
    s.conflicts.Sublist (cs.foldl take s).conflicts := by
  induction cs generalizing s with
  | nil => exact List.Sublist.refl _
  | cons c cs ih => exact (conflicts_take s c).trans (ih (s.take c))

end SampleSet

section Session

variable {f : NameFilter} {answers : Nat → Answer} {w : Worker}

/-- A worker takes no ordering back. -/
theorem Worker.orderings_step (goOn : Bool) (ho : o ∈ w.samples.orderings) :
    o ∈ (w.step f answers goOn).samples.orderings := by
  unfold Worker.step
  cases w.stage with
  | checking => cases goOn <;> exact ho
  | asking q => dsimp only; split <;> exact ho
  | adding rest =>
    cases rest with
    | nil => exact ho
    | cons x rest => exact SampleSet.mem_orderings_record.2 (Or.inl ho)
  | pausing => exact ho
  | leaving cause bursts => cases bursts <;> exact ho
  | ended cause lost => exact ho

theorem Worker.conflicts_run (f : NameFilter) (answers : Nat → Answer) (w : Worker)
    (goOn : List Bool) :
    w.samples.conflicts.Sublist (goOn.foldl (Worker.step f answers) w).samples.conflicts := by
  induction goOn generalizing w with
  | nil => exact List.Sublist.refl _
  | cons g goOn ih =>
    have hstep : w.samples.conflicts.Sublist (w.step f answers g).samples.conflicts :=
      SampleSet.conflicts_sublist fun _ ho => Worker.orderings_step g ho
    exact hstep.trans (ih (w.step f answers g))

theorem Report.hasConflicts_iff (s : SampleSet) :
    (Report.ofSamples s).hasConflicts = true ↔ s.conflicts ≠ [] := by
  simp [Report.hasConflicts, Report.ofSamples]

/-- For every sample set: a pair of names is a conflict iff the first is the smaller one and stands
before the second in some ordering and behind it in some ordering. Each conflict is listed once, in
ascending order. Whatever is recorded, the conflicts there were stay, in their order. So a report
that shows a conflict at some step of a worker shows one at every later step. -/
theorem conflicts_exact (s : SampleSet) :
    (∀ a b, (a, b) ∈ s.conflicts ↔
      a < b ∧ ∃ o ∈ s.orderings, ∃ o' ∈ s.orderings, Precedes o a b ∧ Precedes o' b a) ∧
    s.conflicts.Pairwise (fun p q => p.1 < q.1 ∨ p.1 = q.1 ∧ p.2 < q.2) ∧
    (∀ cs : List Recording, s.conflicts.Sublist (cs.foldl SampleSet.take s).conflicts) ∧
    ∀ f answers goOn more,
      (Report.ofSamples (Worker.after f answers goOn).samples).hasConflicts = true →
        (Report.ofSamples (Worker.after f answers (goOn ++ more)).samples).hasConflicts = true := by
  refine ⟨fun a b => SampleSet.mem_conflicts_iff, SampleSet.pairwise_conflicts s,
    SampleSet.conflicts_foldl_take s, ?_⟩
  intro f answers goOn more h
  have hmore := Worker.conflicts_run f answers (Worker.after f answers goOn) more
  rw [Report.hasConflicts_iff] at h ⊢
  rw [Worker.after_append]
  intro hnone
  rw [hnone] at hmore
  exact h (List.sublist_nil.1 hmore)

end Session

end LockDiscipline.Sampling
