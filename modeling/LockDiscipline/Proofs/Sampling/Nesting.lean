import LockDiscipline.Sampling.SampleSet
import Mathlib.Data.List.Chain

namespace LockDiscipline.Sampling

variable {a b : String} {xs ys : List String} {f : NameFilter}

/-- The first name stands outside of the second one. -/
theorem mem_nestings : (a, b) ∈ nestings xs ↔ a ≠ b ∧ [b, a].Sublist xs := by
  induction xs with
  | nil => simp [nestings]
  | cons x xs ih =>
    have hhead : (a, b) ∈ (xs.filter (· ≠ x)).map (fun outer => (outer, x)) ↔
        a ≠ b ∧ b = x ∧ a ∈ xs := by
      rw [List.mem_map]
      constructor
      · rintro ⟨y, hy, heq⟩
        cases heq
        obtain ⟨hmem, hne⟩ := List.mem_filter.1 hy
        exact ⟨of_decide_eq_true hne, rfl, hmem⟩
      · rintro ⟨hne, rfl, hmem⟩
        exact ⟨a, List.mem_filter.2 ⟨hmem, decide_eq_true hne⟩, rfl⟩
    rw [nestings, List.mem_append, hhead, ih, List.sublist_cons_iff]
    constructor
    · rintro (⟨hne, rfl, hmem⟩ | ⟨hne, hsub⟩)
      · exact ⟨hne, Or.inr ⟨[a], rfl, List.singleton_sublist.2 hmem⟩⟩
      · exact ⟨hne, Or.inl hsub⟩
    · rintro ⟨hne, hsub | ⟨r, heq, hsub⟩⟩
      · exact Or.inr ⟨hne, hsub⟩
      · cases heq
        exact Or.inl ⟨hne, rfl, List.singleton_sublist.1 hsub⟩

/-- Two images that stand in this order have origins that do. -/
theorem pair_sublist_map {α β : Type} {f : α → β} {cs : List α} {x y : β}
    (h : [x, y].Sublist (cs.map f)) : ∃ c d, [c, d].Sublist cs ∧ f c = x ∧ f d = y := by
  obtain ⟨l, hl, hmap⟩ := List.sublist_map_iff.1 h
  obtain ⟨c, l', rfl, rfl, hrest⟩ := List.map_eq_cons_iff.1 hmap.symm
  obtain ⟨d, l'', rfl, rfl, hnil⟩ := List.map_eq_cons_iff.1 hrest
  obtain rfl := List.map_eq_nil_iff.1 hnil
  exact ⟨c, d, hl, rfl, rfl⟩

theorem collapse_sublist (xs : List String) : (collapse xs).Sublist xs := by
  fun_induction collapse xs with
  | case1 => exact List.Sublist.refl _
  | case2 => exact List.Sublist.refl _
  | case3 b cs ih => exact ih.cons b
  | case4 a b cs h ih => exact ih.cons_cons a

/-- What has no equal neighbours survives where neighbours that are equal become one. -/
theorem sublist_collapse (hys : ys.IsChain (· ≠ ·)) (h : ys.Sublist xs) :
    ys.Sublist (collapse xs) := by
  fun_induction collapse xs generalizing ys with
  | case1 => exact h
  | case2 => exact h
  -- only one of two equal neighbours can be in a list that has none
  | case3 b cs ih =>
    refine ih hys ?_
    rcases List.sublist_cons_iff.1 h with h | ⟨zs, rfl, hzs⟩
    · exact h
    · rcases List.sublist_cons_iff.1 hzs with hzs | ⟨ws, rfl, -⟩
      · exact hzs.cons_cons b
      · exact absurd rfl (List.isChain_cons_cons.1 hys).1
  | case4 a b cs hne ih =>
    rcases List.sublist_cons_iff.1 h with h | ⟨zs, rfl, hzs⟩
    · exact (ih hys h).cons a
    · exact (ih hys.tail hzs).cons_cons a

theorem reduced_sublist (f : NameFilter) (xs : List String) :
    (SampleSet.reduced f xs).Sublist xs :=
  (collapse_sublist _).trans List.filter_sublist

theorem accepts_of_mem_reduced (h : a ∈ SampleSet.reduced f xs) : f.accepts a = true :=
  (List.mem_filter.1 (mem_collapse.1 h)).2

/-- One of the two names comes back around the other one. -/
def Returns (xs : List String) (a b : String) : Prop :=
  [a, b, a].Sublist xs ∨ [b, a, b].Sublist xs

instance : Decidable (Returns xs a b) :=
  inferInstanceAs (Decidable (_ ∨ _))

theorem Returns.symm (h : Returns xs a b) : Returns xs b a := Or.symm h

/-- A return between two names that are shown is shown. -/
theorem sublist_reduced (hne : a ≠ b) (ha : f.accepts a = true) (hb : f.accepts b = true)
    (h : [a, b, a].Sublist xs) : [a, b, a].Sublist (SampleSet.reduced f xs) := by
  have hfilter : [a, b, a].Sublist (xs.filter f.accepts) := by
    have hsub := h.filter f.accepts
    rwa [List.filter_eq_self.2 (by simp [ha, hb])] at hsub
  refine sublist_collapse ?_ hfilter
  simp [hne, hne.symm]

namespace SampleSet

variable {s : SampleSet} {o : List String}

theorem mem_orderings_record {snapshot : Snapshot} : o ∈ (s.record f snapshot).orderings ↔
    o ∈ s.orderings ∨ 1 < (reduced f snapshot.held).length ∧ o = reduced f snapshot.held := by
  unfold record
  dsimp only
  split
  · next h =>
    rw [Std.ExtTreeSet.mem_insert, Std.LawfulEqCmp.compare_eq_iff_eq]
    simp [h, or_comm, eq_comm (a := o)]
  · next h => simp [h]

/-- The ordering is what a snapshot of the round shows. -/
def Shows (f : NameFilter) (round : List Snapshot) (o : List String) : Prop :=
  ∃ snapshot ∈ round, 1 < (reduced f snapshot.held).length ∧ o = reduced f snapshot.held

theorem mem_orderings_recordRound {round : List Snapshot} :
    o ∈ (s.recordRound f round).orderings ↔ o ∈ s.orderings ∨ Shows f round o := by
  have hfold : o ∈ (round.foldl (record f) s).orderings ↔ o ∈ s.orderings ∨ Shows f round o := by
    induction round generalizing s with
    | nil => simp [Shows]
    | cons snapshot round ih =>
      rw [List.foldl_cons, ih, mem_orderings_record]
      simp [Shows, or_assoc]
  exact hfold

/-- A conflict stands in two orderings, or in one that nests both ways. -/
theorem exists_of_mem_conflicts (h : (a, b) ∈ s.conflicts) :
    ∃ o ∈ s.orderings, ∃ o' ∈ s.orderings, (a, b) ∈ nestings o ∧ (b, a) ∈ nestings o' := by
  obtain ⟨-, hab, hba⟩ := mem_conflicts.1 h
  obtain ⟨o, ho, hab⟩ := mem_nested.1 hab
  obtain ⟨o', ho', hba⟩ := mem_nested.1 hba
  exact ⟨o, ho, o', ho', hab, hba⟩

/-- A name that comes back is nested both ways. -/
theorem mem_conflicts_of_returns (ho : o ∈ s.orderings) (hlt : a < b) (h : Returns o a b) :
    (a, b) ∈ s.conflicts := by
  have hboth : [b, a].Sublist o ∧ [a, b].Sublist o := by
    rcases h with h | h
    · exact ⟨((List.Sublist.refl [b, a]).cons a).trans h,
        (List.sublist_append_left [a, b] [a]).trans h⟩
    · exact ⟨(List.sublist_append_left [b, a] [b]).trans h,
        ((List.Sublist.refl [a, b]).cons b).trans h⟩
  have hne : a ≠ b := by
    rintro rfl
    exact String.lt_irrefl a hlt
  rw [mem_conflicts, mem_nested, mem_nested]
  exact ⟨hlt, ⟨o, ho, mem_nestings.2 ⟨hne, hboth.1⟩⟩, o, ho, mem_nestings.2 ⟨hne.symm, hboth.2⟩⟩

end SampleSet

end LockDiscipline.Sampling
