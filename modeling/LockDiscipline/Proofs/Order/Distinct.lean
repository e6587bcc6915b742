import LockDiscipline.Order.Classifier
import Mathlib.Data.List.Induction

namespace LockDiscipline.Order

/-- The first entry of every classifier, in the order of the list. -/
def distinct : List Classifier → List Classifier
  | [] => []
  | c :: cs => c :: (distinct cs).filter fun d => d.id ≠ c.id

/-- How many entries a list has for a classifier. -/
def entries (a : ClassifierId) (cs : List Classifier) : Nat := cs.countP fun c => c.id == a

theorem distinct_sublist (cs : List Classifier) : (distinct cs).Sublist cs := by
  induction cs with
  | nil => exact List.Sublist.refl _
  | cons c cs ih => exact (List.filter_sublist.trans ih).cons_cons c

theorem isIn_distinct (c : Classifier) (cs : List Classifier) :
    c.isIn (distinct cs) = c.isIn cs := by
  rw [Bool.eq_iff_iff, Classifier.isIn_iff, Classifier.isIn_iff]
  constructor
  · rintro ⟨d, hd, hid⟩
    exact ⟨d, (distinct_sublist cs).subset hd, hid⟩
  · rintro ⟨d, hd, hid⟩
    induction cs with
    | nil => cases hd
    | cons e es ih =>
      by_cases he : e.id = c.id
      · exact ⟨e, by simp [distinct], he⟩
      · rcases List.mem_cons.1 hd with rfl | hd
        · exact absurd hid he
        · obtain ⟨f, hf, hfid⟩ := ih hd
          have hne : f.id ≠ e.id := by rw [hfid]; exact Ne.symm he
          exact ⟨f, by simp [distinct, hf, hne], hfid⟩

theorem distinct_ids_nodup (cs : List Classifier) : ((distinct cs).map (·.id)).Nodup := by
  induction cs with
  | nil => simp [distinct]
  | cons c cs ih =>
    rw [distinct, List.map_cons, List.nodup_cons]
    refine ⟨by simp, ?_⟩
    exact (List.filter_sublist.map _).nodup ih

theorem distinct_of_nodup {cs : List Classifier} (h : (cs.map (·.id)).Nodup) :
    distinct cs = cs := by
  induction cs with
  | nil => rfl
  | cons c cs ih =>
    rw [List.map_cons, List.nodup_cons] at h
    have hrest : ∀ d ∈ cs, d.id ≠ c.id := fun d hd hid => h.1 (List.mem_map.2 ⟨d, hd, hid⟩)
    rw [distinct, ih h.2, List.filter_eq_self.2 (by simpa using hrest)]

/-- A first entry is the one that a search for its classifier finds. -/
theorem find?_of_mem_distinct {c : Classifier} {cs : List Classifier} (h : c ∈ distinct cs) :
    cs.find? (fun d => d.id == c.id) = some c := by
  induction cs with
  | nil => cases h
  | cons d ds ih =>
    rcases List.mem_cons.1 h with rfl | h
    · rw [List.find?_cons_of_pos (by simp)]
    · obtain ⟨hmem, hne⟩ := List.mem_filter.1 h
      rw [List.find?_cons_of_neg (by simpa using Ne.symm (of_decide_eq_true hne))]
      exact ih hmem

/-- A further entry counts only where the classifier had none. -/
theorem distinct_push (cs : List Classifier) (c : Classifier) :
    distinct (cs ++ [c]) = if c.isIn cs then distinct cs else distinct cs ++ [c] := by
  induction cs with
  | nil => simp [distinct, Classifier.isIn]
  | cons d ds ih =>
    rw [List.cons_append, distinct, ih, distinct]
    by_cases hd : d.id = c.id
    · have hin : c.isIn (d :: ds) = true := Classifier.isIn_iff.2 ⟨d, by simp, hd⟩
      rw [if_pos hin]
      split
      · rfl
      · simp [hd]
    · have hin : c.isIn (d :: ds) = c.isIn ds := by simp [Classifier.isIn, hd]
      rw [hin]
      split
      · rfl
      · simp [Ne.symm hd]

/-- What stands before something else stands before it among the first entries too, unless the other
one was there earlier. -/
theorem sublist_distinct {p q : Classifier} {cs : List Classifier} (hpq : p.id ≠ q.id)
    (hids : ∀ c ∈ cs, ∀ d ∈ cs, c.id = d.id → c = d) (h : [p, q].Sublist cs) :
    [p, q].Sublist (distinct cs) ∨ [q, p, q].Sublist cs := by
  induction cs with
  | nil => cases h
  | cons c cs ih =>
    have hrest : ∀ c ∈ cs, ∀ d ∈ cs, c.id = d.id → c = d :=
      fun c hc d hd => hids c (List.mem_cons_of_mem _ hc) d (List.mem_cons_of_mem _ hd)
    by_cases hc : c.id = p.id
    · -- the first one leads the list, and the other one has its first entry somewhere behind
      have hq : q ∈ cs := by
        rcases List.mem_cons.1 (h.subset (by simp : q ∈ [p, q])) with rfl | hq
        · exact absurd hc.symm hpq
        · exact hq
      have hp : p ∈ c :: cs := h.subset (by simp)
      obtain rfl : c = p := hids c List.mem_cons_self p hp hc
      obtain ⟨d, hd, hid⟩ := Classifier.isIn_iff.1
        ((isIn_distinct q cs).trans (Classifier.isIn_iff.2 ⟨q, hq, rfl⟩))
      obtain rfl : d = q := hrest d ((distinct_sublist cs).subset hd) q hq hid
      refine Or.inl (List.Sublist.cons_cons c (List.singleton_sublist.2 ?_))
      exact List.mem_filter.2 ⟨hd, by simpa using hpq.symm⟩
    · have htail : [p, q].Sublist cs := by
        rcases List.sublist_cons_iff.1 h with h | ⟨r, heq, -⟩
        · exact h
        · cases heq
          exact absurd rfl hc
      by_cases hcq : c.id = q.id
      · have hq : q ∈ c :: cs := h.subset (by simp)
        obtain rfl : c = q := hids c List.mem_cons_self q hq hcq
        exact Or.inr (htail.cons_cons c)
      · rcases ih hrest htail with hleft | hright
        · refine Or.inl (List.Sublist.cons c ?_)
          have hkept := hleft.filter fun d : Classifier => decide (d.id ≠ c.id)
          rwa [List.filter_eq_self.2 (by simp [Ne.symm hc, Ne.symm hcq])] at hkept
        · exact Or.inr (hright.cons c)

theorem entries_pos_iff {a : ClassifierId} {cs : List Classifier} :
    0 < entries a cs ↔ ∃ c ∈ cs, c.id = a := by
  simp [entries, List.countP_pos_iff]

theorem entries_push (a : ClassifierId) (cs : List Classifier) (c : Classifier) :
    entries a (cs ++ [c]) = entries a cs + if c.id = a then 1 else 0 := by
  simp [entries, List.countP_append, List.countP_singleton]

theorem eraseLast_push (c d : Classifier) (cs : List Classifier) :
    eraseLast c (cs ++ [d]) = if d.id = c.id then cs else eraseLast c cs ++ [d] := by
  by_cases h : d.id = c.id <;> simp [eraseLast, h]

theorem eraseLast_of_isIn_eq_false {c : Classifier} {cs : List Classifier}
    (h : c.isIn cs = false) : eraseLast c cs = cs := by
  have hnone : ∀ d ∈ cs.reverse, ¬ (d.id == c.id) = true := by
    intro d hd
    simpa using Classifier.isIn_eq_false_iff.1 h d (List.mem_reverse.1 hd)
  rw [eraseLast, List.eraseP_of_forall_not hnone, List.reverse_reverse]

/-- Everything else keeps its place. -/
theorem exists_of_eraseLast {c : Classifier} {cs : List Classifier} (h : c.isIn cs = true) :
    ∃ before e after, cs = before ++ e :: after ∧ e.id = c.id ∧
      eraseLast c cs = before ++ after := by
  induction cs using List.reverseRecOn with
  | nil => cases h
  | append_singleton cs d ih =>
    rw [eraseLast_push]
    by_cases hd : d.id = c.id
    · exact ⟨cs, d, [], rfl, hd, by rw [if_pos hd, List.append_nil]⟩
    · have hin : c.isIn cs = true := by
        rw [← h, Classifier.isIn, Classifier.isIn, List.any_append]
        simp [hd]
      obtain ⟨before, e, after, hsplit, he, herase⟩ := ih hin
      refine ⟨before, e, after ++ [d], ?_, he, ?_⟩
      · rw [hsplit, List.append_assoc, List.cons_append]
      · rw [if_neg hd, herase, List.append_assoc]

/-- Where the classifier is filtered out its last entry may go. -/
theorem filter_eraseLast {p : ClassifierId → Bool} {c : Classifier} (h : p c.id = false)
    (cs : List Classifier) :
    (eraseLast c cs).filter (fun o => p o.id) = cs.filter fun o => p o.id := by
  induction cs using List.reverseRecOn with
  | nil => rfl
  | append_singleton cs d ih =>
    rw [eraseLast_push]
    split
    · next hd => simp [hd, h]
    · rw [List.filter_append, ih, List.filter_append]

theorem entries_eraseLast (a : ClassifierId) (c : Classifier) (cs : List Classifier) :
    entries a (eraseLast c cs) = entries a cs - if c.id = a then 1 else 0 := by
  induction cs using List.reverseRecOn with
  | nil => simp [eraseLast, entries]
  | append_singleton cs d ih =>
    rw [eraseLast_push, entries_push]
    by_cases hd : d.id = c.id
    · rw [if_pos hd, hd]
      omega
    · rw [if_neg hd, entries_push, ih]
      by_cases hc : c.id = a
      · have hda : d.id ≠ a := by rw [← hc]; exact hd
        simp [hda]
      · simp [hc]

/-- The last entry for a classifier is its first one only if it is the only one. -/
theorem distinct_eraseLast (c : Classifier) (cs : List Classifier) :
    distinct (eraseLast c cs) =
      if entries c.id cs ≤ 1 then (distinct cs).filter (fun d => d.id ≠ c.id) else distinct cs := by
  induction cs using List.reverseRecOn with
  | nil => simp [eraseLast, distinct]
  | append_singleton cs d ih =>
    rw [eraseLast_push, entries_push, distinct_push]
    have hin : d.isIn cs = true ↔ 0 < entries d.id cs :=
      Classifier.isIn_iff.trans entries_pos_iff.symm
    by_cases hd : d.id = c.id
    · rw [if_pos hd, if_pos hd]
      by_cases h : d.isIn cs = true
      · have hpos := hin.1 h
        rw [hd] at hpos
        rw [if_pos h, if_neg (by omega)]
      · have hzero : entries c.id cs = 0 := by rw [← hd]; have := mt hin.2 h; omega
        have hall : ∀ e ∈ distinct cs, e.id ≠ c.id := by
          intro e he heq
          have := entries_pos_iff.2 ⟨e, (distinct_sublist cs).subset he, heq⟩
          omega
        have hkeep : (distinct cs).filter (fun e => e.id ≠ c.id) = distinct cs :=
          List.filter_eq_self.2 (by simpa using hall)
        rw [if_neg h, if_pos (by omega), List.filter_append, hkeep]
        simp [hd]
    · rw [if_neg hd, if_neg hd, Nat.add_zero, distinct_push, ih]
      have hsame : d.isIn (eraseLast c cs) = d.isIn cs := by
        rw [Bool.eq_iff_iff, Classifier.isIn_iff, Classifier.isIn_iff, ← entries_pos_iff,
          ← entries_pos_iff, entries_eraseLast, if_neg (Ne.symm hd), Nat.sub_zero]
      rw [hsame]
      by_cases h : d.isIn cs = true <;> by_cases hone : entries c.id cs ≤ 1 <;>
        simp [h, hone, hd]

end LockDiscipline.Order
