import LockDiscipline.Proofs.Exclusion.Bookkeeping
import Mathlib.Data.Finset.Dedup
import Mathlib.Data.List.Induction

namespace LockDiscipline.Exclusion

/-- The guard after these calls, made one after another, where `begin` tells how a call starts. -/
def after (begin : Task → Call) (h : List Task) : Guard :=
  h.foldl (fun g a => (g.run (begin a)).1) .empty

/-- The types that the calls are about. -/
def typesOf (h : List Task) : Finset String := (h.map Task.typeName).toFinset

/-- The calls that came after detection for the type was last switched on. -/
def Since (t : String) (h later : List Task) : Prop :=
  ∃ before, h = before ++ .enable t :: later ∧ .enable t ∉ later

/-- Detection for the type was switched on, and not off again. -/
def On (t : String) (h : List Task) : Prop :=
  ∃ later, Since t h later ∧ .disable t ∉ later

/-- Some value of the type was checked after detection was last switched on. -/
def CheckedSince (t : String) (h : List Task) : Prop :=
  ∃ later, Since t h later ∧ ∃ k, k.typeName = t ∧ .check k ∈ later

/-- Some value of the type was checked after detection was last switched on, and before it was next
switched off. -/
def CheckedWhileOn (t : String) (h : List Task) : Prop :=
  ∃ during later, Since t h (during ++ later) ∧ .disable t ∉ during ∧
    ∃ k, k.typeName = t ∧ .check k ∈ during

/-- What the calls teach about the type. -/
def known (t : String) (h : List Task) : Option Detection :=
  h.foldl (fun d a => if a.typeName = t then a.learn d else d) none

variable {t : String} {h l : List Task} {a : Task} {k : Key}

theorem Since.eq {later latest : List Task} (hl : Since t h later) (hm : Since t h latest) :
    later = latest := by
  obtain ⟨b, rfl, hb⟩ := hl
  obtain ⟨c, hbc, hc⟩ := hm
  rcases List.append_eq_append_iff.1 hbc with ⟨d, -, hd⟩ | ⟨d, -, hd⟩
  · cases d with
    | nil => exact (List.cons.inj hd).2
    | cons x d =>
      rw [List.cons_append] at hd
      exact absurd ((List.cons.inj hd).2 ▸ List.mem_append_right d (List.mem_cons_self ..)) hb
  · cases d with
    | nil => exact (List.cons.inj hd).2.symm
    | cons x d =>
      rw [List.cons_append] at hd
      exact absurd ((List.cons.inj hd).2 ▸ List.mem_append_right d (List.mem_cons_self ..)) hc

theorem since_concat {later : List Task} :
    Since t (h ++ [a]) later ↔
      a = .enable t ∧ later = [] ∨
        a ≠ .enable t ∧ ∃ earlier, later = earlier ++ [a] ∧ Since t h earlier := by
  constructor
  · rintro ⟨b, hb, hnot⟩
    rcases List.eq_nil_or_concat' later with rfl | ⟨earlier, x, rfl⟩
    · obtain ⟨-, hx⟩ := List.append_inj' hb rfl
      exact Or.inl ⟨(List.cons.inj hx).1, rfl⟩
    · rw [← List.cons_append, ← List.append_assoc] at hb
      obtain ⟨hh, hx⟩ := List.append_inj' hb rfl
      cases hx
      simp only [List.mem_append, List.mem_singleton, not_or] at hnot
      exact Or.inr ⟨Ne.symm hnot.2, earlier, rfl, b, hh, hnot.1⟩
  · rintro (⟨rfl, rfl⟩ | ⟨ha, earlier, rfl, b, rfl, hnot⟩)
    · exact ⟨h, rfl, by simp⟩
    · exact ⟨b, by simp, by simp [hnot, Ne.symm ha]⟩

theorem on_concat : On t (h ++ [a]) ↔ a = .enable t ∨ a ≠ .disable t ∧ On t h := by
  constructor
  · rintro ⟨later, hsince, hnot⟩
    rcases since_concat.1 hsince with ⟨ha, -⟩ | ⟨-, earlier, rfl, hearlier⟩
    · exact Or.inl ha
    · simp only [List.mem_append, List.mem_singleton, not_or] at hnot
      exact Or.inr ⟨Ne.symm hnot.2, earlier, hearlier, hnot.1⟩
  · intro ha
    by_cases hnew : a = .enable t
    · exact ⟨[], since_concat.2 (Or.inl ⟨hnew, rfl⟩), by simp⟩
    · obtain ⟨hoff, later, hsince, hnot⟩ := ha.resolve_left hnew
      refine ⟨later ++ [a], since_concat.2 (Or.inr ⟨hnew, later, rfl, hsince⟩), ?_⟩
      simp [hnot, Ne.symm hoff]

theorem checkedWhileOn_concat :
    CheckedWhileOn t (h ++ [a]) ↔ a ≠ .enable t ∧
      (CheckedWhileOn t h ∨ On t h ∧ ∃ k, k.typeName = t ∧ a = .check k) := by
  constructor
  · rintro ⟨during, later, hsince, hnot, k, hk, hcheck⟩
    rcases since_concat.1 hsince with ⟨-, hnil⟩ | ⟨hne, earlier, heq, hearlier⟩
    · rw [(List.append_eq_nil_iff.1 hnil).1] at hcheck
      cases hcheck
    · refine ⟨hne, ?_⟩
      rcases List.eq_nil_or_concat' later with rfl | ⟨rest, x, rfl⟩
      · rw [List.append_nil] at heq
        subst heq
        simp only [List.mem_append, List.mem_singleton, not_or] at hnot hcheck
        rcases hcheck with hcheck | ha
        · exact Or.inl ⟨earlier, [], by rwa [List.append_nil], hnot.1, k, hk, hcheck⟩
        · exact Or.inr ⟨⟨earlier, hearlier, hnot.1⟩, k, hk, ha.symm⟩
      · rw [← List.append_assoc] at heq
        obtain ⟨rfl, -⟩ := List.append_inj' heq rfl
        exact Or.inl ⟨during, rest, hearlier, hnot, k, hk, hcheck⟩
  · rintro ⟨hne, ⟨during, later, hsince, hrest⟩ | ⟨⟨later, hsince, hnot⟩, k, hk, rfl⟩⟩
    · refine ⟨during, later ++ [a], ?_, hrest⟩
      exact since_concat.2 (Or.inr ⟨hne, _, (List.append_assoc ..).symm, hsince⟩)
    · refine ⟨later ++ [.check k], [], ?_, by simp [hnot], k, hk, by simp⟩
      rw [List.append_nil]
      exact since_concat.2 (Or.inr ⟨hne, later, rfl, hsince⟩)

/-- While detection is on, every check since it was switched on counts. -/
theorem checkedWhileOn_iff (h : On t l) : CheckedWhileOn t l ↔ CheckedSince t l := by
  constructor
  · rintro ⟨during, later, hsince, -, k, hk, hcheck⟩
    exact ⟨_, hsince, k, hk, List.mem_append_left _ hcheck⟩
  · rintro ⟨later, hsince, hcheck⟩
    obtain ⟨latest, hlatest, hnot⟩ := h
    obtain rfl := hsince.eq hlatest
    exact ⟨later, [], by rwa [List.append_nil], hnot, hcheck⟩

@[simp] theorem known_concat :
    known t (h ++ [a]) = if a.typeName = t then a.learn (known t h) else known t h := by
  simp [known]

/-- Calls on other types teach nothing about the type. -/
theorem known_filter (t : String) (h : List Task) :
    known t (h.filter fun a => a.typeName = t) = known t h := by
  rw [known, List.foldl_filter]
  refine List.foldl_ext _ _ none fun d a _ => ?_
  by_cases ha : a.typeName = t <;> simp [ha]

theorem any_known (t : String) (h : List Task) :
    ((known t h).any (·.enabled) = true ↔ On t h) ∧
      ((known t h).any (·.exercised) = true ↔ CheckedWhileOn t h) := by
  induction h using List.reverseRecOn with
  | nil =>
    have hnever : ∀ later, ¬ Since t [] later := by
      rintro later ⟨before, hb, -⟩
      simp at hb
    constructor
    · refine iff_of_false (by simp [known]) ?_
      rintro ⟨later, hsince, -⟩
      exact hnever _ hsince
    · refine iff_of_false (by simp [known]) ?_
      rintro ⟨during, later, hsince, -⟩
      exact hnever _ hsince
  | append_singleton h a ih =>
    obtain ⟨hon, hchecked⟩ := ih
    rw [known_concat, on_concat, checkedWhileOn_concat, ← hon, ← hchecked]
    by_cases ha : a.typeName = t
    · subst ha
      cases a <;> rcases known _ h with _ | ⟨_ | _, _ | _⟩ <;> simp [Task.learn, Task.typeName]
    · have henable : a ≠ .enable t := by
        rintro rfl
        exact ha rfl
      have hdisable : a ≠ .disable t := by
        rintro rfl
        exact ha rfl
      have hcheck : ¬ ∃ k : Key, k.typeName = t ∧ a = .check k := by
        rintro ⟨k, hk, rfl⟩
        exact ha hk
      simp [ha, henable, hdisable, hcheck]

theorem known_eq_iff : known t h = some ⟨true, true⟩ ↔ On t h ∧ CheckedSince t h := by
  obtain ⟨hon, hchecked⟩ := any_known t h
  constructor
  · intro hknown
    rw [hknown] at hon hchecked
    have hison := hon.1 rfl
    exact ⟨hison, (checkedWhileOn_iff hison).1 (hchecked.1 rfl)⟩
  · rintro ⟨hison, hsince⟩
    have he := hon.2 hison
    have hx := hchecked.2 ((checkedWhileOn_iff hison).2 hsince)
    rcases hd : known t h with _ | ⟨_ | _, _ | _⟩ <;> simp_all

@[simp] theorem after_concat (begin : Task → Call) (h : List Task) (a : Task) :
    after begin (h ++ [a]) = ((after begin h).run (begin a)).1 := by
  simp [after]

/-- The guard that a history leaves is tidy, knows what the history taught, and is the same where
checks do not look at the count. -/
theorem after_tidy (h : List Task) (hfew : (typesOf h).card < UInt64.size) :
    after Task.direct h = after Task.call h ∧ (∃ on ⊆ typesOf h, Tidy on (after Task.call h)) ∧
      ∀ t, (after Task.call h).detection? t = known t h := by
  induction h using List.reverseRecOn with
  | nil => exact ⟨rfl, ⟨∅, Finset.empty_subset _, Tidy.empty⟩, fun t => rfl⟩
  | append_singleton h a ih =>
    have htypes : typesOf (h ++ [a]) = insert a.typeName (typesOf h) := by
      ext t
      simp [typesOf]
    rw [htypes] at hfew ⊢
    have hless := Finset.card_le_card (Finset.subset_insert a.typeName (typesOf h))
    obtain ⟨hdirect, ⟨on, hon, htidy⟩, hknown⟩ := ih (Nat.lt_of_le_of_lt hless hfew)
    have hroom := Finset.card_le_card (Finset.insert_subset_insert a.typeName hon)
    refine ⟨?_, ⟨a.regroup on, ?_, ?_⟩, fun t => ?_⟩
    · rw [after_concat, after_concat, hdirect, htidy.run_direct]
    · exact (a.regroup_subset on).trans (Finset.insert_subset_insert _ hon)
    · rw [after_concat]
      exact htidy.run a (Nat.lt_of_le_of_lt hroom hfew)
    · rw [after_concat, (htidy.effect a).types, hknown, hknown, known_concat]
      by_cases ht : a.typeName = t
      · rw [if_pos ht, if_pos ht.symm, ht]
      · rw [if_neg ht, if_neg (Ne.symm ht)]

theorem typesOf_filter (p : Task → Bool) (h : List Task) :
    (typesOf (h.filter p)).card ≤ (typesOf h).card := by
  refine Finset.card_le_card fun t ht => ?_
  rw [typesOf, List.mem_toFinset] at ht ⊢
  exact (List.filter_sublist.map _).subset ht

/-- After every history of completed calls: switching detection off succeeds just if it is on and a
value was checked since it was switched on, and it is off then in any case. The guard tells whether
detection is on, and whether a value was checked while it was. Calls on other types make no
difference. The count is the number of types that have detection on, and no answer and no state
depends on its being looked at first. Every call comes to its end. A program has fewer types than
there are machine words. -/
theorem optIn_exact (h : List Task) (hfew : (typesOf h).card < UInt64.size) :
    let g := after Task.call h
    (∀ t, ((g.setDetection t false).2 = .ok () ↔ On t h ∧ CheckedSince t h) ∧
      ((g.setDetection t false).2 = .error (.notExercised t) ↔ ¬ (On t h ∧ CheckedSince t h)) ∧
      (g.setDetection t false).1.isEnabled t = false) ∧
    (∀ t, (g.isEnabled t = true ↔ On t h) ∧ (g.wasExercised t = true ↔ CheckedWhileOn t h)) ∧
    (∀ t, let own := after Task.call (h.filter fun a => a.typeName = t)
      g.isEnabled t = own.isEnabled t ∧ g.wasExercised t = own.wasExercised t ∧
        ∀ a : Task, a.typeName = t → (g.run a.call).2 = (own.run a.call).2) ∧
    (∃ on : Finset String, (∀ t, t ∈ on ↔ On t h) ∧ g.enabledTypes.toNat = on.card) ∧
    (after Task.direct h = g ∧ ∀ a : Task, g.run a.direct = g.run a.call) ∧
    ∀ a : Task, ∃ r, (a.call.complete Call.longest g).2 = .ended r ∧ (g.run a.call).2 = r := by
  intro g
  obtain ⟨hdirect, ⟨on, -, htidy⟩, hknown⟩ := after_tidy h hfew
  have hison : ∀ t, g.isEnabled t = true ↔ On t h := by
    intro t
    rw [← (any_known t h).1, Guard.isEnabled, hknown]
  refine ⟨fun t => ?_, fun t => ⟨hison t, ?_⟩, fun t => ?_, ?_,
    ⟨hdirect, htidy.run_direct⟩, Task.exists_ended g⟩
  · have heffect : Effect (.disable t) g (g.setDetection t false) := htidy.effect (.disable t)
    have hanswer := heffect.answer
    rw [Task.typeName, hknown, Task.answer] at hanswer
    refine ⟨?_, ?_, ?_⟩
    · rw [hanswer, ← known_eq_iff]
      split <;> simp_all
    · rw [hanswer, ← known_eq_iff]
      split <;> simp_all
    · rw [Guard.isEnabled, heffect.types, Task.typeName, if_pos rfl, Task.any_learn]
      rfl
  · rw [← (any_known t h).2, Guard.wasExercised, hknown]
  · have hless := Nat.lt_of_le_of_lt (typesOf_filter (fun a => a.typeName = t) h) hfew
    obtain ⟨-, ⟨few, -, hown⟩, hsame⟩ := after_tidy _ hless
    have hdetection := (hsame t).trans ((known_filter t h).trans (hknown t).symm)
    refine ⟨?_, ?_, fun a ha => ?_⟩
    · rw [Guard.isEnabled, Guard.isEnabled, hdetection]
    · rw [Guard.wasExercised, Guard.wasExercised, hdetection]
    · rw [(htidy.effect a).answer, (hown.effect a).answer, ha, hdetection]
  · exact ⟨on, fun t => (htidy.mem t).trans (hison t), htidy.count⟩

/-- Two types have detection on, and a value of only one of them was checked. -/
def twofold : List Task :=
  [.enable "u8", .check ⟨"u8", 0⟩, .enable "u16", .check ⟨"u32", 0⟩, .enable "u16"]

theorem optIn_exact_twofold :
    (typesOf twofold).card < UInt64.size ∧
      ((after Task.call twofold).setDetection "u8" false).2 = .ok () ∧
      ((after Task.call twofold).setDetection "u16" false).2 = .error (.notExercised "u16") := by
  have hfew : (typesOf twofold).card < UInt64.size :=
    Nat.lt_of_le_of_lt (List.toFinset_card_le _) (by decide)
  obtain ⟨hoff, -⟩ := optIn_exact twofold hfew
  have hsince : Since "u8" twofold (twofold.drop 1) := ⟨[], rfl, by decide⟩
  refine ⟨hfew, (hoff "u8").1.2 ⟨⟨_, hsince, by decide⟩, _, hsince, ⟨"u8", 0⟩, rfl, ?_⟩,
    (hoff "u16").2.1.2 ?_⟩
  · exact List.mem_cons_self ..
  · rintro ⟨-, later, hlater, k, -, hk⟩
    have hlast : Since "u16" twofold [] := ⟨twofold.take 4, rfl, by decide⟩
    rw [hlater.eq hlast] at hk
    cases hk

/-- A check while detection is off does not count, though it comes after detection was switched
on. -/
theorem checked_while_off :
    CheckedSince "u8" [.enable "u8", .disable "u8", .check ⟨"u8", 0⟩] ∧
      (after Task.call [.enable "u8", .disable "u8", .check ⟨"u8", 0⟩]).wasExercised "u8" = false :=
  ⟨⟨[.disable "u8", .check ⟨"u8", 0⟩], ⟨[], rfl, by decide⟩, ⟨"u8", 0⟩, rfl, by simp⟩, rfl⟩

end LockDiscipline.Exclusion
