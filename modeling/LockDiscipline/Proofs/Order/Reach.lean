import LockDiscipline.Order.Cycles

namespace LockDiscipline.Order

variable {R : Nat → Nat → Prop}

theorem related_addStation_le (htrans : ∀ i j k, R i j → R j k → R i k) {rows : List Nat}
    (h : ∀ i j, related rows i j = true → R i j) (k : Nat) :
    ∀ i j, related (addStation rows k) i j = true → R i j := by
  intro i j hij
  rw [related_addStation, Bool.or_eq_true, Bool.and_eq_true] at hij
  rcases hij with hij | ⟨hik, hkj⟩
  · exact h i j hij
  · exact htrans i k j (h i k hik) (h k j hkj)

/-- The closure is within every transitive relation around the rows. -/
theorem related_closure_le (htrans : ∀ i j k, R i j → R j k → R i k) {rows : List Nat}
    (h : ∀ i j, related rows i j = true → R i j) :
    ∀ i j, related (closure rows) i j = true → R i j := by
  unfold closure
  generalize List.range rows.length = ks
  induction ks generalizing rows with
  | nil => exact h
  | cons k ks ih => exact ih (related_addStation_le htrans h k)

namespace Graph

variable {g : Graph} {cs : List Classifier}

theorem related_rows (g : Graph) (cs : List Classifier) (i j : Nat) :
    related (g.rows cs) i j = true ↔
      ∃ a b, cs[i]? = some a ∧ cs[j]? = some b ∧ g.hasEdge a.id b.id = true := by
  unfold related rows
  rw [List.getElem?_map]
  cases hi : cs[i]? with
  | none => simp
  | some a =>
    rw [Option.map_some, Option.getD_some, testBit_ofBits, List.getElem?_map]
    cases hj : cs[j]? <;> simp

/-- What a cycle is made from: an entry, and another one such that steps lead from each to the
other. -/
theorem exists_mutual_of_mem_cycles {alive : ClassifierId → Bool} {c : Cycle}
    (hc : c ∈ g.cycles alive) :
    ∃ i j, related (closure (g.rows (g.live alive))) i j = true ∧
      related (closure (g.rows (g.live alive))) j i = true := by
  have hentry : ∀ (e : (Classifier × Nat) × Nat),
      e ∈ ((g.live alive).zip (closure (g.rows (g.live alive)))).zipIdx →
        ∀ j, e.1.2.testBit j = related (closure (g.rows (g.live alive))) e.2 j := by
    intro e he j
    have hget := List.mem_zipIdx_iff_getElem?.1 he
    rw [List.getElem?_zip_eq_some] at hget
    rw [related, hget.2, Option.getD_some]
  unfold cycles at hc
  obtain ⟨⟨⟨a, after⟩, i⟩, hi, hc⟩ := List.mem_filterMap.1 hc
  dsimp only at hc
  split at hc
  · next hlen =>
    rw [Bool.and_eq_true, decide_eq_true_iff, List.length_map] at hlen
    obtain ⟨⟨⟨b, back⟩, j⟩, hj⟩ := List.exists_mem_of_length_pos (Nat.lt_of_succ_lt hlen.1)
    obtain ⟨hmem, hboth⟩ := List.mem_filter.1 hj
    rw [Bool.and_eq_true] at hboth
    refine ⟨i, j, ?_, ?_⟩
    · rw [← hentry _ hi]
      exact hboth.1
    · rw [← hentry _ hmem]
      exact hboth.2
  · cases hc

theorem cycles_eq_nil {lt : ClassifierId → ClassifierId → Prop} (hirrefl : ∀ a, ¬ lt a a)
    (htrans : ∀ a b c, lt a b → lt b c → lt a c)
    (h : ∀ a b, g.hasEdge a b = true → lt a b) (alive : ClassifierId → Bool) :
    g.cycles alive = [] := by
  let before (i j : Nat) : Prop :=
    ∃ a b, (g.live alive)[i]? = some a ∧ (g.live alive)[j]? = some b ∧ lt a.id b.id
  have hbefore : ∀ i j k, before i j → before j k → before i k := by
    rintro i j k ⟨a, b, hi, hj, hab⟩ ⟨b', c, hj', hk, hbc⟩
    rw [hj] at hj'
    cases hj'
    exact ⟨a, c, hi, hk, htrans _ _ _ hab hbc⟩
  have hle := related_closure_le hbefore fun i j hij => by
    obtain ⟨a, b, hi, hj, he⟩ := (related_rows g (g.live alive) i j).1 hij
    exact ⟨a, b, hi, hj, h _ _ he⟩
  rw [List.eq_nil_iff_forall_not_mem]
  intro c hc
  obtain ⟨i, j, hij, hji⟩ := exists_mutual_of_mem_cycles hc
  obtain ⟨a, b, hi, hi', hab⟩ := hbefore i j i (hle i j hij) (hle j i hji)
  rw [hi] at hi'
  cases hi'
  exact hirrefl _ hab

end Graph

end LockDiscipline.Order
