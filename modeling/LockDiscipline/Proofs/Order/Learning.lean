import LockDiscipline.Proofs.Order.World

namespace LockDiscipline.Order

namespace Graph

def learn (alive : ClassifierId → Bool) (g : Graph) (older : List Classifier)
    (younger : Classifier) (context : Context) : Graph × Outcome :=
  if g.missing older younger = [] then (g, ⟨[], [], 0⟩)
  else g.record alive (g.missing older younger) younger context

variable {g : Graph} {alive : ClassifierId → Bool} {older : List Classifier} {younger : Classifier}
  {context : Context} {a b : ClassifierId}

theorem learn_violations (alive : ClassifierId → Bool) (g : Graph) (older : List Classifier)
    (younger : Classifier) (context : Context) :
    (g.learn alive older younger context).2.violations =
      (g.insertAll (g.missing older younger) younger context).2.violations := by
  unfold learn
  split
  · next h =>
    rw [h]
    rfl
  · exact (record_outcome _ _ _ _ _).2

theorem learn_nodup (alive : ClassifierId → Bool) (g : Graph) (older : List Classifier)
    (younger : Classifier) (context : Context) :
    ((g.learn alive older younger context).2.violations.map (·.pair)).Nodup := by
  rw [learn_violations]
  exact reported_nodup (recorded_insertAll _ _ _ _)

theorem isKnown_of_record (h : (g.record alive older younger context).1.isKnown a b = true) :
    (g.insertAll older younger context).1.isKnown a b = true := by
  rw [record_eq] at h
  dsimp only at h
  split at h
  · exact of_isKnown_sweep h
  · exact h

/-- Every reported pair has an edge back to one of the older classifiers and was not known. -/
theorem learn_violation {v : Violation}
    (hv : v ∈ (g.learn alive older younger context).2.violations) :
    ∃ o ∈ older, o.id ≠ younger.id ∧ v.pair = Pair.of o.id younger.id ∧
      g.hasEdge younger.id o.id = true ∧ g.isKnown o.id younger.id = false := by
  rw [learn_violations] at hv
  obtain ⟨o, ho, hc, he, hk⟩ := conflicting_of_mem (recorded_insertAll _ _ _ _) hv
  obtain ⟨hmem, -, -⟩ := mem_missing.1 ho
  obtain ⟨hold, hne, -⟩ := mem_missing.1 ((distinct_sublist _).subset hmem)
  exact ⟨o, hold, hne, by rw [Violation.pair, hc], hasEdge_iff.2 ⟨_, he⟩, hk⟩

/-- No edge between live classifiers is lost, and every older one has its edge afterwards. -/
theorem Intact.hasEdge_learn (hg : g.Intact)
    (h : g.hasEdge a b = true ∨ b = younger.id ∧ a ≠ younger.id ∧ ∃ o ∈ older, o.id = a)
    (ha : alive a = true) (hb : alive b = true) :
    (g.learn alive older younger context).1.hasEdge a b = true := by
  have hmissing : g.hasEdge a b = true ∨ b = younger.id ∧ a ≠ younger.id ∧
      ∃ o ∈ g.missing older younger, o.id = a := by
    rcases h with h | ⟨rfl, hne, o, ho, rfl⟩
    · exact Or.inl h
    · cases he : g.hasEdge o.id younger.id with
      | true => exact Or.inl rfl
      | false => exact Or.inr ⟨rfl, hne, o, mem_missing.2 ⟨ho, hne, he⟩, rfl⟩
  unfold learn
  split
  · next hnone =>
    rcases hmissing with h | ⟨-, -, o, ho, -⟩
    · exact h
    · rw [hnone] at ho
      cases ho
  · exact hg.hasEdge_record hmissing ha hb

theorem Intact.learn (hg : g.Intact) (alive : ClassifierId → Bool) (older : List Classifier)
    (younger : Classifier) (context : Context) :
    (g.learn alive older younger context).1.Intact := by
  unfold Graph.learn
  split
  · exact hg
  · exact hg.record alive _ younger context

/-- What is reported is what has become known. -/
theorem Intact.mem_learnt (hg : g.Intact) (hy : alive younger.id = true)
    (ho : ∀ o ∈ older, alive o.id = true) :
    Pair.of a b ∈ (g.learn alive older younger context).2.violations.map (·.pair) ↔
      (g.learn alive older younger context).1.isKnown a b = true ∧ g.isKnown a b = false := by
  constructor
  · intro h
    obtain ⟨v, hv, hpair⟩ := List.mem_map.1 h
    obtain ⟨o, hmem, hne, hof, hback, hk⟩ := learn_violation hv
    have hsame : ∀ k : Graph, k.isKnown a b = k.isKnown o.id younger.id := by
      intro k
      unfold isKnown
      rw [← hpair, hof]
    rw [hsame, hsame, (hg.learn alive older younger context).known]
    refine ⟨⟨?_, ?_⟩, hk⟩
    · exact hg.hasEdge_learn (Or.inr ⟨rfl, hne, o, hmem, rfl⟩) (ho o hmem) hy
    · exact hg.hasEdge_learn (Or.inl hback) hy (ho o hmem)
  · rintro ⟨h, hk⟩
    rw [learn_violations, mem_reported (recorded_insertAll _ _ _ _)]
    refine ⟨?_, hk⟩
    unfold Graph.learn at h
    split at h
    · rw [h] at hk
      cases hk
    · exact isKnown_of_record h

end Graph

/-- With handles on all it mentions, learning keeps a world sound. -/
theorem World.Sound.learn {w : World} (hw : w.Sound) {older : List Classifier}
    {younger : Classifier} (context : Context) (hy : younger ∈ w.population.born)
    (ho : ∀ o ∈ older, o ∈ w.population.born) :
    World.Sound { w with
      graph := (w.graph.learn w.population.isAlive older younger context).1 } := by
  unfold Graph.learn
  split
  · exact hw
  · exact (hw.record context hy fun o hmem => ho o (Graph.mem_missing.1 hmem).1).1

end LockDiscipline.Order
