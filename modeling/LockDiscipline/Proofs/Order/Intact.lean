import LockDiscipline.Order.Cycles
import LockDiscipline.Proofs.Order.Recording

namespace LockDiscipline.Order.Graph

structure Intact (g : Graph) : Prop where
  /-- The key of a node is the one of the classifier whose id it stands under. -/
  keyed : ∀ a n, g.nodes[a]? = some n → ∃ c : Classifier, c.id = a ∧ n = .of c
  ends : ∀ a b, g.hasEdge a b = true → a ∈ g.nodes ∧ b ∈ g.nodes
  loopless : ∀ a, g.hasEdge a a = false
  orders : ∀ a b w, g.edge? a b = some w → w.older.id = a ∧ w.younger.id = b
  known : ∀ a b, g.isKnown a b = true ↔ g.hasEdge a b = true ∧ g.hasEdge b a = true
  pairs : ∀ p ∈ g.known, ∃ a b, p = Pair.of a b

theorem intact_empty (every : Nat) : (empty every).Intact := by
  refine ⟨?_, ?_, ?_, ?_, ?_, ?_⟩ <;> simp [empty, hasEdge, edge?, isKnown]

variable {g : Graph} {older : List Classifier} {younger : Classifier} {context : Context}
  {s : Graph × Outcome}

theorem Recorded.mem_nodes (hs : Recorded g older younger context s) (a : ClassifierId) :
    a ∈ s.1.nodes ↔ a ∈ g.nodes ∨ a = younger.id ∨ ∃ o ∈ older, o.id = a := by
  rw [Std.ExtTreeMap.mem_iff_isSome_getElem?, hs.nodes, nodes_addNode,
    Std.ExtTreeMap.mem_iff_isSome_getElem?, Option.isSome_or, Option.isSome_or, Option.isSome_map]
  by_cases ha : younger.id = a
  · simp [ha]
  · simp [ha, Ne.symm ha]

namespace Intact

/-- A known pair has edges, so its members are nodes. -/
theorem known_ends (hg : g.Intact) {p : Pair} (hp : p ∈ g.known) :
    p.low ∈ g.nodes ∧ p.high ∈ g.nodes := by
  obtain ⟨a, b, rfl⟩ := hg.pairs p hp
  have hknown : g.isKnown a b = true := Std.ExtTreeSet.contains_iff_mem.2 hp
  obtain ⟨ha, hb⟩ := hg.ends a b ((hg.known a b).1 hknown).1
  unfold Pair.of
  split
  · exact ⟨ha, hb⟩
  · exact ⟨hb, ha⟩

/-- Where the edge is missing its pair is not known, so an edge of the opposite order decides. -/
theorem violation?_eq (hg : g.Intact) {w : Witness}
    (he : g.hasEdge w.older.id w.younger.id = false) :
    g.violation? w = (g.edge? w.younger.id w.older.id).map fun e => ⟨e, w⟩ := by
  have hk : g.isKnown w.older.id w.younger.id = false := by
    rw [Bool.eq_false_iff]
    intro hk
    rw [((hg.known _ _).1 hk).1] at he
    cases he
  unfold violation?
  rw [hk]
  cases g.edge? w.younger.id w.older.id <;> rfl

/-- Closing a pair makes it known. -/
theorem isKnown_of_closes (hg : g.Intact) (hs : Recorded g older younger context s)
    {o : Classifier} (ho : o ∈ older) (hback : g.hasEdge younger.id o.id = true)
    (hnew : g.hasEdge o.id younger.id = false) : s.1.isKnown o.id younger.id = true := by
  have hne : o.id ≠ younger.id := by
    intro h
    rw [h, hg.loopless] at hback
    cases hback
  obtain ⟨x, hx, hxo⟩ : ∃ x ∈ distinct older, x.id = o.id := by
    rw [← Classifier.isIn_iff, isIn_distinct]
    exact Classifier.isIn_iff.2 ⟨o, ho, rfl⟩
  obtain ⟨e, he⟩ := hasEdge_iff.1 hback
  have hv : g.violation? ⟨x, younger, context⟩ = some ⟨e, ⟨x, younger, context⟩⟩ := by
    rw [hg.violation?_eq (by simpa [hxo] using hnew)]
    simp [hxo, he]
  have hmem : x ∈ g.missing (distinct older) younger :=
    mem_missing.2 ⟨hx, by rw [hxo]; exact hne, by rw [hxo]; exact hnew⟩
  have hrep : Pair.of o.id younger.id ∈ s.2.violations.map (·.pair) := by
    rw [hs.violations, List.mem_map]
    exact ⟨_, List.mem_filterMap.2 ⟨x, hmem, hv⟩, by simp [Violation.pair, hxo]⟩
  exact ((mem_reported hs _ _).1 hrep).1

/-- What becomes known are the pairs that the new edges close. -/
theorem known_recorded {s : Graph × Outcome} (hg : g.Intact)
    (hs : Recorded g older younger context s) (a b : ClassifierId) :
    s.1.isKnown a b = true ↔ s.1.hasEdge a b = true ∧ s.1.hasEdge b a = true := by
  have hedge := hs.hasEdge_eq_true
  constructor
  · intro h
    by_cases hk : g.isKnown a b = true
    · obtain ⟨hab, hba⟩ := (hg.known a b).1 hk
      exact ⟨(hedge a b).2 (Or.inl hab), (hedge b a).2 (Or.inl hba)⟩
    · -- a pair that has just become known has the edge of the report and its reverse
      obtain ⟨v, hv, hpair⟩ := List.mem_map.1 ((mem_reported hs a b).2 ⟨h, by simpa using hk⟩)
      obtain ⟨o, ho, hc, he, -⟩ := conflicting_of_mem hs hv
      obtain ⟨hmem, hne, -⟩ := mem_missing.1 ho
      have hnew : s.1.hasEdge o.id younger.id = true :=
        (hedge _ _).2 (Or.inr ⟨rfl, hne, o, (distinct_sublist older).subset hmem, rfl⟩)
      have hold : s.1.hasEdge younger.id o.id = true :=
        (hedge _ _).2 (Or.inl (hasEdge_iff.2 ⟨_, he⟩))
      rw [Violation.pair, hc, Pair.of_eq_iff] at hpair
      rcases hpair with ⟨rfl, rfl⟩ | ⟨rfl, rfl⟩
      · exact ⟨hnew, hold⟩
      · exact ⟨hold, hnew⟩
  · rintro ⟨hab, hba⟩
    by_cases hk : g.isKnown a b = true
    · rw [hs.isKnown, hk, Bool.true_or]
    · rw [hg.known, not_and_or] at hk
      rcases (hedge a b).1 hab with h | ⟨rfl, ha, o, ho, rfl⟩
      · rcases (hedge b a).1 hba with h' | ⟨rfl, hb, o, ho, rfl⟩
        · simp [h, h'] at hk
        · rw [isKnown_comm]
          exact hg.isKnown_of_closes hs ho h (by simpa [h] using hk)
      · rcases (hedge _ _).1 hba with h' | ⟨h', -⟩
        · exact hg.isKnown_of_closes hs ho h' (by simpa [h'] using hk)
        · exact absurd h' ha

theorem insertAll (hg : g.Intact) (older : List Classifier) (younger : Classifier)
    (context : Context) : (g.insertAll older younger context).1.Intact := by
  have hs := recorded_insertAll g older younger context
  generalize g.insertAll older younger context = s at hs
  have hedge := hs.hasEdge_eq_true
  refine ⟨?_, ?_, ?_, ?_, ?_, ?_⟩
  · intro a n hn
    rw [hs.nodes, nodes_addNode, Option.or_eq_some_iff, Option.or_eq_some_iff] at hn
    rcases hn with (hn | ⟨-, hn⟩) | ⟨-, hn⟩
    · exact hg.keyed a n hn
    · split at hn
      · next hid => exact ⟨younger, hid, (Option.some_inj.1 hn).symm⟩
      · cases hn
    · obtain ⟨o, hfind, rfl⟩ := Option.map_eq_some_iff.1 hn
      exact ⟨o, by simpa using List.find?_some hfind, rfl⟩
  · intro a b h
    rw [hs.mem_nodes, hs.mem_nodes]
    rcases (hedge a b).1 h with h | ⟨hb, -, ho⟩
    · exact ⟨Or.inl (hg.ends a b h).1, Or.inl (hg.ends a b h).2⟩
    · exact ⟨Or.inr (Or.inr ho), Or.inr (Or.inl hb)⟩
  · intro a
    rw [Bool.eq_false_iff]
    intro h
    rcases (hedge a a).1 h with h | ⟨ha, hne, -⟩
    · rw [hg.loopless] at h
      cases h
    · exact hne ha
  · intro a b w hw
    rw [hs.edge, Option.or_eq_some_iff] at hw
    rcases hw with hw | ⟨-, hw⟩
    · exact hg.orders a b w hw
    · split at hw
      · next h =>
        obtain ⟨o, ho, rfl⟩ := Option.map_eq_some_iff.1 hw
        exact ⟨by simpa using List.find?_some ho, h.1.symm⟩
      · cases hw
  · exact hg.known_recorded hs
  · intro p hp
    rw [← Std.ExtTreeSet.contains_iff_mem, hs.known, Bool.or_eq_true, List.any_eq_true] at hp
    rcases hp with hp | ⟨v, -, hv⟩
    · exact hg.pairs p (Std.ExtTreeSet.contains_iff_mem.1 hp)
    · exact ⟨_, _, (of_decide_eq_true hv).symm⟩

/-- Who has died is asked of the key, and an intact graph has the right ones. -/
theorem isAlive_key (hg : g.Intact) (alive : ClassifierId → Bool) {a : ClassifierId} {n : Node}
    (hn : g.nodes[a]? = some n) : n.key.isAlive alive = alive a := by
  obtain ⟨c, rfl, rfl⟩ := hg.keyed a n hn
  rfl

theorem live_eq (hg : g.Intact) (alive : ClassifierId → Bool) :
    g.live alive =
      (g.nodes.toList.filter fun e => alive e.1).map fun e => ⟨e.1, e.2.name⟩ := by
  unfold live
  refine congrArg _ (List.filter_congr fun e he => ?_)
  exact hg.isAlive_key alive (Std.ExtTreeMap.mem_toList_iff_getElem?_eq_some.1 he)

theorem contains_dead (hg : g.Intact) (alive : ClassifierId → Bool) (a : ClassifierId) :
    (g.dead alive).contains a = (g.nodes.contains a && !alive a) := by
  unfold dead
  rw [Std.ExtTreeMap.contains_eq_isSome_getElem?, Std.ExtTreeMap.getElem?_filter',
    Std.ExtTreeMap.contains_eq_isSome_getElem?]
  cases hn : g.nodes[a]? with
  | none => rfl
  | some n =>
    simp only [Option.filter_some, hg.isAlive_key alive hn]
    cases alive a <;> rfl

/-- What mentions no dead node mentions live nodes only, because it mentions nothing but nodes. -/
theorem sweep_eq (hg : g.Intact) (alive : ClassifierId → Bool) :
    g.sweep alive = g.between alive := by
  have hkept : ∀ a, a ∈ g.nodes → (!(g.dead alive).contains a) = g.keeps alive a := by
    intro a ha
    rw [hg.contains_dead, keeps, Std.ExtTreeMap.contains_iff_mem.2 ha, Bool.true_and,
      Bool.not_not, Bool.true_and]
  apply Graph.ext
  · exact sweepEvery_sweep g alive
  · apply Std.ExtTreeMap.ext_getElem?
    intro a
    rw [nodes_sweep, nodes_between, hg.contains_dead, Std.ExtTreeMap.contains_eq_isSome_getElem?]
    cases g.nodes[a]? <;> cases alive a <;> rfl
  · apply Std.ExtTreeMap.ext_getElem?
    intro e
    change _ = (g.between alive).edge? e.1 e.2
    rw [edges_sweep, edge?_between]
    change _ = if _ then g.edges[e]? else none
    cases he : g.edges[e]? with
    | none => simp
    | some w =>
      obtain ⟨ha, hb⟩ := hg.ends e.1 e.2 (hasEdge_iff.2 ⟨w, he⟩)
      rw [← hkept e.1 ha, ← hkept e.2 hb]
      cases (g.dead alive).contains e.1 <;> cases (g.dead alive).contains e.2 <;> rfl
  · apply Std.ExtTreeSet.ext_mem
    intro p
    rw [mem_known_sweep, mem_known_between]
    refine and_congr_right fun hp => ?_
    obtain ⟨ha, hb⟩ := hg.known_ends hp
    rw [← hkept p.low ha, ← hkept p.high hb, Bool.not_eq_true', Bool.not_eq_true']
  · exact fresh_sweep g alive

theorem nodes_sweep (hg : g.Intact) (alive : ClassifierId → Bool) (a : ClassifierId) :
    (g.sweep alive).nodes[a]? = if alive a then g.nodes[a]? else none := by
  rw [hg.sweep_eq, nodes_between]

theorem edge?_sweep (hg : g.Intact) (alive : ClassifierId → Bool) (a b : ClassifierId) :
    (g.sweep alive).edge? a b =
      if g.keeps alive a && g.keeps alive b then g.edge? a b else none := by
  rw [hg.sweep_eq, edge?_between]

theorem hasEdge_sweep (hg : g.Intact) (alive : ClassifierId → Bool) (a b : ClassifierId) :
    (g.sweep alive).hasEdge a b = (g.hasEdge a b && g.keeps alive a && g.keeps alive b) := by
  rw [hasEdge_eq_isSome, hasEdge_eq_isSome, hg.edge?_sweep]
  cases g.keeps alive a <;> cases g.keeps alive b <;> simp

theorem isKnown_sweep (hg : g.Intact) (alive : ClassifierId → Bool) (a b : ClassifierId) :
    (g.sweep alive).isKnown a b = (g.isKnown a b && g.keeps alive a && g.keeps alive b) := by
  have hboth : (g.keeps alive (Pair.of a b).low = true ∧ g.keeps alive (Pair.of a b).high = true) ↔
      g.keeps alive a = true ∧ g.keeps alive b = true := by
    unfold Pair.of
    split
    · rfl
    · exact and_comm
  unfold isKnown
  rw [hg.sweep_eq, Bool.eq_iff_iff, Std.ExtTreeSet.contains_iff_mem, mem_known_between, hboth,
    Bool.and_eq_true, Bool.and_eq_true, Std.ExtTreeSet.contains_iff_mem, and_assoc]

theorem sweep (hg : g.Intact) (alive : ClassifierId → Bool) : (g.sweep alive).Intact := by
  refine ⟨?_, ?_, ?_, ?_, ?_, ?_⟩
  · intro a n hn
    rw [hg.nodes_sweep] at hn
    split at hn
    · exact hg.keyed a n hn
    · cases hn
  · intro a b h
    rw [hg.hasEdge_sweep, Bool.and_eq_true, Bool.and_eq_true] at h
    have hkept : ∀ c, g.keeps alive c = true → c ∈ (g.sweep alive).nodes := by
      intro c hc
      rw [← contains_kept] at hc
      rw [hg.sweep_eq]
      exact hc
    exact ⟨hkept a h.1.2, hkept b h.2⟩
  · intro a
    rw [hg.hasEdge_sweep, hg.loopless, Bool.false_and, Bool.false_and]
  · exact fun a b w hw => hg.orders a b w (of_edge?_sweep hw)
  · intro a b
    have h := hg.known a b
    rw [hg.isKnown_sweep, hg.hasEdge_sweep, hg.hasEdge_sweep]
    cases g.keeps alive a <;> cases g.keeps alive b <;> simp [h]
  · exact fun p hp => hg.pairs p (mem_known_sweep.1 hp).1

theorem record (hg : g.Intact) (alive : ClassifierId → Bool) (older : List Classifier)
    (younger : Classifier) (context : Context) :
    (g.record alive older younger context).1.Intact := by
  have h := hg.insertAll older younger context
  rw [record_eq]
  dsimp only
  split
  · exact h.sweep alive
  · exact h

theorem hasEdge_of_alive (hg : g.Intact) {alive : ClassifierId → Bool} {a b : ClassifierId}
    (h : g.hasEdge a b = true) (ha : alive a = true) (hb : alive b = true) :
    (g.sweep alive).hasEdge a b = true := by
  obtain ⟨hna, hnb⟩ := hg.ends a b h
  rw [hg.hasEdge_sweep, keeps, keeps, h, ha, hb, Std.ExtTreeMap.contains_iff_mem.2 hna,
    Std.ExtTreeMap.contains_iff_mem.2 hnb]
  rfl

/-- Recording loses no edge between live classifiers, not even one of its own. -/
theorem hasEdge_record (hg : g.Intact) {alive : ClassifierId → Bool} {a b : ClassifierId}
    (h : g.hasEdge a b = true ∨ b = younger.id ∧ a ≠ younger.id ∧ ∃ o ∈ older, o.id = a)
    (ha : alive a = true) (hb : alive b = true) :
    (g.record alive older younger context).1.hasEdge a b = true := by
  have hnew := ((recorded_insertAll g older younger context).hasEdge_eq_true a b).2 h
  rw [record_eq]
  dsimp only
  split
  · exact (hg.insertAll older younger context).hasEdge_of_alive hnew ha hb
  · exact hnew

end Intact

theorem of_hasEdge_record {alive : ClassifierId → Bool} {a b : ClassifierId}
    (h : (g.record alive older younger context).1.hasEdge a b = true) :
    g.hasEdge a b = true ∨ b = younger.id ∧ a ≠ younger.id ∧ ∃ o ∈ older, o.id = a := by
  rw [← (recorded_insertAll g older younger context).hasEdge_eq_true a b]
  rw [record_eq] at h
  dsimp only at h
  split at h
  · exact of_hasEdge_sweep h
  · exact h

end LockDiscipline.Order.Graph
