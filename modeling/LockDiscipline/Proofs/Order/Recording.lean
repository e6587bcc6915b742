import LockDiscipline.Order.Graph
import LockDiscipline.Proofs.Order.Distinct

namespace LockDiscipline.Order.Graph

variable {g : Graph} {older : List Classifier} {younger : Classifier} {context : Context}

theorem nodes_addNode (g : Graph) (c : Classifier) (a : ClassifierId) :
    (g.addNode c).nodes[a]? = (g.nodes[a]?).or (if c.id = a then some (.of c) else none) := by
  unfold addNode
  rw [Std.ExtTreeMap.getElem?_insertIfNew]
  by_cases h : c.id = a
  · subst h
    by_cases hm : c.id ∈ g.nodes <;> simp [hm]
  · simp [h]

@[simp] theorem nodes_addKnown (g : Graph) (v : Option Violation) :
    (g.addKnown v).nodes = g.nodes := by
  cases v <;> rfl

@[simp] theorem sweepEvery_addKnown (g : Graph) (v : Option Violation) :
    (g.addKnown v).sweepEvery = g.sweepEvery := by
  cases v <;> rfl

@[simp] theorem fresh_addKnown (g : Graph) (v : Option Violation) :
    (g.addKnown v).fresh = g.fresh := by
  cases v <;> rfl

theorem contains_addKnown (g : Graph) (v : Option Violation) (p : Pair) :
    (g.addKnown v).known.contains p = (g.known.contains p || v.any fun v => v.pair = p) := by
  cases v with
  | none => simp [addKnown]
  | some v =>
    unfold addKnown
    rw [Std.ExtTreeSet.contains_insert, Bool.or_comm]
    congr 1
    rw [Bool.eq_iff_iff]
    simp

theorem hasEdge_iff {g : Graph} {a b : ClassifierId} :
    g.hasEdge a b = true ↔ ∃ w, g.edge? a b = some w := by
  rw [hasEdge_eq_isSome, Option.isSome_iff_exists]

theorem edge?_eq_none_iff {g : Graph} {a b : ClassifierId} :
    g.edge? a b = none ↔ g.hasEdge a b = false := by
  rw [hasEdge_eq_isSome, Option.isSome_eq_false_iff, Option.isNone_iff_eq_none]

theorem isKnown_comm (g : Graph) (a b : ClassifierId) : g.isKnown a b = g.isKnown b a := by
  unfold isKnown
  rw [Pair.of_comm]

theorem mem_missing {g : Graph} {older : List Classifier} {younger o : Classifier} :
    o ∈ g.missing older younger ↔
      o ∈ older ∧ o.id ≠ younger.id ∧ g.hasEdge o.id younger.id = false := by
  simp [missing]

theorem recordOne_same {o : Outcome} {x : Classifier} (h : x.id = younger.id) :
    recordOne younger context (g, o) x = (g, o) := by
  simp [recordOne, h]

theorem recordOne_old {o : Outcome} {x : Classifier} (h : x.id ≠ younger.id)
    (he : g.hasEdge x.id younger.id = true) :
    recordOne younger context (g, o) x = (g.addNode x, o) := by
  have he' : (g.addNode x).hasEdge x.id younger.id = true := he
  simp [recordOne, h, he']

theorem recordOne_new {o : Outcome} {x : Classifier} (h : x.id ≠ younger.id)
    (he : g.hasEdge x.id younger.id = false) :
    recordOne younger context (g, o) x =
      (((g.addNode x).addKnown (g.violation? ⟨x, younger, context⟩)).addEdge ⟨x, younger, context⟩,
        { o with
          inserted := o.inserted ++ [⟨x, younger, context⟩]
          violations := o.violations ++ (g.violation? ⟨x, younger, context⟩).toList }) := by
  have he' : (g.addNode x).hasEdge x.id younger.id = false := he
  have hv : (g.addNode x).violation? ⟨x, younger, context⟩ = g.violation? ⟨x, younger, context⟩ :=
    rfl
  simp [recordOne, h, he', hv]

/-- Recording without the sweep. -/
def insertAll (g : Graph) (older : List Classifier) (younger : Classifier) (context : Context) :
    Graph × Outcome :=
  older.foldl (recordOne younger context) (g.addNode younger, ⟨[], [], 0⟩)

theorem record_eq (alive : ClassifierId → Bool) (g : Graph) (older : List Classifier)
    (younger : Classifier) (context : Context) :
    g.record alive older younger context =
      let s := g.insertAll older younger context
      if s.1.sweepEvery ≤ s.1.fresh then
        (s.1.sweep alive, { s.2 with swept := (s.1.dead alive).size })
      else s :=
  rfl

/-- The sweep changes nothing of the outcome but the number of swept classifiers. -/
theorem record_outcome (alive : ClassifierId → Bool) (g : Graph) (older : List Classifier)
    (younger : Classifier) (context : Context) :
    (g.record alive older younger context).2.inserted =
        (g.insertAll older younger context).2.inserted ∧
      (g.record alive older younger context).2.violations =
        (g.insertAll older younger context).2.violations := by
  rw [record_eq]
  dsimp only
  split <;> exact ⟨rfl, rfl⟩

/-- What there is after some of the held classifiers, in terms of the graph before the first. -/
structure Recorded (g : Graph) (older : List Classifier) (younger : Classifier) (context : Context)
    (s : Graph × Outcome) : Prop where
  nodes : ∀ a, s.1.nodes[a]? =
    ((g.addNode younger).nodes[a]?).or ((older.find? fun o => o.id == a).map Node.of)
  edge : ∀ a b, s.1.edge? a b = (g.edge? a b).or
    (if b = younger.id ∧ a ≠ younger.id then
      (older.find? fun o => o.id == a).map fun o => ⟨o, younger, context⟩ else none)
  known : ∀ p, s.1.known.contains p =
    (g.known.contains p || s.2.violations.any fun v => v.pair = p)
  sweepEvery : s.1.sweepEvery = g.sweepEvery
  fresh : s.1.fresh = g.fresh + s.2.inserted.length
  inserted : s.2.inserted = (g.missing (distinct older) younger).map fun o => ⟨o, younger, context⟩
  violations : s.2.violations =
    (g.missing (distinct older) younger).filterMap fun o => g.violation? ⟨o, younger, context⟩
  swept : s.2.swept = 0

theorem violation?_eq_some_iff {w : Witness} {v : Violation} :
    g.violation? w = some v ↔ v.conflicting = w ∧
      g.edge? w.younger.id w.older.id = some v.established ∧
        g.isKnown w.older.id w.younger.id = false := by
  unfold violation?
  cases he : g.edge? w.younger.id w.older.id with
  | none => simp
  | some e =>
    cases g.isKnown w.older.id w.younger.id with
    | true => simp
    | false =>
      obtain ⟨established, conflicting⟩ := v
      simp [and_comm, eq_comm]

namespace Recorded

variable {s : Graph × Outcome} {x : Classifier}

theorem hasEdge (hs : Recorded g older younger context s) (a b : ClassifierId) :
    s.1.hasEdge a b = (g.hasEdge a b ||
      (b == younger.id && a != younger.id && older.any fun o => o.id == a)) := by
  rw [hasEdge_eq_isSome, hasEdge_eq_isSome, hs.edge]
  by_cases h : b = younger.id ∧ a ≠ younger.id
  · rw [Bool.eq_iff_iff]
    simp [h]
  · rw [if_neg h, Option.or_none]
    have : (b == younger.id && a != younger.id) = false := by simpa using h
    simp [this]

theorem hasEdge_eq_true (hs : Recorded g older younger context s) (a b : ClassifierId) :
    s.1.hasEdge a b = true ↔ g.hasEdge a b = true ∨
      b = younger.id ∧ a ≠ younger.id ∧ ∃ o ∈ older, o.id = a := by
  rw [hs.hasEdge]
  simp [and_assoc]

theorem isKnown (hs : Recorded g older younger context s) (a b : ClassifierId) :
    s.1.isKnown a b = (g.isKnown a b || s.2.violations.any fun v => v.pair = Pair.of a b) :=
  hs.known (Pair.of a b)

/-- Every reported pair has the younger classifier and one of those before. -/
theorem pair_of_mem (hs : Recorded g older younger context s) {v : Violation}
    (hv : v ∈ s.2.violations) : ∃ o ∈ older, v.pair = Pair.of o.id younger.id := by
  rw [hs.violations] at hv
  obtain ⟨o, ho, hov⟩ := List.mem_filterMap.1 hv
  refine ⟨o, (distinct_sublist older).subset (mem_missing.1 ho).1, ?_⟩
  rw [Violation.pair, (violation?_eq_some_iff.1 hov).1]

/-- The next classifier finds the edge back as it was at the start. -/
theorem edge?_back (hs : Recorded g older younger context s) (hx : x.id ≠ younger.id) :
    s.1.edge? younger.id x.id = g.edge? younger.id x.id := by
  rw [hs.edge, if_neg (fun h => hx h.1), Option.or_none]

/-- A classifier that was not met yet finds its pair as it was at the start. -/
theorem violation?_eq (hs : Recorded g older younger context s) (hx : x.id ≠ younger.id)
    (hin : x.isIn older = false) :
    s.1.violation? ⟨x, younger, context⟩ = g.violation? ⟨x, younger, context⟩ := by
  have hknown : s.1.isKnown x.id younger.id = g.isKnown x.id younger.id := by
    rw [hs.isKnown]
    have : (s.2.violations.any fun v => v.pair = Pair.of x.id younger.id) = false := by
      rw [List.any_eq_false]
      intro v hv heq
      obtain ⟨o, ho, hpair⟩ := hs.pair_of_mem hv
      rw [decide_eq_true_iff, hpair, Pair.of_eq_iff] at heq
      have hox : o.id = x.id := by
        rcases heq with h | h
        · exact h.1
        · exact absurd h.2.symm hx
      rw [Classifier.isIn_iff.2 ⟨o, ho, hox⟩] at hin
      cases hin
    rw [this, Bool.or_false]
  unfold violation?
  rw [hs.edge?_back hx, hknown]

end Recorded

section Push

variable {s : Graph × Outcome} {x : Classifier}

theorem missing_push_isIn (h : x.isIn older = true) :
    g.missing (distinct (older ++ [x])) younger = g.missing (distinct older) younger := by
  rw [distinct_push, if_pos h]

theorem missing_push_of_not (h : x.id = younger.id ∨ g.hasEdge x.id younger.id = true) :
    g.missing (distinct (older ++ [x])) younger = g.missing (distinct older) younger := by
  rw [distinct_push]
  split
  · rfl
  · rcases h with h | h <;> simp [missing, h]

theorem missing_push_new (hx : x.id ≠ younger.id) (he : g.hasEdge x.id younger.id = false)
    (hin : x.isIn older = false) :
    g.missing (distinct (older ++ [x])) younger = g.missing (distinct older) younger ++ [x] := by
  rw [distinct_push, if_neg (by simp [hin])]
  simp [missing, hx, he]

theorem Recorded.push_same (hs : Recorded g older younger context s) (hx : x.id = younger.id) :
    Recorded g (older ++ [x]) younger context s := by
  have hmiss :
      g.missing (distinct (older ++ [x])) younger = g.missing (distinct older) younger :=
    missing_push_of_not (Or.inl hx)
  refine { hs with nodes := ?_, edge := ?_, inserted := ?_, violations := ?_ }
  · intro a
    rw [hs.nodes, nodes_addNode, List.find?_append]
    by_cases ha : younger.id = a
    · cases g.nodes[a]? <;> simp [ha]
    · have hxa : (x.id == a) = false := by simpa [hx] using ha
      simp [hxa]
  · intro a b
    rw [hs.edge, List.find?_append]
    by_cases h : b = younger.id ∧ a ≠ younger.id
    · have hxa : (x.id == a) = false := by simpa [hx] using Ne.symm h.2
      simp [hxa]
    · rw [if_neg h, if_neg h]
  · rw [hs.inserted, hmiss]
  · rw [hs.violations, hmiss]

/-- Becoming a node changes the nodes only. -/
theorem Recorded.nodes_push (hs : Recorded g older younger context s) (a : ClassifierId) :
    (s.1.addNode x).nodes[a]? = ((g.addNode younger).nodes[a]?).or
      (((older ++ [x]).find? fun o => o.id == a).map Node.of) := by
  rw [nodes_addNode, hs.nodes, List.find?_append]
  by_cases hx : x.id = a
  · cases (g.addNode younger).nodes[a]? <;> cases older.find? (fun o => o.id == a) <;> simp [hx]
  · have hxa : (x.id == a) = false := by simpa using hx
    simp [hx, hxa]

theorem Recorded.push_old (hs : Recorded g older younger context s) (hx : x.id ≠ younger.id)
    (he : s.1.hasEdge x.id younger.id = true) :
    Recorded g (older ++ [x]) younger context (s.1.addNode x, s.2) := by
  have hold : g.hasEdge x.id younger.id = true ∨ x.isIn older = true := by
    rw [hs.hasEdge] at he
    simpa [hx, Classifier.isIn] using he
  have hmiss :
      g.missing (distinct (older ++ [x])) younger = g.missing (distinct older) younger := by
    rcases hold with h | h
    · exact missing_push_of_not (Or.inr h)
    · exact missing_push_isIn h
  refine { hs with nodes := hs.nodes_push, edge := ?_, inserted := ?_, violations := ?_ }
  · intro a b
    rw [edge?_addNode, hs.edge, List.find?_append]
    by_cases h : b = younger.id ∧ a ≠ younger.id
    · obtain ⟨rfl, ha⟩ := h
      by_cases hxa : x.id = a
      · subst hxa
        rw [if_pos ⟨rfl, ha⟩, if_pos ⟨rfl, ha⟩]
        rcases hold with h | h
        · obtain ⟨w, hw⟩ := hasEdge_iff.1 h
          rw [hw, Option.some_or, Option.some_or]
        · obtain ⟨o, ho⟩ := Option.isSome_iff_exists.1 (List.find?_isSome.2 (by
            simpa [Classifier.isIn] using h) : (older.find? fun o => o.id == x.id).isSome = true)
          rw [ho, Option.some_or]
      · have hb : (x.id == a) = false := by simpa using hxa
        simp [hb]
    · rw [if_neg h, if_neg h]
  · rw [hs.inserted, hmiss]
  · rw [hs.violations, hmiss]

theorem Recorded.push_new (hs : Recorded g older younger context s) (hx : x.id ≠ younger.id)
    (he : s.1.hasEdge x.id younger.id = false) :
    Recorded g (older ++ [x]) younger context (recordOne younger context s x) := by
  obtain ⟨hg, hin⟩ : g.hasEdge x.id younger.id = false ∧ x.isIn older = false := by
    rw [hs.hasEdge] at he
    simpa [hx, Classifier.isIn] using he
  have hmiss := missing_push_new hx hg hin
  have hv := hs.violation?_eq hx hin
  rw [recordOne_new hx he]
  refine ⟨?_, ?_, ?_, ?_, ?_, ?_, ?_, hs.swept⟩
  · intro a
    change ((s.1.addNode x).addKnown _).nodes[a]? = _
    rw [nodes_addKnown, hs.nodes_push a]
  · intro a b
    rw [edge?_addEdge, edge?_addKnown, edge?_addNode, hs.edge, List.find?_append, Option.or_assoc]
    congr 1
    by_cases h : b = younger.id ∧ a ≠ younger.id
    · obtain ⟨rfl, ha⟩ := h
      by_cases hxa : x.id = a
      · cases hf : older.find? (fun o => o.id == a) <;> simp [ha, hxa, Witness.orders]
      · have hb : (x.id == a) = false := by simpa using hxa
        cases hf : older.find? (fun o => o.id == a) <;> simp [ha, hb, Witness.orders]
    · have ho : Witness.orders ⟨x, younger, context⟩ a b = false := by
        rw [Bool.eq_false_iff]
        intro hab
        obtain ⟨rfl, rfl⟩ := Witness.orders_iff.1 hab
        exact h ⟨rfl, hx⟩
      simp [h, ho]
  · intro p
    have hs' : (s.1.addNode x).known.contains p = s.1.known.contains p := rfl
    change ((s.1.addNode x).addKnown (s.1.violation? ⟨x, younger, context⟩)).known.contains p = _
    rw [contains_addKnown, hs', hs.known, List.any_append, Bool.or_assoc]
    congr 2
    cases s.1.violation? ⟨x, younger, context⟩ <;> simp
  · change ((s.1.addNode x).addKnown _).sweepEvery = _
    rw [sweepEvery_addKnown]
    exact hs.sweepEvery
  · change ((s.1.addNode x).addKnown _).fresh + 1 = _
    rw [fresh_addKnown, List.length_append, List.length_singleton, ← Nat.add_assoc, ← hs.fresh]
    rfl
  · rw [hs.inserted, hmiss, List.map_append, List.map_singleton]
  · rw [hs.violations, hmiss, List.filterMap_append, hv]
    cases hg : g.violation? ⟨x, younger, context⟩ <;> simp [hg]

end Push

theorem recorded_insertAll (g : Graph) (older : List Classifier) (younger : Classifier)
    (context : Context) :
    Recorded g older younger context (g.insertAll older younger context) := by
  induction older using List.reverseRecOn with
  | nil =>
    refine ⟨?_, ?_, ?_, rfl, rfl, rfl, rfl, rfl⟩ <;> simp [insertAll, addNode, edge?]
  | append_singleton older x ih =>
    have hstep : g.insertAll (older ++ [x]) younger context =
        recordOne younger context (g.insertAll older younger context) x := by
      simp [insertAll]
    rw [hstep]
    by_cases hx : x.id = younger.id
    · rw [recordOne_same hx]
      exact ih.push_same hx
    · cases he : (g.insertAll older younger context).1.hasEdge x.id younger.id with
      | true =>
        rw [recordOne_old hx he]
        exact ih.push_old hx he
      | false => exact ih.push_new hx he

theorem conflicting_of_mem {s : Graph × Outcome} (hs : Recorded g older younger context s)
    {v : Violation} (hv : v ∈ s.2.violations) :
    ∃ o ∈ g.missing (distinct older) younger, v.conflicting = ⟨o, younger, context⟩ ∧
      g.edge? younger.id o.id = some v.established ∧ g.isKnown o.id younger.id = false := by
  rw [hs.violations] at hv
  obtain ⟨o, ho, hov⟩ := List.mem_filterMap.1 hv
  obtain ⟨hc, he, hk⟩ := violation?_eq_some_iff.1 hov
  exact ⟨o, ho, hc, he, hk⟩

/-- A pair is reported when it becomes known. -/
theorem mem_reported {s : Graph × Outcome} (hs : Recorded g older younger context s)
    (a b : ClassifierId) : Pair.of a b ∈ s.2.violations.map (·.pair) ↔
      s.1.isKnown a b = true ∧ g.isKnown a b = false := by
  rw [hs.isKnown, List.mem_map]
  constructor
  · rintro ⟨v, hv, hpair⟩
    obtain ⟨o, -, hc, -, hk⟩ := conflicting_of_mem hs hv
    have hof : Pair.of o.id younger.id = Pair.of a b := by rw [← hpair, Violation.pair, hc]
    refine ⟨?_, ?_⟩
    · rw [Bool.or_eq_true, List.any_eq_true]
      exact Or.inr ⟨v, hv, by simpa using hpair⟩
    · rw [isKnown, ← hof]
      exact hk
  · rintro ⟨h, hk⟩
    rw [hk, Bool.false_or, List.any_eq_true] at h
    obtain ⟨v, hv, hpair⟩ := h
    exact ⟨v, hv, by simpa using hpair⟩

/-- No pair is reported twice at once: its two members are the younger classifier and one that is
held, and each of these is looked at once. -/
theorem reported_nodup {s : Graph × Outcome} (hs : Recorded g older younger context s) :
    (s.2.violations.map (·.pair)).Nodup := by
  have hids : ((g.missing (distinct older) younger).map (·.id)).Nodup :=
    (List.filter_sublist.map _).nodup (distinct_ids_nodup older)
  have hne : ∀ o ∈ g.missing (distinct older) younger, o.id ≠ younger.id :=
    fun o ho => (mem_missing.1 ho).2.1
  rw [hs.violations]
  generalize g.missing (distinct older) younger = os at hids hne
  induction os with
  | nil => simp
  | cons o os ih =>
    rw [List.map_cons, List.nodup_cons] at hids
    have hrest := ih hids.2 fun p hp => hne p (List.mem_cons_of_mem _ hp)
    rw [List.filterMap_cons]
    split
    · exact hrest
    · next v hv =>
      rw [List.map_cons, List.nodup_cons]
      refine ⟨?_, hrest⟩
      intro hmem
      obtain ⟨u, hu, hpair⟩ := List.mem_map.1 hmem
      obtain ⟨p, hp, hpu⟩ := List.mem_filterMap.1 hu
      rw [Violation.pair, Violation.pair, (violation?_eq_some_iff.1 hpu).1,
        (violation?_eq_some_iff.1 hv).1, Pair.of_eq_iff] at hpair
      rcases hpair with h | h
      · exact hids.1 (List.mem_map.2 ⟨p, hp, h.1⟩)
      · exact hne p (List.mem_cons_of_mem _ hp) h.1

/-- The live nodes and what is between them. -/
def between (alive : ClassifierId → Bool) (g : Graph) : Graph :=
  let kept := g.nodes.filter fun a _ => alive a
  { g with
    nodes := kept
    edges := g.edges.filter fun e _ => kept.contains e.1 && kept.contains e.2
    known := g.known.filter fun p => kept.contains p.low && kept.contains p.high
    fresh := 0 }

/-- Whether a node is live. -/
def keeps (g : Graph) (alive : ClassifierId → Bool) (a : ClassifierId) : Bool :=
  g.nodes.contains a && alive a

theorem nodes_between (g : Graph) (alive : ClassifierId → Bool) (a : ClassifierId) :
    (g.between alive).nodes[a]? = if alive a then g.nodes[a]? else none := by
  unfold between
  rw [Std.ExtTreeMap.getElem?_filter']
  cases g.nodes[a]? <;> cases alive a <;> rfl

theorem contains_kept (g : Graph) (alive : ClassifierId → Bool) (a : ClassifierId) :
    (g.nodes.filter fun a _ => alive a).contains a = g.keeps alive a := by
  rw [Std.ExtTreeMap.contains_eq_isSome_getElem?, Std.ExtTreeMap.getElem?_filter', keeps,
    Std.ExtTreeMap.contains_eq_isSome_getElem?]
  cases g.nodes[a]? <;> cases alive a <;> simp

theorem edge?_between (g : Graph) (alive : ClassifierId → Bool) (a b : ClassifierId) :
    (g.between alive).edge? a b =
      if g.keeps alive a && g.keeps alive b then g.edge? a b else none := by
  unfold between edge?
  rw [Std.ExtTreeMap.getElem?_filter', contains_kept, contains_kept]
  cases g.edges[(a, b)]? <;> cases g.keeps alive a <;> cases g.keeps alive b <;> rfl

theorem mem_known_between {alive : ClassifierId → Bool} {p : Pair} :
    p ∈ (g.between alive).known ↔
      p ∈ g.known ∧ g.keeps alive p.low = true ∧ g.keeps alive p.high = true := by
  unfold between
  rw [Std.ExtTreeSet.mem_filter]
  simp only [contains_kept, Std.ExtTreeSet.get_eq, Bool.and_eq_true, exists_prop]

theorem contains_dead_of_isEmpty {alive : ClassifierId → Bool}
    (h : (g.dead alive).isEmpty = true) (a : ClassifierId) : (g.dead alive).contains a = false :=
  Std.ExtTreeMap.eq_empty_iff_forall_contains.1 (Std.ExtTreeMap.isEmpty_iff.1 h) a

theorem nodes_sweep (g : Graph) (alive : ClassifierId → Bool) (a : ClassifierId) :
    (g.sweep alive).nodes[a]? = if (g.dead alive).contains a then none else g.nodes[a]? := by
  unfold sweep
  dsimp only
  split
  · next hnone =>
    rw [contains_dead_of_isEmpty hnone, if_neg Bool.false_ne_true]
  · rw [Std.ExtTreeMap.getElem?_filter']
    cases g.nodes[a]? <;> cases (g.dead alive).contains a <;> rfl

theorem edges_sweep (g : Graph) (alive : ClassifierId → Bool) (e : ClassifierId × ClassifierId) :
    (g.sweep alive).edges[e]? =
      if (g.dead alive).contains e.1 || (g.dead alive).contains e.2 then none else g.edges[e]? := by
  unfold sweep
  dsimp only
  split
  · next hnone =>
    rw [contains_dead_of_isEmpty hnone, contains_dead_of_isEmpty hnone, Bool.or_false,
      if_neg Bool.false_ne_true]
  · rw [Std.ExtTreeMap.getElem?_filter']
    cases g.edges[e]? <;> cases (g.dead alive).contains e.1 <;>
      cases (g.dead alive).contains e.2 <;> rfl

theorem mem_known_sweep {alive : ClassifierId → Bool} {p : Pair} :
    p ∈ (g.sweep alive).known ↔ p ∈ g.known ∧ (g.dead alive).contains p.low = false ∧
      (g.dead alive).contains p.high = false := by
  unfold sweep
  dsimp only
  split
  · next hnone =>
    rw [contains_dead_of_isEmpty hnone, contains_dead_of_isEmpty hnone]
    simp
  · rw [Std.ExtTreeSet.mem_filter]
    simp only [Std.ExtTreeSet.get_eq, Bool.and_eq_true, Bool.not_eq_true', exists_prop]

/-- Whatever the graph, a sweep only takes away. -/
theorem of_edge?_sweep {alive : ClassifierId → Bool} {a b : ClassifierId} {w : Witness}
    (h : (g.sweep alive).edge? a b = some w) : g.edge? a b = some w := by
  unfold edge? at h
  rw [edges_sweep, Option.ite_none_left_eq_some] at h
  exact h.2

theorem of_hasEdge_sweep {alive : ClassifierId → Bool} {a b : ClassifierId}
    (h : (g.sweep alive).hasEdge a b = true) : g.hasEdge a b = true := by
  obtain ⟨w, hw⟩ := hasEdge_iff.1 h
  exact hasEdge_iff.2 ⟨w, of_edge?_sweep hw⟩

theorem of_isKnown_sweep {alive : ClassifierId → Bool} {a b : ClassifierId}
    (h : (g.sweep alive).isKnown a b = true) : g.isKnown a b = true :=
  Std.ExtTreeSet.contains_iff_mem.2 (mem_known_sweep.1 (Std.ExtTreeSet.contains_iff_mem.1 h)).1

@[simp] theorem sweepEvery_sweep (g : Graph) (alive : ClassifierId → Bool) :
    (g.sweep alive).sweepEvery = g.sweepEvery := by
  unfold sweep
  dsimp only
  split <;> rfl

@[simp] theorem fresh_sweep (g : Graph) (alive : ClassifierId → Bool) :
    (g.sweep alive).fresh = 0 := by
  unfold sweep
  dsimp only
  split <;> rfl

end LockDiscipline.Order.Graph
