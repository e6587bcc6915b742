import LockDiscipline.Proofs.Order.Acts

namespace LockDiscipline.Order

/-- A sweep of a graph. -/
structure Sweep where
  /-- What lived then. -/
  alive : ClassifierId → Bool
  left : Graph

namespace Graph

variable {g : Graph} {alive : ClassifierId → Bool} {older : List Classifier} {younger : Classifier}
  {context : Context} {s : Option Sweep}

theorem size_nodes_addNode_le (g : Graph) (c : Classifier) :
    (g.addNode c).nodes.size ≤ g.nodes.size + 1 :=
  Std.ExtTreeMap.size_insertIfNew_le

theorem size_nodes_addNode {c : Classifier} (h : c.id ∈ g.nodes) :
    (g.addNode c).nodes.size = g.nodes.size := by
  unfold addNode
  rw [Std.ExtTreeMap.size_insertIfNew, if_pos h]

theorem size_edges_addEdge {w : Witness} (h : g.hasEdge w.older.id w.younger.id = false) :
    (g.addEdge w).edges.size = g.edges.size + 1 := by
  unfold addEdge
  rw [Std.ExtTreeMap.size_insertIfNew, if_neg]
  rw [← Std.ExtTreeMap.contains_iff_mem]
  exact Bool.eq_false_iff.1 h

@[simp] theorem edges_addKnown (g : Graph) (v : Option Violation) :
    (g.addKnown v).edges = g.edges := by
  cases v <;> rfl

theorem insertAll_concat (g : Graph) (older : List Classifier) (x younger : Classifier)
    (context : Context) :
    g.insertAll (older ++ [x]) younger context =
      recordOne younger context (g.insertAll older younger context) x := by
  simp [insertAll]

/-- An inserted witness is an edge more, and its older end may be a node more. Where none is
inserted no node is added either, because the ends of an edge are nodes already. -/
theorem size_recordOne {k : Graph × Outcome} (hk : k.1.Intact) (younger : Classifier)
    (context : Context) (x : Classifier) :
    let l := recordOne younger context k x
    l.1.edges.size + k.2.inserted.length = k.1.edges.size + l.2.inserted.length ∧
      l.1.nodes.size + k.2.inserted.length ≤ k.1.nodes.size + l.2.inserted.length := by
  obtain ⟨g, o⟩ := k
  by_cases hx : x.id = younger.id
  · rw [recordOne_same hx]
    exact ⟨rfl, Nat.le_refl _⟩
  · cases he : g.hasEdge x.id younger.id with
    | true =>
      rw [recordOne_old hx he]
      dsimp only
      rw [size_nodes_addNode (hk.ends _ _ he).1]
      exact ⟨rfl, Nat.le_refl _⟩
    | false =>
      rw [recordOne_new hx he]
      generalize g.violation? ⟨x, younger, context⟩ = v
      have hnew : ((g.addNode x).addKnown v).hasEdge x.id younger.id = false := by
        rw [hasEdge, edges_addKnown]
        exact he
      have hedges := size_edges_addEdge (w := ⟨x, younger, context⟩) hnew
      have hnodes : (((g.addNode x).addKnown v).addEdge ⟨x, younger, context⟩).nodes.size ≤
          g.nodes.size + 1 := by
        change ((g.addNode x).addKnown v).nodes.size ≤ _
        rw [nodes_addKnown]
        exact size_nodes_addNode_le g x
      dsimp only
      rw [hedges, edges_addKnown, List.length_append, List.length_singleton]
      refine ⟨?_, by omega⟩
      change g.edges.size + 1 + _ = _
      omega

/-- The younger classifier may be one node more. -/
theorem Intact.size_insertAll (hg : g.Intact) (older : List Classifier) (younger : Classifier)
    (context : Context) :
    let k := g.insertAll older younger context
    k.1.edges.size = g.edges.size + k.2.inserted.length ∧
      k.1.nodes.size ≤ g.nodes.size + 1 + k.2.inserted.length := by
  -- from the end, since what is known of a recorded witness is about the graph before it
  induction older using List.reverseRecOn with
  | nil => exact ⟨rfl, size_nodes_addNode_le g younger⟩
  | append_singleton older x ih =>
    have hx := size_recordOne (hg.insertAll older younger context) younger context x
    rw [insertAll_concat]
    dsimp only at ih hx ⊢
    omega

/-- What lacks an edge gets one. -/
theorem inserted_ne_nil (h : g.missing older younger ≠ []) (context : Context) :
    (g.insertAll (g.missing older younger) younger context).2.inserted ≠ [] := by
  obtain ⟨o, ho⟩ := List.exists_mem_of_ne_nil _ h
  obtain ⟨p, hp, hid⟩ : ∃ p ∈ distinct (g.missing older younger), p.id = o.id := by
    rw [← Classifier.isIn_iff, isIn_distinct]
    exact Classifier.isIn_iff.2 ⟨o, ho, rfl⟩
  have hlacks := mem_missing.1 ((distinct_sublist _).subset hp)
  rw [(recorded_insertAll g _ younger context).inserted, Ne, List.map_eq_nil_iff]
  exact List.ne_nil_of_mem (mem_missing.2 ⟨hp, hlacks.2⟩)

/-- The graph `g` since its last sweep, or from its beginning if it was never swept. -/
structure Grown (s : Option Sweep) (g : Graph) : Prop where
  intact : g.Intact
  edges : g.edges.size = s.elim 0 (·.left.edges.size) + g.fresh
  nodes : g.nodes.size ≤ s.elim 0 (·.left.nodes.size) + 2 * g.fresh
  due : g.fresh < g.sweepEvery
  /-- The sweep left live classifiers only. -/
  alive : ∀ w, s = some w → ∀ a ∈ w.left.nodes, w.alive a = true

/-- The sweep at the end of learning, if there is one. -/
def sweepAfter (alive : ClassifierId → Bool) (g : Graph) (older : List Classifier)
    (younger : Classifier) (context : Context) : Option Sweep :=
  let k := (g.insertAll (g.missing older younger) younger context).1
  if g.missing older younger ≠ [] ∧ k.sweepEvery ≤ k.fresh then some ⟨alive, k.sweep alive⟩
  else none

theorem grown_empty (every : Nat) : Grown none (empty every) := by
  refine ⟨intact_empty every, rfl, Nat.zero_le _, ?_, fun w hw => by cases hw⟩
  exact Nat.lt_of_lt_of_le Nat.zero_lt_one (Nat.le_max_left 1 every)

theorem grown_sweep (hg : g.Intact) (hevery : 0 < g.sweepEvery) (alive : ClassifierId → Bool) :
    Grown (some ⟨alive, g.sweep alive⟩) (g.sweep alive) where
  intact := hg.sweep alive
  edges := by rw [fresh_sweep]; rfl
  nodes := Nat.le_add_right _ _
  due := by rwa [fresh_sweep, sweepEvery_sweep]
  alive := by
    intro w hw a ha
    cases hw
    rw [Std.ExtTreeMap.mem_iff_isSome_getElem?, hg.nodes_sweep] at ha
    by_contra hdead
    rw [if_neg hdead] at ha
    cases ha

/-- A graph that learns something is swept if it is time, and otherwise counts what it learnt. -/
theorem Grown.learn (h : Grown s g) (alive : ClassifierId → Bool) (older : List Classifier)
    (younger : Classifier) (context : Context) :
    Grown ((g.sweepAfter alive older younger context).or s)
      (g.learn alive older younger context).1 := by
  unfold sweepAfter Graph.learn
  by_cases hnone : g.missing older younger = []
  · rw [if_pos hnone, if_neg (fun hdue => hdue.1 hnone)]
    exact h
  · have hk := h.intact.insertAll (g.missing older younger) younger context
    have hs := recorded_insertAll g (g.missing older younger) younger context
    obtain ⟨hedges, hnodes⟩ := h.intact.size_insertAll (g.missing older younger) younger context
    have hsome := List.length_pos_iff.2 (inserted_ne_nil hnone context)
    rw [if_neg hnone, record_eq]
    generalize g.insertAll (g.missing older younger) younger context = k at *
    dsimp only
    by_cases hdue : k.1.sweepEvery ≤ k.1.fresh
    · have hevery : 0 < k.1.sweepEvery := by
        rw [hs.sweepEvery]
        exact Nat.zero_lt_of_lt h.due
      rw [if_pos hdue, if_pos ⟨hnone, hdue⟩]
      exact grown_sweep hk hevery alive
    · have hbefore := h.edges
      have hnodes := h.nodes
      have hfresh := hs.fresh
      rw [if_neg hdue, if_neg (fun hsweep => hdue hsweep.2), Option.none_or]
      -- the younger node is paid for by the first of at least one new edge
      exact ⟨hk, by omega, by omega, Nat.lt_of_not_le hdue, h.alive⟩

theorem learn_of_sweepAfter {w : Sweep} (h : g.sweepAfter alive older younger context = some w) :
    (g.learn alive older younger context).1 = w.left := by
  unfold sweepAfter at h
  rw [Option.ite_none_right_eq_some, Option.some_inj] at h
  obtain ⟨⟨hsome, hdue⟩, rfl⟩ := h
  unfold Graph.learn
  rw [if_neg hsome, record_eq]
  dsimp only
  rw [if_pos hdue]

end Graph

namespace Detector

variable {d : Detector} {i : Nat} {s : Option Sweep}

/-- The sweep of a graph in the course of an act, if there is one. -/
def sweepIn (d : Detector) (i : Nat) : Act → Option Sweep
  | .begin pinned held thread r candidate site =>
    (d.recorders[r]?).bind fun q =>
      if q.graph = i ∧ i < d.graphs.length ∧ d.isFresh held thread r candidate = true then
        let kept := (d.stackOf thread r).filter fun c => held c.id
        let pushed := d.setStack thread r (kept ++ [candidate])
        (d.graphAt i).sweepAfter (fun a => pinned a || pushed.onStack a) kept candidate
          (seenAt q thread site)
      else none
  | .sweep alive j =>
    if j = i ∧ i < d.graphs.length then some ⟨alive, (d.graphAt i).sweep alive⟩ else none
  | _ => none

/-- The last sweep of a graph while acts are done one after another, if there was one. -/
def lastSweep (d : Detector) (i : Nat) : List Act → Option Sweep
  | [] => none
  | a :: as => ((d.step a).1.lastSweep i as).or (d.sweepIn i a)

/-- The detector since the last sweep of graph `i`. -/
structure Since (i : Nat) (s : Option Sweep) (d : Detector) : Prop where
  grown : Graph.Grown s (d.graphAt i)
  /-- What is not there yet has not been swept. -/
  absent : d.graphs.length ≤ i → s = none

theorem since_empty (i : Nat) : Since i none empty := ⟨Graph.grown_empty _, fun _ => rfl⟩

variable {pinned held : ClassifierId → Bool} {thread : Thread} {site : String} {r : Nat}
  {candidate : Classifier}

/-- An acquisition makes a graph learn, or it leaves it alone. -/
theorem sweepIn_begin (d : Detector) (i : Nat) (pinned held : ClassifierId → Bool) (thread : Thread)
    (r : Nat) (candidate : Classifier) (site : String) :
    let v := (d.begin pinned held thread r candidate site).1
    let w := d.sweepIn i (.begin pinned held thread r candidate site)
    (∃ alive older context, w = (d.graphAt i).sweepAfter alive older candidate context ∧
      v.graphAt i = ((d.graphAt i).learn alive older candidate context).1) ∨
    w = none ∧ v.graphAt i = d.graphAt i := by
  cases hf : d.isFresh held thread r candidate with
  | false =>
    refine Or.inr ⟨?_, by rw [begin_of_not_fresh hf]⟩
    unfold sweepIn
    cases d.recorders[r]? <;> simp [hf]
  | true =>
    obtain ⟨q, hq, hbegin⟩ := begin_of_fresh pinned site hf
    rw [hbegin, sweepIn, hq, Option.bind_some]
    by_cases hi : q.graph = i ∧ i < d.graphs.length
    · obtain ⟨rfl, hlength⟩ := hi
      refine Or.inl ⟨_, _, _, if_pos ⟨rfl, hlength, hf⟩, ?_⟩
      have hset : ∀ cs, q.graph < (d.setStack thread r cs).graphs.length := fun _ => hlength
      rw [recordEdges_eq _ _ _ _ _ _ _ (hset _)]
      dsimp only
      rw [graphAt_report, graphAt_setGraph, if_pos ⟨rfl, hset _⟩]
      rfl
    · refine Or.inr ⟨if_neg (fun h => hi ⟨h.1, h.2.1⟩), ?_⟩
      rw [graphAt_recordEdges, if_neg]
      · rfl
      · rintro ⟨rfl, hlength, -⟩
        exact hi ⟨rfl, hlength⟩

/-- A sweep in the course of an act is the last that happens to its graph. -/
theorem graphAt_of_sweepIn {a : Act} {w : Sweep} (h : d.sweepIn i a = some w) :
    (d.step a).1.graphAt i = w.left := by
  cases a with
  | begin pinned held thread r candidate site =>
    rcases sweepIn_begin d i pinned held thread r candidate site with
      ⟨alive, older, context, hsweep, hgraph⟩ | ⟨hnone, -⟩
    · exact hgraph.trans (Graph.learn_of_sweepAfter (hsweep.symm.trans h))
    · rw [hnone] at h
      cases h
  | sweep alive j =>
    rw [sweepIn, Option.ite_none_right_eq_some, Option.some_inj] at h
    obtain ⟨⟨rfl, hj⟩, rfl⟩ := h
    change (d.setGraph j _).graphAt j = _
    rw [graphAt_setGraph, if_pos ⟨rfl, hj⟩]
  | addGraph | addSink | addRecorder | release | dropRecorder | endThread | drain => cases h

namespace Since

theorem absent_or (h : Since i s d) {a : Act} (hi : d.graphs.length ≤ i) :
    (d.sweepIn i a).or s = none := by
  have hnot : ¬ i < d.graphs.length := Nat.not_lt.2 hi
  rw [h.absent hi, Option.or_none]
  cases a with
  | begin pinned held thread r candidate site =>
    unfold sweepIn
    cases d.recorders[r]? <;> simp [hnot]
  | sweep alive j => exact if_neg fun hj => hnot hj.2
  | addGraph | addSink | addRecorder | release | dropRecorder | endThread | drain => rfl

theorem begin (h : Since i s d) :
    Since i ((d.sweepIn i (.begin pinned held thread r candidate site)).or s)
      (d.begin pinned held thread r candidate site).1 := by
  refine ⟨?_, ?_⟩
  · rcases sweepIn_begin d i pinned held thread r candidate site with
      ⟨alive, older, context, hsweep, hgraph⟩ | ⟨hnone, hgraph⟩
    · rw [hsweep, hgraph]
      exact h.grown.learn alive older candidate context
    · rw [hnone, hgraph]
      exact h.grown
  · rw [(begin_frame d pinned held thread r candidate site).1]
    exact h.absent_or

theorem step (h : Since i s d) (a : Act) : Since i ((d.sweepIn i a).or s) (d.step a).1 := by
  cases a with
  | begin pinned held thread r candidate site => exact h.begin
  | sweep alive j =>
    refine ⟨?_, ?_⟩
    · change Graph.Grown _ ((d.setGraph j _).graphAt i)
      rw [sweepIn, graphAt_setGraph]
      by_cases hj : j = i ∧ i < d.graphs.length
      · obtain ⟨rfl, hlength⟩ := hj
        rw [if_pos ⟨rfl, hlength⟩, if_pos ⟨rfl, hlength⟩]
        exact Graph.grown_sweep h.grown.intact (Nat.zero_lt_of_lt h.grown.due) alive
      · rw [if_neg hj, if_neg (by rintro ⟨rfl, hlength⟩; exact hj ⟨rfl, hlength⟩)]
        exact h.grown
    · change (d.setGraph j _).graphs.length ≤ i → _
      rw [setGraph, List.length_set]
      exact h.absent_or
  | addGraph sweepEvery =>
    refine ⟨?_, ?_⟩
    · change Graph.Grown s (graphAt { d with graphs := d.graphs ++ [.empty sweepEvery] } i)
      rw [graphAt_addGraph]
      split
      · -- the new graph is this one, and nothing was swept under its name before
        next hi =>
        rw [h.absent (Nat.le_of_eq hi.symm)]
        exact Graph.grown_empty sweepEvery
      · exact h.grown
    · intro hi
      change (d.graphs ++ [Graph.empty sweepEvery]).length ≤ i at hi
      rw [List.length_append] at hi
      exact h.absent (Nat.le_of_add_right_le hi)
  | addSink | addRecorder | endThread => exact ⟨h.grown, h.absent⟩
  | release t r c =>
    rw [Detector.step]
    rcases release_eq_or d t r c with ⟨hr, -⟩ | ⟨hr, -⟩ <;> rw [hr]
    · exact h
    · exact ⟨h.grown, h.absent⟩
  | dropRecorder t r =>
    rw [Detector.step]
    rcases dropRecorder_eq_or d t r with ⟨hr, -⟩ | ⟨hr, -⟩ <;> rw [hr]
    · exact h
    · exact ⟨h.grown, h.absent⟩
  | drain j =>
    unfold Detector.step
    dsimp only
    split <;> exact ⟨h.grown, h.absent⟩

theorem run (h : Since i s d) (as : List Act) : Since i ((d.lastSweep i as).or s) (d.run as).1 := by
  induction as generalizing d s with
  | nil => exact h
  | cons a as ih =>
    rw [lastSweep, Option.or_assoc]
    exact ih (h.step a)

end Since

theorem size_le_of_alive {w : Sweep} (halive : ∀ a ∈ w.left.nodes, w.alive a = true)
    {living : List ClassifierId} (hliving : ∀ a, w.alive a = true → a ∈ living) :
    w.left.nodes.size ≤ living.length := by
  rw [← Std.ExtTreeMap.length_keys]
  refine Std.ExtTreeMap.nodup_keys.length_le_of_subset ?_
  intro a ha
  exact hliving a (halive a (Std.ExtTreeMap.mem_keys.1 ha))

/-- Whatever was done with a detector: a graph has as many edges as its last sweep left and were
added since, and for each of these at most two nodes more than its last sweep left. Before as many
are added as a sweep waits for, the graph is swept. So it never has more nodes than there were live
classifiers at its last sweep, and two for each edge but one that a sweep waits for. -/
theorem growth_bounded (as : List Act) (i : Nat) :
    let d := (empty.run as).1
    let g := d.graphAt i
    let s := empty.lastSweep i as
    g.edges.size = s.elim 0 (·.left.edges.size) + g.fresh ∧
    g.nodes.size ≤ s.elim 0 (·.left.nodes.size) + 2 * g.fresh ∧
    g.fresh < g.sweepEvery ∧
    g.nodes.size ≤ s.elim 0 (·.left.nodes.size) + 2 * (g.sweepEvery - 1) ∧
    (∀ w, s = some w → ∀ living : List ClassifierId, (∀ a, w.alive a = true → a ∈ living) →
      w.left.nodes.size ≤ living.length ∧
        g.nodes.size ≤ living.length + 2 * (g.sweepEvery - 1)) ∧
    ∀ a w, d.sweepIn i a = some w → (d.step a).1.graphAt i = w.left := by
  have h := (since_empty i).run as
  rw [Option.or_none] at h
  obtain ⟨-, hedges, hnodes, hdue, halive⟩ := h.grown
  have hbound : ((empty.run as).1.graphAt i).nodes.size ≤
      (empty.lastSweep i as).elim 0 (·.left.nodes.size) +
        2 * (((empty.run as).1.graphAt i).sweepEvery - 1) := by
    omega
  refine ⟨hedges, hnodes, hdue, hbound, ?_, fun a w => graphAt_of_sweepIn⟩
  intro w hw living hliving
  have hleft := size_le_of_alive (halive w hw) hliving
  rw [hw] at hbound
  exact ⟨hleft, Nat.le_trans hbound (Nat.add_le_add_right hleft _)⟩

/-- A thread holds one lock and takes others for a moment, each of which dies when it is let go. The
second of them brings a sweep, which takes the first. -/
example :
    let t : Thread := ⟨1, "t"⟩
    let brief : Classifier → List Act := fun c =>
      [.begin (fun _ => false) (fun _ => true) t 0 c "here", .release t 0 c]
    let as : List Act := [.addGraph 2, .addRecorder 0 ⟨false, false, false, 2⟩ .monitor none,
      .begin (fun _ => false) (fun _ => true) t 0 ⟨1, "A"⟩ "there"] ++ brief ⟨2, "B"⟩ ++
      brief ⟨3, "C"⟩ ++ brief ⟨4, "D"⟩
    let g := (empty.run as).1.graphAt 0
    (empty.lastSweep 0 as).map (fun s => (s.left.nodes.size, s.left.edges.size)) = some (2, 1) ∧
      (g.nodes.size, g.edges.size, g.fresh) = (3, 2, 1) := by
  decide +kernel

end Detector

end LockDiscipline.Order
