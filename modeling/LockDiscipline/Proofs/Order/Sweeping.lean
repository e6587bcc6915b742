import LockDiscipline.Proofs.Order.Representation

namespace LockDiscipline.Order

namespace Graph

variable {g : Graph} {alive : ClassifierId → Bool} {older : List Classifier} {younger : Classifier}
  {context : Context} {a b : ClassifierId}

theorem keeps_iff : g.keeps alive a = true ↔ a ∈ g.nodes ∧ alive a = true := by
  unfold keeps
  rw [Bool.and_eq_true, Std.ExtTreeMap.contains_iff_mem]

namespace Intact

theorem mem_nodes_sweep (hg : g.Intact) :
    a ∈ (g.sweep alive).nodes ↔ a ∈ g.nodes ∧ alive a = true := by
  rw [hg.sweep_eq, ← keeps_iff, ← contains_kept, Std.ExtTreeMap.contains_iff_mem]
  rfl

theorem alive_of_mem_known_sweep (hg : g.Intact) {p : Pair} (h : p ∈ (g.sweep alive).known) :
    alive p.low = true ∧ alive p.high = true := by
  rw [hg.sweep_eq, mem_known_between] at h
  exact ⟨(keeps_iff.1 h.2.1).2, (keeps_iff.1 h.2.2).2⟩

theorem dead_eq_empty (hg : g.Intact) (halive : ∀ a ∈ g.nodes, alive a = true) :
    g.dead alive = ∅ := by
  rw [Std.ExtTreeMap.eq_empty_iff_forall_contains]
  intro a
  rw [hg.contains_dead, Bool.and_eq_false_iff, Bool.not_eq_false']
  by_cases ha : a ∈ g.nodes
  · exact Or.inr (halive a ha)
  · exact Or.inl (Bool.eq_false_iff.2 (mt Std.ExtTreeMap.contains_iff_mem.1 ha))

/-- Without dead nodes a sweep starts the count anew and does nothing else. -/
theorem sweep_eq_self (hg : g.Intact) (halive : ∀ a ∈ g.nodes, alive a = true) :
    g.sweep alive = { g with fresh := 0 } := by
  unfold Graph.sweep
  rw [hg.dead_eq_empty halive]
  exact if_pos Std.ExtTreeMap.isEmpty_empty

theorem size_dead_eq_zero (hg : g.Intact) (halive : ∀ a ∈ g.nodes, alive a = true) :
    (g.dead alive).size = 0 := by
  rw [hg.dead_eq_empty halive, Std.ExtTreeMap.size_empty]

end Intact

/-- The graph `k` is what a sweep leaves of `g`, and `n` is how many classifiers it takes. -/
structure Purged (alive : ClassifierId → Bool) (g k : Graph) (n : Nat) : Prop where
  /-- Exactly the dead nodes are gone. -/
  nodes : ∀ a, k.nodes[a]? = if alive a = true then g.nodes[a]? else none
  count : n = (g.nodes.toList.filter fun e => !alive e.1).length
  size : g.nodes.size = k.nodes.size + n
  ends : ∀ a b, k.hasEdge a b = true → alive a = true ∧ alive b = true
  edges : ∀ a b, alive a = true → alive b = true → k.edge? a b = g.edge? a b
  pairs : ∀ p ∈ k.known, alive p.low = true ∧ alive p.high = true
  known : ∀ a b, alive a = true → alive b = true → k.isKnown a b = g.isKnown a b
  fresh : k.fresh = 0
  sweepEvery : k.sweepEvery = g.sweepEvery
  /-- Another sweep takes nothing and changes nothing. -/
  again : (k.dead alive).size = 0 ∧ k.sweep alive = k

namespace Intact

theorem size_dead (hg : g.Intact) (alive : ClassifierId → Bool) :
    (g.dead alive).size = (g.nodes.toList.filter fun e => !alive e.1).length := by
  unfold dead
  rw [← Std.ExtTreeMap.length_toList, Std.ExtTreeMap.toList_filter]
  refine congrArg List.length (List.filter_congr fun e he => ?_)
  rw [hg.isAlive_key alive (Std.ExtTreeMap.mem_toList_iff_getElem?_eq_some.1 he)]

theorem size_nodes (hg : g.Intact) (alive : ClassifierId → Bool) :
    g.nodes.size = (g.sweep alive).nodes.size + (g.dead alive).size := by
  have hsplit := List.length_eq_length_filter_add (l := g.nodes.toList) fun e => alive e.1
  rw [hg.size_dead, hg.sweep_eq, ← Std.ExtTreeMap.length_toList, hsplit]
  unfold between
  rw [← Std.ExtTreeMap.length_toList, Std.ExtTreeMap.toList_filter]

/-- No edge between live classifiers is touched. -/
theorem edge?_sweep_of_alive (hg : g.Intact) (ha : alive a = true) (hb : alive b = true) :
    (g.sweep alive).edge? a b = g.edge? a b := by
  rw [hg.edge?_sweep]
  split
  · rfl
  · next hkeeps =>
    rw [eq_comm, edge?_eq_none_iff, Bool.eq_false_iff]
    intro hedge
    obtain ⟨hna, hnb⟩ := hg.ends a b hedge
    exact hkeeps (by rw [keeps_iff.2 ⟨hna, ha⟩, keeps_iff.2 ⟨hnb, hb⟩]; rfl)

/-- A pair is known by its two edges, and a sweep leaves them if both classifiers live. -/
theorem isKnown_sweep_of_alive (hg : g.Intact) (ha : alive a = true) (hb : alive b = true) :
    (g.sweep alive).isKnown a b = g.isKnown a b := by
  rw [Bool.eq_iff_iff, (hg.sweep alive).known, hg.known, hasEdge_eq_isSome, hasEdge_eq_isSome,
    hg.edge?_sweep_of_alive ha hb, hg.edge?_sweep_of_alive hb ha, hasEdge_eq_isSome,
    hasEdge_eq_isSome]

theorem purged_sweep (hg : g.Intact) (alive : ClassifierId → Bool) :
    Purged alive g (g.sweep alive) (g.dead alive).size where
  nodes a := hg.nodes_sweep alive a
  count := hg.size_dead alive
  size := hg.size_nodes alive
  ends a b h := by
    rw [hg.hasEdge_sweep, Bool.and_eq_true, Bool.and_eq_true] at h
    exact ⟨(keeps_iff.1 h.1.2).2, (keeps_iff.1 h.2).2⟩
  edges _ _ ha hb := hg.edge?_sweep_of_alive ha hb
  pairs _ hp := hg.alive_of_mem_known_sweep hp
  known _ _ ha hb := hg.isKnown_sweep_of_alive ha hb
  fresh := fresh_sweep g alive
  sweepEvery := sweepEvery_sweep g alive
  again := by
    have halive : ∀ a ∈ (g.sweep alive).nodes, alive a = true :=
      fun a ha => (hg.mem_nodes_sweep.1 ha).2
    refine ⟨(hg.sweep alive).size_dead_eq_zero halive, ?_⟩
    rw [(hg.sweep alive).sweep_eq_self halive]
    exact Graph.ext rfl rfl rfl rfl (fresh_sweep g alive).symm

end Intact

/-- What a record is about is there afterwards, whether or not it ends with a sweep. -/
structure Spared (g : Graph) (older : List Classifier) (younger : Classifier) (out : Outcome) :
    Prop where
  nodes : ∀ c ∈ younger :: older, c.id ∈ g.nodes
  inserted : ∀ x ∈ out.inserted, g.edge? x.older.id x.younger.id = some x
  reported : ∀ y ∈ out.violations, y.pair ∈ g.known

theorem spared_insertAll (g : Graph) (older : List Classifier) (younger : Classifier)
    (context : Context) :
    (g.insertAll older younger context).1.Spared older younger
      (g.insertAll older younger context).2 := by
  have hs := recorded_insertAll g older younger context
  refine ⟨?_, ?_, ?_⟩
  · intro c hc
    rw [hs.mem_nodes]
    rcases List.mem_cons.1 hc with rfl | hc
    · exact Or.inr (Or.inl rfl)
    · exact Or.inr (Or.inr ⟨c, hc, rfl⟩)
  · intro x hx
    rw [hs.inserted] at hx
    obtain ⟨o, ho, rfl⟩ := List.mem_map.1 hx
    obtain ⟨hfirst, hne, hnew⟩ := mem_missing.1 ho
    rw [hs.edge, edge?_eq_none_iff.2 hnew, Option.none_or, if_pos ⟨rfl, hne⟩,
      find?_of_mem_distinct hfirst]
    rfl
  · intro y hy
    rw [← Std.ExtTreeSet.contains_iff_mem, hs.known, Bool.or_eq_true, List.any_eq_true]
    exact Or.inr ⟨y, hy, decide_eq_true rfl⟩

/-- A sweep spares what is about live classifiers. -/
theorem Spared.sweep {out : Outcome} (h : g.Spared older younger out) (hg : g.Intact)
    (halive : ∀ c ∈ younger :: older, alive c.id = true)
    (hinserted : ∀ x ∈ out.inserted, x.older ∈ older ∧ x.younger = younger)
    (hreported : ∀ y ∈ out.violations, ∃ o ∈ older, y.pair = Pair.of o.id younger.id) (n : Nat) :
    (g.sweep alive).Spared older younger { out with swept := n } := by
  have hkeeps : ∀ c ∈ younger :: older, g.keeps alive c.id = true :=
    fun c hc => keeps_iff.2 ⟨h.nodes c hc, halive c hc⟩
  refine ⟨fun c hc => hg.mem_nodes_sweep.2 ⟨h.nodes c hc, halive c hc⟩, ?_, ?_⟩
  · intro x hx
    obtain ⟨holder, hyounger⟩ := hinserted x hx
    have hold := hkeeps x.older (List.mem_cons_of_mem _ holder)
    have hyoung := hkeeps x.younger (by rw [hyounger]; exact List.mem_cons_self)
    rw [hg.edge?_sweep, hold, hyoung, Bool.and_self, if_pos rfl]
    exact h.inserted x hx
  · intro y hy
    obtain ⟨o, ho, hpair⟩ := hreported y hy
    have hknown : g.isKnown o.id younger.id = true := by
      unfold isKnown
      rw [← hpair, Std.ExtTreeSet.contains_iff_mem]
      exact h.reported y hy
    rw [hpair, ← Std.ExtTreeSet.contains_iff_mem]
    change (g.sweep alive).isKnown o.id younger.id = true
    rw [hg.isKnown_sweep, hknown, hkeeps o (List.mem_cons_of_mem _ ho),
      hkeeps younger List.mem_cons_self]
    rfl

theorem Intact.spared_record (hg : g.Intact) (context : Context)
    (halive : ∀ c ∈ younger :: older, alive c.id = true) :
    (g.record alive older younger context).1.Spared older younger
      (g.record alive older younger context).2 := by
  have hs := recorded_insertAll g older younger context
  have hspared := spared_insertAll g older younger context
  rw [record_eq]
  dsimp only
  split
  · refine hspared.sweep (hg.insertAll older younger context) halive ?_ (fun y hy => hs.pair_of_mem hy) _
    intro x hx
    rw [hs.inserted] at hx
    obtain ⟨o, ho, rfl⟩ := List.mem_map.1 hx
    exact ⟨(distinct_sublist older).subset (mem_missing.1 ho).1, rfl⟩
  · exact hspared

/-- A record ends with a sweep if it is time, and without one otherwise. -/
theorem Intact.record_sweeps (hg : g.Intact) (alive : ClassifierId → Bool) (older : List Classifier)
    (younger : Classifier) (context : Context) :
    let k := (g.insertAll older younger context).1
    let r := g.record alive older younger context
    if k.sweepEvery ≤ k.fresh then Purged alive k r.1 r.2.swept else r.1 = k ∧ r.2.swept = 0 := by
  have hs := recorded_insertAll g older younger context
  have hk := hg.insertAll older younger context
  dsimp only
  rw [record_eq]
  dsimp only
  split
  · exact hk.purged_sweep alive
  · exact ⟨rfl, hs.swept⟩

end Graph

namespace World

variable {every : Nat} {w v : World} {e : Event} {x : Answer} {es : List Event} {as : List Answer}

/-- No node is dead. -/
def Swept (w : World) : Prop := ∀ a ∈ w.graph.nodes, w.population.isAlive a = true

theorem Sound.swept_sweep (hw : w.Sound) :
    Swept { w with graph := w.graph.sweep w.population.isAlive } :=
  fun _ ha => (hw.intact.mem_nodes_sweep.1 ha).2

/-- Only a death leaves something to sweep. -/
theorem Swept.step (h : w.Swept) (hw : w.Sound) (hstep : w.step e = some (v, x))
    (he : ∀ c, e ≠ .drop c) : v.Swept := by
  cases e with
  | create c =>
    obtain ⟨p, hp, hv⟩ := Option.map_eq_some_iff.1 hstep
    cases hv
    obtain ⟨-, rfl⟩ := Population.create_eq_some_iff.1 hp
    intro a ha
    obtain ⟨⟨d, hd, hid⟩, hdead⟩ := Population.isAlive_iff.1 (h a ha)
    exact Population.isAlive_iff.2 ⟨⟨d, List.mem_cons_of_mem c hd, hid⟩, hdead⟩
  | drop c => exact absurd rfl (he c)
  | call q =>
    obtain ⟨hq, rfl, -⟩ := step_call hstep
    cases q with
    | record older younger context =>
      intro a ha
      change a ∈ (w.graph.record w.population.isAlive older younger context).1.nodes at ha
      have hnode : a ∈ (w.graph.insertAll older younger context).1.nodes := by
        rw [Graph.record_eq] at ha
        dsimp only at ha
        split at ha
        · exact ((hw.intact.insertAll older younger context).mem_nodes_sweep.1 ha).1
        · exact ha
      have hhandle : ∀ c ∈ younger :: older, w.population.isAlive c.id = true := by
        intro c hc
        obtain ⟨hborn, hdead⟩ := Population.has_iff.1 (hq c hc)
        exact Population.isAlive_iff.2 ⟨⟨c, hborn, rfl⟩, hdead⟩
      rw [(Graph.recorded_insertAll w.graph older younger context).mem_nodes] at hnode
      rcases hnode with hnode | rfl | ⟨o, ho, rfl⟩
      · exact h a hnode
      · exact hhandle younger List.mem_cons_self
      · exact hhandle o (List.mem_cons_of_mem _ ho)
    | missing | hasEdge | witness | isKnown | cycles => exact h
  | sweep =>
    cases hstep
    exact hw.swept_sweep

theorem Swept.run (h : w.Swept) (hw : w.Sound) (hrun : w.run es = some (v, as))
    (hes : ∀ c, .drop c ∉ es) : v.Swept := by
  induction es generalizing w as with
  | nil =>
    cases hrun
    exact h
  | cons e es ih =>
    rw [run_cons] at hrun
    obtain ⟨⟨u, a⟩, hstep, hrest⟩ := Option.bind_eq_some_iff.1 hrun
    obtain ⟨⟨z, bs⟩, hz, heq⟩ := Option.map_eq_some_iff.1 hrest
    cases heq
    have hu : u.Swept := h.step hw hstep fun c hc => hes c (by simp [hc])
    exact ih hu (hw.step hstep) hz fun c hc => hes c (List.mem_cons_of_mem e hc)

/-- Where nothing has died a sweep takes nothing. -/
theorem Genuine.step_sweep (hw : Genuine every w) (h : w.Swept) :
    w.step .sweep = some ({ w with graph := { w.graph with fresh := 0 } }, .swept 0) := by
  rw [World.step, hw.sound.intact.sweep_eq_self h, hw.sound.intact.size_dead_eq_zero h]

/-- In every state, whatever is alive: a sweep takes the dead nodes and all that mentions one, and
nothing else, and counts them. This is what a sweep on demand does, and where it is time also the
end of a record. Until a classifier dies another sweep takes nothing. A record keeps the nodes and
edges it is about and the pairs it reports, also where it ends with a sweep. -/
theorem sweep_exact (h : (start every).run es = some (w, as)) :
    (∀ alive, Graph.Purged alive w.graph (w.graph.sweep alive) (w.graph.dead alive).size) ∧
    (∃ v n, w.step .sweep = some (v, .swept n) ∧ v.population = w.population ∧
      Graph.Purged w.population.isAlive w.graph v.graph n ∧ v.step .sweep = some (v, .swept 0) ∧
      ∀ fs u bs, (∀ c, .drop c ∉ fs) → v.run fs = some (u, bs) →
        u.step .sweep = some ({ u with graph := { u.graph with fresh := 0 } }, .swept 0)) ∧
    ∀ (alive : ClassifierId → Bool) older younger context,
      (∀ c ∈ younger :: older, alive c.id = true) →
      let k := (w.graph.insertAll older younger context).1
      let r := w.graph.record alive older younger context
      (if k.sweepEvery ≤ k.fresh then Graph.Purged alive k r.1 r.2.swept
        else r.1 = k ∧ r.2.swept = 0) ∧
      r.1.Spared older younger r.2 := by
  have hw := genuine_run h
  have hswept := hw.sound.swept_sweep
  refine ⟨hw.sound.intact.purged_sweep, ⟨_, _, rfl, rfl, ?_, ?_, ?_⟩, ?_⟩
  · exact hw.sound.intact.purged_sweep _
  · rw [hw.sweep.step_sweep hswept, ← Graph.fresh_sweep w.graph w.population.isAlive]
  · intro fs u bs hfs hrun
    exact (hw.sweep.run hrun).step_sweep (hswept.run hw.sound.sweep hrun hfs)
  · intro alive older younger context halive
    exact ⟨hw.sound.intact.record_sweeps alive older younger context,
      hw.sound.intact.spared_record context halive⟩

/-- Two classifiers were held while a third one was taken, and one of the two has died. The graph is
swept after three new edges, and has two. -/
def orphaned : List Event :=
  [.create ⟨1, "A"⟩, .create ⟨2, "B"⟩, .create ⟨3, "C"⟩,
    .call (.record [⟨1, "A"⟩, ⟨3, "C"⟩] ⟨2, "B"⟩ ⟨"t", "first", none⟩), .drop ⟨3, "C"⟩]

/-- A fourth classifier comes in. -/
def joined : List Event :=
  [.create ⟨4, "D"⟩, .call (.record [⟨1, "A"⟩] ⟨4, "D"⟩ ⟨"t", "second", none⟩)]

/-- A sweep takes the dead classifier, and the next one takes nothing although more was recorded in
between. The record that closes the pair sweeps as well, and keeps what it reports. -/
theorem sweep_exact_orphaned :
    ∃ w as v u bs, (start 3).run orphaned = some (w, as) ∧ w.step .sweep = some (v, .swept 1) ∧
      (∀ c, Event.drop c ∉ joined) ∧ v.run joined = some (u, bs) ∧
      u.step .sweep = some ({ u with graph := { u.graph with fresh := 0 } }, .swept 0) ∧
      (∀ c ∈ [⟨1, "A"⟩, (⟨2, "B"⟩ : Classifier)], w.population.isAlive c.id = true) ∧
      let r := w.graph.record w.population.isAlive [⟨2, "B"⟩] ⟨1, "A"⟩ ⟨"u", "third", none⟩
      r.2.swept = 1 ∧ r.2.violations ≠ [] ∧ r.1.Spared [⟨2, "B"⟩] ⟨1, "A"⟩ r.2 := by
  have hrun : ((start 3).run orphaned).any (fun r =>
      ((r.1.step .sweep).any fun s => s.2 = .swept 1 && (s.1.run joined).isSome) &&
      [⟨1, "A"⟩, (⟨2, "B"⟩ : Classifier)].all (fun c => r.1.population.isAlive c.id) &&
      decide ((r.1.graph.record r.1.population.isAlive [⟨2, "B"⟩] ⟨1, "A"⟩
        ⟨"u", "third", none⟩).2.swept = 1) &&
      decide ((r.1.graph.record r.1.population.isAlive [⟨2, "B"⟩] ⟨1, "A"⟩
        ⟨"u", "third", none⟩).2.violations ≠ [])) = true := by
    decide +kernel
  obtain ⟨⟨w, as⟩, h, hw⟩ := (Option.any_eq_true _ _).mp hrun
  simp only [Bool.and_eq_true, Option.any_eq_true, decide_eq_true_iff, Option.isSome_iff_exists,
    List.all_eq_true] at hw
  obtain ⟨⟨⟨⟨⟨v, x⟩, hv, rfl, ⟨u, bs⟩, hu⟩, halive⟩, hswept⟩, hviolations⟩ := hw
  have hjoined : ∀ c, Event.drop c ∉ joined := by simp [joined]
  obtain ⟨-, ⟨v', n, hv', -, -, -, hlater⟩, hrecord⟩ := sweep_exact h
  rw [hv] at hv'
  cases hv'
  exact ⟨w, as, v, u, bs, h, hv, hjoined, hu, hlater joined u bs hjoined hu, halive, hswept,
    hviolations, (hrecord _ _ _ _ halive).2⟩

end World

end LockDiscipline.Order
