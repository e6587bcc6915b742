import LockDiscipline.Proofs.Order.World
import Mathlib.Data.List.Nodup

namespace LockDiscipline.Order

namespace Graph

variable {g : Graph} {older : List Classifier} {younger : Classifier} {context : Context}

theorem sweepEvery_record (alive : ClassifierId → Bool) (g : Graph) (older : List Classifier)
    (younger : Classifier) (context : Context) :
    (g.record alive older younger context).1.sweepEvery = g.sweepEvery := by
  have hs := (recorded_insertAll g older younger context).sweepEvery
  rw [record_eq]
  dsimp only
  split
  · rw [sweepEvery_sweep, hs]
  · exact hs

theorem fresh_record (hg : 0 < g.sweepEvery) (alive : ClassifierId → Bool) :
    (g.record alive older younger context).1.fresh < g.sweepEvery := by
  have hs := (recorded_insertAll g older younger context).sweepEvery
  rw [record_eq]
  dsimp only
  split
  · rw [fresh_sweep]
    exact hg
  · next h =>
    rw [hs] at h
    exact Nat.lt_of_not_le h

theorem of_edge?_record {alive : ClassifierId → Bool} {a b : ClassifierId} {x : Witness}
    (h : (g.record alive older younger context).1.edge? a b = some x) :
    g.edge? a b = some x ∨ x.younger = younger ∧ x.older ∈ older := by
  have hs := recorded_insertAll g older younger context
  have hin : (g.insertAll older younger context).1.edge? a b = some x := by
    rw [record_eq] at h
    dsimp only at h
    split at h
    · exact of_edge?_sweep h
    · exact h
  rw [hs.edge, Option.or_eq_some_iff] at hin
  rcases hin with hin | ⟨-, hin⟩
  · exact Or.inl hin
  · split at hin
    · obtain ⟨o, ho, rfl⟩ := Option.map_eq_some_iff.1 hin
      exact Or.inr ⟨rfl, List.mem_of_find?_eq_some ho⟩
    · cases hin

end Graph

namespace World

/-- What every event keeps, in terms of the classifiers that were made. -/
structure Genuine (every : Nat) (w : World) : Prop where
  sound : w.Sound
  ids : (w.population.born.map (·.id)).Nodup
  evidence : ∀ a b x, w.graph.edge? a b = some x →
    x.older ∈ w.population.born ∧ x.younger ∈ w.population.born
  clamped : w.graph.sweepEvery = max 1 every
  due : w.graph.fresh < w.graph.sweepEvery

namespace Genuine

variable {every : Nat} {w v : World} {e : Event} {x : Answer}

theorem start (every : Nat) : Genuine every (World.start every) := by
  refine ⟨sound_start every, ?_, ?_, rfl, ?_⟩
  · simp [World.start, Population.empty]
  · simp [World.start, Graph.empty, Graph.edge?]
  · exact Nat.lt_of_lt_of_le Nat.zero_lt_one (Nat.le_max_left 1 every)

/-- An id names one classifier. -/
theorem eq_of_id (hw : Genuine every w) {c d : Classifier} (hc : c ∈ w.population.born)
    (hd : d ∈ w.population.born) (h : c.id = d.id) : c = d :=
  List.inj_on_of_nodup_map hw.ids hc hd h

theorem sweep (hw : Genuine every w) :
    Genuine every { w with graph := w.graph.sweep w.population.isAlive } := by
  refine ⟨hw.sound.sweep, hw.ids, ?_, ?_, ?_⟩
  · exact fun a b x hx => hw.evidence a b x (Graph.of_edge?_sweep hx)
  · exact (Graph.sweepEvery_sweep _ _).trans hw.clamped
  · rw [Graph.fresh_sweep, Graph.sweepEvery_sweep]
    exact Nat.zero_lt_of_lt hw.due

theorem record (hw : Genuine every w) {older : List Classifier} {younger : Classifier}
    (context : Context) (hy : younger ∈ w.population.born)
    (ho : ∀ o ∈ older, o ∈ w.population.born) :
    Genuine every { w with
      graph := (w.graph.record w.population.isAlive older younger context).1 } := by
  have hpos : 0 < w.graph.sweepEvery := Nat.zero_lt_of_lt hw.due
  have hevery := Graph.sweepEvery_record w.population.isAlive w.graph older younger context
  refine ⟨(hw.sound.record context hy ho).1, hw.ids, ?_, ?_, ?_⟩
  · intro a b x hx
    rcases Graph.of_edge?_record hx with hx | ⟨hyounger, holder⟩
    · exact hw.evidence a b x hx
    · exact ⟨ho _ holder, by rw [hyounger]; exact hy⟩
  · rw [hevery, hw.clamped]
  · rw [hevery]
    exact Graph.fresh_record hpos _

theorem step (hw : Genuine every w) (h : w.step e = some (v, x)) : Genuine every v := by
  cases e with
  | create c =>
    obtain ⟨p, hp, hv⟩ := Option.map_eq_some_iff.1 h
    cases hv
    have hsound := hw.sound.step h
    have hids := Population.nodup_create hp hw.ids
    obtain ⟨-, rfl⟩ := Population.create_eq_some_iff.1 hp
    refine ⟨hsound, hids, ?_, hw.clamped, hw.due⟩
    intro a b x hx
    obtain ⟨holder, hyounger⟩ := hw.evidence a b x hx
    exact ⟨List.mem_cons_of_mem _ holder, List.mem_cons_of_mem _ hyounger⟩
  | drop c =>
    obtain ⟨p, hp, hv⟩ := Option.map_eq_some_iff.1 h
    cases hv
    have hsound := hw.sound.step h
    obtain ⟨-, rfl⟩ := Population.drop_eq_some_iff.1 hp
    exact ⟨hsound, hw.ids, hw.evidence, hw.clamped, hw.due⟩
  | call q =>
    obtain ⟨hq, rfl, -⟩ := step_call h
    cases q with
    | record older younger context =>
      have hborn : ∀ c ∈ younger :: older, c ∈ w.population.born :=
        fun c hc => (Population.has_iff.1 (hq c hc)).1
      exact hw.record context (hborn younger (by simp)) fun o ho => hborn o (by simp [ho])
    | missing | hasEdge | witness | isKnown | cycles => exact hw
  | sweep =>
    cases h
    exact hw.sweep

theorem run (hw : Genuine every w) {es : List Event} {as : List Answer}
    (h : w.run es = some (v, as)) : Genuine every v :=
  run_induction hw (fun _ _ _ _ hu hstep => hu.step hstep) h

end Genuine

theorem genuine_run {every : Nat} {es : List Event} {w : World} {as : List Answer}
    (h : (start every).run es = some (w, as)) : Genuine every w :=
  (Genuine.start every).run h

/-- How the parts of the graph fit together, and what they have to do with the classifiers. -/
structure Represents (every : Nat) (w : World) : Prop where
  loopless : ∀ a, w.graph.edge? a a = none
  ends : ∀ a b x, w.graph.edge? a b = some x → a ∈ w.graph.nodes ∧ b ∈ w.graph.nodes
  /-- A witness is about the two classifiers it is kept for, and calls them by their names. -/
  evidence : ∀ a b x, w.graph.edge? a b = some x →
    (x.older.id = a ∧ x.older ∈ w.population.born ∧ w.graph.nodes[a]? = some (.of x.older)) ∧
      x.younger.id = b ∧ x.younger ∈ w.population.born ∧
        w.graph.nodes[b]? = some (.of x.younger)
  /-- A node has the name and the key of the one classifier that ever had its id, and counts as dead
  iff that one is. -/
  owners : ∀ a n, w.graph.nodes[a]? = some n →
    ∃ c ∈ w.population.born, c.id = a ∧ n.name = c.name ∧ n.key.id = a ∧ n.key.target = c ∧
      (∀ d ∈ w.population.born, d.id = a → d = c) ∧
        (a ∈ w.graph.dead w.population.isAlive ↔ w.population.has c = false)
  pairs : ∀ p, p ∈ w.graph.known ↔ ∃ a b, a ≠ b ∧ p = Pair.of a b ∧
    w.graph.hasEdge a b = true ∧ w.graph.hasEdge b a = true
  due : w.graph.fresh < w.graph.sweepEvery
  clamped : w.graph.sweepEvery = max 1 every

namespace Genuine

variable {every : Nat} {w : World}

theorem nodes_eq (hw : Genuine every w) {c : Classifier} (hc : c ∈ w.population.born)
    (hn : c.id ∈ w.graph.nodes) : w.graph.nodes[c.id]? = some (.of c) := by
  obtain ⟨n, hnode⟩ := Option.isSome_iff_exists.1 (Std.ExtTreeMap.mem_iff_isSome_getElem?.1 hn)
  obtain ⟨d, hd, hid, rfl⟩ := hw.sound.nodes c.id n hnode
  rw [hnode, hw.eq_of_id hd hc hid]

/-- The nodes that a sweep would take are those whose classifier has no handle. -/
theorem mem_dead_iff (hw : Genuine every w) {c : Classifier} (hc : c ∈ w.population.born)
    (hn : w.graph.nodes[c.id]? = some (.of c)) :
    c.id ∈ w.graph.dead w.population.isAlive ↔ w.population.has c = false := by
  have halive : w.population.isAlive c.id = w.population.has c := by
    rw [Bool.eq_iff_iff, Population.isAlive_iff, Population.has_iff]
    exact and_congr_left fun _ => ⟨fun _ => hc, fun _ => ⟨_, hc, rfl⟩⟩
  rw [← Std.ExtTreeMap.contains_iff_mem, hw.sound.intact.contains_dead, halive,
    Std.ExtTreeMap.contains_eq_isSome_getElem?, hn]
  cases w.population.has c <;> simp

theorem represents (hw : Genuine every w) : Represents every w := by
  have hends : ∀ a b x, w.graph.edge? a b = some x → a ∈ w.graph.nodes ∧ b ∈ w.graph.nodes :=
    fun a b x hx => hw.sound.intact.ends a b (Graph.hasEdge_iff.2 ⟨x, hx⟩)
  refine ⟨?_, hends, ?_, ?_, ?_, hw.due, hw.clamped⟩
  · intro a
    exact Graph.edge?_eq_none_iff.2 (hw.sound.intact.loopless a)
  · intro a b x hx
    obtain ⟨holder, hyounger⟩ := hw.evidence a b x hx
    obtain ⟨rfl, rfl⟩ := hw.sound.intact.orders a b x hx
    obtain ⟨ha, hb⟩ := hends _ _ x hx
    exact ⟨⟨rfl, holder, hw.nodes_eq holder ha⟩, rfl, hyounger, hw.nodes_eq hyounger hb⟩
  · intro a n hn
    obtain ⟨c, hc, rfl, rfl⟩ := hw.sound.nodes a n hn
    exact ⟨c, hc, rfl, rfl, rfl, rfl, fun d hd hid => hw.eq_of_id hd hc hid, hw.mem_dead_iff hc hn⟩
  · intro p
    constructor
    · intro hp
      obtain ⟨a, b, rfl⟩ := hw.sound.intact.pairs p hp
      obtain ⟨hab, hba⟩ := (hw.sound.intact.known a b).1 (Std.ExtTreeSet.contains_iff_mem.2 hp)
      refine ⟨a, b, ?_, rfl, hab, hba⟩
      rintro rfl
      rw [hw.sound.intact.loopless] at hab
      cases hab
    · rintro ⟨a, b, -, rfl, hab, hba⟩
      exact Std.ExtTreeSet.contains_iff_mem.1 ((hw.sound.intact.known a b).2 ⟨hab, hba⟩)

end Genuine

/-- In every state that records and sweeps lead to, between the births and deaths of classifiers,
the parts of the graph fit together. -/
theorem represents_run {every : Nat} {es : List Event} {w : World} {as : List Answer}
    (h : (start every).run es = some (w, as)) : Represents every w :=
  (genuine_run h).represents

/-- A pair that was seen in both orders and a third classifier, which dies and is not swept yet. -/
def widowed : List Event :=
  [.create ⟨1, "A"⟩, .create ⟨2, "B"⟩, .create ⟨3, "C"⟩,
    .call (.record [⟨1, "A"⟩, ⟨3, "C"⟩] ⟨2, "B"⟩ ⟨"t", "first", none⟩),
    .call (.record [⟨2, "B"⟩] ⟨1, "A"⟩ ⟨"u", "second", none⟩), .drop ⟨3, "C"⟩]

theorem represents_run_widowed :
    ∃ w as, (start 8).run widowed = some (w, as) ∧ Represents 8 w ∧
      Pair.of 1 2 ∈ w.graph.known ∧ 3 ∈ w.graph.dead w.population.isAlive := by
  have hrun : ((start 8).run widowed).any (fun r => r.1.graph.hasEdge 1 2 &&
      r.1.graph.hasEdge 2 1 && r.1.graph.nodes[(3 : ClassifierId)]? == some (.of ⟨3, "C"⟩) &&
        !r.1.population.has ⟨3, "C"⟩) = true := by
    decide +kernel
  obtain ⟨⟨w, as⟩, h, hrest⟩ := (Option.any_eq_true _ _).mp hrun
  simp only [Bool.and_eq_true, Bool.not_eq_true', beq_iff_eq] at hrest
  obtain ⟨⟨⟨hab, hba⟩, hnode⟩, hgone⟩ := hrest
  have hrep := represents_run h
  refine ⟨w, as, h, hrep, ?_, ?_⟩
  · exact (hrep.pairs _).2 ⟨1, 2, by decide, rfl, hab, hba⟩
  · obtain ⟨c, -, -, -, -, rfl, -, hdead⟩ := hrep.owners 3 _ hnode
    exact hdead.2 hgone

end World

end LockDiscipline.Order
