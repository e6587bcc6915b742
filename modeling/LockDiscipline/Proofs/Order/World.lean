import LockDiscipline.Order.Cycles
import LockDiscipline.Proofs.Order.Intact
import LockDiscipline.Proofs.Run

namespace LockDiscipline.Order

structure Population where
  /-- Every classifier that was made. -/
  born : List Classifier
  /-- The ids of those whose last handle is gone. -/
  dead : List ClassifierId
  deriving DecidableEq, Repr

namespace Population

def empty : Population := ⟨[], []⟩

def isAlive (p : Population) (a : ClassifierId) : Bool :=
  p.born.any (fun c => c.id == a) && !p.dead.contains a

/-- Whether there is a handle on the classifier. -/
def has (p : Population) (c : Classifier) : Bool := p.born.contains c && !p.dead.contains c.id

/-- A fresh classifier; there is none if the id was given before. -/
def create (p : Population) (c : Classifier) : Option Population :=
  if c.isIn p.born then none else some { p with born := c :: p.born }

/-- The last handle on a classifier goes. -/
def drop (p : Population) (c : Classifier) : Option Population :=
  if p.has c then some { p with dead := c.id :: p.dead } else none

theorem has_iff {p : Population} {c : Classifier} :
    p.has c = true ↔ c ∈ p.born ∧ c.id ∉ p.dead := by
  simp [has]

theorem isAlive_iff {p : Population} {a : ClassifierId} :
    p.isAlive a = true ↔ (∃ c ∈ p.born, c.id = a) ∧ a ∉ p.dead := by
  simp [isAlive]

theorem create_eq_some_iff {p q : Population} {c : Classifier} :
    p.create c = some q ↔ c.isIn p.born = false ∧ q = { p with born := c :: p.born } := by
  unfold create
  by_cases h : c.isIn p.born = true
  · simp [h]
  · rw [if_neg h, Option.some_inj]
    simp [h, eq_comm (a := q)]

theorem drop_eq_some_iff {p q : Population} {c : Classifier} :
    p.drop c = some q ↔ p.has c = true ∧ q = { p with dead := c.id :: p.dead } := by
  unfold drop
  by_cases h : p.has c = true
  · rw [if_pos h, Option.some_inj]
    simp [h, eq_comm (a := q)]
  · simp [h]

theorem has_create {p q : Population} {c d : Classifier} (h : p.create c = some q)
    (hd : p.has d = true) : q.has d = true := by
  obtain ⟨-, rfl⟩ := create_eq_some_iff.1 h
  obtain ⟨hborn, hdead⟩ := has_iff.1 hd
  exact has_iff.2 ⟨List.mem_cons_of_mem c hborn, hdead⟩

/-- A classifier keeps its handles when another one loses its last. -/
theorem has_drop {p q : Population} {c d : Classifier} (h : p.drop c = some q)
    (hd : p.has d = true) (hne : c.id ≠ d.id) : q.has d = true := by
  obtain ⟨-, rfl⟩ := drop_eq_some_iff.1 h
  obtain ⟨hborn, hdead⟩ := has_iff.1 hd
  refine has_iff.2 ⟨hborn, ?_⟩
  rw [List.mem_cons, not_or]
  exact ⟨hne.symm, hdead⟩

/-- No id is given twice. -/
theorem nodup_create {p q : Population} {c : Classifier} (h : p.create c = some q)
    (hids : (p.born.map (·.id)).Nodup) : (q.born.map (·.id)).Nodup := by
  obtain ⟨hnew, rfl⟩ := create_eq_some_iff.1 h
  refine List.nodup_cons.2 ⟨?_, hids⟩
  intro hmem
  obtain ⟨d, hd, hid⟩ := List.mem_map.1 hmem
  exact Classifier.isIn_eq_false_iff.1 hnew d hd hid

/-- Two graphs know the same about all classifiers that are not dead. -/
structure Agree (p : Population) (g k : Graph) : Prop where
  nodes : ∀ a, a ∉ p.dead → g.nodes[a]? = k.nodes[a]?
  edges : ∀ a b, a ∉ p.dead → b ∉ p.dead → g.edge? a b = k.edge? a b

namespace Agree

variable {p : Population} {g k l : Graph}

theorem refl (p : Population) (g : Graph) : p.Agree g g := ⟨fun _ _ => rfl, fun _ _ _ _ => rfl⟩

theorem symm (h : p.Agree g k) : p.Agree k g :=
  ⟨fun a ha => (h.nodes a ha).symm, fun a b ha hb => (h.edges a b ha hb).symm⟩

theorem trans (h : p.Agree g k) (h' : p.Agree k l) : p.Agree g l :=
  ⟨fun a ha => (h.nodes a ha).trans (h'.nodes a ha),
    fun a b ha hb => (h.edges a b ha hb).trans (h'.edges a b ha hb)⟩

/-- The more classifiers are dead, the less there is to agree about. -/
theorem mono (h : p.Agree g k) {q : Population} (hdead : ∀ a ∈ p.dead, a ∈ q.dead) :
    q.Agree g k :=
  ⟨fun a ha => h.nodes a (mt (hdead a) ha),
    fun a b ha hb => h.edges a b (mt (hdead a) ha) (mt (hdead b) hb)⟩

theorem hasEdge (h : p.Agree g k) {a b : ClassifierId} (ha : a ∉ p.dead) (hb : b ∉ p.dead) :
    g.hasEdge a b = k.hasEdge a b := by
  rw [Graph.hasEdge_eq_isSome, Graph.hasEdge_eq_isSome, h.edges a b ha hb]

/-- The known pairs follow from the edges. -/
theorem isKnown (h : p.Agree g k) (hg : g.Intact) (hk : k.Intact) {a b : ClassifierId}
    (ha : a ∉ p.dead) (hb : b ∉ p.dead) : g.isKnown a b = k.isKnown a b := by
  rw [Bool.eq_iff_iff, hg.known, hk.known, h.hasEdge ha hb, h.hasEdge hb ha]

end Agree

end Population

/-- What a graph is asked to do with handles on classifiers. -/
inductive Call where
  | record (older : List Classifier) (younger : Classifier) (context : Context)
  | missing (older : List Classifier) (younger : Classifier)
  | hasEdge (older younger : Classifier)
  | witness (older younger : Classifier)
  | isKnown (a b : Classifier)
  | cycles
  deriving DecidableEq, Repr

inductive Answer where
  | recorded (outcome : Outcome)
  | missing (cs : List Classifier)
  | decided (yes : Bool)
  | witness (w : Option Witness)
  | cycles (cs : List Cycle)
  | swept (dead : Nat)
  | done
  deriving DecidableEq, Repr

inductive Event where
  | create (c : Classifier)
  | drop (c : Classifier)
  | call (q : Call)
  | sweep
  deriving DecidableEq, Repr

/-- The classifiers a call mentions. -/
def Call.handles : Call → List Classifier
  | record older younger _ => younger :: older
  | missing older younger => younger :: older
  | hasEdge a b => [a, b]
  | witness a b => [a, b]
  | isKnown a b => [a, b]
  | cycles => []

/-- Carries out a call while `alive` tells which classifiers live. -/
def Graph.perform (alive : ClassifierId → Bool) (g : Graph) : Call → Graph × Answer
  | .record older younger context =>
    let (g, o) := g.record alive older younger context
    (g, .recorded o)
  | .missing older younger => (g, .missing (g.missing older younger))
  | .hasEdge a b => (g, .decided (g.hasEdge a.id b.id))
  | .witness a b => (g, .witness (g.edge? a.id b.id))
  | .isKnown a b => (g, .decided (g.isKnown a.id b.id))
  | .cycles => (g, .cycles (g.cycles alive))

structure World where
  population : Population
  graph : Graph
  deriving DecidableEq, Repr

namespace World

def start (sweepEvery : Nat) : World := ⟨.empty, .empty sweepEvery⟩

/-- What an event does; there is no answer if it cannot happen. -/
def step (w : World) : Event → Option (World × Answer)
  | .create c => (w.population.create c).map fun p => ({ w with population := p }, .done)
  | .drop c => (w.population.drop c).map fun p => ({ w with population := p }, .done)
  | .call q =>
    if q.handles.all w.population.has then
      let (g, a) := w.graph.perform w.population.isAlive q
      some ({ w with graph := g }, a)
    else none
  | .sweep =>
    some ({ w with graph := w.graph.sweep w.population.isAlive },
      .swept (w.graph.dead w.population.isAlive).size)

/-- The events one after another, with the answer to each. -/
def run (w : World) : List Event → Option (World × List Answer)
  | [] => some (w, [])
  | e :: es => do
    let (w, a) ← w.step e
    let (w, as) ← run w es
    return (w, a :: as)

theorem run_eq (w : World) (es : List Event) : w.run es = runWith step w es := by
  induction es generalizing w with
  | nil => rfl
  | cons e es ih =>
    simp only [run, runWith, ih, bind, pure]
    congr 1
    funext r
    cases runWith step r.1 es <;> rfl

theorem run_cons (w : World) (e : Event) (es : List Event) :
    w.run (e :: es) = (w.step e).bind fun r => (r.1.run es).map fun s => (s.1, r.2 :: s.2) := by
  simp only [run_eq]
  rfl

theorem run_concat {w v : World} {es : List Event} {e : Event} {as : List Answer}
    (h : w.run (es ++ [e]) = some (v, as)) :
    ∃ u bs a, w.run es = some (u, bs) ∧ u.step e = some (v, a) ∧ as = bs ++ [a] := by
  simp only [run_eq] at h ⊢
  exact exists_of_runWith_concat h

/-- What every event keeps holds after every run. -/
theorem run_induction {P : World → Prop} {w v : World} {es : List Event} {as : List Answer}
    (hw : P w) (next : ∀ u e u' a, P u → u.step e = some (u', a) → P u')
    (h : w.run es = some (v, as)) : P v := by
  rw [run_eq] at h
  exact runWith_induction (P := fun _ u _ => P u) hw
    (fun _ u _ e u' a _ hu hstep => next u e u' a hu hstep) h

theorem step_call {w v : World} {q : Call} {a : Answer} (h : w.step (.call q) = some (v, a)) :
    (∀ c ∈ q.handles, w.population.has c = true) ∧
      v = { w with graph := (w.graph.perform w.population.isAlive q).1 } ∧
        a = (w.graph.perform w.population.isAlive q).2 := by
  simp only [step] at h
  split at h
  · next hq =>
    cases h
    exact ⟨List.all_eq_true.1 hq, rfl, rfl⟩
  · cases h

/-- What every event keeps. -/
structure Sound (w : World) : Prop where
  intact : w.graph.Intact
  nodes : ∀ a n, w.graph.nodes[a]? = some n → ∃ c ∈ w.population.born, c.id = a ∧ n = .of c

theorem sound_start (every : Nat) : (start every).Sound :=
  ⟨Graph.intact_empty every, by simp [start, Graph.empty]⟩

namespace Sound

variable {w : World} {older : List Classifier} {younger : Classifier}

/-- A node that is not dead is alive. -/
theorem keeps_iff (hw : w.Sound) {a : ClassifierId} (ha : a ∉ w.population.dead) :
    w.graph.keeps w.population.isAlive a = w.graph.nodes.contains a := by
  unfold Graph.keeps
  cases hn : w.graph.nodes[a]? with
  | none =>
    rw [Std.ExtTreeMap.contains_eq_isSome_getElem?, hn, Option.isSome_none, Bool.false_and]
  | some n =>
    obtain ⟨c, hc, hid, -⟩ := hw.nodes a n hn
    have halive : w.population.isAlive a = true :=
      Population.isAlive_iff.2 ⟨⟨c, hc, hid⟩, ha⟩
    rw [halive, Bool.and_true]

theorem insertAll (hw : w.Sound) (context : Context) (hy : younger ∈ w.population.born)
    (ho : ∀ o ∈ older, o ∈ w.population.born) :
    Sound { w with graph := (w.graph.insertAll older younger context).1 } := by
  refine ⟨hw.intact.insertAll older younger context, ?_⟩
  intro a n h
  rw [(Graph.recorded_insertAll w.graph older younger context).nodes, Graph.nodes_addNode,
    Option.or_eq_some_iff, Option.or_eq_some_iff] at h
  rcases h with (h | ⟨-, h⟩) | ⟨-, h⟩
  · exact hw.nodes a n h
  · split at h
    · next hid => exact ⟨younger, hy, hid, (Option.some_inj.1 h).symm⟩
    · cases h
  · obtain ⟨o, hfind, rfl⟩ := Option.map_eq_some_iff.1 h
    exact ⟨o, ho o (List.mem_of_find?_eq_some hfind), by simpa using List.find?_some hfind, rfl⟩

theorem sweep (hw : w.Sound) :
    Sound { w with graph := w.graph.sweep w.population.isAlive } := by
  refine ⟨hw.intact.sweep _, ?_⟩
  intro a n h
  rw [hw.intact.nodes_sweep] at h
  split at h
  · exact hw.nodes a n h
  · cases h

theorem agree_sweep (hw : w.Sound) :
    w.population.Agree (w.graph.sweep w.population.isAlive) w.graph := by
  constructor
  · intro a ha
    rw [hw.intact.nodes_sweep]
    split
    · rfl
    · next hdead =>
      cases hn : w.graph.nodes[a]? with
      | none => rfl
      | some n =>
        obtain ⟨c, hc, hid, -⟩ := hw.nodes a n hn
        exact absurd (Population.isAlive_iff.2 ⟨⟨c, hc, hid⟩, ha⟩) hdead
  · intro a b ha hb
    rw [hw.intact.edge?_sweep, hw.keeps_iff ha, hw.keeps_iff hb]
    split
    · rfl
    · next hends =>
      rw [eq_comm, Graph.edge?_eq_none_iff, Bool.eq_false_iff]
      intro he
      obtain ⟨hna, hnb⟩ := hw.intact.ends a b he
      exact hends (by simp [hna, hnb])

/-- With handles on all it mentions, recording keeps the world sound, and apart from what is about
the dead it leaves what it leaves without its sweep. -/
theorem record (hw : w.Sound) (context : Context) (hy : younger ∈ w.population.born)
    (ho : ∀ o ∈ older, o ∈ w.population.born) :
    Sound { w with graph := (w.graph.record w.population.isAlive older younger context).1 } ∧
      w.population.Agree (w.graph.record w.population.isAlive older younger context).1
        (w.graph.insertAll older younger context).1 := by
  have h := hw.insertAll context hy ho
  rw [Graph.record_eq]
  dsimp only
  split
  · exact ⟨h.sweep, h.agree_sweep⟩
  · exact ⟨h, .refl _ _⟩

theorem step (hw : w.Sound) {e : Event} {v : World} {a : Answer} (h : w.step e = some (v, a)) :
    v.Sound := by
  cases e with
  | create c =>
    obtain ⟨p, hp, hv⟩ := Option.map_eq_some_iff.1 h
    cases hv
    obtain ⟨-, rfl⟩ := Population.create_eq_some_iff.1 hp
    refine ⟨hw.intact, fun a n hn => ?_⟩
    obtain ⟨d, hd, hnode⟩ := hw.nodes a n hn
    exact ⟨d, List.mem_cons_of_mem c hd, hnode⟩
  | drop c =>
    obtain ⟨p, hp, hv⟩ := Option.map_eq_some_iff.1 h
    cases hv
    obtain ⟨-, rfl⟩ := Population.drop_eq_some_iff.1 hp
    exact ⟨hw.intact, hw.nodes⟩
  | call q =>
    obtain ⟨hq, rfl, -⟩ := step_call h
    cases q with
    | record older younger context =>
      have hborn : ∀ c ∈ younger :: older, c ∈ w.population.born :=
        fun c hc => (Population.has_iff.1 (hq c hc)).1
      exact (hw.record context (hborn younger (by simp)) fun o ho => hborn o (by simp [ho])).1
    | missing => exact hw
    | hasEdge => exact hw
    | witness => exact hw
    | isKnown => exact hw
    | cycles => exact hw
  | sweep =>
    cases h
    exact hw.sweep

end Sound

theorem Sound.run {w v : World} (hw : w.Sound) {es : List Event} {as : List Answer}
    (h : w.run es = some (v, as)) : v.Sound :=
  run_induction hw (fun _ _ _ _ hu hstep => hu.step hstep) h

theorem sound_run {every : Nat} {es : List Event} {w : World} {as : List Answer}
    (h : (start every).run es = some (w, as)) : w.Sound :=
  (sound_start every).run h

end World

end LockDiscipline.Order
