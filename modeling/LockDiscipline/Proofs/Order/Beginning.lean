import LockDiscipline.Proofs.Order.Stacks
import LockDiscipline.Proofs.Order.Sweeping

namespace LockDiscipline.Order

namespace Graph

variable {g : Graph} {older : List Classifier} {younger : Classifier} {context : Context}

/-- Those from which there is no edge to the younger classifier. -/
def lacking (g : Graph) (older : List Classifier) (younger : Classifier) : List Classifier :=
  older.filter fun o => !g.hasEdge o.id younger.id

/-- The graph `k` is `g` with an edge from each of `older` to the younger classifier besides. -/
structure Extends (g : Graph) (older : List Classifier) (younger : Classifier) (context : Context)
    (k : Graph) : Prop where
  edges : ∀ a b w, k.edge? a b = some w ↔ g.edge? a b = some w ∨
    ∃ o ∈ older, o.id = a ∧ younger.id = b ∧ w = ⟨o, younger, context⟩
  nodes : ∀ a, k.nodes[a]? =
    (g.nodes[a]?).or (((younger :: older).find? fun c => c.id == a).map Node.of)
  known : ∀ a b, k.isKnown a b = true ↔ k.hasEdge a b = true ∧ k.hasEdge b a = true
  sweepEvery : k.sweepEvery = g.sweepEvery
  fresh : k.fresh = g.fresh + older.length

theorem missing_eq_lacking (h : ∀ o ∈ older, o.id ≠ younger.id) :
    g.missing older younger = g.lacking older younger := by
  unfold missing lacking
  apply List.filter_congr
  intro o ho
  simp [h o ho]

theorem inserted_insertAll (hids : (older.map (·.id)).Nodup)
    (hnew : ∀ o ∈ older, o.id ≠ younger.id ∧ g.hasEdge o.id younger.id = false) (context : Context) :
    (g.insertAll older younger context).2.inserted = older.map fun o => ⟨o, younger, context⟩ := by
  have hall : g.missing older younger = older :=
    List.filter_eq_self.2 fun o ho => by simp [hnew o ho]
  rw [(recorded_insertAll g older younger context).inserted, distinct_of_nodup hids, hall]

theorem Intact.extends_insertAll (hg : g.Intact) (hids : (older.map (·.id)).Nodup)
    (hnew : ∀ o ∈ older, o.id ≠ younger.id ∧ g.hasEdge o.id younger.id = false) (context : Context) :
    g.Extends older younger context (g.insertAll older younger context).1 := by
  have hs := recorded_insertAll g older younger context
  refine ⟨?_, ?_, (hg.insertAll older younger context).known, hs.sweepEvery, ?_⟩
  · intro a b w
    rw [hs.edge, Option.or_eq_some_iff]
    constructor
    · rintro (h | ⟨-, h⟩)
      · exact Or.inl h
      · rw [Option.ite_none_right_eq_some, Option.map_eq_some_iff] at h
        obtain ⟨⟨hb, -⟩, o, ho, rfl⟩ := h
        have hid := List.find?_some ho
        exact Or.inr ⟨o, List.mem_of_find?_eq_some ho, by simpa using hid, hb.symm, rfl⟩
    · rintro (h | ⟨o, ho, rfl, rfl, rfl⟩)
      · exact Or.inl h
      · obtain ⟨hne, hnone⟩ := hnew o ho
        rw [← distinct_of_nodup hids] at ho
        refine Or.inr ⟨edge?_eq_none_iff.2 hnone, ?_⟩
        rw [if_pos ⟨rfl, hne⟩, find?_of_mem_distinct ho]
        rfl
  · intro a
    rw [hs.nodes, nodes_addNode, Option.or_assoc]
    by_cases ha : younger.id = a
    · rw [List.find?_cons_of_pos (by simpa using ha)]
      simp [ha]
    · rw [List.find?_cons_of_neg (by simpa using ha)]
      simp [ha]
  · rw [hs.fresh, inserted_insertAll hids hnew context, List.length_map]

/-- What recording what it lacks makes of a graph. -/
structure Learnt (alive : ClassifierId → Bool) (g : Graph) (older : List Classifier)
    (younger : Classifier) (context : Context) (k : Graph) (o : Outcome) : Prop where
  inserted : o.inserted = (g.lacking older younger).map fun c => ⟨c, younger, context⟩
  /-- Without new edges the graph is left alone. -/
  idle : g.lacking older younger = [] → k = g
  /-- The graph is swept if it is time. -/
  grown : g.lacking older younger ≠ [] → ∃ l, g.Extends (g.lacking older younger) younger context l ∧
    if l.sweepEvery ≤ l.fresh then Purged alive l k o.swept else k = l ∧ o.swept = 0
  /-- No sweep takes a new edge. -/
  edges : ∀ c ∈ g.lacking older younger, k.edge? c.id younger.id = some ⟨c, younger, context⟩

theorem Intact.learnt_record (hg : g.Intact) {alive : ClassifierId → Bool}
    (hids : (older.map (·.id)).Nodup) (hne : ∀ o ∈ older, o.id ≠ younger.id)
    (halive : ∀ c ∈ younger :: older, alive c.id = true) (context : Context)
    (hsome : g.lacking older younger ≠ []) :
    let s := g.record alive (g.lacking older younger) younger context
    Learnt alive g older younger context s.1 s.2 := by
  have hsub : (g.lacking older younger).Sublist older := List.filter_sublist
  have hnew : ∀ o ∈ g.lacking older younger,
      o.id ≠ younger.id ∧ g.hasEdge o.id younger.id = false := by
    intro o ho
    obtain ⟨hmem, hnot⟩ := List.mem_filter.1 ho
    exact ⟨hne o hmem, by simpa using hnot⟩
  have hnodup := (hsub.map (·.id)).nodup hids
  have hinserted := (record_outcome alive g (g.lacking older younger) younger context).1.trans
    (inserted_insertAll hnodup hnew context)
  have hlive : ∀ c ∈ younger :: g.lacking older younger, alive c.id = true :=
    fun c hc => halive c ((hsub.cons_cons younger).subset hc)
  have hspared := hg.spared_record context hlive
  refine ⟨hinserted, fun hnone => absurd hnone hsome, ?_, ?_⟩
  · intro _
    exact ⟨_, hg.extends_insertAll hnodup hnew context, hg.record_sweeps alive _ _ _⟩
  · intro c hc
    refine hspared.inserted ⟨c, younger, context⟩ ?_
    rw [hinserted]
    exact List.mem_map_of_mem hc

end Graph

namespace Detector

inductive Use where
  | act (a : Act)
  /-- Something is recorded in a graph without a recorder. -/
  | record (alive : ClassifierId → Bool) (graph : Nat) (older : List Classifier)
      (younger : Classifier) (context : Context)

/-- A recorder is set up with a graph that is there. -/
def Act.fits (d : Detector) : Act → Bool
  | .addRecorder graph .. => graph < d.graphs.length
  | _ => true

/-- Nothing if it cannot happen. -/
def use (d : Detector) : Use → Option (Detector × Reply)
  | .act a => if a.fits d then some (d.step a) else none
  | .record alive i older younger context =>
    some (d.setGraph i ((d.graphAt i).record alive older younger context).1, .done)

variable {d v : Detector} {pinned held : ClassifierId → Bool} {thread : Thread} {site : String}
  {r : Nat} {q : Recorder} {candidate : Classifier} {older : List Classifier} {x : Reply} {es : List Use}
  {xs : List Reply}

/-- What all of it keeps. -/
structure Sound (d : Detector) : Prop where
  tidy : d.Tidy
  intact : ∀ i, (d.graphAt i).Intact
  founded : ∀ role ∈ d.recorders.map Recorder.role, role.1 < d.graphs.length

theorem sound_empty : empty.Sound := by
  refine ⟨tidy_empty, fun _ => Graph.intact_empty Graph.standardSweep, ?_⟩
  intro role hrole
  cases hrole

namespace Sound

theorem setGraph (hd : d.Sound) (i : Nat) {g : Graph} (hg : g.Intact) : (d.setGraph i g).Sound := by
  refine ⟨hd.tidy.of_held rfl rfl (Nat.le_refl _), ?_, ?_⟩
  · intro j
    rw [graphAt_setGraph]
    split
    · exact hg
    · exact hd.intact j
  · rw [Detector.setGraph, List.length_set]
    exact hd.founded

theorem step (hd : d.Sound) {a : Act} (ha : a.fits d = true) : (d.step a).1.Sound := by
  have htidy := hd.tidy.step a
  cases a with
  | addGraph sweepEvery =>
    refine ⟨htidy, ?_, ?_⟩
    · intro i
      rw [Detector.step, graphAt_addGraph]
      split
      · exact Graph.intact_empty sweepEvery
      · exact hd.intact i
    · intro role hrole
      rw [Detector.step, List.length_append]
      exact Nat.lt_add_right _ (hd.founded role hrole)
  | addRecorder graph settings probe sink =>
    refine ⟨htidy, hd.intact, ?_⟩
    intro role hrole
    rw [Detector.step, List.map_append, List.mem_append] at hrole
    rcases hrole with hrole | hrole
    · exact hd.founded role hrole
    · rw [List.map_singleton, List.mem_singleton] at hrole
      rw [hrole]
      exact of_decide_eq_true ha
  | begin pinned held t r c site =>
    obtain ⟨hgraphs, hroles⟩ := begin_frame d pinned held t r c site
    refine ⟨htidy, intact_begin hd.intact, ?_⟩
    change ∀ role ∈ (d.begin pinned held t r c site).1.recorders.map Recorder.role,
      role.1 < (d.begin pinned held t r c site).1.graphs.length
    rw [hgraphs, hroles]
    exact hd.founded
  | sweep alive i => exact hd.setGraph i ((hd.intact i).sweep alive)
  | addSink | endThread => exact ⟨htidy, hd.intact, hd.founded⟩
  | release t r c =>
    rw [Detector.step] at htidy ⊢
    rcases release_eq_or d t r c with ⟨hr, -⟩ | ⟨hr, -⟩ <;> rw [hr] at htidy ⊢
    · exact hd
    · exact ⟨htidy, hd.intact, hd.founded⟩
  | dropRecorder t r =>
    rw [Detector.step] at htidy ⊢
    rcases dropRecorder_eq_or d t r with ⟨hr, -⟩ | ⟨hr, -⟩ <;> rw [hr] at htidy ⊢
    · exact hd
    · exact ⟨htidy, hd.intact, hd.founded⟩
  | drain i =>
    unfold Detector.step
    dsimp only
    split
    · exact hd
    · exact ⟨hd.tidy.of_held rfl rfl (Nat.le_refl _), hd.intact, hd.founded⟩

theorem use (hd : d.Sound) {e : Use} (h : d.use e = some (v, x)) : v.Sound := by
  cases e with
  | act a =>
    rw [Detector.use, Option.ite_none_right_eq_some, Option.some_inj] at h
    obtain ⟨ha, hstep⟩ := h
    have hsound := hd.step ha
    rw [hstep] at hsound
    exact hsound
  | record alive i older younger context =>
    cases h
    exact hd.setGraph i ((hd.intact i).record _ _ _ _)

end Sound

theorem sound_run (h : runWith use empty es = some (d, xs)) : d.Sound :=
  runWith_induction (P := fun _ d _ => d.Sound) sound_empty
    (fun _ _ _ _ _ _ _ hu hstep => hu.use hstep) h

/-- What an acquisition does that is taken afresh: `kept` is what stays on the stack. -/
structure Taken (pinned : ClassifierId → Bool) (d : Detector) (thread : Thread) (r : Nat)
    (q : Recorder) (kept : List Classifier) (candidate : Classifier) (site : String)
    (v : Detector) (b : Began) : Prop where
  stack : v.stackOf thread r = kept ++ [candidate]
  confined : Confined thread r d v
  others : ∀ i, i ≠ q.graph → v.graphAt i = d.graphAt i
  learnt : Graph.Learnt (fun a => pinned a || v.onStack a) (d.graphAt q.graph) kept candidate
    (seenAt q thread site) (v.graphAt q.graph) b.outcome
  lock : b.lock = b.verdict.yields candidate
  /-- Only a violation may stop the thread. -/
  returned : b.outcome.violations = [] → b.verdict = .returned

theorem onStack_recordEdges (pinned : ClassifierId → Bool) (d : Detector) (thread : Thread)
    (r : Nat) (q : Recorder) (older : List Classifier) (candidate : Classifier) (site : String) :
    (recordEdges pinned d thread r q older candidate site).1.onStack = d.onStack := by
  funext a
  unfold onStack
  rw [(recordEdges_frame pinned d thread r q older candidate site).1]

theorem learnt_recordEdges (hq : q.graph < d.graphs.length) (hg : (d.graphAt q.graph).Intact)
    (hids : (older.map (·.id)).Nodup) (hne : ∀ o ∈ older, o.id ≠ candidate.id)
    (hstack : ∀ c ∈ candidate :: older, d.onStack c.id = true) (pinned : ClassifierId → Bool)
    (thread : Thread) (r : Nat) (site : String) :
    let s := recordEdges pinned d thread r q older candidate site
    Graph.Learnt (fun a => pinned a || d.onStack a) (d.graphAt q.graph) older candidate
      (seenAt q thread site) (s.1.graphAt q.graph) s.2.outcome := by
  have hmissing := Graph.missing_eq_lacking (g := d.graphAt q.graph) hne
  have halive : ∀ c ∈ candidate :: older, (pinned c.id || d.onStack c.id) = true := by
    intro c hc
    rw [hstack c hc, Bool.or_true]
  dsimp only
  by_cases h : (d.graphAt q.graph).lacking older candidate = []
  · rw [recordEdges_none (hmissing.trans h)]
    refine ⟨by rw [h]; rfl, fun _ => rfl, fun hsome => absurd h hsome, ?_⟩
    intro c hc
    rw [h] at hc
    cases hc
  · have hgraph := graphAt_recordEdges pinned d thread r q older candidate site q.graph
    rw [hmissing, if_pos ⟨rfl, hq, h⟩] at hgraph
    rw [hgraph, recordEdges_some (by rwa [hmissing]), hmissing]
    exact hg.learnt_record hids hne halive (seenAt q thread site) h

theorem lock_recordEdges (pinned : ClassifierId → Bool) (d : Detector) (thread : Thread)
    (r : Nat) (q : Recorder) (older : List Classifier) (candidate : Classifier) (site : String) :
    let s := recordEdges pinned d thread r q older candidate site
    s.2.lock = s.2.verdict.yields candidate := by
  by_cases h : (d.graphAt q.graph).missing older candidate = []
  · rw [recordEdges_none h]
    rfl
  · rw [recordEdges_some h]

theorem returned_recordEdges (pinned : ClassifierId → Bool) (d : Detector) (thread : Thread)
    (r : Nat) (q : Recorder) (older : List Classifier) (candidate : Classifier) (site : String) :
    let s := recordEdges pinned d thread r q older candidate site
    s.2.outcome.violations = [] → s.2.verdict = .returned := by
  by_cases h : (d.graphAt q.graph).missing older candidate = []
  · rw [recordEdges_none h]
    exact fun _ => rfl
  · rw [recordEdges_some h]
    dsimp only
    intro hnone
    rw [hnone]
    rfl

/-- What the thread holds is on its stack while the graph learns, so no sweep takes it. -/
theorem Sound.taken (hd : d.Sound) (hq : d.recorders[r]? = some q)
    (hgone : d.isGone thread = false)
    (hc : (candidate.isIn (d.stackOf thread r) && held candidate.id) = false)
    (pinned : ClassifierId → Bool) (site : String) :
    let s := d.begin pinned held thread r candidate site
    Taken pinned d thread r q ((d.stackOf thread r).filter fun o => held o.id) candidate site
      s.1 s.2 := by
  have hgraph : q.graph < d.graphs.length :=
    hd.founded q.role (List.mem_map_of_mem (List.mem_of_getElem? hq))
  have hpush := nodup_push (hd.tidy.single thread r) hc
  rw [List.map_append, List.nodup_append] at hpush
  obtain ⟨hids, -, hdisjoint⟩ := hpush
  have hconfined := confined_begin d pinned held thread r candidate site
  obtain ⟨note, -, hbegin⟩ := begin_onto pinned site hq hgone hc
  generalize (d.stackOf thread r).filter (fun o => held o.id) = kept at *
  have hne : ∀ o ∈ kept, o.id ≠ candidate.id :=
    fun o ho => hdisjoint o.id (List.mem_map_of_mem ho) candidate.id (by simp)
  have hpushed : (d.setStack thread r (kept ++ [candidate])).stackOf thread r =
      kept ++ [candidate] := by
    rw [stackOf_setStack, if_pos rfl]
  have hstack : ∀ c ∈ candidate :: kept,
      (d.setStack thread r (kept ++ [candidate])).onStack c.id = true := by
    intro c hmem
    refine onStack_of_mem (u := thread) (p := r) ?_
    rw [hpushed]
    simpa [or_comm] using hmem
  rw [hbegin] at hconfined ⊢
  refine ⟨?_, hconfined, ?_, ?_, lock_recordEdges _ _ _ _ _ _ _ _,
    returned_recordEdges _ _ _ _ _ _ _ _⟩
  · exact (stackOf_recordEdges _ _ _ _ _ _ _ _ _ _).trans hpushed
  · intro i hi
    refine (graphAt_recordEdges _ _ _ _ _ _ _ _ _).trans ?_
    rw [if_neg fun h => hi h.1]
    rfl
  · have hlearnt := learnt_recordEdges (d := d.setStack thread r (kept ++ [candidate])) hgraph
      (hd.intact q.graph) hids hne hstack pinned thread r site
    dsimp only at hlearnt ⊢
    rw [onStack_recordEdges]
    exact hlearnt

/-- In every state: an acquisition of what is on the stack and held changes nothing and logs
nothing, and so does any on a thread whose local storage is gone, which has no stack. Any other one
leaves on the stack what is held, in its order, below the candidate, and adds the edges to the
candidate that are not there from what stays on the stack. An acquisition that returns gives back
its candidate; no new edge comes from what is not held or from another stack. -/
theorem begin_exact (h : runWith use empty es = some (d, xs)) (hq : d.recorders[r]? = some q)
    (pinned held : ClassifierId → Bool) (t : Thread) (c : Classifier) (site : String) :
    let stack := d.stackOf t r
    let kept := stack.filter fun o => held o.id
    let s := d.begin pinned held t r c site
    (if d.isGone t = true ∨ (c.isIn stack && held c.id) = true then s = (d, Began.nothing c)
      else Taken pinned d t r q kept c site s.1 s.2) ∧
    (d.isGone t = true → stack = []) ∧
    (s.2.verdict = .returned → s.2.lock = some c) ∧
    (∀ w ∈ s.2.outcome.inserted, w.older ∈ kept) ∧
    ∀ i a b, (s.1.graphAt i).hasEdge a b = true → (d.graphAt i).hasEdge a b = false →
      i = q.graph ∧ b = c.id ∧ ∃ o ∈ stack, held o.id = true ∧ o.id = a := by
  have hd := sound_run h
  have hgone := hd.tidy.gone t r
  dsimp only
  by_cases hidle : d.isGone t = true ∨ (c.isIn (d.stackOf t r) && held c.id) = true
  · have hnothing : d.begin pinned held t r c site = (d, Began.nothing c) :=
      hidle.elim begin_gone (begin_again hq)
    rw [hnothing, if_pos hidle]
    refine ⟨rfl, hgone, fun _ => rfl, ?_, ?_⟩
    · intro w hw
      cases hw
    · intro i a b hedge hnone
      rw [hnone] at hedge
      cases hedge
  · rw [not_or, Bool.not_eq_true, Bool.not_eq_true] at hidle
    have htaken := hd.taken hq hidle.1 hidle.2 pinned site
    rw [if_neg (by simp [hidle])]
    refine ⟨htaken, hgone, ?_, ?_, ?_⟩
    · intro hreturned
      rw [htaken.lock, hreturned]
      rfl
    · intro w hw
      rw [htaken.learnt.inserted] at hw
      obtain ⟨o, ho, rfl⟩ := List.mem_map.1 hw
      exact (List.mem_filter.1 ho).1
    · intro i a b hedge hnone
      have hi : i = q.graph := by
        by_contra hi
        rw [htaken.others i hi, hnone] at hedge
        cases hedge
      rcases of_hasEdge_begin hedge with hold | ⟨hb, o, ho, hheld, ha⟩
      · rw [hnone] at hold
        cases hold
      · exact ⟨hi, hb, o, ho, hheld, ha⟩

/-- A destructor that runs after the stacks of its thread takes a lock: the acquisition is not
recorded, though the lock was not held. -/
theorem begin_unrecorded :
    ∃ d xs, runWith use empty [.act (.addGraph 8),
        .act (.addRecorder 0 ⟨false, false, false, 8⟩ .monitor none),
        .act (.endThread ⟨1, "t"⟩)] = some (d, xs) ∧ (d.recorders[0]?).isSome = true ∧
      let s := d.begin (fun _ => true) (fun _ => false) ⟨1, "t"⟩ 0 ⟨1, "A"⟩ "here"
      (⟨1, "A"⟩ : Classifier).isIn (d.stackOf ⟨1, "t"⟩ 0) = false ∧
      s.1.stackOf ⟨1, "t"⟩ 0 ≠ (d.stackOf ⟨1, "t"⟩ 0).filter (fun _ => false) ++ [⟨1, "A"⟩] :=
  ⟨_, _, rfl, rfl, rfl, by decide⟩

/-- Two threads on one graph. The first one holds three locks; from the third of them to a fourth
there is an edge already. Four edges are there, and a fifth one makes the graph sweep. -/
def layered : List Use :=
  [.act (.addGraph 5), .act (.addRecorder 0 ⟨true, false, false, 5⟩ .monitor none),
    .act (.addRecorder 0 ⟨false, false, true, 5⟩ .monitor none),
    .act (.begin (fun _ => false) (fun _ => true) ⟨1, "t"⟩ 0 ⟨1, "A"⟩ "first"),
    .act (.begin (fun _ => false) (fun _ => true) ⟨1, "t"⟩ 0 ⟨2, "B"⟩ "second"),
    .act (.begin (fun _ => false) (fun _ => true) ⟨1, "t"⟩ 0 ⟨3, "C"⟩ "third"),
    .act (.begin (fun _ => false) (fun _ => true) ⟨2, "u"⟩ 1 ⟨5, "E"⟩ "fourth"),
    .record (fun _ => true) 0 [⟨3, "C"⟩] ⟨4, "D"⟩ ⟨"u", "fifth", none⟩]

/-- The second lock was let go unnoticed. Taking the fourth drops it and adds one edge, from the
first lock; the sweep takes the one that was dropped. -/
theorem begin_exact_layered :
    ∃ d xs q, runWith use empty layered = some (d, xs) ∧ d.recorders[0]? = some q ∧
      let s := d.begin (fun _ => false) (fun a => a ≠ 2) ⟨1, "t"⟩ 0 ⟨4, "D"⟩ "sixth"
      d.stackOf ⟨1, "t"⟩ 0 = [⟨1, "A"⟩, ⟨2, "B"⟩, ⟨3, "C"⟩] ∧
      Taken (fun _ => false) d ⟨1, "t"⟩ 0 q [⟨1, "A"⟩, ⟨3, "C"⟩] ⟨4, "D"⟩ "sixth" s.1 s.2 ∧
      s.2.outcome.inserted = [⟨⟨1, "A"⟩, ⟨4, "D"⟩, ⟨"t", "sixth", some "<backtrace>"⟩⟩] ∧
      s.2.outcome.swept = 1 ∧ s.2.lock = some ⟨4, "D"⟩ := by
  have hrun : (runWith use empty layered).any (fun r =>
      (r.1.recorders[0]?).isSome && decide (r.1.isGone ⟨1, "t"⟩ = false) &&
      decide (r.1.stackOf ⟨1, "t"⟩ 0 = [⟨1, "A"⟩, ⟨2, "B"⟩, ⟨3, "C"⟩]) &&
      let s := r.1.begin (fun _ => false) (fun a => a ≠ 2) ⟨1, "t"⟩ 0 ⟨4, "D"⟩ "sixth"
      decide (s.2.outcome.inserted = [⟨⟨1, "A"⟩, ⟨4, "D"⟩, ⟨"t", "sixth", some "<backtrace>"⟩⟩]) &&
      decide (s.2.outcome.swept = 1) && decide (s.2.verdict = .returned)) = true := by
    decide +kernel
  obtain ⟨⟨d, xs⟩, h, hd⟩ := (Option.any_eq_true _ _).mp hrun
  simp only [Bool.and_eq_true, decide_eq_true_iff, Option.isSome_iff_exists] at hd
  obtain ⟨⟨⟨⟨q, hq⟩, hgone⟩, hstack⟩, ⟨hinserted, hswept⟩, hreturned⟩ := hd
  obtain ⟨hcase, -, hlock, -, -⟩ :=
    begin_exact h hq (fun _ => false) (fun a => a ≠ 2) ⟨1, "t"⟩ ⟨4, "D"⟩ "sixth"
  rw [hstack, hgone, if_neg (by decide)] at hcase
  exact ⟨d, xs, q, h, hq, hstack, hcase, hinserted, hswept, hlock hreturned⟩

end Detector

end LockDiscipline.Order
