import LockDiscipline.Proofs.Order.Acts
import LockDiscipline.Proofs.Order.FirstEvidence
import LockDiscipline.Table
import LockDiscipline.Thread

namespace LockDiscipline.Order

namespace Graph

variable {g k : Graph} {older : List Classifier} {younger : Classifier} {context : Context}

theorem addNode_of_mem {c : Classifier} (h : c.id ∈ g.nodes) : g.addNode c = g := by
  have hnodes : (g.addNode c).nodes = g.nodes := by
    refine Std.ExtTreeMap.ext_getElem? fun a => ?_
    rw [nodes_addNode]
    split
    · next hid =>
      subst hid
      obtain ⟨n, hn⟩ := Option.isSome_iff_exists.1 (Std.ExtTreeMap.mem_iff_isSome_getElem?.1 h)
      rw [hn, Option.some_or]
    · rw [Option.or_none]
  exact Graph.ext rfl hnodes rfl rfl rfl

theorem hasEdge_of_missing_eq_nil (hnone : g.missing older younger = [])
    (happart : younger.isIn older = false) :
    ∀ o ∈ older, g.hasEdge o.id younger.id = true := by
  intro o ho
  by_contra he
  have hne := Classifier.isIn_eq_false_iff.1 happart o ho
  have hmissing : o ∈ g.missing older younger := mem_missing.2 ⟨ho, hne, by simpa using he⟩
  rw [hnone] at hmissing
  cases hmissing

theorem recordOne_idle {o : Outcome} {x : Classifier} (hx : x.id = younger.id ∨
    g.hasEdge x.id younger.id = true ∧ x.id ∈ g.nodes) :
    recordOne younger context (g, o) x = (g, o) := by
  by_cases hid : x.id = younger.id
  · exact recordOne_same hid
  · obtain ⟨he, hn⟩ := hx.resolve_left hid
    rw [recordOne_old hid he, addNode_of_mem hn]

/-- It makes no difference whether classifiers that have their edges are left out. -/
theorem insertAll_filter {keep : Classifier → Bool}
    (h : ∀ o ∈ older, keep o = false →
      o.id = younger.id ∨ g.hasEdge o.id younger.id = true ∧ o.id ∈ g.nodes) :
    g.insertAll (older.filter keep) younger context = g.insertAll older younger context := by
  -- from the end, for what was recorded before the last one has only added edges and nodes
  induction older using List.reverseRecOn with
  | nil => rfl
  | append_singleton older x ih =>
    have hbefore := ih fun o ho => h o (List.mem_append_left _ ho)
    have hstep : g.insertAll (older ++ [x]) younger context =
        recordOne younger context (g.insertAll older younger context) x := by
      simp [insertAll]
    rw [hstep, List.filter_append]
    cases hx : keep x with
    | true =>
      rw [List.filter_cons_of_pos hx, List.filter_nil, ← hbefore]
      simp [insertAll]
    | false =>
      rw [List.filter_cons_of_neg (by simp [hx]), List.filter_nil, List.append_nil, hbefore]
      have hs := recorded_insertAll g older younger context
      refine (recordOne_idle ?_).symm
      rcases h x (by simp) hx with hid | ⟨he, hn⟩
      · exact Or.inl hid
      · exact Or.inr ⟨(hs.hasEdge_eq_true _ _).2 (Or.inl he), (hs.mem_nodes _).2 (Or.inl hn)⟩

theorem insertAll_nil (g : Graph) (younger : Classifier) (context : Context) :
    g.insertAll [] younger context = (g.addNode younger, ⟨[], [], 0⟩) :=
  rfl

/-- What was missing in an earlier graph is enough to record, if no edge of it was lost since. -/
theorem Intact.record_missing (hg : g.Intact)
    (hgrown : ∀ o ∈ older, k.hasEdge o.id younger.id = true → g.hasEdge o.id younger.id = true)
    (alive : ClassifierId → Bool) (context : Context) :
    g.record alive (k.missing older younger) younger context =
      g.record alive older younger context := by
  have hall : g.insertAll (k.missing older younger) younger context =
      g.insertAll older younger context := by
    refine insertAll_filter fun o ho hkeep => ?_
    by_cases hid : o.id = younger.id
    · exact Or.inl hid
    · have he : g.hasEdge o.id younger.id = true := by
        refine hgrown o ho ?_
        simpa [hid] using hkeep
      exact Or.inr ⟨he, (hg.ends _ _ he).1⟩
  rw [record_eq, record_eq, hall]

/-- Where nothing was missing, recording has nothing to do. -/
theorem Intact.record_idle (hg : g.Intact) (hdue : g.fresh < g.sweepEvery) (hheld : older ≠ [])
    (hedges : ∀ o ∈ older, g.hasEdge o.id younger.id = true)
    (alive : ClassifierId → Bool) (context : Context) :
    g.record alive older younger context = (g, ⟨[], [], 0⟩) := by
  obtain ⟨o, ho⟩ := List.exists_mem_of_ne_nil older hheld
  have hnode : younger.id ∈ g.nodes := (hg.ends _ _ (hedges o ho)).2
  -- with all that is held left out, only the node of the candidate would be added
  have hall : g.insertAll older younger context = (g, ⟨[], [], 0⟩) := by
    have hnone : (older.filter fun _ => false) = [] := by simp
    have hfilter : g.insertAll (older.filter fun _ => false) younger context =
        g.insertAll older younger context :=
      insertAll_filter fun o ho _ => Or.inr ⟨hedges o ho, (hg.ends _ _ (hedges o ho)).1⟩
    rw [hnone, insertAll_nil, addNode_of_mem hnode] at hfilter
    exact hfilter.symm
  rw [record_eq, hall]
  exact if_neg (Nat.not_le_of_lt hdue)

/-- To record all that is held is to learn from it. -/
theorem Intact.record_eq_learn (hg : g.Intact) (hdue : g.fresh < g.sweepEvery) (hheld : older ≠ [])
    (happart : younger.isIn older = false) (alive : ClassifierId → Bool) (context : Context) :
    g.record alive older younger context = g.learn alive older younger context := by
  unfold Graph.learn
  split
  · next hnone =>
    exact hg.record_idle hdue hheld (hasEdge_of_missing_eq_nil hnone happart) alive context
  · exact (hg.record_missing (fun _ _ he => he) alive context).symm

end Graph

namespace World

variable {w v : World} {e : Event} {x : Answer} {es : List Event} {as : List Answer}
  {older : List Classifier} {younger : Classifier} {a b : ClassifierId}

theorem Sound.hasEdge_step (hw : w.Sound) (h : w.step e = some (v, x))
    (he : w.graph.hasEdge a b = true) (ha : a ∉ v.population.dead) (hb : b ∉ v.population.dead) :
    v.graph.hasEdge a b = true := by
  obtain ⟨y, hy⟩ := Graph.hasEdge_iff.1 he
  rw [Graph.hasEdge_iff, hw.edge?_step h ha hb, hy, Option.some_or]
  exact ⟨y, rfl⟩

theorem Sound.hasEdge_run (hw : w.Sound) (h : w.run es = some (v, as))
    (he : w.graph.hasEdge a b = true) (ha : a ∉ v.population.dead) (hb : b ∉ v.population.dead) :
    v.graph.hasEdge a b = true := by
  obtain ⟨y, hy⟩ := Graph.hasEdge_iff.1 he
  exact Graph.hasEdge_iff.2 ⟨y, hw.edge?_keeps h ha hb hy⟩

/-- What is reported is about two classifiers that are not dead. -/
theorem of_mem_reports (h : w.step e = some (v, x)) {p : Pair} (hp : p ∈ x.reports) :
    ∃ a b, a ≠ b ∧ p = Pair.of a b ∧ a ∉ v.population.dead ∧ b ∉ v.population.dead := by
  cases e with
  | create c | drop c =>
    obtain ⟨q, -, hv⟩ := Option.map_eq_some_iff.1 h
    cases hv
    cases hp
  | call q =>
    obtain ⟨hq, rfl, rfl⟩ := step_call h
    cases q with
    | record older younger context =>
      rw [reports_record] at hp
      obtain ⟨y, hy, rfl⟩ := List.mem_map.1 hp
      have hs := Graph.recorded_insertAll w.graph older younger context
      obtain ⟨o, ho, hconf, -, -⟩ := Graph.conflicting_of_mem hs hy
      obtain ⟨hdistinct, hne, -⟩ := Graph.mem_missing.1 ho
      have hlive : ∀ c ∈ younger :: older, c.id ∉ w.population.dead :=
        fun c hc => (Population.has_iff.1 (hq c hc)).2
      have hheld := (distinct_sublist older).subset hdistinct
      refine ⟨o.id, younger.id, hne, ?_, hlive o (by simp [hheld]), hlive younger (by simp)⟩
      rw [Violation.pair, hconf]
    | missing | hasEdge | witness | isKnown | cycles => cases hp
  | sweep =>
    cases h
    cases hp

/-- A pair that was reported is known, unless one of the two has died. -/
structure Once (w : World) (as : List Answer) : Prop where
  nodup : (LockDiscipline.Order.reports as).Nodup
  settled : ∀ a b, a ≠ b → Pair.of a b ∈ LockDiscipline.Order.reports as →
    a ∉ w.population.dead → b ∉ w.population.dead → w.graph.isKnown a b = true

theorem Once.next (h : Once w as) (hw : w.Sound) (hstep : w.step e = some (v, x)) :
    Once v (as ++ [x]) := by
  have heff := hw.effect hstep
  have hall : LockDiscipline.Order.reports (as ++ [x]) =
      LockDiscipline.Order.reports as ++ x.reports := by
    simp [LockDiscipline.Order.reports]
  have hknown : ∀ a b, a ≠ b → a ∉ v.population.dead → b ∉ v.population.dead →
      Pair.of a b ∈ x.reports → v.graph.isKnown a b = true ∧ w.graph.isKnown a b = false := by
    intro a b hab ha hb hp
    by_contra hnot
    have hcount := heff.reports a b hab ha hb
    rw [if_neg hnot] at hcount
    exact List.count_eq_zero.1 hcount hp
  have hnodup : x.reports.Nodup := by
    refine List.nodup_iff_count_le_one.2 fun p => ?_
    by_cases hp : p ∈ x.reports
    · obtain ⟨a, b, hab, rfl, ha, hb⟩ := of_mem_reports hstep hp
      rw [heff.reports a b hab ha hb]
      split <;> decide
    · rw [List.count_eq_zero.2 hp]
      decide
  constructor
  · rw [hall, List.nodup_append']
    refine ⟨h.nodup, hnodup, ?_⟩
    -- reported now means that the pair was not known, reported before that it was
    intro p hold hp
    obtain ⟨a, b, hab, rfl, ha, hb⟩ := of_mem_reports hstep hp
    have hbefore := h.settled a b hab hold (heff.dead a ha) (heff.dead b hb)
    rw [(hknown a b hab ha hb hp).2] at hbefore
    cases hbefore
  · intro a b hab hp ha hb
    rw [hall, List.mem_append] at hp
    rcases hp with hold | hp
    · have hbefore := h.settled a b hab hold (heff.dead a ha) (heff.dead b hb)
      obtain ⟨hforth, hback⟩ := (hw.intact.known a b).1 hbefore
      exact ((hw.step hstep).intact.known a b).2
        ⟨hw.hasEdge_step hstep hforth ha hb, hw.hasEdge_step hstep hback hb ha⟩
    · exact (hknown a b hab ha hb hp).1

theorem once_run {every : Nat} (h : (start every).run es = some (w, as)) : Once w as := by
  induction es using List.reverseRecOn generalizing w as with
  | nil =>
    cases h
    exact ⟨List.nodup_nil, fun _ _ _ hp => by cases hp⟩
  | append_singleton es e ih =>
    obtain ⟨u, bs, a, hu, hstep, rfl⟩ := run_concat h
    exact (ih hu).next (sound_run hu) hstep

theorem step_record (h : ∀ c ∈ younger :: older, w.population.has c = true) (context : Context) :
    w.step (.call (.record older younger context)) =
      some ({ w with graph := (w.graph.record w.population.isAlive older younger context).1 },
        .recorded (w.graph.record w.population.isAlive older younger context).2) :=
  if_pos (List.all_eq_true.2 h)

/-- Where no edge was lost since the look, recording what was missing then is recording all that is
held; and that is nothing if nothing was missing. -/
theorem Genuine.step_record_missing {every : Nat} (hw : Genuine every w) {g : Graph}
    (h : ∀ c ∈ younger :: older, w.population.has c = true)
    (hgrown : ∀ o ∈ older,
      g.hasEdge o.id younger.id = true → w.graph.hasEdge o.id younger.id = true)
    (context : Context) :
    ∃ v out, w.step (.call (.record (g.missing older younger) younger context)) =
        some (v, .recorded out) ∧
      w.step (.call (.record older younger context)) = some (v, .recorded out) ∧
      (g.missing older younger = [] → older ≠ [] → younger.isIn older = false →
        v = w ∧ out = ⟨[], [], 0⟩) := by
  have hfewer : ∀ c ∈ younger :: g.missing older younger, w.population.has c = true := by
    intro c hc
    rcases List.mem_cons.1 hc with rfl | hc
    · exact h c (by simp)
    · exact h c (List.mem_cons_of_mem _ (Graph.mem_missing.1 hc).1)
  rw [step_record hfewer, step_record h,
    hw.sound.intact.record_missing hgrown w.population.isAlive context]
  refine ⟨_, _, rfl, rfl, ?_⟩
  intro hnone hheld happart
  have hedges : ∀ o ∈ older, w.graph.hasEdge o.id younger.id = true :=
    fun o ho => hgrown o ho (Graph.hasEdge_of_missing_eq_nil hnone happart o ho)
  rw [hw.sound.intact.record_idle hw.due hheld hedges]
  exact ⟨rfl, rfl⟩

theorem Sound.grown (hw : w.Sound) (hrun : w.run es = some (v, as))
    (h : ∀ c ∈ younger :: older, v.population.has c = true) :
    ∀ o ∈ older, w.graph.hasEdge o.id younger.id = true →
      v.graph.hasEdge o.id younger.id = true := by
  intro o ho he
  have hdead : ∀ c ∈ younger :: older, c.id ∉ v.population.dead :=
    fun c hc => (Population.has_iff.1 (h c hc)).2
  exact hw.hasEdge_run hrun he (hdead o (by simp [ho])) (hdead younger (by simp))

theorem has_step {c : Classifier} (h : w.step e = some (v, x)) (hc : w.population.has c = true)
    (hkeep : ∀ d, e = .drop d → d.id ≠ c.id) : v.population.has c = true := by
  cases e with
  | create d =>
    obtain ⟨p, hp, hv⟩ := Option.map_eq_some_iff.1 h
    cases hv
    exact Population.has_create hp hc
  | drop d =>
    obtain ⟨p, hp, hv⟩ := Option.map_eq_some_iff.1 h
    cases hv
    exact Population.has_drop hp hc (hkeep d rfl)
  | call q =>
    obtain ⟨-, rfl, -⟩ := step_call h
    exact hc
  | sweep =>
    cases h
    exact hc

theorem Sound.hasEdge_record (hw : w.Sound) {context : Context}
    (h : w.step (.call (.record older younger context)) = some (v, x)) {o : Classifier}
    (ho : o ∈ older) (hne : o.id ≠ younger.id) (ha : o.id ∉ v.population.dead)
    (hb : younger.id ∉ v.population.dead) : v.graph.hasEdge o.id younger.id = true := by
  rw [(hw.effect h).edge _ _ hne ha hb, shown_record]
  exact Or.inr ⟨rfl, o, ho, rfl⟩

end World

/-- What a thread found out in its first section, and goes by in its second one. -/
structure Look where
  older : List Classifier
  younger : Classifier
  context : Context
  missing : List Classifier
  deriving DecidableEq, Repr

/-- The thread keeps handles on all that its look is about. -/
def Look.handles (k : Look) : List Classifier := k.younger :: k.older

/-- A world and the threads that are between their two sections. -/
structure Concurrent where
  world : World
  looks : Table Thread Look
  deriving DecidableEq, Repr

inductive Section where
  | look (thread : Thread) (older : List Classifier) (younger : Classifier) (context : Context)
  | insert (thread : Thread)
  | other (e : Event)
  deriving DecidableEq, Repr

namespace Concurrent

open World (Genuine)

def start (every : Nat) : Concurrent := ⟨.start every, .empty⟩

/-- Whether a thread that is between its two sections keeps the classifier. -/
def isKept (s : Concurrent) (c : Classifier) : Bool := s.looks.values.any fun k => c.isIn k.handles

/-- No event takes a classifier from a thread that keeps it. -/
def allows (s : Concurrent) : Event → Bool
  | .drop c => !s.isKept c
  | _ => true

/-- The first section of a thread, the second one, or anything that others do meanwhile. A thread
holds something else than the candidate, and is done at once if no edge is missing. -/
def step (s : Concurrent) : Section → Option (Concurrent × Answer)
  | .look t older younger context =>
    if s.looks.get? t = none ∧ older ≠ [] ∧ younger.isIn older = false then
      (s.world.step (.call (.missing older younger))).map fun r =>
        let missing := s.world.graph.missing older younger
        let looks := if missing = [] then s.looks else s.looks.set t ⟨older, younger, context, missing⟩
        (⟨r.1, looks⟩, r.2)
    else none
  | .insert t =>
    (s.looks.get? t).bind fun k =>
      (s.world.step (.call (.record k.missing k.younger k.context))).map fun r =>
        (⟨r.1, s.looks.erase t⟩, r.2)
  | .other e =>
    if s.allows e then (s.world.step e).map fun r => ({ s with world := r.1 }, r.2) else none

def run (s : Concurrent) (ss : List Section) : Option (Concurrent × List Answer) :=
  runWith step s ss

variable {every : Nat} {s s' : Concurrent} {ss : List Section} {x : Answer} {xs : List Answer}
  {t : Thread} {older : List Classifier} {younger : Classifier} {context : Context} {k : Look}

theorem step_look (h : s.step (.look t older younger context) = some (s', x)) :
    s.looks.get? t = none ∧ older ≠ [] ∧ younger.isIn older = false ∧
      (∀ c ∈ younger :: older, s.world.population.has c = true) ∧
      s' = ⟨s.world, if s.world.graph.missing older younger = [] then s.looks
        else s.looks.set t ⟨older, younger, context, s.world.graph.missing older younger⟩⟩ ∧
      x = .missing (s.world.graph.missing older younger) := by
  simp only [step] at h
  split at h
  · next hguard =>
    obtain ⟨⟨w, y⟩, hw, hs⟩ := Option.map_eq_some_iff.1 h
    cases hs
    obtain ⟨hhas, rfl, rfl⟩ := World.step_call hw
    exact ⟨hguard.1, hguard.2.1, hguard.2.2, hhas, rfl, rfl⟩
  · cases h

theorem step_insert (h : s.step (.insert t) = some (s', x)) :
    ∃ k w, s.looks.get? t = some k ∧
      s.world.step (.call (.record k.missing k.younger k.context)) = some (w, x) ∧
      s' = ⟨w, s.looks.erase t⟩ := by
  obtain ⟨k, hk, h⟩ := Option.bind_eq_some_iff.1 h
  obtain ⟨⟨w, y⟩, hw, hs⟩ := Option.map_eq_some_iff.1 h
  cases hs
  exact ⟨k, w, hk, hw, rfl⟩

theorem step_other {e : Event} (h : s.step (.other e) = some (s', x)) :
    s.allows e = true ∧ ∃ w, s.world.step e = some (w, x) ∧ s' = { s with world := w } := by
  simp only [step] at h
  split at h
  · next hallowed =>
    obtain ⟨⟨w, y⟩, hw, hs⟩ := Option.map_eq_some_iff.1 h
    cases hs
    exact ⟨hallowed, w, hw, rfl⟩
  · cases h

theorem world_step {e : Section} (h : s.step e = some (s', x)) :
    ∃ e', s.world.step e' = some (s'.world, x) := by
  cases e with
  | look t older younger context =>
    obtain ⟨-, -, -, hhas, rfl, rfl⟩ := step_look h
    exact ⟨.call (.missing older younger), if_pos (List.all_eq_true.2 hhas)⟩
  | insert t =>
    obtain ⟨k, w, -, hw, rfl⟩ := step_insert h
    exact ⟨_, hw⟩
  | other e =>
    obtain ⟨-, w, hw, rfl⟩ := step_other h
    exact ⟨e, hw⟩

theorem world_run (h : (start every).run ss = some (s, xs)) :
    ∃ es, (World.start every).run es = some (s.world, xs) := by
  refine runWith_induction (P := fun _ s xs => ∃ es, (World.start every).run es = some (s.world, xs))
    ⟨[], rfl⟩ ?_ h
  rintro - u ys e v y - ⟨es, hes⟩ hstep
  obtain ⟨e', he'⟩ := world_step hstep
  refine ⟨es ++ [e'], ?_⟩
  rw [World.run_eq] at hes ⊢
  exact runWith_concat hes he'

/-- What a thread goes by still holds: it has its handles, and no edge it saw was lost. -/
structure Awaits (w : World) (k : Look) : Prop where
  has : ∀ c ∈ k.handles, w.population.has c = true
  held : k.older ≠ []
  apart : k.younger.isIn k.older = false
  grown : ∃ g : Graph, k.missing = g.missing k.older k.younger ∧ ∀ o ∈ k.older,
    g.hasEdge o.id k.younger.id = true → w.graph.hasEdge o.id k.younger.id = true

theorem Awaits.step {w v : World} (hk : Awaits w k) (hw : w.Sound) {e : Event}
    (h : w.step e = some (v, x)) (hkeep : ∀ d, e = .drop d → d.isIn k.handles = false) :
    Awaits v k := by
  have hhas : ∀ c ∈ k.handles, v.population.has c = true := by
    intro c hc
    refine World.has_step h (hk.has c hc) fun d hd => ?_
    exact (Classifier.isIn_eq_false_iff.1 (hkeep d hd) c hc).symm
  have hdead : ∀ c ∈ k.handles, c.id ∉ v.population.dead :=
    fun c hc => (Population.has_iff.1 (hhas c hc)).2
  obtain ⟨g, hmissing, hgrown⟩ := hk.grown
  refine ⟨hhas, hk.held, hk.apart, g, hmissing, ?_⟩
  intro o ho he
  exact hw.hasEdge_step h (hgrown o ho he) (hdead o (List.mem_cons_of_mem _ ho))
    (hdead k.younger List.mem_cons_self)

structure Sound (every : Nat) (s : Concurrent) : Prop where
  genuine : Genuine every s.world
  awaits : ∀ t k, s.looks.get? t = some k → Awaits s.world k

theorem sound_start (every : Nat) : Sound every (start every) :=
  ⟨Genuine.start every, fun t k hk => by cases hk⟩

theorem isKept_of_get? {c : Classifier} (hk : s.looks.get? t = some k)
    (hc : c.isIn k.handles = true) : s.isKept c = true :=
  List.any_eq_true.2 ⟨k, Table.mem_values_of_get? hk, hc⟩

theorem Sound.step (hs : Sound every s) {e : Section} (h : s.step e = some (s', x)) :
    Sound every s' := by
  have hgenuine : Genuine every s'.world := by
    obtain ⟨e', he'⟩ := world_step h
    exact hs.genuine.step he'
  refine ⟨hgenuine, ?_⟩
  intro u k hk
  cases e with
  | look t older younger context =>
    obtain ⟨-, hheld, happart, hhas, rfl, -⟩ := step_look h
    dsimp only at hk
    split at hk
    · exact hs.awaits u k hk
    · rw [Table.get?_set] at hk
      split at hk
      · cases hk
        exact ⟨hhas, hheld, happart, s.world.graph, rfl, fun o _ he => he⟩
      · exact hs.awaits u k hk
  | insert t =>
    obtain ⟨_, w, -, hw, rfl⟩ := step_insert h
    dsimp only at hk
    rw [Table.get?_erase] at hk
    split at hk
    · cases hk
    · exact (hs.awaits u k hk).step hs.genuine.sound hw fun d hd => by cases hd
  | other e =>
    obtain ⟨hallowed, w, hw, rfl⟩ := step_other h
    refine (hs.awaits u k hk).step hs.genuine.sound hw ?_
    rintro d rfl
    -- a classifier of the look cannot be dropped
    rw [Bool.eq_false_iff]
    intro hin
    have hkept : s.isKept d = true := isKept_of_get? (s := s) hk hin
    rw [allows, hkept] at hallowed
    cases hallowed

theorem Sound.run (hs : Sound every s) (h : s.run ss = some (s', xs)) : Sound every s' :=
  runWith_induction (P := fun _ s _ => Sound every s) hs
    (fun _ _ _ _ _ _ _ hu hstep => hu.step hstep) h

/-- The second section of a thread always can follow, and does what recording all would do. -/
theorem Sound.insert (hs : Sound every s) (hk : s.looks.get? t = some k) :
    ∃ w out, s.world.step (.call (.record k.older k.younger k.context)) = some (w, .recorded out) ∧
      s.step (.insert t) = some (⟨w, s.looks.erase t⟩, .recorded out) := by
  have hawaits := hs.awaits t k hk
  obtain ⟨g, hmissing, hgrown⟩ := hawaits.grown
  obtain ⟨w, out, hfew, hall, -⟩ :=
    hs.genuine.step_record_missing hawaits.has hgrown k.context
  refine ⟨w, out, hall, ?_⟩
  rw [← hmissing] at hfew
  rw [Concurrent.step, hk, Option.bind_some, hfew, Option.map_some]

/-- Every edge of an acquisition is there, unless one of the two has died. -/
def Covers (s : Concurrent) (older : List Classifier) (younger : Classifier) : Prop :=
  ∀ o ∈ older, o.id ∉ s.world.population.dead → younger.id ∉ s.world.population.dead →
    s.world.graph.hasEdge o.id younger.id = true

theorem Covers.step (hc : s.Covers older younger) (hs : Sound every s) {e : Section}
    (h : s.step e = some (s', x)) : s'.Covers older younger := by
  intro o ho ha hb
  obtain ⟨e', he'⟩ := world_step h
  have hbefore := hc o ho (World.dead_step he' ha) (World.dead_step he' hb)
  exact hs.genuine.sound.hasEdge_step he' hbefore ha hb

theorem Covers.run (hc : s.Covers older younger) (hs : Sound every s)
    (h : s.run ss = some (s', xs)) : s'.Covers older younger :=
  (runWith_induction (P := fun _ u _ => Sound every u ∧ u.Covers older younger) ⟨hs, hc⟩
    (fun _ _ _ _ _ _ _ hu hstep => ⟨hu.1.step hstep, hu.2.step hu.1 hstep⟩) h).2

def Between (s : Concurrent) (t : Thread) (older : List Classifier) (younger : Classifier) : Prop :=
  ∃ k, s.looks.get? t = some k ∧ k.older = older ∧ k.younger = younger

theorem Sound.covers_look (h : s.step (.look t older younger context) = some (s', x)) :
    s'.Between t older younger ∨ s'.Covers older younger := by
  obtain ⟨-, -, happart, -, rfl, -⟩ := step_look h
  by_cases hnone : s.world.graph.missing older younger = []
  · exact Or.inr fun o ho _ _ => Graph.hasEdge_of_missing_eq_nil hnone happart o ho
  · refine Or.inl ⟨⟨older, younger, context, s.world.graph.missing older younger⟩, ?_, rfl, rfl⟩
    rw [if_neg hnone, Table.get?_set, if_pos rfl]

/-- A thread that is between its sections stays there until it inserts its edges. -/
theorem Sound.covers_step (hs : Sound every s) {e : Section} (h : s.step e = some (s', x))
    (hc : s.Between t older younger ∨ s.Covers older younger) :
    s'.Between t older younger ∨ s'.Covers older younger := by
  rcases hc with hbetween | hc
  · obtain ⟨k, hk, rfl, rfl⟩ := hbetween
    cases e with
    | look u older younger context =>
      obtain ⟨hidle, -, -, -, rfl, -⟩ := step_look h
      have hne : t ≠ u := by
        rintro rfl
        rw [hk] at hidle
        cases hidle
      refine Or.inl ⟨k, ?_, rfl, rfl⟩
      split
      · exact hk
      · rw [Table.get?_set, if_neg hne]
        exact hk
    | insert u =>
      by_cases hu : t = u
      · subst hu
        obtain ⟨w, out, hw, hstep⟩ := hs.insert hk
        rw [hstep] at h
        cases h
        have happart := Classifier.isIn_eq_false_iff.1 (hs.awaits t k hk).apart
        exact Or.inr fun o ho ha hb =>
          hs.genuine.sound.hasEdge_record hw ho (happart o ho) ha hb
      · obtain ⟨_, w, -, -, rfl⟩ := step_insert h
        refine Or.inl ⟨k, ?_, rfl, rfl⟩
        rw [Table.get?_erase, if_neg hu]
        exact hk
    | other e =>
      obtain ⟨-, w, -, rfl⟩ := step_other h
      exact Or.inl ⟨k, hk, rfl, rfl⟩
  · exact Or.inr (hc.step hs h)

/-- Once a begun acquisition is over its edges are there. -/
theorem covers_run {before after : List Section}
    (h : (start every).run (before ++ .look t older younger context :: after) = some (s, xs))
    (hidle : s.looks.get? t = none) : s.Covers older younger := by
  obtain ⟨u, ys, zs, hu, hrest, -⟩ := exists_of_runWith_append h
  obtain ⟨v, x, ws, hlook, hv, -⟩ := exists_of_runWith_cons hrest
  have hsound := ((sound_start every).run hu).step hlook
  have hend := (runWith_induction (P := fun _ u _ => Sound every u ∧
    (u.Between t older younger ∨ u.Covers older younger)) ⟨hsound, Sound.covers_look hlook⟩
    (fun _ _ _ _ _ _ _ hu hstep => ⟨hu.1.step hstep, hu.1.covers_step hstep hu.2⟩) hv).2
  refine hend.resolve_left ?_
  rintro ⟨k, hk, -⟩
  rw [hidle] at hk
  cases hk

/-- In its second section a thread learns from all that it holds. -/
theorem Sound.insert_learns (hs : Sound every s) (hk : s.looks.get? t = some k) :
    s.step (.insert t) =
      let r := s.world.graph.learn s.world.population.isAlive k.older k.younger k.context
      some (⟨{ s.world with graph := r.1 }, s.looks.erase t⟩, .recorded r.2) := by
  have hawaits := hs.awaits t k hk
  obtain ⟨w, out, hw, hinsert⟩ := hs.insert hk
  rw [World.step_record hawaits.has, hs.genuine.sound.intact.record_eq_learn hs.genuine.due
    hawaits.held hawaits.apart] at hw
  cases hw
  exact hinsert

/-- The moment of an acquisition is its second section, or the first one if that is the last:
whatever others have done since it looked, it does to the graph what beginning it in one step at
that moment would do, with the same outcome. `d` is a detector at that moment whose recorder is on
the graph. -/
theorem begin_at_once (h : (start every).run ss = some (s, xs)) {d : Detector} {q : Recorder}
    {r : Nat} {pinned held : ClassifierId → Bool} {c : Classifier} {site : String}
    (hq : d.recorders[r]? = some q) (hlen : q.graph < d.graphs.length)
    (hgraph : d.graphAt q.graph = s.world.graph) (hfresh : d.isFresh held t r c = true)
    (halive : ∀ a, (pinned a || (d.begin pinned held t r c site).1.onStack a) =
      s.world.population.isAlive a) :
    let older := (d.stackOf t r).filter fun o => held o.id
    let context := Detector.seenAt q t site
    let b := d.begin pinned held t r c site
    (∀ s' x, s.step (.look t older c context) = some (s', x) → s'.looks.get? t = none →
      b.1.graphAt q.graph = s'.world.graph ∧ b.2.outcome = ⟨[], [], 0⟩) ∧
    ∀ k, s.looks.get? t = some k → k.older = older → k.younger = c → k.context = context →
      ∃ s', s.step (.insert t) = some (s', .recorded b.2.outcome) ∧
        b.1.graphAt q.graph = s'.world.graph := by
  intro older context b
  have hlearn : b.1.graphAt q.graph =
        (s.world.graph.learn s.world.population.isAlive older c context).1 ∧
      b.2.outcome = (s.world.graph.learn s.world.population.isAlive older c context).2 := by
    have hsame := Detector.begin_learns pinned site hq hlen hfresh
    dsimp only at hsame
    rw [hgraph, funext halive] at hsame
    exact hsame
  rw [hlearn.1, hlearn.2]
  constructor
  · intro s' x hlook hdone
    obtain ⟨hidle, -, -, -, rfl, -⟩ := step_look hlook
    have hnone : s.world.graph.missing older c = [] := by
      by_contra hmissing
      rw [if_neg hmissing, Table.get?_set, if_pos rfl] at hdone
      cases hdone
    rw [Graph.learn, if_pos hnone]
    exact ⟨rfl, rfl⟩
  · rintro k hk holder rfl hcontext
    have hinsert := ((sound_start every).run h).insert_learns hk
    rw [holder, hcontext] at hinsert
    exact ⟨_, hinsert, rfl⟩

/-- For one thread and whatever others do between its sections: to record what was missing at the
first look is to record all that is held, with the same outcome and the same graph, and nothing need
be recorded if nothing was missing. So however the sections of threads interleave, the second one of
each does what recording all it holds would do, no edge of an acquisition that is over is lost while
both classifiers live, and no pair is reported twice. -/
theorem sections_safe (every : Nat) :
    (∀ es s as older younger missing s' fs v bs,
      (World.start every).run es = some (s, as) →
      s.step (.call (.missing older younger)) = some (s', .missing missing) →
      s'.run fs = some (v, bs) → older ≠ [] → younger.isIn older = false →
      (∀ c ∈ younger :: older, v.population.has c = true) →
      ∀ context, ∃ t out,
        v.step (.call (.record missing younger context)) = some (t, .recorded out) ∧
        v.step (.call (.record older younger context)) = some (t, .recorded out) ∧
        (missing = [] → t = v ∧ out = ⟨[], [], 0⟩)) ∧
    (∀ ss s xs, (start every).run ss = some (s, xs) →
      (∀ t k, s.looks.get? t = some k → ∃ w out,
        s.world.step (.call (.record k.older k.younger k.context)) = some (w, .recorded out) ∧
        s.step (.insert t) = some (⟨w, s.looks.erase t⟩, .recorded out)) ∧
      (∀ before t older younger context after,
        ss = before ++ .look t older younger context :: after → s.looks.get? t = none →
        ∀ ds d ys, s.run ds = some (d, ys) → ∀ o ∈ older,
          o.id ∉ d.world.population.dead → younger.id ∉ d.world.population.dead →
          d.world.graph.hasEdge o.id younger.id = true) ∧
      (reports xs).Nodup) := by
  constructor
  · intro es s as older younger missing s' fs v bs hs hlook hrun hheld happart hhas context
    obtain ⟨-, rfl, hanswer⟩ := World.step_call hlook
    cases hanswer
    have hgenuine := World.genuine_run hs
    have hgrown := hgenuine.sound.grown hrun hhas
    obtain ⟨t, out, hfew, hall, hidle⟩ :=
      (hgenuine.run hrun).step_record_missing hhas hgrown context
    exact ⟨t, out, hfew, hall, fun hnone => hidle hnone hheld happart⟩
  · intro ss s xs h
    have hsound := (sound_start every).run h
    obtain ⟨es, hes⟩ := world_run h
    refine ⟨fun t k hk => hsound.insert hk, ?_, (World.once_run hes).nodup⟩
    intro before t older younger context after hss hidle ds d ys hd
    rw [hss] at h
    exact (covers_run h hidle).run hsound hd

/-- One edge of what a thread is about to take is there when it looks. -/
def glance : List Event :=
  [.create ⟨1, "A"⟩, .create ⟨2, "B"⟩, .create ⟨3, "C"⟩,
    .call (.record [⟨1, "A"⟩] ⟨2, "B"⟩ ⟨"t", "first", none⟩)]

/-- The reverse of that edge comes while the thread is between its sections, and a sweep. -/
def meanwhile : List Event :=
  [.call (.record [⟨2, "B"⟩] ⟨1, "A"⟩ ⟨"u", "second", none⟩), .sweep]

/-- Two threads look before either of them inserts its edge, and the graph is swept in between. -/
def race : List Section :=
  [.other (.create ⟨1, "A"⟩), .other (.create ⟨2, "B"⟩),
    .look ⟨1, "t"⟩ [⟨1, "A"⟩] ⟨2, "B"⟩ ⟨"t", "first", none⟩,
    .look ⟨2, "u"⟩ [⟨2, "B"⟩] ⟨1, "A"⟩ ⟨"u", "second", none⟩, .insert ⟨1, "t"⟩,
    .other .sweep, .insert ⟨2, "u"⟩]

theorem sections_safe_race :
    (∃ s as s' v bs t out, (World.start 1).run glance = some (s, as) ∧
      s.step (.call (.missing [⟨1, "A"⟩, ⟨3, "C"⟩] ⟨2, "B"⟩)) = some (s', .missing [⟨3, "C"⟩]) ∧
      s'.run meanwhile = some (v, bs) ∧
      v.step (.call (.record [⟨3, "C"⟩] ⟨2, "B"⟩ ⟨"t", "third", none⟩)) = some (t, .recorded out) ∧
      v.step (.call (.record [⟨1, "A"⟩, ⟨3, "C"⟩] ⟨2, "B"⟩ ⟨"t", "third", none⟩)) =
        some (t, .recorded out)) ∧
    ∃ s xs, (start 1).run race = some (s, xs) ∧ s.looks.get? ⟨1, "t"⟩ = none ∧
      s.world.graph.hasEdge 1 2 = true ∧ s.world.graph.hasEdge 2 1 = true ∧
      reports xs = [Pair.of 1 2] ∧ (reports xs).Nodup := by
  constructor
  · have hrun : ((World.start 1).run glance).any (fun r =>
        (r.1.step (.call (.missing [⟨1, "A"⟩, ⟨3, "C"⟩] ⟨2, "B"⟩))).any fun q =>
          decide (q.2 = .missing [⟨3, "C"⟩]) && (q.1.run meanwhile).any fun z =>
            [⟨2, "B"⟩, ⟨1, "A"⟩, ⟨3, "C"⟩].all z.1.population.has) = true := by
      decide +kernel
    obtain ⟨⟨s, as⟩, hs, hrest⟩ := (Option.any_eq_true _ _).mp hrun
    obtain ⟨⟨s', y⟩, hlook, hrest⟩ := (Option.any_eq_true _ _).mp hrest
    obtain ⟨hmissing, hrest⟩ := (Bool.and_eq_true _ _).mp hrest
    obtain rfl : y = .missing [⟨3, "C"⟩] := of_decide_eq_true hmissing
    obtain ⟨⟨v, bs⟩, hv, hhas⟩ := (Option.any_eq_true _ _).mp hrest
    obtain ⟨t, out, hfew, hall, -⟩ := (sections_safe 1).1 glance s as [⟨1, "A"⟩, ⟨3, "C"⟩] ⟨2, "B"⟩
      [⟨3, "C"⟩] s' meanwhile v bs hs hlook hv (by simp) (by decide) (List.all_eq_true.1 hhas)
      ⟨"t", "third", none⟩
    exact ⟨s, as, s', v, bs, t, out, hs, hlook, hv, hfew, hall⟩
  · have hrun : ((start 1).run race).any (fun r => decide (r.1.looks.get? ⟨1, "t"⟩ = none) &&
        (decide (r.1.looks.get? ⟨2, "u"⟩ = none) && (decide (r.1.world.population.dead = []) &&
          decide (reports r.2 = [Pair.of 1 2])))) = true := by
      decide +kernel
    obtain ⟨⟨s, xs⟩, h, hrest⟩ := (Option.any_eq_true _ _).mp hrun
    simp only [Bool.and_eq_true, decide_eq_true_iff] at hrest
    obtain ⟨ht, hu, hdead, hreports⟩ := hrest
    obtain ⟨-, hedges, honce⟩ := (sections_safe 1).2 race s xs h
    have hlive : ∀ a, a ∉ s.world.population.dead := by simp [hdead]
    refine ⟨s, xs, h, ht, ?_, ?_, hreports, honce⟩
    · exact hedges (race.take 2) ⟨1, "t"⟩ [⟨1, "A"⟩] ⟨2, "B"⟩ _ (race.drop 3) rfl ht [] s [] rfl
        ⟨1, "A"⟩ (by simp) (hlive 1) (hlive 2)
    · exact hedges (race.take 3) ⟨2, "u"⟩ [⟨2, "B"⟩] ⟨1, "A"⟩ _ (race.drop 4) rfl hu [] s [] rfl
        ⟨2, "B"⟩ (by simp) (hlive 2) (hlive 1)

end Concurrent

end LockDiscipline.Order
