import LockDiscipline.Proofs.Order.Acts
import LockDiscipline.Proofs.Run

namespace LockDiscipline.Order

open LockDiscipline.Config

structure Realm where
  /-- Which classifiers were made, and which of them have no handle left. -/
  population : Population
  detector : Detector

inductive Realm.Deed where
  | create (c : Classifier)
  | drop (c : Classifier)
  | addGraph (sweepEvery : Nat)
  | addSink (sink : Sink)
  | addRecorder (graph : Nat) (settings : RecorderSettings) (probe : Probe) (sink : Option Nat)
  | begin (held : ClassifierId → Bool) (thread : Thread) (recorder : Nat) (c : Classifier)
      (site : String)
  | release (thread : Thread) (recorder : Nat) (c : Classifier)
  | dropRecorder (thread : Thread) (recorder : Nat)
  | endThread (thread : Thread)
  | sweep (graph : Nat)
  | drain (sink : Nat)

namespace Realm

open Detector (Act Reply)

def start : Realm := ⟨.empty, .empty⟩

/-- A handle keeps a classifier alive, and so does a stack. -/
def isAlive (w : Realm) (a : ClassifierId) : Bool :=
  w.population.isAlive a || w.detector.onStack a

/-- The population as graphs see it: what is on a stack lives on without a handle. -/
def census (w : Realm) : Population :=
  ⟨w.population.born, (w.population.born.map (·.id)).filter fun a => !w.isAlive a⟩

def act (w : Realm) (a : Act) : Realm × Reply :=
  let (d, x) := w.detector.step a
  ({ w with detector := d }, x)

/-- What a deed does; nothing if it cannot happen. A recorder is set up with a graph and a sink that
are there, and a sink has received nothing at first. -/
def step (w : Realm) : Deed → Option (Realm × Reply)
  | .create c => (w.population.create c).map fun p => ({ w with population := p }, .done)
  | .drop c => (w.population.drop c).map fun p => ({ w with population := p }, .done)
  | .addGraph sweepEvery => some (w.act (.addGraph sweepEvery))
  | .addSink sink =>
    if sink.received = [] ∧ sink.heard = [] then some (w.act (.addSink sink)) else none
  | .addRecorder graph settings probe sink =>
    if graph < w.detector.graphs.length ∧ ∀ i ∈ sink, i < w.detector.sinks.length then
      some (w.act (.addRecorder graph settings probe sink))
    else none
  | .begin held thread r c site =>
    if w.population.has c = true ∧ r < w.detector.recorders.length then
      some (w.act (.begin w.population.isAlive held thread r c site))
    else none
  | .release thread r c => some (w.act (.release thread r c))
  | .dropRecorder thread r => some (w.act (.dropRecorder thread r))
  | .endThread thread => some (w.act (.endThread thread))
  | .sweep i => some (w.act (.sweep w.isAlive i))
  | .drain i => some (w.act (.drain i))

def run (w : Realm) (es : List Deed) : Option (Realm × List Reply) := runWith step w es

/-- The realm with another stack. -/
def push (w : Realm) (thread : Thread) (r : Nat) (held : List Classifier) : Realm :=
  { w with detector := w.detector.setStack thread r held }

variable {w v : Realm} {e : Deed} {x : Reply} {a b : ClassifierId} {i r : Nat}

theorem mem_dead_census :
    a ∈ w.census.dead ↔ (∃ c ∈ w.population.born, c.id = a) ∧ w.isAlive a = false := by
  simp [census]

theorem not_dead_of_isAlive (h : w.isAlive a = true) : a ∉ w.census.dead := by
  intro hdead
  rw [(mem_dead_census.1 hdead).2] at h
  cases h

theorem isAlive_of_has {c : Classifier} (h : w.population.has c = true) :
    w.isAlive c.id = true := by
  obtain ⟨hborn, hdead⟩ := Population.has_iff.1 h
  have : w.population.isAlive c.id = true := Population.isAlive_iff.2 ⟨⟨c, hborn, rfl⟩, hdead⟩
  rw [isAlive, this, Bool.true_or]

theorem isAlive_of_mem_stackOf {c : Classifier} {t : Thread}
    (h : c ∈ w.detector.stackOf t r) : w.isAlive c.id = true := by
  rw [isAlive, Detector.onStack_of_mem h, Bool.or_true]

/-- What every deed keeps. -/
structure Sound (w : Realm) : Prop where
  graphs : ∀ i, World.Sound ⟨w.population, w.detector.graphAt i⟩
  stacked : ∀ t r, ∀ c ∈ w.detector.stackOf t r, c ∈ w.population.born
  gone : ∀ t r, w.detector.isGone t = true → w.detector.stackOf t r = []
  proper : w.detector.held.Proper
  recorders : ∀ q ∈ w.detector.recorders,
    q.graph < w.detector.graphs.length ∧ ∀ i ∈ q.sink, i < w.detector.sinks.length

theorem sound_start : start.Sound := by
  refine ⟨fun i => World.sound_start _, ?_, fun _ _ _ => rfl, List.nodup_nil, ?_⟩
  · intro t r c hc
    cases hc
  · intro q hq
    cases hq

namespace Sound

theorem intact (hw : w.Sound) (i : Nat) : (w.detector.graphAt i).Intact := (hw.graphs i).intact

theorem onStack_iff (hw : w.Sound) :
    w.detector.onStack a = true ↔ ∃ t r, ∃ c ∈ w.detector.stackOf t r, c.id = a := by
  constructor
  · intro h
    obtain ⟨held, hheld, h⟩ := List.any_eq_true.1 h
    obtain ⟨⟨⟨t, r⟩, cs⟩, hmem, rfl⟩ := List.mem_map.1 hheld
    obtain ⟨c, hc, hid⟩ := List.any_eq_true.1 h
    refine ⟨t, r, c, ?_, by simpa using hid⟩
    rw [Detector.stackOf, hw.proper.get?_of_mem hmem]
    exact hc
  · rintro ⟨t, r, c, hc, rfl⟩
    exact Detector.onStack_of_mem hc

theorem isAlive_iff (hw : w.Sound) : w.isAlive a = true ↔
    w.population.isAlive a = true ∨ ∃ t r, ∃ c ∈ w.detector.stackOf t r, c.id = a := by
  rw [isAlive, Bool.or_eq_true, hw.onStack_iff]

/-- Only what was made is alive, so the census tells who is. -/
theorem isAlive_census (hw : w.Sound) : w.census.isAlive = w.isAlive := by
  funext a
  rw [Bool.eq_iff_iff, Population.isAlive_iff, mem_dead_census]
  constructor
  · rintro ⟨hborn, hdead⟩
    by_contra hnot
    exact hdead ⟨hborn, by simpa using hnot⟩
  · intro h
    refine ⟨?_, fun hdead => by rw [hdead.2] at h; cases h⟩
    rcases hw.isAlive_iff.1 h with h | ⟨t, r, c, hc, hid⟩
    · exact (Population.isAlive_iff.1 h).1
    · exact ⟨c, hw.stacked t r c hc, hid⟩

theorem world (hw : w.Sound) (i : Nat) : World.Sound ⟨w.census, w.detector.graphAt i⟩ :=
  ⟨(hw.graphs i).intact, (hw.graphs i).nodes⟩

theorem push (hw : w.Sound) {t : Thread} {held : List Classifier}
    (h : ∀ c ∈ held, c ∈ w.population.born) (hgone : w.detector.isGone t = true → held = []) :
    (w.push t r held).Sound := by
  refine ⟨hw.graphs, ?_, ?_, Detector.proper_setStack hw.proper t r held, hw.recorders⟩
  · intro u p c hc
    rw [Realm.push, Detector.stackOf_setStack] at hc
    split at hc
    · exact h c hc
    · exact hw.stacked u p c hc
  · intro u p hu
    rw [Realm.push, Detector.stackOf_setStack]
    split
    · next heq =>
      cases heq
      exact hgone hu
    · exact hw.gone u p hu

/-- What is left of a stack may take its place. -/
theorem push_sublist (hw : w.Sound) {t : Thread} {held : List Classifier}
    (h : held.Sublist (w.detector.stackOf t r)) : (w.push t r held).Sound := by
  refine hw.push (fun c hc => hw.stacked t r c (h.subset hc)) ?_
  intro hgone
  rw [hw.gone t r hgone] at h
  exact List.sublist_nil.1 h

end Sound

section Step

variable {c : Classifier} {held : ClassifierId → Bool} {t : Thread} {site : String} {q : Recorder}

theorem step_create (h : w.step (.create c) = some (v, x)) : c.isIn w.population.born = false ∧
    v = { w with population := { w.population with born := c :: w.population.born } } ∧
      x = .done := by
  obtain ⟨p, hp, hv⟩ := Option.map_eq_some_iff.1 h
  cases hv
  obtain ⟨hnew, rfl⟩ := Population.create_eq_some_iff.1 hp
  exact ⟨hnew, rfl, rfl⟩

theorem step_drop (h : w.step (.drop c) = some (v, x)) : w.population.has c = true ∧
    v = { w with population := { w.population with dead := c.id :: w.population.dead } } ∧
      x = .done := by
  obtain ⟨p, hp, hv⟩ := Option.map_eq_some_iff.1 h
  cases hv
  obtain ⟨hhas, rfl⟩ := Population.drop_eq_some_iff.1 hp
  exact ⟨hhas, rfl, rfl⟩

theorem step_addSink {sink : Sink} (h : w.step (.addSink sink) = some (v, x)) :
    (sink.received = [] ∧ sink.heard = []) ∧ (v, x) = w.act (.addSink sink) := by
  rw [step, Option.ite_none_right_eq_some, Option.some_inj] at h
  exact ⟨h.1, h.2.symm⟩

theorem step_addRecorder {graph : Nat} {settings : RecorderSettings} {probe : Probe}
    {sink : Option Nat} (h : w.step (.addRecorder graph settings probe sink) = some (v, x)) :
    (graph < w.detector.graphs.length ∧ ∀ i ∈ sink, i < w.detector.sinks.length) ∧
      (v, x) = w.act (.addRecorder graph settings probe sink) := by
  rw [step, Option.ite_none_right_eq_some, Option.some_inj] at h
  exact ⟨h.1, h.2.symm⟩

theorem step_release (h : w.step (.release t r c) = some (v, x)) :
    v = w ∨ v = w.push t r (eraseLast c (w.detector.stackOf t r)) := by
  cases h
  rcases Detector.release_eq_or w.detector t r c with ⟨h, -⟩ | ⟨h, -⟩
  · exact Or.inl (congrArg (fun s => Realm.mk w.population s.1) h)
  · exact Or.inr (congrArg (fun s => Realm.mk w.population s.1) h)

theorem step_dropRecorder (h : w.step (.dropRecorder t r) = some (v, x)) :
    v = w ∨ v = w.push t r [] := by
  cases h
  rcases Detector.dropRecorder_eq_or w.detector t r with ⟨h, -⟩ | ⟨h, -⟩
  · exact Or.inl (congrArg (Realm.mk w.population) h)
  · exact Or.inr (congrArg (Realm.mk w.population) h)

theorem step_drain (h : w.step (.drain i) = some (v, x)) :
    v = { w with detector := { w.detector with sinks := w.detector.sinks.modify i Sink.drain } } ∧
      x = .drained ((w.detector.sinks[i]?).elim [] Sink.received) := by
  rw [step, Option.some_inj, act, Detector.step] at h
  rw [List.modify_eq_set_getElem?]
  cases hs : w.detector.sinks[i]? <;> rw [hs] at h <;> cases h <;> exact ⟨rfl, rfl⟩

/-- What a thread still has on its stack, as far as it is told. -/
def kept (w : Realm) (held : ClassifierId → Bool) (t : Thread) (r : Nat) : List Classifier :=
  (w.detector.stackOf t r).filter fun o => held o.id

/-- The realm when the candidate is on the stack and nothing is recorded yet. -/
def pushed (w : Realm) (held : ClassifierId → Bool) (t : Thread) (r : Nat) (c : Classifier) :
    Realm :=
  w.push t r (w.kept held t r ++ [c])

/-- What the graph of the recorder learns. -/
def learnt (w : Realm) (q : Recorder) (held : ClassifierId → Bool) (t : Thread) (r : Nat)
    (c : Classifier) (site : String) : Graph × Outcome :=
  (w.detector.graphAt q.graph).learn (w.pushed held t r c).isAlive (w.kept held t r) c
    (Detector.seenAt q t site)

/-- The detector after the report, what was logged and how it ended. -/
def reported (w : Realm) (q : Recorder) (held : ClassifierId → Bool) (t : Thread) (r : Nat)
    (c : Classifier) (site : String) : Detector × List LogLine × Verdict :=
  ((w.pushed held t r c).detector.setGraph q.graph (w.learnt q held t r c site).1).report r q
    (w.learnt q held t r c site).2.violations

/-- A thread takes something afresh. -/
structure Fresh (w : Realm) (q : Recorder) (held : ClassifierId → Bool) (t : Thread) (r : Nat)
    (c : Classifier) (site : String) (v : Realm) (b : Began) : Prop where
  handle : w.population.has c = true
  fresh : w.detector.isFresh held t r c = true
  recorder : w.detector.recorders[r]? = some q
  realm : v = ⟨w.population, (w.reported q held t r c site).1⟩
  outcome : b.outcome = (w.learnt q held t r c site).2
  log : ∃ note : List LogLine, (∀ line ∈ note, line.level = .trace) ∧
    b.log = note ++ (Detector.outcomeLog q b.outcome ++ (w.reported q held t r c site).2.1)
  verdict : b.verdict = (w.reported q held t r c site).2.2

/-- An acquisition is fresh, or it changes nothing. -/
theorem step_begin (hw : w.Sound) (h : w.step (.begin held t r c site) = some (v, x)) :
    ∃ q b, w.detector.recorders[r]? = some q ∧ x = .began b ∧
      if w.detector.isFresh held t r c = false then v = w ∧ b = Began.nothing c
      else w.Fresh q held t r c site v b := by
  rw [step, Option.ite_none_right_eq_some, Option.some_inj] at h
  obtain ⟨⟨hhas, hr⟩, h⟩ := h
  have hq : w.detector.recorders[r]? = some w.detector.recorders[r] :=
    List.getElem?_eq_getElem hr
  generalize w.detector.recorders[r] = q at hq
  have hgraph := (hw.recorders q (List.mem_of_getElem? hq)).1
  cases hf : w.detector.isFresh held t r c with
  | false =>
    rw [act, Detector.step, Detector.begin_of_not_fresh hf] at h
    cases h
    exact ⟨q, _, hq, rfl, rfl, rfl⟩
  | true =>
    obtain ⟨-, hgone, hc⟩ := Detector.isFresh_eq_true_iff.1 hf
    obtain ⟨note, hnote, hbegin⟩ := Detector.begin_onto w.population.isAlive site hq hgone hc
    have hlearn := Detector.recordEdges_eq w.population.isAlive
      (w.detector.setStack t r ((w.detector.stackOf t r).filter (fun o => held o.id) ++ [c]))
      t r ((w.detector.stackOf t r).filter fun o => held o.id) c site hgraph
    rw [act, Detector.step, hbegin] at h
    dsimp only at h
    rw [hlearn] at h
    cases h
    exact ⟨q, _, hq, rfl, hhas, hf, hq, rfl, rfl, ⟨note, hnote, rfl⟩, rfl⟩

namespace Fresh

variable {b : Began}

/-- What a fresh acquisition leaves, field by field. -/
theorem detector (h : w.Fresh q held t r c site v b) :
    v.detector = { (w.pushed held t r c).detector with
      graphs := w.detector.graphs.set q.graph (w.learnt q held t r c site).1
      sinks := w.detector.sinksAfter q.sink (w.detector.heard q.sink b.outcome.violations)
      recorders := if (w.detector.failure? q.sink b.outcome.violations).isSome then
        w.detector.recorders else w.detector.recorders.modify r fun p =>
          { p with history := p.history ++ b.outcome.violations } } := by
  rw [h.realm, h.outcome]
  unfold reported
  rw [Detector.report_eq]
  rfl

theorem recorders (h : w.Fresh q held t r c site v b) :
    v.detector.recorders = if (w.detector.failure? q.sink b.outcome.violations).isSome then
      w.detector.recorders else w.detector.recorders.modify r fun p =>
        { p with history := p.history ++ b.outcome.violations } := by
  rw [h.detector]

theorem sinks (h : w.Fresh q held t r c site v b) : v.detector.sinks =
    w.detector.sinksAfter q.sink (w.detector.heard q.sink b.outcome.violations) := by
  rw [h.detector]

theorem ending (h : w.Fresh q held t r c site v b) : (w.reported q held t r c site).2 =
    ((w.detector.heard q.sink b.outcome.violations).map Violation.warning,
      (w.detector.failure? q.sink b.outcome.violations).elim
        (if q.settings.strict then
          (b.outcome.violations.head?).elim .returned fun y => .stopped y.describe
          else .returned) .stopped) := by
  rw [h.outcome, reported, Detector.report_eq]
  rfl

theorem population (h : w.Fresh q held t r c site v b) : v.population = w.population := by
  rw [h.realm]

theorem isAlive (h : w.Fresh q held t r c site v b) : v.isAlive = (w.pushed held t r c).isAlive := by
  funext a
  have hstack : v.detector.onStack a = (w.pushed held t r c).detector.onStack a := by
    rw [h.detector]
    rfl
  unfold Realm.isAlive
  rw [hstack, h.population]
  rfl

theorem census (h : w.Fresh q held t r c site v b) : v.census = (w.pushed held t r c).census := by
  unfold Realm.census
  rw [h.isAlive, h.population]
  rfl

theorem stackOf (h : w.Fresh q held t r c site v b) (u : Thread) (p : Nat) :
    v.detector.stackOf u p =
      if (u, p) = (t, r) then w.kept held t r ++ [c] else w.detector.stackOf u p := by
  have hstack : v.detector.stackOf u p = (w.pushed held t r c).detector.stackOf u p := by
    rw [h.detector]
    rfl
  rw [hstack, pushed, push, Detector.stackOf_setStack]

theorem graphAt (hw : w.Sound) (h : w.Fresh q held t r c site v b) (i : Nat) :
    v.detector.graphAt i =
      if i = q.graph then (w.learnt q held t r c site).1 else w.detector.graphAt i := by
  have hgraph := (hw.recorders q (List.mem_of_getElem? h.recorder)).1
  have hset : v.detector.graphAt i =
      (w.detector.setGraph q.graph (w.learnt q held t r c site).1).graphAt i := by
    rw [h.detector]
    rfl
  rw [hset, Detector.graphAt_setGraph]
  simp [hgraph]

theorem born (hw : w.Sound) (h : w.Fresh q held t r c site v b) :
    c ∈ w.population.born ∧ ∀ o ∈ w.kept held t r, o ∈ w.population.born :=
  ⟨(Population.has_iff.1 h.handle).1,
    fun o ho => hw.stacked t r o (List.mem_of_mem_filter ho)⟩

theorem pushed_sound (hw : w.Sound) (h : w.Fresh q held t r c site v b) :
    (w.pushed held t r c).Sound := by
  obtain ⟨hc, hkept⟩ := h.born hw
  refine hw.push ?_ ?_
  · intro o ho
    rcases List.mem_append.1 ho with ho | ho
    · exact hkept o ho
    · rw [List.mem_singleton.1 ho]
      exact hc
  · intro hgone
    rw [(Detector.isFresh_eq_true_iff.1 h.fresh).2.1] at hgone
    cases hgone

/-- What the graph learns, it learns in the world of the realm. -/
theorem learnt_eq (hw : w.Sound) (h : w.Fresh q held t r c site v b) :
    w.learnt q held t r c site = (w.detector.graphAt q.graph).learn
      (w.pushed held t r c).census.isAlive (w.kept held t r) c (Detector.seenAt q t site) := by
  rw [learnt, (h.pushed_sound hw).isAlive_census]

theorem sound (hw : w.Sound) (h : w.Fresh q held t r c site v b) : v.Sound := by
  have hpushed := h.pushed_sound hw
  obtain ⟨hc, hkept⟩ := h.born hw
  have hstack : ∀ u p, v.detector.stackOf u p = (w.pushed held t r c).detector.stackOf u p := by
    intro u p
    rw [h.detector]
    rfl
  refine ⟨?_, ?_, ?_, ?_, ?_⟩
  · intro i
    rw [h.graphAt hw, h.population]
    split
    · have hlearn := (hpushed.world q.graph).learn (Detector.seenAt q t site) hc hkept
      rw [h.learnt_eq hw]
      exact ⟨hlearn.intact, hlearn.nodes⟩
    · exact hw.graphs i
  · intro u p o ho
    rw [hstack] at ho
    rw [h.population]
    exact hpushed.stacked u p o ho
  · intro u p hu
    rw [h.detector] at hu
    rw [hstack]
    exact hpushed.gone u p hu
  · rw [h.detector]
    exact hpushed.proper
  · rw [h.detector]
    dsimp only
    rw [List.length_set, Detector.length_sinksAfter]
    intro p hp
    split at hp
    · exact hw.recorders p hp
    · rw [List.mem_iff_getElem?] at hp
      obtain ⟨i, hi⟩ := hp
      rw [List.getElem?_modify] at hi
      obtain ⟨p', hp', rfl⟩ := Option.map_eq_some_iff.1 hi
      have hold := hw.recorders p' (List.mem_of_getElem? hp')
      split <;> exact hold

end Fresh

end Step

/-- A stack takes in only what there is a handle on. -/
theorem mem_stackOf_step (hw : w.Sound) (h : w.step e = some (v, x)) {t : Thread} {c : Classifier}
    (hc : c ∈ v.detector.stackOf t r) :
    c ∈ w.detector.stackOf t r ∨ w.population.has c = true := by
  cases e with
  | create d =>
    obtain ⟨-, rfl, -⟩ := step_create h
    exact Or.inl hc
  | drop d =>
    obtain ⟨-, rfl, -⟩ := step_drop h
    exact Or.inl hc
  | addSink sink =>
    cases (step_addSink h).2
    exact Or.inl hc
  | addRecorder graph settings probe sink =>
    cases (step_addRecorder h).2
    exact Or.inl hc
  | addGraph n | sweep i =>
    cases h
    exact Or.inl hc
  | drain i =>
    obtain ⟨rfl, -⟩ := step_drain h
    exact Or.inl hc
  | begin held u p d site =>
    obtain ⟨q, b, -, -, hcase⟩ := step_begin hw h
    split at hcase
    · rw [hcase.1] at hc
      exact Or.inl hc
    · rw [hcase.stackOf] at hc
      split at hc
      · next heq =>
        cases heq
        rcases List.mem_append.1 hc with hc | hc
        · exact Or.inl (List.mem_of_mem_filter hc)
        · rw [List.mem_singleton.1 hc]
          exact Or.inr hcase.handle
      · exact Or.inl hc
  | release u p d =>
    cases h
    change c ∈ (w.detector.release u p d).1.stackOf t r at hc
    rw [Detector.stackOf_release (hw.gone u p)] at hc
    split at hc
    · next heq =>
      cases heq
      exact Or.inl ((eraseLast_sublist d _).subset hc)
    · exact Or.inl hc
  | dropRecorder u p =>
    cases h
    change c ∈ (w.detector.dropRecorder u p).stackOf t r at hc
    rw [Detector.stackOf_dropRecorder (hw.gone u p)] at hc
    split at hc
    · cases hc
    · exact Or.inl hc
  | endThread u =>
    cases h
    change c ∈ (w.detector.endThread u).stackOf t r at hc
    rw [Detector.stackOf_endThread] at hc
    split at hc
    · cases hc
    · exact Or.inl hc

theorem Sound.endThread (hw : w.Sound) (t : Thread) :
    ({ w with detector := w.detector.endThread t } : Realm).Sound := by
  refine ⟨hw.graphs, ?_, ?_, hw.proper.filter _, hw.recorders⟩
  · intro u p c hc
    change c ∈ (w.detector.endThread t).stackOf u p at hc
    rw [Detector.stackOf_endThread] at hc
    split at hc
    · cases hc
    · exact hw.stacked u p c hc
  · intro u p hu
    change (w.detector.endThread t).isGone u = true at hu
    change (w.detector.endThread t).stackOf u p = []
    rw [Detector.isGone_endThread, Bool.or_eq_true, beq_iff_eq] at hu
    rw [Detector.stackOf_endThread]
    split
    · rfl
    · next hne => exact hw.gone u p (hu.resolve_left hne)

theorem Sound.sweep (hw : w.Sound) (i : Nat) :
    ({ w with detector := (w.detector.sweepGraph w.isAlive i).1 } : Realm).Sound := by
  refine ⟨?_, hw.stacked, hw.gone, hw.proper, ?_⟩
  · intro j
    change World.Sound ⟨_, (w.detector.setGraph i _).graphAt j⟩
    rw [Detector.graphAt_setGraph]
    split
    · have hswept := (hw.world i).sweep
      rw [hw.isAlive_census] at hswept
      exact ⟨hswept.intact, hswept.nodes⟩
    · exact hw.graphs j
  · intro q hq
    change _ < (w.detector.graphs.set i _).length ∧ _
    rw [List.length_set]
    exact hw.recorders q hq

theorem Sound.step (hw : w.Sound) (h : w.step e = some (v, x)) : v.Sound := by
  cases e with
  | create c =>
    obtain ⟨-, rfl, -⟩ := step_create h
    refine ⟨fun i => ⟨(hw.graphs i).intact, fun a n hn => ?_⟩, ?_, hw.gone, hw.proper, hw.recorders⟩
    · exact ((hw.graphs i).nodes a n hn).imp fun d hd => hd.imp_left (List.mem_cons_of_mem c)
    · exact fun t r d hd => List.mem_cons_of_mem c (hw.stacked t r d hd)
  | drop c =>
    obtain ⟨-, rfl, -⟩ := step_drop h
    exact ⟨fun i => ⟨(hw.graphs i).intact, (hw.graphs i).nodes⟩, hw.stacked, hw.gone, hw.proper,
      hw.recorders⟩
  | addGraph n =>
    cases h
    refine ⟨?_, hw.stacked, hw.gone, hw.proper, ?_⟩
    · intro i
      change World.Sound ⟨_, Detector.graphAt { w.detector with graphs := _ } i⟩
      rw [Detector.graphAt_addGraph]
      split
      · exact ⟨Graph.intact_empty n, by simp [Graph.empty]⟩
      · exact hw.graphs i
    · intro q hq
      obtain ⟨hgraph, hsink⟩ := hw.recorders q hq
      refine ⟨?_, hsink⟩
      change _ < (w.detector.graphs ++ [_]).length
      rw [List.length_append]
      omega
  | addSink sink =>
    cases (step_addSink h).2
    refine ⟨hw.graphs, hw.stacked, hw.gone, hw.proper, ?_⟩
    intro q hq
    obtain ⟨hgraph, hsink⟩ := hw.recorders q hq
    refine ⟨hgraph, fun i hi => ?_⟩
    have := hsink i hi
    change i < (w.detector.sinks ++ [sink]).length
    rw [List.length_append]
    omega
  | addRecorder graph settings probe sink =>
    obtain ⟨hthere, hact⟩ := step_addRecorder h
    cases hact
    refine ⟨hw.graphs, hw.stacked, hw.gone, hw.proper, ?_⟩
    intro q hq
    rcases List.mem_append.1 hq with hq | hq
    · exact hw.recorders q hq
    · rw [List.mem_singleton.1 hq]
      exact hthere
  | begin held t r c site =>
    obtain ⟨q, b, -, -, hcase⟩ := step_begin hw h
    split at hcase
    · rw [hcase.1]
      exact hw
    · exact hcase.sound hw
  | release t r c =>
    rcases step_release h with rfl | rfl
    · exact hw
    · exact hw.push_sublist (eraseLast_sublist c _)
  | dropRecorder t r =>
    rcases step_dropRecorder h with rfl | rfl
    · exact hw
    · exact hw.push_sublist (List.nil_sublist _)
  | endThread t =>
    cases h
    exact hw.endThread t
  | sweep i =>
    cases h
    exact hw.sweep i
  | drain i =>
    obtain ⟨rfl, -⟩ := step_drain h
    refine ⟨hw.graphs, hw.stacked, hw.gone, hw.proper, ?_⟩
    dsimp only
    rw [List.length_modify]
    exact hw.recorders

theorem sound_run {es : List Deed} {xs : List Reply} (h : start.run es = some (w, xs)) : w.Sound :=
  runWith_induction (P := fun _ w _ => w.Sound) sound_start (fun _ _ _ _ _ _ _ hu hv => hu.step hv) h

/-- Classifiers are made and lose their last handle, and nothing else happens to them. -/
theorem population_step (h : w.step e = some (v, x)) : v.population = w.population ∨
    (∃ c, c.isIn w.population.born = false ∧
      v.population = { w.population with born := c :: w.population.born }) ∨
    ∃ c : Classifier, v.population = { w.population with dead := c.id :: w.population.dead } := by
  cases e with
  | create c =>
    obtain ⟨hnew, rfl, -⟩ := step_create h
    exact Or.inr (Or.inl ⟨c, hnew, rfl⟩)
  | drop c =>
    obtain ⟨-, rfl, -⟩ := step_drop h
    exact Or.inr (Or.inr ⟨c, rfl⟩)
  | begin held t r c site =>
    rw [step, Option.ite_none_right_eq_some, Option.some_inj] at h
    cases h.2
    exact Or.inl rfl
  | addSink sink =>
    cases (step_addSink h).2
    exact Or.inl rfl
  | addRecorder graph settings probe sink =>
    cases (step_addRecorder h).2
    exact Or.inl rfl
  | addGraph | release | dropRecorder | endThread | sweep | drain =>
    cases h
    exact Or.inl rfl

theorem born_step (h : w.step e = some (v, x)) {c : Classifier} (hc : c ∈ w.population.born) :
    c ∈ v.population.born := by
  rcases population_step h with h | ⟨d, -, h⟩ | ⟨d, h⟩
  · rw [h]
    exact hc
  · rw [h]
    exact List.mem_cons_of_mem d hc
  · rw [h]
    exact hc

/-- What is alive was alive before, unless it has just been made. -/
theorem Sound.isAlive_step (hw : w.Sound) (h : w.step e = some (v, x)) {c : Classifier}
    (hc : c ∈ w.population.born) (hv : v.isAlive c.id = true) : w.isAlive c.id = true := by
  rcases (hw.step h).isAlive_iff.1 hv with hpinned | ⟨t, r, d, hd, hid⟩
  · obtain ⟨-, halive⟩ := Population.isAlive_iff.1 hpinned
    refine hw.isAlive_iff.2 (Or.inl (Population.isAlive_iff.2 ⟨⟨c, hc, rfl⟩, ?_⟩))
    rcases population_step h with h | ⟨d, -, h⟩ | ⟨d, h⟩
    · rwa [h] at halive
    · rwa [h] at halive
    · rw [h] at halive
      exact fun hdead => halive (List.mem_cons_of_mem d.id hdead)
  · rw [← hid]
    rcases mem_stackOf_step hw h hd with hd | hd
    · exact isAlive_of_mem_stackOf hd
    · exact isAlive_of_has hd

/-- What has died stays dead. -/
theorem Sound.dead_step (hw : w.Sound) (h : w.step e = some (v, x)) (ha : a ∈ w.census.dead) :
    a ∈ v.census.dead := by
  obtain ⟨⟨c, hc, rfl⟩, hdead⟩ := mem_dead_census.1 ha
  refine mem_dead_census.2 ⟨⟨c, born_step h hc, rfl⟩, ?_⟩
  rw [Bool.eq_false_iff]
  intro hv
  rw [hw.isAlive_step h hc hv] at hdead
  cases hdead

/-- No edge between the living is lost. -/
theorem Sound.hasEdge_step (hw : w.Sound) (h : w.step e = some (v, x))
    (hab : (w.detector.graphAt i).hasEdge a b = true) (ha : v.isAlive a = true)
    (hb : v.isAlive b = true) : (v.detector.graphAt i).hasEdge a b = true := by
  cases e with
  | create c =>
    obtain ⟨-, rfl, -⟩ := step_create h
    exact hab
  | drop c =>
    obtain ⟨-, rfl, -⟩ := step_drop h
    exact hab
  | addGraph n =>
    cases h
    change (Detector.graphAt { w.detector with graphs := _ } i).hasEdge a b = true
    rw [Detector.graphAt_addGraph]
    split
    · next hi =>
      have hnone : w.detector.graphAt i = .empty Graph.standardSweep := by
        rw [hi, Detector.graphAt, List.getElem?_eq_none (Nat.le_refl _)]
        rfl
      rw [hnone] at hab
      simp [Graph.hasEdge, Graph.empty] at hab
    · exact hab
  | addSink sink =>
    cases (step_addSink h).2
    exact hab
  | addRecorder graph settings probe sink =>
    cases (step_addRecorder h).2
    exact hab
  | begin held t r c site =>
    obtain ⟨q, out, -, -, hcase⟩ := step_begin hw h
    split at hcase
    · rw [hcase.1]
      exact hab
    · rw [hcase.isAlive] at ha hb
      rw [hcase.graphAt hw]
      split
      · next hi =>
        rw [hi] at hab
        exact (hw.intact q.graph).hasEdge_learn (Or.inl hab) ha hb
      · exact hab
  | sweep j =>
    cases h
    change ((w.detector.setGraph j _).graphAt i).hasEdge a b = true
    rw [Detector.graphAt_setGraph]
    split
    · next hi =>
      rw [hi.1] at hab
      exact (hw.intact j).hasEdge_of_alive hab ha hb
    · exact hab
  | release t r c => rcases step_release h with rfl | rfl <;> exact hab
  | dropRecorder t r => rcases step_dropRecorder h with rfl | rfl <;> exact hab
  | endThread t =>
    cases h
    exact hab
  | drain j =>
    obtain ⟨rfl, -⟩ := step_drain h
    exact hab

end Realm

end LockDiscipline.Order
