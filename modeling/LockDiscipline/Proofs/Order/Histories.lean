import LockDiscipline.Proofs.Order.Realm
import Mathlib.Data.List.Nodup

namespace LockDiscipline.Order

namespace Detector

/-- The violations that a recorder keeps. -/
def historyOf (d : Detector) (r : Nat) : List Violation := (d.recorders[r]?).elim [] (·.history)

/-- The violations that recorders on a graph keep. -/
def historiesOn (d : Detector) (i : Nat) : List Violation :=
  d.recorders.flatMap fun q => if q.graph = i then q.history else []

def receivedAt (d : Detector) (i : Nat) : List Violation := (d.sinks[i]?).elim [] Sink.received

/-- Whether the sink of a recorder fails over violations. -/
def loses (d : Detector) (r : Nat) (vs : List Violation) : Bool :=
  (d.recorders[r]?).any fun q => (d.failure? q.sink vs).isSome

end Detector

namespace Realm

open Detector (Reply)

/-- The violations of the acquisitions on a recorder. -/
def foundBy (r : Nat) : Deed → Reply → List Violation
  | .begin _ _ p _ _, .began b => if p = r then b.outcome.violations else []
  | _, _ => []

/-- What was drained from a sink. -/
def drawnFrom (i : Nat) : Deed → Reply → List Violation
  | .drain j, .drained vs => if j = i then vs else []
  | _, _ => []

variable {w v : Realm} {e : Deed} {x : Reply} {es : List Deed} {xs : List Reply} {i r : Nat}
  {a c : ClassifierId} {held : ClassifierId → Bool} {t : Thread} {site : String} {d : Classifier}
  {q : Recorder} {b : Began}

/-- What a deed does to recorders and sinks. -/
inductive Books (w : Realm) : Deed → Realm → Reply → Prop where
  | same {e : Deed} {v : Realm} {x : Reply} (recorders : v.detector.recorders = w.detector.recorders)
      (sinks : v.detector.sinks = w.detector.sinks) (found : ∀ r, foundBy r e x = [])
      (drawn : ∀ i, drawnFrom i e x = []) : Books w e v x
  | sink {sink : Sink} {v : Realm} {x : Reply} (empty : sink.received = [] ∧ sink.heard = [])
      (recorders : v.detector.recorders = w.detector.recorders)
      (sinks : v.detector.sinks = w.detector.sinks ++ [sink]) : Books w (.addSink sink) v x
  | recorder {graph : Nat} {settings : Config.RecorderSettings} {probe : Probe} {sink : Option Nat}
      {v : Realm} {x : Reply}
      (recorders : v.detector.recorders = w.detector.recorders ++ [⟨graph, settings, probe, sink, []⟩])
      (sinks : v.detector.sinks = w.detector.sinks) :
      Books w (.addRecorder graph settings probe sink) v x
  | drain {i : Nat} {v : Realm} (recorders : v.detector.recorders = w.detector.recorders)
      (sinks : v.detector.sinks = w.detector.sinks.modify i Sink.drain) :
      Books w (.drain i) v (.drained (w.detector.receivedAt i))
  | fresh {held : ClassifierId → Bool} {t : Thread} {r : Nat} {c : Classifier} {site : String}
      {q : Recorder} {v : Realm} {b : Began} (acquired : w.Fresh q held t r c site v b) :
      Books w (.begin held t r c site) v (.began b)

theorem books_step (hw : w.Sound) (h : w.step e = some (v, x)) : w.Books e v x := by
  cases e with
  | create c =>
    obtain ⟨-, rfl, rfl⟩ := step_create h
    exact .same rfl rfl (fun _ => rfl) fun _ => rfl
  | drop c =>
    obtain ⟨-, rfl, rfl⟩ := step_drop h
    exact .same rfl rfl (fun _ => rfl) fun _ => rfl
  | addSink sink =>
    obtain ⟨hempty, hact⟩ := step_addSink h
    cases hact
    exact .sink hempty rfl rfl
  | addRecorder graph settings probe sink =>
    cases (step_addRecorder h).2
    exact .recorder rfl rfl
  | begin held t r c site =>
    obtain ⟨q, b, -, rfl, hcase⟩ := step_begin hw h
    split at hcase
    · obtain ⟨rfl, rfl⟩ := hcase
      exact .same rfl rfl (fun _ => ite_self _) fun _ => rfl
    · exact .fresh hcase
  | drain i =>
    obtain ⟨rfl, rfl⟩ := step_drain h
    exact .drain rfl rfl
  | release t r c =>
    have hfound : ∀ p, foundBy p (.release t r c) x = [] := fun p => by cases x <;> rfl
    have hdrawn : ∀ i, drawnFrom i (.release t r c) x = [] := fun i => by cases x <;> rfl
    rcases step_release h with rfl | rfl <;> exact .same rfl rfl hfound hdrawn
  | dropRecorder t r =>
    have hfound : ∀ p, foundBy p (.dropRecorder t r) x = [] := fun p => by cases x <;> rfl
    have hdrawn : ∀ i, drawnFrom i (.dropRecorder t r) x = [] := fun i => by cases x <;> rfl
    rcases step_dropRecorder h with rfl | rfl <;> exact .same rfl rfl hfound hdrawn
  | addGraph | endThread | sweep =>
    cases h
    exact .same rfl rfl (fun _ => rfl) fun _ => rfl

/-- The list of recorders, taken apart where the acquisition was. -/
theorem Fresh.split (h : w.Fresh q held t r d site v b) :
    ∃ before after, w.detector.recorders = before ++ q :: after ∧ before.length = r ∧
      v.detector.recorders = before ++ (if (w.detector.failure? q.sink b.outcome.violations).isSome
        then q else { q with history := q.history ++ b.outcome.violations }) :: after := by
  obtain ⟨hr, hq⟩ := List.getElem?_eq_some_iff.1 h.recorder
  obtain ⟨before, p, after, hsplit, hlength, hmodify⟩ :=
    List.exists_of_modify (fun p : Recorder => { p with history := p.history ++ b.outcome.violations })
      hr
  have hp : p = q := by
    have hget := h.recorder
    rw [hsplit, List.getElem?_append_right (by omega), hlength, Nat.sub_self] at hget
    simpa using hget
  subst hp
  refine ⟨before, after, hsplit, hlength, ?_⟩
  rw [h.recorders]
  split
  · exact hsplit
  · exact hmodify

/-- A sink only receives and is drained. -/
theorem sinks_step (hw : w.Sound) (h : w.step e = some (v, x)) {s : Sink}
    (hs : w.detector.sinks[i]? = some s) :
    ∃ k, v.detector.sinks[i]? = some k ∧ (k = s.drain ∨ ∃ vs, k = s.receiveAll vs) := by
  have hsame : v.detector.sinks[i]? = some s → ∃ k, v.detector.sinks[i]? = some k ∧
      (k = s.drain ∨ ∃ vs, k = s.receiveAll vs) := fun hv => ⟨s, hv, Or.inr ⟨[], rfl⟩⟩
  cases books_step hw h with
  | same hrecorders hsinks | recorder hrecorders hsinks =>
    rw [← hsinks] at hs
    exact hsame hs
  | sink hempty hrecorders hsinks =>
    refine hsame ?_
    rw [hsinks, List.getElem?_append_left (List.getElem?_eq_some_iff.1 hs).1, hs]
  | @drain j v hrecorders hsinks =>
    rw [hsinks, List.getElem?_modify, hs]
    by_cases hj : j = i
    · exact ⟨s.drain, by simp [hj], Or.inl rfl⟩
    · exact ⟨s, by simp [hj], Or.inr ⟨[], rfl⟩⟩
  | @fresh held t r c site q v b hfresh =>
    rw [hfresh.sinks]
    cases q.sink with
    | none => exact ⟨s, hs, Or.inr ⟨[], rfl⟩⟩
    | some j =>
      rw [Detector.sinksAfter, Option.elim_some, List.getElem?_modify, hs]
      by_cases hj : j = i
      · refine ⟨_, ?_, Or.inr ⟨w.detector.heard (some j) b.outcome.violations, rfl⟩⟩
        simp [hj]
      · exact ⟨s, by simp [hj], Or.inr ⟨[], rfl⟩⟩

theorem historyOf_step (hw : w.Sound) (h : w.step e = some (v, x)) (r : Nat) :
    v.detector.historyOf r =
      w.detector.historyOf r ++
        if w.detector.loses r (foundBy r e x) then [] else foundBy r e x := by
  have hsame : v.detector.recorders = w.detector.recorders → foundBy r e x = [] →
      v.detector.historyOf r =
        w.detector.historyOf r ++
          if w.detector.loses r (foundBy r e x) then [] else foundBy r e x := by
    intro hrecorders hfound
    rw [Detector.historyOf, hrecorders, hfound, ite_self, List.append_nil]
    rfl
  cases books_step hw h with
  | same hrecorders hsinks hfound hdrawn => exact hsame hrecorders (hfound r)
  | sink hempty hrecorders hsinks => exact hsame hrecorders rfl
  | drain hrecorders hsinks => exact hsame hrecorders rfl
  | recorder hrecorders hsinks =>
    rw [Detector.historyOf, Detector.historyOf, hrecorders, List.getElem?_append]
    have hfound : ∀ graph settings probe sink,
        foundBy r (.addRecorder graph settings probe sink) x = [] := fun _ _ _ _ => rfl
    rw [hfound, ite_self, List.append_nil]
    split
    · rfl
    · next hr =>
      rw [List.getElem?_eq_none (Nat.not_lt.1 hr)]
      cases r - w.detector.recorders.length <;> rfl
  | @fresh held t p c site q v b hfresh =>
    have hfound : foundBy r (.begin held t p c site) (.began b) =
        if p = r then b.outcome.violations else [] := rfl
    rw [Detector.historyOf, Detector.historyOf, hfresh.recorders, hfound]
    by_cases hp : p = r
    · subst hp
      rw [if_pos rfl, Detector.loses, hfresh.recorder, Option.any_some]
      cases w.detector.failure? q.sink b.outcome.violations <;> simp [hfresh.recorder]
    · rw [if_neg hp, ite_self, List.append_nil]
      split
      · rfl
      · rw [List.getElem?_modify_ne _ _ hp]

/-- No acquisition reports the pair any more: the graph knows it, or one of the two has died. -/
def Settled (w : Realm) (i : Nat) (p : Pair) : Prop :=
  (w.detector.graphAt i).known.contains p = true ∨ ∃ a ∈ w.census.dead, p.contains a = true

theorem settled_iff : w.Settled i (.of a c) ↔
    (w.detector.graphAt i).isKnown a c = true ∨ a ∈ w.census.dead ∨ c ∈ w.census.dead := by
  unfold Settled
  simp only [Pair.contains_of, and_or_left, exists_or, exists_eq_right']
  rfl

/-- What is settled stays settled. -/
theorem settled_step (hw : w.Sound) (h : w.step e = some (v, x)) (hs : w.Settled i (.of a c)) :
    v.Settled i (.of a c) := by
  rw [settled_iff] at hs ⊢
  rcases hs with hknown | ha | hc
  · obtain ⟨hac, hca⟩ := ((hw.intact i).known a c).1 hknown
    obtain ⟨hna, hnc⟩ := (hw.intact i).ends a c hac
    have hborn : ∀ b ∈ (w.detector.graphAt i).nodes, ∃ d ∈ v.population.born, d.id = b := by
      intro b hb
      obtain ⟨n, hn⟩ := Option.isSome_iff_exists.1 (Std.ExtTreeMap.mem_iff_isSome_getElem?.1 hb)
      obtain ⟨d, hd, hid, -⟩ := (hw.graphs i).nodes b n hn
      exact ⟨d, born_step h hd, hid⟩
    cases ha : v.isAlive a with
    | false => exact Or.inr (Or.inl (mem_dead_census.2 ⟨hborn a hna, ha⟩))
    | true =>
      cases hc : v.isAlive c with
      | false => exact Or.inr (Or.inr (mem_dead_census.2 ⟨hborn c hnc, hc⟩))
      | true =>
        exact Or.inl ((((hw.step h).intact i).known a c).2
          ⟨hw.hasEdge_step h hac ha hc, hw.hasEdge_step h hca hc ha⟩)
  · exact Or.inr (Or.inl (hw.dead_step h ha))
  · exact Or.inr (Or.inr (hw.dead_step h hc))

/-- The violations of an acquisition are the pairs that the graph gets to know by it. -/
theorem Fresh.mem_violations (hw : w.Sound) (h : w.Fresh q held t r d site v b) :
    Pair.of a c ∈ b.outcome.violations.map (·.pair) ↔
      (v.detector.graphAt q.graph).isKnown a c = true ∧
        (w.detector.graphAt q.graph).isKnown a c = false := by
  have halive : ∀ o ∈ w.kept held t r ++ [d], (w.pushed held t r d).isAlive o.id = true := by
    intro o ho
    refine isAlive_of_mem_stackOf (t := t) (r := r) ?_
    rw [pushed, push, Detector.stackOf_setStack, if_pos rfl]
    exact ho
  rw [h.outcome, h.graphAt hw, if_pos rfl]
  exact (hw.intact q.graph).mem_learnt (halive d (by simp)) fun o ho => halive o (by simp [ho])

theorem Fresh.nodup (h : w.Fresh q held t r d site v b) :
    (b.outcome.violations.map (·.pair)).Nodup := by
  rw [h.outcome]
  exact Graph.learn_nodup _ _ _ _ _

/-- A pair is reported when it is not settled, and settled then. -/
theorem Fresh.settled (hw : w.Sound) (h : w.Fresh q held t r d site v b) {y : Violation}
    (hy : y ∈ b.outcome.violations) :
    ¬ w.Settled q.graph y.pair ∧ v.Settled q.graph y.pair := by
  have hmem : Pair.of y.conflicting.older.id y.conflicting.younger.id ∈
      b.outcome.violations.map (·.pair) := List.mem_map.2 ⟨y, hy, rfl⟩
  obtain ⟨hknown, hnew⟩ := (h.mem_violations hw).1 hmem
  refine ⟨?_, settled_iff.2 (Or.inl hknown)⟩
  -- both classifiers of the pair are alive: one is on the stack, and there is a handle on the other
  have hpair := hy
  rw [h.outcome] at hpair
  obtain ⟨o, ho, -, hpair, -, -⟩ := Graph.learn_violation hpair
  have holder := not_dead_of_isAlive (isAlive_of_mem_stackOf (List.mem_of_mem_filter ho))
  have hyounger := not_dead_of_isAlive (isAlive_of_has h.handle)
  rw [hpair, settled_iff]
  rintro (hk | hdead | hdead)
  · rw [Graph.isKnown, ← hpair] at hk
    rw [Graph.isKnown, ← Violation.pair, hk] at hnew
    cases hnew
  · exact holder hdead
  · exact hyounger hdead

theorem Fresh.perm_historiesOn (h : w.Fresh q held t r d site v b) (i : Nat) :
    (v.detector.historiesOn i).Perm
      ((if q.graph = i ∧ w.detector.failure? q.sink b.outcome.violations = none then
        b.outcome.violations else []) ++ w.detector.historiesOn i) := by
  obtain ⟨before, after, hold, -, hnew⟩ := h.split
  rw [Detector.historiesOn, Detector.historiesOn, hold, hnew]
  simp only [List.flatMap_append, List.flatMap_cons]
  by_cases hi : q.graph = i
  · cases hf : w.detector.failure? q.sink b.outcome.violations with
    | some message => simp [hi]
    | none =>
      simpa [hi] using List.perm_append_comm_assoc
        (before.flatMap (fun p => if p.graph = i then p.history else []) ++ q.history)
        b.outcome.violations (after.flatMap fun p => if p.graph = i then p.history else [])
  · cases w.detector.failure? q.sink b.outcome.violations <;> simp [hi]

/-- What a deed adds to the histories on a graph are pairs that it settles. -/
theorem historiesOn_step (hw : w.Sound) (h : w.step e = some (v, x)) (i : Nat) :
    ∃ vs, (v.detector.historiesOn i).Perm (vs ++ w.detector.historiesOn i) ∧
      (vs.map (·.pair)).Nodup ∧ ∀ y ∈ vs, ¬ w.Settled i y.pair ∧ v.Settled i y.pair := by
  have hsame : v.detector.historiesOn i = w.detector.historiesOn i →
      ∃ vs, (v.detector.historiesOn i).Perm (vs ++ w.detector.historiesOn i) ∧
        (vs.map (·.pair)).Nodup ∧ ∀ y ∈ vs, ¬ w.Settled i y.pair ∧ v.Settled i y.pair := by
    intro heq
    refine ⟨[], ?_, List.nodup_nil, by simp⟩
    rw [heq, List.nil_append]
  cases books_step hw h with
  | same hrecorders | sink hempty hrecorders | drain hrecorders =>
    refine hsame ?_
    rw [Detector.historiesOn, hrecorders]
    rfl
  | recorder hrecorders =>
    refine hsame ?_
    rw [Detector.historiesOn, hrecorders]
    simp [Detector.historiesOn]
  | @fresh held t r c site q v b hfresh =>
    refine ⟨_, hfresh.perm_historiesOn i, ?_, ?_⟩
    · split
      · exact hfresh.nodup
      · exact List.nodup_nil
    · intro y hy
      split at hy
      · next hi =>
        rw [← hi.1]
        exact hfresh.settled hw hy
      · cases hy

/-- No pair stands twice in the histories on a graph, and all of them are settled. -/
structure Booked (w : Realm) (i : Nat) : Prop where
  nodup : ((w.detector.historiesOn i).map (·.pair)).Nodup
  settled : ∀ y ∈ w.detector.historiesOn i, w.Settled i y.pair

theorem Booked.step (hw : w.Sound) (hbooked : w.Booked i) (h : w.step e = some (v, x)) :
    v.Booked i := by
  obtain ⟨vs, hperm, hnodup, hnew⟩ := historiesOn_step hw h i
  refine ⟨?_, ?_⟩
  · rw [(hperm.map _).nodup_iff, List.map_append, List.nodup_append]
    refine ⟨hnodup, hbooked.nodup, ?_⟩
    rintro p hp p' hp' rfl
    obtain ⟨y, hy, rfl⟩ := List.mem_map.1 hp
    obtain ⟨z, hz, hpair⟩ := List.mem_map.1 hp'
    refine (hnew y hy).1 ?_
    rw [← hpair]
    exact hbooked.settled z hz
  · intro y hy
    rcases List.mem_append.1 (hperm.mem_iff.1 hy) with hy | hy
    · exact (hnew y hy).2
    · exact settled_step hw h (hbooked.settled y hy)

theorem booked_run (h : start.run es = some (w, xs)) (i : Nat) : w.Booked i := by
  refine runWith_induction (P := fun _ w _ => w.Booked i) ⟨List.nodup_nil, by simp [start,
    Detector.empty, Detector.historiesOn]⟩ ?_ h
  intro es u xs e v x hu hbooked hstep
  exact hbooked.step (sound_run hu) hstep

/-- A settled pair that is in no history never gets into one. -/
theorem not_mem_step (hw : w.Sound) (h : w.step e = some (v, x)) {p : Pair}
    (hsettled : w.Settled i p) (hp : p ∉ (w.detector.historiesOn i).map (·.pair)) :
    p ∉ (v.detector.historiesOn i).map (·.pair) := by
  obtain ⟨vs, hperm, -, hnew⟩ := historiesOn_step hw h i
  rw [(hperm.map _).mem_iff, List.map_append, List.mem_append]
  rintro (hmem | hmem)
  · obtain ⟨y, hy, rfl⟩ := List.mem_map.1 hmem
    exact (hnew y hy).1 hsettled
  · exact hp hmem

/-- What a recorder keeps it keeps for good. -/
theorem mem_historyOf_run {fs : List Deed} {ys : List Reply} {z : Realm} (hv : v.Sound)
    (h : v.run fs = some (z, ys)) {y : Violation} (hy : y ∈ v.detector.historyOf r) :
    y ∈ z.detector.historyOf r := by
  refine (runWith_induction (P := fun _ u _ => u.Sound ∧ y ∈ u.detector.historyOf r) ⟨hv, hy⟩ ?_ h).2
  rintro fs u ys e w x - ⟨hu, hmem⟩ hstep
  rw [historyOf_step hu hstep]
  exact ⟨hu.step hstep, List.mem_append_left _ hmem⟩

theorem not_mem_historiesOn_run {fs : List Deed} {ys : List Reply} {z : Realm} (hv : v.Sound)
    (h : v.run fs = some (z, ys)) (hsettled : v.Settled i (.of a c))
    (hnone : Pair.of a c ∉ (v.detector.historiesOn i).map (·.pair)) :
    Pair.of a c ∉ (z.detector.historiesOn i).map (·.pair) := by
  refine (runWith_induction (P := fun _ u _ => u.Sound ∧ u.Settled i (.of a c) ∧
    Pair.of a c ∉ (u.detector.historiesOn i).map (·.pair)) ⟨hv, hsettled, hnone⟩ ?_ h).2.2
  rintro fs u ys e w x - ⟨hu, hs, hmem⟩ hstep
  exact ⟨hu.step hstep, settled_step hu hstep hs, not_mem_step hu hstep hs hmem⟩

theorem Booked.nodup_historyOf (h : ∀ i, w.Booked i) (r : Nat) :
    ((w.detector.historyOf r).map (·.pair)).Nodup := by
  unfold Detector.historyOf
  cases hq : w.detector.recorders[r]? with
  | none => exact List.nodup_nil
  | some q =>
    have hsublist : q.history.Sublist (w.detector.historiesOn q.graph) := by
      have hmem := List.sublist_flatten_of_mem (List.mem_map_of_mem
        (f := fun p : Recorder => if p.graph = q.graph then p.history else [])
        (List.mem_of_getElem? hq))
      rw [if_pos rfl] at hmem
      exact hmem
    exact (hsublist.map _).nodup (h q.graph).nodup

/-- Whatever comes later, a recorder has each pair that an acquisition on it found in its history
once, unless a delivery of that acquisition fails, be it of this pair or of another and after any
number of others that returned: then the pair is in no history on the graph, although the graph
knows it. -/
theorem kept_unless_sink_fails {held : ClassifierId → Bool} {t : Thread} {site : String}
    {d : Classifier} {b : Began} {fs : List Deed} {ys : List Reply} {z : Realm} {q : Recorder} {y : Violation}
    (h : start.run es = some (w, xs)) (hq : w.detector.recorders[r]? = some q)
    (hbegin : w.step (.begin held t r d site) = some (v, .began b))
    (hlater : v.run fs = some (z, ys)) (hy : y ∈ b.outcome.violations) :
    (v.detector.graphAt q.graph).known.contains y.pair = true ∧
      match w.detector.failure? q.sink b.outcome.violations with
      | some message => b.verdict = .stopped message ∧
        (∃ s before u after, w.detector.sinkOf q.sink = some s ∧
          b.outcome.violations = before ++ u :: after ∧ s.failure? before = none ∧
            ((s.receiveAll before).receive u).2 = some message) ∧
        y.pair ∉ (z.detector.historiesOn q.graph).map (·.pair)
      | none => y ∈ z.detector.historyOf r ∧
        ((z.detector.historyOf r).map (·.pair)).count y.pair = 1 := by
  have hw := sound_run h
  have hv := hw.step hbegin
  obtain ⟨q', b', hq', hb, hcase⟩ := step_begin hw hbegin
  cases hb
  rw [hq, Option.some_inj] at hq'
  subst hq'
  split at hcase
  · obtain ⟨-, rfl⟩ := hcase
    cases hy
  · obtain ⟨hnew, hsettled⟩ := hcase.settled hw hy
    have hknown := ((hcase.mem_violations hw).1 (List.mem_map_of_mem hy)).1
    refine ⟨hknown, ?_⟩
    cases hf : w.detector.failure? q.sink b.outcome.violations with
    | some message =>
      refine ⟨by rw [hcase.verdict, hcase.ending, hf]; rfl, Detector.failure?_eq_some_iff.1 hf, ?_⟩
      refine not_mem_historiesOn_run hv hlater hsettled ?_
      have hsame := hcase.perm_historiesOn q.graph
      rw [if_neg (by simp [hf]), List.nil_append] at hsame
      rw [(hsame.map _).mem_iff]
      intro hmem
      obtain ⟨y', hy', hpair⟩ := List.mem_map.1 hmem
      have hold := (booked_run h q.graph).settled y' hy'
      rw [hpair] at hold
      exact hnew hold
    | none =>
      have hkept : y ∈ v.detector.historyOf r := by
        have hfound : foundBy r (.begin held t r d site) (.began b) = b.outcome.violations :=
          if_pos rfl
        rw [historyOf_step hw hbegin, hfound, Detector.loses, hq, Option.any_some, hf]
        exact List.mem_append_right _ hy
      have hmem := mem_historyOf_run hv hlater hkept
      have hall := runWith_append (runWith_concat h hbegin) hlater
      exact ⟨hmem, List.count_eq_one_of_mem (Booked.nodup_historyOf (booked_run hall) r)
        (List.mem_map_of_mem hmem)⟩

/-- One thread holds a lock and takes two others, and another thread takes these two. The sink of
the recorder fails over the second violation that it is given, and over no other. -/
def halved : List Deed :=
  [.create ⟨1, "A"⟩, .create ⟨2, "B"⟩, .create ⟨3, "C"⟩, .addGraph 1,
    .addSink (.custom [] fun heard _ => if heard.length = 1 then some "sink failed" else none),
    .addRecorder 0 ⟨false, false, false, 1⟩ .monitor (some 0),
    .begin (fun _ => true) ⟨1, "t"⟩ 0 ⟨3, "C"⟩ "first",
    .begin (fun _ => true) ⟨1, "t"⟩ 0 ⟨1, "A"⟩ "second",
    .begin (fun _ => true) ⟨1, "t"⟩ 0 ⟨2, "B"⟩ "third",
    .begin (fun _ => true) ⟨2, "u"⟩ 0 ⟨1, "A"⟩ "fourth",
    .begin (fun _ => true) ⟨2, "u"⟩ 0 ⟨2, "B"⟩ "fifth"]

/-- The next acquisition finds two pairs. The delivery of the second one fails, and neither gets
into a history, not even when a third thread takes the locks once more. -/
theorem kept_unless_sink_fails_halved :
    ∃ w xs v b z ys, start.run halved = some (w, xs) ∧
      w.step (.begin (fun _ => true) ⟨2, "u"⟩ 0 ⟨3, "C"⟩ "sixth") = some (v, .began b) ∧
      v.run [.begin (fun _ => true) ⟨3, "v"⟩ 0 ⟨2, "B"⟩ "seventh",
        .begin (fun _ => true) ⟨3, "v"⟩ 0 ⟨3, "C"⟩ "eighth"] = some (z, ys) ∧
      b.outcome.violations.length = 2 ∧ (v.detector.sinks[0]?).map (·.heard.length) = some 2 ∧
      b.verdict = .stopped "sink failed" ∧
      ∀ y ∈ b.outcome.violations, (v.detector.graphAt 0).known.contains y.pair = true ∧
        y.pair ∉ (z.detector.historiesOn 0).map (·.pair) := by
  have hrun : (start.run halved).any (fun r =>
      (r.1.detector.recorders[0]?).any (fun q => q.graph = 0 ∧ q.sink = some 0) &&
      (r.1.step (.begin (fun _ => true) ⟨2, "u"⟩ 0 ⟨3, "C"⟩ "sixth")).any fun s =>
        let found := foundBy 0 (.begin (fun _ => true) ⟨2, "u"⟩ 0 ⟨3, "C"⟩ "sixth") s.2
        decide (found.length = 2) &&
        decide ((s.1.detector.sinks[0]?).map (·.heard.length) = some 2) &&
        decide (r.1.detector.failure? (some 0) found = some "sink failed") &&
        (s.1.run [.begin (fun _ => true) ⟨3, "v"⟩ 0 ⟨2, "B"⟩ "seventh",
          .begin (fun _ => true) ⟨3, "v"⟩ 0 ⟨3, "C"⟩ "eighth"]).isSome) = true := by
    decide +kernel
  obtain ⟨⟨w, xs⟩, h, hw⟩ := (Option.any_eq_true _ _).mp hrun
  simp only [Bool.and_eq_true, decide_eq_true_iff, Option.any_eq_true,
    Option.isSome_iff_exists] at hw
  obtain ⟨⟨q, hq, hgraph, hsink⟩, ⟨v, x⟩, hv, ⟨⟨htwo, hheard⟩, hfails⟩, ⟨z, ys⟩, hz⟩ := hw
  obtain ⟨-, b, -, rfl, -⟩ := step_begin (sound_run h) hv
  have hlost : ∀ y ∈ b.outcome.violations, (v.detector.graphAt 0).known.contains y.pair = true ∧
      b.verdict = .stopped "sink failed" ∧ y.pair ∉ (z.detector.historiesOn 0).map (·.pair) := by
    intro y hy
    have hkept := kept_unless_sink_fails h hq hv hz hy
    rw [hsink, show w.detector.failure? (some 0) b.outcome.violations = some "sink failed" from hfails,
      hgraph] at hkept
    exact ⟨hkept.1, hkept.2.1, hkept.2.2.2⟩
  obtain ⟨y, hy⟩ := List.exists_mem_of_length_pos (show 0 < b.outcome.violations.length by
    rw [show b.outcome.violations.length = 2 from htwo]
    decide)
  exact ⟨w, xs, v, b, z, ys, h, hv, hz, htwo, hheard, (hlost y hy).2.1,
    fun y hy => ⟨(hlost y hy).1, (hlost y hy).2.2⟩⟩

/-- A thread takes two locks and lets go of both, and then it takes the second one. The sink of the
recorder fails. -/
def unheard : List Deed :=
  [.create ⟨1, "A"⟩, .create ⟨2, "B"⟩, .addGraph 1,
    .addSink (.custom [] fun _ _ => some "sink failed"),
    .addRecorder 0 ⟨false, false, false, 1⟩ .monitor (some 0),
    .begin (fun _ => true) ⟨1, "t"⟩ 0 ⟨1, "A"⟩ "first",
    .begin (fun _ => true) ⟨1, "t"⟩ 0 ⟨2, "B"⟩ "second",
    .release ⟨1, "t"⟩ 0 ⟨2, "B"⟩, .release ⟨1, "t"⟩ 0 ⟨1, "A"⟩,
    .begin (fun _ => true) ⟨1, "t"⟩ 0 ⟨2, "B"⟩ "third"]

/-- The next acquisition finds a pair, and the graph knows it, but the recorder does not keep it. -/
theorem lost_to_failing_sink :
    ¬ ∀ w xs v b, start.run unheard = some (w, xs) →
      w.step (.begin (fun _ => true) ⟨1, "t"⟩ 0 ⟨1, "A"⟩ "fourth") = some (v, .began b) →
        ∀ p, (v.detector.graphAt 0).known.contains p = true →
          (w.detector.graphAt 0).known.contains p = false →
            ((v.detector.historyOf 0).map (·.pair)).count p = 1 := by
  have hrun : (start.run unheard).any (fun r =>
      !(r.1.detector.graphAt 0).known.contains (.of 1 2) &&
      (r.1.step (.begin (fun _ => true) ⟨1, "t"⟩ 0 ⟨1, "A"⟩ "fourth")).any fun s =>
        (s.1.detector.graphAt 0).known.contains (.of 1 2) &&
          decide (s.1.detector.historyOf 0 = [])) = true := by
    decide +kernel
  obtain ⟨⟨w, xs⟩, h, hw⟩ := (Option.any_eq_true _ _).mp hrun
  simp only [Bool.and_eq_true, decide_eq_true_iff, Option.any_eq_true, Bool.not_eq_true'] at hw
  obtain ⟨hnew, ⟨v, x⟩, hv, hknown, hnone⟩ := hw
  obtain ⟨-, b, -, rfl, -⟩ := step_begin (sound_run h) hv
  intro hkept
  have hcount := hkept w xs v b h hv _ hknown hnew
  rw [hnone] at hcount
  cases hcount

end Realm

end LockDiscipline.Order
