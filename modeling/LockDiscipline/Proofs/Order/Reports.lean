import LockDiscipline.Proofs.Order.Histories

namespace LockDiscipline.Order

namespace Sink

/-- Whether the sink keeps what it receives. -/
def isCollecting : Sink → Bool
  | collecting _ => true
  | custom _ _ => false

/-- Whether every delivery so far has returned. -/
def returned : Sink → Bool
  | collecting _ => true
  | custom heard answer => heard.zipIdx.all fun e => (answer (heard.take e.2) e.1).isNone

theorem isCollecting_receiveAll (s : Sink) (vs : List Violation) :
    (s.receiveAll vs).isCollecting = s.isCollecting := by
  induction vs generalizing s with
  | nil => rfl
  | cons v vs ih =>
    refine (ih (s.receive v).1).trans ?_
    cases s <;> rfl

theorem isCollecting_drain (s : Sink) : s.drain.isCollecting = s.isCollecting := by
  cases s <;> rfl

theorem returned_drain (s : Sink) : s.drain.returned = s.returned := by
  cases s <;> rfl

theorem returned_receive (s : Sink) (v : Violation) :
    (s.receive v).1.returned = (s.returned && (s.receive v).2.isNone) := by
  cases s with
  | collecting received => rfl
  | custom heard answer =>
    have hold : (heard.zipIdx.all fun e => (answer ((heard ++ [v]).take e.2) e.1).isNone) =
        heard.zipIdx.all fun e => (answer (heard.take e.2) e.1).isNone := by
      rw [Bool.eq_iff_iff, List.all_eq_true, List.all_eq_true]
      refine forall₂_congr fun e he => ?_
      have hlt := (List.getElem?_eq_some_iff.1 (List.mem_zipIdx_iff_getElem?.1 he)).1
      rw [List.take_append_of_le_length (Nat.le_of_lt hlt)]
    simp only [receive, returned, List.zipIdx_append, List.all_append, hold]
    simp

/-- Where all deliveries have returned none of these has failed. -/
theorem returned_receiveAll_reached (s : Sink) (vs : List Violation) :
    (s.receiveAll (s.reached vs)).returned = (s.returned && (s.failure? vs).isNone) := by
  induction vs generalizing s with
  | nil => exact (Bool.and_true _).symm
  | cons v vs ih =>
    change ((s.receive v).1.receiveAll _).returned = _
    cases hv : (s.receive v).2 with
    | some message =>
      have hreceive := returned_receive s v
      rw [hv, Option.isNone_some, Bool.and_false] at hreceive
      simpa [failure?, hv, receiveAll] using hreceive
    | none =>
      have hreceive := returned_receive s v
      rw [hv, Option.isNone_none, Bool.and_true] at hreceive
      simp only [Option.isSome_none, Bool.false_eq_true, if_false, failure?, hv, Option.none_or]
      rw [ih, hreceive]

theorem returned_of_receiveAll {s : Sink} {vs : List Violation}
    (h : (s.receiveAll vs).returned = true) : s.returned = true := by
  induction vs generalizing s with
  | nil => exact h
  | cons v vs ih =>
    have hreceive := ih h
    rw [returned_receive, Bool.and_eq_true] at hreceive
    exact hreceive.1

theorem received_receiveAll {s : Sink} (h : s.isCollecting = true) (vs : List Violation) :
    (s.receiveAll vs).received = s.received ++ vs := by
  cases s with
  | collecting received =>
    rw [receiveAll_collecting]
    rfl
  | custom heard answer => cases h

end Sink

namespace Detector

/-- The violations that recorders with a sink keep. -/
def historiesFor (d : Detector) (i : Nat) : List Violation :=
  d.recorders.flatMap fun q => if q.sink = some i then q.history else []

theorem historiesFor_eq_nil (i : Nat) {ps : List Recorder}
    (h : ps.countP (fun q => q.sink = some i) = 0) :
    (ps.flatMap fun q => if q.sink = some i then q.history else []) = [] := by
  rw [List.countP_eq_zero] at h
  rw [List.flatMap_eq_nil_iff]
  intro p hp
  exact if_neg (by simpa using h p hp)

theorem historiesFor_of_only {d : Detector} {q : Recorder} {i : Nat} (hq : q ∈ d.recorders)
    (hi : q.sink = some i) (honly : d.recorders.countP (fun p => p.sink = some i) = 1) :
    d.historiesFor i = q.history := by
  obtain ⟨before, after, hsplit⟩ := List.append_of_mem hq
  rw [hsplit, List.countP_append, List.countP_cons_of_pos (by simpa using hi)] at honly
  have hbefore : before.countP (fun p => p.sink = some i) = 0 := by omega
  have hafter : after.countP (fun p => p.sink = some i) = 0 := by omega
  rw [historiesFor, hsplit]
  simp [hi, historiesFor_eq_nil i hbefore, historiesFor_eq_nil i hafter]

end Detector

namespace Realm

open Detector (Reply)

variable {w v : Realm} {e : Deed} {x : Reply} {es : List Deed} {xs : List Reply} {i r : Nat}
  {held : ClassifierId → Bool} {t : Thread} {site : String} {d : Classifier}
  {q : Recorder} {b : Began}

/-- What an acquisition does with its violations when no delivery fails. -/
structure Told (w : Realm) (r : Nat) (q : Recorder) (v : Realm) (b : Began) : Prop where
  /-- They are the pairs that the graph gets to know by it. -/
  known : ∀ a c, Pair.of a c ∈ b.outcome.violations.map (·.pair) ↔
    (v.detector.graphAt q.graph).isKnown a c = true ∧
      (w.detector.graphAt q.graph).isKnown a c = false
  warnings : b.log.filter (fun line => line.level = .warn) =
    b.outcome.violations.map Violation.warning
  sinks : v.detector.sinks = w.detector.sinksAfter q.sink b.outcome.violations
  recorders : v.detector.recorders = w.detector.recorders.modify r fun p =>
    { p with history := p.history ++ b.outcome.violations }
  verdict : b.verdict = if q.settings.strict then
    (b.outcome.violations.head?).elim .returned fun y => .stopped y.describe else .returned

/-- Nothing but violations is a warning. -/
theorem Fresh.warnings (h : w.Fresh q held t r d site v b) :
    b.log.filter (fun line => line.level = .warn) =
      (w.detector.heard q.sink b.outcome.violations).map Violation.warning := by
  obtain ⟨note, hnote, hlog⟩ := h.log
  have hnone : note.filter (fun line => line.level = .warn) = [] := by
    rw [List.filter_eq_nil_iff]
    intro line hline
    simp [hnote line hline]
  have hquiet : (Detector.outcomeLog q b.outcome).filter (fun line => line.level = .warn) = [] := by
    rw [List.filter_eq_nil_iff]
    intro line hline
    simp [Detector.level_outcomeLog hline]
  rw [hlog, h.ending, List.filter_append, List.filter_append, hnone, hquiet, List.nil_append,
    List.nil_append, List.filter_eq_self]
  intro line hline
  obtain ⟨y, -, rfl⟩ := List.mem_map.1 hline
  rfl

/-- A delivery that failed would not have returned. -/
theorem Fresh.failure?_eq_none (hw : w.Sound) (h : w.Fresh q held t r d site v b)
    (hsinks : ∀ s ∈ v.detector.sinks, s.returned = true) :
    w.detector.failure? q.sink b.outcome.violations = none := by
  unfold Detector.failure? Detector.sinkOf
  cases hq : q.sink with
  | none => rfl
  | some i =>
    have hlt := (hw.recorders q (List.mem_of_getElem? h.recorder)).2 i hq
    have hs : w.detector.sinks[i]? = some w.detector.sinks[i] := List.getElem?_eq_getElem hlt
    generalize w.detector.sinks[i] = s at hs
    have hafter : v.detector.sinks[i]? = some (s.receiveAll (s.reached b.outcome.violations)) := by
      rw [h.sinks, hq, Detector.sinksAfter, Option.elim_some, List.getElem?_modify_eq, hs,
        Detector.heard, Detector.sinkOf, Option.bind_some, hs]
      rfl
    have hreturned := hsinks _ (List.mem_of_getElem? hafter)
    rw [Sink.returned_receiveAll_reached, Bool.and_eq_true, Option.isNone_iff_eq_none] at hreturned
    rw [Option.bind_some, hs]
    exact hreturned.2

theorem Fresh.told (hw : w.Sound) (hsinks : ∀ s ∈ v.detector.sinks, s.returned = true)
    (h : w.Fresh q held t r d site v b) : w.Told r q v b := by
  have hnone := h.failure?_eq_none hw hsinks
  have hheard := Detector.heard_of_failure?_eq_none hnone
  refine ⟨fun a c => h.mem_violations hw, ?_, ?_, ?_, ?_⟩
  · rw [h.warnings, hheard]
  · rw [h.sinks, hheard]
  · rw [h.recorders, hnone]
    rfl
  · rw [h.verdict, h.ending, hnone]
    rfl

theorem told_begin (hw : w.Sound) (hsinks : ∀ s ∈ v.detector.sinks, s.returned = true)
    (h : w.step (.begin held t r d site) = some (v, x)) :
    ∃ q b, w.detector.recorders[r]? = some q ∧ x = .began b ∧ w.Told r q v b := by
  obtain ⟨q, b, hq, hx, hcase⟩ := step_begin hw h
  refine ⟨q, b, hq, hx, ?_⟩
  split at hcase
  · obtain ⟨rfl, rfl⟩ := hcase
    refine ⟨?_, rfl, (v.detector.sinksAfter_nil q.sink).symm, ?_, (ite_self _).symm⟩
    · intro a c
      cases (v.detector.graphAt q.graph).isKnown a c <;> simp [Began.nothing]
    · simp only [Began.nothing, List.append_nil]
      exact (List.modify_id r v.detector.recorders).symm
  · exact hcase.told hw hsinks

/-- What has returned up to now had returned before. -/
theorem returned_step (hw : w.Sound) (h : w.step e = some (v, x))
    (hsinks : ∀ s ∈ v.detector.sinks, s.returned = true) :
    ∀ s ∈ w.detector.sinks, s.returned = true := by
  intro s hs
  obtain ⟨i, hi⟩ := List.mem_iff_getElem?.1 hs
  obtain ⟨k, hk, hfrom⟩ := sinks_step hw h hi
  have hreturned := hsinks k (List.mem_of_getElem? hk)
  rcases hfrom with rfl | ⟨vs, rfl⟩
  · rwa [Sink.returned_drain] at hreturned
  · exact Sink.returned_of_receiveAll hreturned

theorem historyOf_told (hw : w.Sound) (h : w.step e = some (v, x))
    (hsinks : ∀ s ∈ v.detector.sinks, s.returned = true) :
    v.detector.historyOf r = w.detector.historyOf r ++ foundBy r e x := by
  have hkeeps : w.detector.loses r (foundBy r e x) = false := by
    unfold Detector.loses
    cases books_step hw h with
    | same hrecorders hsinks hfound =>
      rw [hfound]
      cases w.detector.recorders[r]? <;> simp [Detector.failure?_nil]
    | sink | recorder | drain =>
      cases w.detector.recorders[r]? <;> simp [foundBy, Detector.failure?_nil]
    | @fresh held t p c site q v b hfresh =>
      by_cases hp : p = r
      · subst hp
        have hfound : foundBy p (.begin held t p c site) (.began b) = b.outcome.violations :=
          if_pos rfl
        rw [hfound, hfresh.recorder, Option.any_some, hfresh.failure?_eq_none hw hsinks]
        rfl
      · have hfound : foundBy r (.begin held t p c site) (.began b) = [] := if_neg hp
        rw [hfound]
        cases w.detector.recorders[r]? <;> simp [Detector.failure?_nil]
  rw [historyOf_step hw h, hkeeps]
  rfl

/-- As long as no delivery fails a recorder keeps all that its acquisitions found. -/
theorem historyOf_run (h : start.run es = some (w, xs))
    (hsinks : ∀ s ∈ w.detector.sinks, s.returned = true) (r : Nat) :
    w.detector.historyOf r = gather (foundBy r) es xs := by
  refine runWith_induction (P := fun es w xs => (∀ s ∈ w.detector.sinks, s.returned = true) →
    w.detector.historyOf r = gather (foundBy r) es xs) (fun _ => rfl) ?_ h hsinks
  intro es u xs e v x hu ih hstep hv
  have hsound := sound_run hu
  rw [historyOf_told hsound hstep hv, ih (returned_step hsound hstep hv),
    gather_concat _ (length_runWith hu)]

/-- What was drained from a sink and what it has received since are the histories of the recorders
that deliver to it. -/
def Accounted (w : Realm) (i : Nat) (es : List Deed) (xs : List Reply) : Prop :=
  (∀ s, w.detector.sinks[i]? = some s → s.isCollecting = true) →
    w.detector.recorders.countP (fun q => q.sink = some i) ≤ 1 →
      gather (drawnFrom i) es xs ++ w.detector.receivedAt i = w.detector.historiesFor i

/-- A sink that keeps what it receives gets what its only recorder keeps. -/
theorem Fresh.received (hw : w.Sound) (h : w.Fresh q held t r d site v b)
    (hcollecting : ∀ s, w.detector.sinks[i]? = some s → s.isCollecting = true)
    (honly : w.detector.recorders.countP (fun q => q.sink = some i) ≤ 1) :
    ∃ vs, v.detector.receivedAt i = w.detector.receivedAt i ++ vs ∧
      v.detector.historiesFor i = w.detector.historiesFor i ++ vs := by
  obtain ⟨before, after, hold, -, hnew⟩ := h.split
  by_cases hi : q.sink = some i
  · have hlt := (hw.recorders q (List.mem_of_getElem? h.recorder)).2 i hi
    have hs : w.detector.sinks[i]? = some w.detector.sinks[i] := List.getElem?_eq_getElem hlt
    generalize w.detector.sinks[i] = s at hs
    have hkept := hcollecting s hs
    have hnone : w.detector.failure? q.sink b.outcome.violations = none := by
      rw [hi, Detector.failure?, Detector.sinkOf, Option.bind_some, hs, Option.bind_some]
      cases s with
      | collecting received => exact Sink.failure?_collecting received _
      | custom heard answer => cases hkept
    have hheard := Detector.heard_of_failure?_eq_none hnone
    -- no recorder before or after this one delivers to the sink
    rw [hold, List.countP_append, List.countP_cons_of_pos (by simpa using hi)] at honly
    have hbefore : before.countP (fun q => q.sink = some i) = 0 := by omega
    have hafter : after.countP (fun q => q.sink = some i) = 0 := by omega
    refine ⟨b.outcome.violations, ?_, ?_⟩
    · rw [Detector.receivedAt, Detector.receivedAt, h.sinks, hheard, hi]
      simp [Detector.sinksAfter, hs, Sink.received_receiveAll hkept]
    · rw [Detector.historiesFor, Detector.historiesFor, hold, hnew, hnone]
      simp [hi, Detector.historiesFor_eq_nil i hbefore,
        Detector.historiesFor_eq_nil i hafter]
  · refine ⟨[], ?_, ?_⟩
    · rw [Detector.receivedAt, Detector.receivedAt, h.sinks, List.append_nil]
      cases hq : q.sink with
      | none => rfl
      | some j =>
        have hj : j ≠ i := by
          rintro rfl
          exact hi hq
        rw [Detector.sinksAfter, Option.elim_some, List.getElem?_modify_ne _ _ hj]
    · rw [Detector.historiesFor, Detector.historiesFor, hold, hnew]
      split <;> simp [hi]

theorem Accounted.step (hw : w.Sound) (hlength : es.length = xs.length)
    (hacc : w.Accounted i es xs) (h : w.step e = some (v, x)) :
    v.Accounted i (es ++ [e]) (xs ++ [x]) := by
  intro hcollecting honly
  have hkind : ∀ s, w.detector.sinks[i]? = some s → s.isCollecting = true := by
    intro s hs
    obtain ⟨k, hk, hfrom⟩ := sinks_step hw h hs
    have hkind := hcollecting k hk
    rcases hfrom with rfl | ⟨vs, rfl⟩
    · rwa [Sink.isCollecting_drain] at hkind
    · rwa [Sink.isCollecting_receiveAll] at hkind
  rw [gather_concat _ hlength]
  cases books_step hw h with
  | same hrecorders hsinks hfound hdrawn =>
    rw [hrecorders] at honly
    rw [hdrawn, List.append_nil, Detector.receivedAt, hsinks, Detector.historiesFor, hrecorders]
    exact hacc hkind honly
  | sink hempty hrecorders hsinks =>
    rw [hrecorders] at honly
    have hreceived : v.detector.receivedAt i = w.detector.receivedAt i := by
      rw [Detector.receivedAt, Detector.receivedAt, hsinks, List.getElem?_append]
      split
      · rfl
      · next hi =>
        rw [List.getElem?_eq_none (Nat.not_lt.1 hi)]
        cases i - w.detector.sinks.length <;> simp [hempty]
    rw [hreceived, Detector.historiesFor, hrecorders]
    exact (congrArg (· ++ _) (List.append_nil _)).trans (hacc hkind honly)
  | recorder hrecorders hsinks =>
    rw [hrecorders, List.countP_append] at honly
    have hhistories : v.detector.historiesFor i = w.detector.historiesFor i := by
      rw [Detector.historiesFor, hrecorders]
      simp [Detector.historiesFor]
    rw [hhistories, Detector.receivedAt, hsinks]
    exact (congrArg (· ++ _) (List.append_nil _)).trans (hacc hkind (by omega))
  | @drain j v hrecorders hsinks =>
    rw [hrecorders] at honly
    rw [Detector.historiesFor, hrecorders]
    refine Eq.trans ?_ (hacc hkind honly)
    rw [List.append_assoc]
    congr 1
    have hdrawn : drawnFrom i (.drain j) (.drained (w.detector.receivedAt j)) =
        if j = i then w.detector.receivedAt j else [] := rfl
    rw [hdrawn]
    by_cases hj : j = i
    · subst hj
      have hempty : v.detector.receivedAt j = [] := by
        rw [Detector.receivedAt, hsinks, List.getElem?_modify_eq]
        cases w.detector.sinks[j]? with
        | none => rfl
        | some s => cases s <;> rfl
      rw [if_pos rfl, hempty, List.append_nil]
    · rw [if_neg hj, List.nil_append, Detector.receivedAt, hsinks,
        List.getElem?_modify_ne _ _ hj]
      rfl
  | @fresh held t r c site q v b hfresh =>
    have honlyBefore : w.detector.recorders.countP (fun q => q.sink = some i) ≤ 1 := by
      obtain ⟨before, after, hold, -, hnew⟩ := hfresh.split
      rw [hnew, List.countP_append, List.countP_cons] at honly
      rw [hold, List.countP_append, List.countP_cons]
      split at honly <;> exact honly
    obtain ⟨vs, hreceived, hhistories⟩ := hfresh.received hw hkind honlyBefore
    have hdrawn : drawnFrom i (.begin held t r c site) (.began b) = [] := rfl
    rw [hdrawn, List.append_nil, hreceived, hhistories, ← hacc hkind honlyBefore, List.append_assoc]

theorem accounted_run (h : start.run es = some (w, xs)) (i : Nat) : w.Accounted i es xs := by
  refine runWith_induction (P := fun es w xs => w.Accounted i es xs) (fun _ _ => rfl) ?_ h
  intro es u xs e v x hu hacc hstep
  exact hacc.step (sound_run hu) (length_runWith hu) hstep

/-- While deliveries return, what an acquisition finds is logged, delivered and kept once, in
order and by its own recorder only, and then a strict recorder stops the thread. So every history
is what the acquisitions found, no pair stands twice in the histories on a graph, and what was
drained from a sink that keeps what it receives, with what it still keeps, is the history of its
only recorder. -/
theorem reported_once (h : start.run es = some (w, xs))
    (hsinks : ∀ s ∈ w.detector.sinks, s.returned = true) :
    (∀ held t r d site v x, w.step (.begin held t r d site) = some (v, x) →
      (∀ s ∈ v.detector.sinks, s.returned = true) →
      ∃ q b, w.detector.recorders[r]? = some q ∧ x = .began b ∧ w.Told r q v b) ∧
    (∀ r, w.detector.historyOf r = gather (foundBy r) es xs) ∧
    (∀ i, ((w.detector.historiesOn i).map (·.pair)).Nodup) ∧
    ∀ i vs q, w.detector.sinks[i]? = some (.collecting vs) → q ∈ w.detector.recorders →
      q.sink = some i → w.detector.recorders.countP (fun p => p.sink = some i) = 1 →
        gather (drawnFrom i) es xs ++ vs = q.history := by
  refine ⟨?_, historyOf_run h hsinks, fun i => (booked_run h i).nodup, ?_⟩
  · intro held t r d site v x hbegin hreturned
    exact told_begin (sound_run h) hreturned hbegin
  · intro i vs q hs hq hi honly
    have hcollecting : ∀ s, w.detector.sinks[i]? = some s → s.isCollecting = true := by
      intro s hs'
      rw [hs, Option.some_inj] at hs'
      rw [← hs']
      rfl
    have hacc := accounted_run h i hcollecting (by omega)
    rw [Detector.receivedAt, hs, Detector.historiesFor_of_only hq hi honly] at hacc
    exact hacc

/-- Two recorders share a graph, the second one is strict and has a sink of its own. The first finds
a pair, its sink is drained, and it finds another one on a thread of the same name; then the second
finds a third. -/
def shared : List Deed :=
  [.create ⟨1, "A"⟩, .create ⟨2, "B"⟩, .create ⟨3, "C"⟩, .addGraph 1, .addSink (.collecting []),
    .addSink (.custom [] fun _ _ => none), .addRecorder 0 ⟨false, true, false, 1⟩ .monitor (some 0),
    .addRecorder 0 ⟨true, true, true, 1⟩ .monitor (some 1),
    .begin (fun _ => true) ⟨1, "t"⟩ 1 ⟨1, "A"⟩ "first",
    .begin (fun _ => true) ⟨1, "t"⟩ 1 ⟨2, "B"⟩ "second",
    .begin (fun _ => true) ⟨1, "t"⟩ 1 ⟨3, "C"⟩ "third",
    .begin (fun _ => true) ⟨2, "u"⟩ 0 ⟨2, "B"⟩ "fourth",
    .begin (fun _ => true) ⟨2, "u"⟩ 0 ⟨1, "A"⟩ "fifth", .drain 0,
    .begin (fun a => a = 2) ⟨2, "u"⟩ 0 ⟨3, "C"⟩ "sixth", .endThread ⟨2, "u"⟩,
    .begin (fun _ => true) ⟨4, "u"⟩ 0 ⟨3, "C"⟩ "seventh",
    .begin (fun _ => true) ⟨4, "u"⟩ 0 ⟨2, "B"⟩ "eighth",
    .begin (fun _ => true) ⟨3, "v"⟩ 1 ⟨3, "C"⟩ "ninth"]

theorem reported_once_shared :
    ∃ w xs v b, start.run shared = some (w, xs) ∧ (∀ s ∈ w.detector.sinks, s.returned = true) ∧
      w.step (.begin (fun _ => true) ⟨3, "v"⟩ 1 ⟨1, "A"⟩ "last") = some (v, .began b) ∧
      b.outcome.violations ≠ [] ∧
      b.verdict = (b.outcome.violations.head?).elim .returned (fun y => .stopped y.describe) ∧
      ((w.detector.historiesOn 0).map (·.pair)).Nodup ∧
      (w.detector.historyOf 0).length = 2 ∧ (gather (drawnFrom 0) shared xs).length = 1 ∧
      ∃ vs, w.detector.sinks[0]? = some (.collecting vs) ∧
        gather (drawnFrom 0) shared xs ++ vs = w.detector.historyOf 0 := by
  have hrun : (start.run shared).any (fun r =>
      decide (∀ s ∈ r.1.detector.sinks, s.returned = true) &&
      (r.1.detector.sinks[0]?).any Sink.isCollecting &&
      (r.1.detector.recorders[0]?).any (fun q => q.sink = some 0 ∧ q.history.length = 2) &&
      (r.1.detector.recorders[1]?).any (fun q => q.settings.strict) &&
      decide (r.1.detector.recorders.countP (fun p => p.sink = some 0) = 1) &&
      decide ((gather (drawnFrom 0) shared r.2).length = 1) &&
      (r.1.step (.begin (fun _ => true) ⟨3, "v"⟩ 1 ⟨1, "A"⟩ "last")).any fun s =>
        decide (∀ k ∈ s.1.detector.sinks, k.returned = true) &&
        decide (foundBy 1 (.begin (fun _ => true) ⟨3, "v"⟩ 1 ⟨1, "A"⟩ "last") s.2 ≠ [])) = true := by
    decide +kernel
  obtain ⟨⟨w, xs⟩, h, hw⟩ := (Option.any_eq_true _ _).mp hrun
  simp only [Bool.and_eq_true, decide_eq_true_iff, Option.any_eq_true] at hw
  obtain ⟨⟨⟨⟨⟨⟨hsinks, s, hs, hkept⟩, p, hp, hattached, hlength⟩, q, hq, hstrict⟩, honly⟩, hdrawn⟩,
    ⟨v, x⟩, hv, hreturned, hfound⟩ := hw
  obtain ⟨hbegin, -, hpairs, hdrains⟩ := reported_once h hsinks
  obtain ⟨q', b, hq', rfl, htold⟩ := hbegin _ _ _ _ _ v x hv hreturned
  rw [hq, Option.some_inj] at hq'
  subst hq'
  have hverdict := htold.verdict
  rw [if_pos hstrict] at hverdict
  have hhistory : w.detector.historyOf 0 = p.history := by rw [Detector.historyOf, hp]; rfl
  cases s with
  | collecting vs =>
    have hall := hdrains 0 vs p hs (List.mem_of_getElem? hp) hattached honly
    rw [← hhistory] at hall hlength
    exact ⟨w, xs, v, b, h, hsinks, hv, hfound, hverdict, hpairs 0, hlength, hdrawn, vs, hs, hall⟩
  | custom heard answer => cases hkept

end Realm

end LockDiscipline.Order
