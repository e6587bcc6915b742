import LockDiscipline.Proofs.Order.Delivery
import LockDiscipline.Proofs.Order.Learning

namespace LockDiscipline.Order

open LockDiscipline.Config

/-- What a recorder is from its beginning: the number of its graph, and its probe. -/
def Recorder.role (q : Recorder) : Nat × Probe := (q.graph, q.probe)

/-- What beginning an acquisition says where there is nothing to record. -/
def Began.nothing (candidate : Classifier) : Began :=
  ⟨⟨[], [], 0⟩, [], .returned, some candidate⟩

namespace Detector

inductive Act where
  | addGraph (sweepEvery : Nat)
  | addSink (sink : Sink)
  | addRecorder (graph : Nat) (settings : RecorderSettings) (probe : Probe) (sink : Option Nat)
  | begin (pinned held : ClassifierId → Bool) (thread : Thread) (recorder : Nat)
      (candidate : Classifier) (site : String)
  | release (thread : Thread) (recorder : Nat) (c : Classifier)
  | dropRecorder (thread : Thread) (recorder : Nat)
  | endThread (thread : Thread)
  | sweep (alive : ClassifierId → Bool) (graph : Nat)
  | drain (sink : Nat)

inductive Reply where
  | began (b : Began)
  | released (found : Bool)
  | swept (dead : Nat) (log : List LogLine)
  | drained (vs : List Violation)
  | done

def step (d : Detector) : Act → Detector × Reply
  | .addGraph sweepEvery => ({ d with graphs := d.graphs ++ [.empty sweepEvery] }, .done)
  | .addSink sink => ({ d with sinks := d.sinks ++ [sink] }, .done)
  | .addRecorder graph settings probe sink =>
    ({ d with recorders := d.recorders ++ [⟨graph, settings, probe, sink, []⟩] }, .done)
  | .begin pinned held thread r candidate site =>
    let (d, b) := d.begin pinned held thread r candidate site
    (d, .began b)
  | .release thread r c =>
    let (d, found) := d.release thread r c
    (d, .released found)
  | .dropRecorder thread r => (d.dropRecorder thread r, .done)
  | .endThread thread => (d.endThread thread, .done)
  | .sweep alive i =>
    let (d, n, log) := d.sweepGraph alive i
    (d, .swept n log)
  | .drain i =>
    match d.sinks[i]? with
    | none => (d, .drained [])
    | some s => ({ d with sinks := d.sinks.set i s.drain }, .drained s.received)

/-- The acts one after another, with the reply to each. -/
def run (d : Detector) : List Act → Detector × List Reply
  | [] => (d, [])
  | a :: as =>
    let (d, x) := d.step a
    let (d, xs) := d.run as
    (d, x :: xs)

variable {d : Detector} {pinned held : ClassifierId → Bool} {thread : Thread} {site : String}
  {r : Nat} {q : Recorder} {candidate : Classifier}

theorem graphAt_setGraph (d : Detector) (i j : Nat) (g : Graph) :
    (d.setGraph i g).graphAt j = if j = i ∧ i < d.graphs.length then g else d.graphAt j := by
  unfold setGraph graphAt
  rw [List.getElem?_set]
  by_cases hj : i = j
  · subst hj
    by_cases hi : i < d.graphs.length
    · simp [hi]
    · simp [hi]
  · rw [if_neg hj, if_neg (fun h => hj h.1.symm)]

theorem graphAt_addGraph (d : Detector) (g : Graph) (i : Nat) :
    graphAt { d with graphs := d.graphs ++ [g] } i =
      if i = d.graphs.length then g else d.graphAt i := by
  unfold graphAt
  dsimp only
  rcases Nat.lt_trichotomy i d.graphs.length with h | h | h
  · rw [List.getElem?_append_left h, if_neg (by omega)]
  · rw [if_pos h, h, List.getElem?_concat_length, Option.getD_some]
  · rw [if_neg (by omega), List.getElem?_eq_none (by simp; omega),
      List.getElem?_eq_none (by omega)]

theorem proper_setStack (h : d.held.Proper) (thread : Thread) (r : Nat) (cs : List Classifier) :
    (d.setStack thread r cs).held.Proper := by
  unfold setStack
  dsimp only
  split
  · exact h.filter _
  · exact h.set _ _

/-- A thread that ends takes its stacks along, and no other. -/
theorem stackOf_endThread (d : Detector) (thread u : Thread) (r : Nat) :
    (d.endThread thread).stackOf u r = if u = thread then [] else d.stackOf u r := by
  have hlookup := Table.get?_filter d.held (fun k => decide (k.1 ≠ thread)) (u, r)
  unfold endThread stackOf
  dsimp only
  rw [hlookup]
  by_cases hu : u = thread <;> simp [hu]

@[simp] theorem isGone_setStack (d : Detector) (t u : Thread) (r : Nat) (cs : List Classifier) :
    (d.setStack t r cs).isGone u = d.isGone u :=
  rfl

theorem isGone_endThread (d : Detector) (t u : Thread) :
    (d.endThread t).isGone u = (u == t || d.isGone u) :=
  List.contains_cons

theorem stack?_of_isGone (h : d.isGone thread = true) : d.stack? thread r = none :=
  if_pos h

theorem stack?_of_not_isGone (h : d.isGone thread = false) :
    d.stack? thread r = some (d.stackOf thread r) :=
  if_neg (by rw [h]; exact Bool.false_ne_true)

/-- Letting go of a classifier or of a recorder is about one stack. -/
theorem release_eq_or (d : Detector) (t : Thread) (r : Nat) (c : Classifier) :
    d.release t r c = (d, false) ∧ d.isGone t = true ∨
      d.release t r c =
        (d.setStack t r (eraseLast c (d.stackOf t r)), c.isIn (d.stackOf t r)) ∧
          d.isGone t = false := by
  unfold release
  cases hgone : d.isGone t with
  | true => exact Or.inl ⟨by rw [stack?_of_isGone hgone], rfl⟩
  | false => exact Or.inr ⟨by rw [stack?_of_not_isGone hgone], rfl⟩

theorem dropRecorder_eq_or (d : Detector) (t : Thread) (r : Nat) :
    d.dropRecorder t r = d ∧ d.isGone t = true ∨
      d.dropRecorder t r = d.setStack t r [] ∧ d.isGone t = false := by
  unfold dropRecorder
  cases hgone : d.isGone t with
  | true => exact Or.inl ⟨by rw [stack?_of_isGone hgone], rfl⟩
  | false => exact Or.inr ⟨by rw [stack?_of_not_isGone hgone], rfl⟩

theorem release_frame (d : Detector) (t : Thread) (r : Nat) (c : Classifier) :
    (d.release t r c).1.graphs = d.graphs ∧ (d.release t r c).1.recorders = d.recorders ∧
      (d.release t r c).1.gone = d.gone := by
  rcases release_eq_or d t r c with ⟨h, -⟩ | ⟨h, -⟩ <;> rw [h] <;> exact ⟨rfl, rfl, rfl⟩

theorem dropRecorder_frame (d : Detector) (t : Thread) (r : Nat) :
    (d.dropRecorder t r).graphs = d.graphs ∧ (d.dropRecorder t r).recorders = d.recorders ∧
      (d.dropRecorder t r).gone = d.gone ∧ (d.dropRecorder t r).sinks = d.sinks := by
  rcases dropRecorder_eq_or d t r with ⟨h, -⟩ | ⟨h, -⟩ <;> rw [h] <;> exact ⟨rfl, rfl, rfl, rfl⟩

theorem stackOf_release {t : Thread} (h : d.isGone t = true → d.stackOf t r = []) (c : Classifier)
    (u : Thread) (p : Nat) : (d.release t r c).1.stackOf u p =
      if (u, p) = (t, r) then eraseLast c (d.stackOf t r) else d.stackOf u p := by
  rcases release_eq_or d t r c with ⟨hr, hgone⟩ | ⟨hr, -⟩ <;> rw [hr]
  · rw [h hgone]
    split
    · next heq =>
      cases heq
      exact h hgone
    · rfl
  · exact stackOf_setStack ..

theorem stackOf_dropRecorder {t : Thread} (h : d.isGone t = true → d.stackOf t r = []) (u : Thread)
    (p : Nat) : (d.dropRecorder t r).stackOf u p =
      if (u, p) = (t, r) then [] else d.stackOf u p := by
  rcases dropRecorder_eq_or d t r with ⟨hr, hgone⟩ | ⟨hr, -⟩ <;> rw [hr]
  · split
    · next heq =>
      cases heq
      exact h hgone
    · rfl
  · exact stackOf_setStack ..

/-- Reporting leaves the graphs, the stacks and what the recorders are as it is. -/
theorem report_frame (d : Detector) (r : Nat) (q : Recorder) (vs : List Violation) :
    (d.report r q vs).1.graphs = d.graphs ∧ (d.report r q vs).1.held = d.held ∧
      (d.report r q vs).1.recorders.map Recorder.role = d.recorders.map Recorder.role := by
  rw [report_eq]
  refine ⟨rfl, rfl, ?_⟩
  dsimp only
  split
  · rfl
  · apply List.ext_getElem?
    intro i
    simp only [List.getElem?_map, List.getElem?_modify]
    cases d.recorders[i]? with
    | none => rfl
    | some p =>
      by_cases hi : r = i <;> simp [hi, Recorder.role]

theorem graphAt_report (d : Detector) (r : Nat) (q : Recorder) (vs : List Violation) (i : Nat) :
    (d.report r q vs).1.graphAt i = d.graphAt i := by
  unfold graphAt
  rw [(report_frame d r q vs).1]

/-- Where an acquisition was seen. -/
def seenAt (q : Recorder) (thread : Thread) (site : String) : Context :=
  ⟨thread.name, site, if q.settings.captureBacktrace then some "<backtrace>" else none⟩

theorem recordEdges_none {older : List Classifier}
    (h : (d.graphAt q.graph).missing older candidate = []) :
    recordEdges pinned d thread r q older candidate site = (d, Began.nothing candidate) := by
  simp [recordEdges, h, Began.nothing]

theorem recordEdges_some {older : List Classifier}
    (h : (d.graphAt q.graph).missing older candidate ≠ []) :
    recordEdges pinned d thread r q older candidate site =
      let s := (d.graphAt q.graph).record (fun c => pinned c || d.onStack c)
        ((d.graphAt q.graph).missing older candidate) candidate (seenAt q thread site)
      let t := (d.setGraph q.graph s.1).report r q s.2.violations
      (t.1, ⟨s.2, outcomeLog q s.2 ++ t.2.1, t.2.2, t.2.2.yields candidate⟩) := by
  have hne : ((d.graphAt q.graph).missing older candidate).isEmpty = false := by simpa using h
  simp [recordEdges, hne, seenAt]

/-- A detector learns in the graph of the recorder, and reports what was found. -/
theorem recordEdges_eq (pinned : ClassifierId → Bool) (d : Detector) (thread : Thread) (r : Nat)
    {q : Recorder} (older : List Classifier) (candidate : Classifier) (site : String)
    (hq : q.graph < d.graphs.length) :
    recordEdges pinned d thread r q older candidate site =
      let s := (d.graphAt q.graph).learn (fun c => pinned c || d.onStack c) older candidate
        (seenAt q thread site)
      let t := (d.setGraph q.graph s.1).report r q s.2.violations
      (t.1, ⟨s.2, outcomeLog q s.2 ++ t.2.1, t.2.2, t.2.2.yields candidate⟩) := by
  by_cases h : (d.graphAt q.graph).missing older candidate = []
  · have hsame : d.setGraph q.graph (d.graphAt q.graph) = d := by
      unfold setGraph graphAt
      rw [List.getElem?_eq_getElem hq, Option.getD_some, List.set_getElem_self]
    have hquiet : outcomeLog q ⟨[], [], 0⟩ = [] := by simp [outcomeLog]
    rw [recordEdges_none h]
    simp only [Graph.learn, h, if_true, hsame, report, hquiet, List.append_nil]
    rfl
  · rw [recordEdges_some h]
    simp only [Graph.learn, if_neg h]

theorem recordEdges_frame (pinned : ClassifierId → Bool) (d : Detector) (thread : Thread)
    (r : Nat) (q : Recorder) (older : List Classifier) (candidate : Classifier) (site : String) :
    (recordEdges pinned d thread r q older candidate site).1.held = d.held ∧
      (recordEdges pinned d thread r q older candidate site).1.graphs.length = d.graphs.length ∧
        (recordEdges pinned d thread r q older candidate site).1.recorders.map Recorder.role =
          d.recorders.map Recorder.role := by
  by_cases h : (d.graphAt q.graph).missing older candidate = []
  · rw [recordEdges_none h]
    exact ⟨rfl, rfl, rfl⟩
  · rw [recordEdges_some h]
    dsimp only
    refine ⟨(report_frame _ _ _ _).2.1, ?_, (report_frame _ _ _ _).2.2⟩
    rw [(report_frame _ _ _ _).1, setGraph, List.length_set]

theorem gone_recordEdges (pinned : ClassifierId → Bool) (d : Detector) (thread : Thread)
    (r : Nat) (q : Recorder) (older : List Classifier) (candidate : Classifier) (site : String) :
    (recordEdges pinned d thread r q older candidate site).1.gone = d.gone := by
  by_cases h : (d.graphAt q.graph).missing older candidate = []
  · rw [recordEdges_none h]
  · rw [recordEdges_some h]
    dsimp only
    rw [report_eq]
    rfl

theorem stackOf_recordEdges (pinned : ClassifierId → Bool) (d : Detector) (thread : Thread)
    (r : Nat) (q : Recorder) (older : List Classifier) (candidate : Classifier)
    (site : String) (u : Thread) (p : Nat) :
    (recordEdges pinned d thread r q older candidate site).1.stackOf u p = d.stackOf u p := by
  unfold stackOf
  rw [(recordEdges_frame pinned d thread r q older candidate site).1]

theorem graphAt_recordEdges (pinned : ClassifierId → Bool) (d : Detector) (thread : Thread)
    (r : Nat) (q : Recorder) (older : List Classifier) (candidate : Classifier)
    (site : String) (i : Nat) :
    (recordEdges pinned d thread r q older candidate site).1.graphAt i =
      if i = q.graph ∧ q.graph < d.graphs.length ∧
          (d.graphAt q.graph).missing older candidate ≠ [] then
        ((d.graphAt q.graph).record (fun c => pinned c || d.onStack c)
          ((d.graphAt q.graph).missing older candidate) candidate (seenAt q thread site)).1
      else d.graphAt i := by
  by_cases h : (d.graphAt q.graph).missing older candidate = []
  · rw [recordEdges_none h, if_neg (fun hi => hi.2.2 h)]
  · rw [recordEdges_some h]
    dsimp only
    rw [graphAt_report, graphAt_setGraph]
    simp [h]

section Edges

variable {older : List Classifier} {a b : ClassifierId} {i : Nat}

theorem intact_recordEdges (h : ∀ i, (d.graphAt i).Intact) (i : Nat) :
    ((recordEdges pinned d thread r q older candidate site).1.graphAt i).Intact := by
  rw [graphAt_recordEdges]
  split
  · exact (h q.graph).record _ _ _ _
  · exact h i

theorem of_hasEdge_recordEdges
    (h : ((recordEdges pinned d thread r q older candidate site).1.graphAt i).hasEdge a b = true) :
    (d.graphAt i).hasEdge a b = true ∨ b = candidate.id ∧ ∃ o ∈ older, o.id = a := by
  rw [graphAt_recordEdges] at h
  split at h
  · next hi =>
    rw [hi.1]
    rcases Graph.of_hasEdge_record h with h | ⟨hb, -, o, ho, ha⟩
    · exact Or.inl h
    · exact Or.inr ⟨hb, o, (Graph.mem_missing.1 ho).1, ha⟩
  · exact Or.inl h

/-- No edge between live classifiers is lost, and every older one has its edge afterwards. -/
theorem hasEdge_recordEdges (hq : q.graph < d.graphs.length) (hg : (d.graphAt q.graph).Intact)
    (h : (d.graphAt q.graph).hasEdge a b = true ∨
      b = candidate.id ∧ a ≠ candidate.id ∧ ∃ o ∈ older, o.id = a)
    (ha : (pinned a || d.onStack a) = true) (hb : (pinned b || d.onStack b) = true) :
    ((recordEdges pinned d thread r q older candidate site).1.graphAt q.graph).hasEdge a b =
      true := by
  rw [recordEdges_eq _ _ _ _ _ _ _ hq]
  dsimp only
  rw [graphAt_report, graphAt_setGraph, if_pos ⟨rfl, hq⟩]
  exact hg.hasEdge_learn h ha hb

end Edges

theorem level_outcomeLog {o : Outcome} {line : LogLine} (h : line ∈ outcomeLog q o) :
    line.level = .debug := by
  unfold outcomeLog at h
  rcases List.mem_append.1 h with h | h
  · split at h
    · cases h
    · rw [List.mem_singleton.1 h]
  · split at h
    · obtain ⟨w, -, rfl⟩ := List.mem_map.1 h
      rfl
    · cases h

theorem begin_unknown (h : d.recorders[r]? = none) :
    d.begin pinned held thread r candidate site = (d, Began.nothing candidate) := by
  simp [begin, h, Began.nothing]

/-- What runs on a thread after its local storage is not recorded. -/
theorem begin_gone (h : d.isGone thread = true) :
    d.begin pinned held thread r candidate site = (d, Began.nothing candidate) := by
  cases hq : d.recorders[r]? with
  | none => exact begin_unknown hq
  | some q => simp [begin, hq, stack?_of_isGone h, Push.of, Began.nothing]

/-- The thread takes again what it holds. -/
theorem begin_again (h : d.recorders[r]? = some q)
    (hc : (candidate.isIn (d.stackOf thread r) && held candidate.id) = true) :
    d.begin pinned held thread r candidate site = (d, Began.nothing candidate) := by
  cases hgone : d.isGone thread with
  | true => exact begin_gone hgone
  | false => simp [begin, h, stack?_of_not_isGone hgone, Push.of, hc, Began.nothing]

/-- The thread takes something afresh: what it still holds stays on the stack, below the candidate,
and gets its edges. Besides what recording says, the dropped entries may be noted. -/
theorem begin_onto (pinned : ClassifierId → Bool) (site : String) (h : d.recorders[r]? = some q)
    (hgone : d.isGone thread = false)
    (hc : (candidate.isIn (d.stackOf thread r) && held candidate.id) = false) :
    ∃ note : List LogLine, (∀ line ∈ note, line.level = .trace) ∧
      d.begin pinned held thread r candidate site =
        let older := (d.stackOf thread r).filter fun c => held c.id
        let s := recordEdges pinned (d.setStack thread r (older ++ [candidate])) thread r q older
          candidate site
        (s.1, { s.2 with log := note ++ s.2.log }) := by
  have hof : Push.of held candidate (d.stack? thread r) =
      .onto ((d.stackOf thread r).filter fun c => held c.id) := by
    simp [stack?_of_not_isGone hgone, Push.of, hc]
  refine ⟨_, ?_, by simp only [begin, h, hof]; rfl⟩
  intro line hline
  split at hline
  · cases hline
  · rw [List.mem_singleton] at hline
    rw [hline]

/-- Whether an acquisition is taken afresh. -/
def isFresh (d : Detector) (held : ClassifierId → Bool) (thread : Thread) (r : Nat)
    (candidate : Classifier) : Bool :=
  (d.recorders[r]?).isSome && !d.isGone thread &&
    !(candidate.isIn (d.stackOf thread r) && held candidate.id)

theorem isFresh_eq_true_iff : d.isFresh held thread r candidate = true ↔
    (∃ q, d.recorders[r]? = some q) ∧ d.isGone thread = false ∧
      (candidate.isIn (d.stackOf thread r) && held candidate.id) = false := by
  rw [isFresh, Bool.and_eq_true, Bool.and_eq_true, Option.isSome_iff_exists, Bool.not_eq_true',
    Bool.not_eq_true', and_assoc]

theorem begin_of_not_fresh (h : d.isFresh held thread r candidate = false) :
    d.begin pinned held thread r candidate site = (d, Began.nothing candidate) := by
  cases hq : d.recorders[r]? with
  | none => exact begin_unknown hq
  | some q =>
    cases hgone : d.isGone thread with
    | true => exact begin_gone hgone
    | false => exact begin_again hq (by simpa [isFresh, hq, hgone] using h)

theorem begin_of_fresh (pinned : ClassifierId → Bool) (site : String)
    (h : d.isFresh held thread r candidate = true) :
    ∃ q, d.recorders[r]? = some q ∧ (d.begin pinned held thread r candidate site).1 =
      (recordEdges pinned
        (d.setStack thread r ((d.stackOf thread r).filter (fun c => held c.id) ++ [candidate]))
        thread r q ((d.stackOf thread r).filter fun c => held c.id) candidate site).1 := by
  obtain ⟨⟨q, hq⟩, hgone, hc⟩ := isFresh_eq_true_iff.1 h
  obtain ⟨note, -, hbegin⟩ := begin_onto pinned site hq hgone hc
  refine ⟨q, hq, ?_⟩
  rw [hbegin]

theorem stackOf_begin (d : Detector) (pinned held : ClassifierId → Bool) (thread : Thread)
    (r : Nat) (candidate : Classifier) (site : String) (u : Thread) (p : Nat) :
    (d.begin pinned held thread r candidate site).1.stackOf u p =
      if (u, p) = (thread, r) ∧ d.isFresh held thread r candidate = true then
        (d.stackOf thread r).filter (fun c => held c.id) ++ [candidate]
      else d.stackOf u p := by
  cases hf : d.isFresh held thread r candidate with
  | false => rw [begin_of_not_fresh hf, if_neg (by simp)]
  | true =>
    obtain ⟨q, -, hbegin⟩ := begin_of_fresh pinned site hf
    rw [hbegin, stackOf_recordEdges, stackOf_setStack]
    simp

/-- The graph of the recorder learns from a fresh acquisition, with what is on stacks afterwards. -/
theorem begin_learns (pinned : ClassifierId → Bool) (site : String)
    (hq : d.recorders[r]? = some q) (hlen : q.graph < d.graphs.length)
    (h : d.isFresh held thread r candidate = true) :
    let s := d.begin pinned held thread r candidate site
    let k := (d.graphAt q.graph).learn (fun c => pinned c || s.1.onStack c)
      ((d.stackOf thread r).filter fun c => held c.id) candidate (seenAt q thread site)
    s.1.graphAt q.graph = k.1 ∧ s.2.outcome = k.2 := by
  obtain ⟨-, hgone, hc⟩ := isFresh_eq_true_iff.1 h
  obtain ⟨note, -, hbegin⟩ := begin_onto pinned site hq hgone hc
  have hlen' : q.graph < (d.setStack thread r
      ((d.stackOf thread r).filter (fun c => held c.id) ++ [candidate])).graphs.length := hlen
  have hheld := (recordEdges_frame pinned (d.setStack thread r
    ((d.stackOf thread r).filter (fun c => held c.id) ++ [candidate])) thread r q
    ((d.stackOf thread r).filter fun c => held c.id) candidate site).1
  rw [hbegin]
  dsimp only
  simp only [onStack, hheld]
  rw [recordEdges_eq _ _ _ _ _ _ _ hlen']
  dsimp only
  rw [graphAt_report, graphAt_setGraph, if_pos ⟨rfl, hlen'⟩]
  exact ⟨rfl, rfl⟩

theorem gone_begin (d : Detector) (pinned held : ClassifierId → Bool) (thread : Thread)
    (r : Nat) (candidate : Classifier) (site : String) :
    (d.begin pinned held thread r candidate site).1.gone = d.gone := by
  cases hf : d.isFresh held thread r candidate with
  | false => rw [begin_of_not_fresh hf]
  | true =>
    obtain ⟨q, -, hbegin⟩ := begin_of_fresh pinned site hf
    rw [hbegin, gone_recordEdges]
    rfl

theorem begin_frame (d : Detector) (pinned held : ClassifierId → Bool) (thread : Thread)
    (r : Nat) (candidate : Classifier) (site : String) :
    (d.begin pinned held thread r candidate site).1.graphs.length = d.graphs.length ∧
      (d.begin pinned held thread r candidate site).1.recorders.map Recorder.role =
        d.recorders.map Recorder.role := by
  cases hf : d.isFresh held thread r candidate with
  | false =>
    rw [begin_of_not_fresh hf]
    exact ⟨rfl, rfl⟩
  | true =>
    obtain ⟨q, -, hbegin⟩ := begin_of_fresh pinned site hf
    rw [hbegin]
    exact (recordEdges_frame pinned _ thread r q _ candidate site).2

theorem intact_begin (h : ∀ i, (d.graphAt i).Intact) (i : Nat) :
    ((d.begin pinned held thread r candidate site).1.graphAt i).Intact := by
  cases hf : d.isFresh held thread r candidate with
  | false =>
    rw [begin_of_not_fresh hf]
    exact h i
  | true =>
    obtain ⟨q, -, hbegin⟩ := begin_of_fresh pinned site hf
    rw [hbegin]
    exact intact_recordEdges (d := d.setStack thread r _) (fun j => h j) i

theorem of_hasEdge_begin {a b : ClassifierId} {i : Nat}
    (h : ((d.begin pinned held thread r candidate site).1.graphAt i).hasEdge a b = true) :
    (d.graphAt i).hasEdge a b = true ∨
      b = candidate.id ∧ ∃ o ∈ d.stackOf thread r, held o.id = true ∧ o.id = a := by
  cases hf : d.isFresh held thread r candidate with
  | false =>
    rw [begin_of_not_fresh hf] at h
    exact Or.inl h
  | true =>
    obtain ⟨q, -, hbegin⟩ := begin_of_fresh pinned site hf
    rw [hbegin] at h
    rcases of_hasEdge_recordEdges h with h | ⟨hb, o, ho, ha⟩
    · exact Or.inl h
    · exact Or.inr ⟨hb, o, (List.mem_filter.1 ho).1, (List.mem_filter.1 ho).2, ha⟩

theorem onStack_of_mem {u : Thread} {p : Nat} {c : Classifier} (h : c ∈ d.stackOf u p) :
    d.onStack c.id = true := by
  unfold stackOf at h
  cases hs : d.held.get? (u, p) with
  | none =>
    rw [hs] at h
    cases h
  | some cs =>
    rw [hs] at h
    exact List.any_eq_true.2 ⟨cs, Table.mem_values_of_get? hs,
      List.any_eq_true.2 ⟨c, h, by simp⟩⟩

/-- Between classifiers that live on afterwards every edge stays, and what was held gets its edge to
a candidate that is taken afresh. -/
theorem hasEdge_begin {a b : ClassifierId} {i : Nat} (hq : d.recorders[r]? = some q)
    (hi : q.graph = i) (hlen : i < d.graphs.length) (hg : (d.graphAt i).Intact)
    (h : (d.graphAt i).hasEdge a b = true ∨ d.isFresh held thread r candidate = true ∧
      b = candidate.id ∧ a ≠ candidate.id ∧ ∃ o ∈ d.stackOf thread r, held o.id = true ∧ o.id = a)
    (ha : (pinned a || (d.begin pinned held thread r candidate site).1.onStack a) = true)
    (hb : (pinned b || (d.begin pinned held thread r candidate site).1.onStack b) = true) :
    ((d.begin pinned held thread r candidate site).1.graphAt i).hasEdge a b = true := by
  subst hi
  cases hf : d.isFresh held thread r candidate with
  | false =>
    rw [begin_of_not_fresh hf]
    rcases h with h | ⟨h, -⟩
    · exact h
    · rw [hf] at h
      cases h
  | true =>
    obtain ⟨q', hq', hbegin⟩ := begin_of_fresh pinned site hf
    rw [hq] at hq'
    cases hq'
    rw [hbegin] at ha hb ⊢
    rw [onStack, (recordEdges_frame _ _ _ _ _ _ _ _).1] at ha hb
    refine hasEdge_recordEdges hlen hg ?_ ha hb
    rcases h with h | ⟨-, hb, hne, o, ho, hheld, ha⟩
    · exact Or.inl h
    · exact Or.inr ⟨hb, hne, o, List.mem_filter.2 ⟨ho, hheld⟩, ha⟩

/-- One graph, and one recorder on it that asks the monitors. -/
structure Sole (d : Detector) : Prop where
  recorder : d.recorders.map Recorder.role = [(0, .monitor)]
  graphs : d.graphs.length = 1
  intact : ∀ i, (d.graphAt i).Intact

theorem sole_start (settings : RecorderSettings) :
    Sole { Detector.empty with
      graphs := [.empty settings.sweepEvery.toNat]
      recorders := [⟨0, settings, .monitor, none, []⟩] } := by
  refine ⟨rfl, rfl, ?_⟩
  intro i
  cases i with
  | zero => exact Graph.intact_empty _
  | succ i => exact Graph.intact_empty Graph.standardSweep

namespace Sole

theorem exists_recorder (h : d.Sole) :
    ∃ q, d.recorders[0]? = some q ∧ q.graph = 0 ∧ q.probe = .monitor := by
  have hrole := congrArg (·[0]?) h.recorder
  simp only [List.getElem?_map, List.getElem?_cons_zero] at hrole
  obtain ⟨q, hq, hrole⟩ := Option.map_eq_some_iff.1 hrole
  rw [Recorder.role, Prod.mk.injEq] at hrole
  exact ⟨q, hq, hrole⟩

theorem isFresh (h : d.Sole) (held : ClassifierId → Bool) (t : Thread) (c : Classifier) :
    d.isFresh held t 0 c = (!d.isGone t && !(c.isIn (d.stackOf t 0) && held c.id)) := by
  obtain ⟨q, hq, -⟩ := h.exists_recorder
  rw [Detector.isFresh, hq, Option.isSome_some, Bool.true_and]

theorem begin (h : d.Sole) : (d.begin pinned held thread r candidate site).1.Sole := by
  obtain ⟨hgraphs, hrecorders⟩ := begin_frame d pinned held thread r candidate site
  exact ⟨hrecorders.trans h.recorder, hgraphs.trans h.graphs, intact_begin h.intact⟩

/-- What is neither a recorder nor a graph does not matter. -/
theorem congr (h : d.Sole) {e : Detector} (hgraphs : e.graphs = d.graphs)
    (hrecorders : e.recorders = d.recorders) : e.Sole := by
  refine ⟨hrecorders ▸ h.recorder, hgraphs ▸ h.graphs, fun i => ?_⟩
  rw [graphAt, hgraphs]
  exact h.intact i

theorem sweep (h : d.Sole) (alive : ClassifierId → Bool) : (d.sweepGraph alive 0).1.Sole := by
  refine ⟨h.recorder, List.length_set.trans h.graphs, ?_⟩
  intro i
  change ((d.setGraph 0 _).graphAt i).Intact
  rw [graphAt_setGraph]
  split
  · exact (h.intact 0).sweep _
  · exact h.intact i

theorem hasEdge_begin {a b : ClassifierId} (h : d.Sole)
    (hab : (d.graphAt 0).hasEdge a b = true ∨ d.isGone thread = false ∧
      held candidate.id = false ∧ b = candidate.id ∧
        ∃ o ∈ d.stackOf thread 0, held o.id = true ∧ o.id = a)
    (ha : (pinned a || (d.begin pinned held thread 0 candidate site).1.onStack a) = true)
    (hb : (pinned b || (d.begin pinned held thread 0 candidate site).1.onStack b) = true) :
    ((d.begin pinned held thread 0 candidate site).1.graphAt 0).hasEdge a b = true := by
  obtain ⟨q, hq, hgraph, -⟩ := h.exists_recorder
  refine Detector.hasEdge_begin hq hgraph (h.graphs ▸ Nat.zero_lt_one) (h.intact 0) ?_ ha hb
  rcases hab with hab | ⟨hgone, hc, hb, o, ho, hheld, rfl⟩
  · exact Or.inl hab
  · refine Or.inr ⟨?_, hb, ?_, o, ho, hheld, rfl⟩
    · rw [h.isFresh, hgone, hc, Bool.and_false, Bool.not_false, Bool.and_true]
    · intro heq
      rw [heq, hc] at hheld
      cases hheld

end Sole

end Detector

end LockDiscipline.Order
