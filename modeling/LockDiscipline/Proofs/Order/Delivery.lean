import LockDiscipline.Order.Detector
import Mathlib.Data.List.Basic

namespace LockDiscipline.Order

namespace Sink

/-- The sink after it has received violations, the first of them first. -/
def receiveAll (s : Sink) (vs : List Violation) : Sink := vs.foldl (fun s v => (s.receive v).1) s

/-- How the first delivery that fails does so. -/
def failure? : Sink → List Violation → Option String
  | _, [] => none
  | s, v :: vs => (s.receive v).2.or ((s.receive v).1.failure? vs)

/-- The violations up to the first one whose delivery fails. -/
def reached : Sink → List Violation → List Violation
  | _, [] => []
  | s, v :: vs => v :: if (s.receive v).2.isSome then [] else (s.receive v).1.reached vs

theorem reached_of_failure?_eq_none {s : Sink} {vs : List Violation} (h : s.failure? vs = none) :
    s.reached vs = vs := by
  induction vs generalizing s with
  | nil => rfl
  | cons v vs ih =>
    rw [failure?, Option.or_eq_none_iff] at h
    rw [reached, h.1, Option.isSome_none, if_neg Bool.false_ne_true, ih h.2]

/-- Deliveries fail if one of them does after the others have returned. -/
theorem failure?_eq_some_iff {s : Sink} {vs : List Violation} {message : String} :
    s.failure? vs = some message ↔ ∃ before v after, vs = before ++ v :: after ∧
      s.failure? before = none ∧ ((s.receiveAll before).receive v).2 = some message := by
  constructor
  · intro h
    induction vs generalizing s with
    | nil => cases h
    | cons v vs ih =>
      rw [failure?] at h
      cases hv : (s.receive v).2 with
      | some m =>
        rw [hv, Option.some_or] at h
        exact ⟨[], v, vs, rfl, rfl, hv.trans h⟩
      | none =>
        rw [hv, Option.none_or] at h
        obtain ⟨before, u, after, hsplit, hnone, hu⟩ := ih h
        exact ⟨v :: before, u, after, by rw [hsplit]; rfl,
          by rw [failure?, hv, Option.none_or, hnone], hu⟩
  · rintro ⟨before, v, after, rfl, hnone, hv⟩
    induction before generalizing s with
    | nil =>
      change (s.receive v).2 = some message at hv
      rw [List.nil_append, failure?, hv, Option.some_or]
    | cons u before ih =>
      rw [failure?, Option.or_eq_none_iff] at hnone
      rw [List.cons_append, failure?, hnone.1, Option.none_or]
      exact ih hnone.2 hv

theorem receiveAll_collecting (received vs : List Violation) :
    (collecting received).receiveAll vs = collecting (received ++ vs) := by
  induction vs generalizing received with
  | nil => rw [List.append_nil]; rfl
  | cons v vs ih => exact (ih (received ++ [v])).trans (by rw [List.append_assoc]; rfl)

theorem failure?_collecting (received vs : List Violation) :
    (collecting received).failure? vs = none := by
  induction vs generalizing received with
  | nil => rfl
  | cons v vs ih => exact ih (received ++ [v])

end Sink

def Violation.warning (v : Violation) : LogLine := ⟨.warn, v.describe⟩

namespace Detector

variable {d e : Detector}

def sinkOf (d : Detector) (sink : Option Nat) : Option Sink := sink.bind fun i => d.sinks[i]?

/-- How the delivery of violations to the sink of a recorder fails, if it does. -/
def failure? (d : Detector) (sink : Option Nat) (vs : List Violation) : Option String :=
  (d.sinkOf sink).bind (·.failure? vs)

/-- Some delivery fails after those before it have returned. -/
theorem failure?_eq_some_iff {sink : Option Nat} {vs : List Violation} {message : String} :
    d.failure? sink vs = some message ↔ ∃ s before u after, d.sinkOf sink = some s ∧
      vs = before ++ u :: after ∧ s.failure? before = none ∧
        ((s.receiveAll before).receive u).2 = some message := by
  rw [failure?, Option.bind_eq_some_iff]
  constructor
  · rintro ⟨s, hs, hfails⟩
    obtain ⟨before, u, after, hsplit, hbefore, hu⟩ := Sink.failure?_eq_some_iff.1 hfails
    exact ⟨s, before, u, after, hs, hsplit, hbefore, hu⟩
  · rintro ⟨s, before, u, after, hs, hsplit, hbefore, hu⟩
    exact ⟨s, hs, Sink.failure?_eq_some_iff.2 ⟨before, u, after, hsplit, hbefore, hu⟩⟩

/-- The violations that get as far as the sink. -/
def heard (d : Detector) (sink : Option Nat) (vs : List Violation) : List Violation :=
  (d.sinkOf sink).elim vs (·.reached vs)

theorem heard_of_failure?_eq_none {sink : Option Nat} {vs : List Violation}
    (h : d.failure? sink vs = none) : d.heard sink vs = vs := by
  unfold failure? at h
  unfold heard
  cases hs : d.sinkOf sink with
  | none => rfl
  | some s =>
    rw [hs, Option.bind_some] at h
    exact Sink.reached_of_failure?_eq_none h

/-- The sinks when the one of a recorder has received violations. -/
def sinksAfter (d : Detector) (sink : Option Nat) (vs : List Violation) : List Sink :=
  sink.elim d.sinks fun i => d.sinks.modify i (·.receiveAll vs)

theorem sinksAfter_nil (d : Detector) (sink : Option Nat) : d.sinksAfter sink [] = d.sinks := by
  cases sink with
  | none => rfl
  | some i => exact List.modify_id i d.sinks

theorem length_sinksAfter (d : Detector) (sink : Option Nat) (vs : List Violation) :
    (d.sinksAfter sink vs).length = d.sinks.length := by
  cases sink with
  | none => rfl
  | some i => exact List.length_modify _ _ _

theorem heard_nil (d : Detector) (sink : Option Nat) : d.heard sink [] = [] := by
  unfold heard
  cases d.sinkOf sink <;> rfl

theorem failure?_nil (d : Detector) (sink : Option Nat) : d.failure? sink [] = none := by
  unfold failure?
  cases d.sinkOf sink <;> rfl

theorem deliver_eq (sink : Option Nat) (d : Detector) (vs : List Violation) :
    deliver sink d vs = ({ d with sinks := d.sinksAfter sink (d.heard sink vs) },
      (d.heard sink vs).map Violation.warning, (d.failure? sink vs).elim .returned .stopped) := by
  induction vs generalizing d with
  | nil =>
    rw [heard_nil, failure?_nil, sinksAfter_nil]
    rfl
  | cons v vs ih =>
    unfold deliver
    cases sink with
    | none =>
      dsimp only
      rw [ih d]
      rfl
    | some i =>
      dsimp only
      cases hs : d.sinks[i]? with
      | none =>
        have hnone : d.sinkOf (some i) = none := hs
        have hsame : ∀ vs, d.sinksAfter (some i) vs = d.sinks := fun vs =>
          List.modify_eq_self (List.getElem?_eq_none_iff.1 hs)
        dsimp only
        rw [ih d, hsame, hsame]
        simp [heard, failure?, hnone, Violation.warning]
      | some s =>
        have hsome : d.sinkOf (some i) = some s := hs
        have hset : d.sinks.set i (s.receive v).1 = d.sinks.modify i (·.receiveAll [v]) := by
          rw [List.modify_eq_set_getElem?, hs]
          rfl
        dsimp only
        rw [hset]
        cases hv : (s.receive v).2 with
        | some message =>
          simp [heard, failure?, hsome, Sink.reached, Sink.failure?, hv, sinksAfter,
            Violation.warning]
        | none =>
          -- the other violations go to the sink as the first one has left it
          have hnext : sinkOf { d with sinks := d.sinks.modify i (·.receiveAll [v]) } (some i) =
              some (s.receive v).1 := by
            simp [sinkOf, hs, Sink.receiveAll]
          have hmore : ∀ vs, (d.sinks.modify i (·.receiveAll [v])).modify i (·.receiveAll vs) =
              d.sinks.modify i (·.receiveAll (v :: vs)) :=
            fun vs => List.modify_modify_eq _ _ _ _
          dsimp only
          rw [ih]
          simp [heard, failure?, hnext, hsome, Sink.reached, Sink.failure?, hv, sinksAfter, hmore,
            Violation.warning]

/-- What gets as far as the sink is logged and delivered. If no delivery fails the recorder keeps
all violations, and otherwise none. -/
theorem report_eq (d : Detector) (r : Nat) (q : Recorder) (vs : List Violation) :
    d.report r q vs = ({ d with
        sinks := d.sinksAfter q.sink (d.heard q.sink vs)
        recorders := if (d.failure? q.sink vs).isSome then d.recorders else
          d.recorders.modify r fun p => { p with history := p.history ++ vs } },
      (d.heard q.sink vs).map Violation.warning,
      (d.failure? q.sink vs).elim
        (if q.settings.strict then (vs.head?).elim .returned fun v => .stopped v.describe
          else .returned) .stopped) := by
  cases vs with
  | nil =>
    have hsame : (d.recorders.modify r fun p => { p with history := p.history ++ [] }) =
        d.recorders := by
      simp only [List.append_nil]
      exact List.modify_id r d.recorders
    rw [heard_nil, failure?_nil, sinksAfter_nil, hsame, ite_self]
    simp [report]
  | cons v vs =>
    unfold report
    dsimp only
    rw [deliver_eq]
    cases hf : d.failure? q.sink (v :: vs) <;> simp [remember]

end Detector

end LockDiscipline.Order
