import LockDiscipline.Proofs.Order.Histories

namespace LockDiscipline.Order

open LockDiscipline.Config

namespace Realm

/-- Whether the deed sets up nothing besides what there is. -/
def Deed.isRoutine : Deed → Bool
  | .create _ | .drop _ | .begin .. | .endThread _ | .sweep _ => true
  | _ => false

/-- What the only recorder of the realm keeps. -/
def history (w : Realm) : List Violation := w.detector.historyOf 0

structure Lone (w : Realm) : Prop where
  sound : w.Sound
  recorder : ∃ q, w.detector.recorders = [q] ∧ q.graph = 0 ∧ q.sink = none
  known : ∀ a c, (w.detector.graphAt 0).isKnown a c = true → Pair.of a c ∈ w.history.map (·.pair)

theorem lone_start (settings : RecorderSettings) : Lone ⟨.empty, { Detector.empty with
    graphs := [.empty settings.sweepEvery.toNat]
    recorders := [⟨0, settings, .monitor, none, []⟩] }⟩ := by
  have hsole := Detector.sole_start settings
  have hnew : ∀ i, (Detector.graphAt { Detector.empty with
      graphs := [.empty settings.sweepEvery.toNat]
      recorders := [⟨0, settings, .monitor, none, []⟩] } i).nodes = ∅ := by
    intro i
    cases i <;> rfl
  refine ⟨⟨?_, ?_, fun _ _ _ => rfl, List.nodup_nil, ?_⟩, ⟨_, rfl, rfl, rfl⟩, ?_⟩
  · intro i
    refine ⟨hsole.intact i, fun a n hn => ?_⟩
    rw [hnew] at hn
    simp at hn
  · intro t r c hc
    cases hc
  · intro q hq
    rw [List.mem_singleton.1 hq]
    exact ⟨Nat.zero_lt_one, fun i hi => by cases hi⟩
  · intro a c h
    simp [Detector.graphAt, Graph.empty, Graph.isKnown] at h

namespace Lone

variable {w v : Realm} {e : Deed} {x : Detector.Reply} {a c : ClassifierId}

theorem loses (hw : w.Lone) (vs : List Violation) : w.detector.loses 0 vs = false := by
  obtain ⟨q, hq, -, hsink⟩ := hw.recorder
  simp [Detector.loses, hq, Detector.failure?, Detector.sinkOf, hsink]

theorem history_eq (hw : w.Lone) (h : w.step e = some (v, x)) :
    v.history = w.history ++ foundBy 0 e x := by
  have hstep := historyOf_step hw.sound h 0
  rw [hw.loses, if_neg (by decide)] at hstep
  exact hstep

theorem history_step (hw : w.Lone) (h : w.step e = some (v, x)) : w.history <+: v.history := by
  rw [hw.history_eq h]
  exact List.prefix_append _ _

/-- There is nothing but a report that makes a pair known. -/
theorem known_step (hw : w.Lone) (he : e.isRoutine = true) (h : w.step e = some (v, x))
    (hk : (v.detector.graphAt 0).isKnown a c = true) :
    (w.detector.graphAt 0).isKnown a c = true ∨ Pair.of a c ∈ (foundBy 0 e x).map (·.pair) := by
  cases e with
  | create d =>
    obtain ⟨-, rfl, -⟩ := step_create h
    exact Or.inl hk
  | drop d =>
    obtain ⟨-, rfl, -⟩ := step_drop h
    exact Or.inl hk
  | endThread t =>
    cases h
    exact Or.inl hk
  | sweep i =>
    cases h
    change ((w.detector.setGraph i _).graphAt 0).isKnown a c = true at hk
    rw [Detector.graphAt_setGraph] at hk
    split at hk
    · next hi =>
      have hold := Graph.of_isKnown_sweep hk
      rw [← hi.1] at hold
      exact Or.inl hold
    · exact Or.inl hk
  | begin held t r d site =>
    obtain ⟨q, b, hq, rfl, hcase⟩ := step_begin hw.sound h
    split at hcase
    · rw [hcase.1] at hk
      exact Or.inl hk
    · obtain ⟨p, hp, hgraph, -⟩ := hw.recorder
      rw [hp, List.getElem?_singleton, Option.ite_none_right_eq_some, Option.some_inj] at hq
      obtain ⟨rfl, rfl⟩ := hq
      by_cases hold : (w.detector.graphAt 0).isKnown a c = true
      · exact Or.inl hold
      · refine Or.inr ?_
        rw [foundBy, if_pos rfl, hcase.mem_violations hw.sound, hgraph]
        exact ⟨hk, by simpa using hold⟩
  | addGraph | addSink | addRecorder | release | dropRecorder | drain => cases he

theorem recorder_step (hw : w.Lone) (he : e.isRoutine = true) (h : w.step e = some (v, x)) :
    ∃ q, v.detector.recorders = [q] ∧ q.graph = 0 ∧ q.sink = none := by
  obtain ⟨q, hq, hgraph, hsink⟩ := hw.recorder
  cases books_step hw.sound h with
  | same hrecorders | drain hrecorders => exact ⟨q, hrecorders.trans hq, hgraph, hsink⟩
  | sink | recorder => cases he
  | @fresh held t r d site p v b hfresh =>
    have hp := hfresh.recorder
    rw [hq, List.getElem?_singleton, Option.ite_none_right_eq_some, Option.some_inj] at hp
    obtain ⟨rfl, rfl⟩ := hp
    rw [hfresh.recorders, hq]
    split
    · exact ⟨q, rfl, hgraph, hsink⟩
    · exact ⟨_, rfl, hgraph, hsink⟩

theorem step (hw : w.Lone) (he : e.isRoutine = true) (h : w.step e = some (v, x)) : v.Lone := by
  refine ⟨hw.sound.step h, hw.recorder_step he h, ?_⟩
  intro a c hk
  rw [hw.history_eq h, List.map_append, List.mem_append]
  exact (hw.known_step he h hk).imp_left (hw.known a c)

end Lone

end Realm

end LockDiscipline.Order
