import LockDiscipline.Proofs.Watch.Watched
import LockDiscipline.Scenario.Watches

namespace LockDiscipline.Scenario

open LockDiscipline.Config LockDiscipline.Order LockDiscipline.Monitor LockDiscipline.Watch

namespace State

variable {s : State}

/-- What a scenario is as threads under its watch; between operations nobody waits. -/
def watched (s : State) : Watched := ⟨s.detector, s.monitors, .empty⟩

/-- The thread with the name, and the scenario once it has started. -/
def enlist (s : State) (name : String) : Thread × State :=
  match s.threads.get? name with
  | some t => (t, s)
  | none =>
    (⟨s.started, name⟩,
      { s with threads := s.threads.set name ⟨s.started, name⟩, started := s.started + 1 })

@[simp] theorem detector_enlist (s : State) (n : String) :
    (s.enlist n).2.detector = s.detector := by
  unfold enlist
  split <;> rfl

@[simp] theorem monitors_enlist (s : State) (n : String) :
    (s.enlist n).2.monitors = s.monitors := by
  unfold enlist
  split <;> rfl

@[simp] theorem handles_enlist (s : State) (n : String) : (s.enlist n).2.handles = s.handles := by
  unfold enlist
  split <;> rfl

@[simp] theorem watches_enlist (s : State) (n : String) : (s.enlist n).2.watches = s.watches := by
  unfold enlist
  split <;> rfl

@[simp] theorem pins_enlist (s : State) (n : String) : (s.enlist n).2.pins = s.pins := by
  unfold enlist
  split <;> rfl

theorem watched_enlist (s : State) (n : String) : (s.enlist n).2.watched = s.watched := by
  simp [watched]

/-- One watch is all there is: it has a name, and every guard came through it. -/
structure HasWatch (s : State) (name : String) : Prop where
  named : ∃ config, s.watches.get? name = some ⟨config, 0, 0⟩
  matched : s.watched.Matched
  guards : ∀ g ∈ s.monitors.guards, g.recorder = some 0

theorem HasWatch.of_watches {name : String} {e : State} (hs : s.HasWatch name)
    (hwatches : e.watches = s.watches) (hmatched : e.watched.Matched)
    (hguards : ∀ g ∈ e.monitors.guards, g.recorder = some 0) : e.HasWatch name := by
  refine ⟨?_, hmatched, hguards⟩
  rw [hwatches]
  exact hs.named

theorem HasWatch.enlist {name : String} (hs : s.HasWatch name) (n : String) :
    (s.enlist n).2.HasWatch name := by
  refine hs.of_watches (s.watches_enlist n) ?_ ?_
  · rw [watched_enlist]
    exact hs.matched
  · rw [monitors_enlist]
    exact hs.guards

/-- The recorder of a watch with a name is not dropped with a guard. -/
theorem settle_of_named {name : String} {config : Approved} {g : HeldGuard}
    (hname : s.watches.get? name = some ⟨config, 0, 0⟩) (hg : g.recorder = some 0) :
    s.settle g = s := by
  have hwatched : s.isWatched 0 = true := by
    have hany : s.watches.values.any (fun w => w.recorder == 0) = true :=
      List.any_eq_true.2 ⟨_, Table.mem_values_of_get? hname, rfl⟩
    unfold isWatched
    rw [hany, Bool.true_or]
  unfold settle
  rw [hg]
  dsimp only
  rw [if_pos hwatched]

end State

namespace Play

variable {s : State} {name h label site : String} {t : Thread} {c : Classifier}

theorem run_onThread (n : String) (s : State) : (onThread n).run s = some (s.enlist n) := by
  unfold onThread State.enlist
  simp only [StateT.run_bind, StateT.run_get, Option.pure_def, Option.bind_eq_bind,
    Option.bind_some]
  cases s.threads.get? n <;> rfl

theorem run_named {α : Type} {names : State → Table String α} {n : String} {x : α}
    (hn : (names s).get? n = some x) : (named names n).run s = some (x, s) := by
  unfold named
  simp only [StateT.run_bind, StateT.run_get, Option.pure_def, Option.bind_eq_bind,
    Option.bind_some, hn]
  rfl

/-- The guard that had the label does not take the recorder along. -/
theorem run_lockWith {config : Approved} {g : HeldGuard} {m : Monitors}
    (hname : s.watches.get? name = some ⟨config, 0, 0⟩)
    (hguards : ∀ g ∈ s.monitors.guards, g.recorder = some 0)
    (hlock : s.monitors.lock g = some m) :
    (lockWith g).run s = some (.done (), { s with monitors := m }) := by
  unfold lockWith
  simp only [StateT.run_bind, StateT.run_get, Option.pure_def, Option.bind_eq_bind,
    Option.bind_some, hlock, StateT.run_set]
  cases hold : s.monitors.guard? g.thread g.label with
  | none => rfl
  | some old =>
    have hname' : ({ s with monitors := m } : State).watches.get? name = some ⟨config, 0, 0⟩ := hname
    rw [Option.elim_some,
      State.settle_of_named hname' (hguards old (List.mem_of_find?_eq_some hold))]
    rfl

theorem run_unlock {config : Approved} (hname : s.watches.get? name = some ⟨config, 0, 0⟩)
    (hguards : ∀ g ∈ s.monitors.guards, g.recorder = some 0) (n label : String) :
    (unlock n label).run s =
      some ((s.monitors.unlock (s.enlist n).1 label).2.map (·.classifier.id),
        { (s.enlist n).2 with monitors := (s.monitors.unlock (s.enlist n).1 label).1 }) := by
  unfold unlock
  simp only [StateT.run_bind, run_onThread, StateT.run_get, Option.pure_def, Option.bind_eq_bind,
    Option.bind_some, State.monitors_enlist]
  unfold Monitors.unlock
  cases hold : s.monitors.guard? (s.enlist n).1 label with
  | none => rfl
  | some old =>
    have hname' : ({ (s.enlist n).2 with monitors := s.monitors.drop old } : State).watches.get?
        name = some ⟨config, 0, 0⟩ := by
      rw [← hname, ← State.watches_enlist s n]
    simp only [StateT.run_set, Option.elim_some,
      State.settle_of_named hname' (hguards old (List.mem_of_find?_eq_some hold))]
    rfl

theorem run_beginAt {q : Recorder} (hq : s.detector.recorders[0]? = some q)
    (hprobe : q.probe = .monitor) (t : Thread) (c : Classifier) (site : String) :
    (beginAt t 0 c site).run s =
      let r := s.detector.begin s.pins (s.monitors.owns t) t 0 c site
      some (⟨r.2.log, r.2.verdict, ids (r.1.heldBy t 0), .of (r.1.graphAt q.graph)⟩,
        { s with detector := r.1 }) := by
  unfold beginAt
  simp only [StateT.run_bind, StateT.run_get, Option.pure_def, Option.bind_eq_bind,
    Option.bind_some, hq, hprobe]
  rfl

/-- The only thread that waits enters. -/
theorem acquire_alone (d : Detector) {k m : Monitors}
    (h : k.lock ⟨t, label, c, some 0, some 0⟩ = some m) :
    (Watched.mk d k (Table.empty.set t c)).acquire t label = some ⟨d, m, .empty⟩ := by
  have hwaits : (Table.empty.set t c).get? t = some c := by
    rw [Table.get?_set, if_pos rfl]
  have hempty : (Table.empty.set t c).erase t = (.empty : Table Thread Classifier) := by
    simp [Table.set, Table.erase, Table.empty]
  simp only [Watched.acquire, hwaits, h, hempty, Option.bind_eq_bind, Option.bind_some]
  rfl

/-- A thread that the recorder did not stop enters at once. -/
theorem lockWith_watched (hs : s.HasWatch name) (hopen : s.monitors.isOpenTo t c.id = true)
    {d : Detector} {b : Began}
    (hd : s.detector.begin s.pins (s.monitors.owns t) t 0 c site = (d, b))
    (hverdict : b.verdict = .returned) (label : String) :
    ∃ e, (lockWith ⟨t, label, c, some 0, some 0⟩).run { s with detector := d } =
        some (.done (), e) ∧
      s.watched.run [.begin s.pins t c site, .acquire t label] = some e.watched ∧
        e.HasWatch name := by
  obtain ⟨config, hname⟩ := hs.named
  have hstep : s.watched.step (.begin s.pins t c site) =
      some ⟨d, s.monitors, Table.empty.set t c⟩ := by
    have hbegun : s.watched.begin s.pins t c site = ⟨d, s.monitors, Table.empty.set t c⟩ := by
      simp only [Watched.begin, State.watched, hd, hverdict]
    rw [← hbegun]
    rfl
  obtain ⟨m, hm⟩ : ∃ m, s.monitors.lock ⟨t, label, c, some 0, some 0⟩ = some m := by
    rw [Monitors.lock_eq, if_pos hopen]
    exact ⟨_, rfl⟩
  have hacquire : (Watched.mk d s.monitors (Table.empty.set t c)).step (.acquire t label) =
      some ⟨d, m, .empty⟩ := acquire_alone d hm
  refine ⟨{ s with detector := d, monitors := m }, run_lockWith hname hs.guards hm, ?_, ?_⟩
  · rw [Watched.run, hstep]
    show (Watched.step _ _).bind _ = _
    rw [hacquire]
    rfl
  · refine hs.of_watches rfl ?_ ?_
    · exact (hs.matched.step hstep).step hacquire
    · intro g hg
      rcases Monitors.mem_guards_lock hm hg with hg | rfl
      · exact hs.guards g hg
      · rfl

/-- An enter in a scenario: nothing where it would block, and else a begin, after which the thread
enters unless the recorder stopped it. -/
theorem watchEnter_watched (hs : s.HasWatch name) (hh : s.handles.get? h = some c)
    (n label site : String) :
    ∃ x e ms, (watchEnter n name h label site).run s = some (x, e) ∧
      s.watched.run ms = some e.watched ∧ e.HasWatch name ∧
        (ms = [] ∨ ms = [.begin s.pins (s.enlist n).1 c site] ∨
          ms = [.begin s.pins (s.enlist n).1 c site, .acquire (s.enlist n).1 label]) := by
  have hu := hs.enlist n
  have hhandle : (s.enlist n).2.handles.get? h = some c := by
    rw [State.handles_enlist, hh]
  rw [← s.watched_enlist n, ← s.pins_enlist n]
  unfold watchEnter
  simp only [StateT.run_bind, run_onThread, Option.bind_eq_bind, Option.bind_some]
  generalize (s.enlist n).2 = u at hu hhandle ⊢
  generalize (s.enlist n).1 = t
  obtain ⟨config, hname⟩ := hu.named
  obtain ⟨q, hq, -, hprobe⟩ := hu.matched.sole.exists_recorder
  have hclassifier : (classifier h).run u = some (c, u) := run_named hhandle
  simp only [hclassifier, run_named hname, Option.bind_some, StateT.run_get, Option.pure_def]
  by_cases hopen : u.monitors.isOpenTo t c.id = true
  · rw [if_pos hopen]
    simp only [StateT.run_bind, Option.bind_eq_bind, run_beginAt hq hprobe, Option.bind_some]
    generalize hd : u.detector.begin u.pins (u.monitors.owns t) t 0 c site = r
    obtain ⟨d, b⟩ := r
    cases hverdict : b.verdict with
    | stopped message =>
      have hstep : u.watched.step (.begin u.pins t c site) =
          some (State.watched { u with detector := d }) := by
        have hbegun : u.watched.begin u.pins t c site = State.watched { u with detector := d } := by
          simp only [Watched.begin, State.watched, hd, hverdict]
        rw [← hbegun]
        rfl
      refine ⟨_, { u with detector := d }, [.begin u.pins t c site], rfl, ?_,
        hu.of_watches rfl (hu.matched.step hstep) hu.guards, Or.inr (Or.inl rfl)⟩
      rw [Watched.run, hstep]
      rfl
    | returned =>
      obtain ⟨e, hlock, hrun, he⟩ := lockWith_watched hu hopen hd hverdict label
      dsimp only
      rw [StateT.run_bind, hlock]
      exact ⟨_, e, [.begin u.pins t c site, .acquire t label], rfl, hrun, he, Or.inr (Or.inr rfl)⟩
  · rw [if_neg hopen]
    exact ⟨_, u, [], rfl, rfl, hu, Or.inl rfl⟩

theorem unlock_watched (hs : s.HasWatch name) (n label : String) :
    ∃ x e, (unlock n label).run s = some (x, e) ∧
      s.watched.step (.drop (s.enlist n).1 label) = some e.watched ∧ e.HasWatch name := by
  obtain ⟨config, hname⟩ := hs.named
  generalize ht : (s.enlist n).1 = t
  have hstep : s.watched.step (.drop t label) =
      some ⟨s.detector, (s.monitors.unlock t label).1, .empty⟩ := rfl
  have hwatched : State.watched
      { (s.enlist n).2 with monitors := (s.monitors.unlock t label).1 } =
        ⟨s.detector, (s.monitors.unlock t label).1, .empty⟩ := by
    simp [State.watched]
  have hrun := run_unlock hname hs.guards n label
  rw [ht] at hrun
  refine ⟨_, _, hrun, ?_, ?_⟩
  · rw [hwatched]
    exact hstep
  · refine hs.of_watches (s.watches_enlist n) ?_ ?_
    · rw [hwatched]
      exact hs.matched.step hstep
    · intro g hg
      exact hs.guards g (Monitors.mem_guards_unlock hg)

/-- The first watch of a scenario starts from nothing. -/
theorem newWatch_watched (hd : s.detector = .empty) (hm : s.monitors = .empty)
    (config : Approved) :
    ∃ e, (newWatch name config).run s = some ((), e) ∧
      e.watched = .start config.draft.recorderSettings ∧ e.HasWatch name := by
  obtain ⟨e, he⟩ : ∃ e, (newWatch name config).run s = some ((), e) := ⟨_, rfl⟩
  have hwatched : e.watched = .start config.draft.recorderSettings := by
    cases he
    simp only [State.watched, hd, hm, Watched.start, Detector.empty, Monitors.empty]
    rfl
  have hmonitors : e.monitors.guards = [] := congrArg (·.monitors.guards) hwatched
  refine ⟨e, he, hwatched, ?_, ?_, ?_⟩
  · refine ⟨config, ?_⟩
    cases he
    dsimp only
    rw [Table.get?_set, if_pos rfl, hd, hm]
    rfl
  · rw [hwatched]
    exact Watched.matched_start _
  · rw [hmonitors]
    intro g hg
    cases hg

end Play

end LockDiscipline.Scenario
