import LockDiscipline.Proofs.Order.Acts
import LockDiscipline.Proofs.Watch.Mirror

namespace LockDiscipline.Watch

open LockDiscipline.Config LockDiscipline.Order LockDiscipline.Monitor

/-- All monitors are taken through one watch: its recorder hears of an enter first, then the thread
waits until the monitor is open to it, and only then the runtime lists it. -/
structure Watched where
  detector : Detector
  monitors : Monitors
  /-- What each thread that is entering waits for. -/
  waiting : Table Thread Classifier

inductive Move where
  | begin (pinned : ClassifierId → Bool) (thread : Thread) (c : Classifier) (site : String)
  | acquire (thread : Thread) (label : String)
  | drop (thread : Thread) (label : String)
  | sweep (pinned : ClassifierId → Bool)
  /-- The local storage of the thread goes. Destructors that run on it afterwards may still enter
  monitors and drop guards. -/
  | teardown (thread : Thread)

def Move.thread? : Move → Option Thread
  | begin _ thread _ _ | acquire thread _ | drop thread _ | teardown thread => some thread
  | sweep _ => none

namespace Watched

def graph (w : Watched) : Graph := w.detector.graphAt 0

def stackOf (w : Watched) (thread : Thread) : List Classifier := w.detector.stackOf thread 0

/-- One graph, one recorder that asks the monitors, and one runtime. -/
def start (settings : RecorderSettings) : Watched where
  detector := { Detector.empty with
    graphs := [.empty settings.sweepEvery.toNat]
    recorders := [⟨0, settings, .monitor, none, []⟩] }
  monitors := { Monitors.empty with runtimes := [.empty] }
  waiting := .empty

def isWaiting (w : Watched) (thread : Thread) : Bool := (w.waiting.get? thread).isSome

/-- Tells the recorder of an enter. Unless that stops the thread, it waits from now on. -/
def begin (w : Watched) (pinned : ClassifierId → Bool) (thread : Thread) (c : Classifier)
    (site : String) : Watched :=
  let (d, b) := w.detector.begin pinned (w.monitors.owns thread) thread 0 c site
  match b.verdict with
  | .returned => { w with detector := d, waiting := w.waiting.set thread c }
  | .stopped _ => { w with detector := d }

/-- Enters what the thread waits for, if no other thread owns it. -/
def acquire (w : Watched) (thread : Thread) (label : String) : Option Watched := do
  let c ← w.waiting.get? thread
  let m ← w.monitors.lock ⟨thread, label, c, some 0, some 0⟩
  return { w with monitors := m, waiting := w.waiting.erase thread }

def sweep (w : Watched) (pinned : ClassifierId → Bool) : Watched :=
  { w with
    detector := (w.detector.sweepGraph (fun c => pinned c || w.detector.onStack c) 0).1 }

def isGone (w : Watched) (thread : Thread) : Bool := w.detector.isGone thread

/-- There is no next state for a move that a waiting thread cannot make. -/
def step (w : Watched) : Move → Option Watched
  | .begin pinned thread c site =>
    if w.isWaiting thread then none else some (w.begin pinned thread c site)
  | .acquire thread label => w.acquire thread label
  | .drop thread label =>
    if w.isWaiting thread then none
    else some { w with monitors := (w.monitors.unlock thread label).1 }
  | .sweep pinned => some (w.sweep pinned)
  | .teardown thread =>
    if w.isWaiting thread then none else some { w with detector := w.detector.endThread thread }

def run (w : Watched) : List Move → Option Watched
  | [] => some w
  | m :: ms => do
    let v ← w.step m
    v.run ms

variable {w v : Watched} {pinned : ClassifierId → Bool} {t u : Thread} {site label : String}
  {c : Classifier}

theorem begin_eq (w : Watched) (pinned : ClassifierId → Bool) (t : Thread) (c : Classifier)
    (site : String) :
    (w.begin pinned t c site).monitors = w.monitors ∧
      (w.begin pinned t c site).detector =
        (w.detector.begin pinned (w.monitors.owns t) t 0 c site).1 ∧
      ((w.begin pinned t c site).waiting = w.waiting ∨
        (w.begin pinned t c site).waiting = w.waiting.set t c) := by
  unfold begin
  dsimp only
  split
  · exact ⟨rfl, rfl, Or.inr rfl⟩
  · exact ⟨rfl, rfl, Or.inl rfl⟩

theorem step_begin (h : w.step (.begin pinned t c site) = some v) :
    w.isWaiting t = false ∧ v = w.begin pinned t c site := by
  rw [step, Option.ite_none_left_eq_some] at h
  obtain ⟨hidle, h⟩ := h
  cases h
  exact ⟨by simpa using hidle, rfl⟩

theorem step_drop (h : w.step (.drop t label) = some v) :
    w.isWaiting t = false ∧ v = { w with monitors := (w.monitors.unlock t label).1 } := by
  rw [step, Option.ite_none_left_eq_some] at h
  obtain ⟨hidle, h⟩ := h
  cases h
  exact ⟨by simpa using hidle, rfl⟩

theorem step_teardown (h : w.step (.teardown t) = some v) :
    w.isWaiting t = false ∧ v = { w with detector := w.detector.endThread t } := by
  rw [step, Option.ite_none_left_eq_some] at h
  obtain ⟨hidle, h⟩ := h
  cases h
  exact ⟨by simpa using hidle, rfl⟩

theorem acquire_eq_some (h : w.acquire t label = some v) :
    ∃ c, w.waiting.get? t = some c ∧
      w.monitors.lock ⟨t, label, c, some 0, some 0⟩ = some v.monitors ∧
        v.detector = w.detector ∧ v.waiting = w.waiting.erase t := by
  unfold acquire at h
  obtain ⟨c, hc, h⟩ := Option.bind_eq_some_iff.1 h
  obtain ⟨m, hm, h⟩ := Option.bind_eq_some_iff.1 h
  cases h
  exact ⟨c, hc, hm, rfl, rfl⟩

theorem isGone_begin (w : Watched) (pinned : ClassifierId → Bool) (t : Thread) (c : Classifier)
    (site : String) : (w.begin pinned t c site).isGone = w.isGone := by
  funext u
  rw [isGone, (begin_eq w pinned t c site).2.1, Detector.isGone, Detector.gone_begin]
  rfl

/-- A thread is without its local storage from its teardown on. -/
theorem isGone_step {m : Move} (h : w.step m = some v) :
    v.isGone u = true ↔ w.isGone u = true ∨ m = .teardown u := by
  cases m with
  | begin pinned t c site =>
    obtain ⟨-, rfl⟩ := step_begin h
    simp [isGone_begin]
  | acquire t label =>
    obtain ⟨c, -, -, hdetector, -⟩ := acquire_eq_some h
    rw [isGone, hdetector]
    simp [isGone]
  | drop t label =>
    obtain ⟨-, rfl⟩ := step_drop h
    simp [isGone]
  | sweep pinned =>
    cases h
    simp [isGone, sweep, Detector.isGone, Detector.sweepGraph, Detector.setGraph]
  | teardown t =>
    obtain ⟨-, rfl⟩ := step_teardown h
    rw [isGone, Detector.isGone_endThread, Bool.or_eq_true, beq_iff_eq, Move.teardown.injEq, or_comm,
      eq_comm (a := u)]
    rfl

theorem isGone_run {ms : List Move} (h : w.run ms = some v) :
    v.isGone u = true ↔ w.isGone u = true ∨ .teardown u ∈ ms := by
  induction ms generalizing w with
  | nil =>
    cases h
    simp
  | cons m ms ih =>
    obtain ⟨x, hx, hrest⟩ := Option.bind_eq_some_iff.1 h
    rw [ih hrest, isGone_step hx, List.mem_cons, or_assoc, eq_comm (a := m)]

structure Matched (w : Watched) : Prop where
  recorder : w.detector.recorders.map Recorder.role = [(0, .monitor)]
  graphs : w.detector.graphs.length = 1
  intact : ∀ i, (w.detector.graphAt i).Intact
  mirrored : Mirrored w.monitors w.isGone w.stackOf
  announced : ∀ t c, w.waiting.get? t = some c → w.isGone t = false →
    Announced w.monitors w.stackOf t c

theorem matched_start (settings : RecorderSettings) : (start settings).Matched := by
  refine ⟨rfl, rfl, (Detector.sole_start settings).intact, ?_, ?_⟩
  · refine ⟨Monitors.balanced_empty 1, rfl, ?_, fun _ _ => rfl, fun _ _ => rfl⟩
    intro g hg
    cases hg
  · intro t c h
    cases h

namespace Matched

theorem sole (hw : w.Matched) : w.detector.Sole := ⟨hw.recorder, hw.graphs, hw.intact⟩

/-- The recorder takes an enter for a fresh one where the thread does not own the monitor, as long
as it records at all. -/
theorem isFresh (hw : w.Matched) (t : Thread) (c : Classifier) :
    w.detector.isFresh (w.monitors.owns t) t 0 c = (!w.isGone t && !w.monitors.owns t c.id) := by
  rw [hw.sole.isFresh]
  cases hgone : w.isGone t with
  | true =>
    unfold isGone at hgone
    rw [hgone, Bool.not_true, Bool.false_and, Bool.false_and]
  | false =>
    unfold isGone at hgone
    rw [hgone]
    cases howns : w.monitors.owns t c.id with
    | false => rw [Bool.and_false]
    | true =>
      obtain ⟨d, hd, hid⟩ := hw.mirrored.exists_of_owns hgone howns
      have hin : c.isIn (w.detector.stackOf t 0) = true := Classifier.isIn_iff.2 ⟨d, hd, hid⟩
      rw [hin, Bool.and_true]

theorem stackOf_begin (hw : w.Matched) (pinned : ClassifierId → Bool) (t : Thread)
    (c : Classifier) (site : String) (u : Thread) :
    (w.begin pinned t c site).stackOf u =
      if u = t ∧ w.isGone t = false ∧ w.monitors.owns t c.id = false then
        (w.stackOf t).filter (fun d => w.monitors.owns t d.id) ++ [c] else w.stackOf u := by
  unfold Watched.stackOf
  rw [(begin_eq w pinned t c site).2.1, Detector.stackOf_begin, hw.isFresh]
  simp

/-- An enter that is not fresh leaves all stacks as they are. -/
theorem stackOf_begin_of_not_fresh (hw : w.Matched) (pinned : ClassifierId → Bool) (site : String)
    (h : ¬ (w.isGone t = false ∧ w.monitors.owns t c.id = false)) :
    (w.begin pinned t c site).stackOf = w.stackOf := by
  funext u
  rw [hw.stackOf_begin, if_neg (fun hand => h hand.2)]

theorem begin (hw : w.Matched) (hidle : w.isWaiting t = false) :
    (w.begin pinned t c site).Matched := by
  obtain ⟨hmonitors, hdetector, hwaiting⟩ := begin_eq w pinned t c site
  have hstack := hw.stackOf_begin pinned t c site
  have hsole : (w.begin pinned t c site).detector.Sole := by
    rw [hdetector]
    exact hw.sole.begin
  have hgone := isGone_begin w pinned t c site
  refine ⟨hsole.recorder, hsole.graphs, hsole.intact, ?_, ?_⟩
  · rw [hmonitors, hgone]
    by_cases hfresh : w.isGone t = false ∧ w.monitors.owns t c.id = false
    · refine hw.mirrored.push hfresh.1 hfresh.2 ?_ ?_
      · rw [hstack, if_pos ⟨rfl, hfresh⟩]
      · intro u hu
        rw [hstack, if_neg (fun h => hu h.1)]
    · rw [hw.stackOf_begin_of_not_fresh pinned site hfresh]
      exact hw.mirrored
  · intro u d hd hu
    rw [hgone] at hu
    by_cases hut : u = t
    · subst hut
      rcases hwaiting with hwaiting | hwaiting
      · rw [hwaiting] at hd
        rw [isWaiting, hd] at hidle
        cases hidle
      · rw [hwaiting, Table.get?_set, if_pos rfl] at hd
        cases hd
        rw [hmonitors]
        cases howns : w.monitors.owns u c.id with
        | true => exact Or.inl howns
        | false => exact announced_push howns (by rw [hstack, if_pos ⟨rfl, hu, howns⟩])
    · have hd' : w.waiting.get? u = some d := by
        rcases hwaiting with hwaiting | hwaiting
        · rw [← hwaiting]
          exact hd
        · rw [hwaiting, Table.get?_set, if_neg hut] at hd
          exact hd
      refine (hw.announced u d hd' hu).congr ?_ ?_
      · rw [hmonitors]
      · rw [hstack, if_neg (fun h => hut h.1)]

theorem acquire (hw : w.Matched) (h : w.acquire t label = some v) : v.Matched := by
  obtain ⟨c, hc, hlock, hdetector, hwaiting⟩ := acquire_eq_some h
  have hstack : v.stackOf = w.stackOf := by
    unfold Watched.stackOf
    rw [hdetector]
  have hgone : v.isGone = w.isGone := by
    unfold isGone
    rw [hdetector]
  refine ⟨?_, ?_, ?_, ?_, ?_⟩
  · rw [hdetector, hw.recorder]
  · rw [hdetector, hw.graphs]
  · rw [hdetector]
    exact hw.intact
  · rw [hstack, hgone]
    exact hw.mirrored.lock hlock rfl (hw.announced t c hc)
  · intro u d hd hu
    rw [hgone] at hu
    rw [hwaiting, Table.get?_erase] at hd
    split at hd
    · cases hd
    · next hut =>
      refine (hw.announced u d hd hu).congr ?_ ?_
      · exact hw.mirrored.balanced.owns_lock hlock hut
      · rw [hstack]

theorem drop (hw : w.Matched) (hidle : w.isWaiting t = false) :
    Matched { w with monitors := (w.monitors.unlock t label).1 } := by
  refine ⟨hw.recorder, hw.graphs, hw.intact, hw.mirrored.unlock t label, ?_⟩
  intro u d hd hu
  refine (hw.announced u d hd hu).congr ?_ rfl
  apply hw.mirrored.balanced.owns_unlock
  rintro rfl
  rw [isWaiting, hd] at hidle
  cases hidle

theorem sweep (hw : w.Matched) (pinned : ClassifierId → Bool) : (w.sweep pinned).Matched := by
  have hsole := hw.sole.sweep fun c => pinned c || w.detector.onStack c
  exact ⟨hsole.recorder, hsole.graphs, hsole.intact, hw.mirrored, hw.announced⟩

theorem teardown (hw : w.Matched) (hidle : w.isWaiting t = false) :
    Matched { w with detector := w.detector.endThread t } := by
  have hstack : ∀ u, (w.detector.endThread t).stackOf u 0 = if u = t then [] else w.stackOf u :=
    fun u => Detector.stackOf_endThread w.detector t u 0
  have hgone : ∀ u, (w.detector.endThread t).isGone u = (u == t || w.isGone u) :=
    fun u => Detector.isGone_endThread w.detector t u
  refine ⟨hw.recorder, hw.graphs, hw.intact, hw.mirrored.lose hgone hstack, ?_⟩
  intro u d hd hu
  have hbefore : w.isGone u = false := (Bool.or_eq_false_iff.1 ((hgone u).symm.trans hu)).2
  refine (hw.announced u d hd hbefore).congr rfl ?_
  show (w.detector.endThread t).stackOf u 0 = _
  rw [hstack, if_neg]
  rintro rfl
  rw [isWaiting, hd] at hidle
  cases hidle

theorem step (hw : w.Matched) {m : Move} (h : w.step m = some v) : v.Matched := by
  cases m with
  | begin pinned t c site =>
    obtain ⟨hidle, rfl⟩ := step_begin h
    exact hw.begin hidle
  | acquire t label => exact hw.acquire h
  | drop t label =>
    obtain ⟨hidle, rfl⟩ := step_drop h
    exact hw.drop hidle
  | sweep pinned =>
    cases h
    exact hw.sweep pinned
  | teardown t =>
    obtain ⟨hidle, rfl⟩ := step_teardown h
    exact hw.teardown hidle

theorem run (hw : w.Matched) {ms : List Move} (h : w.run ms = some v) : v.Matched := by
  induction ms generalizing w with
  | nil =>
    cases h
    exact hw
  | cons m ms ih =>
    obtain ⟨u, hu, hrest⟩ := Option.bind_eq_some_iff.1 h
    exact ih (hw.step hu) hrest

end Matched

theorem matched_run {settings : RecorderSettings} {ms : List Move}
    (h : (start settings).run ms = some w) : w.Matched :=
  (matched_start settings).run h

end Watched

end LockDiscipline.Watch
