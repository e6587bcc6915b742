import LockDiscipline.Proofs.Monitor.Snapshots
import LockDiscipline.Proofs.Order.Consistency
import LockDiscipline.Proofs.Order.Lone
import LockDiscipline.Proofs.Sampling.Nesting
import LockDiscipline.Proofs.Watch.Lined

namespace LockDiscipline.Watch

open LockDiscipline.Config LockDiscipline.Order LockDiscipline.Monitor LockDiscipline.Sampling

/-- Threads under a watch and somebody who takes samples between their moves. -/
structure Sampled where
  /-- Which classifiers were made, and which of them have no handle left. -/
  population : Population
  watched : Watched
  samples : SampleSet

namespace Sampled

inductive Event where
  | create (c : Classifier)
  | drop (c : Classifier)
  | begin (thread : Thread) (c : Classifier) (site : String)
  | acquire (thread : Thread) (label : String)
  | leave (thread : Thread) (label : String)
  | sweep
  | teardown (thread : Thread)
  | sample (filter : NameFilter)

def start (settings : RecorderSettings) : Sampled := ⟨.empty, .start settings, .empty⟩

/-- Whether a guard or a waiting thread has a handle on the classifier. -/
def isKept (s : Sampled) (a : ClassifierId) : Bool :=
  s.watched.monitors.pins a || s.watched.waiting.values.any fun c => c.id == a

/-- The move that threads make in an event. A thread needs a handle on what it enters. -/
def Event.move? (p : Population) : Event → Option Move
  | .begin t c site => if p.has c then some (.begin p.isAlive t c site) else none
  | .acquire t label => some (.acquire t label)
  | .leave t label => some (.drop t label)
  | .sweep => some (.sweep p.isAlive)
  | .teardown t => some (.teardown t)
  | .create _ | .drop _ | .sample _ => none

def move (s : Sampled) (e : Event) : Option Sampled :=
  (e.move? s.population).bind fun m => (s.watched.step m).map fun w => { s with watched := w }

def step (s : Sampled) (e : Event) : Option Sampled :=
  match e with
  | .create c => (s.population.create c).map fun p => { s with population := p }
  | .drop c =>
    if s.isKept c.id then none else (s.population.drop c).map fun p => { s with population := p }
  | .sample f =>
    some { s with samples := s.samples.recordRound f (s.watched.monitors.runtimeAt 0).snapshot }
  | .begin .. | .acquire .. | .leave .. | .sweep | .teardown _ => s.move e

def run (s : Sampled) : List Event → Option Sampled
  | [] => some s
  | e :: es => do
    let v ← s.step e
    v.run es

/-- The detector with the classifiers there are. -/
def realm (s : Sampled) : Realm := ⟨s.population, s.watched.detector⟩

def heldBy (s : Sampled) (t : Thread) : List Classifier := s.watched.monitors.heldBy t

/-- What the recorder of the watch has reported. -/
def violations (s : Sampled) : List Violation := s.realm.history

variable {s v : Sampled} {e : Event} {es : List Event} {p q : Classifier}

theorem run_induction {P : Sampled → Prop} (hs : P s)
    (hstep : ∀ u e u', P u → u.step e = some u' → P u') (h : s.run es = some v) : P v := by
  induction es generalizing s with
  | nil =>
    cases h
    exact hs
  | cons e es ih =>
    obtain ⟨u, hu, hrest⟩ := Option.bind_eq_some_iff.1 h
    exact ih (hstep s e u hs hu) hrest

inductive Made (s : Sampled) : Event → Sampled → Prop where
  | create {c : Classifier} {n : Population} (created : s.population.create c = some n) :
      Made s (.create c) { s with population := n }
  | drop {c : Classifier} {n : Population} (free : s.isKept c.id = false)
      (dropped : s.population.drop c = some n) : Made s (.drop c) { s with population := n }
  | sample {f : NameFilter} : Made s (.sample f) { s with
      samples := s.samples.recordRound f (s.watched.monitors.runtimeAt 0).snapshot }
  | move {e : Event} {m : Move} {w : Watched} (moves : e.move? s.population = some m)
      (stepped : s.watched.step m = some w) : Made s e { s with watched := w }

theorem made_move (h : s.move e = some v) : s.Made e v := by
  obtain ⟨m, hm, h⟩ := Option.bind_eq_some_iff.1 h
  obtain ⟨w, hw, rfl⟩ := Option.map_eq_some_iff.1 h
  exact .move hm hw

theorem made_step (h : s.step e = some v) : s.Made e v := by
  cases e with
  | create c =>
    obtain ⟨n, hn, rfl⟩ := Option.map_eq_some_iff.1 h
    exact .create hn
  | drop c =>
    rw [step, Option.ite_none_left_eq_some] at h
    obtain ⟨n, hn, rfl⟩ := Option.map_eq_some_iff.1 h.2
    exact .drop (by simpa using h.1) hn
  | sample f =>
    cases h
    exact .sample
  | begin | acquire | leave | sweep | teardown => exact made_move h

/-- There is a handle on all that threads wait for or have entered. -/
structure Handled (n : Population) (w : Watched) : Prop where
  listed : w.monitors.Listed
  waiting : ∀ t c, w.waiting.get? t = some c → n.has c = true
  held : ∀ t, ∀ c ∈ w.monitors.heldBy t, n.has c = true

/-- A thread enters only what there is a handle on. -/
theorem Handled.move {n : Population} {w u : Watched} {m : Move} (hw : Handled n w)
    (hmatched : w.Matched) (hm : e.move? n = some m) (hu : w.step m = some u) : Handled n u := by
  have hruntime : 0 < w.monitors.runtimes.length := by
    rw [hmatched.mirrored.single]
    exact Nat.zero_lt_one
  cases e with
  | begin t c site =>
    rw [Event.move?, Option.ite_none_right_eq_some, Option.some_inj] at hm
    obtain ⟨hc, rfl⟩ := hm
    obtain ⟨-, rfl⟩ := Watched.step_begin hu
    obtain ⟨hmonitors, -, hwaiting⟩ := Watched.begin_eq w n.isAlive t c site
    refine ⟨by rw [hmonitors]; exact hw.listed, ?_, by rw [hmonitors]; exact hw.held⟩
    intro v d hd
    rcases hwaiting with hwaiting | hwaiting
    · rw [hwaiting] at hd
      exact hw.waiting v d hd
    · rw [hwaiting, Table.get?_set] at hd
      split at hd
      · cases hd
        exact hc
      · exact hw.waiting v d hd
  | acquire t label =>
    cases hm
    obtain ⟨c, hc, hlock, -, hwaiting⟩ := Watched.acquire_eq_some hu
    refine ⟨hw.listed.lock hlock, ?_, ?_⟩
    · intro v d hd
      rw [hwaiting, Table.get?_erase, Option.ite_none_left_eq_some] at hd
      exact hw.waiting v d hd.2
    · intro v d hd
      rcases Monitors.mem_heldBy_lock hlock hruntime hd with hd | rfl
      · exact hw.held v d hd
      · exact hw.waiting t _ hc
  | leave t label =>
    cases hm
    obtain ⟨-, rfl⟩ := Watched.step_drop hu
    exact ⟨hw.listed.unlock t label, hw.waiting,
      fun v d hd => hw.held v d (Monitors.mem_heldBy_unlock hruntime hd)⟩
  | sweep =>
    cases hm
    cases hu
    exact ⟨hw.listed, hw.waiting, hw.held⟩
  | teardown t =>
    cases hm
    obtain ⟨-, rfl⟩ := Watched.step_teardown hu
    exact ⟨hw.listed, hw.waiting, hw.held⟩
  | create | drop | sample => cases hm

structure Sound (s : Sampled) : Prop where
  matched : s.watched.Matched
  lined : s.watched.Lined
  lone : s.realm.Lone
  ids : (s.population.born.map (·.id)).Nodup
  handled : Handled s.population s.watched

theorem sound_start (settings : RecorderSettings) : (start settings).Sound := by
  refine ⟨Watched.matched_start settings, Watched.lined_start settings,
    Realm.lone_start settings, List.nodup_nil, ?_, ?_, ?_⟩
  · intro r hr
    rw [List.mem_singleton.1 hr]
    exact List.nodup_nil
  · intro t c h
    cases h
  · intro t c h
    cases h

namespace Sound

theorem eq_of_id (hs : s.Sound) (hp : p ∈ s.population.born) (hq : q ∈ s.population.born)
    (h : p.id = q.id) : p = q :=
  List.inj_on_of_nodup_map hs.ids hp hq h

/-- In a move the detector goes through one deed, or stays as it is. -/
theorem realm_move (hs : s.Sound) {m : Move} {w : Watched} (hm : e.move? s.population = some m)
    (hw : s.watched.step m = some w) : w.detector = s.watched.detector ∨
      ∃ d x, d.isRoutine = true ∧ s.realm.step d = some (⟨s.population, w.detector⟩, x) := by
  cases e with
  | begin t c site =>
    rw [Event.move?, Option.ite_none_right_eq_some, Option.some_inj] at hm
    obtain ⟨hc, rfl⟩ := hm
    obtain ⟨-, rfl⟩ := Watched.step_begin hw
    obtain ⟨r, hr, -⟩ := hs.lone.recorder
    have hthere : 0 < s.realm.detector.recorders.length := by rw [hr]; exact Nat.zero_lt_one
    have hstep : s.realm.step (.begin (s.watched.monitors.owns t) t 0 c site) = some (s.realm.act
        (.begin s.population.isAlive (s.watched.monitors.owns t) t 0 c site)) := if_pos ⟨hc, hthere⟩
    rw [(Watched.begin_eq _ _ _ _ _).2.1]
    exact Or.inr ⟨_, _, rfl, hstep⟩
  | acquire t label =>
    cases hm
    obtain ⟨c, -, -, hdetector, -⟩ := Watched.acquire_eq_some hw
    exact Or.inl hdetector
  | leave t label =>
    cases hm
    obtain ⟨-, rfl⟩ := Watched.step_drop hw
    exact Or.inl rfl
  | sweep =>
    cases hm
    cases hw
    exact Or.inr ⟨.sweep 0, _, rfl, rfl⟩
  | teardown t =>
    cases hm
    obtain ⟨-, rfl⟩ := Watched.step_teardown hw
    exact Or.inr ⟨.endThread t, _, rfl, rfl⟩
  | create | drop | sample => cases hm

theorem pins_of_mem_heldBy (hs : s.Sound) {t : Thread} (hp : p ∈ s.heldBy t) :
    s.watched.monitors.pins p.id = true := by
  have hmirrored := hs.matched.mirrored
  have hpos : 0 < entries p.id (s.heldBy t) := entries_pos_iff.2 ⟨p, hp, rfl⟩
  rw [heldBy, hmirrored.entries_heldBy, hmirrored.balanced.depth, Monitors.guardsOn,
    List.countP_pos_iff] at hpos
  obtain ⟨g, hg, heq⟩ := hpos
  have hid : p.id = g.classifier.id := (of_decide_eq_true heq).2
  exact List.any_eq_true.2 ⟨g, hg, by simp [hid]⟩

theorem create (hs : s.Sound) {c : Classifier} {n : Population}
    (hn : s.population.create c = some n) : Sound { s with population := n } := by
  have hdeed : s.realm.step (.create c) = some (⟨n, s.watched.detector⟩, .done) :=
    congrArg (Option.map fun n => (Realm.mk n s.watched.detector, Detector.Reply.done)) hn
  exact ⟨hs.matched, hs.lined, hs.lone.step rfl hdeed, Population.nodup_create hn hs.ids,
    hs.handled.listed, fun t d hd => Population.has_create hn (hs.handled.waiting t d hd),
    fun t d hd => Population.has_create hn (hs.handled.held t d hd)⟩

theorem drop (hs : s.Sound) {c : Classifier} {n : Population} (hfree : s.isKept c.id = false)
    (hn : s.population.drop c = some n) : Sound { s with population := n } := by
  have hdeed : s.realm.step (.drop c) = some (⟨n, s.watched.detector⟩, .done) :=
    congrArg (Option.map fun n => (Realm.mk n s.watched.detector, Detector.Reply.done)) hn
  have hids : (n.born.map (·.id)).Nodup := by
    obtain ⟨-, rfl⟩ := Population.drop_eq_some_iff.1 hn
    exact hs.ids
  -- what is dropped has no guard and no thread waits for it, so it is on no list
  rw [isKept, Bool.or_eq_false_iff] at hfree
  refine ⟨hs.matched, hs.lined, hs.lone.step rfl hdeed, hids, hs.handled.listed, ?_, ?_⟩
  · intro t d hd
    refine Population.has_drop hn (hs.handled.waiting t d hd) ?_
    intro hid
    have hwaits := List.any_eq_false.1 hfree.2 d (Table.mem_values_of_get? hd)
    exact hwaits (by simp [hid])
  · intro t d hd
    refine Population.has_drop hn (hs.handled.held t d hd) ?_
    intro hid
    rw [hid, hs.pins_of_mem_heldBy hd] at hfree
    cases hfree.1

theorem move (hs : s.Sound) {m : Move} {w : Watched} (hm : e.move? s.population = some m)
    (hw : s.watched.step m = some w) : Sound { s with watched := w } := by
  refine ⟨hs.matched.step hw, hs.lined.step hs.matched hw, ?_, hs.ids,
    hs.handled.move hs.matched hm hw⟩
  rcases hs.realm_move hm hw with hsame | ⟨d, x, hroutine, hdeed⟩
  · unfold realm
    rw [hsame]
    exact hs.lone
  · exact hs.lone.step hroutine hdeed

theorem step (hs : s.Sound) (h : s.step e = some v) : v.Sound := by
  cases made_step h with
  | create hn => exact hs.create hn
  | drop hfree hn => exact hs.drop hfree hn
  | sample => exact ⟨hs.matched, hs.lined, hs.lone, hs.ids, hs.handled⟩
  | move hm hw => exact hs.move hm hw

end Sound

end Sampled

end LockDiscipline.Watch
