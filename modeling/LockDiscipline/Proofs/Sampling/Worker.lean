import LockDiscipline.Proofs.Sampling.Samples
import LockDiscipline.Sampling.Session

namespace LockDiscipline.Sampling

open LockDiscipline.Config

/-- Where a worker stands in its loop. -/
inductive Stage where
  /-- It is about to look whether it should go on. -/
  | checking
  /-- It waits for the answer to a question. -/
  | asking (question : Nat)
  /-- It adds the snapshots of an answer, of which these are left. -/
  | adding (rest : List Snapshot)
  | pausing
  /-- It leaves the loop and drops the answer that made it do so, which bursts or does not. -/
  | leaving (cause : Ending) (bursts : Bool)
  | ended (cause : Ending) (lost : Bool)
  deriving DecidableEq, Repr

structure Worker where
  stage : Stage
  /-- How many questions it has asked. -/
  asked : Nat
  samples : SampleSet
  log : List LogLine
  deriving DecidableEq, Repr

namespace Worker

def start : Worker := ⟨.checking, 0, .empty, []⟩

/-- The worker says why it leaves the loop. -/
def quit (w : Worker) (cause : Ending) (bursts : Bool) : Worker :=
  { w with stage := .leaving cause bursts, log := w.log ++ cause.complaint }

/-- The next step. Whether it should go on matters only where it looks, and where it sees that it
should, it has as good as asked. -/
def step (f : NameFilter) (answers : Nat → Answer) (w : Worker) (goOn : Bool) : Worker :=
  match w.stage with
  | .checking =>
    if goOn then { w with stage := .asking w.asked, asked := w.asked + 1 } else w.quit .told false
  | .asking q =>
    match answers q with
    | .snapshots round => { w with stage := .adding round }
    | .unavailable reason => w.quit (.failed (.unavailable reason)) false
    | .spawn reason bursts => w.quit (.failed (.spawn reason)) bursts
    | .panicked bursts => w.quit .panicked bursts
  | .adding (x :: rest) => { w with stage := .adding rest, samples := w.samples.record f x }
  | .adding [] =>
    { w with stage := .pausing, samples := { w.samples with ticks := w.samples.ticks + 1 } }
  | .pausing => { w with stage := .checking }
  | .leaving cause true => { w with stage := .ended cause true }
  | .leaving cause false =>
    { w with stage := .ended cause false, log := w.log ++ [w.samples.exitLine] }
  | .ended .. => w

/-- A new worker after as many steps, where each entry is what it would find if it looked. -/
def after (f : NameFilter) (answers : Nat → Answer) (goOn : List Bool) : Worker :=
  goOn.foldl (step f answers) start

/-- What a worker leaves behind at its end. -/
def left (w : Worker) : Option Gathered :=
  match w.stage with
  | .ended cause lost => some ⟨w.samples, cause, lost⟩
  | _ => none

end Worker

/-- The rounds of snapshots before the first answer that is none. -/
def rounds : List Answer → List (List Snapshot)
  | .snapshots round :: rest => round :: rounds rest
  | _ => []

/-- What a worker gathers from the first answers. -/
def gathered (f : NameFilter) (answers : Nat → Answer) (n : Nat) : Gathered :=
  gather f .empty ((List.range n).map answers)

variable {f : NameFilter} {answers : Nat → Answer} {s : SampleSet} {w : Worker} {n : Nat}

theorem gather_samples (f : NameFilter) (s : SampleSet) (as : List Answer) :
    (gather f s as).samples = ((rounds as).map (Recording.round f)).foldl SampleSet.take s := by
  induction as generalizing s with
  | nil => rfl
  | cons a as ih =>
    cases a with
    | snapshots round => exact ih _
    | unavailable | spawn | panicked => rfl

/-- A worker is lost over an answer that ends it. -/
theorem gather_lost (f : NameFilter) (s : SampleSet) (as : List Answer)
    (h : ∀ a ∈ as.dropLast, ∃ round, a = .snapshots round) :
    (gather f s as).lost = as.any Answer.bursts := by
  induction as generalizing s with
  | nil => rfl
  | cons a as ih =>
    cases as with
    | nil => cases a <;> simp [gather, Answer.bursts]
    | cons b bs =>
      obtain ⟨round, rfl⟩ := h a (by simp)
      rw [List.any_cons, gather, ih _ fun c hc => h c (by simp [hc])]
      rfl

theorem gathered_lost (f : NameFilter) (answers : Nat → Answer)
    (h : ∀ i, i + 1 < n → ∃ round, answers i = .snapshots round) :
    (gathered f answers n).lost = ((List.range n).map answers).any Answer.bursts := by
  refine gather_lost f .empty _ fun a ha => ?_
  cases n with
  | zero => cases ha
  | succ n =>
    rw [List.range_succ, List.map_append, List.map_cons, List.map_nil,
      List.dropLast_concat] at ha
    obtain ⟨i, hi, rfl⟩ := List.mem_map.1 ha
    exact h i (Nat.succ_lt_succ (List.mem_range.1 hi))

/-- Another answer counts where those before it were all rounds of snapshots. -/
theorem gather_concat_of_told {as : List Answer} {t : SampleSet}
    (h : gather f s as = ⟨t, .told, false⟩) (a : Answer) : gather f s (as ++ [a]) = gather f t [a] := by
  induction as generalizing s with
  | nil =>
    cases h
    rfl
  | cons b as ih =>
    cases b with
    | snapshots round => exact ih h
    | unavailable | spawn | panicked => cases h

theorem rounds_of_told {as : List Answer} {t : SampleSet} (h : gather f s as = ⟨t, .told, false⟩) :
    ∀ a ∈ as, ∃ round, a = .snapshots round := by
  induction as generalizing s with
  | nil => simp
  | cons b as ih =>
    cases b with
    | snapshots round =>
      intro a ha
      rcases List.mem_cons.1 ha with rfl | ha
      · exact ⟨round, rfl⟩
      · exact ih h a ha
    | unavailable | spawn | panicked => cases h

theorem gathered_succ (h : gathered f answers n = ⟨s, .told, false⟩) :
    gathered f answers (n + 1) = gather f s [answers n] := by
  unfold gathered
  rw [List.range_succ, List.map_append]
  exact gather_concat_of_told h _

namespace Worker

/-- What the worker has gathered of the questions it has asked, as far as it has come. -/
def Stands (f : NameFilter) (answers : Nat → Answer) (w : Worker) : Prop :=
  match w.stage with
  | .checking | .pausing => gathered f answers w.asked = ⟨w.samples, .told, false⟩ ∧ w.log = []
  | .asking q => w.asked = q + 1 ∧ gathered f answers q = ⟨w.samples, .told, false⟩ ∧ w.log = []
  | .adding rest => ∃ q s added, w.asked = q + 1 ∧ gathered f answers q = ⟨s, .told, false⟩ ∧
      answers q = .snapshots (added ++ rest) ∧ w.samples = added.foldl (SampleSet.record f) s ∧
      w.log = []
  | .leaving c b => gathered f answers w.asked = ⟨w.samples, c, b⟩ ∧ w.log = c.complaint
  | .ended c b =>
    gathered f answers w.asked = ⟨w.samples, c, b⟩ ∧ w.log = Gathered.log ⟨w.samples, c, b⟩

theorem stands_start : Stands f answers start := ⟨rfl, rfl⟩

theorem Stands.step (h : Stands f answers w) (goOn : Bool) :
    Stands f answers (w.step f answers goOn) := by
  obtain ⟨stage, asked, samples, log⟩ := w
  cases stage with
  | checking =>
    obtain ⟨hgathered, hlog⟩ := h
    cases goOn with
    | true => exact ⟨rfl, hgathered, hlog⟩
    | false => exact ⟨hgathered, congrArg (· ++ Ending.told.complaint) hlog⟩
  | asking q =>
    obtain ⟨hasked, hgathered, hlog⟩ := h
    dsimp only at hasked hgathered hlog
    subst hasked hlog
    simp only [Worker.step]
    cases ha : answers q with
    | snapshots round => exact ⟨q, samples, [], rfl, hgathered, ha, rfl, rfl⟩
    | unavailable reason =>
      have hnext : gathered f answers (q + 1) =
          ⟨samples, .failed (.unavailable reason), false⟩ := by
        rw [gathered_succ hgathered, ha]
        rfl
      exact ⟨hnext, rfl⟩
    | spawn reason bursts =>
      have hnext : gathered f answers (q + 1) = ⟨samples, .failed (.spawn reason), bursts⟩ := by
        rw [gathered_succ hgathered, ha]
        rfl
      exact ⟨hnext, rfl⟩
    | panicked bursts =>
      have hnext : gathered f answers (q + 1) = ⟨samples, .panicked, bursts⟩ := by
        rw [gathered_succ hgathered, ha]
        rfl
      exact ⟨hnext, rfl⟩
  | adding rest =>
    obtain ⟨q, s, added, hasked, hgathered, hanswer, hsamples, hlog⟩ := h
    dsimp only at hasked hsamples hlog
    subst hasked hsamples hlog
    cases rest with
    | nil =>
      have hnext : gathered f answers (q + 1) = ⟨s.recordRound f added, .told, false⟩ := by
        rw [gathered_succ hgathered, hanswer, List.append_nil]
        rfl
      exact ⟨hnext, rfl⟩
    | cons x rest =>
      refine ⟨q, s, added ++ [x], rfl, hgathered, ?_, ?_, rfl⟩
      · rw [hanswer, List.append_assoc, List.singleton_append]
      · rw [List.foldl_concat]
        rfl
  | pausing => exact h
  | leaving c bursts =>
    obtain ⟨hgathered, hlog⟩ := h
    cases bursts with
    | true => exact ⟨hgathered, hlog.trans (List.append_nil _).symm⟩
    | false => exact ⟨hgathered, congrArg (· ++ [samples.exitLine]) hlog⟩
  | ended c lost => exact h

theorem after_append (f : NameFilter) (answers : Nat → Answer) (xs ys : List Bool) :
    after f answers (xs ++ ys) = ys.foldl (step f answers) (after f answers xs) :=
  List.foldl_append

theorem sound_after (f : NameFilter) (answers : Nat → Answer) (goOn : List Bool) :
    Stands f answers (after f answers goOn) := by
  induction goOn using List.reverseRecOn with
  | nil => exact stands_start
  | append_singleton bs b ih =>
    rw [after_append]
    exact ih.step b

/-- Nothing is asked after an answer that is no round of snapshots. -/
theorem rounds_before (f : NameFilter) (answers : Nat → Answer) (goOn : List Bool) :
    ∀ i, i + 1 < (after f answers goOn).asked → ∃ round, answers i = .snapshots round := by
  induction goOn using List.reverseRecOn with
  | nil => simp [after, start]
  | append_singleton bs b ih =>
    rw [after_append, List.foldl_cons, List.foldl_nil]
    have hstands := sound_after f answers bs
    generalize after f answers bs = w at ih hstands ⊢
    obtain ⟨stage, asked, samples, log⟩ := w
    cases stage with
    | checking =>
      cases b with
      | true =>
        intro i hi
        refine rounds_of_told hstands.1 _ (List.mem_map_of_mem (List.mem_range.2 ?_))
        exact Nat.succ_lt_succ_iff.1 hi
      | false => exact ih
    | asking q =>
      simp only [step]
      cases answers q <;> exact ih
    | adding rest => cases rest <;> exact ih
    | leaving c bursts => cases bursts <;> exact ih
    | pausing | ended => exact ih

/-- How many steps a worker that was told to stop has before it. -/
def toGo (answers : Nat → Answer) (w : Worker) : Nat :=
  match w.stage with
  | .checking => 2
  | .asking q =>
    match answers q with
    | .snapshots round => round.length + 5
    | _ => 2
  | .adding rest => rest.length + 4
  | .pausing => 3
  | .leaving .. => 1
  | .ended .. => 0

theorem toGo_step (f : NameFilter) (answers : Nat → Answer) (w : Worker) :
    (w.step f answers false).toGo answers = w.toGo answers - 1 := by
  obtain ⟨stage, asked, samples, log⟩ := w
  cases stage with
  | asking q =>
    simp only [step, toGo]
    cases answers q <;> rfl
  | adding rest => cases rest <;> rfl
  | leaving c bursts => cases bursts <;> rfl
  | checking | pausing | ended => rfl

theorem asked_step (f : NameFilter) (answers : Nat → Answer) (w : Worker) :
    (w.step f answers false).asked = w.asked := by
  obtain ⟨stage, asked, samples, log⟩ := w
  cases stage with
  | asking q =>
    simp only [step]
    cases answers q <;> rfl
  | adding rest => cases rest <;> rfl
  | leaving c bursts => cases bursts <;> rfl
  | checking | pausing | ended => rfl

theorem told_run (f : NameFilter) (answers : Nat → Answer) (w : Worker) (n : Nat) :
    let v := (List.replicate n false).foldl (step f answers) w
    v.asked = w.asked ∧ v.toGo answers = w.toGo answers - n := by
  induction n generalizing w with
  | zero => exact ⟨rfl, rfl⟩
  | succ n ih =>
    obtain ⟨hasked, htogo⟩ := ih (w.step f answers false)
    rw [List.replicate_succ, List.foldl_cons]
    refine ⟨hasked.trans (asked_step f answers w), htogo.trans ?_⟩
    rw [toGo_step]
    omega

theorem Stands.left (h : Stands f answers w) (hend : w.toGo answers = 0) :
    w.left = some (gathered f answers w.asked) ∧ w.log = (gathered f answers w.asked).log := by
  obtain ⟨stage, asked, samples, log⟩ := w
  cases stage with
  | ended c lost =>
    obtain ⟨hgathered, hlog⟩ := h
    rw [hgathered]
    exact ⟨rfl, hlog⟩
  | asking q =>
    simp only [toGo] at hend
    split at hend <;> cases hend
  | checking | adding | pausing | leaving => cases hend

/-- A worker that was told to stop comes to its end, and leaves what its questions were answered
with. -/
theorem exists_left (f : NameFilter) (answers : Nat → Answer) (goOn : List Bool) :
    ∃ m, ∀ n, m ≤ n → let w := after f answers (goOn ++ List.replicate n false)
      let g := gathered f answers (after f answers goOn).asked
      w.left = some g ∧ w.log = g.log := by
  refine ⟨(after f answers goOn).toGo answers, fun n hn => ?_⟩
  have hstands := sound_after f answers (goOn ++ List.replicate n false)
  obtain ⟨hasked, htogo⟩ := told_run f answers (after f answers goOn) n
  rw [after_append] at hstands ⊢
  rw [Nat.sub_eq_zero_of_le hn] at htogo
  have hleft := hstands.left htogo
  rwa [hasked] at hleft

theorem step_asking {q : Nat} {round : List Snapshot} (hw : w.stage = .asking q)
    (h : answers q = .snapshots round) (goOn : Bool) :
    w.step f answers goOn = { w with stage := .adding round } := by
  simp only [step, hw, h]

theorem adding_run (f : NameFilter) (answers : Nat → Answer) (w : Worker) (rest : List Snapshot)
    (hw : w.stage = .adding rest) :
    let v := (List.replicate (rest.length + 1) true).foldl (step f answers) w
    v.stage = .pausing ∧ v.asked = w.asked := by
  induction rest generalizing w with
  | nil => simp [step, hw]
  | cons x rest ih =>
    have hstep : w.step f answers true =
        { w with stage := .adding rest, samples := w.samples.record f x } := by
      simp only [step, hw]
    rw [List.length_cons, List.replicate_succ, List.foldl_cons, hstep]
    exact ih _ rfl

/-- A worker asks again after every round of snapshots. -/
theorem exists_asking (f : NameFilter) (answers : Nat → Answer) (n : Nat)
    (h : ∀ i < n, ∃ round, answers i = .snapshots round) :
    ∃ k, (after f answers (List.replicate k true)).stage = .asking n ∧
      (after f answers (List.replicate k true)).asked = n + 1 := by
  induction n with
  | zero => exact ⟨1, rfl, rfl⟩
  | succ n ih =>
    obtain ⟨k, hstage, hasked⟩ := ih fun i hi => h i (Nat.lt_succ_of_lt hi)
    obtain ⟨round, hround⟩ := h n (Nat.lt_succ_self n)
    have hadding := adding_run f answers { after f answers (List.replicate k true) with
      stage := .adding round } round rfl
    obtain ⟨hpausing, hsame⟩ := hadding
    refine ⟨k + (1 + (round.length + 1) + 2), ?_⟩
    rw [List.replicate_add, after_append, List.replicate_add (1 + (round.length + 1)),
      List.replicate_add 1, List.foldl_append, List.foldl_append, List.replicate_one,
      List.foldl_cons, List.foldl_nil, step_asking hstage hround]
    generalize (List.replicate (round.length + 1) true).foldl (step f answers) _ = v at *
    obtain ⟨stage, asked, samples, log⟩ := v
    dsimp only at hpausing hsame
    subst hpausing hsame
    simp [step, hasked]

end Worker

/-- The lines of what is written about a sample set. -/
def SampleSet.lines (s : SampleSet) : List String :=
  s!"Observed lock names ({s.names.size}):" :: s.names.toList.map ("  " ++ ·) ++
    s!"Observed lock orderings ({s.orderings.size}, innermost first):" ::
      s.orderings.toList.map (fun o => "  " ++ ", ".intercalate o) ++
    if s.conflicts = [] then []
    else s!"Conflicting orders ({s.conflicts.length}):" ::
      s.conflicts.map fun p => s!"  {p.1} <-> {p.2}"

/-- Every line ends with a newline. -/
theorem Report.render_ofSamples (s : SampleSet) :
    (Report.ofSamples s).render = String.join (s.lines.map (· ++ "\n")) := by
  have hitem : item = fun s => "  " ++ (s ++ "\n") := by
    funext s
    rw [item, String.append_assoc]
  have hclose : toString "):\n" = toString "):" ++ "\n" := rfl
  have hfirst : toString ", innermost first):\n" = toString ", innermost first):" ++ "\n" := rfl
  have hpair : ∀ a b : String, "  " ++ (toString a ++ (toString " <-> " ++ (toString b ++ "\n"))) =
      toString "  " ++ (toString a ++ (toString " <-> " ++ (toString b ++ "\n"))) := fun _ _ => rfl
  unfold render ofSamples hasConflicts SampleSet.lines
  by_cases h : s.conflicts = []
  · simp [h, hitem, hclose, hfirst, String.append_assoc, Function.comp_def]
  · simp [h, hitem, hclose, hfirst, hpair, String.append_assoc, Function.comp_def]

namespace Session

/-- What may be called on a session, any number of times. -/
inductive Query where
  | stop
  | samples
  | reportData
  | report
  deriving DecidableEq, Repr

inductive Reply where
  | done
  | samples (s : SampleSet)
  | reportData (r : Report)
  | report (text : String)
  deriving DecidableEq, Repr

def ask (s : Session) : Query → Session × Reply
  | .stop => (s.stop, .done)
  | .samples => (s.stop, .samples s.stop.samples)
  | .reportData => (s.stop, .reportData s.report)
  | .report => (s.stop, .report s.report.render)

def askAll (s : Session) : List Query → Session × List Reply
  | [] => (s, [])
  | q :: qs =>
    let (v, r) := s.ask q
    let (w, rs) := v.askAll qs
    (w, r :: rs)

/-- The samples, when nobody needs the session any longer. -/
def intoSamples (s : Session) : SampleSet := s.stop.samples

/-- What a call returns where these are the samples. -/
def Query.reply (data : SampleSet) : Query → Reply
  | .stop => .done
  | .samples => .samples data
  | .reportData =>
    .reportData ⟨data.names.toList, data.orderings.toList, data.conflicts, data.ticks⟩
  | .report => .report (String.join (data.lines.map (· ++ "\n")))

theorem askAll_stop (s : Session) (qs : List Query) :
    s.stop.askAll qs = (s.stop, qs.map (Query.reply s.stop.samples)) := by
  induction qs with
  | nil => rfl
  | cons q qs ih =>
    have hask : s.stop.ask q = (s.stop, q.reply s.stop.samples) := by
      cases q <;> simp [ask, Query.reply, Session.report, stop_stop, Report.ofSamples,
        ← Report.render_ofSamples]
    rw [askAll, hask]
    simp only [ih, List.map_cons]

theorem askAll_eq (s : Session) (qs : List Query) :
    s.askAll qs = (if qs = [] then s else s.stop, qs.map (Query.reply s.stop.samples)) := by
  cases qs with
  | nil => rfl
  | cons q qs =>
    have hask : s.ask q = (s.stop, q.reply s.stop.samples) := by
      cases q <;> simp [ask, Query.reply, Session.report, Report.ofSamples,
        ← Report.render_ofSamples]
    rw [askAll, hask]
    simp only [askAll_stop, List.map_cons, List.cons_ne_nil, if_false]

end Session

/-- However an introspector answers and whenever the worker is told to stop: let `given` be the
answers to the questions that it had asked by then. Every one of them but the last is a round of
snapshots, and no question is asked later. The worker comes to its end, and what it has and logs
then is what `given` amounts to: the rounds before the first answer that is none, each recorded once
and as a whole, in their order. The ticks are their number, which the last line of the log names.
All calls on the session return this, in any number and order, and the session is running no longer
after the first of them. But where the worker panics as it drops the last answer there is no such
line, all that it had is lost, and whoever stops it says so. Until it is told to stop, a worker asks
again after every round of snapshots. -/
theorem session_exact (settings : SamplerSettings) (answers : Nat → Answer) (k : Nat) :
    let worker := fun goOn => Worker.after settings.nameSpace answers goOn
    let told := worker (List.replicate k true)
    let given := (List.range told.asked).map answers
    let data := SampleSet.after ((rounds given).map (Recording.round settings.nameSpace))
    let lost := given.any Answer.bursts
    let kept := if lost then SampleSet.empty else data
    let s := Session.start settings given
    (∀ i, i + 1 < told.asked → ∃ round, answers i = .snapshots round) ∧
    (∀ n, (worker (List.replicate k true ++ List.replicate n false)).asked = told.asked) ∧
    (∃ g, s.worker = some g ∧ g.samples = data ∧ g.lost = lost ∧
      (lost = false → g.log.getLast? =
        some ⟨.debug, s!"sampling worker exiting after {data.ticks} ticks"⟩) ∧
      ∃ m, ∀ n, m ≤ n →
        let w := worker (List.replicate k true ++ List.replicate n false)
        w.left = some g ∧ w.log = g.log) ∧
    data.ticks.toNat = (rounds given).length % UInt64.size ∧
    (∀ qs, (s.askAll qs).2 = qs.map (Session.Query.reply kept) ∧
      (s.askAll qs).1.intoSamples = kept ∧ (qs ≠ [] → (s.askAll qs).1.isRunning = false)) ∧
    s.stopLog = (if lost then [⟨.debug, "sampling worker terminated abnormally"⟩] else []) ∧
    ∀ n, (∀ i < n, ∃ round, answers i = .snapshots round) →
      ∃ j, (worker (List.replicate j true)).stage = .asking n := by
  intro worker told given data lost kept s
  have hdata : (gathered settings.nameSpace answers told.asked).samples = data :=
    gather_samples settings.nameSpace .empty given
  have hlost : (gathered settings.nameSpace answers told.asked).lost = lost :=
    gathered_lost settings.nameSpace answers (Worker.rounds_before settings.nameSpace answers _)
  have hresult : (gathered settings.nameSpace answers told.asked).result =
      if lost then none else some data := by
    rw [Gathered.result, hlost, hdata]
  have hstop : s.stop.samples = kept := by
    change (gathered settings.nameSpace answers told.asked).result.getD .empty = kept
    rw [hresult]
    cases h : lost <;> simp [kept, h]
  refine ⟨Worker.rounds_before _ _ _, fun n => ?_, ?_, ?_, fun qs => ?_, ?_, fun n hn => ?_⟩
  · rw [show worker = Worker.after settings.nameSpace answers from rfl, Worker.after_append]
    exact (Worker.told_run _ _ _ n).1
  · refine ⟨_, rfl, hdata, hlost, fun hkept => ?_, Worker.exists_left settings.nameSpace answers _⟩
    change (gathered settings.nameSpace answers told.asked).log.getLast? = _
    rw [Gathered.log, hlost, hkept, hdata, if_neg Bool.false_ne_true, List.getLast?_concat]
    rfl
  · rw [SampleSet.ticks_after, UInt64.toNat_ofNat', List.countP_map]
    congr 1
    exact List.countP_eq_length.2 fun _ _ => rfl
  · rw [Session.askAll_eq, hstop]
    refine ⟨rfl, ?_, fun hqs => ?_⟩
    · split
      · exact hstop
      · rw [Session.intoSamples, Session.stop_stop]
        exact hstop
    · rw [if_neg hqs, Session.isRunning_stop]
  · change (if (Option.any _ (some (gathered settings.nameSpace answers told.asked))) = true then
      _ else _) = _
    rw [Option.any_some, hresult]
    cases lost <;> rfl
  · obtain ⟨j, hj, -⟩ := Worker.exists_asking settings.nameSpace answers n hn
    exact ⟨j, hj⟩

/-- An introspector that answers twice and then panics with something that panics as it is
dropped. -/
def volatile (i : Nat) : Answer :=
  if i < 2 then .snapshots [⟨"t", ["B", "A"]⟩] else .panicked true

/-- Two rounds were gathered before the panic, but nothing of them is kept, and the worker does not
say how many there were. -/
theorem samples_lost :
    let told := Worker.after none volatile (List.replicate 11 true)
    let given := (List.range told.asked).map volatile
    let s := Session.start ⟨100, none⟩ given
    (rounds given).length = 2 ∧
    s.stop.samples ≠ SampleSet.after ((rounds given).map (Recording.round none)) ∧
    (Worker.after none volatile (List.replicate 11 true ++ List.replicate 9 false)).log =
      [⟨.debug, "sampling worker stopped: snapshot panicked"⟩] := by
  intro told given s
  refine ⟨by decide +kernel, fun h => ?_, by decide +kernel⟩
  have hticks := congrArg SampleSet.ticks h
  revert hticks
  decide +kernel

end LockDiscipline.Sampling
