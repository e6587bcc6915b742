import LockDiscipline.Proofs.Monitor.Balance
import LockDiscipline.Proofs.Order.Acts
import LockDiscipline.Proofs.Run
import Mathlib.Data.List.Basic
import Mathlib.Data.List.Nodup

namespace LockDiscipline.Watch

open LockDiscipline.Config LockDiscipline.Order LockDiscipline.Monitor

/-- What a thread has to do next. -/
inductive Pending where
  | taking (c : Classifier)
  | releasing (c : Classifier)
  deriving DecidableEq, Repr

/-- Threads that tell the recorder of a release after every drop of a guard, whether or not they
still own the monitor. -/
structure Paired where
  detector : Detector
  monitors : Monitors
  pending : Table Thread Pending

namespace Paired

inductive Move where
  | begin (pinned : ClassifierId → Bool) (thread : Thread) (c : Classifier) (site : String)
  | take (thread : Thread) (label : String)
  | drop (thread : Thread) (label : String)
  | release (thread : Thread) (c : Classifier)
  | sweep (pinned : ClassifierId → Bool)
  /-- The local storage of the thread goes; destructors may still run on it. -/
  | teardown (thread : Thread)

/-- Whether the thread has begun the lock since it last released it. -/
def stands (ms : List Move) (thread : Thread) (a : ClassifierId) : Bool :=
  ms.foldl (fun b m =>
    match m with
    | .begin _ t c _ => b || decide (t = thread ∧ c.id = a)
    | .release t c => b && !decide (t = thread ∧ c.id = a)
    | _ => b) false

def graph (w : Paired) : Graph := w.detector.graphAt 0

def stackOf (w : Paired) (thread : Thread) : List Classifier := w.detector.stackOf thread 0

def isAlive (w : Paired) (pinned : ClassifierId → Bool) (a : ClassifierId) : Bool :=
  pinned a || w.monitors.pins a

/-- One graph and one recorder that asks the monitors. -/
def start (settings : RecorderSettings) : Paired where
  detector := { Detector.empty with
    graphs := [.empty settings.sweepEvery.toNat]
    recorders := [⟨0, settings, .monitor, none, []⟩] }
  monitors := .empty
  pending := .empty

/-- There is no next state for a move out of turn, nor while another thread owns the monitor. A
thread that the recorder stops does not take it. -/
def step (w : Paired) : Move → Option (Paired × Verdict)
  | .begin pinned t c site =>
    if (w.pending.get? t).isSome then none
    else
      let (d, b) := w.detector.begin (w.isAlive pinned) (w.monitors.owns t) t 0 c site
      match b.verdict with
      | .returned =>
        some ({ w with detector := d, pending := w.pending.set t (.taking c) }, .returned)
      | .stopped message => some ({ w with detector := d }, .stopped message)
  | .take t label =>
    match w.pending.get? t with
    | some (.taking c) =>
      if (w.monitors.guard? t label).isSome then none
      else (w.monitors.lock ⟨t, label, c, none, none⟩).map fun m =>
        ({ w with monitors := m, pending := w.pending.erase t }, .returned)
    | _ => none
  | .drop t label =>
    if (w.pending.get? t).isSome then none
    else (w.monitors.guard? t label).map fun g =>
      ({ w with monitors := w.monitors.drop g, pending := w.pending.set t (.releasing g.classifier) },
        .returned)
  | .release t c =>
    if w.pending.get? t = some (.releasing c) then
      some ({ w with detector := (w.detector.release t 0 c).1, pending := w.pending.erase t },
        .returned)
    else none
  | .sweep pinned =>
    some ({ w with
      detector := (w.detector.sweepGraph (fun a => w.isAlive pinned a || w.detector.onStack a) 0).1 },
      .returned)
  | .teardown t =>
    if (w.pending.get? t).isSome then none
    else some ({ w with detector := w.detector.endThread t }, .returned)

def run (w : Paired) (ms : List Move) : Option (Paired × List Verdict) := runWith step w ms

variable {w v : Paired} {ms : List Move} {m : Move} {x : Verdict} {xs : List Verdict}
  {pinned : ClassifierId → Bool} {t u : Thread} {site label : String} {c : Classifier}
  {a : ClassifierId}

def lists (w : Paired) (t : Thread) (a : ClassifierId) : Prop := ∃ d ∈ w.stackOf t, d.id = a

theorem stands_begin (ms : List Move) : stands (ms ++ [.begin pinned t c site]) u a =
    (stands ms u a || decide (t = u ∧ c.id = a)) := by
  simp [stands]

theorem stands_release (ms : List Move) : stands (ms ++ [.release t c]) u a =
    (stands ms u a && !decide (t = u ∧ c.id = a)) := by
  simp [stands]

theorem step_begin (h : w.step (.begin pinned t c site) = some (v, x)) :
    w.pending.get? t = none ∧ v.monitors = w.monitors ∧
      v.detector = (w.detector.begin (w.isAlive pinned) (w.monitors.owns t) t 0 c site).1 ∧
        (v.pending = w.pending ∨ v.pending = w.pending.set t (.taking c)) := by
  rw [step, Option.ite_none_left_eq_some] at h
  obtain ⟨hidle, h⟩ := h
  rw [Option.not_isSome_iff_eq_none] at hidle
  dsimp only at h
  split at h
  · cases h
    exact ⟨hidle, rfl, rfl, Or.inr rfl⟩
  · cases h
    exact ⟨hidle, rfl, rfl, Or.inl rfl⟩

theorem step_take (h : w.step (.take t label) = some (v, x)) :
    ∃ c, w.pending.get? t = some (.taking c) ∧ w.monitors.isOpenTo t c.id = true ∧
      v = { w with
        monitors := w.monitors.take ⟨t, label, c, none, none⟩
        pending := w.pending.erase t } := by
  rw [step] at h
  split at h
  · next c hc =>
    rw [Option.ite_none_left_eq_some] at h
    obtain ⟨hfree, h⟩ := h
    obtain ⟨e, he, heq⟩ := Option.map_eq_some_iff.1 h
    cases heq
    rw [Option.not_isSome_iff_eq_none] at hfree
    rw [Monitors.lock_eq, Option.ite_none_right_eq_some, hfree, Option.elim_none,
      Option.some_inj] at he
    obtain ⟨hopen, rfl⟩ := he
    exact ⟨c, hc, hopen, rfl⟩
  · cases h

theorem step_drop (h : w.step (.drop t label) = some (v, x)) :
    w.pending.get? t = none ∧ ∃ g ∈ w.monitors.guards, g.thread = t ∧
      v = { w with
        monitors := w.monitors.drop g
        pending := w.pending.set t (.releasing g.classifier) } := by
  rw [step, Option.ite_none_left_eq_some, Option.not_isSome_iff_eq_none] at h
  obtain ⟨hidle, h⟩ := h
  obtain ⟨g, hg, heq⟩ := Option.map_eq_some_iff.1 h
  cases heq
  have hthread := List.find?_some hg
  rw [Bool.and_eq_true, decide_eq_true_iff] at hthread
  exact ⟨hidle, g, List.mem_of_find?_eq_some hg, hthread.1, rfl⟩

theorem step_release (h : w.step (.release t c) = some (v, x)) :
    w.pending.get? t = some (.releasing c) ∧
      v = { w with
        detector := (w.detector.release t 0 c).1
        pending := w.pending.erase t } := by
  rw [step, Option.ite_none_right_eq_some] at h
  obtain ⟨hpending, h⟩ := h
  cases h
  exact ⟨hpending, rfl⟩

theorem step_teardown (h : w.step (.teardown t) = some (v, x)) :
    w.pending.get? t = none ∧ v = { w with detector := w.detector.endThread t } := by
  rw [step, Option.ite_none_left_eq_some, Option.not_isSome_iff_eq_none] at h
  obtain ⟨hidle, h⟩ := h
  cases h
  exact ⟨hidle, rfl⟩

structure Kept (w : Paired) (ms : List Move) : Prop where
  sole : w.detector.Sole
  balanced : w.monitors.Balanced
  single : ∀ t, ((w.stackOf t).map (·.id)).Nodup
  gone : ∀ t, w.detector.isGone t = true ↔ .teardown t ∈ ms
  /-- A thread whose local storage is gone has no stack. -/
  bare : ∀ t, w.detector.isGone t = true → w.stackOf t = []
  /-- Of what any other thread owns, its stack holds what stands. -/
  standing : ∀ t a, w.detector.isGone t = false → w.monitors.owns t a = true →
    (stands ms t a = true ↔ w.lists t a)
  announced : ∀ t c, w.pending.get? t = some (.taking c) → w.detector.isGone t = false →
    stands ms t c.id = true ∧ w.lists t c.id

theorem kept_start (settings : RecorderSettings) : (start settings).Kept [] := by
  refine ⟨Detector.sole_start settings, Monitors.balanced_empty 0, fun t => List.nodup_nil, ?_,
    fun t h => rfl, ?_, ?_⟩
  · intro t
    simp [start, Detector.isGone, Detector.empty]
  · intro t a _ h
    cases h
  · intro t c h
    cases h

namespace Kept

theorem stackOf_begin (hw : w.Kept ms) (h : w.step (.begin pinned t c site) = some (v, x))
    (u : Thread) : v.stackOf u = if u = t ∧ w.detector.isGone t = false ∧
        (c.isIn (w.stackOf t) && w.monitors.owns t c.id) = false then
      (w.stackOf t).filter (fun d => w.monitors.owns t d.id) ++ [c] else w.stackOf u := by
  unfold stackOf
  rw [(step_begin h).2.2.1, Detector.stackOf_begin, hw.sole.isFresh]
  simp only [Prod.mk.injEq, and_true, Bool.and_eq_true, Bool.not_eq_true']

theorem gone_begin (h : w.step (.begin pinned t c site) = some (v, x)) (u : Thread) :
    v.detector.isGone u = w.detector.isGone u := by
  rw [Detector.isGone, (step_begin h).2.2.1, Detector.gone_begin]
  rfl

/-- Of what the thread owns nothing leaves its stack, and what is begun is on it. -/
theorem lists_begin (hw : w.Kept ms) (h : w.step (.begin pinned t c site) = some (v, x))
    (hthere : w.detector.isGone t = false) (ha : w.monitors.owns t a = true ∨ a = c.id) :
    v.lists t a ↔ w.lists t a ∨ a = c.id := by
  unfold lists
  rw [hw.stackOf_begin h]
  split
  · constructor
    · rintro ⟨d, hd, rfl⟩
      rcases List.mem_append.1 hd with hd | hd
      · exact Or.inl ⟨d, List.mem_of_mem_filter hd, rfl⟩
      · exact Or.inr (by rw [List.mem_singleton.1 hd])
    · intro hlisted
      by_cases hac : a = c.id
      · exact ⟨c, List.mem_append_right _ (List.mem_singleton_self c), hac.symm⟩
      · obtain ⟨d, hd, rfl⟩ := hlisted.resolve_right hac
        have howned := ha.resolve_right hac
        exact ⟨d, List.mem_append_left _ (List.mem_filter.2 ⟨hd, howned⟩), rfl⟩
  · next hagain =>
    -- nothing moves where the classifier is owned and has its entry already
    have hin : c.isIn (w.stackOf t) = true := by
      cases hin : c.isIn (w.stackOf t) with
      | true => rfl
      | false => exact absurd ⟨rfl, hthere, by rw [hin, Bool.false_and]⟩ hagain
    refine ⟨Or.inl, ?_⟩
    rintro (hlisted | rfl)
    · exact hlisted
    · exact Classifier.isIn_iff.1 hin

theorem single_begin (hw : w.Kept ms) (h : w.step (.begin pinned t c site) = some (v, x))
    (u : Thread) : ((v.stackOf u).map (·.id)).Nodup := by
  rw [hw.stackOf_begin h]
  split
  · next hfresh =>
    rw [List.map_append, List.map_singleton, List.nodup_append]
    refine ⟨(List.filter_sublist.map _).nodup (hw.single t), List.nodup_singleton _, ?_⟩
    intro a ha b hb heq
    obtain ⟨d, hd, rfl⟩ := List.mem_map.1 ha
    obtain ⟨hmem, howned⟩ := List.mem_filter.1 hd
    rw [List.mem_singleton] at hb
    rw [heq, hb] at howned
    have hin : c.isIn (w.stackOf t) = true := Classifier.isIn_iff.2 ⟨d, hmem, heq.trans hb⟩
    rw [hin, howned] at hfresh
    cases hfresh.2.2
  · exact hw.single u

theorem begin (hw : w.Kept ms) (h : w.step (.begin pinned t c site) = some (v, x)) :
    v.Kept (ms ++ [.begin pinned t c site]) := by
  obtain ⟨hidle, hmonitors, hdetector, hpending⟩ := step_begin h
  have hothers : ∀ u, u ≠ t → v.stackOf u = w.stackOf u := by
    intro u hu
    rw [hw.stackOf_begin h, if_neg (fun h => hu h.1)]
  have hlists : ∀ u, u ≠ t → ∀ a, v.lists u a ↔ w.lists u a := by
    intro u hu a
    rw [lists, hothers u hu]
    rfl
  refine ⟨?_, ?_, hw.single_begin h, ?_, ?_, ?_, ?_⟩
  · rw [hdetector]
    exact hw.sole.begin
  · rw [hmonitors]
    exact hw.balanced
  · intro u
    rw [gone_begin h, hw.gone]
    simp
  · intro u hu
    rw [gone_begin h] at hu
    rw [hw.stackOf_begin h, if_neg]
    · exact hw.bare u hu
    · rintro ⟨rfl, hthere, -⟩
      rw [hthere] at hu
      cases hu
  · intro u a hthere ha
    rw [gone_begin h] at hthere
    rw [hmonitors] at ha
    rw [stands_begin, Bool.or_eq_true, decide_eq_true_iff, hw.standing u a hthere ha]
    by_cases hu : u = t
    · subst hu
      rw [hw.lists_begin h hthere (Or.inl ha)]
      simp [eq_comm]
    · rw [hlists u hu]
      simp [Ne.symm hu]
  · intro u d hd hthere
    rw [gone_begin h] at hthere
    rw [stands_begin, Bool.or_eq_true, decide_eq_true_iff]
    by_cases hu : u = t
    · subst hu
      rcases hpending with hpending | hpending
      · rw [hpending, hidle] at hd
        cases hd
      · rw [hpending, Table.get?_set, if_pos rfl] at hd
        cases hd
        exact ⟨Or.inr ⟨rfl, rfl⟩, (hw.lists_begin h hthere (Or.inr rfl)).2 (Or.inr rfl)⟩
    · have hbefore : w.pending.get? u = some (.taking d) := by
        rcases hpending with hpending | hpending
        · rw [← hpending]
          exact hd
        · rw [hpending, Table.get?_set, if_neg hu] at hd
          exact hd
      obtain ⟨hstands, hlisted⟩ := hw.announced u d hbefore hthere
      exact ⟨Or.inl hstands, (hlists u hu d.id).2 hlisted⟩

/-- Most moves are no teardown. -/
theorem gone_concat (hw : w.Kept ms) (hm : ∀ u, m ≠ .teardown u) (t : Thread) :
    w.detector.isGone t = true ↔ .teardown t ∈ ms ++ [m] := by
  rw [hw.gone, List.mem_append, List.mem_singleton, or_iff_left (hm t).symm]

theorem take (hw : w.Kept ms) (h : w.step (.take t label) = some (v, x)) :
    v.Kept (ms ++ [.take t label]) := by
  obtain ⟨c, hc, hopen, rfl⟩ := step_take h
  have hstands : stands (ms ++ [.take t label]) = stands ms := by
    funext u a
    simp [stands]
  refine ⟨hw.sole, hw.balanced.take hopen, hw.single, hw.gone_concat (by simp), hw.bare, ?_, ?_⟩
  · intro u a hthere ha
    rw [hstands]
    rcases (hw.balanced.owns_take hopen u a).1 ha with howned | ⟨rfl, rfl⟩
    · exact hw.standing u a hthere howned
    · obtain ⟨hstands, hlisted⟩ := hw.announced u c hc hthere
      exact ⟨fun _ => hlisted, fun _ => hstands⟩
  · intro u d hd hthere
    rw [hstands]
    rw [Table.get?_erase] at hd
    split at hd
    · cases hd
    · exact hw.announced u d hd hthere

theorem drop (hw : w.Kept ms) (h : w.step (.drop t label) = some (v, x)) :
    v.Kept (ms ++ [.drop t label]) := by
  obtain ⟨-, g, hg, -, rfl⟩ := step_drop h
  have hstands : stands (ms ++ [.drop t label]) = stands ms := by
    funext u a
    simp [stands]
  refine ⟨hw.sole, hw.balanced.drop hg, hw.single, hw.gone_concat (by simp), hw.bare, ?_, ?_⟩
  · intro u a hthere ha
    rw [hstands]
    exact hw.standing u a hthere ((hw.balanced.owns_drop hg u a).1 ha).1
  · intro u d hd hthere
    rw [hstands]
    rw [Table.get?_set] at hd
    split at hd
    · cases hd
    · exact hw.announced u d hd hthere

theorem stackOf_release (hw : w.Kept ms) (h : w.step (.release t c) = some (v, x)) (u : Thread) :
    v.stackOf u = if u = t then eraseLast c (w.stackOf t) else w.stackOf u := by
  obtain ⟨-, rfl⟩ := step_release h
  change ((w.detector.release t 0 c).1).stackOf u 0 = _
  rw [Detector.stackOf_release (hw.bare t)]
  simp only [Prod.mk.injEq, and_true]
  rfl

theorem lists_iff : w.lists t a ↔ 0 < entries a (w.stackOf t) := entries_pos_iff.symm

theorem entries_le_one (hw : w.Kept ms) (t : Thread) (a : ClassifierId) :
    entries a (w.stackOf t) ≤ 1 := by
  have h := List.nodup_iff_count_le_one.1 (hw.single t) a
  rw [List.count, List.countP_map] at h
  exact h

/-- A release takes away the only entry of a lock, and nothing else. -/
theorem lists_release (hw : w.Kept ms) (h : w.step (.release t c) = some (v, x)) (u : Thread)
    (a : ClassifierId) : v.lists u a ↔ w.lists u a ∧ ¬ (t = u ∧ c.id = a) := by
  rw [lists_iff, lists_iff, hw.stackOf_release h]
  by_cases hu : u = t
  · subst hu
    have hle := hw.entries_le_one u a
    rw [if_pos rfl, entries_eraseLast]
    by_cases ha : c.id = a
    · simp [ha, hle]
    · simp [ha]
  · simp [hu, Ne.symm hu]

theorem release (hw : w.Kept ms) (h : w.step (.release t c) = some (v, x)) :
    v.Kept (ms ++ [.release t c]) := by
  have hlists := hw.lists_release h
  have hstack := hw.stackOf_release h
  obtain ⟨-, rfl⟩ := step_release h
  obtain ⟨hgraphs, hrecorders, hgone⟩ := w.detector.release_frame t 0 c
  have hthere : ∀ u, (w.detector.release t 0 c).1.isGone u = w.detector.isGone u := by
    intro u
    rw [Detector.isGone, hgone]
    rfl
  refine ⟨hw.sole.congr hgraphs hrecorders, hw.balanced, ?_, ?_, ?_, ?_, ?_⟩
  · intro u
    rw [hstack]
    split
    · exact ((eraseLast_sublist c _).map _).nodup (hw.single t)
    · exact hw.single u
  · intro u
    rw [hthere]
    exact hw.gone_concat (by simp) u
  · intro u hu
    rw [hthere] at hu
    rw [hstack]
    split
    · next hut =>
      subst hut
      rw [hw.bare u hu]
      rfl
    · exact hw.bare u hu
  · intro u a hu ha
    rw [hthere] at hu
    rw [stands_release, Bool.and_eq_true, Bool.not_eq_true', decide_eq_false_iff_not, hlists,
      hw.standing u a hu ha]
  · intro u d hd hu
    rw [hthere] at hu
    rw [Table.get?_erase] at hd
    split at hd
    · cases hd
    · next hut =>
      obtain ⟨hstands, hlisted⟩ := hw.announced u d hd hu
      rw [stands_release, hstands, hlists]
      have hne : ¬ (t = u ∧ c.id = d.id) := fun h => hut h.1.symm
      exact ⟨by simp [hne], hlisted, hne⟩

theorem sweep (hw : w.Kept ms) (h : w.step (.sweep pinned) = some (v, x)) :
    v.Kept (ms ++ [.sweep pinned]) := by
  cases h
  have hstands : stands (ms ++ [.sweep pinned]) = stands ms := by
    funext u a
    simp [stands]
  refine ⟨hw.sole.sweep _, hw.balanced, hw.single, hw.gone_concat (by simp), hw.bare, ?_, ?_⟩
  · intro u a hthere ha
    rw [hstands]
    exact hw.standing u a hthere ha
  · intro u d hd hthere
    rw [hstands]
    exact hw.announced u d hd hthere

theorem teardown (hw : w.Kept ms) (h : w.step (.teardown t) = some (v, x)) :
    v.Kept (ms ++ [.teardown t]) := by
  obtain ⟨-, rfl⟩ := step_teardown h
  have hstands : stands (ms ++ [.teardown t]) = stands ms := by
    funext u a
    simp [stands]
  have hstack : ∀ u, (w.detector.endThread t).stackOf u 0 = if u = t then [] else w.stackOf u :=
    fun u => Detector.stackOf_endThread w.detector t u 0
  have hgone : ∀ u, (w.detector.endThread t).isGone u = (u == t || w.detector.isGone u) :=
    fun u => Detector.isGone_endThread w.detector t u
  -- a thread that is left has its stack, and nothing is asked of the others
  have hsame : ∀ u, (w.detector.endThread t).isGone u = false →
      w.detector.isGone u = false ∧ (w.detector.endThread t).stackOf u 0 = w.stackOf u := by
    intro u hu
    rw [hgone, Bool.or_eq_false_iff, beq_eq_false_iff_ne] at hu
    exact ⟨hu.2, by rw [hstack, if_neg hu.1]⟩
  refine ⟨hw.sole.congr rfl rfl, hw.balanced, ?_, ?_, ?_, ?_, ?_⟩
  · intro u
    change (((w.detector.endThread t).stackOf u 0).map _).Nodup
    rw [hstack]
    split
    · exact List.nodup_nil
    · exact hw.single u
  · intro u
    rw [hgone, Bool.or_eq_true, beq_iff_eq, hw.gone]
    simp [or_comm]
  · intro u hu
    change (w.detector.endThread t).stackOf u 0 = []
    rw [hgone, Bool.or_eq_true, beq_iff_eq] at hu
    rw [hstack]
    split
    · rfl
    · next hne => exact hw.bare u (hu.resolve_left hne)
  · intro u a hu ha
    obtain ⟨hthere, hu⟩ := hsame u hu
    rw [hstands, hw.standing u a hthere ha]
    change _ ↔ ∃ d ∈ (w.detector.endThread t).stackOf u 0, d.id = a
    rw [hu]
    rfl
  · intro u d hd hu
    obtain ⟨hthere, hu⟩ := hsame u hu
    rw [hstands]
    refine ⟨(hw.announced u d hd hthere).1, ?_⟩
    change ∃ e ∈ (w.detector.endThread t).stackOf u 0, e.id = d.id
    rw [hu]
    exact (hw.announced u d hd hthere).2

theorem step (hw : w.Kept ms) (h : w.step m = some (v, x)) : v.Kept (ms ++ [m]) := by
  cases m with
  | begin => exact hw.begin h
  | take => exact hw.take h
  | drop => exact hw.drop h
  | release => exact hw.release h
  | sweep => exact hw.sweep h
  | teardown => exact hw.teardown h

end Kept

theorem kept_run {settings : RecorderSettings} (h : (start settings).run ms = some (w, xs)) :
    w.Kept ms :=
  runWith_induction (P := fun ms w _ => w.Kept ms) (kept_start settings)
    (fun _ _ _ _ _ _ _ hw hstep => hw.step hstep) h

theorem Kept.isAlive_of_owns (hw : w.Kept ms) (pinned : ClassifierId → Bool)
    (ha : w.monitors.owns t a = true) : w.isAlive pinned a = true := by
  rw [hw.balanced.owns_iff, hw.balanced.depth, Monitors.guardsOn, List.countP_pos_iff] at ha
  obtain ⟨g, hg, heq⟩ := ha
  rw [decide_eq_true_iff] at heq
  have hpins : w.monitors.pins a = true := List.any_eq_true.2 ⟨g, hg, by simp [heq.2]⟩
  rw [isAlive, hpins, Bool.or_true]

/-- All that is owned is alive, so no edge from it can be missing because a sweep took it. -/
theorem Kept.hasEdge_begin (hw : w.Kept ms) (h : w.step (.begin pinned t c site) = some (v, x))
    (hthere : w.detector.isGone t = false) (hc : w.monitors.owns t c.id = false)
    (ha : w.monitors.owns t a = true) :
    v.graph.hasEdge a c.id = true ↔ w.graph.hasEdge a c.id = true ∨ w.lists t a := by
  obtain ⟨-, -, hdetector, -⟩ := step_begin h
  obtain ⟨d, hd, hid⟩ : v.lists t c.id := (hw.lists_begin h hthere (Or.inr rfl)).2 (Or.inr rfl)
  unfold graph stackOf at *
  rw [hdetector] at hd ⊢
  constructor
  · intro hedge
    rcases Detector.of_hasEdge_begin hedge with hedge | ⟨-, o, ho, -, hid⟩
    · exact Or.inl hedge
    · exact Or.inr ⟨o, ho, hid⟩
  · intro hbefore
    refine hw.sole.hasEdge_begin ?_ ?_ ?_
    · rcases hbefore with hedge | ⟨o, ho, rfl⟩
      · exact Or.inl hedge
      · exact Or.inr ⟨hthere, hc, rfl, o, ho, ha, rfl⟩
    · rw [hw.isAlive_of_owns pinned ha, Bool.true_or]
    · rw [← hid, Detector.onStack_of_mem hd, Bool.or_true]

/-- An acquisition gets its edge from an owned lock that was begun since it was last released, and
from no other unless the edge was there before. An acquisition of a thread whose local storage is
gone gets none. -/
theorem remembered_iff_standing {settings : RecorderSettings}
    (hrun : (start settings).run ms = some (w, xs))
    (hstep : w.step (.begin pinned t c site) = some (v, x))
    (hc : w.monitors.owns t c.id = false) :
    ∀ a, w.monitors.owns t a = true → (v.graph.hasEdge a c.id = true ↔
      w.graph.hasEdge a c.id = true ∨ .teardown t ∉ ms ∧ stands ms t a = true) := by
  intro a ha
  have hw := kept_run hrun
  rw [← hw.gone, Bool.not_eq_true]
  cases hthere : w.detector.isGone t with
  | false => rw [hw.hasEdge_begin hstep hthere hc ha, hw.standing t a hthere ha, and_iff_right rfl]
  | true =>
    have hsame : v.detector = w.detector := by
      rw [(step_begin hstep).2.2.1, Detector.begin_gone hthere]
    rw [graph, hsame]
    simp [graph]

/-- A lock is taken twice and one of its guards is dropped. -/
def halfDropped (t : Thread) : List Move :=
  [.begin (fun _ => false) t ⟨1, "A"⟩ "first", .take t "outer",
    .begin (fun _ => false) t ⟨1, "A"⟩ "second", .take t "inner", .drop t "inner",
    .release t ⟨1, "A"⟩]

/-- Once it is begun again the lock gets its edges. -/
theorem remembered_iff_standing_again :
    let t : Thread := ⟨1, "t"⟩
    ∃ w xs v x, (start ⟨false, false, false, 1⟩).run (halfDropped t ++
        [.begin (fun _ => false) t ⟨1, "A"⟩ "third", .take t "again"]) = some (w, xs) ∧
      w.step (.begin (fun _ => false) t ⟨2, "B"⟩ "fourth") = some (v, x) ∧
      w.monitors.owns t 2 = false ∧ w.monitors.owns t 1 = true ∧
      w.graph.hasEdge 1 2 = false ∧ v.graph.hasEdge 1 2 = true := by
  intro t
  have hrun : ((start ⟨false, false, false, 1⟩).run (halfDropped t ++
      [.begin (fun _ => false) t ⟨1, "A"⟩ "third", .take t "again"])).any (fun r =>
        (r.1.step (.begin (fun _ => false) t ⟨2, "B"⟩ "fourth")).isSome &&
          !r.1.monitors.owns t 2 && r.1.monitors.owns t 1 && !r.1.graph.hasEdge 1 2) = true := by
    decide +kernel
  obtain ⟨⟨w, xs⟩, h, hw⟩ := (Option.any_eq_true _ _).mp hrun
  simp only [Bool.and_eq_true, Bool.not_eq_true'] at hw
  obtain ⟨⟨⟨hstep, hnew⟩, howned⟩, hbefore⟩ := hw
  obtain ⟨⟨v, x⟩, hv⟩ := Option.isSome_iff_exists.1 hstep
  have hedge := (remembered_iff_standing h hv hnew 1 howned).2
    (Or.inr ⟨by simp [halfDropped], rfl⟩)
  exact ⟨w, xs, v, x, h, hv, hnew, howned, hbefore, hedge⟩

/-- Until then the thread owns a lock that gets no edge. -/
theorem forgotten_while_owned :
    let t : Thread := ⟨1, "t"⟩
    ¬ ∀ w xs v x, (start ⟨false, false, false, 1⟩).run (halfDropped t) = some (w, xs) →
      w.step (.begin (fun _ => false) t ⟨2, "B"⟩ "third") = some (v, x) →
        w.monitors.owns t 2 = false →
          ∀ a, w.monitors.owns t a = true → a ≠ 2 → v.graph.hasEdge a 2 = true := by
  intro t
  have hrun : ((start ⟨false, false, false, 1⟩).run (halfDropped t)).any (fun r =>
      !r.1.monitors.owns t 2 && r.1.monitors.owns t 1 &&
        (r.1.step (.begin (fun _ => false) t ⟨2, "B"⟩ "third")).any fun s =>
          !s.1.graph.hasEdge 1 2) = true := by
    decide +kernel
  obtain ⟨⟨w, xs⟩, h, hw⟩ := (Option.any_eq_true _ _).mp hrun
  simp only [Bool.and_eq_true, Bool.not_eq_true', Option.any_eq_true] at hw
  obtain ⟨⟨hnew, howned⟩, ⟨v, x⟩, hv, hmissing⟩ := hw
  intro hall
  have hedge := hall w xs v x h hv hnew 1 howned (by decide)
  rw [hmissing] at hedge
  cases hedge

end Paired

end LockDiscipline.Watch
