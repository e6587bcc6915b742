import LockDiscipline.Proofs.Watch.Watched

namespace LockDiscipline.Watch

open LockDiscipline.Config LockDiscipline.Order LockDiscipline.Monitor

namespace Watched

variable {w v : Watched} {t : Thread} {c : Classifier} {a b : ClassifierId} {m : Move}

/-- Whether a thread's stack holds a classifier. -/
def lists (w : Watched) (t : Thread) (a : ClassifierId) : Prop := ∃ d ∈ w.stackOf t, d.id = a

theorem lists_of_stackOf (h : v.stackOf t = w.stackOf t) (ha : w.lists t a) : v.lists t a := by
  unfold lists
  rw [h]
  exact ha

theorem of_hasEdge_begin {pinned : ClassifierId → Bool} {site : String}
    (h : (w.begin pinned t c site).graph.hasEdge a b = true) :
    w.graph.hasEdge a b = true ∨ w.monitors.owns t a = true ∧ b = c.id := by
  unfold graph at h
  rw [(begin_eq w pinned t c site).2.1] at h
  rcases Detector.of_hasEdge_begin h with h | ⟨hb, o, -, howns, rfl⟩
  · exact Or.inl h
  · exact Or.inr ⟨howns, hb⟩

/-- An enter without local storage is not recorded. -/
theorem begin_of_isGone (hgone : w.isGone t = true) (pinned : ClassifierId → Bool) (site : String) :
    w.begin pinned t c site = { w with waiting := w.waiting.set t c } := by
  unfold begin
  rw [Detector.begin_gone hgone]
  rfl

namespace Matched

theorem stackOf_step (hw : w.Matched) (h : w.step m = some v) (hm : m.thread? ≠ some t) :
    v.stackOf t = w.stackOf t := by
  cases m with
  | begin pinned u c site =>
    obtain ⟨-, rfl⟩ := step_begin h
    rw [hw.stackOf_begin, if_neg]
    rintro ⟨rfl, -⟩
    exact hm rfl
  | acquire u label =>
    obtain ⟨c, -, -, hdetector, -⟩ := acquire_eq_some h
    unfold Watched.stackOf
    rw [hdetector]
  | drop u label =>
    obtain ⟨-, rfl⟩ := step_drop h
    rfl
  | sweep pinned =>
    cases h
    rfl
  | teardown u =>
    obtain ⟨-, rfl⟩ := step_teardown h
    show (w.detector.endThread u).stackOf t 0 = _
    rw [Detector.stackOf_endThread, if_neg]
    · rfl
    · rintro rfl
      exact hm rfl

/-- What is on a stack afterwards keeps its edges, and what the thread owns gets one to what it
enters. -/
theorem hasEdge_begin (hw : w.Matched) {pinned : ClassifierId → Bool} {u : Thread} {site : String}
    (h : w.graph.hasEdge a b = true ∨ w.isGone u = false ∧
      w.monitors.owns u c.id = false ∧ b = c.id ∧ w.monitors.owns u a = true)
    (ha : (w.begin pinned u c site).lists t a) (hb : (w.begin pinned u c site).lists t b) :
    (w.begin pinned u c site).graph.hasEdge a b = true := by
  have hcause : (w.detector.graphAt 0).hasEdge a b = true ∨ w.detector.isGone u = false ∧
      w.monitors.owns u c.id = false ∧ b = c.id ∧
        ∃ o ∈ w.detector.stackOf u 0, w.monitors.owns u o.id = true ∧ o.id = a := by
    rcases h with h | ⟨hgone, hc, hb, ha⟩
    · exact Or.inl h
    · obtain ⟨d, hd, rfl⟩ := hw.mirrored.exists_of_owns hgone ha
      exact Or.inr ⟨hgone, hc, hb, d, hd, ha, rfl⟩
  unfold graph lists Watched.stackOf at *
  rw [(begin_eq w pinned u c site).2.1] at ha hb ⊢
  obtain ⟨e, he, rfl⟩ := ha
  obtain ⟨f, hf, rfl⟩ := hb
  refine hw.sole.hasEdge_begin hcause ?_ ?_
  · rw [Detector.onStack_of_mem he, Bool.or_true]
  · rw [Detector.onStack_of_mem hf, Bool.or_true]

theorem hasEdge_step (hw : w.Matched) (h : w.step m = some v) (hm : m.thread? ≠ some t)
    (ha : w.lists t a) (hb : w.lists t b) (hab : w.graph.hasEdge a b = true) :
    v.graph.hasEdge a b = true := by
  have hstack := hw.stackOf_step h hm
  cases m with
  | begin pinned u c site =>
    obtain ⟨-, rfl⟩ := step_begin h
    exact hw.hasEdge_begin (Or.inl hab) (lists_of_stackOf hstack ha) (lists_of_stackOf hstack hb)
  | acquire u label =>
    obtain ⟨c, -, -, hdetector, -⟩ := acquire_eq_some h
    unfold graph
    rw [hdetector]
    exact hab
  | drop u label =>
    obtain ⟨-, rfl⟩ := step_drop h
    exact hab
  | sweep pinned =>
    cases h
    have hlive : ∀ x, w.lists t x → (pinned x || w.detector.onStack x) = true := by
      rintro x ⟨d, hd, rfl⟩
      rw [Detector.onStack_of_mem hd, Bool.or_true]
    show ((w.detector.setGraph 0 _).graphAt 0).hasEdge a b = true
    rw [Detector.graphAt_setGraph, if_pos ⟨rfl, by rw [hw.graphs]; exact Nat.zero_lt_one⟩]
    exact (hw.intact 0).hasEdge_of_alive hab (hlive a ha) (hlive b hb)
  | teardown u =>
    obtain ⟨-, rfl⟩ := step_teardown h
    exact hab

/-- While only other threads move, a thread keeps its stack and the edges within it. -/
theorem hasEdge_run (hw : w.Matched) {ms : List Move} (h : w.run ms = some v)
    (hms : ∀ m ∈ ms, m.thread? ≠ some t) (ha : w.lists t a) (hb : w.lists t b)
    (hab : w.graph.hasEdge a b = true) : v.graph.hasEdge a b = true := by
  induction ms generalizing w with
  | nil =>
    cases h
    exact hab
  | cons m ms ih =>
    obtain ⟨u, hu, hrest⟩ := Option.bind_eq_some_iff.1 h
    have hm := hms m List.mem_cons_self
    have hstack := hw.stackOf_step hu hm
    exact ih (hw.step hu) hrest (fun n hn => hms n (List.mem_cons_of_mem m hn))
      (lists_of_stackOf hstack ha) (lists_of_stackOf hstack hb) (hw.hasEdge_step hu hm ha hb hab)

end Matched

/-- At any moment, what a thread owns stands on its stack in the order in which the runtime lists it
first; once its local storage is gone it has no stack. Entering something that the thread does not
own gives it an edge from all that the thread owns, which stays while the thread waits and when it
has entered, and no other edge. An enter after its local storage gives it no edge at all. -/
theorem recorder_mirrors_runtime {settings : RecorderSettings} {ms : List Move}
    (h : (start settings).run ms = some w) :
    (∀ t, .teardown t ∉ ms →
      (w.stackOf t).filter (fun c => w.monitors.owns t c.id) = distinct (w.monitors.heldBy t)) ∧
    (∀ t, .teardown t ∈ ms → w.stackOf t = []) ∧
    ∀ pinned t c site v, w.step (.begin pinned t c site) = some v →
      (.teardown t ∈ ms → v.graph = w.graph) ∧
      (.teardown t ∉ ms → w.monitors.owns t c.id = false →
        (∀ a b, v.graph.hasEdge a b = true →
          w.graph.hasEdge a b = true ∨ w.monitors.owns t a = true ∧ b = c.id) ∧
        ∀ others x, (∀ m ∈ others, m.thread? ≠ some t) → v.run others = some x →
          (∀ a, w.monitors.owns t a = true → x.graph.hasEdge a c.id = true) ∧
            ∀ label y, x.step (.acquire t label) = some y → y.graph = x.graph) := by
  have hw := matched_run h
  have hgone : ∀ t, w.isGone t = true ↔ .teardown t ∈ ms := by
    intro t
    rw [isGone_run h]
    exact or_iff_right Bool.false_ne_true
  have hthere : ∀ t, .teardown t ∉ ms → w.isGone t = false := by
    intro t ht
    rwa [← hgone, Bool.not_eq_true] at ht
  refine ⟨fun t ht => hw.mirrored.mirror t (hthere t ht),
    fun t ht => hw.mirrored.bare t ((hgone t).2 ht), ?_⟩
  intro pinned t c site v hv
  have hmatched := hw.step hv
  obtain ⟨-, rfl⟩ := step_begin hv
  refine ⟨?_, fun ht hc => ⟨fun a b => of_hasEdge_begin, ?_⟩⟩
  · intro ht
    rw [begin_of_isGone ((hgone t).2 ht)]
    rfl
  have hpresent := hthere t ht
  intro others x hothers hx
  have hstack := hw.stackOf_begin pinned t c site t
  rw [if_pos ⟨rfl, hpresent, hc⟩] at hstack
  refine ⟨?_, ?_⟩
  · intro a ha
    have hlower : (w.begin pinned t c site).lists t a := by
      obtain ⟨d, hd, rfl⟩ := hw.mirrored.exists_of_owns hpresent ha
      unfold lists
      rw [hstack]
      exact ⟨d, List.mem_append_left _ (List.mem_filter.2 ⟨hd, ha⟩), rfl⟩
    have htop : (w.begin pinned t c site).lists t c.id := by
      unfold lists
      rw [hstack]
      exact ⟨c, by simp, rfl⟩
    have hedge := hw.hasEdge_begin (Or.inr ⟨hpresent, hc, rfl, ha⟩) hlower htop
    exact hmatched.hasEdge_run hx hothers hlower htop hedge
  · intro label y hy
    obtain ⟨d, -, -, hdetector, -⟩ := acquire_eq_some hy
    unfold graph
    rw [hdetector]

/-- Two threads take turns: one enters again what it owns and drops the first of the two guards, the
other waits for it and is stopped later, which leaves an entry on its stack. A third one loses its
local storage. -/
def braided (t u : Thread) : List Move :=
  [.begin (fun _ => false) t ⟨1, "A"⟩ "first", .acquire t "outer",
    .begin (fun _ => false) t ⟨2, "B"⟩ "second", .acquire t "other",
    .begin (fun _ => false) t ⟨1, "A"⟩ "third", .acquire t "inner", .drop t "outer",
    .begin (fun _ => false) u ⟨3, "C"⟩ "fourth", .acquire u "lower", .teardown ⟨3, "u"⟩,
    .begin (fun _ => false) u ⟨2, "B"⟩ "fifth", .drop t "other", .acquire u "upper",
    .begin (fun _ => false) u ⟨1, "A"⟩ "sixth"]

theorem recorder_mirrors_runtime_braided :
    let t : Thread := ⟨1, "t"⟩
    let u : Thread := ⟨2, "u"⟩
    ∃ w v, (start ⟨false, false, true, 1⟩).run (braided t u) = some w ∧
      w.step (.begin (fun _ => false) t ⟨4, "D"⟩ "last") = some v ∧
      w.monitors.owns t 1 = true ∧ w.monitors.owns t 4 = false ∧
      w.stackOf u ≠ w.monitors.heldBy u ∧
      (w.stackOf u).filter (fun c => w.monitors.owns u c.id) = distinct (w.monitors.heldBy u) ∧
      v.graph.hasEdge 1 4 = true := by
  intro t u
  have hrun : ((start ⟨false, false, true, 1⟩).run (braided t u)).any (fun w =>
      (w.step (.begin (fun _ => false) t ⟨4, "D"⟩ "last")).isSome &&
        w.monitors.owns t 1 && !w.monitors.owns t 4 &&
          decide (w.stackOf u ≠ w.monitors.heldBy u)) = true := by
    decide +kernel
  obtain ⟨w, h, hw⟩ := (Option.any_eq_true _ _).mp hrun
  simp only [Bool.and_eq_true, Bool.not_eq_true', decide_eq_true_iff] at hw
  obtain ⟨⟨⟨hstep, howned⟩, hnew⟩, hdiffer⟩ := hw
  obtain ⟨v, hv⟩ := Option.isSome_iff_exists.1 hstep
  have hthere : ∀ x : Thread, x ≠ ⟨3, "u"⟩ → .teardown x ∉ braided t u := by
    intro x hx
    simp [braided, hx]
  obtain ⟨hstacks, -, henter⟩ := recorder_mirrors_runtime h
  have hedges := ((henter _ t ⟨4, "D"⟩ "last" v hv).2 (hthere t (by decide)) hnew).2 [] v (by simp) rfl
  exact ⟨w, v, h, hv, howned, hnew, hdiffer, hstacks u (hthere u (by decide)), hedges.1 1 howned⟩

/-- A destructor that runs on a thread after its local storage enters a monitor and then another
one: nothing stands on its stack, and the second monitor gets no edge. -/
theorem unmirrored_after_teardown :
    let t : Thread := ⟨1, "t"⟩
    ¬ ∀ w v, (start ⟨false, false, false, 1⟩).run [.teardown t,
        .begin (fun _ => false) t ⟨1, "A"⟩ "first", .acquire t "outer"] = some w →
      w.step (.begin (fun _ => false) t ⟨2, "B"⟩ "second") = some v →
        (w.stackOf t).filter (fun c => w.monitors.owns t c.id) = distinct (w.monitors.heldBy t) ∨
          (w.monitors.owns t 1 = true → v.graph.hasEdge 1 2 = true) := by
  intro t
  have hrun : ((start ⟨false, false, false, 1⟩).run [.teardown t,
      .begin (fun _ => false) t ⟨1, "A"⟩ "first", .acquire t "outer"]).any (fun w =>
        decide ((w.stackOf t).filter (fun c => w.monitors.owns t c.id) ≠
          distinct (w.monitors.heldBy t)) && w.monitors.owns t 1 &&
            (w.step (.begin (fun _ => false) t ⟨2, "B"⟩ "second")).any fun v =>
              !v.graph.hasEdge 1 2) = true := by
    decide +kernel
  obtain ⟨w, h, hw⟩ := (Option.any_eq_true _ _).mp hrun
  simp only [Bool.and_eq_true, Bool.not_eq_true', decide_eq_true_iff, Option.any_eq_true] at hw
  obtain ⟨⟨hdiffer, howned⟩, v, hv, hmissing⟩ := hw
  intro hall
  rcases hall w v h hv with hsame | hedge
  · exact hdiffer hsame
  · rw [hedge howned] at hmissing
    cases hmissing

end Watched

end LockDiscipline.Watch
