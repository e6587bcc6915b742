import LockDiscipline.Proofs.Order.Custody
import LockDiscipline.Proofs.Order.Transparency

namespace LockDiscipline.Order

open Detector (Reply)

/-- What a reply shows: all but what is released and swept, and the log. -/
inductive Seen where
  | began (inserted : List Witness) (violations : List Violation) (verdict : Verdict)
  | drained (vs : List Violation)
  deriving DecidableEq, Repr

def Detector.Reply.seen : Reply → List Seen
  | .began b => [.began b.outcome.inserted b.outcome.violations b.verdict]
  | .drained vs => [.drained vs]
  | _ => []

theorem Classifier.isIn_filter (p : ClassifierId → Bool) (c : Classifier) (cs : List Classifier) :
    c.isIn (cs.filter fun o => p o.id) = (c.isIn cs && p c.id) := by
  rw [Bool.eq_iff_iff, isIn_iff, Bool.and_eq_true, isIn_iff]
  constructor
  · rintro ⟨d, hd, hid⟩
    obtain ⟨hmem, hp⟩ := List.mem_filter.1 hd
    exact ⟨⟨d, hmem, hid⟩, by rwa [hid] at hp⟩
  · rintro ⟨⟨d, hmem, hid⟩, hp⟩
    exact ⟨d, List.mem_filter.2 ⟨hmem, by rwa [hid]⟩, hid⟩

/-- Two graphs learn the same from an acquisition, even if in one population more have died. -/
theorem Population.Agree.learn {p q : Population} {g k : Graph} {older : List Classifier}
    {younger : Classifier} (h : p.Agree g k) (hg : World.Sound ⟨p, g⟩) (hk : World.Sound ⟨q, k⟩)
    (hborn : q.born = p.born) (hdead : ∀ a ∈ q.dead, a ∈ p.dead) (context : Context)
    (hy : younger ∈ p.born ∧ younger.id ∉ p.dead)
    (ho : ∀ o ∈ older, o ∈ p.born ∧ o.id ∉ p.dead) :
    p.Agree (g.learn p.isAlive older younger context).1
        (k.learn q.isAlive older younger context).1 ∧
      (g.learn p.isAlive older younger context).2.inserted =
        (k.learn q.isAlive older younger context).2.inserted ∧
      (g.learn p.isAlive older younger context).2.violations =
        (k.learn q.isAlive older younger context).2.violations := by
  have hmiss := h.missing hy.2 fun o hmem => (ho o hmem).2
  have hmem : ∀ o ∈ k.missing older younger, o ∈ p.born ∧ o.id ∉ p.dead :=
    fun o hmem => ho o (Graph.mem_missing.1 hmem).1
  unfold Graph.learn
  rw [hmiss]
  split
  · exact ⟨h, rfl, rfl⟩
  · obtain ⟨hagree, hout⟩ := h.insertAll hg.intact hk.intact context hy.2 fun o ho => (hmem o ho).2
    have hleft := (hg.record context hy.1 fun o ho => (hmem o ho).1).2
    have hyounger : younger ∈ q.born := by
      rw [hborn]
      exact hy.1
    have holder : ∀ o ∈ k.missing older younger, o ∈ q.born := by
      rw [hborn]
      exact fun o ho => (hmem o ho).1
    have hright := (hk.record context hyounger holder).2
    obtain ⟨hgi, hgv⟩ := Graph.record_outcome p.isAlive g (k.missing older younger) younger context
    obtain ⟨hki, hkv⟩ := Graph.record_outcome q.isAlive k (k.missing older younger) younger context
    refine ⟨(hleft.trans hagree).trans (hright.mono hdead).symm, ?_, ?_⟩
    · rw [hgi, hki, hout]
    · rw [hgv, hkv, hout]

namespace Realm

/-- The more there is on stacks, the less has died. -/
theorem dead_of_subset {w v : Realm} (hw : w.Sound) (hv : v.Sound)
    (hpopulation : v.population = w.population)
    (hsubset : ∀ t r, w.detector.stackOf t r ⊆ v.detector.stackOf t r) {a : ClassifierId}
    (ha : a ∈ v.census.dead) : a ∈ w.census.dead := by
  obtain ⟨hborn, hdead⟩ := mem_dead_census.1 ha
  rw [hpopulation] at hborn
  refine mem_dead_census.2 ⟨hborn, ?_⟩
  rw [Bool.eq_false_iff] at hdead ⊢
  intro halive
  refine hdead (hv.isAlive_iff.2 ?_)
  rw [hpopulation]
  rcases hw.isAlive_iff.1 halive with hpop | ⟨t, r, d, hd, hid⟩
  · exact Or.inl hpop
  · exact Or.inr ⟨t, r, d, hsubset t r hd, hid⟩

/-- Two realms that only releases and sweeps have made different; the first one had more of them. -/
structure Alike (l : Ledger) (w v : Realm) : Prop where
  left : w.Sound
  right : v.Sound
  population : v.population = w.population
  length : v.detector.graphs.length = w.detector.graphs.length
  recorders : v.detector.recorders = w.detector.recorders
  gone : v.detector.gone = w.detector.gone
  sinks : v.detector.sinks = w.detector.sinks
  subset : ∀ t r, w.detector.stackOf t r ⊆ v.detector.stackOf t r
  /-- What has not lapsed is on both stacks. -/
  current : ∀ t r, (w.detector.stackOf t r).filter (fun o => !l.hasLapsed t r o.id) =
    (v.detector.stackOf t r).filter fun o => !l.hasLapsed t r o.id
  graphs : ∀ i, w.census.Agree (w.detector.graphAt i) (v.detector.graphAt i)

theorem alike_start : Alike .empty start start :=
  ⟨sound_start, sound_start, rfl, rfl, rfl, rfl, rfl, fun _ _ => List.Subset.refl _, fun _ _ => rfl,
    fun _ => .refl _ _⟩

namespace Alike

variable {l k : Ledger} {w w' v v' : Realm} {x y : Reply} {t : Thread} {site : String} {r : Nat}
  {c : Classifier}

/-- The stacks agree about all that has not lapsed. -/
theorem filter_stackOf (h : Alike l w v) {p : ClassifierId → Bool}
    (hp : ∀ a, l.hasLapsed t r a = true → p a = false) :
    (w.detector.stackOf t r).filter (fun o => p o.id) =
      (v.detector.stackOf t r).filter fun o => p o.id := by
  have hrefine : ∀ cs : List Classifier, cs.filter (fun o => p o.id) =
      (cs.filter fun o => !l.hasLapsed t r o.id).filter fun o => p o.id := by
    intro cs
    rw [List.filter_filter]
    refine List.filter_congr fun o _ => ?_
    cases hl : l.hasLapsed t r o.id with
    | false => simp
    | true => simp [hp o.id hl]
  rw [hrefine, hrefine (v.detector.stackOf t r), h.current]

/-- What lapses makes no difference. -/
theorem mono (h : Alike l w v)
    (hmono : ∀ t r a, l.hasLapsed t r a = true → k.hasLapsed t r a = true) : Alike k w v := by
  refine { h with current := ?_ }
  intro t r
  refine h.filter_stackOf (p := fun a => !k.hasLapsed t r a) ?_
  intro a ha
  rw [hmono t r a ha, Bool.not_true]

/-- What the thread holds has not lapsed, so it is on both stacks. -/
theorem kept (h : Alike l w v) (hl : l.Sound) (t : Thread) (r : Nat) :
    w.kept (l.holds t) t r = v.kept (l.holds t) t r := by
  refine h.filter_stackOf ?_
  intro a ha
  rw [Bool.eq_false_iff]
  intro hheld
  rw [hl t r a hheld] at ha
  cases ha

theorem release (h : Alike l w v) (hlapsed : l.hasLapsed t r c.id = true)
    (hw : w.step (.release t r c) = some (w', x)) : Alike l w' v := by
  have hsound := h.left.step hw
  have hdead := fun a => h.left.dead_step hw (a := a)
  rcases step_release hw with rfl | rfl
  · exact h
  have hstack : ∀ u p, (w.detector.setStack t r (eraseLast c (w.detector.stackOf t r))).stackOf u p =
      if (u, p) = (t, r) then eraseLast c (w.detector.stackOf t r) else w.detector.stackOf u p :=
    fun u p => Detector.stackOf_setStack _ _ _ _ _ _
  refine ⟨hsound, h.right, h.population, h.length, h.recorders, h.gone, h.sinks, ?_, ?_,
    fun i => (h.graphs i).mono hdead⟩
  · intro u p
    refine List.Subset.trans ?_ (h.subset u p)
    change (w.detector.setStack t r _).stackOf u p ⊆ _
    rw [hstack]
    split
    · next heq =>
      cases heq
      exact (eraseLast_sublist c _).subset
    · exact List.Subset.refl _
  · intro u p
    rw [← h.current u p]
    change ((w.detector.setStack t r _).stackOf u p).filter _ = _
    rw [hstack]
    split
    · next heq =>
      cases heq
      exact filter_eraseLast (p := fun a => !l.hasLapsed t r a) (by simp [hlapsed]) _
    · rfl

theorem sweep (h : Alike l w v) {i : Nat} (hw : w.step (.sweep i) = some (w', x)) :
    Alike l w' v := by
  have hsound := h.left.step hw
  cases hw
  refine ⟨hsound, h.right, h.population, ?_, h.recorders, h.gone, h.sinks, h.subset, h.current, ?_⟩
  · change _ = (w.detector.graphs.set i _).length
    rw [List.length_set]
    exact h.length
  · intro j
    change w.census.Agree ((w.detector.setGraph i _).graphAt j) _
    rw [Detector.graphAt_setGraph]
    split
    · next hj =>
      have hswept := (h.left.world i).agree_sweep
      rw [h.left.isAlive_census] at hswept
      rw [hj.1]
      exact hswept.trans (h.graphs i)
    · exact h.graphs j

/-- Where a stack has become the same on both sides, or nothing has happened. -/
theorem stackOf_agree (h : Alike l w v) {d e : Detector}
    (hstack : ∀ t r, d.stackOf t r = e.stackOf t r ∨
      d.stackOf t r = w.detector.stackOf t r ∧ e.stackOf t r = v.detector.stackOf t r ∧
        ∀ a, k.hasLapsed t r a = l.hasLapsed t r a) :
    (∀ t r, d.stackOf t r ⊆ e.stackOf t r) ∧
      ∀ t r, (d.stackOf t r).filter (fun o => !k.hasLapsed t r o.id) =
        (e.stackOf t r).filter fun o => !k.hasLapsed t r o.id := by
  constructor
  · intro t r
    rcases hstack t r with hsame | ⟨hw, hv, -⟩
    · rw [hsame]
      exact List.Subset.refl _
    · rw [hw, hv]
      exact h.subset t r
  · intro t r
    rcases hstack t r with hsame | ⟨hw, hv, hl⟩
    · rw [hsame]
    · simp only [hl]
      rw [hw, hv]
      exact h.current t r

/-- Where stacks are taken away on both sides, what lapsed on them is forgotten. -/
theorem stackOf_forget (h : Alike l w v) {d e : Detector} (p : Thread → Nat → Bool)
    (hd : ∀ t r, d.stackOf t r = if p t r then [] else w.detector.stackOf t r)
    (he : ∀ t r, e.stackOf t r = if p t r then [] else v.detector.stackOf t r) :
    (∀ t r, d.stackOf t r ⊆ e.stackOf t r) ∧
      ∀ t r, (d.stackOf t r).filter (fun o => !(l.forget p).hasLapsed t r o.id) =
        (e.stackOf t r).filter fun o => !(l.forget p).hasLapsed t r o.id := by
  refine h.stackOf_agree fun t r => ?_
  rw [hd, he]
  cases hp : p t r with
  | true => exact Or.inl rfl
  | false =>
    refine Or.inr ⟨rfl, rfl, fun a => ?_⟩
    rw [Ledger.hasLapsed_forget, hp, Bool.not_false, Bool.and_true]

/-- Any other deed that is no sweep is possible on both sides, shows the same and leaves them
alike. -/
theorem other (h : Alike l w v) {e : Deed} {plain : e.isPlain = true}
    (hspare : Move.isSpare (.other e plain) = false) (hl : l.step (.other e plain) = some k)
    (hw : w.step e = some (w', x)) :
    ∃ v' y, v.step e = some (v', y) ∧ Alike k w' v' ∧ x.seen = y.seen := by
  have hleft := h.left.step hw
  have hdead := fun a => h.left.dead_step hw (a := a)
  cases e with
  | begin | release => cases plain
  | sweep => cases hspare
  | create c =>
    cases hl
    obtain ⟨hnew, rfl, rfl⟩ := step_create hw
    have hv : v.step (.create c) =
        some ({ v with population := { v.population with born := c :: v.population.born } },
          .done) := by
      simp [step, Population.create, h.population, hnew]
    refine ⟨_, _, hv, ⟨hleft, h.right.step hv, ?_, h.length, h.recorders, h.gone, h.sinks, h.subset,
      h.current, fun i => (h.graphs i).mono hdead⟩, rfl⟩
    rw [h.population]
  | drop c =>
    cases hl
    obtain ⟨hhas, rfl, rfl⟩ := step_drop hw
    have hv : v.step (.drop c) =
        some ({ v with population := { v.population with dead := c.id :: v.population.dead } },
          .done) := by
      simp [step, Population.drop, h.population, hhas]
    refine ⟨_, _, hv, ⟨hleft, h.right.step hv, ?_, h.length, h.recorders, h.gone, h.sinks, h.subset,
      h.current, fun i => (h.graphs i).mono hdead⟩, rfl⟩
    rw [h.population]
  | addGraph n =>
    cases hl
    cases hw
    refine ⟨_, _, rfl, ⟨hleft, h.right.step (e := .addGraph n) rfl, h.population, ?_, h.recorders,
      h.gone, h.sinks, h.subset, h.current, fun i => ?_⟩, rfl⟩
    · simp [h.length]
    · change Population.Agree w.census (Detector.graphAt { w.detector with graphs := _ } i)
        (Detector.graphAt { v.detector with graphs := _ } i)
      rw [Detector.graphAt_addGraph, Detector.graphAt_addGraph, h.length]
      split
      · exact .refl _ _
      · exact h.graphs i
  | addSink sink =>
    cases hl
    obtain ⟨hempty, hact⟩ := step_addSink hw
    cases hact
    have hv : v.step (.addSink sink) = some (v.act (.addSink sink)) := if_pos hempty
    refine ⟨_, _, hv, ⟨hleft, h.right.step hv, h.population, h.length, h.recorders, h.gone, ?_,
      h.subset, h.current, h.graphs⟩, rfl⟩
    exact congrArg (· ++ [sink]) h.sinks
  | addRecorder graph settings probe sink =>
    cases hl
    obtain ⟨hthere, hact⟩ := step_addRecorder hw
    cases hact
    have hv : v.step (.addRecorder graph settings probe sink) =
        some (v.act (.addRecorder graph settings probe sink)) := by
      rw [step, h.length, h.sinks, if_pos hthere]
    refine ⟨_, _, hv, ⟨hleft, h.right.step hv, h.population, h.length, ?_, h.gone, h.sinks,
      h.subset, h.current, h.graphs⟩, rfl⟩
    exact congrArg (· ++ [_]) h.recorders
  | dropRecorder t r =>
    cases hl
    have hstacks := h.stackOf_forget (fun u p => u = t ∧ p = r)
      (d := w.detector.dropRecorder t r) (e := v.detector.dropRecorder t r)
      (fun u p => by simp [Detector.stackOf_dropRecorder (h.left.gone t r)])
      (fun u p => by simp [Detector.stackOf_dropRecorder (h.right.gone t r)])
    obtain ⟨hgraphs, hrecorders, hgone, hsinks⟩ := w.detector.dropRecorder_frame t r
    obtain ⟨hgraphs', hrecorders', hgone', hsinks'⟩ := v.detector.dropRecorder_frame t r
    cases hw
    refine ⟨_, _, rfl, ⟨hleft, h.right.step (e := .dropRecorder t r) rfl, h.population, ?_,
      (hrecorders'.trans h.recorders).trans hrecorders.symm,
      (hgone'.trans h.gone).trans hgone.symm, (hsinks'.trans h.sinks).trans hsinks.symm,
      hstacks.1, hstacks.2, fun i => ?_⟩, rfl⟩
    · change (v.detector.dropRecorder t r).graphs.length = (w.detector.dropRecorder t r).graphs.length
      rw [hgraphs, hgraphs', h.length]
    · have hagree := (h.graphs i).mono hdead
      rw [Detector.graphAt, Detector.graphAt, ← hgraphs, ← hgraphs'] at hagree
      exact hagree
  | endThread t =>
    cases hl
    cases hw
    have hstacks := h.stackOf_forget (fun u _ => u = t)
      (d := w.detector.endThread t) (e := v.detector.endThread t)
      (fun u p => by simp [Detector.stackOf_endThread])
      (fun u p => by simp [Detector.stackOf_endThread])
    exact ⟨_, _, rfl, ⟨hleft, h.right.step (e := .endThread t) rfl, h.population, h.length,
      h.recorders, congrArg (t :: ·) h.gone, h.sinks, hstacks.1, hstacks.2,
      fun i => (h.graphs i).mono hdead⟩, rfl⟩
  | drain i =>
    cases hl
    obtain ⟨rfl, rfl⟩ := step_drain hw
    obtain ⟨⟨v', y⟩, hv⟩ : ∃ s, v.step (.drain i) = some s := ⟨_, rfl⟩
    have hright := h.right.step hv
    obtain ⟨rfl, rfl⟩ := step_drain hv
    refine ⟨_, _, hv, ⟨hleft, hright, h.population, h.length, h.recorders, h.gone, ?_, h.subset,
      h.current, h.graphs⟩, ?_⟩
    · exact congrArg (List.modify · i Sink.drain) h.sinks
    · rw [h.sinks]

/-- The graphs learn the same from an acquisition. -/
theorem learnt (h : Alike l w v) {q : Recorder} {held : ClassifierId → Bool} {b d : Began}
    (hkept : w.kept held t r = v.kept held t r) (hw : w.Fresh q held t r c site w' b)
    (hv : v.Fresh q held t r c site v' d)
    (hsubset : ∀ t r, w'.detector.stackOf t r ⊆ v'.detector.stackOf t r)
    (hdead : ∀ a ∈ w.census.dead, a ∈ w'.census.dead) :
    w'.census.Agree (w.learnt q held t r c site).1 (v.learnt q held t r c site).1 ∧
      b.outcome.inserted = d.outcome.inserted ∧ b.outcome.violations = d.outcome.violations := by
  have hpopulation : v'.population = w'.population := by
    rw [hv.population, h.population, hw.population]
  have hborns : v'.census.born = w'.census.born := by
    rw [Realm.census, hpopulation]
    rfl
  have hleft : World.Sound ⟨w'.census, w.detector.graphAt q.graph⟩ := by
    rw [hw.census]
    exact (hw.pushed_sound h.left).world q.graph
  have hright : World.Sound ⟨v'.census, v.detector.graphAt q.graph⟩ := by
    rw [hv.census]
    exact (hv.pushed_sound h.right).world q.graph
  obtain ⟨hborn, hkeptBorn⟩ := hw.born h.left
  have hhandle : w'.population.has c = true := by
    rw [hw.population]
    exact hw.handle
  have halive : ∀ o ∈ w.kept held t r, w'.isAlive o.id = true := by
    intro o ho
    refine isAlive_of_mem_stackOf (t := t) (r := r) ?_
    rw [hw.stackOf, if_pos rfl]
    exact List.mem_append_left _ ho
  rw [hw.outcome, hv.outcome, hw.learnt_eq h.left, hv.learnt_eq h.right, ← hkept, ← hw.census,
    ← hv.census]
  refine ((h.graphs q.graph).mono hdead).learn hleft hright hborns
    (fun a => dead_of_subset (hw.sound h.left) (hv.sound h.right) hpopulation hsubset) _
    ⟨?_, not_dead_of_isAlive (isAlive_of_has hhandle)⟩ fun o ho =>
      ⟨?_, not_dead_of_isAlive (halive o ho)⟩
  · rw [Realm.census, hw.population]
    exact hborn
  · rw [Realm.census, hw.population]
    exact hkeptBorn o ho

/-- What is not taken afresh is held, so it had not lapsed, or nothing is on the stack of its
thread. -/
theorem begin_unchanged (h : Alike l w v) (hl : l.Sound) (hk : l.step (.begin t r c site) = some k)
    {q : Recorder} (hq : w.detector.recorders[r]? = some q)
    (hnot : w.detector.isFresh (l.holds t) t r c = false) : Alike k w v := by
  cases hgone : w.detector.isGone t with
  | true =>
    have hright : v.detector.isGone t = true := by
      rw [Detector.isGone, h.gone]
      exact hgone
    have hstacks := h.stackOf_agree (k := k) (d := w.detector) (e := v.detector) fun u p => by
      by_cases hu : (u, p) = (t, r)
      · cases hu
        exact Or.inl ((h.left.gone t r hgone).trans (h.right.gone t r hright).symm)
      · refine Or.inr ⟨rfl, rfl, fun a => ?_⟩
        rw [Ledger.hasLapsed_begin hk, decide_eq_true, Bool.and_true]
        rintro heq
        cases heq
        exact hu rfl
    exact { h with current := hstacks.2 }
  | false =>
    have hheld : (c.isIn (w.detector.stackOf t r) && l.holds t c.id) = true := by
      simpa [Detector.isFresh, hq, hgone] using hnot
    refine h.mono ?_
    intro u p a ha
    rw [Ledger.hasLapsed_begin hk, ha, Bool.true_and, decide_eq_true_iff]
    rintro heq
    cases heq
    rw [Bool.and_eq_true] at hheld
    rw [hl _ _ _ hheld.2] at ha
    cases ha

/-- An acquisition shows the same on both sides and leaves them alike. -/
theorem begin (h : Alike l w v) (hl : l.Sound) (hk : l.step (.begin t r c site) = some k)
    (hw : w.step (.begin (l.holds t) t r c site) = some (w', x)) :
    ∃ v' y, v.step (.begin (l.holds t) t r c site) = some (v', y) ∧ Alike k w' v' ∧
      x.seen = y.seen := by
  have hkept := h.kept hl t r
  have hpossible : (v.step (.begin (l.holds t) t r c site)).isSome = true := by
    have hsame := hw
    rw [step, Option.ite_none_right_eq_some] at hsame
    rw [step, h.population, h.recorders, if_pos hsame.1]
    rfl
  obtain ⟨⟨v', y⟩, hv⟩ := Option.isSome_iff_exists.1 hpossible
  refine ⟨v', y, hv, ?_⟩
  have hleft := h.left.step hw
  have hright := h.right.step hv
  obtain ⟨q, b, hq, rfl, hwcase⟩ := step_begin h.left hw
  obtain ⟨q', d, hq', rfl, hvcase⟩ := step_begin h.right hv
  rw [h.recorders, hq, Option.some_inj] at hq'
  subst hq'
  have hfresh : v.detector.isFresh (l.holds t) t r c = w.detector.isFresh (l.holds t) t r c := by
    rw [Detector.isFresh, Detector.isFresh, Detector.isGone, h.gone, h.recorders,
      ← Classifier.isIn_filter, ← Classifier.isIn_filter]
    exact congrArg (fun cs => (_ && !c.isIn cs)) hkept.symm
  rw [hfresh] at hvcase
  split at hwcase
  · next hnot =>
    rw [if_pos hnot] at hvcase
    obtain ⟨rfl, rfl⟩ := hwcase
    obtain ⟨rfl, rfl⟩ := hvcase
    exact ⟨h.begin_unchanged hl hk hq hnot, rfl⟩
  · next hnew =>
    rw [if_neg hnew] at hvcase
    have hdead := fun a => h.left.dead_step hw (a := a)
    have hstacks := h.stackOf_agree (k := k) (d := w'.detector) (e := v'.detector) fun u p => by
      rw [hwcase.stackOf, hvcase.stackOf, hkept]
      split
      · exact Or.inl rfl
      · next hne =>
        refine Or.inr ⟨rfl, rfl, fun a => ?_⟩
        rw [Ledger.hasLapsed_begin hk, decide_eq_true, Bool.and_true]
        rintro heq
        cases heq
        exact hne rfl
    obtain ⟨hagree, hinserted, hviolations⟩ := h.learnt hkept hwcase hvcase hstacks.1 hdead
    have hsink : v.detector.sinkOf q.sink = w.detector.sinkOf q.sink := by
      rw [Detector.sinkOf, h.sinks]
      rfl
    have hfails : v.detector.failure? q.sink d.outcome.violations =
        w.detector.failure? q.sink b.outcome.violations := by
      rw [Detector.failure?, Detector.failure?, hsink, hviolations]
    have hheard : v.detector.heard q.sink d.outcome.violations =
        w.detector.heard q.sink b.outcome.violations := by
      rw [Detector.heard, Detector.heard, hsink, hviolations]
    refine ⟨⟨hleft, hright, ?_, ?_, ?_, ?_, ?_, hstacks.1, hstacks.2, ?_⟩, ?_⟩
    · rw [hwcase.population, hvcase.population, h.population]
    · rw [hwcase.detector, hvcase.detector]
      simp [h.length]
    · rw [hwcase.recorders, hvcase.recorders, hfails, h.recorders, hviolations]
    · rw [hwcase.detector, hvcase.detector]
      exact h.gone
    · rw [hwcase.sinks, hvcase.sinks, hheard, Detector.sinksAfter, h.sinks]
      rfl
    · intro i
      rw [hwcase.graphAt h.left, hvcase.graphAt h.right]
      split
      · exact hagree
      · exact (h.graphs i).mono hdead
    · have hverdict : b.verdict = d.verdict := by
        rw [hwcase.verdict, hvcase.verdict, hwcase.ending, hvcase.ending, hfails, hviolations]
      rw [Reply.seen, Reply.seen, hinserted, hviolations, hverdict]

end Alike

end Realm

namespace Custody

/-- The same moves, but for releases and sweeps that only the first one made. -/
structure Twin (w v : Custody) : Prop where
  ledger : v.ledger = w.ledger
  sound : w.ledger.Sound
  realm : Realm.Alike w.ledger w.realm v.realm

variable {w w' v : Custody} {m : Move} {x : Reply} {es fs : List Move} {xs ys : List Reply}

theorem Twin.spare (h : Twin w v) (hm : m.isSpare = true) (hw : w.step m = some (w', x)) :
    Twin w' v ∧ x.seen = [] := by
  obtain ⟨k, u⟩ := w'
  obtain ⟨hl, hrealm⟩ := step_eq_some_iff.1 hw
  have hsound := h.sound.step hl
  cases m with
  | take | letGo | begin => cases hm
  | release t r c =>
    rw [Ledger.step, Option.ite_none_right_eq_some, Option.some_inj] at hl
    obtain ⟨hlapsed, rfl⟩ := hl
    refine ⟨⟨h.ledger, hsound, h.realm.release hlapsed hrealm⟩, ?_⟩
    cases hrealm
    rfl
  | other e plain =>
    cases e with
    | sweep i =>
      cases hl
      refine ⟨⟨h.ledger, hsound, h.realm.sweep hrealm⟩, ?_⟩
      cases hrealm
      rfl
    | _ => cases hm

theorem Twin.step (h : Twin w v) (hm : m.isSpare = false) (hw : w.step m = some (w', x)) :
    ∃ v' y, v.step m = some (v', y) ∧ Twin w' v' ∧ x.seen = y.seen := by
  obtain ⟨hl, hrealm⟩ := step_eq_some_iff.1 hw
  have hsound := h.sound.step hl
  have hlv := hl
  rw [← h.ledger] at hlv
  -- where the realm makes a move its twin makes it too
  have hboth : ∀ e, m.deed? w.ledger = some e → (∃ v' y, v.realm.step e = some (v', y) ∧
      Realm.Alike w'.ledger w'.realm v' ∧ x.seen = y.seen) →
      ∃ v' y, v.step m = some (v', y) ∧ Twin w' v' ∧ x.seen = y.seen := by
    rintro e he ⟨v', y, hv, halike, hseen⟩
    refine ⟨⟨w'.ledger, v'⟩, y, step_eq_some_iff.2 ⟨hlv, ?_⟩, ⟨rfl, hsound, halike⟩, hseen⟩
    rw [h.ledger, he]
    exact hv
  have hnone : m.deed? w.ledger = none → w'.realm = w.realm ∧ x = .done →
      (∀ t r a, w.ledger.hasLapsed t r a = true → w'.ledger.hasLapsed t r a = true) →
      ∃ v' y, v.step m = some (v', y) ∧ Twin w' v' ∧ x.seen = y.seen := by
    rintro he ⟨hkeep, hx⟩ hmono
    refine ⟨⟨w'.ledger, v.realm⟩, x, step_eq_some_iff.2 ⟨hlv, ?_⟩, ⟨rfl, hsound, ?_⟩, rfl⟩
    · rw [h.ledger, he]
      exact ⟨rfl, hx⟩
    · rw [hkeep]
      exact h.realm.mono hmono
  cases m with
  | take t a =>
    refine hnone rfl hrealm fun u r b hb => ?_
    rw [Ledger.step, Option.ite_none_left_eq_some, Option.some_inj] at hl
    rw [← hl.2]
    exact hb
  | letGo t a =>
    refine hnone rfl hrealm fun u r b hb => ?_
    rw [Ledger.step, Option.ite_none_right_eq_some, Option.some_inj] at hl
    rw [← hl.2]
    exact List.contains_iff_mem.2 (List.mem_append_right _ (List.contains_iff_mem.1 hb))
  | begin t r c site => exact hboth _ rfl (h.realm.begin h.sound hl hrealm)
  | release => cases hm
  | other e plain => exact hboth _ rfl (h.realm.other hm hl hrealm)

/-- A run shows the same without its releases and sweeps. -/
theorem drop_spare (h : start.run es = some (w, xs)) :
    ∃ v ys, start.run (es.filter fun m => !m.isSpare) = some (v, ys) ∧ Twin w v ∧
      xs.flatMap Reply.seen = ys.flatMap Reply.seen := by
  refine runWith_induction (P := fun es w xs => ∃ v ys,
    start.run (es.filter fun m => !m.isSpare) = some (v, ys) ∧ Twin w v ∧
      xs.flatMap Reply.seen = ys.flatMap Reply.seen) ?_ ?_ h
  · exact ⟨start, [], rfl, ⟨rfl, Ledger.sound_empty, Realm.alike_start⟩, rfl⟩
  · rintro es u xs m w x - ⟨v, ys, hrun, htwin, hseen⟩ hstep
    rw [List.filter_append, List.flatMap_append]
    cases hm : m.isSpare with
    | true =>
      obtain ⟨hnext, hx⟩ := htwin.spare hm hstep
      refine ⟨v, ys, ?_, hnext, ?_⟩
      · simpa [hm] using hrun
      · simp [hseen, hx]
    | false =>
      obtain ⟨v', y, hv, hnext, hx⟩ := htwin.step hm hstep
      refine ⟨v', ys ++ [y], ?_, hnext, ?_⟩
      · rw [List.filter_cons_of_pos (by simp [hm]), List.filter_nil]
        exact runWith_concat hrun hv
      · rw [List.flatMap_append, hseen, List.flatMap_singleton, List.flatMap_singleton, hx]

/-- Two runs in which the threads begin, take and let go of the same locks, whatever each of them
releases and sweeps besides: every acquisition shows the same, the recorders keep the same, the
graphs agree about what is alive in both, and so do the stacks about what the thread still holds. -/
theorem releases_transparent (hw : start.run es = some (w, xs)) (hv : start.run fs = some (v, ys))
    (hsame : (es.filter fun m => !m.isSpare) = fs.filter fun m => !m.isSpare) :
    xs.flatMap Reply.seen = ys.flatMap Reply.seen ∧
      w.realm.detector.recorders = v.realm.detector.recorders ∧
      (∀ i a b, w.realm.isAlive a = true → w.realm.isAlive b = true → v.realm.isAlive a = true →
        v.realm.isAlive b = true →
        (w.realm.detector.graphAt i).edge? a b = (v.realm.detector.graphAt i).edge? a b ∧
          (w.realm.detector.graphAt i).isKnown a b = (v.realm.detector.graphAt i).isKnown a b) ∧
      ∀ t r, (w.realm.detector.stackOf t r).filter (fun o => w.ledger.holds t o.id) =
        (v.realm.detector.stackOf t r).filter fun o => v.ledger.holds t o.id := by
  obtain ⟨u, zs, hu, hleft, hwseen⟩ := drop_spare hw
  obtain ⟨u', zs', hu', hright, hvseen⟩ := drop_spare hv
  rw [← hsame, hu, Option.some_inj, Prod.mk.injEq] at hu'
  obtain ⟨rfl, rfl⟩ := hu'
  refine ⟨hwseen.trans hvseen.symm, hleft.realm.recorders.symm.trans hright.realm.recorders, ?_, ?_⟩
  · intro i a b hwa hwb hva hvb
    have hwdead : ∀ c, w.realm.isAlive c = true → c ∉ w.realm.census.dead :=
      fun _ => Realm.not_dead_of_isAlive
    have hvdead : ∀ c, v.realm.isAlive c = true → c ∉ v.realm.census.dead :=
      fun _ => Realm.not_dead_of_isAlive
    have hl := hleft.realm.graphs i
    have hr := hright.realm.graphs i
    refine ⟨?_, ?_⟩
    · rw [hl.edges a b (hwdead a hwa) (hwdead b hwb), hr.edges a b (hvdead a hva) (hvdead b hvb)]
    · rw [hl.isKnown (hleft.realm.left.intact i) (hleft.realm.right.intact i) (hwdead a hwa)
        (hwdead b hwb), hr.isKnown (hright.realm.left.intact i) (hright.realm.right.intact i)
        (hvdead a hva) (hvdead b hvb)]
  · intro t r
    have hl := hleft.realm.kept hleft.sound t r
    have hr := hright.realm.kept hright.sound t r
    rw [← hright.ledger, hleft.ledger] at hr
    rw [← hright.ledger, hleft.ledger]
    exact hl.trans hr.symm

/-- A thread takes two locks, lets go of the first one and takes it again below the second one. It
tells the recorder what it lets go of, and the graph is swept in the end. -/
def eager : List Move :=
  [.other (.create ⟨1, "A"⟩) rfl, .other (.create ⟨2, "B"⟩) rfl, .other (.addGraph 1) rfl,
    .other (.addRecorder 0 ⟨false, false, false, 1⟩ .monitor none) rfl,
    .begin ⟨1, "t"⟩ 0 ⟨1, "A"⟩ "first", .take ⟨1, "t"⟩ 1,
    .begin ⟨1, "t"⟩ 0 ⟨2, "B"⟩ "second", .take ⟨1, "t"⟩ 2,
    .letGo ⟨1, "t"⟩ 1, .release ⟨1, "t"⟩ 0 ⟨1, "A"⟩,
    .begin ⟨1, "t"⟩ 0 ⟨1, "A"⟩ "third", .take ⟨1, "t"⟩ 1,
    .letGo ⟨1, "t"⟩ 2, .release ⟨1, "t"⟩ 0 ⟨2, "B"⟩, .other (.sweep 0) rfl]

/-- The same, but it does not tell the recorder. -/
def silent : List Move :=
  [.other (.create ⟨1, "A"⟩) rfl, .other (.create ⟨2, "B"⟩) rfl, .other (.addGraph 1) rfl,
    .other (.addRecorder 0 ⟨false, false, false, 1⟩ .monitor none) rfl,
    .begin ⟨1, "t"⟩ 0 ⟨1, "A"⟩ "first", .take ⟨1, "t"⟩ 1,
    .begin ⟨1, "t"⟩ 0 ⟨2, "B"⟩ "second", .take ⟨1, "t"⟩ 2,
    .letGo ⟨1, "t"⟩ 1, .begin ⟨1, "t"⟩ 0 ⟨1, "A"⟩ "third", .take ⟨1, "t"⟩ 1, .letGo ⟨1, "t"⟩ 2]

theorem releases_transparent_eager :
    ∃ w xs v ys, start.run eager = some (w, xs) ∧ start.run silent = some (v, ys) ∧
      ((eager.filter fun m => !m.isSpare) = silent.filter fun m => !m.isSpare) ∧
      w.realm.detector.stackOf ⟨1, "t"⟩ 0 ≠ v.realm.detector.stackOf ⟨1, "t"⟩ 0 ∧
      xs.flatMap Reply.seen = ys.flatMap Reply.seen ∧
      (w.realm.detector.graphAt 0).isKnown 1 2 = true ∧
      (v.realm.detector.graphAt 0).isKnown 1 2 = true := by
  have hboth : (start.run eager).any (fun r => (start.run silent).any fun s =>
      decide (r.1.realm.detector.stackOf ⟨1, "t"⟩ 0 ≠ s.1.realm.detector.stackOf ⟨1, "t"⟩ 0) &&
      (r.1.realm.isAlive 1 && r.1.realm.isAlive 2 && s.1.realm.isAlive 1 && s.1.realm.isAlive 2) &&
      (r.1.realm.detector.graphAt 0).isKnown 1 2) = true := by
    decide +kernel
  obtain ⟨⟨w, xs⟩, hw, hrest⟩ := (Option.any_eq_true _ _).mp hboth
  obtain ⟨⟨v, ys⟩, hv, hrest⟩ := (Option.any_eq_true _ _).mp hrest
  simp only [Bool.and_eq_true, decide_eq_true_iff] at hrest
  obtain ⟨⟨hdiffer, ⟨⟨hwa, hwb⟩, hva⟩, hvb⟩, hknown⟩ := hrest
  have hfilter : (eager.filter fun m => !m.isSpare) = silent.filter fun m => !m.isSpare := rfl
  obtain ⟨hseen, -, hgraphs, -⟩ := releases_transparent hw hv hfilter
  have hsame := (hgraphs 0 1 2 hwa hwb hva hvb).2
  exact ⟨w, xs, v, ys, hw, hv, hfilter, hdiffer, hseen, hknown, hsame ▸ hknown⟩

end Custody

end LockDiscipline.Order
