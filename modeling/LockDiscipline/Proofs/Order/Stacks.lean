import LockDiscipline.Proofs.Order.Acts
import Mathlib.Data.List.Nodup

namespace LockDiscipline.Order.Detector

variable {d v : Detector} {pinned held : ClassifierId → Bool} {thread : Thread} {site : String}
  {r : Nat} {candidate : Classifier}

/-- What every act keeps of the stacks. -/
structure Tidy (d : Detector) : Prop where
  /-- No stack names a classifier twice. -/
  single : ∀ t r, ((d.stackOf t r).map (·.id)).Nodup
  /-- No empty stack is kept. -/
  kept : ∀ cs ∈ d.held.values, cs ≠ []
  /-- No thread has two stacks for a recorder. -/
  proper : d.held.Proper
  /-- No thread has a stack for a recorder that is yet to come. -/
  fresh : ∀ t r, d.recorders.length ≤ r → d.stackOf t r = []
  /-- No thread has a stack after its local storage. -/
  gone : ∀ t r, d.isGone t = true → d.stackOf t r = []

/-- Of all stacks and recorders, at most one recorder and the stack of one thread for it changed. -/
structure Confined (thread : Thread) (r : Nat) (d v : Detector) : Prop where
  otherStacks : ∀ u p, (u, p) ≠ (thread, r) → v.stackOf u p = d.stackOf u p
  otherRecorders : ∀ p, p ≠ r → v.recorders[p]? = d.recorders[p]?

theorem tidy_empty : empty.Tidy := by
  refine ⟨fun _ _ => List.nodup_nil, ?_, List.nodup_nil, fun _ _ _ => rfl, fun _ _ _ => rfl⟩
  intro cs hcs
  cases hcs

theorem Confined.refl (thread : Thread) (r : Nat) (d : Detector) : Confined thread r d d :=
  ⟨fun _ _ _ => rfl, fun _ _ => rfl⟩

theorem confined_setStack (d : Detector) (thread : Thread) (r : Nat) (cs : List Classifier) :
    Confined thread r d (d.setStack thread r cs) := by
  refine ⟨?_, fun _ _ => rfl⟩
  intro u p hne
  rw [stackOf_setStack, if_neg hne]

/-- A candidate that is on the stack and is pushed nevertheless is not held, and so is dropped
before. -/
theorem nodup_push {cs : List Classifier} (h : (cs.map (·.id)).Nodup)
    (hc : (candidate.isIn cs && held candidate.id) = false) :
    ((cs.filter (fun c => held c.id) ++ [candidate]).map (·.id)).Nodup := by
  rw [List.map_append, List.map_singleton, List.nodup_append]
  refine ⟨(List.filter_sublist.map _).nodup h, List.nodup_singleton _, ?_⟩
  intro a ha b hb hab
  obtain ⟨c, hmem, rfl⟩ := List.mem_map.1 ha
  rw [List.mem_singleton.1 hb] at hab
  obtain ⟨hcs, hheld⟩ := List.mem_filter.1 hmem
  have hin : candidate.isIn cs = true := Classifier.isIn_iff.2 ⟨c, hcs, hab⟩
  rw [hin, ← hab, hheld] at hc
  cases hc

namespace Tidy

/-- Stacks do not depend on anything else; recorders may come in. -/
theorem of_held (hd : d.Tidy) (hheld : v.held = d.held) (hgone : v.gone = d.gone)
    (hlength : d.recorders.length ≤ v.recorders.length) : v.Tidy := by
  have hstack : ∀ t r, v.stackOf t r = d.stackOf t r := by
    intro t r
    rw [stackOf, stackOf, hheld]
  refine ⟨?_, ?_, ?_, ?_, ?_⟩
  · intro t r
    rw [hstack]
    exact hd.single t r
  · rw [hheld]
    exact hd.kept
  · rw [hheld]
    exact hd.proper
  · intro t r hr
    rw [hstack]
    exact hd.fresh t r (Nat.le_trans hlength hr)
  · intro t r ht
    rw [isGone, hgone] at ht
    rw [hstack]
    exact hd.gone t r ht

theorem setStack (hd : d.Tidy) {cs : List Classifier} {t : Thread} (hcs : (cs.map (·.id)).Nodup)
    (h : cs ≠ [] → r < d.recorders.length ∧ d.isGone t = false) : (d.setStack t r cs).Tidy := by
  refine ⟨?_, ?_, proper_setStack hd.proper t r cs, ?_, ?_⟩
  · intro u p
    rw [stackOf_setStack]
    split
    · exact hcs
    · exact hd.single u p
  · intro es hes
    unfold Detector.setStack at hes
    split at hes
    · exact hd.kept es (Table.mem_values_filter hes)
    · next hne =>
      rcases Table.mem_values_set hes with rfl | hes
      · simpa using hne
      · exact hd.kept es hes
  · intro u p hp
    change d.recorders.length ≤ p at hp
    rw [stackOf_setStack]
    split
    · next heq =>
      cases heq
      by_contra hne
      have := (h hne).1
      omega
    · exact hd.fresh u p hp
  · intro u p hu
    rw [isGone_setStack] at hu
    rw [stackOf_setStack]
    split
    · next heq =>
      cases heq
      by_contra hne
      rw [(h hne).2] at hu
      cases hu
    · exact hd.gone u p hu

/-- What is left of a stack may take its place. -/
theorem setStack_sublist (hd : d.Tidy) {cs : List Classifier} {t : Thread}
    (hcs : cs.Sublist (d.stackOf t r)) : (d.setStack t r cs).Tidy := by
  refine hd.setStack ((hcs.map _).nodup (hd.single t r)) ?_
  intro hne
  have hstack : d.stackOf t r ≠ [] := by
    intro hnil
    rw [hnil] at hcs
    exact hne (List.sublist_nil.1 hcs)
  constructor
  · by_contra hr
    exact hstack (hd.fresh t r (by omega))
  · by_contra hgone
    exact hstack (hd.gone t r (by simpa using hgone))

theorem endThread (hd : d.Tidy) (t : Thread) : (d.endThread t).Tidy := by
  refine ⟨?_, ?_, hd.proper.filter _, ?_, ?_⟩
  · intro u r
    rw [stackOf_endThread]
    split
    · exact List.nodup_nil
    · exact hd.single u r
  · exact fun cs hcs => hd.kept cs (Table.mem_values_filter hcs)
  · intro u r hr
    rw [stackOf_endThread]
    split
    · rfl
    · exact hd.fresh u r hr
  · intro u r hu
    rw [isGone_endThread, Bool.or_eq_true, beq_iff_eq] at hu
    rw [stackOf_endThread]
    split
    · rfl
    · next hne => exact hd.gone u r (hu.resolve_left hne)

theorem begin (hd : d.Tidy) : (d.begin pinned held thread r candidate site).1.Tidy := by
  cases hf : d.isFresh held thread r candidate with
  | false =>
    rw [begin_of_not_fresh hf]
    exact hd
  | true =>
    obtain ⟨q, hq, hbegin⟩ := begin_of_fresh pinned site hf
    obtain ⟨-, hgone, hc⟩ := isFresh_eq_true_iff.1 hf
    have hpush := nodup_push (hd.single thread r) hc
    have hr : r < d.recorders.length := (List.getElem?_eq_some_iff.1 hq).1
    obtain ⟨hheld, -, hrole⟩ := recordEdges_frame pinned
      (d.setStack thread r ((d.stackOf thread r).filter (fun c => held c.id) ++ [candidate])) thread
      r q ((d.stackOf thread r).filter fun c => held c.id) candidate site
    have hlength := congrArg List.length hrole
    rw [List.length_map, List.length_map] at hlength
    rw [hbegin]
    exact (hd.setStack hpush fun _ => ⟨hr, hgone⟩).of_held hheld (gone_recordEdges ..)
      (Nat.le_of_eq hlength.symm)

theorem release (hd : d.Tidy) (t : Thread) (r : Nat) (c : Classifier) :
    (d.release t r c).1.Tidy := by
  rcases release_eq_or d t r c with ⟨h, -⟩ | ⟨h, -⟩ <;> rw [h]
  · exact hd
  · exact hd.setStack_sublist (eraseLast_sublist c _)

theorem dropRecorder (hd : d.Tidy) (t : Thread) (r : Nat) : (d.dropRecorder t r).Tidy := by
  rcases dropRecorder_eq_or d t r with ⟨h, -⟩ | ⟨h, -⟩ <;> rw [h]
  · exact hd
  · exact hd.setStack_sublist (List.nil_sublist _)

theorem step (hd : d.Tidy) (a : Act) : (d.step a).1.Tidy := by
  cases a with
  | begin pinned held t r c site => exact hd.begin
  | release t r c => exact hd.release t r c
  | dropRecorder t r => exact hd.dropRecorder t r
  | endThread t => exact hd.endThread t
  | addRecorder graph settings probe sink =>
    refine hd.of_held rfl rfl ?_
    rw [Detector.step, List.length_append]
    exact Nat.le_add_right _ _
  | addGraph | addSink | sweep => exact hd.of_held rfl rfl (Nat.le_refl _)
  | drain i =>
    unfold Detector.step
    dsimp only
    split
    · exact hd
    · exact hd.of_held rfl rfl (Nat.le_refl _)

theorem run (hd : d.Tidy) (as : List Act) : (d.run as).1.Tidy := by
  induction as generalizing d with
  | nil => exact hd
  | cons a as ih => exact ih (hd.step a)

theorem stackOf_release_self (hd : d.Tidy) (t : Thread) (r : Nat) (c : Classifier) :
    (d.release t r c).1.stackOf t r = eraseLast c (d.stackOf t r) := by
  rw [stackOf_release (hd.gone t r), if_pos rfl]

/-- A release finds what is on the stack. -/
theorem found_release (hd : d.Tidy) (t : Thread) (r : Nat) (c : Classifier) :
    (d.release t r c).2 = c.isIn (d.stackOf t r) := by
  rcases release_eq_or d t r c with ⟨h, hgone⟩ | ⟨h, -⟩ <;> rw [h]
  rw [hd.gone t r hgone]
  rfl

/-- A release finds a classifier where it is on the stack, and takes its only entry away. -/
theorem release_takes (hd : d.Tidy) {t : Thread} {c : Classifier}
    (hc : c.isIn (d.stackOf t r) = true) :
    ∃ before e after, d.stackOf t r = before ++ e :: after ∧ e.id = c.id ∧
      (d.release t r c).1.stackOf t r = before ++ after ∧
        c.isIn ((d.release t r c).1.stackOf t r) = false := by
  obtain ⟨before, e, after, hsplit, he, herase⟩ := exists_of_eraseLast hc
  have hstack : (d.release t r c).1.stackOf t r = before ++ after := by
    rw [hd.stackOf_release_self, herase]
  refine ⟨before, e, after, hsplit, he, hstack, ?_⟩
  have hids := hd.single t r
  rw [hsplit, List.map_append, List.map_cons, List.nodup_middle, List.nodup_cons,
    ← List.map_append] at hids
  rw [hstack, Classifier.isIn_eq_false_iff]
  intro o ho hid
  exact hids.1 (List.mem_map.2 ⟨o, ho, hid.trans he.symm⟩)

end Tidy

theorem tidy_run (as : List Act) : (empty.run as).1.Tidy := tidy_empty.run as

theorem confined_release (d : Detector) (t : Thread) (r : Nat) (c : Classifier) :
    Confined t r d (d.release t r c).1 ∧ (d.release t r c).1.recorders = d.recorders := by
  rcases release_eq_or d t r c with ⟨h, -⟩ | ⟨h, -⟩ <;> rw [h]
  · exact ⟨Confined.refl t r d, rfl⟩
  · exact ⟨confined_setStack d t r _, rfl⟩

theorem confined_dropRecorder (d : Detector) (t : Thread) (r : Nat) :
    Confined t r d (d.dropRecorder t r) ∧ (d.dropRecorder t r).recorders = d.recorders := by
  rcases dropRecorder_eq_or d t r with ⟨h, -⟩ | ⟨h, -⟩ <;> rw [h]
  · exact ⟨Confined.refl t r d, rfl⟩
  · exact ⟨confined_setStack d t r _, rfl⟩

theorem confined_recordEdges (pinned : ClassifierId → Bool) (d : Detector) (thread : Thread)
    (r : Nat) (q : Recorder) (older : List Classifier) (candidate : Classifier) (site : String) :
    Confined thread r d (recordEdges pinned d thread r q older candidate site).1 := by
  refine ⟨fun u p _ => stackOf_recordEdges pinned d thread r q older candidate site u p, ?_⟩
  intro p hp
  by_cases h : (d.graphAt q.graph).missing older candidate = []
  · rw [recordEdges_none h]
  · rw [recordEdges_some h]
    dsimp only
    rw [report_eq]
    dsimp only
    split
    · rfl
    · exact List.getElem?_modify_ne _ _ hp.symm

theorem confined_begin (d : Detector) (pinned held : ClassifierId → Bool) (thread : Thread) (r : Nat)
    (candidate : Classifier) (site : String) :
    Confined thread r d (d.begin pinned held thread r candidate site).1 := by
  cases hf : d.isFresh held thread r candidate with
  | false =>
    rw [begin_of_not_fresh hf]
    exact Confined.refl thread r d
  | true =>
    obtain ⟨q, -, hbegin⟩ := begin_of_fresh pinned site hf
    obtain ⟨hstacks, hrecorders⟩ := confined_setStack d thread r
      ((d.stackOf thread r).filter (fun c => held c.id) ++ [candidate])
    have hconfined := confined_recordEdges pinned
      (d.setStack thread r ((d.stackOf thread r).filter (fun c => held c.id) ++ [candidate])) thread
      r q ((d.stackOf thread r).filter fun c => held c.id) candidate site
    rw [hbegin]
    exact ⟨fun u p hne => (hconfined.otherStacks u p hne).trans (hstacks u p hne),
      fun p hp => (hconfined.otherRecorders p hp).trans (hrecorders p hp)⟩

/-- Whether it was pushed or was there, the candidate is on the stack afterwards. -/
theorem isIn_begin (d : Detector) (pinned held : ClassifierId → Bool) (thread : Thread) {r : Nat}
    (candidate : Classifier) (site : String) (hr : r < d.recorders.length)
    (hgone : d.isGone thread = false) :
    candidate.isIn ((d.begin pinned held thread r candidate site).1.stackOf thread r) = true := by
  rw [stackOf_begin]
  cases hf : d.isFresh held thread r candidate with
  | false =>
    rw [isFresh, List.getElem?_eq_getElem hr, hgone, Option.isSome_some, Bool.true_and,
      Bool.not_false, Bool.true_and, Bool.not_eq_false', Bool.and_eq_true] at hf
    rw [if_neg (by simp)]
    exact hf.1
  | true =>
    rw [if_pos ⟨rfl, rfl⟩]
    exact Classifier.isIn_iff.2 ⟨candidate, by simp, rfl⟩

/-- An acquisition that stops its thread has pushed the candidate before. -/
theorem getLast?_begin (h : (d.begin pinned held thread r candidate site).2.verdict ≠ .returned) :
    ((d.begin pinned held thread r candidate site).1.stackOf thread r).getLast? = some candidate := by
  cases hf : d.isFresh held thread r candidate with
  | false =>
    rw [begin_of_not_fresh hf] at h
    exact absurd rfl h
  | true => rw [stackOf_begin, if_pos ⟨rfl, hf⟩, List.getLast?_concat]

/-- Whatever was done before: no stack names a classifier twice, none is empty, and none is there
for a recorder that is not or for a thread whose local storage is gone. An acquisition, a release
and the drop of a recorder change the stack of their thread for their recorder only, and no other
recorder; a new recorder changes nothing of what is there. Where there is a stack, an acquisition
has its candidate on it, and on top if it stops its thread. A release finds what is on the stack,
takes that entry and leaves the others in their order. -/
theorem stacks_exact (as : List Act) :
    let d := (empty.run as).1
    d.Tidy ∧
    (∀ pinned held t r c site,
      let s := d.begin pinned held t r c site
      s.1.Tidy ∧ Confined t r d s.1 ∧
        (r < d.recorders.length → d.isGone t = false → c.isIn (s.1.stackOf t r) = true) ∧
        (s.2.verdict ≠ .returned → (s.1.stackOf t r).getLast? = some c)) ∧
    (∀ t r c,
      let s := d.release t r c
      s.1.Tidy ∧ Confined t r d s.1 ∧ s.1.recorders = d.recorders ∧
        (s.2 = true ↔ ∃ e ∈ d.stackOf t r, e.id = c.id) ∧
        (s.2 = true → ∃ before e after, d.stackOf t r = before ++ e :: after ∧ e.id = c.id ∧
          s.1.stackOf t r = before ++ after ∧ c.isIn (s.1.stackOf t r) = false) ∧
        (s.2 = false → s.1.stackOf t r = d.stackOf t r)) ∧
    (∀ t r,
      let v := d.dropRecorder t r
      v.Tidy ∧ Confined t r d v ∧ v.recorders = d.recorders ∧ v.stackOf t r = []) ∧
    ∀ graph settings probe sink,
      let v := (d.step (.addRecorder graph settings probe sink)).1
      v.Tidy ∧ v.held = d.held ∧ v.recorders.take d.recorders.length = d.recorders ∧
        ∀ t, v.stackOf t d.recorders.length = [] := by
  have hd := tidy_run as
  refine ⟨hd, ?_, ?_, ?_, ?_⟩
  · intro pinned held t r c site
    exact ⟨hd.begin, confined_begin _ pinned held t r c site, isIn_begin _ pinned held t c site,
      getLast?_begin⟩
  · intro t r c
    obtain ⟨hconfined, hrecorders⟩ := confined_release (empty.run as).1 t r c
    dsimp only
    rw [hd.found_release t r c]
    refine ⟨hd.release t r c, hconfined, hrecorders, Classifier.isIn_iff, hd.release_takes, ?_⟩
    intro hnot
    rw [hd.stackOf_release_self, eraseLast_of_isIn_eq_false hnot]
  · intro t r
    obtain ⟨hconfined, hrecorders⟩ := confined_dropRecorder (empty.run as).1 t r
    refine ⟨hd.dropRecorder t r, hconfined, hrecorders, ?_⟩
    rw [stackOf_dropRecorder (hd.gone t r), if_pos rfl]
  · intro graph settings probe sink
    exact ⟨hd.step _, rfl, List.take_left, fun t => hd.fresh t _ (Nat.le_refl _)⟩

/-- A strict recorder stops the thread that takes two locks the other way round; both stay on its
stack. -/
example :
    let held := fun _ => true
    let t : Thread := ⟨1, "t"⟩
    let u : Thread := ⟨2, "u"⟩
    let d := (empty.run
      [.addGraph 8, .addRecorder 0 ⟨false, false, true, 8⟩ .monitor none,
        .begin held held t 0 ⟨1, "A"⟩ "first", .begin held held t 0 ⟨2, "B"⟩ "second",
        .begin held held u 0 ⟨2, "B"⟩ "third"]).1
    let s := d.begin held held u 0 ⟨1, "A"⟩ "fourth"
    s.2.verdict ≠ .returned ∧ s.1.stackOf u 0 = [⟨2, "B"⟩, ⟨1, "A"⟩] := by
  decide +kernel

end LockDiscipline.Order.Detector
