import LockDiscipline.Proofs.Order.World
import Mathlib.Data.List.Basic

namespace LockDiscipline.Order

/-- What a call shows of its answer: all but how many classifiers were swept. -/
def Answer.visible : Answer → Option Answer
  | .recorded o => some (.recorded { o with swept := 0 })
  | .swept _ => none
  | a => some a

def Event.isSweep : Event → Bool
  | .sweep => true
  | _ => false

namespace Population.Agree

variable {p : Population} {g k : Graph} {older : List Classifier} {younger : Classifier}

theorem live (h : p.Agree g k) (hg : g.Intact) (hk : k.Intact) :
    g.live p.isAlive = k.live p.isAlive := by
  have hmaps : g.nodes.filter (fun a _ => p.isAlive a) = k.nodes.filter fun a _ => p.isAlive a := by
    apply Std.ExtTreeMap.ext_getElem?
    intro a
    rw [Std.ExtTreeMap.getElem?_filter', Std.ExtTreeMap.getElem?_filter']
    cases ha : p.isAlive a with
    | true => rw [h.nodes a (isAlive_iff.1 ha).2]
    | false => cases g.nodes[a]? <;> cases k.nodes[a]? <;> rfl
  have hlists := congrArg (·.toList) hmaps
  simp only [Std.ExtTreeMap.toList_filter] at hlists
  rw [hg.live_eq, hk.live_eq]
  exact congrArg (List.map fun e => Classifier.mk e.1 e.2.name) hlists

theorem cycles (h : p.Agree g k) (hg : g.Intact) (hk : k.Intact) :
    g.cycles p.isAlive = k.cycles p.isAlive := by
  have hnot : ∀ c ∈ k.live p.isAlive, c.id ∉ p.dead := by
    intro c hc
    rw [hk.live_eq] at hc
    obtain ⟨e, he, rfl⟩ := List.mem_map.1 hc
    exact (isAlive_iff.1 (List.mem_filter.1 he).2).2
  have hrows : g.rows (k.live p.isAlive) = k.rows (k.live p.isAlive) := by
    unfold Graph.rows
    refine List.map_congr_left fun a ha => congrArg ofBits (List.map_congr_left fun b hb => ?_)
    exact h.hasEdge (hnot a ha) (hnot b hb)
  simp only [Graph.cycles, h.live hg hk, hrows]

theorem missing (h : p.Agree g k) {older : List Classifier} (hy : younger.id ∉ p.dead)
    (ho : ∀ o ∈ older, o.id ∉ p.dead) :
    g.missing older younger = k.missing older younger := by
  unfold Graph.missing
  refine List.filter_congr fun o hmem => ?_
  rw [h.hasEdge (ho o hmem) hy]

theorem violation? (h : p.Agree g k) (hg : g.Intact) (hk : k.Intact) {w : Witness}
    (ho : w.older.id ∉ p.dead) (hy : w.younger.id ∉ p.dead) : g.violation? w = k.violation? w := by
  unfold Graph.violation?
  rw [h.edges _ _ hy ho, h.isKnown hg hk ho hy]

/-- Recording on both sides inserts and reports the same. -/
theorem insertAll (h : p.Agree g k) (hg : g.Intact) (hk : k.Intact) (context : Context)
    (hy : younger.id ∉ p.dead) (ho : ∀ o ∈ older, o.id ∉ p.dead) :
    p.Agree (g.insertAll older younger context).1 (k.insertAll older younger context).1 ∧
      (g.insertAll older younger context).2 = (k.insertAll older younger context).2 := by
  have hs := Graph.recorded_insertAll g older younger context
  have ht := Graph.recorded_insertAll k older younger context
  have hdistinct : ∀ o ∈ distinct older, o.id ∉ p.dead :=
    fun o hmem => ho o ((distinct_sublist older).subset hmem)
  have hmiss := h.missing hy hdistinct
  refine ⟨⟨?_, ?_⟩, Outcome.ext ?_ ?_ ?_⟩
  · intro a ha
    rw [hs.nodes, ht.nodes, Graph.nodes_addNode, Graph.nodes_addNode, h.nodes a ha]
  · intro a b ha hb
    rw [hs.edge, ht.edge, h.edges a b ha hb]
  · rw [hs.inserted, ht.inserted, hmiss]
  · rw [hs.violations, ht.violations, hmiss]
    refine List.filterMap_congr fun o hmem => h.violation? hg hk ?_ hy
    exact hdistinct o (Graph.mem_missing.1 hmem).1
  · rw [hs.swept, ht.swept]

end Population.Agree

namespace World

/-- What a run shows; nothing if it is impossible. -/
def shows (w : World) (es : List Event) : Option (List Answer) :=
  (w.run es).map fun r => r.2.filterMap Answer.visible

theorem shows_cons (w : World) (e : Event) (es : List Event) :
    w.shows (e :: es) =
      (w.step e).bind fun r => (r.1.shows es).map fun as => r.2.visible.toList ++ as := by
  unfold shows
  rw [run_cons, Option.map_bind]
  congr 1
  funext r
  simp only [Function.comp, Option.map_map]
  congr 1
  funext s
  rw [Function.comp, List.filterMap_cons]
  cases r.2.visible <;> rfl

variable {p : Population} {g k : Graph}

/-- Two graphs in the same population that only sweeps have made different. -/
structure Alike (p : Population) (g k : Graph) : Prop where
  left : Sound ⟨p, g⟩
  right : Sound ⟨p, k⟩
  agree : p.Agree g k

theorem alike_start (every other : Nat) : Alike .empty (.empty every) (.empty other) :=
  ⟨sound_start every, sound_start other, fun _ _ => rfl, fun _ _ _ _ => rfl⟩

namespace Alike

theorem sweep (h : Alike p g k) : Alike p (g.sweep p.isAlive) k :=
  ⟨h.left.sweep, h.right, h.left.agree_sweep.trans h.agree⟩

/-- A population that grows or loses members. -/
theorem mono (h : Alike p g k) {q : Population} (hborn : ∀ c ∈ p.born, c ∈ q.born)
    (hdead : ∀ a ∈ p.dead, a ∈ q.dead) : Alike q g k := by
  refine ⟨⟨h.left.intact, ?_⟩, ⟨h.right.intact, ?_⟩, h.agree.mono hdead⟩
  · exact fun a n hn => (h.left.nodes a n hn).imp fun c hc => hc.imp_left (hborn c)
  · exact fun a n hn => (h.right.nodes a n hn).imp fun c hc => hc.imp_left (hborn c)

theorem perform (h : Alike p g k) {q : Call} (hq : ∀ c ∈ q.handles, p.has c = true) :
    Alike p (g.perform p.isAlive q).1 (k.perform p.isAlive q).1 ∧
      (g.perform p.isAlive q).2.visible = (k.perform p.isAlive q).2.visible := by
  have hdead : ∀ c ∈ q.handles, c.id ∉ p.dead := fun c hc => (Population.has_iff.1 (hq c hc)).2
  have hborn : ∀ c ∈ q.handles, c ∈ p.born := fun c hc => (Population.has_iff.1 (hq c hc)).1
  cases q with
  | record older younger context =>
    have hy : younger ∈ Call.handles (.record older younger context) := by simp [Call.handles]
    have ho : ∀ o ∈ older, o ∈ Call.handles (.record older younger context) :=
      fun o hmem => by simp [Call.handles, hmem]
    obtain ⟨hleft, hl⟩ := h.left.record context (hborn _ hy) fun o hmem => hborn o (ho o hmem)
    obtain ⟨hright, hr⟩ := h.right.record context (hborn _ hy) fun o hmem => hborn o (ho o hmem)
    obtain ⟨hagree, hout⟩ := h.agree.insertAll h.left.intact h.right.intact context
      (hdead _ hy) fun o hmem => hdead o (ho o hmem)
    obtain ⟨hgi, hgv⟩ := Graph.record_outcome p.isAlive g older younger context
    obtain ⟨hki, hkv⟩ := Graph.record_outcome p.isAlive k older younger context
    refine ⟨⟨hleft, hright, (hl.trans hagree).trans hr.symm⟩, ?_⟩
    have hsame : ({ (g.record p.isAlive older younger context).2 with swept := 0 } : Outcome) =
        { (k.record p.isAlive older younger context).2 with swept := 0 } :=
      Outcome.ext (by rw [hgi, hki, hout]) (by rw [hgv, hkv, hout]) rfl
    exact congrArg (fun o => some (Answer.recorded o)) hsame
  | missing older younger =>
    have ho : ∀ o ∈ older, o.id ∉ p.dead := fun o hmem => hdead o (by simp [Call.handles, hmem])
    have hm := h.agree.missing (hdead younger (by simp [Call.handles])) ho
    exact ⟨h, congrArg (fun cs => some (Answer.missing cs)) hm⟩
  | hasEdge a b =>
    have he := h.agree.hasEdge (hdead a (by simp [Call.handles])) (hdead b (by simp [Call.handles]))
    exact ⟨h, congrArg (fun y => some (Answer.decided y)) he⟩
  | witness a b =>
    have he := h.agree.edges _ _ (hdead a (by simp [Call.handles]))
      (hdead b (by simp [Call.handles]))
    exact ⟨h, congrArg (fun y => some (Answer.witness y)) he⟩
  | isKnown a b =>
    have hk := h.agree.isKnown h.left.intact h.right.intact (hdead a (by simp [Call.handles]))
      (hdead b (by simp [Call.handles]))
    exact ⟨h, congrArg (fun y => some (Answer.decided y)) hk⟩
  | cycles => exact ⟨h, congrArg (fun cs => some (Answer.cycles cs))
      (h.agree.cycles h.left.intact h.right.intact)⟩

/-- An event that is no sweep is possible on both sides or on none, shows the same and leaves the
graphs alike. -/
theorem step (h : Alike p g k) {e : Event} (he : e.isSweep = false) :
    (step ⟨p, g⟩ e = none ∧ step ⟨p, k⟩ e = none) ∨
      ∃ q g' k' x y, World.step ⟨p, g⟩ e = some (⟨q, g'⟩, x) ∧
        World.step ⟨p, k⟩ e = some (⟨q, k'⟩, y) ∧ Alike q g' k' ∧ x.visible = y.visible := by
  cases e with
  | create c =>
    cases hp : p.create c with
    | none => exact Or.inl ⟨by simp [World.step, hp], by simp [World.step, hp]⟩
    | some q =>
      obtain ⟨-, hq⟩ := Population.create_eq_some_iff.1 hp
      have hnext : Alike q g k := h.mono (by rw [hq]; exact fun d hd => List.mem_cons_of_mem c hd)
        (by rw [hq]; exact fun a ha => ha)
      exact Or.inr ⟨q, g, k, .done, .done, by simp [World.step, hp], by simp [World.step, hp],
        hnext, rfl⟩
  | drop c =>
    cases hp : p.drop c with
    | none => exact Or.inl ⟨by simp [World.step, hp], by simp [World.step, hp]⟩
    | some q =>
      obtain ⟨-, hq⟩ := Population.drop_eq_some_iff.1 hp
      have hnext : Alike q g k := h.mono (by rw [hq]; exact fun d hd => hd)
        (by rw [hq]; exact fun a ha => List.mem_cons_of_mem c.id ha)
      exact Or.inr ⟨q, g, k, .done, .done, by simp [World.step, hp], by simp [World.step, hp],
        hnext, rfl⟩
  | call q =>
    by_cases hq : q.handles.all p.has = true
    · obtain ⟨hnext, hvisible⟩ := h.perform (List.all_eq_true.1 hq)
      exact Or.inr ⟨p, _, _, _, _, by simp only [World.step, if_pos hq],
        by simp only [World.step, if_pos hq], hnext, hvisible⟩
    · exact Or.inl ⟨by simp only [World.step, if_neg hq], by simp only [World.step, if_neg hq]⟩
  | sweep => cases he

/-- Sweeps may be left out of a run. -/
theorem shows_filter (h : Alike p g k) (es : List Event) :
    shows ⟨p, g⟩ es = shows ⟨p, k⟩ (es.filter fun e => !e.isSweep) := by
  induction es generalizing p g k with
  | nil => rfl
  | cons e es ih =>
    cases he : e.isSweep with
    | true =>
      obtain rfl : e = .sweep := by cases e <;> first | rfl | cases he
      rw [List.filter_cons_of_neg (by simp [he]), ← ih h.sweep, shows_cons]
      simp [World.step, Answer.visible]
    | false =>
      rw [List.filter_cons_of_pos (by simp [he]), shows_cons, shows_cons]
      rcases h.step he with ⟨hg, hk⟩ | ⟨q, g', k', x, y, hg, hk, hnext, hvisible⟩
      · rw [hg, hk, Option.bind_none, Option.bind_none]
      · rw [hg, hk, Option.bind_some, Option.bind_some, ih hnext, hvisible]

end Alike

/-- However often each of two graphs sweeps by itself and wherever it is swept besides, the same
calls, makings and deaths show the same answers on both. -/
theorem sweep_transparent (every other : Nat) {es fs : List Event}
    (h : es.filter (fun e => !e.isSweep) = fs.filter fun e => !e.isSweep) :
    (start every).shows es = (start other).shows fs := by
  have hleft := (alike_start every other).shows_filter es
  have hright := (alike_start other other).shows_filter fs
  rw [h] at hleft
  exact hleft.trans hright.symm

/-- Calls about two classifiers, one of which was ordered before a third that dies. -/
def bereaved : List Event :=
  [.create ⟨1, "A"⟩, .create ⟨2, "B"⟩, .create ⟨3, "C"⟩,
    .call (.record [⟨1, "A"⟩, ⟨3, "C"⟩] ⟨2, "B"⟩ ⟨"t", "first", none⟩), .drop ⟨3, "C"⟩,
    .call (.record [⟨2, "B"⟩] ⟨1, "A"⟩ ⟨"u", "second", none⟩), .call .cycles]

/-- The calls show the cycle of the two that are left, whenever the third one is swept. -/
theorem sweep_transparent_bereaved :
    (bereaved ++ [Event.sweep]).filter (fun e => !e.isSweep) =
        (Event.sweep :: bereaved).filter (fun e => !e.isSweep) ∧
      ∃ as, (start 1).shows (bereaved ++ [Event.sweep]) = some as ∧
        .cycles [⟨[⟨1, "A"⟩, ⟨2, "B"⟩]⟩] ∈ as ∧
        (start 1024).shows (Event.sweep :: bereaved) = some as := by
  have hsame : (bereaved ++ [Event.sweep]).filter (fun e => !e.isSweep) =
      (Event.sweep :: bereaved).filter (fun e => !e.isSweep) := by decide
  have hshown : ((start 1).shows (bereaved ++ [Event.sweep])).any (fun as =>
      as.contains (.cycles [⟨[⟨1, "A"⟩, ⟨2, "B"⟩]⟩])) = true := by
    decide +kernel
  obtain ⟨as, has, hcycle⟩ := (Option.any_eq_true _ _).mp hshown
  refine ⟨hsame, as, has, List.contains_iff_mem.1 hcycle, ?_⟩
  rw [← sweep_transparent 1 1024 hsame, has]

end World

end LockDiscipline.Order
