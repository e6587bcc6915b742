import LockDiscipline.Proofs.Watch.Entering

namespace LockDiscipline.Watch

open LockDiscipline.Config LockDiscipline.Order LockDiscipline.Monitor

namespace Watched

variable {w v : Watched} {t : Thread} {c : Classifier} {m : Move}

def Lined (w : Watched) : Prop :=
  ∀ t, (w.stackOf t).Pairwise fun c d => w.graph.hasEdge c.id d.id = true

theorem lined_start (settings : RecorderSettings) : (start settings).Lined :=
  fun _ => List.Pairwise.nil

theorem lists_of_mem (h : c ∈ w.stackOf t) : w.lists t c.id := ⟨c, h, rfl⟩

namespace Lined

theorem begin (hl : w.Lined) (hw : w.Matched) (pinned : ClassifierId → Bool) (u : Thread)
    (d : Classifier) (site : String) : (w.begin pinned u d site).Lined := by
  intro t
  have hstack := hw.stackOf_begin pinned u d site t
  have hold : ∀ cs : List Classifier, cs.Sublist (w.stackOf t) →
      cs.Sublist ((w.begin pinned u d site).stackOf t) →
        cs.Pairwise fun c e => (w.begin pinned u d site).graph.hasEdge c.id e.id = true := by
    intro cs hbefore hafter
    refine ((hl t).sublist hbefore).imp_of_mem fun {c e} hc he hedge => ?_
    exact hw.hasEdge_begin (Or.inl hedge) (lists_of_mem (hafter.subset hc))
      (lists_of_mem (hafter.subset he))
  by_cases hfresh : t = u ∧ w.isGone u = false ∧ w.monitors.owns u d.id = false
  · obtain ⟨rfl, ht, hd⟩ := hfresh
    rw [if_pos ⟨rfl, ht, hd⟩] at hstack
    have htop : (w.begin pinned t d site).lists t d.id := lists_of_mem (by simp [hstack])
    have hkept : ((w.stackOf t).filter fun c => w.monitors.owns t c.id).Sublist
        ((w.begin pinned t d site).stackOf t) := by
      rw [hstack]
      exact List.sublist_append_left _ _
    -- what is left below keeps its edges, and the candidate gets one from each of them
    have hbelow := hold _ List.filter_sublist hkept
    rw [hstack, List.pairwise_append]
    refine ⟨hbelow, List.pairwise_singleton _ _, ?_⟩
    intro c hc e he
    obtain rfl := List.mem_singleton.1 he
    have howned : w.monitors.owns t c.id = true := (List.mem_filter.1 hc).2
    exact hw.hasEdge_begin (Or.inr ⟨ht, hd, rfl, howned⟩) (lists_of_mem (hkept.subset hc)) htop
  · rw [if_neg hfresh] at hstack
    rw [hstack]
    exact hold _ (List.Sublist.refl _) (by rw [hstack])

theorem step (hl : w.Lined) (hw : w.Matched) (h : w.step m = some v) : v.Lined := by
  cases m with
  | begin pinned u d site =>
    obtain ⟨-, rfl⟩ := step_begin h
    exact hl.begin hw pinned u d site
  | acquire u label =>
    obtain ⟨d, -, -, hdetector, -⟩ := acquire_eq_some h
    intro t
    unfold Watched.stackOf graph
    rw [hdetector]
    exact hl t
  | drop u label =>
    obtain ⟨-, rfl⟩ := step_drop h
    exact hl
  | sweep pinned =>
    intro t
    have hstack : v.stackOf t = w.stackOf t := hw.stackOf_step h (by simp [Move.thread?])
    rw [hstack]
    refine (hl t).imp_of_mem fun {c e} hc he hedge => ?_
    exact hw.hasEdge_step h (t := t) (by simp [Move.thread?]) (lists_of_mem hc) (lists_of_mem he) hedge
  | teardown u =>
    obtain ⟨-, rfl⟩ := step_teardown h
    intro t
    change ((w.detector.endThread u).stackOf t 0).Pairwise _
    rw [Detector.stackOf_endThread]
    split
    · exact List.Pairwise.nil
    · exact hl t

/-- What a thread lists behind something else has its edge, unless it stands before it as well. -/
theorem hasEdge (hl : w.Lined) (hw : w.Matched) (ht : w.isGone t = false) {p q : Classifier}
    (hids : ∀ c ∈ w.monitors.heldBy t, ∀ d ∈ w.monitors.heldBy t, c.id = d.id → c = d)
    (hpq : p.id ≠ q.id) (h : [p, q].Sublist (w.monitors.heldBy t)) :
    w.graph.hasEdge p.id q.id = true ∨ [q, p, q].Sublist (w.monitors.heldBy t) := by
  refine (sublist_distinct hpq hids h).imp_left fun hfirst => ?_
  rw [← hw.mirrored.mirror t ht] at hfirst
  have hpair := (hl t).sublist (hfirst.trans List.filter_sublist)
  simpa using hpair

end Lined

end Watched

end LockDiscipline.Watch
