import LockDiscipline.Proofs.Order.Acts
import LockDiscipline.Proofs.Order.Reach
import LockDiscipline.Proofs.Order.Recording

namespace LockDiscipline.Order

variable {lt : ClassifierId → ClassifierId → Prop}

namespace Graph

structure Ordered (lt : ClassifierId → ClassifierId → Prop) (g : Graph) : Prop where
  edge : ∀ a b, g.hasEdge a b = true → lt a b
  known : g.known = ∅

variable {g : Graph} {older : List Classifier} {younger : Classifier} {context : Context}

theorem ordered_empty (sweepEvery : Nat) : (empty sweepEvery).Ordered lt := by
  refine ⟨?_, rfl⟩
  intro a b h
  simp [empty, hasEdge] at h

theorem Ordered.sweep (hg : g.Ordered lt) (alive : ClassifierId → Bool) :
    (g.sweep alive).Ordered lt := by
  constructor
  · intro a b h
    exact hg.edge a b (of_hasEdge_sweep h)
  · rw [Std.ExtTreeSet.eq_empty_iff_forall_not_mem]
    intro p hp
    have hold := (mem_known_sweep.1 hp).1
    rw [hg.known] at hold
    exact Std.ExtTreeSet.not_mem_empty hold

/-- What is taken above all that is held has no edge back to it. -/
theorem Ordered.violation?_eq_none (hasymm : ∀ a b, lt a b → ¬ lt b a) (hg : g.Ordered lt)
    {o : Classifier} (h : lt o.id younger.id) : g.violation? ⟨o, younger, context⟩ = none := by
  cases hv : g.violation? ⟨o, younger, context⟩ with
  | none => rfl
  | some v =>
    obtain ⟨-, hback, -⟩ := violation?_eq_some_iff.1 hv
    have hlt := hg.edge younger.id o.id (hasEdge_iff.2 ⟨_, hback⟩)
    exact absurd h (hasymm _ _ hlt)

/-- Recording upwards keeps the order and finds nothing to report. -/
theorem Ordered.record (hasymm : ∀ a b, lt a b → ¬ lt b a) (hg : g.Ordered lt)
    (h : ∀ o ∈ older, o.id ≠ younger.id → lt o.id younger.id) (alive : ClassifierId → Bool) :
    (g.record alive older younger context).1.Ordered lt ∧
      (∀ w ∈ (g.record alive older younger context).2.inserted, lt w.older.id w.younger.id) ∧
        (g.record alive older younger context).2.violations = [] := by
  have hrec := recorded_insertAll g older younger context
  have hmissing : ∀ o ∈ g.missing (distinct older) younger, lt o.id younger.id := by
    intro o ho
    obtain ⟨hmem, hne, -⟩ := mem_missing.1 ho
    exact h o ((distinct_sublist older).subset hmem) hne
  have hviolations : (g.insertAll older younger context).2.violations = [] := by
    rw [hrec.violations, List.filterMap_eq_nil_iff]
    intro o ho
    exact hg.violation?_eq_none hasymm (hmissing o ho)
  have hinsert : (g.insertAll older younger context).1.Ordered lt := by
    constructor
    · intro a b hab
      rcases (hrec.hasEdge_eq_true a b).1 hab with hab | ⟨rfl, hne, o, ho, rfl⟩
      · exact hg.edge a b hab
      · exact h o ho hne
    · rw [Std.ExtTreeSet.eq_empty_iff_forall_contains]
      intro p
      rw [hrec.known, hviolations, hg.known]
      rfl
  obtain ⟨houtcome, hviol⟩ := record_outcome alive g older younger context
  refine ⟨?_, ?_, hviol.trans hviolations⟩
  · rw [record_eq]
    dsimp only
    split
    · exact hinsert.sweep alive
    · exact hinsert
  · intro w hw
    rw [houtcome, hrec.inserted] at hw
    obtain ⟨o, ho, rfl⟩ := List.mem_map.1 hw
    exact hmissing o ho

end Graph

/-- An acquisition that raised no alarm: its new edges go upwards, it reported nothing, warned of
nothing and let the thread go on. -/
structure Began.Silent (lt : ClassifierId → ClassifierId → Prop) (b : Began) : Prop where
  inserted : ∀ w ∈ b.outcome.inserted, lt w.older.id w.younger.id
  violations : b.outcome.violations = []
  log : ∀ line ∈ b.log, line.level ≠ .warn
  verdict : b.verdict = .returned

namespace Detector

/-- Nothing was ever found. -/
structure Calm (lt : ClassifierId → ClassifierId → Prop) (d : Detector) : Prop where
  graphs : ∀ i, (d.graphAt i).Ordered lt
  history : ∀ q ∈ d.recorders, q.history = []

/-- An acquisition that is not taken again is above all else that the thread is told to hold. -/
def Act.Upwards (lt : ClassifierId → ClassifierId → Prop) (d : Detector) : Act → Prop
  | .begin _ held thread r candidate _ =>
    (candidate.isIn (d.stackOf thread r) && held candidate.id) = false →
      ∀ s ∈ d.stackOf thread r, held s.id = true → s.id ≠ candidate.id → lt s.id candidate.id
  | _ => True

/-- Every acquisition of a run is upwards when its turn comes. -/
def Upwards (lt : ClassifierId → ClassifierId → Prop) (d : Detector) : List Act → Prop
  | [] => True
  | a :: as => a.Upwards lt d ∧ Upwards lt (d.step a).1 as

instance Act.decidableUpwards [DecidableRel lt] (d : Detector) (a : Act) :
    Decidable (a.Upwards lt d) :=
  match a with
  | .begin _ held thread r candidate _ => inferInstanceAs (Decidable
      ((candidate.isIn (d.stackOf thread r) && held candidate.id) = false →
        ∀ s ∈ d.stackOf thread r,
          held s.id = true → s.id ≠ candidate.id → lt s.id candidate.id))
  | .addGraph _ | .addSink _ | .addRecorder .. | .release .. | .dropRecorder .. | .endThread _
  | .sweep .. | .drain _ => inferInstanceAs (Decidable True)

instance decidableUpwards [DecidableRel lt] :
    (d : Detector) → (acts : List Act) → Decidable (Upwards lt d acts)
  | _, [] => inferInstanceAs (Decidable True)
  | d, a :: as =>
    have := decidableUpwards (d.step a).1 as
    inferInstanceAs (Decidable (_ ∧ _))

variable {d : Detector} {pinned held : ClassifierId → Bool} {thread : Thread} {site : String}
  {r : Nat} {q : Recorder} {candidate : Classifier} {acts : List Act}

theorem silent_nothing (c : Classifier) : (Began.nothing c).Silent lt := by
  refine ⟨?_, rfl, ?_, rfl⟩
  · intro w hw
    cases hw
  · intro line hline
    cases hline

namespace Calm

theorem setStack (hd : d.Calm lt) (thread : Thread) (r : Nat) (cs : List Classifier) :
    (d.setStack thread r cs).Calm lt :=
  ⟨hd.graphs, hd.history⟩

theorem setGraph (hd : d.Calm lt) (i : Nat) {g : Graph} (hg : g.Ordered lt) :
    (d.setGraph i g).Calm lt := by
  refine ⟨?_, hd.history⟩
  intro j
  rw [graphAt_setGraph]
  split
  · exact hg
  · exact hd.graphs j

theorem recordEdges (hasymm : ∀ a b, lt a b → ¬ lt b a) (hd : d.Calm lt)
    {older : List Classifier} (h : ∀ o ∈ older, o.id ≠ candidate.id → lt o.id candidate.id)
    (pinned : ClassifierId → Bool) (thread : Thread) (r : Nat) (q : Recorder) (site : String) :
    (Detector.recordEdges pinned d thread r q older candidate site).1.Calm lt ∧
      (Detector.recordEdges pinned d thread r q older candidate site).2.Silent lt := by
  by_cases hm : (d.graphAt q.graph).missing older candidate = []
  · rw [recordEdges_none hm]
    exact ⟨hd, silent_nothing candidate⟩
  · obtain ⟨hgraph, hinserted, hviol⟩ := (hd.graphs q.graph).record
      hasymm (fun o ho => h o (Graph.mem_missing.1 ho).1) (fun c => pinned c || d.onStack c)
    rw [recordEdges_some hm]
    dsimp only
    rw [hviol]
    refine ⟨hd.setGraph q.graph hgraph, hinserted, hviol, ?_, rfl⟩
    intro line hline
    rw [report, List.append_nil] at hline
    rw [level_outcomeLog hline]
    decide

theorem begin (hasymm : ∀ a b, lt a b → ¬ lt b a) (hd : d.Calm lt)
    (h : (Act.begin pinned held thread r candidate site).Upwards lt d) :
    (d.begin pinned held thread r candidate site).1.Calm lt ∧
      (d.begin pinned held thread r candidate site).2.Silent lt := by
  cases hf : d.isFresh held thread r candidate with
  | false =>
    rw [begin_of_not_fresh hf]
    exact ⟨hd, silent_nothing candidate⟩
  | true =>
    obtain ⟨⟨q, hq⟩, hgone, hc⟩ := isFresh_eq_true_iff.1 hf
    obtain ⟨note, hnote, hbegin⟩ := begin_onto pinned site hq hgone hc
    rw [hbegin]
    dsimp only
    have hpushed := hd.setStack thread r
      ((d.stackOf thread r).filter (fun c => held c.id) ++ [candidate])
    have hbelow : ∀ o ∈ (d.stackOf thread r).filter fun c => held c.id,
        o.id ≠ candidate.id → lt o.id candidate.id := by
      intro o ho hne
      obtain ⟨hmem, hheld⟩ := List.mem_filter.1 ho
      exact h hc o hmem hheld hne
    obtain ⟨hcalm, hsilent⟩ := hpushed.recordEdges hasymm hbelow pinned thread r q site
    refine ⟨hcalm, ⟨hsilent.inserted, hsilent.violations, ?_, hsilent.verdict⟩⟩
    intro line hline
    rcases List.mem_append.1 hline with hline | hline
    · rw [hnote line hline]
      decide
    · exact hsilent.log line hline

/-- One act: what was calm stays calm, and an acquisition is silent. -/
theorem step (hasymm : ∀ a b, lt a b → ¬ lt b a) (hd : d.Calm lt) {a : Act}
    (h : a.Upwards lt d) :
    (d.step a).1.Calm lt ∧ ∀ b, (d.step a).2 = .began b → b.Silent lt := by
  cases a with
  | addGraph sweepEvery =>
    refine ⟨⟨?_, hd.history⟩, by intro b hb; cases hb⟩
    intro i
    rw [Detector.step, graphAt_addGraph]
    split
    · exact Graph.ordered_empty sweepEvery
    · exact hd.graphs i
  | addSink sink => exact ⟨⟨hd.graphs, hd.history⟩, by intro b hb; cases hb⟩
  | addRecorder graph settings probe sink =>
    refine ⟨⟨hd.graphs, ?_⟩, by intro b hb; cases hb⟩
    intro q hq
    rcases List.mem_append.1 hq with hq | hq
    · exact hd.history q hq
    · rw [List.mem_singleton.1 hq]
  | begin pinned held thread r candidate site =>
    obtain ⟨hcalm, hsilent⟩ := hd.begin hasymm h
    refine ⟨hcalm, ?_⟩
    intro b hb
    cases hb
    exact hsilent
  | release thread r c =>
    refine ⟨?_, by intro b hb; cases hb⟩
    rw [Detector.step]
    rcases release_eq_or d thread r c with ⟨h, -⟩ | ⟨h, -⟩ <;> rw [h]
    · exact hd
    · exact hd.setStack _ _ _
  | dropRecorder thread r =>
    refine ⟨?_, by intro b hb; cases hb⟩
    rw [Detector.step]
    rcases dropRecorder_eq_or d thread r with ⟨h, -⟩ | ⟨h, -⟩ <;> rw [h]
    · exact hd
    · exact hd.setStack _ _ _
  | endThread thread => exact ⟨⟨hd.graphs, hd.history⟩, by intro b hb; cases hb⟩
  | sweep alive i =>
    exact ⟨hd.setGraph i ((hd.graphs i).sweep alive), by intro b hb; cases hb⟩
  | drain i =>
    unfold Detector.step
    dsimp only
    split
    · exact ⟨hd, by intro b hb; cases hb⟩
    · exact ⟨⟨hd.graphs, hd.history⟩, by intro b hb; cases hb⟩

theorem run (hasymm : ∀ a b, lt a b → ¬ lt b a) (hd : d.Calm lt) (h : Upwards lt d acts) :
    (d.run acts).1.Calm lt ∧ ∀ b, Reply.began b ∈ (d.run acts).2 → b.Silent lt := by
  induction acts generalizing d with
  | nil =>
    refine ⟨hd, ?_⟩
    intro b hb
    cases hb
  | cons a as ih =>
    obtain ⟨hcalm, hsilent⟩ := hd.step hasymm h.1
    obtain ⟨hend, hrest⟩ := ih hcalm h.2
    refine ⟨hend, ?_⟩
    intro b hb
    rcases List.mem_cons.1 hb with hb | hb
    · exact hsilent b hb.symm
    · exact hrest b hb

end Calm

theorem calm_empty : empty.Calm lt := by
  refine ⟨?_, ?_⟩
  · intro i
    exact Graph.ordered_empty Graph.standardSweep
  · intro q hq
    cases hq

theorem Upwards.take (h : Upwards lt d acts) (n : Nat) : Upwards lt d (acts.take n) := by
  induction acts generalizing d n with
  | nil =>
    rw [List.take_nil]
    exact h
  | cons a as ih =>
    cases n with
    | zero => trivial
    | succ n => exact ⟨h.1, ih h.2 n⟩

/-- If each thread takes every lock above all else that it is told to hold, then at every moment all
edges go upwards, no pair is known, no cycle is found and no recorder has a history, and no
acquisition reports, warns or stops its thread. -/
theorem consistent_never_alarms (hirrefl : ∀ a, ¬ lt a a)
    (htrans : ∀ a b c, lt a b → lt b c → lt a c) (h : Upwards lt empty acts) :
    (∀ n, (∀ i, (∀ a b, ((empty.run (acts.take n)).1.graphAt i).hasEdge a b = true → lt a b) ∧
        ((empty.run (acts.take n)).1.graphAt i).known = ∅ ∧
          ∀ alive, ((empty.run (acts.take n)).1.graphAt i).cycles alive = []) ∧
      ∀ q ∈ (empty.run (acts.take n)).1.recorders, q.history = []) ∧
    ∀ b, Reply.began b ∈ (empty.run acts).2 → b.Silent lt := by
  have hasymm : ∀ a b, lt a b → ¬ lt b a := by
    intro a b hab hba
    exact hirrefl a (htrans a b a hab hba)
  refine ⟨?_, (calm_empty.run hasymm h).2⟩
  intro n
  obtain ⟨hcalm, -⟩ := calm_empty.run hasymm (h.take n)
  refine ⟨?_, hcalm.history⟩
  intro i
  have hordered := hcalm.graphs i
  exact ⟨hordered.edge, hordered.known, Graph.cycles_eq_nil hirrefl htrans hordered.edge⟩

/-- Two threads that share a graph and climb by id. The first one lets go of its highest lock
unnoticed and starts again below it; between the two everything is swept. -/
def climbing : List Act :=
  [.addGraph 2, .addRecorder 0 ⟨false, true, true, 2⟩ .monitor none,
    .addRecorder 0 ⟨false, false, true, 2⟩ .monitor none,
    .begin (fun _ => true) (fun _ => false) ⟨1, "t"⟩ 0 ⟨3, "C"⟩ "first",
    .begin (fun _ => true) (fun _ => false) ⟨1, "t"⟩ 0 ⟨1, "A"⟩ "second",
    .begin (fun _ => true) (fun c => c = 1) ⟨1, "t"⟩ 0 ⟨2, "B"⟩ "third",
    .sweep (fun _ => false) 0,
    .begin (fun _ => true) (fun _ => false) ⟨2, "u"⟩ 1 ⟨2, "B"⟩ "fourth",
    .begin (fun _ => true) (fun c => c = 2) ⟨2, "u"⟩ 1 ⟨3, "C"⟩ "fifth"]

theorem consistent_never_alarms_climbing :
    Upwards (· < ·) empty climbing ∧
      ((empty.run climbing).1.graphAt 0).hasEdge 2 3 = true ∧
      ((empty.run climbing).1.graphAt 0).cycles (fun _ => true) = [] ∧
      ∀ b, Reply.began b ∈ (empty.run climbing).2 → b.Silent (· < ·) := by
  have hup : Upwards (· < ·) empty climbing := by decide +kernel
  have hirrefl : ∀ a : ClassifierId, ¬ a < a := fun a => UInt64.lt_irrefl a
  have htrans : ∀ a b c : ClassifierId, a < b → b < c → a < c := fun a b c => UInt64.lt_trans
  obtain ⟨hall, hsilent⟩ := consistent_never_alarms hirrefl htrans hup
  have hend := (hall climbing.length).1 0
  rw [List.take_length] at hend
  exact ⟨hup, by decide +kernel, hend.2.2 _, hsilent⟩

end Detector

end LockDiscipline.Order
