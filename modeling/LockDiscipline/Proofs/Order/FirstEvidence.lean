import LockDiscipline.Proofs.Order.Exactness
import LockDiscipline.Proofs.Order.Representation

namespace LockDiscipline.Order

/-- The witness that an event offers for the second one being taken after the first one. -/
def Event.evidence? (a b : ClassifierId) : Event → Option Witness
  | .call (.record older younger context) =>
    if b = younger.id ∧ a ≠ younger.id then
      (older.find? fun o => o.id == a).map fun o => ⟨o, younger, context⟩
    else none
  | _ => none

def firstEvidence (es : List Event) (a b : ClassifierId) : Option Witness :=
  es.findSome? (Event.evidence? a b)

theorem evidence?_of_record? {e : Event} (h : e.record? = none) (a b : ClassifierId) :
    e.evidence? a b = none := by
  unfold Event.record? at h
  unfold Event.evidence?
  split
  · cases h
  · rfl

theorem evidence?_eq_some {e : Event} {a b : ClassifierId} {x : Witness}
    (h : e.evidence? a b = some x) :
    ∃ older, e = .call (.record older x.younger x.context) ∧ x.older ∈ older := by
  unfold Event.evidence? at h
  split at h
  · next older younger context =>
    split at h
    · obtain ⟨o, ho, rfl⟩ := Option.map_eq_some_iff.1 h
      exact ⟨older, rfl, List.mem_of_find?_eq_some ho⟩
    · cases h
  · cases h

theorem evidence?_eq_none {e : Event} {a b : ClassifierId} (hab : a ≠ b)
    (h : e.evidence? a b = none) : ¬ Shown [e] a b := by
  cases hr : e.record? with
  | none => exact not_shown_of_record? hr
  | some r =>
    unfold Event.record? at hr
    split at hr
    · next older younger context =>
      rw [shown_record]
      rintro ⟨rfl, o, ho, rfl⟩
      rw [Event.evidence?, if_pos ⟨rfl, hab⟩, Option.map_eq_none_iff, List.find?_eq_none] at h
      exact h o ho (beq_self_eq_true _)
    · cases hr

/-- The first evidence comes from a record with none before it. -/
theorem firstEvidence_eq_some {es : List Event} {a b : ClassifierId} {x : Witness} (hab : a ≠ b)
    (h : firstEvidence es a b = some x) :
    ∃ before older rest, es = before ++ .call (.record older x.younger x.context) :: rest ∧
      x.older ∈ older ∧ ¬ Shown before a b := by
  obtain ⟨before, e, rest, hes, he, hnone⟩ := List.findSome?_eq_some_iff.1 h
  obtain ⟨older, rfl, ho⟩ := evidence?_eq_some he
  refine ⟨before, older, rest, hes, ho, ?_⟩
  rintro ⟨r, hr, hshown⟩
  obtain ⟨d, hd, hdr⟩ := List.mem_filterMap.1 hr
  refine evidence?_eq_none hab (hnone d hd) ⟨r, ?_, hshown⟩
  exact List.mem_filterMap.2 ⟨d, List.mem_singleton_self d, hdr⟩

namespace World

variable {w v : World} {e : Event} {x : Answer} {es : List Event} {as : List Answer}
  {a b : ClassifierId}

theorem dead_step (h : w.step e = some (v, x)) (ha : a ∉ v.population.dead) :
    a ∉ w.population.dead := by
  cases e with
  | create c =>
    obtain ⟨p, hp, hv⟩ := Option.map_eq_some_iff.1 h
    cases hv
    obtain ⟨-, rfl⟩ := Population.create_eq_some_iff.1 hp
    exact ha
  | drop c =>
    obtain ⟨p, hp, hv⟩ := Option.map_eq_some_iff.1 h
    cases hv
    obtain ⟨-, rfl⟩ := Population.drop_eq_some_iff.1 hp
    exact fun hmem => ha (List.mem_cons_of_mem _ hmem)
  | call q =>
    obtain ⟨-, rfl, -⟩ := step_call h
    exact ha
  | sweep =>
    cases h
    exact ha

/-- Between two that are not dead an event adds its evidence where there is none. -/
theorem Sound.edge?_step (hw : w.Sound) (h : w.step e = some (v, x)) (ha : a ∉ v.population.dead)
    (hb : b ∉ v.population.dead) :
    v.graph.edge? a b = (w.graph.edge? a b).or (e.evidence? a b) := by
  have hnone : e.record? = none → v.graph.edge? a b = w.graph.edge? a b →
      v.graph.edge? a b = (w.graph.edge? a b).or (e.evidence? a b) := by
    intro hr hsame
    rw [evidence?_of_record? hr, Option.or_none, hsame]
  cases e with
  | create c =>
    obtain ⟨p, -, hv⟩ := Option.map_eq_some_iff.1 h
    cases hv
    exact hnone rfl rfl
  | drop c =>
    obtain ⟨p, -, hv⟩ := Option.map_eq_some_iff.1 h
    cases hv
    exact hnone rfl rfl
  | call q =>
    obtain ⟨hq, rfl, -⟩ := step_call h
    cases q with
    | record older younger context =>
      have hborn : ∀ c ∈ younger :: older, c ∈ w.population.born :=
        fun c hc => (Population.has_iff.1 (hq c hc)).1
      have ho : ∀ o ∈ older, o ∈ w.population.born := fun o ho => hborn o (by simp [ho])
      have hagree := (hw.record context (hborn younger (by simp)) ho).2
      have hs := Graph.recorded_insertAll w.graph older younger context
      exact (hagree.edges a b ha hb).trans (hs.edge a b)
    | missing | hasEdge | witness | isKnown | cycles => exact hnone rfl rfl
  | sweep =>
    cases h
    exact hnone rfl (hw.agree_sweep.edges a b ha hb)

/-- Between two that are not dead in the end, the witness is the first evidence. -/
theorem Sound.edge?_run (hw : w.Sound) (h : w.run es = some (v, as)) (ha : a ∉ v.population.dead)
    (hb : b ∉ v.population.dead) :
    v.graph.edge? a b = (w.graph.edge? a b).or (firstEvidence es a b) := by
  induction es using List.reverseRecOn generalizing v as with
  | nil =>
    cases h
    rw [firstEvidence, List.findSome?_nil, Option.or_none]
  | append_singleton es e ih =>
    obtain ⟨u, bs, y, hu, hstep, -⟩ := run_concat h
    have hbefore := ih hu (dead_step hstep ha) (dead_step hstep hb)
    rw [(hw.run hu).edge?_step hstep ha hb, hbefore, Option.or_assoc, firstEvidence, firstEvidence,
      List.findSome?_append, List.findSome?_singleton]

/-- A witness stays as long as both classifiers live. -/
theorem Sound.edge?_keeps (hw : w.Sound) (h : w.run es = some (v, as)) (ha : a ∉ v.population.dead)
    (hb : b ∉ v.population.dead) {x : Witness} (hx : w.graph.edge? a b = some x) :
    v.graph.edge? a b = some x := by
  rw [hw.edge?_run h ha hb, hx, Option.some_or]

theorem edge?_run_start {every : Nat} (h : (start every).run es = some (v, as))
    (ha : a ∉ v.population.dead) (hb : b ∉ v.population.dead) :
    v.graph.edge? a b = firstEvidence es a b := by
  have hnone : (start every).graph.edge? a b = none := by simp [start, Graph.empty, Graph.edge?]
  rw [(sound_start every).edge?_run h ha hb, hnone, Option.none_or]

theorem step_witness {c d : Classifier} (hc : w.population.has c = true)
    (hd : w.population.has d = true) :
    w.step (.call (.witness c d)) = some (w, .witness (w.graph.edge? c.id d.id)) := by
  simp [step, Call.handles, hc, hd, Graph.perform]

theorem Genuine.find?_id {every : Nat} (hw : Genuine every w) {cs : List Classifier}
    (hborn : ∀ c ∈ cs, c ∈ w.population.born) {c : Classifier} (hc : c ∈ cs) :
    (cs.find? fun d => d.id == c.id) = some c := by
  have hsome : (cs.find? fun d => d.id == c.id).isSome = true :=
    List.find?_isSome.2 ⟨c, hc, by simp⟩
  obtain ⟨d, hd⟩ := Option.isSome_iff_exists.1 hsome
  have hid : d.id = c.id := by simpa using List.find?_some hd
  have hdborn := hborn d (List.mem_of_find?_eq_some hd)
  rw [hd, hw.eq_of_id hdborn (hborn c hc) hid]

/-- What the graph knows when a violation is reported. -/
structure Contradicts (w : World) (older : List Classifier) (younger : Classifier)
    (context : Context) (v : Violation) : Prop where
  conflicting : v.conflicting = ⟨v.established.younger, younger, context⟩
  held : v.established.younger ∈ older
  mirrored : v.established.older = younger
  differ : v.established.younger.id ≠ younger.id
  missing : w.graph.hasEdge v.established.younger.id younger.id = false
  back : w.graph.edge? younger.id v.established.younger.id = some v.established

variable {every : Nat} {older : List Classifier} {younger : Classifier} {context : Context}
  {out : Outcome} {violation : Violation} {s t : World}

/-- An id was given once, so the established witness is about the very same classifiers. -/
theorem Genuine.contradicts (hs : Genuine every s) (hy : younger ∈ s.population.born)
    (ho : ∀ o ∈ older, o ∈ s.population.born)
    (hmem : violation ∈ (s.graph.insertAll older younger context).2.violations) :
    Contradicts s older younger context violation := by
  have hrec := Graph.recorded_insertAll s.graph older younger context
  obtain ⟨o, hmissing, hconf, hback, -⟩ := Graph.conflicting_of_mem hrec hmem
  obtain ⟨hdistinct, hne, hnew⟩ := Graph.mem_missing.1 hmissing
  have hheld : o ∈ older := (distinct_sublist older).subset hdistinct
  obtain ⟨hestO, hestY⟩ := hs.evidence _ _ _ hback
  obtain ⟨hidO, hidY⟩ := hs.sound.intact.orders _ _ _ hback
  obtain rfl : violation.established.younger = o := hs.eq_of_id hestY (ho o hheld) hidY
  exact ⟨hconf, hheld, hs.eq_of_id hestO hy hidO, hne, hnew, hback⟩

/-- After the report both witnesses are in the graph. -/
theorem Contradicts.edges (h : Contradicts s older younger context violation)
    (hs : Genuine every s)
    (ht : s.step (.call (.record older younger context)) = some (t, .recorded out)) :
    t.graph.edge? violation.established.younger.id younger.id = some violation.conflicting ∧
      t.graph.edge? younger.id violation.established.younger.id = some violation.established := by
  have hhas : ∀ c ∈ younger :: older, c ∈ t.population.born ∧ c.id ∉ t.population.dead := by
    obtain ⟨hhandles, rfl, -⟩ := step_call ht
    exact fun c hc => Population.has_iff.1 (hhandles c hc)
  have hborn : ∀ c ∈ older, c ∈ s.population.born := by
    obtain ⟨-, rfl, -⟩ := step_call ht
    exact fun c hc => (hhas c (by simp [hc])).1
  have hydead := (hhas younger (by simp)).2
  have hodead := (hhas violation.established.younger (by simp [h.held])).2
  constructor
  · rw [hs.sound.edge?_step ht hodead hydead, Graph.edge?_eq_none_iff.2 h.missing, Option.none_or,
      Event.evidence?, if_pos ⟨rfl, h.differ⟩, hs.find?_id hborn h.held, Option.map_some,
      h.conflicting]
  · rw [hs.sound.edge?_step ht hydead hodead, h.back, Option.some_or]

/-- The two witnesses of a violation mirror each other. The one that conflicts is from the call that
reports it, the established one from the first record of the run that supplied its order. The pair
is known right away, and while both classifiers live these stay the witnesses of the two orders. -/
theorem violation_evidence {past : List Event} (hs : (start every).run past = some (s, as))
    (ht : s.step (.call (.record older younger context)) = some (t, .recorded out))
    (hmem : violation ∈ out.violations) :
    (violation.conflicting.younger = younger ∧ violation.conflicting.older ∈ older ∧
      violation.conflicting.context = context) ∧
    (violation.established.older = violation.conflicting.younger ∧
      violation.established.younger = violation.conflicting.older) ∧
    (∃ before held rest, past = before ++
        .call (.record held violation.established.younger violation.established.context) :: rest ∧
      violation.established.older ∈ held ∧
      ¬ Shown before violation.established.older.id violation.established.younger.id) ∧
    violation.pair ∈ t.graph.known ∧
    ∀ future u bs, t.run future = some (u, bs) →
      u.population.has violation.conflicting.older = true → u.population.has younger = true →
        u.step (.call (.witness violation.conflicting.older younger)) =
            some (u, .witness (some violation.conflicting)) ∧
          u.step (.call (.witness younger violation.conflicting.older)) =
            some (u, .witness (some violation.established)) := by
  have hgen := genuine_run hs
  have hsound := hgen.sound.step ht
  obtain ⟨hhandles, -, hout⟩ := step_call ht
  have hhas : ∀ c ∈ younger :: older, c ∈ s.population.born ∧ c.id ∉ s.population.dead :=
    fun c hc => Population.has_iff.1 (hhandles c hc)
  have hviolations : out.violations = (s.graph.insertAll older younger context).2.violations := by
    cases hout
    exact (Graph.record_outcome s.population.isAlive s.graph older younger context).2
  rw [hviolations] at hmem
  have hcon := hgen.contradicts (hhas younger (by simp)).1 (fun o ho => (hhas o (by simp [ho])).1) hmem
  obtain ⟨hforth, hback⟩ := hcon.edges hgen ht
  have holder : violation.conflicting.older = violation.established.younger := by
    rw [hcon.conflicting]
  refine ⟨?_, ?_, ?_, ?_, ?_⟩
  · rw [hcon.conflicting]
    exact ⟨rfl, hcon.held, rfl⟩
  · rw [hcon.conflicting]
    exact ⟨hcon.mirrored, rfl⟩
  · have hodead := (hhas violation.established.younger (by simp [hcon.held])).2
    have hfirst := edge?_run_start hs (hhas younger (by simp)).2 hodead
    rw [hcon.back] at hfirst
    obtain ⟨before, held, rest, hpast, hheld, hnone⟩ :=
      firstEvidence_eq_some hcon.differ.symm hfirst.symm
    refine ⟨before, held, rest, hpast, hheld, ?_⟩
    rw [hcon.mirrored]
    exact hnone
  · rw [Violation.pair, hcon.conflicting, ← Std.ExtTreeSet.contains_iff_mem]
    exact (hsound.intact.known _ _).2
      ⟨Graph.hasEdge_iff.2 ⟨_, hforth⟩, Graph.hasEdge_iff.2 ⟨_, hback⟩⟩
  · intro future u bs hrun ho hy
    rw [holder] at ho ⊢
    have hodead := (Population.has_iff.1 ho).2
    have hydead := (Population.has_iff.1 hy).2
    rw [step_witness ho hy, step_witness hy ho, hsound.edge?_keeps hrun hodead hydead hforth,
      hsound.edge?_keeps hrun hydead hodead hback]
    exact ⟨rfl, rfl⟩

/-- Two classifiers in both orders; the first order is seen twice, the second one once more
later. -/
def quarrel : List Event :=
  [.create ⟨1, "A"⟩, .create ⟨2, "B"⟩, .create ⟨3, "C"⟩,
    .call (.record [⟨1, "A"⟩] ⟨2, "B"⟩ ⟨"t", "first", none⟩),
    .call (.record [⟨1, "A"⟩] ⟨2, "B"⟩ ⟨"t", "again", none⟩)]

def aftermath : List Event :=
  [.drop ⟨3, "C"⟩, .sweep, .call (.record [⟨2, "B"⟩] ⟨1, "A"⟩ ⟨"u", "later", none⟩)]

theorem violation_evidence_quarrel :
    ∃ s as t out v, (start 1).run quarrel = some (s, as) ∧
      s.step (.call (.record [⟨3, "C"⟩, ⟨2, "B"⟩] ⟨1, "A"⟩ ⟨"u", "second", none⟩)) =
        some (t, .recorded out) ∧
      v ∈ out.violations ∧ v.established.older = v.conflicting.younger ∧
      ∃ u bs, t.run aftermath = some (u, bs) ∧
        u.step (.call (.witness ⟨2, "B"⟩ ⟨1, "A"⟩)) = some (u, .witness (some v.conflicting)) := by
  have hrun : ((start 1).run quarrel).any (fun r =>
      (r.1.step (.call (.record [⟨3, "C"⟩, ⟨2, "B"⟩] ⟨1, "A"⟩ ⟨"u", "second", none⟩))).any fun q =>
        decide (Pair.of 2 1 ∈ q.2.reports) && (q.1.run aftermath).any fun z =>
          z.1.population.has ⟨1, "A"⟩ && z.1.population.has ⟨2, "B"⟩) = true := by
    decide +kernel
  obtain ⟨⟨s, as⟩, hs, hrest⟩ := (Option.any_eq_true _ _).mp hrun
  obtain ⟨⟨t, y⟩, ht, hrest⟩ := (Option.any_eq_true _ _).mp hrest
  obtain ⟨hfound, hlater⟩ := (Bool.and_eq_true _ _).mp hrest
  obtain ⟨⟨u, bs⟩, hu, hboth⟩ := (Option.any_eq_true _ _).mp hlater
  obtain ⟨hA, hB⟩ := (Bool.and_eq_true _ _).mp hboth
  obtain ⟨out, rfl, v, hv, hpair⟩ := Answer.mem_reports (of_decide_eq_true hfound)
  obtain ⟨⟨hyounger, hheld, -⟩, ⟨hmirror, -⟩, -, -, hkeep⟩ := violation_evidence hs ht hv
  have hold : v.conflicting.older = ⟨2, "B"⟩ := by
    rw [Violation.pair, hyounger] at hpair
    simp only [List.mem_cons, List.not_mem_nil, or_false] at hheld
    rcases hheld with hC | hB
    · rw [hC] at hpair
      exact absurd hpair (by decide)
    · exact hB
  have hstay := (hkeep aftermath u bs hu (by rw [hold]; exact hB) hA).1
  rw [hold] at hstay
  exact ⟨s, as, t, out, v, hs, ht, hv, hmirror, u, bs, hu, hstay⟩

end World

end LockDiscipline.Order
