import LockDiscipline.Proofs.Watch.Sampled

namespace LockDiscipline.Watch

open LockDiscipline.Config LockDiscipline.Order LockDiscipline.Monitor LockDiscipline.Sampling

namespace Sampled

variable {s v : Sampled} {e : Event} {es : List Event} {p q : Classifier} {a b : String}

/-- The graph has the edge, unless one of the two has lost its last handle. -/
def Ordered (s : Sampled) (p q : Classifier) : Prop :=
  p.id ∉ s.population.dead → q.id ∉ s.population.dead → s.watched.graph.hasEdge p.id q.id = true

/-- The recorder has reported the pair of the classifiers with these names. -/
def Reported (s : Sampled) (a b : String) : Prop :=
  ∃ p ∈ s.population.born, ∃ q ∈ s.population.born, p.name = a ∧ q.name = b ∧
    Pair.of p.id q.id ∈ s.violations.map (·.pair)

theorem born_step (h : s.step e = some v) (hp : p ∈ s.population.born) : p ∈ v.population.born := by
  cases made_step h with
  | create hn =>
    obtain ⟨-, rfl⟩ := Population.create_eq_some_iff.1 hn
    exact List.mem_cons_of_mem _ hp
  | drop hfree hn =>
    obtain ⟨-, rfl⟩ := Population.drop_eq_some_iff.1 hn
    exact hp
  | sample | move => exact hp

theorem Ordered.step (ho : s.Ordered p q) (hs : s.Sound) (h : s.step e = some v)
    (hp : p ∈ s.population.born) (hq : q ∈ s.population.born) : v.Ordered p q := by
  intro hpv hqv
  cases made_step h with
  | create hn =>
    obtain ⟨-, rfl⟩ := Population.create_eq_some_iff.1 hn
    exact ho hpv hqv
  | drop hfree hn =>
    obtain ⟨-, rfl⟩ := Population.drop_eq_some_iff.1 hn
    exact ho (fun hdead => hpv (List.mem_cons_of_mem _ hdead))
      fun hdead => hqv (List.mem_cons_of_mem _ hdead)
  | sample => exact ho hpv hqv
  | @move e m w hm hw =>
    have hbefore := ho hpv hqv
    rcases hs.realm_move hm hw with hsame | ⟨d, x, -, hdeed⟩
    · unfold Watched.graph at hbefore ⊢
      rw [hsame]
      exact hbefore
    · have hlives : ∀ c ∈ s.population.born, c.id ∉ s.population.dead →
          Realm.isAlive ⟨s.population, w.detector⟩ c.id = true := fun c hc hdead =>
        Realm.isAlive_of_has (w := ⟨s.population, w.detector⟩) (Population.has_iff.2 ⟨hc, hdead⟩)
      exact hs.lone.sound.hasEdge_step hdeed hbefore (hlives p hp hpv) (hlives q hq hqv)

theorem history_step (hs : s.Sound) (h : s.step e = some v) : s.violations <+: v.violations := by
  cases made_step h with
  | create | drop | sample => exact List.prefix_refl _
  | @move e m w hm hw =>
    rcases hs.realm_move hm hw with hsame | ⟨d, x, -, hdeed⟩
    · have hviolations : violations { s with watched := w } = s.violations := by
        unfold violations realm
        rw [hsame]
      exact ⟨[], by rw [List.append_nil, hviolations]⟩
    · exact hs.lone.history_step hdeed

theorem Reported.step (hr : s.Reported a b) (hs : s.Sound) (h : s.step e = some v) :
    v.Reported a b := by
  obtain ⟨p, hp, q, hq, hpa, hqb, hmem⟩ := hr
  exact ⟨p, born_step h hp, q, born_step h hq, hpa, hqb,
    ((history_step hs h).map _).subset hmem⟩

/-- A snapshot shows the ordering for a thread whose local storage is gone. -/
def Bare (s : Sampled) (f : NameFilter) (o : List String) : Prop :=
  ∃ t, s.watched.isGone t = true ∧ o = SampleSet.reduced f ((s.heldBy t).reverse.map (·.name))

/-- What a snapshot nests has its edge, unless a thread came back to it or has no local storage. -/
theorem Sound.nested (hs : s.Sound) {f : NameFilter} {o : List String}
    (hshown : SampleSet.Shows f (s.watched.monitors.runtimeAt 0).snapshot o)
    (h : (a, b) ∈ nestings o) :
    Returns o a b ∨ s.Bare f o ∨ ∃ p q, s.population.has p = true ∧ s.population.has q = true ∧
      p.name = a ∧ q.name = b ∧ s.Ordered p q := by
  obtain ⟨snapshot, hsnap, -, rfl⟩ := hshown
  obtain ⟨t, rfl⟩ := Runtime.exists_of_mem_snapshot (hs.handled.listed.runtimeAt 0) hsnap
  cases hgone : s.watched.isGone t with
  | true => exact Or.inr (Or.inl ⟨t, hgone, rfl⟩)
  | false =>
    obtain ⟨hab, hsub⟩ := mem_nestings.1 h
    have ha := accepts_of_mem_reduced (hsub.subset (by simp : a ∈ [b, a]))
    have hb := accepts_of_mem_reduced (hsub.subset (by simp : b ∈ [b, a]))
    have hin := hsub.trans (reduced_sublist f _)
    obtain ⟨q, p, hqp, rfl, rfl⟩ := pair_sublist_map hin
    have hpq : [p, q].Sublist (s.heldBy t) := by
      simpa [heldBy, Monitors.heldBy] using hqp.reverse
    have hhas : ∀ c ∈ s.heldBy t, s.population.has c = true := hs.handled.held t
    have hborn : ∀ c ∈ s.heldBy t, c ∈ s.population.born :=
      fun c hc => (Population.has_iff.1 (hhas c hc)).1
    have hp : p ∈ s.heldBy t := hpq.subset (by simp)
    have hq : q ∈ s.heldBy t := hpq.subset (by simp)
    have hids : p.id ≠ q.id := by
      intro hid
      exact hab (congrArg _ (hs.eq_of_id (hborn p hp) (hborn q hq) hid))
    rcases hs.lined.hasEdge hs.matched hgone
        (fun c hc d hd => hs.eq_of_id (hborn c hc) (hborn d hd)) hids hpq with hedge | hback
    · exact Or.inr (Or.inr ⟨p, q, hhas p hp, hhas q hq, rfl, rfl, fun _ _ => hedge⟩)
    · exact Or.inl (Or.inr (sublist_reduced hab.symm hb ha (hback.reverse.map _)))

/-- Two classifiers that live and have the edges of both orders were reported. -/
theorem Sound.reported (hs : s.Sound) (hp : s.population.has p = true)
    (hq : s.population.has q = true) (hpq : s.Ordered p q) (hqp : s.Ordered q p) :
    s.Reported p.name q.name := by
  obtain ⟨hpborn, hpdead⟩ := Population.has_iff.1 hp
  obtain ⟨hqborn, hqdead⟩ := Population.has_iff.1 hq
  have hintact := hs.lone.sound.intact 0
  exact ⟨p, hpborn, q, hqborn, rfl, rfl, hs.lone.known p.id q.id
    ((hintact.known p.id q.id).2 ⟨hpq hpdead hqdead, hqp hqdead hpdead⟩)⟩

/-- No two classifiers have the same name. -/
def Named (s : Sampled) : Prop :=
  ∀ c ∈ s.population.born, ∀ d ∈ s.population.born, c.name = d.name → c = d

def Backed (s : Sampled) (a b : String) : Prop :=
  ∃ p ∈ s.population.born, ∃ q ∈ s.population.born, p.name = a ∧ q.name = b ∧ s.Ordered p q

/-- The nestings that were sampled, as far as no thread came back, are ordered; and what was nested
both ways was reported. The orderings of `D` are left out. -/
structure Explained (D : List String → Prop) (s : Sampled) : Prop where
  backed : ∀ o ∈ s.samples.orderings, ∀ a b, (a, b) ∈ nestings o →
    Returns o a b ∨ D o ∨ s.Backed a b
  crossed : ∀ o ∈ s.samples.orderings, ∀ o' ∈ s.samples.orderings, ∀ a b, (a, b) ∈ nestings o →
    (b, a) ∈ nestings o' → (Returns o a b ∨ D o) ∨ (Returns o' a b ∨ D o') ∨ s.Reported a b

theorem Explained.mono {D E : List String → Prop} (hx : Explained D s) (h : ∀ o, D o → E o) :
    Explained E s :=
  ⟨fun o ho a b hab => (hx.backed o ho a b hab).imp_right (Or.imp_left (h o)),
    fun o ho o' ho' a b hab hba => (hx.crossed o ho o' ho' a b hab hba).imp (Or.imp_right (h o))
      (Or.imp_left (Or.imp_right (h o')))⟩

/-- With distinct names, two that have handles and were ordered both ways are reported. -/
theorem Sound.reported_of_backed (hs : s.Sound) (hn : s.Named) (hab : s.Backed a b)
    (hba : s.Backed b a) (hp : s.population.has p = true) (hq : s.population.has q = true)
    (ha : p.name = a) (hb : q.name = b) : s.Reported a b := by
  obtain ⟨hpborn, -⟩ := Population.has_iff.1 hp
  obtain ⟨hqborn, -⟩ := Population.has_iff.1 hq
  obtain ⟨c, hc, d, hd, hca, hdb, hcd⟩ := hab
  obtain ⟨d', hd', c', hc', hdb', hca', hdc⟩ := hba
  obtain rfl : c = p := hn c hc p hpborn (hca.trans ha.symm)
  obtain rfl : d = q := hn d hd q hqborn (hdb.trans hb.symm)
  obtain rfl : c' = c := hn c' hc' c hpborn (hca'.trans ha.symm)
  obtain rfl : d' = d := hn d' hd' d hqborn (hdb'.trans hb.symm)
  rw [← ha, ← hb]
  exact hs.reported hp hq hcd hdc

theorem Explained.sample {D : List String → Prop} (hx : Explained D s) (hs : s.Sound)
    (hn : s.Named) (f : NameFilter) (hbare : ∀ o, s.Bare f o → D o) :
    Explained D { s with
      samples := s.samples.recordRound f (s.watched.monitors.runtimeAt 0).snapshot } := by
  have hnested : ∀ o, SampleSet.Shows f (s.watched.monitors.runtimeAt 0).snapshot o →
      ∀ a b, (a, b) ∈ nestings o → (Returns o a b ∨ D o) ∨ ∃ p q, s.population.has p = true ∧
        s.population.has q = true ∧ p.name = a ∧ q.name = b ∧ s.Ordered p q := by
    intro o ho a b h
    rcases hs.nested ho h with hreturn | hgone | hedge
    · exact Or.inl (Or.inl hreturn)
    · exact Or.inl (Or.inr (hbare o hgone))
    · exact Or.inr hedge
  have hbacked : ∀ o, o ∈ s.samples.orderings ∨
      SampleSet.Shows f (s.watched.monitors.runtimeAt 0).snapshot o →
      ∀ a b, (a, b) ∈ nestings o → (Returns o a b ∨ D o) ∨ s.Backed a b := by
    rintro o (hold | hfresh) a b h
    · exact or_assoc.2 (hx.backed o hold a b h)
    · refine (hnested o hfresh a b h).imp_right ?_
      rintro ⟨p, q, hp, hq, ha, hb, hedge⟩
      exact ⟨p, (Population.has_iff.1 hp).1, q, (Population.has_iff.1 hq).1, ha, hb, hedge⟩
  refine ⟨fun o ho a b h =>
    or_assoc.1 (hbacked o (SampleSet.mem_orderings_recordRound.1 ho) a b h), ?_⟩
  intro o ho o' ho' a b h h'
  rw [SampleSet.mem_orderings_recordRound] at ho ho'
  rcases hbacked o ho a b h with hreturn | hab
  · exact Or.inl hreturn
  rcases hbacked o' ho' b a h' with hreturn | hba
  · exact Or.inr (Or.inl (hreturn.imp_left Returns.symm))
  -- if either ordering is new, it shows that both classifiers have handles now
  rcases ho with hold | hfresh
  · rcases ho' with hold' | hfresh'
    · exact hx.crossed o hold o' hold' a b h h'
    · rcases hnested o' hfresh' b a h' with hreturn | ⟨q, p, hq, hp, hb, ha, -⟩
      · exact Or.inr (Or.inl (hreturn.imp_left Returns.symm))
      · exact Or.inr (Or.inr (hs.reported_of_backed hn hab hba hp hq ha hb))
  · rcases hnested o hfresh a b h with hreturn | ⟨p, q, hp, hq, ha, hb, -⟩
    · exact Or.inl hreturn
    · exact Or.inr (Or.inr (hs.reported_of_backed hn hab hba hp hq ha hb))

theorem Backed.step (hb : s.Backed a b) (hs : s.Sound) (h : s.step e = some v) : v.Backed a b := by
  obtain ⟨p, hp, q, hq, hpa, hqb, hpq⟩ := hb
  exact ⟨p, born_step h hp, q, born_step h hq, hpa, hqb, hpq.step hs h hp hq⟩

/-- A sample shows the ordering for a thread whose local storage is gone. -/
def Event.Unseen (s : Sampled) (o : List String) : Event → Prop
  | .sample f => s.Bare f o
  | _ => False

/-- In a run some sample shows the ordering for a thread whose local storage is gone by then. -/
def Unseen (s : Sampled) (o : List String) : List Event → Prop
  | [] => False
  | e :: es => e.Unseen s o ∨ ∃ v ∈ s.step e, Unseen v o es

theorem Explained.step {D : List String → Prop} (hx : Explained D s) (hs : s.Sound) (hn : s.Named)
    (h : s.step e = some v) : Explained (fun o => D o ∨ e.Unseen s o) v := by
  have hx := hx.mono (E := fun o => D o ∨ e.Unseen s o) fun o => Or.inl
  have hsame : v.samples = s.samples → Explained (fun o => D o ∨ e.Unseen s o) v := by
    intro hsamples
    constructor
    · intro o ho a b hab
      rw [hsamples] at ho
      exact (hx.backed o ho a b hab).imp_right (Or.imp_right fun hb => hb.step hs h)
    · intro o ho o' ho' a b hab hba
      rw [hsamples] at ho ho'
      exact (hx.crossed o ho o' ho' a b hab hba).imp_right (Or.imp_right fun hr => hr.step hs h)
  cases made_step h with
  | create | drop | move => exact hsame rfl
  | sample => exact hx.sample hs hn _ fun o => Or.inr

theorem explained_start (settings : RecorderSettings) :
    Explained (fun _ => False) (start settings) := by
  constructor
  · intro o ho
    exact absurd ho Std.ExtTreeSet.not_mem_empty
  · intro o ho
    exact absurd ho Std.ExtTreeSet.not_mem_empty

theorem Named.of_run (hn : v.Named) (h : s.run es = some v) : s.Named := by
  have hborn : ∀ c ∈ s.population.born, c ∈ v.population.born :=
    run_induction (P := fun u => ∀ c ∈ s.population.born, c ∈ u.population.born) (fun _ hc => hc)
      (fun u e u' hu hstep c hc => born_step hstep (hu c hc)) h
  exact fun c hc d hd => hn c (hborn c hc) d (hborn d hd)

theorem Explained.run {D : List String → Prop} (hx : Explained D s) (hs : s.Sound)
    (hn : v.Named) (h : s.run es = some v) :
    v.Sound ∧ Explained (fun o => D o ∨ Unseen s o es) v := by
  induction es generalizing s D with
  | nil =>
    cases h
    exact ⟨hs, hx.mono fun o => Or.inl⟩
  | cons e es ih =>
    obtain ⟨u, hu, hrest⟩ := Option.bind_eq_some_iff.1 h
    obtain ⟨hv, hexplained⟩ := ih (hx.step hs (hn.of_run h) hu) (hs.step hu) hrest
    refine ⟨hv, hexplained.mono ?_⟩
    rintro o ((hD | hnow) | hlater)
    · exact Or.inl hD
    · exact Or.inr (Or.inl hnow)
    · exact Or.inr (Or.inr ⟨u, hu, hlater⟩)

/-- Nothing is unseen where no thread loses its local storage. -/
theorem exists_teardown_of_unseen {o : List String} (h : Unseen s o es) :
    ∃ t, s.watched.isGone t = true ∨ .teardown t ∈ es := by
  induction es generalizing s with
  | nil => cases h
  | cons e es ih =>
    rcases h with hnow | ⟨v, hv, hlater⟩
    · cases e with
      | sample f =>
        obtain ⟨t, ht, -⟩ := hnow
        exact ⟨t, Or.inl ht⟩
      | _ => cases hnow
    · obtain ⟨t, ht⟩ := ih hlater
      refine ⟨t, ?_⟩
      rw [List.mem_cons, ← or_assoc]
      refine ht.imp_left fun hgone => ?_
      cases made_step hv with
      | create | drop | sample => exact Or.inl hgone
      | @move e m w hm hw =>
        refine ((Watched.isGone_step hw).1 hgone).imp_right ?_
        rintro rfl
        cases e with
        | teardown u =>
          cases hm
          rfl
        | begin t c site =>
          rw [Event.move?, Option.ite_none_right_eq_some] at hm
          cases hm.2
        | _ => cases hm

theorem not_unseen {settings : RecorderSettings} {o : List String}
    (hes : ∀ t, .teardown t ∉ es) : ¬ Unseen (start settings) o es := by
  intro h
  obtain ⟨t, ht | ht⟩ := exists_teardown_of_unseen h
  · cases ht
  · exact hes t ht

variable {lt : ClassifierId → ClassifierId → Prop}

/-- What a thread does not own yet it enters above all that it owns. -/
def Event.Upwards (lt : ClassifierId → ClassifierId → Prop) (s : Sampled) : Event → Prop
  | .begin t c _ => s.watched.monitors.owns t c.id = false → ∀ o ∈ s.heldBy t, lt o.id c.id
  | _ => True

/-- Every event of a run is upwards when its turn comes. -/
def Upwards (lt : ClassifierId → ClassifierId → Prop) (s : Sampled) : List Event → Prop
  | [] => True
  | e :: es => e.Upwards lt s ∧ ∀ v ∈ s.step e, Upwards lt v es

instance Event.decidableUpwards [DecidableRel lt] (s : Sampled) (e : Event) :
    Decidable (e.Upwards lt s) :=
  match e with
  | .begin t c _ => inferInstanceAs (Decidable
      (s.watched.monitors.owns t c.id = false → ∀ o ∈ s.heldBy t, lt o.id c.id))
  | .create _ | .drop _ | .acquire .. | .leave .. | .sweep | .teardown _ | .sample _ =>
    inferInstanceAs (Decidable True)

instance decidableUpwards [DecidableRel lt] :
    (s : Sampled) → (es : List Event) → Decidable (Upwards lt s es)
  | _, [] => inferInstanceAs (Decidable True)
  | s, e :: es =>
    have (v : Sampled) : Decidable (Upwards lt v es) := decidableUpwards v es
    inferInstanceAs (Decidable (_ ∧ ∀ v ∈ s.step e, Upwards lt v es))

theorem calm_step (hasymm : ∀ a b, lt a b → ¬ lt b a) (hs : s.Sound)
    (hcalm : s.watched.detector.Calm lt) (hup : e.Upwards lt s) (h : s.step e = some v) :
    v.watched.detector.Calm lt := by
  cases made_step h with
  | create | drop | sample => exact hcalm
  | @move e m w hm hw =>
    cases e with
    | begin t c site =>
      rw [Event.move?, Option.ite_none_right_eq_some, Option.some_inj] at hm
      obtain ⟨-, rfl⟩ := hm
      obtain ⟨-, rfl⟩ := Watched.step_begin hw
      have hact : (Detector.Act.begin s.population.isAlive (s.watched.monitors.owns t) t 0 c
          site).Upwards lt s.watched.detector := by
        intro hagain o ho howned _
        have hgone : s.watched.isGone t = false := by
          rw [← Bool.not_eq_true]
          intro hgone
          have hbare : s.watched.detector.stackOf t 0 = [] := hs.matched.mirrored.bare t hgone
          rw [hbare] at ho
          cases ho
        have hnew : s.watched.monitors.owns t c.id = false := by
          have hfresh := hs.matched.isFresh t c
          rw [hs.matched.sole.isFresh, hagain, ← Watched.isGone, hgone] at hfresh
          simpa using hfresh
        rw [← hs.matched.mirrored.isIn_heldBy, Classifier.isIn_iff] at howned
        obtain ⟨d, hd, hid⟩ := howned
        rw [← hid]
        exact hup hnew d hd
      show (s.watched.begin s.population.isAlive t c site).detector.Calm lt
      rw [(Watched.begin_eq _ _ _ _ _).2.1]
      exact (hcalm.begin hasymm hact).1
    | acquire t label =>
      cases hm
      obtain ⟨c, -, -, hdetector, -⟩ := Watched.acquire_eq_some hw
      show w.detector.Calm lt
      rw [hdetector]
      exact hcalm
    | leave t label =>
      cases hm
      obtain ⟨-, rfl⟩ := Watched.step_drop hw
      exact hcalm
    | sweep =>
      cases hm
      cases hw
      exact hcalm.setGraph 0 ((hcalm.graphs 0).sweep _)
    | teardown t =>
      cases hm
      obtain ⟨-, rfl⟩ := Watched.step_teardown hw
      exact ⟨hcalm.graphs, hcalm.history⟩
    | create | drop | sample => cases hm

theorem calm_run (hasymm : ∀ a b, lt a b → ¬ lt b a) (hs : s.Sound)
    (hcalm : s.watched.detector.Calm lt) (hup : Upwards lt s es) (h : s.run es = some v) :
    v.watched.detector.Calm lt := by
  induction es generalizing s with
  | nil =>
    cases h
    exact hcalm
  | cons e es ih =>
    obtain ⟨u, hu, hrest⟩ := Option.bind_eq_some_iff.1 h
    exact ih (hs.step hu) (calm_step hasymm hs hcalm hup.1 hu) (hup.2 u hu) hrest

theorem calm_start (settings : RecorderSettings) : (start settings).watched.detector.Calm lt := by
  constructor
  · intro i
    cases i <;> exact Graph.ordered_empty _
  · intro q hq
    rw [List.mem_singleton.1 hq]

theorem violations_eq_nil (hs : s.Sound) (hcalm : s.watched.detector.Calm lt) :
    s.violations = [] := by
  obtain ⟨q, hq, -⟩ := hs.lone.recorder
  have hnone := hcalm.history q (by
    have hmem : q ∈ s.realm.detector.recorders := by simp [hq]
    exact hmem)
  unfold violations Realm.history Detector.historyOf
  rw [hq]
  exact hnone

/-- With distinct names, every conflict in the samples is a pair that the recorder has reported, or
shows a thread that came back to what it owned around something else, or nests the two for a thread
whose local storage was gone; and each such return is a conflict. Where all threads follow one order
nothing is reported, so that every conflict is such a return or such a nesting. -/
theorem conflicts_explained {settings : RecorderSettings} (h : (start settings).run es = some s)
    (hnames : ∀ c ∈ s.population.born, ∀ d ∈ s.population.born, c.name = d.name → c = d) :
    (∀ a b, (a, b) ∈ s.samples.conflicts → s.Reported a b ∨ ∃ o ∈ s.samples.orderings,
      Returns o a b ∨ ((a, b) ∈ nestings o ∨ (b, a) ∈ nestings o) ∧ Unseen (start settings) o es) ∧
    (∀ a b, a < b → (∃ o ∈ s.samples.orderings, Returns o a b) → (a, b) ∈ s.samples.conflicts) ∧
    ∀ lt : ClassifierId → ClassifierId → Prop, (∀ a, ¬ lt a a) →
      (∀ a b c, lt a b → lt b c → lt a c) → Upwards lt (start settings) es →
        s.violations = [] ∧ ∀ a b, (a, b) ∈ s.samples.conflicts → ∃ o ∈ s.samples.orderings,
          Returns o a b ∨ ((a, b) ∈ nestings o ∨ (b, a) ∈ nestings o) ∧
            Unseen (start settings) o es := by
  obtain ⟨hsound, hx⟩ := (explained_start settings).run (sound_start settings) hnames h
  have hunseen : ∀ o, False ∨ Unseen (start settings) o es → Unseen (start settings) o es :=
    fun o h => h.resolve_left id
  have hconflict : ∀ a b, (a, b) ∈ s.samples.conflicts → s.Reported a b ∨
      ∃ o ∈ s.samples.orderings, Returns o a b ∨
        ((a, b) ∈ nestings o ∨ (b, a) ∈ nestings o) ∧ Unseen (start settings) o es := by
    intro a b hab
    obtain ⟨o, ho, o', ho', hforth, hback⟩ := SampleSet.exists_of_mem_conflicts hab
    rcases hx.crossed o ho o' ho' a b hforth hback with hreturn | hreturn | hreported
    · exact Or.inr ⟨o, ho, hreturn.imp_right fun hD => ⟨Or.inl hforth, hunseen o hD⟩⟩
    · exact Or.inr ⟨o', ho', hreturn.imp_right fun hD => ⟨Or.inr hback, hunseen o' hD⟩⟩
    · exact Or.inl hreported
  refine ⟨hconflict, ?_, ?_⟩
  · rintro a b hlt ⟨o, ho, hreturn⟩
    exact SampleSet.mem_conflicts_of_returns ho hlt hreturn
  · intro lt hirrefl htrans hup
    have hasymm : ∀ a b, lt a b → ¬ lt b a := fun a b hab hba => hirrefl a (htrans a b a hab hba)
    have hcalm := calm_run hasymm (sound_start settings) (calm_start settings) hup h
    have hnone := violations_eq_nil hsound hcalm
    refine ⟨hnone, fun a b hab => (hconflict a b hab).resolve_left ?_⟩
    rintro ⟨p, -, q, -, -, -, hmem⟩
    rw [hnone] at hmem
    cases hmem

/-- Two threads enter two locks in opposite orders, one after the other, and are sampled. -/
def opposed (t u : Thread) : List Event :=
  [.create ⟨1, "A"⟩, .create ⟨2, "B"⟩, .begin t ⟨1, "A"⟩ "first", .acquire t "outer",
    .begin t ⟨2, "B"⟩ "second", .acquire t "inner", .sample none, .leave t "outer",
    .leave t "inner", .sweep, .begin u ⟨2, "B"⟩ "third", .acquire u "outer",
    .begin u ⟨1, "A"⟩ "fourth", .acquire u "inner", .sample none]

/-- A thread enters two locks, and then the first one once more. -/
def comeback (t : Thread) : List Event :=
  [.create ⟨1, "A"⟩, .create ⟨2, "B"⟩, .begin t ⟨1, "A"⟩ "first", .acquire t "outer",
    .begin t ⟨2, "B"⟩ "second", .acquire t "middle", .begin t ⟨1, "A"⟩ "third",
    .acquire t "inner", .sample none]

theorem conflicts_explained_opposed :
    (∃ s, (start ⟨false, false, false, 1⟩).run (opposed ⟨1, "t"⟩ ⟨2, "u"⟩) = some s ∧ s.Named ∧
      ("A", "B") ∈ s.samples.conflicts ∧ s.Reported "A" "B") ∧
    ∃ s, (start ⟨false, false, false, 1⟩).run (comeback ⟨1, "t"⟩) = some s ∧ s.Named ∧
      ("A", "B") ∈ s.samples.conflicts ∧ s.violations = [] ∧
        ∃ o ∈ s.samples.orderings, Returns o "A" "B" := by
  constructor
  · have hrun : ((start ⟨false, false, false, 1⟩).run (opposed ⟨1, "t"⟩ ⟨2, "u"⟩)).any (fun s =>
        decide (∀ c ∈ s.population.born, ∀ d ∈ s.population.born, c.name = d.name → c = d) &&
          (decide (("A", "B") ∈ s.samples.conflicts) &&
            decide (∀ o ∈ s.samples.orderings.toList, ¬ Returns o "A" "B"))) = true := by
      decide +kernel
    obtain ⟨s, h, hrest⟩ := (Option.any_eq_true _ _).mp hrun
    simp only [Bool.and_eq_true, decide_eq_true_iff] at hrest
    obtain ⟨hnames, hconflict, hstraight⟩ := hrest
    obtain ⟨hexplained, -, -⟩ := conflicts_explained h hnames
    refine ⟨s, h, hnames, hconflict, (hexplained "A" "B" hconflict).resolve_right ?_⟩
    rintro ⟨o, ho, hreturn | ⟨-, hunseen⟩⟩
    · exact hstraight o (Std.ExtTreeSet.mem_toList.2 ho) hreturn
    · exact not_unseen (by simp [opposed]) hunseen
  · have hup : Upwards (· < ·) (start ⟨false, false, false, 1⟩) (comeback ⟨1, "t"⟩) := by decide +kernel
    have hrun : ((start ⟨false, false, false, 1⟩).run (comeback ⟨1, "t"⟩)).any (fun s =>
        decide (∀ c ∈ s.population.born, ∀ d ∈ s.population.born, c.name = d.name → c = d) &&
          decide (("A", "B") ∈ s.samples.conflicts)) = true := by
      decide +kernel
    obtain ⟨s, h, hrest⟩ := (Option.any_eq_true _ _).mp hrun
    simp only [Bool.and_eq_true, decide_eq_true_iff] at hrest
    obtain ⟨hnames, hconflict⟩ := hrest
    obtain ⟨-, -, hupwards⟩ := conflicts_explained h hnames
    obtain ⟨hnone, hreturns⟩ :=
      hupwards (· < ·) (fun _ => UInt64.lt_irrefl _) (fun _ _ _ => UInt64.lt_trans) hup
    obtain ⟨o, ho, hreturn⟩ := hreturns "A" "B" hconflict
    have hseen : ¬ Unseen (start ⟨false, false, false, 1⟩) o (comeback ⟨1, "t"⟩) :=
      not_unseen (by simp [comeback])
    exact ⟨s, h, hnames, hconflict, hnone, o, ho, hreturn.resolve_right fun h => hseen h.2⟩

/-- A conflict that no violation stands behind: there is only one thread, and it follows one
order. -/
theorem conflict_unreported :
    ∃ s, (start ⟨false, false, false, 1⟩).run (comeback ⟨1, "t"⟩) = some s ∧ s.Named ∧
      Upwards (· < ·) (start ⟨false, false, false, 1⟩) (comeback ⟨1, "t"⟩) ∧
      s.samples.conflicts = [("A", "B")] ∧ s.violations = [] ∧ ¬ s.Reported "A" "B" := by
  have hup : Upwards (· < ·) (start ⟨false, false, false, 1⟩) (comeback ⟨1, "t"⟩) := by decide +kernel
  have hrun : ((start ⟨false, false, false, 1⟩).run (comeback ⟨1, "t"⟩)).any (fun s =>
      decide (∀ c ∈ s.population.born, ∀ d ∈ s.population.born, c.name = d.name → c = d) &&
        (decide (s.samples.conflicts = [("A", "B")]) && decide (s.violations = []))) = true := by
    decide +kernel
  obtain ⟨s, h, hrest⟩ := (Option.any_eq_true _ _).mp hrun
  simp only [Bool.and_eq_true, decide_eq_true_iff] at hrest
  obtain ⟨hnames, hconflict, hnone⟩ := hrest
  refine ⟨s, h, hnames, hup, hconflict, hnone, ?_⟩
  rintro ⟨p, -, q, -, -, -, hmem⟩
  rw [hnone] at hmem
  cases hmem

end Sampled

end LockDiscipline.Watch
