import LockDiscipline.Proofs.Order.World

namespace LockDiscipline.Order

/-- The acquisition that an event records, with the classifiers held meanwhile. -/
def Event.record? : Event → Option (List Classifier × Classifier)
  | .call (.record older younger _) => some (older, younger)
  | _ => none

def records (es : List Event) : List (List Classifier × Classifier) := es.filterMap Event.record?

/-- Whether the second classifier was recorded while the first one was held. -/
def Shown (es : List Event) (a b : ClassifierId) : Prop :=
  ∃ r ∈ records es, r.2.id = b ∧ ∃ o ∈ r.1, o.id = a

/-- Whether both orders were recorded. -/
def Opposed (es : List Event) (a b : ClassifierId) : Prop := Shown es a b ∧ Shown es b a

/-- The pairs that an answer reports. -/
def Answer.reports : Answer → List Pair
  | .recorded o => o.violations.map (·.pair)
  | _ => []

def reports (as : List Answer) : List Pair := as.flatMap Answer.reports

/-- Only a record reports a pair. -/
theorem Answer.mem_reports {x : Answer} {p : Pair} (h : p ∈ x.reports) :
    ∃ out, x = .recorded out ∧ ∃ v ∈ out.violations, v.pair = p := by
  cases x with
  | recorded out => exact ⟨out, rfl, List.mem_map.1 h⟩
  | done | missing | decided | witness | cycles | swept => cases h

theorem reports_record (alive : ClassifierId → Bool) (g : Graph) (older : List Classifier)
    (younger : Classifier) (context : Context) :
    (g.perform alive (.record older younger context)).2.reports =
      (g.insertAll older younger context).2.violations.map (·.pair) := by
  rw [← (Graph.record_outcome alive g older younger context).2]
  rfl

theorem shown_append {es fs : List Event} {a b : ClassifierId} :
    Shown (es ++ fs) a b ↔ Shown es a b ∨ Shown fs a b := by
  simp [Shown, records, or_and_right, exists_or]

theorem shown_of_perm {es fs : List Event} (h : (records es).Perm (records fs))
    {a b : ClassifierId} : Shown es a b ↔ Shown fs a b := by
  unfold Shown
  simp only [h.mem_iff]

theorem shown_record {older : List Classifier} {younger : Classifier} {context : Context}
    {a b : ClassifierId} :
    Shown [.call (.record older younger context)] a b ↔
      younger.id = b ∧ ∃ o ∈ older, o.id = a := by
  simp [Shown, records, Event.record?]

theorem not_shown_of_record? {e : Event} (h : e.record? = none) {a b : ClassifierId} :
    ¬ Shown [e] a b := by
  simp [Shown, records, h]

namespace World

variable {w v : World} {e : Event} {x : Answer}

/-- What one event does to what is known about two classifiers that are not dead afterwards. -/
structure Effect (w : World) (e : Event) (v : World) (x : Answer) : Prop where
  dead : ∀ a, a ∉ v.population.dead → a ∉ w.population.dead
  edge : ∀ a b, a ≠ b → a ∉ v.population.dead → b ∉ v.population.dead →
    (v.graph.hasEdge a b = true ↔ w.graph.hasEdge a b = true ∨ Shown [e] a b)
  reports : ∀ a b, a ≠ b → a ∉ v.population.dead → b ∉ v.population.dead →
    x.reports.count (Pair.of a b) =
      if v.graph.isKnown a b = true ∧ w.graph.isKnown a b = false then 1 else 0

/-- An event that records nothing and leaves the graph as it is, but for the dead. -/
theorem Effect.of_agree (hw : w.Sound) (hv : v.Sound) (hx : x.reports = [])
    (he : e.record? = none) (hdead : ∀ a, a ∉ v.population.dead → a ∉ w.population.dead)
    (hagree : v.population.Agree v.graph w.graph) : Effect w e v x := by
  refine ⟨hdead, ?_, ?_⟩
  · intro a b _ ha hb
    rw [hagree.hasEdge ha hb, or_iff_left (not_shown_of_record? he)]
  · intro a b _ ha hb
    rw [hx, hagree.isKnown hv.intact hw.intact ha hb, if_neg (by simp), List.count_nil]

theorem Sound.record_effect (hw : w.Sound) {older : List Classifier} {younger : Classifier}
    {context : Context} (h : w.step (.call (.record older younger context)) = some (v, x)) :
    Effect w (.call (.record older younger context)) v x := by
  have hv := hw.step h
  obtain ⟨hq, rfl, rfl⟩ := step_call h
  have hborn : ∀ c ∈ younger :: older, c ∈ w.population.born :=
    fun c hc => (Population.has_iff.1 (hq c hc)).1
  have ho : ∀ o ∈ older, o ∈ w.population.born := fun o ho => hborn o (by simp [ho])
  have hagree := (hw.record context (hborn younger (by simp)) ho).2
  have hs := Graph.recorded_insertAll w.graph older younger context
  have hin := hw.intact.insertAll older younger context
  refine ⟨fun a ha => ha, ?_, ?_⟩
  · intro a b hab ha hb
    have hsame := hagree.hasEdge ha hb
    change (w.graph.record _ older younger context).1.hasEdge a b = true ↔ _
    rw [hsame, hs.hasEdge_eq_true, shown_record]
    constructor
    · rintro (h | ⟨hb, -, ho⟩)
      · exact Or.inl h
      · exact Or.inr ⟨hb.symm, ho⟩
    · rintro (h | ⟨hb, ho⟩)
      · exact Or.inl h
      · exact Or.inr ⟨hb.symm, by rw [hb]; exact hab, ho⟩
  · intro a b hab ha hb
    have hknown := hagree.isKnown hv.intact hin ha hb
    rw [reports_record, (Graph.reported_nodup hs).count]
    refine if_congr ?_ rfl rfl
    rw [Graph.mem_reported hs, ← hknown]
    rfl

theorem Sound.effect (hw : w.Sound) (h : w.step e = some (v, x)) : Effect w e v x := by
  have hv := hw.step h
  cases e with
  | create c =>
    obtain ⟨p, hp, hvx⟩ := Option.map_eq_some_iff.1 h
    cases hvx
    obtain ⟨-, rfl⟩ := Population.create_eq_some_iff.1 hp
    exact .of_agree hw hv rfl rfl (fun a ha => ha) (.refl _ _)
  | drop c =>
    obtain ⟨p, hp, hvx⟩ := Option.map_eq_some_iff.1 h
    cases hvx
    obtain ⟨-, rfl⟩ := Population.drop_eq_some_iff.1 hp
    exact .of_agree hw hv rfl rfl (fun a ha hw => ha (List.mem_cons_of_mem _ hw)) (.refl _ _)
  | call q =>
    cases q with
    | record older younger context => exact hw.record_effect h
    | missing | hasEdge | witness | isKnown | cycles =>
      obtain ⟨-, rfl, rfl⟩ := step_call h
      exact .of_agree hw hv rfl rfl (fun a ha => ha) (.refl _ _)
  | sweep =>
    cases h
    exact .of_agree hw hv rfl rfl (fun a ha => ha) hw.agree_sweep

/-- What a graph and its answers so far have to do with the events so far. -/
structure Faithful (es : List Event) (w : World) (as : List Answer) : Prop where
  sound : w.Sound
  length : as.length = es.length
  edge : ∀ a b, a ≠ b → a ∉ w.population.dead → b ∉ w.population.dead →
    (w.graph.hasEdge a b = true ↔ Shown es a b)
  count : ∀ a b, a ≠ b → a ∉ w.population.dead → b ∉ w.population.dead →
    (reports as).count (Pair.of a b) = if w.graph.isKnown a b = true then 1 else 0
  closing : ∀ a b, a ≠ b → a ∉ w.population.dead → b ∉ w.population.dead →
    ∀ n x, as[n]? = some x →
      (Pair.of a b ∈ x.reports ↔ Opposed (es.take (n + 1)) a b ∧ ¬ Opposed (es.take n) a b)

namespace Faithful

variable {es : List Event} {as : List Answer}

theorem known (h : Faithful es w as) {a b : ClassifierId} (hab : a ≠ b)
    (ha : a ∉ w.population.dead) (hb : b ∉ w.population.dead) :
    w.graph.isKnown a b = true ↔ Opposed es a b := by
  rw [h.sound.intact.known, h.edge a b hab ha hb, h.edge b a hab.symm hb ha]
  exact Iff.rfl

theorem start (every : Nat) : Faithful [] (.start every) [] := by
  have hs := sound_start every
  refine ⟨hs, rfl, ?_, ?_, ?_⟩
  · intro a b _ _ _
    simp [World.start, Graph.empty, Graph.hasEdge, Shown, records]
  · intro a b _ _ _
    simp [World.start, Graph.empty, Graph.isKnown, LockDiscipline.Order.reports]
  · intro a b _ _ _ n x h
    cases h

theorem next (h : Faithful es w as) (hstep : w.step e = some (v, x)) :
    Faithful (es ++ [e]) v (as ++ [x]) := by
  have hv := h.sound.step hstep
  have heff := h.sound.effect hstep
  have hedge : ∀ a b, a ≠ b → a ∉ v.population.dead → b ∉ v.population.dead →
      (v.graph.hasEdge a b = true ↔ Shown (es ++ [e]) a b) := by
    intro a b hab ha hb
    rw [heff.edge a b hab ha hb, h.edge a b hab (heff.dead a ha) (heff.dead b hb), shown_append]
  have hknown : ∀ a b, a ≠ b → a ∉ v.population.dead → b ∉ v.population.dead →
      (v.graph.isKnown a b = true ↔ Opposed (es ++ [e]) a b) := by
    intro a b hab ha hb
    rw [hv.intact.known, hedge a b hab ha hb, hedge b a hab.symm hb ha]
    exact Iff.rfl
  have hgrows : ∀ a b, Opposed es a b → Opposed (es ++ [e]) a b := by
    rintro a b ⟨hab, hba⟩
    exact ⟨shown_append.2 (Or.inl hab), shown_append.2 (Or.inl hba)⟩
  refine ⟨hv, by simp [h.length], hedge, ?_, ?_⟩
  · intro a b hab ha hb
    have hold := h.known hab (heff.dead a ha) (heff.dead b hb)
    have hnew := hknown a b hab ha hb
    have hc := h.count a b hab (heff.dead a ha) (heff.dead b hb)
    have hr := heff.reports a b hab ha hb
    have hall : LockDiscipline.Order.reports (as ++ [x]) =
        LockDiscipline.Order.reports as ++ x.reports := by
      simp [LockDiscipline.Order.reports]
    rw [hall, List.count_append, hc, hr]
    by_cases hk : w.graph.isKnown a b = true
    · have hk' : v.graph.isKnown a b = true := hnew.2 (hgrows a b (hold.1 hk))
      simp [hk, hk']
    · simp [hk]
  · intro a b hab ha hb n y hy
    rcases Nat.lt_or_ge n as.length with hn | hn
    · -- an earlier answer, judged by the events up to it
      rw [List.getElem?_append_left hn] at hy
      have hlen := h.length
      rw [List.take_append_of_le_length (by omega), List.take_append_of_le_length (by omega)]
      exact h.closing a b hab (heff.dead a ha) (heff.dead b hb) n y hy
    · rw [List.getElem?_append_right hn] at hy
      have hn' : n = as.length := by
        by_contra hne
        rw [List.getElem?_eq_none (by simp; omega)] at hy
        cases hy
      subst hn'
      rw [Nat.sub_self] at hy
      cases hy
      have hold := h.known hab (heff.dead a ha) (heff.dead b hb)
      have hnew := hknown a b hab ha hb
      have hr := heff.reports a b hab ha hb
      rw [h.length, List.take_of_length_le (by simp), List.take_left, ← List.count_pos_iff, hr,
        ← hold, ← hnew]
      cases w.graph.isKnown a b <;> cases v.graph.isKnown a b <;> simp

end Faithful

theorem faithful_run {every : Nat} {es : List Event} {as : List Answer}
    (h : (start every).run es = some (w, as)) : Faithful es w as := by
  induction es using List.reverseRecOn generalizing w as with
  | nil =>
    cases h
    exact .start every
  | append_singleton es e ih =>
    obtain ⟨u, bs, a, hu, hstep, rfl⟩ := run_concat h
    exact (ih hu).next hstep

/-- For two live classifiers: an edge is there iff its order was recorded; the pair is known iff
both orders were; it was reported once if so and never otherwise, namely by the call that brought
the second order; and none of this depends on when which acquisition was recorded. -/
theorem detection_exact {every : Nat} {es : List Event} {as : List Answer}
    (h : (start every).run es = some (w, as)) {a b : Classifier}
    (ha : w.population.has a = true) (hb : w.population.has b = true) (hab : a.id ≠ b.id) :
    (w.graph.hasEdge a.id b.id = true ↔ Shown es a.id b.id) ∧
    (w.graph.isKnown a.id b.id = true ↔ Opposed es a.id b.id) ∧
    (Opposed es a.id b.id → (reports as).count (Pair.of a.id b.id) = 1) ∧
    (¬ Opposed es a.id b.id → (reports as).count (Pair.of a.id b.id) = 0) ∧
    (∀ n x, as[n]? = some x → (Pair.of a.id b.id ∈ x.reports ↔
      Opposed (es.take (n + 1)) a.id b.id ∧ ¬ Opposed (es.take n) a.id b.id)) ∧
    (∀ other fs v bs, (start other).run fs = some (v, bs) → (records fs).Perm (records es) →
      v.population.has a = true → v.population.has b = true →
        v.graph.hasEdge a.id b.id = w.graph.hasEdge a.id b.id ∧
        v.graph.isKnown a.id b.id = w.graph.isKnown a.id b.id ∧
        (reports bs).count (Pair.of a.id b.id) = (reports as).count (Pair.of a.id b.id)) := by
  have hw := faithful_run h
  have hda := (Population.has_iff.1 ha).2
  have hdb := (Population.has_iff.1 hb).2
  have hknown := hw.known hab hda hdb
  have hcount := hw.count _ _ hab hda hdb
  refine ⟨hw.edge _ _ hab hda hdb, hknown, ?_, ?_, hw.closing _ _ hab hda hdb, ?_⟩
  · intro hopp
    rw [hcount, if_pos (hknown.2 hopp)]
  · intro hopp
    rw [hcount, if_neg (mt hknown.1 hopp)]
  · intro other fs v bs hrun hperm hva hvb
    have hv := faithful_run hrun
    have hda' := (Population.has_iff.1 hva).2
    have hdb' := (Population.has_iff.1 hvb).2
    have hedge : ∀ {c d}, Shown fs c d ↔ Shown es c d := shown_of_perm hperm
    have hsame : v.graph.isKnown a.id b.id = w.graph.isKnown a.id b.id := by
      rw [Bool.eq_iff_iff, hv.known hab hda' hdb', hknown, Opposed, Opposed, hedge, hedge]
    refine ⟨?_, hsame, ?_⟩
    · rw [Bool.eq_iff_iff, hv.edge _ _ hab hda' hdb', hw.edge _ _ hab hda hdb, hedge]
    · rw [hv.count _ _ hab hda' hdb', hcount, hsame]

/-- Two classifiers taken in both orders, with a third one that dies and is swept in between. -/
def crossing : List Event :=
  [.create ⟨1, "A"⟩, .create ⟨2, "B"⟩, .create ⟨3, "C"⟩,
    .call (.record [⟨1, "A"⟩, ⟨3, "C"⟩] ⟨2, "B"⟩ ⟨"t", "first", none⟩), .drop ⟨3, "C"⟩, .sweep,
    .call (.record [⟨2, "B"⟩, ⟨2, "B"⟩, ⟨1, "A"⟩] ⟨1, "A"⟩ ⟨"u", "second", none⟩)]

theorem detection_exact_crossing :
    ∃ w as, (start 1).run crossing = some (w, as) ∧
      w.population.has ⟨1, "A"⟩ = true ∧ w.population.has ⟨2, "B"⟩ = true ∧
      (1 : ClassifierId) ≠ 2 ∧ w.graph.isKnown 1 2 = true ∧ (reports as).count (Pair.of 1 2) = 1 := by
  have hrun : ((start 1).run crossing).any
      (fun r => r.1.population.has ⟨1, "A"⟩ && r.1.population.has ⟨2, "B"⟩) = true := by
    decide +kernel
  obtain ⟨⟨w, as⟩, h, hlive⟩ := (Option.any_eq_true _ _).mp hrun
  obtain ⟨ha, hb⟩ := (Bool.and_eq_true _ _).mp hlive
  have hne : (1 : ClassifierId) ≠ 2 := by decide
  have hopp : Opposed crossing 1 2 := by
    unfold Opposed Shown
    decide
  have hexact := detection_exact h ha hb hne
  exact ⟨w, as, h, ha, hb, hne, hexact.2.1.2 hopp, hexact.2.2.1 hopp⟩

end World

end LockDiscipline.Order
