import LockDiscipline.Proofs.Order.Groups
import LockDiscipline.Proofs.Order.Representation
import Mathlib.Data.Set.Card

namespace LockDiscipline.Order

namespace Graph

variable {g : Graph} {cs order : List Classifier} {a b : Classifier} {alive : ClassifierId → Bool}

/-- Every order between two classifiers of the row goes forward in it. -/
def Forward (g : Graph) (order : List Classifier) : Prop :=
  ∀ (i j : Nat) (a b : Classifier), order[i]? = some a → order[j]? = some b →
    g.hasEdge a.id b.id = true → i < j

/-- How many classifiers are ordered before this one. -/
noncomputable def height (g : Graph) (cs : List Classifier) (a : Classifier) : Nat :=
  {x | g.Leads cs x a}.ncard

theorem height_lt (hirrefl : ¬ g.Leads cs a a) (h : g.Leads cs a b) :
    g.height cs a < g.height cs b := by
  have hfinite : {x | g.Leads cs x b}.Finite :=
    (List.finite_toSet cs).subset fun x hx => Leads.mem hx |>.1
  refine Set.ncard_lt_ncard ⟨fun x hx => Relation.TransGen.trans hx h, fun hall => ?_⟩ hfinite
  -- The classifier itself is ordered before the other one, and not before itself.
  exact hirrefl (hall h)

theorem exists_sorted (f : Classifier → Nat) (cs : List Classifier) :
    ∃ order : List Classifier, order.Perm cs ∧ order.Pairwise fun a b => f a ≤ f b := by
  have hsorted : (cs.mergeSort fun a b => decide (f a ≤ f b)).Pairwise
      fun a b => decide (f a ≤ f b) = true := by
    refine List.pairwise_mergeSort (fun a b c hab hbc => ?_) (fun a b => ?_) cs
    · simp only [decide_eq_true_eq] at hab hbc ⊢
      exact Nat.le_trans hab hbc
    · simp only [Bool.or_eq_true, decide_eq_true_eq]
      exact Nat.le_total (f a) (f b)
  exact ⟨_, List.mergeSort_perm cs _, hsorted.imp of_decide_eq_true⟩

/-- Where steps never lead back, the classifiers can be put into a row along all orders. -/
theorem exists_forward (hirrefl : ∀ a, ¬ g.Leads cs a a) :
    ∃ order : List Classifier, order.Perm cs ∧ g.Forward order := by
  obtain ⟨order, hperm, hsorted⟩ := exists_sorted (g.height cs) cs
  refine ⟨order, hperm, fun i j a b hi hj hab => ?_⟩
  have hless : g.height cs a < g.height cs b := height_lt (hirrefl a) (Relation.TransGen.single
    ⟨hperm.mem_iff.1 (List.mem_of_getElem? hi), hperm.mem_iff.1 (List.mem_of_getElem? hj), hab⟩)
  by_contra hij
  rcases Nat.lt_or_eq_of_le (Nat.not_lt.1 hij) with hlt | rfl
  · obtain ⟨hj', rfl⟩ := List.getElem?_eq_some_iff.1 hj
    obtain ⟨hi', rfl⟩ := List.getElem?_eq_some_iff.1 hi
    exact Nat.not_le.2 hless (List.pairwise_iff_getElem.1 hsorted j i hj' hi' hlt)
  · rw [hi] at hj
    cases hj
    exact Nat.lt_irrefl _ hless

/-- In a row along all orders no classifier comes back to itself. -/
theorem Forward.not_leads (h : g.Forward order) (hall : ∀ a ∈ cs, a ∈ order) (a : Classifier) :
    ¬ g.Leads cs a a := by
  have hless : ∀ x y, g.Leads cs x y → order.idxOf x < order.idxOf y := by
    intro x y hxy
    have hstep : ∀ x y, x ∈ cs ∧ y ∈ cs ∧ g.hasEdge x.id y.id = true →
        order.idxOf x < order.idxOf y := by
      rintro x y ⟨hx, hy, hedge⟩
      exact h _ _ x y (List.getElem?_idxOf (hall x hx)) (List.getElem?_idxOf (hall y hy)) hedge
    induction hxy with
    | single hxy => exact hstep _ _ hxy
    | tail _ hyz ih => exact Nat.lt_trans ih (hstep _ _ hyz)
  exact fun haa => Nat.lt_irrefl _ (hless a a haa)

/-- There is no cycle exactly if steps never lead back. -/
theorem cycles_eq_nil_iff (hloop : ∀ a, g.hasEdge a a = false) :
    g.cycles alive = [] ↔ ∀ a, ¬ g.Leads (g.live alive) a a := by
  constructor
  · intro h a haa
    obtain ⟨b, hab, hback⟩ := Relation.TransGen.head'_iff.1 haa
    have hne : a ≠ b := by
      rintro rfl
      rw [hloop] at hab
      cases hab.2.2
    have hba : g.Leads (g.live alive) b a :=
      (Relation.reflTransGen_iff_eq_or_transGen.1 hback).resolve_left hne
    obtain ⟨y, hy, -⟩ := exists_mem_cycles ⟨Relation.TransGen.single hab, hba⟩ hne
    rw [h] at hy
    cases hy
  · intro h
    rw [List.eq_nil_iff_forall_not_mem]
    intro y hy
    obtain ⟨a, ha⟩ := List.exists_mem_of_length_pos (Nat.lt_of_succ_lt (members_of_mem_cycles hy).2)
    exact h a ((mem_members_iff hy ha).1 ha).1

end Graph

namespace World

variable {every : Nat} {w : World} {a b : Classifier}

/-- The classifiers that there is a handle on. -/
def living (w : World) : List Classifier := w.population.born.filter w.population.has

/-- What the graph answers for its cycles. -/
def cycles (w : World) : List Cycle := w.graph.cycles w.population.isAlive

theorem mem_living : a ∈ w.living ↔ w.population.has a = true := by
  rw [living, List.mem_filter, and_iff_right_iff_imp]
  exact fun h => (Population.has_iff.1 h).1

namespace Genuine

/-- The nodes that count as alive are living. -/
theorem mem_living_of_mem_live (hw : Genuine every w)
    (h : a ∈ w.graph.live w.population.isAlive) : a ∈ w.living := by
  obtain ⟨hnode, halive⟩ := hw.sound.intact.mem_live.1 h
  obtain ⟨c, hborn, -, heq⟩ := hw.sound.nodes a.id _ hnode
  have hsame : c = a := Node.of_injective heq.symm
  rw [hsame] at hborn
  exact mem_living.2 (Population.has_iff.2 ⟨hborn, (Population.isAlive_iff.1 halive).2⟩)

/-- A living classifier that is a node counts as alive there. -/
theorem mem_live (hw : Genuine every w) (h : a ∈ w.living) (hn : a.id ∈ w.graph.nodes) :
    a ∈ w.graph.live w.population.isAlive := by
  obtain ⟨hborn, hdead⟩ := Population.has_iff.1 (mem_living.1 h)
  exact hw.sound.intact.mem_live.2
    ⟨hw.nodes_eq hborn hn, Population.isAlive_iff.2 ⟨⟨a, hborn, rfl⟩, hdead⟩⟩

/-- The steps that the graph looks at are all there are between living classifiers. -/
theorem leads_live (hw : Genuine every w) :
    w.graph.Leads (w.graph.live w.population.isAlive) = w.graph.Leads w.living := by
  unfold Graph.Leads
  congr 1
  funext a b
  rw [eq_iff_iff]
  constructor
  · rintro ⟨ha, hb, hab⟩
    exact ⟨hw.mem_living_of_mem_live ha, hw.mem_living_of_mem_live hb, hab⟩
  · rintro ⟨ha, hb, hab⟩
    obtain ⟨hna, hnb⟩ := hw.sound.intact.ends _ _ hab
    exact ⟨hw.mem_live ha hna, hw.mem_live hb hnb, hab⟩

theorem mutual_live (hw : Genuine every w) :
    w.graph.Mutual (w.graph.live w.population.isAlive) a b ↔ w.graph.Mutual w.living a b := by
  rw [Graph.Mutual, Graph.Mutual, hw.leads_live]

end Genuine

/-- The cycles are the classes of living classifiers that are ordered before each other. -/
structure Classified (w : World) : Prop where
  together : ∀ a ∈ w.living, ∀ b ∈ w.living, a ≠ b →
    ((∃ y ∈ w.cycles, a ∈ y.members ∧ b ∈ y.members) ↔
      w.graph.Leads w.living a b ∧ w.graph.Leads w.living b a)
  /-- A cycle is the whole class of each of its members. -/
  whole : ∀ y ∈ w.cycles, ∀ a ∈ y.members, a ∈ w.living ∧
    ∀ b, b ∈ y.members ↔ w.graph.Leads w.living a b ∧ w.graph.Leads w.living b a
  size : ∀ y ∈ w.cycles, 2 ≤ y.members.length
  ascending : ∀ y ∈ w.cycles, y.members.Pairwise fun a b => a.id < b.id
  disjoint : w.cycles.Pairwise fun y z => ∀ a ∈ y.members, a ∉ z.members
  /-- The smallest id of a cycle is below all of a later one. -/
  sorted : w.cycles.Pairwise fun y z => ∃ a ∈ y.members, ∀ b ∈ z.members, a.id < b.id
  known : ∀ a ∈ w.living, ∀ b ∈ w.living, w.graph.isKnown a.id b.id = true →
    ∃ y ∈ w.cycles, a ∈ y.members ∧ b ∈ y.members
  /-- There is no cycle exactly if the living classifiers can be put into a row along all orders. -/
  row : w.cycles = [] ↔ ∃ order : List Classifier, order.Perm w.living ∧ w.graph.Forward order

theorem Genuine.classified (hw : Genuine every w) : w.Classified := by
  have hexists : ∀ {a b}, a ≠ b → w.graph.Mutual w.living a b →
      ∃ y ∈ w.cycles, a ∈ y.members ∧ b ∈ y.members :=
    fun hne h => Graph.exists_mem_cycles (hw.mutual_live.2 h) hne
  have hwhole : ∀ y ∈ w.cycles, ∀ a ∈ y.members, ∀ b,
      b ∈ y.members ↔ w.graph.Mutual w.living a b :=
    fun y hy a ha b => (Graph.mem_members_iff hy ha).trans hw.mutual_live
  have hloop := hw.sound.intact.loopless
  refine ⟨fun a _ b _ hne => ⟨?_, hexists hne⟩, fun y hy a ha => ⟨?_, hwhole y hy a ha⟩,
    fun y hy => (Graph.members_of_mem_cycles hy).2,
    fun y hy => (Graph.pairwise_live ..).sublist (Graph.members_of_mem_cycles hy).1,
    Graph.disjoint_cycles .., ?_, ?_, ?_⟩
  · rintro ⟨y, hy, ha, hb⟩
    exact (hwhole y hy a ha b).1 hb
  · exact hw.mem_living_of_mem_live ((Graph.members_of_mem_cycles hy).1.subset ha)
  · refine (Graph.pairwise_cycles ..).imp_of_mem fun {y z} hy hz hless => ?_
    obtain ⟨_, a, -, -, -, ha⟩ := Graph.mem_cycles_iff.1 hy
    obtain ⟨_, c, -, -, -, hc⟩ := Graph.mem_cycles_iff.1 hz
    refine ⟨a, List.mem_of_mem_head? ha, fun b hb => ?_⟩
    exact UInt64.lt_of_lt_of_le (hless a c ha hc) (Graph.head_le hz hc hb)
  · intro a ha b hb hk
    obtain ⟨hab, hba⟩ := (hw.sound.intact.known _ _).1 hk
    have hne : a ≠ b := by
      rintro rfl
      rw [hloop] at hab
      cases hab
    exact hexists hne
      ⟨Relation.TransGen.single ⟨ha, hb, hab⟩, Relation.TransGen.single ⟨hb, ha, hba⟩⟩
  · rw [cycles, Graph.cycles_eq_nil_iff hloop, hw.leads_live]
    refine ⟨Graph.exists_forward, ?_⟩
    rintro ⟨order, hperm, hforward⟩
    exact hforward.not_leads fun a ha => hperm.mem_iff.2 ha

/-- In every state that records and sweeps lead to, between the births and deaths of classifiers,
the graph answers with the classes of two and more. -/
theorem cycles_exact {es : List Event} {as : List Answer}
    (h : (start every).run es = some (w, as)) : w.Classified :=
  (genuine_run h).classified

/-- Three classifiers that are ordered in a ring. A fourth one, which had closed a shorter way back,
dies and is not swept yet. -/
def ringed : List Event :=
  [.create ⟨1, "A"⟩, .create ⟨2, "B"⟩, .create ⟨3, "C"⟩, .create ⟨4, "D"⟩,
    .call (.record [⟨1, "A"⟩] ⟨2, "B"⟩ ⟨"t", "first", none⟩),
    .call (.record [⟨2, "B"⟩] ⟨3, "C"⟩ ⟨"t", "second", none⟩),
    .call (.record [⟨3, "C"⟩] ⟨1, "A"⟩ ⟨"u", "third", none⟩),
    .call (.record [⟨2, "B"⟩] ⟨4, "D"⟩ ⟨"u", "fourth", none⟩),
    .call (.record [⟨4, "D"⟩] ⟨2, "B"⟩ ⟨"u", "fifth", none⟩), .drop ⟨4, "D"⟩]

theorem cycles_exact_ringed :
    ∃ w as, (start 8).run ringed = some (w, as) ∧ w.Classified ∧ w.living.length = 3 ∧
      (∃ y ∈ w.cycles, ⟨1, "A"⟩ ∈ y.members ∧ ⟨3, "C"⟩ ∈ y.members) ∧
      ¬ ∃ order : List Classifier, order.Perm w.living ∧ w.graph.Forward order := by
  have hrun : ((start 8).run ringed).any (fun r => r.1.graph.hasEdge 1 2 &&
      r.1.graph.hasEdge 2 3 && r.1.graph.hasEdge 3 1 &&
        r.1.living == [⟨3, "C"⟩, ⟨2, "B"⟩, ⟨1, "A"⟩]) = true := by
    decide +kernel
  obtain ⟨⟨w, as⟩, h, hrest⟩ := (Option.any_eq_true _ _).mp hrun
  simp only [Bool.and_eq_true, beq_iff_eq] at hrest
  obtain ⟨⟨⟨hab, hbc⟩, hca⟩, hliving⟩ := hrest
  have hclasses := cycles_exact h
  have hstep : ∀ a ∈ w.living, ∀ b ∈ w.living, w.graph.hasEdge a.id b.id = true →
      w.graph.Leads w.living a b := fun a ha b hb hedge => Relation.TransGen.single ⟨ha, hb, hedge⟩
  rw [hliving] at hstep
  have hAB := hstep ⟨1, "A"⟩ (by decide) ⟨2, "B"⟩ (by decide) hab
  have hBC := hstep ⟨2, "B"⟩ (by decide) ⟨3, "C"⟩ (by decide) hbc
  have hCA := hstep ⟨3, "C"⟩ (by decide) ⟨1, "A"⟩ (by decide) hca
  rw [← hliving] at hAB hBC hCA
  obtain ⟨y, hy, hmembers⟩ := (hclasses.together ⟨1, "A"⟩ (by simp [hliving]) ⟨3, "C"⟩
    (by simp [hliving]) (by decide)).2 ⟨hAB.trans hBC, hCA⟩
  refine ⟨w, as, h, hclasses, by rw [hliving]; rfl, ⟨y, hy, hmembers⟩, fun horder => ?_⟩
  rw [hclasses.row.2 horder] at hy
  cases hy

end World

end LockDiscipline.Order
