import LockDiscipline.Proofs.Order.Intact
import LockDiscipline.Proofs.Order.Reach
import Mathlib.Data.List.Nodup
import Mathlib.Logic.Relation

namespace LockDiscipline.Order

/-- The relation is transitive through the number. -/
def Through (rows : List Nat) (k : Nat) : Prop :=
  ∀ i j, related rows i k = true → related rows k j = true → related rows i j = true

theorem related_addStation_of_related {rows : List Nat} {k i j : Nat}
    (h : related rows i j = true) : related (addStation rows k) i j = true := by
  rw [related_addStation, h, Bool.true_or]

/-- A station is one that steps may be made through. -/
theorem through_station (rows : List Nat) (k : Nat) : Through (addStation rows k) k := by
  intro i j hik hkj
  simp only [related_addStation, Bool.or_eq_true, Bool.and_eq_true] at hik hkj ⊢
  exact Or.inr ⟨hik.elim id And.left, hkj.elim id And.right⟩

/-- It remains one when others follow. -/
theorem Through.addStation {rows : List Nat} {m : Nat} (h : Through rows m) (k : Nat) :
    Through (addStation rows k) m := by
  intro i j him hmj
  simp only [related_addStation, Bool.or_eq_true, Bool.and_eq_true] at him hmj ⊢
  rcases him with him | ⟨hik, hkm⟩
  · rcases hmj with hmj | ⟨hmk, hkj⟩
    · exact Or.inl (h i j him hmj)
    · exact Or.inr ⟨h i k him hmk, hkj⟩
  · rcases hmj with hmj | ⟨-, hkj⟩
    · exact Or.inr ⟨hik, h k j hkm hmj⟩
    · exact Or.inr ⟨hik, hkj⟩

theorem through_foldl {rows stations : List Nat} {m : Nat}
    (h : m ∈ stations ∨ Through rows m) : Through (stations.foldl addStation rows) m := by
  induction stations generalizing rows with
  | nil => exact h.resolve_left (List.not_mem_nil)
  | cons k ks ih =>
    refine ih ?_
    rcases h with h | h
    · rcases List.mem_cons.1 h with rfl | h
      · exact Or.inr (through_station rows m)
      · exact Or.inl h
    · exact Or.inr (h.addStation k)

theorem related_closure_of_related {rows : List Nat} {i j : Nat} (h : related rows i j = true) :
    related (closure rows) i j = true := by
  unfold closure
  generalize List.range rows.length = stations
  induction stations generalizing rows with
  | nil => exact h
  | cons k ks ih => exact ih (related_addStation_of_related h)

@[simp] theorem length_closure (rows : List Nat) : (closure rows).length = rows.length := by
  unfold closure
  generalize List.range rows.length = stations
  induction stations generalizing rows with
  | nil => rfl
  | cons k ks ih => rw [List.foldl_cons, ih, addStation, List.length_map]

theorem related_closure_trans {rows : List Nat} {i j k : Nat}
    (hij : related (closure rows) i j = true) (hjk : related (closure rows) j k = true) :
    related (closure rows) i k = true := by
  refine through_foldl (Or.inl ?_) i k hij hjk
  -- A number that is related to another has a row.
  rw [List.mem_range, ← length_closure]
  by_contra hj
  rw [related, List.getElem?_eq_none (by omega), Option.getD_none, Nat.zero_testBit] at hjk
  cases hjk

namespace Graph

variable {g : Graph} {cs : List Classifier} {a b c : Classifier} {i j k : Nat}

/-- The first classifier is ordered before the second, in steps between classifiers of the list. -/
def Leads (g : Graph) (cs : List Classifier) : Classifier → Classifier → Prop :=
  Relation.TransGen fun a b => a ∈ cs ∧ b ∈ cs ∧ g.hasEdge a.id b.id = true

theorem Leads.mem (h : g.Leads cs a b) : a ∈ cs ∧ b ∈ cs := by
  induction h with
  | single h => exact ⟨h.1, h.2.1⟩
  | tail _ h ih => exact ⟨ih.1, h.2.1⟩

/-- Each is ordered before the other. -/
def Mutual (g : Graph) (cs : List Classifier) (a b : Classifier) : Prop :=
  g.Leads cs a b ∧ g.Leads cs b a

theorem Mutual.symm (h : g.Mutual cs a b) : g.Mutual cs b a := ⟨h.2, h.1⟩

theorem Mutual.trans (h : g.Mutual cs a b) (h' : g.Mutual cs b c) : g.Mutual cs a c :=
  ⟨Relation.TransGen.trans h.1 h'.1, Relation.TransGen.trans h'.2 h.2⟩

theorem related_closure_of_leads (h : g.Leads cs a b) (hi : cs[i]? = some a)
    (hj : cs[j]? = some b) : related (closure (g.rows cs)) i j = true := by
  induction h generalizing j with
  | single h => exact related_closure_of_related ((related_rows g cs i j).2 ⟨_, _, hi, hj, h.2.2⟩)
  | tail _ h ih =>
    obtain ⟨k, hk⟩ := List.mem_iff_getElem?.1 h.1
    have hkj := related_closure_of_related ((related_rows g cs k j).2 ⟨_, _, hk, hj, h.2.2⟩)
    exact related_closure_trans (ih hk) hkj

theorem related_closure_iff : related (closure (g.rows cs)) i j = true ↔
    ∃ a b, cs[i]? = some a ∧ cs[j]? = some b ∧ g.Leads cs a b := by
  constructor
  · refine related_closure_le (R := fun i j => ∃ a b, cs[i]? = some a ∧ cs[j]? = some b ∧
      g.Leads cs a b) ?_ ?_ i j
    · rintro i j k ⟨a, b, hi, hj, hab⟩ ⟨b', c, hj', hk, hbc⟩
      rw [hj] at hj'
      cases hj'
      exact ⟨a, c, hi, hk, Relation.TransGen.trans hab hbc⟩
    · intro i j h
      obtain ⟨a, b, hi, hj, hab⟩ := (related_rows g cs i j).1 h
      have hstep := And.intro (List.mem_of_getElem? hi) (And.intro (List.mem_of_getElem? hj) hab)
      exact ⟨a, b, hi, hj, Relation.TransGen.single hstep⟩
  · rintro ⟨a, b, hi, hj, hab⟩
    exact related_closure_of_leads hab hi hj

/-- The classifiers that stand in both directions to the one with the number. -/
def group (g : Graph) (cs : List Classifier) (i : Nat) : List Classifier :=
  (cs.zipIdx.filter fun e =>
    related (closure (g.rows cs)) i e.2 && related (closure (g.rows cs)) e.2 i).map (·.1)

theorem group_sublist (g : Graph) (cs : List Classifier) (i : Nat) : (g.group cs i).Sublist cs := by
  have h := (List.filter_sublist (p := fun e : Classifier × Nat =>
    related (closure (g.rows cs)) i e.2 && related (closure (g.rows cs)) e.2 i)
      (l := cs.zipIdx)).map (·.1)
  rwa [List.zipIdx_map_fst] at h

theorem mem_group (hi : cs[i]? = some a) : b ∈ g.group cs i ↔ g.Mutual cs a b := by
  rw [group, List.mem_map]
  constructor
  · rintro ⟨⟨b, j⟩, he, rfl⟩
    obtain ⟨hj, hboth⟩ := List.mem_filter.1 he
    rw [List.mem_zipIdx_iff_getElem?] at hj
    rw [Bool.and_eq_true, related_closure_iff, related_closure_iff] at hboth
    obtain ⟨⟨a', b', hi', hj', hab⟩, b'', a'', hj'', hi'', hba⟩ := hboth
    rw [hi] at hi' hi''
    rw [hj] at hj' hj''
    cases hi'
    cases hi''
    cases hj'
    cases hj''
    exact ⟨hab, hba⟩
  · intro h
    obtain ⟨j, hj⟩ := List.mem_iff_getElem?.1 h.1.mem.2
    refine ⟨(b, j), List.mem_filter.2 ⟨List.mem_zipIdx_iff_getElem?.2 hj, ?_⟩, rfl⟩
    rw [Bool.and_eq_true]
    exact ⟨related_closure_of_leads h.1 hi hj, related_closure_of_leads h.2 hj hi⟩

/-- The members of a group have it in common. -/
theorem group_eq_of_mem (hi : cs[i]? = some a) (hj : cs[j]? = some b) (h : b ∈ g.group cs i) :
    g.group cs j = g.group cs i := by
  have hab := (mem_group hi).1 h
  unfold group
  congr 1
  refine List.filter_congr fun ⟨c, k⟩ _ => ?_
  have hij := related_closure_of_leads hab.1 hi hj
  have hji := related_closure_of_leads hab.2 hj hi
  rw [Bool.eq_iff_iff, Bool.and_eq_true, Bool.and_eq_true]
  exact ⟨fun hk => ⟨related_closure_trans hij hk.1, related_closure_trans hk.2 hji⟩,
    fun hk => ⟨related_closure_trans hji hk.1, related_closure_trans hk.2 hij⟩⟩

variable {alive : ClassifierId → Bool}

/-- The cycle that the classifier with the number opens: its group, if that has another member and
it is the first. -/
def cycleAt (g : Graph) (cs : List Classifier) (e : Classifier × Nat) : Option Cycle :=
  if 1 < (g.group cs e.2).length && (g.group cs e.2).head? == some e.1 then
    some ⟨g.group cs e.2⟩
  else none

theorem cycles_eq (g : Graph) (alive : ClassifierId → Bool) :
    g.cycles alive = (g.live alive).zipIdx.filterMap (g.cycleAt (g.live alive)) := by
  unfold cycles
  generalize g.live alive = cs
  dsimp only
  set table := (cs.zip (closure (g.rows cs))).zipIdx with htable
  have hrow : ∀ e ∈ table, ∀ j, e.1.2.testBit j = related (closure (g.rows cs)) e.2 j := by
    intro e he j
    have hget := List.mem_zipIdx_iff_getElem?.1 he
    rw [List.getElem?_zip_eq_some] at hget
    rw [related, hget.2, Option.getD_some]
  have hnodes : cs.zipIdx = table.map (Prod.map Prod.fst id) := by
    have hlength : cs.length ≤ (closure (g.rows cs)).length := by simp [rows]
    rw [htable, ← List.zipIdx_map, List.map_fst_zip hlength]
  rw [hnodes, List.filterMap_map]
  refine List.filterMap_congr fun e he => ?_
  obtain ⟨⟨c, after⟩, i⟩ := e
  have hafter := hrow _ he
  have hmembers : (table.filter fun f => after.testBit f.2 && f.1.2.testBit i).map (·.1.1) =
      g.group cs i := by
    rw [group, hnodes, List.filter_map, List.map_map]
    congr 1
    refine List.filter_congr fun f hf => ?_
    rw [hafter f.2, hrow f hf i]
    rfl
  rw [hmembers]
  rfl

theorem cycleAt_eq_some_iff {e : Classifier × Nat} {y : Cycle} :
    g.cycleAt cs e = some y ↔ y.members = g.group cs e.2 ∧ 1 < y.members.length ∧
      y.members.head? = some e.1 := by
  obtain ⟨members⟩ := y
  simp only [cycleAt, Option.ite_none_right_eq_some, Option.some_inj, Bool.and_eq_true,
    decide_eq_true_iff, beq_iff_eq, Cycle.mk.injEq]
  constructor
  · rintro ⟨h, rfl⟩
    exact ⟨rfl, h⟩
  · rintro ⟨rfl, h⟩
    exact ⟨h, rfl⟩

/-- A cycle is the group of its first member, if that is not alone in it. -/
theorem mem_cycles_iff {y : Cycle} : y ∈ g.cycles alive ↔ ∃ i a, (g.live alive)[i]? = some a ∧
    y.members = g.group (g.live alive) i ∧ 1 < y.members.length ∧ y.members.head? = some a := by
  rw [cycles_eq, List.mem_filterMap]
  constructor
  · rintro ⟨⟨a, i⟩, he, h⟩
    rw [cycleAt_eq_some_iff] at h
    exact ⟨i, a, List.mem_zipIdx_iff_getElem?.1 he, h⟩
  · rintro ⟨i, a, hi, h⟩
    refine ⟨(a, i), List.mem_zipIdx_iff_getElem?.2 hi, ?_⟩
    rw [cycleAt_eq_some_iff]
    exact h

theorem Intact.mem_live (hg : g.Intact) {c : Classifier} :
    c ∈ g.live alive ↔ g.nodes[c.id]? = some (.of c) ∧ alive c.id = true := by
  rw [hg.live_eq, List.mem_map]
  constructor
  · rintro ⟨⟨a, n⟩, he, rfl⟩
    obtain ⟨hmem, halive⟩ := List.mem_filter.1 he
    have hnode := Std.ExtTreeMap.mem_toList_iff_getElem?_eq_some.1 hmem
    obtain ⟨c, rfl, rfl⟩ := hg.keyed a n hnode
    exact ⟨hnode, halive⟩
  · rintro ⟨hnode, halive⟩
    exact ⟨(c.id, .of c), List.mem_filter.2
      ⟨Std.ExtTreeMap.mem_toList_iff_getElem?_eq_some.2 hnode, halive⟩, rfl⟩

theorem pairwise_live (g : Graph) (alive : ClassifierId → Bool) :
    (g.live alive).Pairwise fun a b => a.id < b.id := by
  rw [live, List.pairwise_map]
  refine List.Pairwise.filter _ (Std.ExtTreeMap.ordered_keys_toList.imp fun h => ?_)
  exact Std.compare_eq_lt.1 h

theorem members_of_mem_cycles {y : Cycle} (hy : y ∈ g.cycles alive) :
    y.members.Sublist (g.live alive) ∧ 1 < y.members.length := by
  obtain ⟨i, a, -, hmembers, hlength, -⟩ := mem_cycles_iff.1 hy
  exact ⟨by rw [hmembers]; exact group_sublist .., hlength⟩

/-- The cycle of a classifier is all that stands in both directions to it. -/
theorem mem_members_iff {y : Cycle} (hy : y ∈ g.cycles alive) (ha : a ∈ y.members) :
    b ∈ y.members ↔ g.Mutual (g.live alive) a b := by
  obtain ⟨i, c, hi, hmembers, -, -⟩ := mem_cycles_iff.1 hy
  rw [hmembers] at ha ⊢
  have hca := (mem_group hi).1 ha
  rw [mem_group hi]
  exact ⟨hca.symm.trans, hca.trans⟩

/-- Two classifiers that stand in both directions to each other are in some cycle. -/
theorem exists_mem_cycles (h : g.Mutual (g.live alive) a b) (hne : a ≠ b) :
    ∃ y ∈ g.cycles alive, a ∈ y.members ∧ b ∈ y.members := by
  obtain ⟨i, hi⟩ := List.mem_iff_getElem?.1 h.1.mem.1
  have ha : a ∈ g.group (g.live alive) i := (mem_group hi).2 (h.trans h.symm)
  have hb : b ∈ g.group (g.live alive) i := (mem_group hi).2 h
  obtain ⟨c, hc⟩ := Option.isSome_iff_exists.1 (List.isSome_head?.2 (List.ne_nil_of_mem ha))
  have hlength : 1 < (g.group (g.live alive) i).length := by
    by_contra hshort
    obtain ⟨d, hd⟩ := List.length_eq_one_iff.1
      (Nat.le_antisymm (Nat.not_lt.1 hshort) (List.length_pos_of_mem ha))
    rw [hd, List.mem_singleton] at ha hb
    exact hne (ha.trans hb.symm)
  have hmem := List.mem_of_mem_head? hc
  obtain ⟨k, hk⟩ := List.mem_iff_getElem?.1 ((group_sublist ..).subset hmem)
  have hgroup := group_eq_of_mem hi hk hmem
  exact ⟨⟨g.group (g.live alive) i⟩, mem_cycles_iff.2 ⟨k, c, hk, hgroup.symm, hlength, hc⟩, ha, hb⟩

/-- The cycles are listed by their first members. -/
theorem pairwise_cycles (g : Graph) (alive : ClassifierId → Bool) :
    (g.cycles alive).Pairwise fun y z => ∀ a b, y.members.head? = some a →
      z.members.head? = some b → a.id < b.id := by
  rw [cycles_eq, List.pairwise_filterMap]
  have hsorted : (g.live alive).zipIdx.Pairwise fun e f => e.1.id < f.1.id := by
    have h := pairwise_live g alive
    rwa [← List.zipIdx_map_fst 0 (g.live alive), List.pairwise_map] at h
  refine hsorted.imp fun {e f} hef y hy z hz a b ha hb => ?_
  rw [cycleAt_eq_some_iff] at hy hz
  rw [hy.2.2] at ha
  rw [hz.2.2] at hb
  cases ha
  cases hb
  exact hef

/-- The first member of a cycle has the smallest id. -/
theorem head_le {y : Cycle} (hy : y ∈ g.cycles alive) (ha : y.members.head? = some a)
    (hb : b ∈ y.members) : a.id ≤ b.id := by
  have hsorted := (pairwise_live g alive).sublist (members_of_mem_cycles hy).1
  obtain ⟨rest, hrest⟩ := List.head?_eq_some_iff.1 ha
  rw [hrest] at hsorted hb
  rcases List.mem_cons.1 hb with rfl | hb
  · exact UInt64.le_refl _
  · exact UInt64.le_of_lt ((List.pairwise_cons.1 hsorted).1 b hb)

/-- No classifier is in two cycles. -/
theorem disjoint_cycles (g : Graph) (alive : ClassifierId → Bool) :
    (g.cycles alive).Pairwise fun y z => ∀ a ∈ y.members, a ∉ z.members := by
  refine (pairwise_cycles g alive).imp_of_mem fun {y z} hy hz hless m hmy hmz => ?_
  obtain ⟨_, a, -, -, -, ha⟩ := mem_cycles_iff.1 hy
  obtain ⟨_, b, -, -, -, hb⟩ := mem_cycles_iff.1 hz
  have hboth : a ∈ z.members :=
    (mem_members_iff hz hmz).2 ((mem_members_iff hy hmy).1 (List.mem_of_mem_head? ha))
  exact UInt64.not_lt.2 (head_le hz hb hboth) (hless a b ha hb)

end Graph

end LockDiscipline.Order
