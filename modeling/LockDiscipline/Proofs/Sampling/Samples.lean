import LockDiscipline.Proofs.Sampling.Nesting
import Mathlib.Data.List.Destutter

namespace LockDiscipline.Sampling

variable {f : NameFilter} {a b x : String} {xs o : List String}

theorem collapse_cons_cons_of_ne (h : a ≠ b) :
    collapse (a :: b :: xs) = a :: collapse (b :: xs) := by
  rw [collapse, if_neg h]

/-- Whether the first or the last one of equal neighbours stays makes no difference. -/
theorem collapse_eq_destutter (xs : List String) : collapse xs = xs.destutter (· ≠ ·) := by
  fun_induction collapse xs with
  | case1 => rfl
  | case2 a => rfl
  | case3 b cs ih =>
    rw [ih, List.destutter_cons_cons, if_neg (by simp), List.destutter_cons']
  | case4 a b cs hne ih =>
    rw [ih, List.destutter_cons_cons, if_pos hne, List.destutter_cons']

theorem collapse_concat (xs : List String) (x : String) :
    collapse (xs ++ [x]) =
      if xs.getLast? = some x then collapse xs else collapse xs ++ [x] := by
  fun_induction collapse xs with
  | case1 => simp [collapse]
  | case2 a =>
    by_cases h : a = x <;> simp [collapse, h]
  | case3 b cs ih =>
    rw [List.cons_append, List.cons_append, collapse, if_pos rfl, ← List.cons_append, ih,
      List.getLast?_cons_cons]
  | case4 a b cs hne ih =>
    rw [List.cons_append, List.cons_append, collapse_cons_cons_of_ne hne, ← List.cons_append, ih,
      List.getLast?_cons_cons]
    split <;> rfl

theorem getLast?_collapse (xs : List String) : (collapse xs).getLast? = xs.getLast? := by
  induction xs using List.reverseRecOn with
  | nil => rfl
  | append_singleton xs x ih =>
    rw [collapse_concat]
    split
    · next h => rw [ih, h, List.getLast?_concat]
    · rw [List.getLast?_concat, List.getLast?_concat]

/-- What is known while the names of a held list are read one after another. -/
structure Scan where
  names : Std.ExtTreeSet String
  /-- The names that were kept, the one read last at the end. -/
  kept : List String

/-- A name is passed over if the filter refuses it or if it was the last one to be kept. -/
def Scan.read (f : NameFilter) (s : Scan) (x : String) : Scan :=
  if !f.accepts x || s.kept.getLast? = some x then s
  else ⟨s.names.insert x, s.kept ++ [x]⟩

/-- Adds what one thread held, name by name. -/
def SampleSet.scan (f : NameFilter) (s : SampleSet) (snapshot : Snapshot) : SampleSet :=
  let seen := snapshot.held.foldl (Scan.read f) ⟨s.names, []⟩
  { s with
    names := seen.names
    orderings := if 1 < seen.kept.length then s.orderings.insert seen.kept else s.orderings }

theorem foldl_read (f : NameFilter) (names : Std.ExtTreeSet String) (xs : List String) :
    xs.foldl (Scan.read f) ⟨names, []⟩ =
      ⟨names.insertMany (SampleSet.reduced f xs), SampleSet.reduced f xs⟩ := by
  induction xs using List.reverseRecOn with
  | nil => simp [SampleSet.reduced, collapse]
  | append_singleton xs x ih =>
    rw [List.foldl_concat, ih]
    unfold Scan.read SampleSet.reduced
    rw [List.filter_append, getLast?_collapse]
    cases hx : f.accepts x with
    | false => simp [hx]
    | true =>
      have hone : [x].filter f.accepts = [x] := by simp [hx]
      rw [hone, collapse_concat]
      by_cases hlast : (xs.filter f.accepts).getLast? = some x
      · rw [if_pos (by simp [hlast]), if_pos hlast]
      · rw [if_neg (by simpa using hlast), if_neg hlast, Std.ExtTreeSet.insertMany_append,
          Std.ExtTreeSet.insertMany_list_singleton]

theorem scan_eq_record (f : NameFilter) (s : SampleSet) (snapshot : Snapshot) :
    s.scan f snapshot = s.record f snapshot := by
  unfold SampleSet.scan SampleSet.record
  rw [foldl_read]

/-- A call that records something, with the filter of this call. -/
inductive Recording where
  | snapshot (filter : NameFilter) (snapshot : Snapshot)
  | round (filter : NameFilter) (round : List Snapshot)
  deriving DecidableEq, Repr

namespace Recording

/-- The held lists of the call, each with the filter. -/
def shown : Recording → List (NameFilter × List String)
  | snapshot f s => [(f, s.held)]
  | round f ss => ss.map fun s => (f, s.held)

def isRound : Recording → Bool
  | snapshot .. => false
  | round .. => true

/-- The call without a filter, on lists that were filtered before. -/
def prefiltered : Recording → Recording
  | snapshot f s => snapshot none { s with held := s.held.filter f.accepts }
  | round f ss => round none (ss.map fun s => { s with held := s.held.filter f.accepts })

end Recording

namespace SampleSet

variable {s : SampleSet} {c : Recording} {cs : List Recording}

def take (s : SampleSet) : Recording → SampleSet
  | .snapshot f x => s.record f x
  | .round f xs => s.recordRound f xs

/-- The sample set after these calls, made one after another. -/
def after (cs : List Recording) : SampleSet := cs.foldl take .empty

@[simp] theorem after_concat (cs : List Recording) (c : Recording) :
    after (cs ++ [c]) = (after cs).take c := by
  simp [after]

/-- The name is held in one of the lists and accepted by its filter. -/
def Named (seen : List (NameFilter × List String)) (x : String) : Prop :=
  ∃ p ∈ seen, x ∈ p.2 ∧ p.1.accepts x = true

/-- The ordering is what is left of one of the lists where the names that the filter refuses are
dropped first and then all repeats of the name before. -/
def Ordered (seen : List (NameFilter × List String)) (o : List String) : Prop :=
  2 ≤ o.length ∧ ∃ p ∈ seen, o = (p.2.filter p.1.accepts).destutter (· ≠ ·)

theorem mem_names_recordRound {round : List Snapshot} :
    x ∈ (s.recordRound f round).names ↔
      x ∈ s.names ∨ Named (round.map fun y => (f, y.held)) x := by
  have hfold : x ∈ (round.foldl (record f) s).names ↔
      x ∈ s.names ∨ Named (round.map fun y => (f, y.held)) x := by
    induction round generalizing s with
    | nil => simp [Named]
    | cons y round ih =>
      rw [List.foldl_cons, ih, mem_names_record]
      simp [Named, or_assoc]
  exact hfold

theorem mem_names_take : x ∈ (s.take c).names ↔ x ∈ s.names ∨ Named c.shown x := by
  cases c with
  | snapshot f y => simp [take, mem_names_record, Named, Recording.shown]
  | round f ys => exact mem_names_recordRound

theorem mem_orderings_take : o ∈ (s.take c).orderings ↔ o ∈ s.orderings ∨ Ordered c.shown o := by
  have hlong : ∀ f xs, 1 < (reduced f xs).length ∧ o = reduced f xs ↔
      2 ≤ o.length ∧ o = (xs.filter f.accepts).destutter (· ≠ ·) := by
    intro f xs
    rw [reduced, collapse_eq_destutter]
    constructor
    · rintro ⟨hlen, rfl⟩
      exact ⟨hlen, rfl⟩
    · rintro ⟨hlen, rfl⟩
      exact ⟨hlen, rfl⟩
  cases c with
  | snapshot f y =>
    rw [take, mem_orderings_record, hlong]
    simp [Ordered, Recording.shown]
  | round f ys =>
    rw [take, mem_orderings_recordRound]
    simp only [Shows, hlong]
    simp [Ordered, Recording.shown, and_left_comm (b := 2 ≤ o.length)]

theorem ticks_take : (s.take c).ticks = if c.isRound then s.ticks + 1 else s.ticks := by
  cases c with
  | snapshot f y => rfl
  | round f ys =>
    have hfold : ∀ s : SampleSet, (ys.foldl (record f) s).ticks = s.ticks := by
      intro s
      induction ys generalizing s with
      | nil => rfl
      | cons y ys ih => exact ih _
    simp [take, recordRound, hfold, Recording.isRound]

theorem record_prefiltered (f : NameFilter) (s : SampleSet) (y : Snapshot) :
    s.record none { y with held := y.held.filter f.accepts } = s.record f y := by
  have hall : reduced none (y.held.filter f.accepts) = reduced f y.held := by
    unfold reduced
    congr 1
    exact List.filter_eq_self.2 fun _ _ => rfl
  simp only [record, hall]

theorem take_prefiltered (s : SampleSet) (c : Recording) : s.take c.prefiltered = s.take c := by
  cases c with
  | snapshot f y => exact record_prefiltered f s y
  | round f ys =>
    have hrecord : (fun (t : SampleSet) y =>
        t.record none { y with held := y.held.filter f.accepts }) = record f := by
      funext t y
      exact record_prefiltered f t y
    simp only [Recording.prefiltered, take, recordRound, List.foldl_map, hrecord]

theorem mem_names_after : x ∈ (after cs).names ↔ Named (cs.flatMap Recording.shown) x := by
  induction cs using List.reverseRecOn with
  | nil => simp [after, empty, Named]
  | append_singleton cs c ih =>
    rw [after_concat, mem_names_take, ih]
    simp [Named, or_and_right, exists_or]

theorem mem_orderings_after :
    o ∈ (after cs).orderings ↔ Ordered (cs.flatMap Recording.shown) o := by
  induction cs using List.reverseRecOn with
  | nil => simp [after, empty, Ordered]
  | append_singleton cs c ih =>
    rw [after_concat, mem_orderings_take, ih]
    simp [Ordered, or_and_right, exists_or, ← and_or_left]

theorem ticks_after (cs : List Recording) :
    (after cs).ticks = UInt64.ofNat (cs.countP Recording.isRound) := by
  induction cs using List.reverseRecOn with
  | nil => rfl
  | append_singleton cs c ih =>
    rw [after_concat, ticks_take, ih, List.countP_append, List.countP_singleton]
    split <;> simp

/-- After every sequence of calls, each with a filter of its own: the names are those that are held
somewhere and accepted there, the orderings are what at least two names long is left of the lists,
and the ticks are the rounds, counted in a word. So no ordering has equal neighbours or a name that
is not among the names. Calls that show the same lists with the same filters, in any order, number
and grouping, give the same names and orderings. To record with a filter is to record the filtered
lists without one, and to record a snapshot is to read it name by name. -/
theorem samples_exact (cs : List Recording) :
    let s := after cs
    (∀ x, x ∈ s.names ↔ Named (cs.flatMap Recording.shown) x) ∧
    (∀ o, o ∈ s.orderings ↔ Ordered (cs.flatMap Recording.shown) o) ∧
    s.ticks.toNat = cs.countP Recording.isRound % UInt64.size ∧
    (∀ o ∈ s.orderings, o.IsChain (· ≠ ·) ∧ ∀ x ∈ o, x ∈ s.names) ∧
    (∀ ds : List Recording,
      (∀ p, p ∈ ds.flatMap Recording.shown ↔ p ∈ cs.flatMap Recording.shown) →
      (after ds).names = s.names ∧ (after ds).orderings = s.orderings) ∧
    (∀ (t : SampleSet) (c : Recording), t.take c.prefiltered = t.take c) ∧
    ∀ (t : SampleSet) (f : NameFilter) (y : Snapshot), t.record f y = t.scan f y := by
  intro s
  refine ⟨fun _ => mem_names_after, fun _ => mem_orderings_after, ?_, ?_, ?_,
    take_prefiltered, fun t f y => (scan_eq_record f t y).symm⟩
  · rw [ticks_after, UInt64.toNat_ofNat']
  · intro o ho
    obtain ⟨-, p, hp, rfl⟩ := mem_orderings_after.1 ho
    refine ⟨List.isChain_destutter _ _, fun x hx => ?_⟩
    obtain ⟨hheld, haccepts⟩ := List.mem_filter.1 ((List.destutter_sublist _ _).subset hx)
    exact mem_names_after.2 ⟨p, hp, hheld, haccepts⟩
  · intro ds hsame
    constructor
    · ext x
      rw [mem_names_after, mem_names_after]
      simp only [Named, hsame]
    · ext o
      rw [mem_orderings_after, mem_orderings_after]
      simp only [Ordered, hsame]

/-- A name that the filter refuses stood between two equal ones. -/
example : (after [.snapshot (some "app.") ⟨"t", ["app.a", "other", "app.a", "app.b"]⟩]).orderings =
    .ofList [["app.a", "app.b"]] := by
  decide +kernel

end SampleSet

end LockDiscipline.Sampling
