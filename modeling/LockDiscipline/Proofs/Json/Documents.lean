import LockDiscipline.Order.Export
import LockDiscipline.Proofs.Json.Holding
import LockDiscipline.Sampling.Export

namespace LockDiscipline

open LockDiscipline.Document LockDiscipline.Json

namespace Order

theorem Classifier.holds (c : Classifier) : Holds Classifier.shape.reader c.toJson c :=
  .record (.must rfl (.word _ c.id) <| .must rfl (.text c.name) .nil)
    (by simp) (by simp [Classifier.shape, Field.must])

theorem Context.holds (c : Context) : Holds Context.shape.reader c.toJson c := by
  obtain ⟨thread, location, backtrace⟩ := c
  cases backtrace with
  | none =>
    exact .record (.must rfl (.text thread) <| .must rfl (.text location) .nil)
      (by simp [Value.optionalEntry]) (by simp [Context.shape, Field.must, Field.may])
  | some trace =>
    exact .record (.must rfl (.text thread) <| .must rfl (.text location) <|
      .may rfl (.optionalText trace) .nil)
      (by simp [Value.optionalEntry]) (by simp [Context.shape, Field.must, Field.may])

theorem Witness.holds (w : Witness) : Holds Witness.shape.reader w.toJson w :=
  .record (.must rfl w.older.holds <| .must rfl w.younger.holds <| .must rfl w.context.holds .nil)
    (by simp) (by simp [Witness.shape, Field.must])

theorem Violation.holds (v : Violation) : Holds Violation.shape.reader v.toJson v :=
  .record (.must rfl v.established.holds <| .must rfl v.conflicting.holds .nil)
    (by simp) (by simp [Violation.shape, Field.must])

theorem Cycle.holds (c : Cycle) : Holds Cycle.shape.reader c.toJson c :=
  .record (.must rfl (.list fun m _ => m.holds) .nil)
    (by simp) (by simp [Cycle.shape, Field.must])

end Order

namespace Sampling

theorem Snapshot.holds (s : Snapshot) : Holds Snapshot.shape.reader s.toJson s :=
  .record (.must rfl (.text s.threadName) <| .must rfl (.texts s.held) .nil)
    (by simp) (by simp [Snapshot.shape, Field.must])

/-- The list of a set makes the set again. -/
theorem ofList_toList {α : Type} {cmp : α → α → Ordering} [Std.TransCmp cmp]
    [Std.LawfulEqCmp cmp] [BEq α] [LawfulBEq α] (t : Std.ExtTreeSet α cmp) :
    Std.ExtTreeSet.ofList t.toList cmp = t := by
  apply Std.ExtTreeSet.ext_mem
  intro k
  rw [Std.ExtTreeSet.mem_ofList, List.contains_iff_mem, Std.ExtTreeSet.mem_toList]

theorem SampleSet.holds (s : SampleSet) : Holds SampleSet.shape.reader s.toJson s := by
  have hfills : Fills SampleSet.shape [("names", .texts s.names.toList),
      ("orderings", .list (s.orderings.toList.map .texts)), ("ticks", .natural s.ticks.toNat)]
      .empty _ :=
    .must rfl (.texts s.names.toList) <| .must rfl (.list fun o _ => .texts o) <|
      .must rfl (.word _ s.ticks) .nil
  -- what the entries make is a set of the list of a set
  rw [ofList_toList, ofList_toList] at hfills
  exact .record hfills (by simp) (by simp [SampleSet.shape, Field.must])

theorem Report.holds (r : Report) : Holds Report.shape.reader r.toJson r :=
  .record (.must rfl (.texts r.names) <| .must rfl (.list fun o _ => .texts o) <|
    .must rfl (.list fun p _ => .pair (.text p.1) (.text p.2) _ _) <|
    .must rfl (.word _ r.ticks) .nil)
    (by simp) (by simp [Report.shape, Field.must])

end Sampling

namespace Json

/-- Reading undoes printing for all evidence and all samples. -/
theorem documents_restored :
    (∀ w, Restored Order.Witness.shape.reader Order.Witness.toJson w) ∧
    (∀ v, Restored Order.Violation.shape.reader Order.Violation.toJson v) ∧
    (∀ c, Restored Order.Cycle.shape.reader Order.Cycle.toJson c) ∧
    (∀ c, Restored Order.Context.shape.reader Order.Context.toJson c) ∧
    (∀ s, Restored Sampling.Snapshot.shape.reader Sampling.Snapshot.toJson s) ∧
    (∀ s, Restored Sampling.SampleSet.shape.reader Sampling.SampleSet.toJson s) ∧
    (∀ r, Restored Sampling.Report.shape.reader Sampling.Report.toJson r) :=
  ⟨fun w => .of_holds w.holds, fun v => .of_holds v.holds, fun c => .of_holds c.holds,
    fun c => .of_holds c.holds, fun s => .of_holds s.holds, fun s => .of_holds s.holds,
    fun r => .of_holds r.holds⟩

end Json

end LockDiscipline
