import Mathlib.Data.List.Nodup
import LockDiscipline.Proofs.Document.Entries
import LockDiscipline.Proofs.Json.Spellings

namespace LockDiscipline.Json

open LockDiscipline.Document

variable {α β τ : Type} {r : Reader α} {v : Value} {x : α}

/-- The reader finds `x` in the value. -/
structure Holds (r : Reader α) (v : Value) (x : α) : Prop where
  fits : v.Fits
  reads : r.Reads scope v.datum x

namespace Holds

/-- What a value holds is read from every spelling of it. -/
theorem read (h : Holds r v x) {cs : List Char} (hcs : Value.Spells cs v) :
    Json.read r (String.ofList cs) = .ok x := by
  simp only [Json.read, parse_of_spells hcs, h.reads []]
  rfl

theorem read_compact (h : Holds r v x) : Json.read r v.compact = .ok x :=
  h.read (Value.spells_compact h.fits)

theorem read_pretty (h : Holds r v x) : Json.read r v.pretty = .ok x :=
  h.read (Value.spells_pretty 0 h.fits)

theorem map (h : Holds r v x) (f : α → β) : Holds (r.map f) v (f x) := ⟨h.fits, h.reads.map f⟩

theorem text (s : String) : Holds .text (.text s) s := ⟨trivial, fun _ => rfl⟩

/-- A text is there, even an empty one. -/
theorem optionalText (s : String) : Holds (.optional .text) (.text s) (some s) :=
  ⟨trivial, fun _ => rfl⟩

theorem word (type : String) (n : UInt64) : Holds (.word type) (.natural n.toNat) n := by
  refine ⟨n.toNat_lt, Reader.reads_word rfl ?_ type⟩
  simp [scope, dialect]

theorem items {f : α → Value} {xs : List α} (h : ∀ x ∈ xs, Holds r (f x) x) :
    Value.ItemsFit (xs.map f) ∧
      ∀ path, r.items scope path (Value.itemData (xs.map f)) = .ok xs := by
  induction xs with
  | nil => exact ⟨trivial, fun _ => rfl⟩
  | cons x xs ih =>
    have hx := h x (List.mem_cons_self ..)
    obtain ⟨hfit, hread⟩ := ih fun y hy => h y (List.mem_cons_of_mem _ hy)
    refine ⟨⟨hx.fits, hfit⟩, fun path => ?_⟩
    simp only [List.map_cons, Value.itemData, Reader.items, hx.reads path, hread path]
    rfl

theorem list {f : α → Value} {xs : List α} (h : ∀ x ∈ xs, Holds r (f x) x) :
    Holds (.list r) (.list (xs.map f)) xs :=
  ⟨(items h).1, fun path => (items h).2 path⟩

theorem texts (xs : List String) : Holds (.list .text) (.texts xs) xs :=
  list fun s _ => text s

theorem pair {q : Reader β} {w : Value} {y : β} (hx : Holds r v x) (hy : Holds q w y)
    (type short : String) : Holds (.pair r q type short) (.list [v, w]) (x, y) := by
  refine ⟨⟨hx.fits, hy.fits, trivial⟩, fun path => ?_⟩
  simp only [Reader.pair, Value.datum, Value.itemData, Scope.follow, hx.reads path, hy.reads path]
  rfl

end Holds

/-- The entries fill fields of the record type and so make `y` of `x`. -/
inductive Fills (s : Shape τ) : List (String × Value) → τ → τ → Prop where
  | nil {x : τ} : Fills s [] x x
  | cons {name : String} {v : Value} {f : Document.Field τ} {change : τ → τ} {es : List (String × Value)}
      {x y : τ} (field : s.fields.find? (fun g => g.name == name) = some f)
      (value : Holds f.reader v change) (more : Fills s es (change x) y) :
      Fills s ((name, v) :: es) x y

namespace Fills

variable {s : Shape τ} {es : List (String × Value)} {x y : τ} {name : String} {v : Value} {a : α}
  {r : Reader α} {set : α → τ → τ}

/-- A field that a record must name. -/
theorem must (field : s.fields.find? (fun g => g.name == name) = some (.must name r set))
    (value : Holds r v a) (more : Fills s es (set a x) y) : Fills s ((name, v) :: es) x y :=
  .cons field (value.map fun a x => set a x) more

/-- A field that a record may leave out. -/
theorem may (field : s.fields.find? (fun g => g.name == name) = some (.may name r set))
    (value : Holds r v a) (more : Fills s es (set a x) y) : Fills s ((name, v) :: es) x y :=
  .cons field (value.map fun a x => set a x) more

theorem fits (h : Fills s es x y) : Value.EntriesFit es := by
  induction h with
  | nil => trivial
  | cons _ value _ ih => exact ⟨value.fits, ih⟩

theorem lists (h : Fills s es x y) (hdistinct : (es.map (·.1)).Nodup) :
    ∃ change, s.Lists scope (Value.entryData es) (es.map (·.1)) change ∧ change x = y := by
  induction h with
  | nil => exact ⟨_, .nil, rfl⟩
  | cons field value _ ih =>
    obtain ⟨hfresh, hlater⟩ := List.nodup_cons.1 hdistinct
    obtain ⟨rest, hrest, hy⟩ := ih hlater
    exact ⟨_, .cons field (fun _ _ => rfl) value.reads hfresh hrest, hy⟩

end Fills

/-- A record that names every required field, and no field twice, holds what its entries make. -/
theorem Holds.record {s : Shape τ} {es : List (String × Value)} {x : τ} (h : Fills s es s.start x)
    (hdistinct : (es.map (·.1)).Nodup)
    (hrequired : ∀ f ∈ s.fields, f.required = true → f.name ∈ es.map (·.1)) :
    Holds s.reader (.record es) x := by
  obtain ⟨change, hlists, rfl⟩ := h.lists hdistinct
  exact ⟨h.fits, Shape.reads_of_lists hlists rfl hrequired⟩

/-- In both layouts, what is printed for the value is read as the value, and what is read is printed
as it was. -/
structure Restored (r : Reader α) (toJson : α → Value) (x : α) : Prop where
  compact : read r (toJson x).compact = .ok x
  pretty : read r (toJson x).pretty = .ok x
  compactAgain : (read r (toJson x).compact).map (fun y => (toJson y).compact) =
    .ok (toJson x).compact
  prettyAgain : (read r (toJson x).pretty).map (fun y => (toJson y).pretty) = .ok (toJson x).pretty

theorem Restored.of_holds {toJson : α → Value} (h : Holds r (toJson x) x) : Restored r toJson x where
  compact := h.read_compact
  pretty := h.read_pretty
  compactAgain := by
    rw [h.read_compact]
    rfl
  prettyAgain := by
    rw [h.read_pretty]
    rfl

end LockDiscipline.Json
