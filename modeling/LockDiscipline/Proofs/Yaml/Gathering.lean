import LockDiscipline.Proofs.Yaml.Lines
import LockDiscipline.Yaml.Text

namespace LockDiscipline.Yaml

open LockDiscipline.Document

namespace Layout

mutual

/-- The datum that a layout stands for. -/
def datum : Layout → Datum Scalar
  | word s => .leaf ⟨s, .plain, none⟩
  | text s => .leaf ⟨s, styleFor s, none⟩
  | record es => .record (entryData es)

def entryData : List (String × Layout) → List (Datum Scalar × Datum Scalar)
  | [] => []
  | (k, v) :: es => (.leaf ⟨k, .plain, none⟩, datum v) :: entryData es

end

end Layout

namespace Gather

variable {α β : Type} {g g' : Gathering} {t : Token} {ts rest : List Token} {fuel : Nat}

/-- One part after another. -/
theorem run_bind {x : Gather α} {a : α} (f : α → Gather β) (h : x.run g = (a, g')) :
    (x >>= f).run g = (f a).run g' := by
  change (f (x.run g).1).run (x.run g).2 = _
  rw [h]

/-- The state with other tokens left. -/
abbrev left (g : Gathering) (ts : List Token) : Gathering := { g with tokens := ts }

theorem run_peek (g : Gathering) : peek.run g = (g.tokens.head?, g) := rfl

theorem run_advance (g : Gathering) (t : Token) (ts : List Token) :
    advance.run (left g (t :: ts)) = ((), left g ts) := rfl

/-- A token that a node without properties starts with. -/
def startsNode : Token → Bool
  | .scalar _ _ | .flowRecord | .blockRecord => true
  | _ => false

theorem run_node (h : startsNode t = true) (fuel : Nat) (inBlock bare : Bool) (g : Gathering)
    (ts : List Token) :
    (node (fuel + 1) inBlock bare).run (left g (t :: ts)) =
      (content fuel inBlock bare false none).run (left g (t :: ts)) := by
  rw [node.eq_2, run_bind _ (run_peek _)]
  cases t with
  | scalar text style => rfl
  | flowRecord => rfl
  | blockRecord => rfl
  | _ => cases h

theorem run_scalar (text : String) (style : Style) (fuel : Nat) (bare : Bool) (g : Gathering)
    (ts : List Token) :
    (node (fuel + 2) true bare).run (left g (.scalar text style :: ts)) =
      (.leaf ⟨text, style, none⟩, left g ts) := by
  rw [run_node rfl, content.eq_2, run_bind _ (run_peek _)]
  cases bare <;> rfl

theorem run_flowRecord (fuel : Nat) (bare : Bool) (g : Gathering) (ts : List Token) :
    (node (fuel + 3) true bare).run (left g (.flowRecord :: .flowRecordEnd :: ts)) =
      (.record [], left g ts) := by
  rw [run_node rfl, content.eq_2, run_bind _ (run_peek _)]
  cases bare <;> rfl

theorem run_blockRecord {es : List (Datum Scalar × Datum Scalar)} (bare : Bool)
    (h : (blockEntries fuel).run (left g ts) = (es, left g rest)) :
    (node (fuel + 2) true bare).run (left g (.blockRecord :: ts)) = (.record es, left g rest) := by
  rw [run_node rfl, content.eq_2, run_bind _ (run_peek _)]
  have hrun : (do advance; return Datum.record (← blockEntries fuel)).run
      (left g (.blockRecord :: ts)) = (.record es, left g rest) := by
    rw [run_bind _ (run_advance ..), run_bind _ h]
    rfl
  cases bare <;> exact hrun

/-- A node that is there is read where one may be missing. -/
theorem run_unlessAt {ends : List Token} {part : Gather (Datum Scalar)} (h : ends.contains t = false)
    (g : Gathering) (ts : List Token) :
    (unlessAt ends part).run (left g (t :: ts)) = part.run (left g (t :: ts)) := by
  rw [unlessAt, run_bind _ (run_peek _)]
  simp only [List.head?_cons, h]
  rfl

theorem contains_ends (h : startsNode t = true) :
    [Token.key, .value, .blockEnd].contains t = false := by
  cases t <;> first | rfl | cases h

/-- An entry of a block is its key and its value. -/
theorem run_entry {k : String} {d : Datum Scalar} {es : List (Datum Scalar × Datum Scalar)}
    {us : List Token} (hstarts : startsNode t = true)
    (hvalue : (node (fuel + 2) true true).run (left g (t :: ts)) = (d, left g us))
    (hrest : (blockEntries (fuel + 2)).run (left g us) = (es, left g rest)) :
    (blockEntries (fuel + 3)).run (left g (.key :: .scalar k .plain :: .value :: t :: ts)) =
      ((.leaf ⟨k, .plain, none⟩, d) :: es, left g rest) := by
  have hkey : (unlessAt [.key, .value, .blockEnd] (node (fuel + 2) true true)).run
      (left g (.scalar k .plain :: .value :: t :: ts)) =
      (.leaf ⟨k, .plain, none⟩, left g (.value :: t :: ts)) := by
    rw [run_unlessAt rfl, run_scalar]
  have hvalued : (valued [.key, .value, .blockEnd] (node (fuel + 2) true true)).run
      (left g (.value :: t :: ts)) = (d, left g us) := by
    rw [valued, run_bind _ (run_peek _)]
    change (advance >>= fun _ => unlessAt _ _).run _ = _
    rw [run_bind _ (run_advance ..)]
    exact (run_unlessAt (contains_ends hstarts) g ts).trans hvalue
  rw [blockEntries.eq_2, run_bind _ (run_peek _)]
  change (advance >>= fun _ => unlessAt _ _ >>= fun k => valued _ _ >>= fun v =>
    blockEntries (fuel + 2) >>= fun es => pure ((k, v) :: es)).run _ = _
  rw [run_bind _ (run_advance ..), run_bind _ hkey, run_bind _ hvalued, run_bind _ hrest]
  rfl

theorem run_blockEnd (fuel : Nat) (g : Gathering) (ts : List Token) :
    (blockEntries (fuel + 1)).run (left g (.blockEnd :: ts)) = ([], left g ts) := rfl

end Gather

namespace Layout

open Gather

/-- The tokens of a layout start a node. -/
theorem tokens_eq_cons (v : Layout) : ∃ t ts, v.tokens = t :: ts ∧ startsNode t = true := by
  cases v with
  | word s => exact ⟨_, _, rfl, rfl⟩
  | text s => exact ⟨_, _, rfl, rfl⟩
  | record es => cases es <;> exact ⟨_, _, rfl, rfl⟩

mutual

/-- The tokens of a layout are gathered into its datum. -/
theorem run_tokens (v : Layout) {fuel : Nat} (hfuel : 3 * v.tokens.length ≤ fuel) (bare : Bool)
    (g : Gathering) (rest : List Token) :
    (node fuel true bare).run (left g (v.tokens ++ rest)) = (v.datum, left g rest) := by
  match v with
  | word s =>
    obtain ⟨fuel, rfl⟩ : ∃ n, fuel = n + 2 := ⟨fuel - 2, by simp [Layout.tokens] at hfuel; omega⟩
    exact run_scalar s .plain fuel bare g rest
  | text s =>
    obtain ⟨fuel, rfl⟩ : ∃ n, fuel = n + 2 := ⟨fuel - 2, by simp [Layout.tokens] at hfuel; omega⟩
    exact run_scalar s (styleFor s) fuel bare g rest
  | record [] =>
    obtain ⟨fuel, rfl⟩ : ∃ n, fuel = n + 3 := ⟨fuel - 3, by simp [Layout.tokens] at hfuel; omega⟩
    exact run_flowRecord fuel bare g rest
  | record (e :: es) =>
    simp only [Layout.tokens, List.length_cons, List.length_append] at hfuel
    obtain ⟨fuel, rfl⟩ : ∃ n, fuel = n + 2 := ⟨fuel - 2, by omega⟩
    have h := run_entryTokens (e :: es) (show _ < fuel by omega) g rest
    simpa [Layout.tokens, datum] using run_blockRecord bare h

theorem run_entryTokens (es : List (String × Layout)) {fuel : Nat}
    (hfuel : 3 * (entryTokens es).length < fuel) (g : Gathering) (rest : List Token) :
    (blockEntries fuel).run (left g (entryTokens es ++ .blockEnd :: rest)) =
      (entryData es, left g rest) := by
  match es with
  | [] =>
    obtain ⟨fuel, rfl⟩ : ∃ n, fuel = n + 1 := ⟨fuel - 1, by omega⟩
    exact run_blockEnd fuel g rest
  | (k, v) :: es =>
    obtain ⟨t, ts, hts, hstarts⟩ := tokens_eq_cons v
    simp only [entryTokens, List.length_cons, List.length_append] at hfuel
    obtain ⟨fuel, rfl⟩ : ∃ n, fuel = n + 3 := ⟨fuel - 3, by omega⟩
    have hvalue := run_tokens v (show _ ≤ fuel + 2 by omega) true g
      (entryTokens es ++ .blockEnd :: rest)
    have hrest := run_entryTokens es (show _ < fuel + 2 by omega) g rest
    rw [hts, List.cons_append] at hvalue
    simpa [entryTokens, entryData, hts] using run_entry hstarts hvalue hrest

end

/-- A written document is read as its record, and as nothing more. -/
theorem parse_document {es : List (String × Layout)} (hes : SoundEntries es) (hne : es ≠ []) :
    parse (document es) = ⟨(Layout.record es).datum, [], true⟩ := by
  obtain ⟨e, es, rfl⟩ := List.exists_cons_of_ne_nil hne
  have hrun (fuel : Nat) (hfuel : 3 * (Layout.record (e :: es)).tokens.length ≤ fuel) :
      (Gather.document fuel).run
        ⟨(Layout.record (e :: es)).tokens ++ [.streamEnd], defaultHandles, [], 0, []⟩ =
      ((Layout.record (e :: es)).datum, ⟨[.streamEnd], defaultHandles, [], 0, []⟩) :=
    run_tokens (.record (e :: es)) hfuel false ⟨[], defaultHandles, [], 0, []⟩ [.streamEnd]
  rw [parse, tokens_document hes hne, gather]
  simp only [hrun (4 * ((Layout.record (e :: es)).tokens ++ [Token.streamEnd]).length + 8)
    (by rw [List.length_append]; omega)]
  rfl

end Layout

end LockDiscipline.Yaml
