import LockDiscipline.Document.Shape

namespace LockDiscipline.Document

variable {σ τ α : Type} {d : Scope σ} {t : Datum σ}

/-- The datum stands for the value, at whatever place it stands. -/
def Reader.Reads (r : Reader α) (d : Scope σ) (t : Datum σ) (x : α) : Prop :=
  ∀ path, r.run d path t = .ok x

/-- The datum is a key with the name. -/
def Scope.Names (d : Scope σ) (name : String) (k : Datum σ) : Prop :=
  ∀ path expected, d.key path expected k = .ok name

theorem Reader.Reads.map {r : Reader α} {x : α} (h : r.Reads d t x) {β : Type} (f : α → β) :
    (r.map f).Reads d t (f x) := by
  intro path
  change (r.run d path t).map f = .ok (f x)
  rw [h path]
  rfl

/-- A number that fits is a word. -/
theorem Reader.reads_word {s : σ} {n : UInt64} (ht : d.follow t = .leaf s)
    (h : d.dialect.natural s = some n.toNat) (type : String) :
    (Reader.word type).Reads d t n := by
  have hlt : n.toNat < UInt64.size := n.toNat_lt
  have hnatural : (Reader.natural UInt64.size type).Reads d t n.toNat := by
    intro path
    simp only [Reader.natural, ht, h, hlt, if_true]
  have hword := hnatural.map UInt64.ofNat
  rwa [UInt64.ofNat_toNat] at hword

/-- A record is there, so it is not absent. -/
theorem Reader.reads_optional {r : Reader α} {es : List (Datum σ × Datum σ)} {x : α}
    (ht : d.follow t = .record es) (h : r.Reads d (.record es) x) :
    (Reader.optional r).Reads d t (some x) := by
  intro path
  simp only [Reader.optional, ht, h path]
  rfl

namespace Shape

variable {s : Shape τ}

/-- The entries name these fields, each once and in this order, and change a value in this way. -/
inductive Lists (s : Shape τ) (d : Scope σ) :
    List (Datum σ × Datum σ) → List String → (τ → τ) → Prop where
  | nil : Lists s d [] [] fun x => x
  | cons {k v : Datum σ} {name : String} {f : Field τ} {change rest : τ → τ}
      {es : List (Datum σ × Datum σ)} {names : List String}
      (field : s.fields.find? (fun g => g.name == name) = some f) (key : d.Names name k)
      (value : f.reader.Reads d v change) (fresh : name ∉ names) (more : Lists s d es names rest) :
      Lists s d ((k, v) :: es) (name :: names) fun x => rest (change x)

theorem entries_of_lists {es : List (Datum σ × Datum σ)} {names : List String} {change : τ → τ}
    (h : s.Lists d es names change) (path seen : List String) (x : τ)
    (hseen : ∀ n ∈ names, n ∉ seen) :
    s.entries d path es seen x = s.close path (names.reverse ++ seen) (change x) := by
  induction h generalizing seen x with
  | nil => rfl
  | @cons k v name f change rest es names hfield hkey hvalue hfresh _ ih =>
    have hunseen : seen.contains name = false := by
      simpa using hseen name (List.mem_cons_self ..)
    have hlater : ∀ n ∈ names, n ∉ name :: seen := by
      intro n hn hmem
      rcases List.mem_cons.1 hmem with rfl | hmem
      · exact hfresh hn
      · exact hseen n (List.mem_cons_of_mem _ hn) hmem
    have hrest := ih (name :: seen) (change x) hlater
    simp only [entries, hkey path "field identifier", bind, Except.bind, hfield, hunseen,
      hvalue (path ++ [d.segment k]), Bool.false_eq_true, if_false, hrest]
    simp

/-- A record that names all required fields is the value that its entries make. -/
theorem reads_of_lists {es : List (Datum σ × Datum σ)} {names : List String} {change : τ → τ}
    (h : s.Lists d es names change) (ht : d.follow t = .record es)
    (hrequired : ∀ f ∈ s.fields, f.required = true → f.name ∈ names) :
    s.reader.Reads d t (change s.start) := by
  intro path
  have hclose : s.close path (names.reverse ++ []) (change s.start) = .ok (change s.start) := by
    have hfound : s.fields.find? (fun f => f.required && !(names.reverse ++ []).contains f.name) =
        none := by
      rw [List.find?_eq_none]
      intro f hf hmissing
      have hmem := hrequired f hf (Bool.and_eq_true_iff.1 hmissing).1
      simp [hmem] at hmissing
    simp only [close, hfound]
  simp only [reader, ht]
  rw [entries_of_lists h path [] s.start (by simp), hclose]

end Shape

end LockDiscipline.Document
