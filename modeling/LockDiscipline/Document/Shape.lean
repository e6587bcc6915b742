import LockDiscipline.Document.Reader

namespace LockDiscipline.Document

/-- One field of a record of type `τ`. -/
structure Field (τ : Type) where
  name : String
  /-- Whether a record must name the field. -/
  required : Bool
  /-- Whether a row of values may end before the field. -/
  rowEnd : Bool
  /-- Reads the value and says what it changes. -/
  reader : Reader (τ → τ)

namespace Field

variable {τ ρ : Type}

/-- A field that a record must name and a row must reach. -/
def must (name : String) (r : Reader τ) (set : τ → ρ → ρ) : Field ρ :=
  ⟨name, true, false, r.map fun v x => set v x⟩

/-- A field that a record may leave out and a row must reach. -/
def may (name : String) (r : Reader τ) (set : τ → ρ → ρ) : Field ρ :=
  ⟨name, false, false, r.map fun v x => set v x⟩

/-- A field that both may leave out. -/
def free (name : String) (r : Reader τ) (set : τ → ρ → ρ) : Field ρ :=
  ⟨name, false, true, r.map fun v x => set v x⟩

end Field

/-- A record type: it starts from the value that holds when nothing is named. -/
structure Shape (τ : Type) where
  name : String
  fields : List (Field τ)
  /-- Whether unknown names are refused. -/
  strict : Bool
  start : τ

namespace Shape

variable {τ σ : Type}

def names (s : Shape τ) : List String := s.fields.map (·.name)

/-- The value once all entries are read; the first required field that was not seen is missed. -/
def close (s : Shape τ) (path : List String) (seen : List String) (x : τ) : Except Failure τ :=
  match s.fields.find? fun f => f.required && !seen.contains f.name with
  | some f => .error (.mismatch path (.missingField f.name))
  | none => .ok x

/-- Reads the entries in their order onto `x`. -/
def entries (s : Shape τ) (d : Scope σ) (path : List String) :
    List (Datum σ × Datum σ) → List String → τ → Except Failure τ
  | [], seen, x => s.close path seen x
  | (k, v) :: rest, seen, x => do
    let name ← d.key path "field identifier" k
    match s.fields.find? fun f => f.name == name with
    | none =>
      if s.strict then .error (.mismatch path (.unknownField name s.names))
      else if v.intact then entries s d path rest seen x
      else .error .malformed
    | some f =>
      if seen.contains name then .error (.mismatch path (.repeatedField name))
      else do
        let change ← f.reader.run d (path ++ [d.segment k]) v
        entries s d path rest (name :: seen) (change x)

/-- The phrase for a row that ends too early. -/
def rowPhrase (s : Shape τ) : String :=
  let n := s.fields.length
  s!"struct {s.name} with {n} element" ++ (if n = 1 then "" else "s")

/-- Reads the values in the order of the fields onto `x`; `done` values were read before. -/
def row (s : Shape τ) (d : Scope σ) (path : List String) :
    List (Field τ) → List (Datum σ) → Nat → τ → Except Failure τ
  | [], [], _, x => .ok x
  | [], _ :: _, _, _ => .error .malformed
  | f :: fs, [], done, x =>
    if f.rowEnd then row s d path fs [] (done + 1) x
    else .error (.mismatch path (.wrongLength done s.rowPhrase))
  | f :: fs, t :: ts, done, x => do
    let change ← f.reader.run d path t
    row s d path fs ts (done + 1) (change x)

/-- The reader of the record type. -/
def reader (s : Shape τ) : Reader τ where
  run d path t :=
    match d.follow t with
    | .record es => s.entries d path es [] s.start
    | .list ts =>
      if d.dialect.rows then s.row d path s.fields ts 0 s.start
      else .error (d.refuse path s!"struct {s.name}" (.list ts))
    | .leaf c =>
      if d.dialect.emptyRecord c then s.close path [] s.start
      else .error (d.refuse path s!"struct {s.name}" (.leaf c))
    | t => .error (d.refuse path s!"struct {s.name}" t)

end Shape

end LockDiscipline.Document
