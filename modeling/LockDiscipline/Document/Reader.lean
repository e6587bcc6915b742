import LockDiscipline.Document.Datum
import LockDiscipline.Document.Mismatch

namespace LockDiscipline.Document

/-- What a scalar is when no reader asked for its kind. -/
inductive Nature where
  | found (what : Found)
  /-- The scalar claims a kind that its text does not have. -/
  | unfit (cause : Mismatch)
  /-- The scalar's text is not of the format after all. -/
  | malformed

/-- Whether a scalar stands for the absence of a value. -/
inductive Presence where
  | present
  | absent
  | unfit (cause : Mismatch)

/-- How the scalars of a format answer. -/
structure Dialect (σ : Type) where
  wording : Wording
  nature : σ → Nature
  flag : σ → Option Bool
  natural : σ → Option Nat
  /-- Negative numbers that are refused for their value and not for their type. -/
  negative : σ → Option Int
  text : σ → Option String
  presence : σ → Presence
  /-- Scalars that also stand for a record without entries. -/
  emptyRecord : σ → Bool
  /-- Whether a record may be written as the list of its values. -/
  rows : Bool
  /-- Whether a key that is no text makes the whole document malformed. -/
  textKeys : Bool

/-- A document: how its scalars answer, and where its references lead. -/
structure Scope (σ : Type) where
  dialect : Dialect σ
  anchored : Nat → Option (Datum σ)

namespace Scope

variable {σ : Type}

/-- The datum itself, or the one that it refers to. -/
def follow (d : Scope σ) : Datum σ → Datum σ
  | .reference a => (d.anchored a).getD .broken
  | t => t

/-- The failure of a reader that wanted something else than the datum. -/
def refuse (d : Scope σ) (path : List String) (expected : String) : Datum σ → Failure
  | .leaf s =>
    match d.dialect.nature s with
    | .found what => .mismatch path (.wrongType what expected)
    | .unfit cause => .mismatch path cause
    | .malformed => .malformed
  | .list _ => .mismatch path (.wrongType .list expected)
  | .record _ => .mismatch path (.wrongType .record expected)
  | .reference _ => .malformed
  | .broken => .malformed

/-- The text of a key, which is `expected` to be a name. -/
def key (d : Scope σ) (path : List String) (expected : String) (k : Datum σ) :
    Except Failure String :=
  let t := d.follow k
  let refused := if d.dialect.textKeys then Failure.malformed else d.refuse path expected t
  match t with
  | .leaf s => ((d.dialect.text s).map Except.ok).getD (.error refused)
  | _ => .error refused

/-- How a path names the entry: by its key, if that is written out. -/
def segment (d : Scope σ) : Datum σ → String
  | .leaf s => (d.dialect.text s).getD "?"
  | _ => "?"

end Scope

/-- A way to read a value of type `α` at a place of a document, in any format. -/
structure Reader (α : Type) where
  run : {σ : Type} → Scope σ → List String → Datum σ → Except Failure α

namespace Reader

variable {α β : Type}

protected def map (f : α → β) (r : Reader α) : Reader β where
  run d path t := (r.run d path t).map f

/-- A truth value. -/
def flag : Reader Bool where
  run d path t :=
    match d.follow t with
    | .leaf s =>
      match d.dialect.flag s with
      | some b => .ok b
      | none => .error (d.refuse path "a boolean" (.leaf s))
    | t => .error (d.refuse path "a boolean" t)

/-- A natural number below the limit, which goes by the name of its type. -/
def natural (limit : Nat) (type : String) : Reader Nat where
  run d path t :=
    match d.follow t with
    | .leaf s =>
      match d.dialect.natural s, d.dialect.negative s with
      | some n, _ =>
        if n < limit then .ok n else .error (.mismatch path (.wrongValue (.integer n) type))
      | none, some i => .error (.mismatch path (.wrongValue (.integer i) type))
      | none, none => .error (d.refuse path type (.leaf s))
    | t => .error (d.refuse path type t)

/-- A word of 64 bits, known by the name of its type. -/
def word (type : String) : Reader UInt64 := (natural UInt64.size type).map UInt64.ofNat

def text : Reader String where
  run d path t :=
    match d.follow t with
    | .leaf s =>
      match d.dialect.text s with
      | some s => .ok s
      | none => .error (d.refuse path "a string" (.leaf s))
    | t => .error (d.refuse path "a string" t)

/-- A value that may be absent. A scalar that is unfit to say so is a fault of the record around it,
so the mismatch is placed there. -/
def optional (r : Reader α) : Reader (Option α) where
  run d path t :=
    match d.follow t with
    | .leaf s =>
      match d.dialect.presence s with
      | .absent => .ok none
      | .present => (r.run d path (.leaf s)).map some
      | .unfit cause => .error (.mismatch path.dropLast cause)
    | t => (r.run d path t).map some

def items (r : Reader α) {σ : Type} (d : Scope σ) (path : List String) :
    List (Datum σ) → Except Failure (List α)
  | [] => .ok []
  | t :: ts => do
    let x ← r.run d path t
    let xs ← items r d path ts
    return x :: xs

/-- A list of values of one kind. -/
def list (r : Reader α) : Reader (List α) where
  run d path t :=
    match d.follow t with
    | .list ts => r.items d path ts
    | t => .error (d.refuse path "a sequence" t)

/-- Exactly two values. The type has a name of its own or is an unnamed pair. -/
def pair (r : Reader α) (q : Reader β) (type short : String) : Reader (α × β) where
  run d path t :=
    match d.follow t with
    | .list [] => .error (.mismatch path (.wrongLength 0 short))
    | .list [a] => do
      let _ ← r.run d path a
      .error (.mismatch path (.wrongLength 1 short))
    | .list (a :: b :: rest) => do
      let x ← r.run d path a
      let y ← q.run d path b
      if rest.isEmpty then return (x, y) else .error .malformed
    | t => .error (d.refuse path type t)

/-- What the name of a choice stands for. -/
def named (choices : List (String × α)) (path : List String) (name : String) : Except Failure α :=
  match choices.lookup name with
  | some x => .ok x
  | none => .error (.mismatch path (.unknownChoice name (choices.map (·.1))))

/-- One of several names, by itself or as the only key of a record, with nothing as its value. -/
def choice (choices : List (String × α)) : Reader α where
  run d path t :=
    match d.follow t with
    | .leaf s => ((d.dialect.text s).map (named choices path)).getD (.error .malformed)
    | .record ((k, v) :: rest) => do
      let x ← named choices path (← d.key path "variant identifier" k)
      match v with
      | .leaf s =>
        match d.dialect.presence s with
        | .absent => if rest.isEmpty then return x else .error .malformed
        | _ => .error (d.refuse path "unit" v)
      | _ => .error (d.refuse path "unit" v)
    | _ => .error .malformed

end Reader

end LockDiscipline.Document
