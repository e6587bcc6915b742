import LockDiscipline.Document.Datum
import LockDiscipline.Yaml.Scalar

namespace LockDiscipline.Yaml

open LockDiscipline.Document

/-- An anchored part of the document. -/
structure Anchored where
  number : Nat
  /-- How many anchored parts start before it. -/
  order : Nat
  datum : Datum Scalar

/-- A document of which some tokens are left. -/
structure Gathering where
  tokens : List Token
  /-- What the handles of tags stand for. -/
  handles : List (String × String)
  /-- The numbers of the names. -/
  names : List (String × Nat)
  started : Nat
  anchored : List Anchored

abbrev Gather := StateM Gathering

namespace Gather

def peek : Gather (Option Token) := return (← get).tokens.head?

def advance : Gather Unit := modify fun g => { g with tokens := g.tokens.tail }

/-- Gives up all later tokens. -/
def giveUp : Gather Unit := modify fun g => { g with tokens := [] }

def broken : Gather (Datum Scalar) := do
  giveUp
  return .broken

def nothing : Gather (Datum Scalar) := return .leaf .nothing

/-- Nothing stands before the tokens of `ends`. -/
def unlessAt (ends : List Token) (part : Gather (Datum Scalar)) : Gather (Datum Scalar) := do
  match ← peek with
  | none => broken
  | some t => if ends.contains t then nothing else part

/-- The value of an entry, if the mark for it is there. -/
def valued (ends : List Token) (part : Gather (Datum Scalar)) : Gather (Datum Scalar) := do
  match ← peek with
  | none => broken
  | some .value => do
    advance
    unlessAt ends part
  | some _ => nothing

/-- The anchor and the tag before a node, in either order. -/
def properties : Gather (Option String × Option TagName) := do
  match ← peek with
  | some (.anchor a) => do
    advance
    match ← peek with
    | some (.tag t) => do
      advance
      return (some a, some t)
    | _ => return (some a, none)
  | some (.tag t) => do
    advance
    match ← peek with
    | some (.anchor a) => do
      advance
      return (some a, some t)
    | _ => return (none, some t)
  | _ => return (none, none)

/-- The full text of a tag; `none` if its handle stands for nothing. -/
def fullTag (t : TagName) : Gather (Option String) := do
  if t.handle = "" then return some t.suffix
  else return ((← get).handles.lookup t.handle).map (· ++ t.suffix)

/-- Gives the name its number and counts the part that starts. -/
def declare (name : String) : Gather (Nat × Nat) := do
  let g ← get
  let number := g.names.length
  set { g with
    names := (name, number) :: g.names.filter fun e => e.1 != name
    started := g.started + 1 }
  return (number, g.started)

def register (mark : Option (Nat × Nat)) (t : Datum Scalar) : Gather Unit :=
  match mark with
  | none => return ()
  | some (number, order) => modify fun g => { g with anchored := ⟨number, order, t⟩ :: g.anchored }

mutual

/-- A node. A list whose items are not indented may stand only as the value of a block's entry. -/
def node : Nat → Bool → Bool → Gather (Datum Scalar)
  | 0, _, _ => broken
  | fuel + 1, inBlock, bare => do
    match ← peek with
    | some (.reference name) => do
      advance
      match (← get).names.lookup name with
      | some number => return .reference number
      | none => broken
    | _ => do
      let (anchor, tag) ← properties
      let full ← match tag with
        | none => pure (some none)
        | some t => do pure ((← fullTag t).map some)
      match full with
      | none => broken
      | some tag => do
        let mark ← match anchor with
          | none => pure none
          | some a => do pure (some (← declare a))
        let t ← content fuel inBlock bare (mark.isSome || tag.isSome) tag
        register mark t
        return t

/-- A node without its properties; with some, it may be empty. -/
def content : Nat → Bool → Bool → Bool → Option String → Gather (Datum Scalar)
  | 0, _, _, _, _ => broken
  | fuel + 1, inBlock, bare, mayBeEmpty, tag => do
    match ← peek with
    | none => broken
    | some t =>
      if bare && t = .entry then return .list (← bareItems fuel)
      else
        match t with
        | .scalar text style => do
          advance
          return .leaf ⟨text, style, tag⟩
        | .flowList => do
          advance
          return .list (← flowItems fuel true)
        | .flowRecord => do
          advance
          return .record (← flowEntries fuel true)
        | .blockList => do
          if inBlock then
            advance
            return .list (← blockItems fuel)
          else if mayBeEmpty then return .leaf ⟨"", .plain, tag⟩
          else broken
        | .blockRecord => do
          if inBlock then
            advance
            return .record (← blockEntries fuel)
          else if mayBeEmpty then return .leaf ⟨"", .plain, tag⟩
          else broken
        | _ => if mayBeEmpty then return .leaf ⟨"", .plain, tag⟩ else broken

def blockItems : Nat → Gather (List (Datum Scalar))
  | 0 => return [← broken]
  | fuel + 1 => do
    match ← peek with
    | some .entry => do
      advance
      let t ← unlessAt [.entry, .blockEnd] (node fuel true false)
      return t :: (← blockItems fuel)
    | some .blockEnd => do
      advance
      return []
    | _ => return [← broken]

/-- Items that are not indented deeper than the key before them. -/
def bareItems : Nat → Gather (List (Datum Scalar))
  | 0 => return [← broken]
  | fuel + 1 => do
    match ← peek with
    | some .entry => do
      advance
      let t ← unlessAt [.entry, .key, .value, .blockEnd] (node fuel true false)
      return t :: (← bareItems fuel)
    | some _ => return []
    | none => return [← broken]

def blockEntries : Nat → Gather (List (Datum Scalar × Datum Scalar))
  | 0 => return [(← broken, .broken)]
  | fuel + 1 => do
    match ← peek with
    | some .key => do
      advance
      let k ← unlessAt [.key, .value, .blockEnd] (node fuel true true)
      let v ← valued [.key, .value, .blockEnd] (node fuel true true)
      return (k, v) :: (← blockEntries fuel)
    | some .blockEnd => do
      advance
      return []
    | _ => return [(← broken, .broken)]

/-- The items of a flow list. An entry in it is a record of its own; if its key is missing, the
token that stands there instead is passed over. -/
def flowItems : Nat → Bool → Gather (List (Datum Scalar))
  | 0, _ => return [← broken]
  | fuel + 1, first => do
    match ← peek with
    | some .flowListEnd => do
      advance
      return []
    | some t => do
      if !first then
        if t = .separator then advance else giveUp
      match ← peek with
      | none => return [← broken]
      | some .key => do
        advance
        let k ← match ← peek with
          | none => broken
          | some t =>
            if [Token.value, .separator, .flowListEnd].contains t then do
              advance
              nothing
            else node fuel false false
        let v ← valued [.separator, .flowListEnd] (node fuel false false)
        return .record [(k, v)] :: (← flowItems fuel false)
      | some .flowListEnd => do
        advance
        return []
      | some _ => do
        let t ← node fuel false false
        return t :: (← flowItems fuel false)
    | none => return [← broken]

/-- The entries of a flow record. Without a mark for a key an entry has no value. -/
def flowEntries : Nat → Bool → Gather (List (Datum Scalar × Datum Scalar))
  | 0, _ => return [(← broken, .broken)]
  | fuel + 1, first => do
    match ← peek with
    | some .flowRecordEnd => do
      advance
      return []
    | some t => do
      if !first then
        if t = .separator then advance else giveUp
      match ← peek with
      | none => return [(← broken, .broken)]
      | some .key => do
        advance
        let k ← unlessAt [.value, .separator, .flowRecordEnd] (node fuel false false)
        let v ← valued [.separator, .flowRecordEnd] (node fuel false false)
        return (k, v) :: (← flowEntries fuel false)
      | some .flowRecordEnd => do
        advance
        return []
      | some _ => do
        let k ← node fuel false false
        let v ← match ← peek with
          | none => broken
          | some _ => nothing
        return (k, v) :: (← flowEntries fuel false)
    | none => return [(← broken, .broken)]

end

/-- The directives before a document; each may stand once, and the version is 1.1 or 1.2. -/
def directives : List Token → Bool → List (String × String) →
    Option (List (String × String) × List Token)
  | .version major minor :: ts, seen, hs =>
    if seen || major ≠ 1 || (minor ≠ 1 && minor ≠ 2) then none else directives ts true hs
  | .tagHandle h target :: ts, seen, hs =>
    if (hs.lookup h).isSome then none else directives ts seen ((h, target) :: hs)
  | ts, _, hs => some (hs, ts)

/-- The handles that need no directive. -/
def defaultHandles : List (String × String) := [("!", "!"), ("!!", "tag:yaml.org,2002:")]

/-- The content of a document that was started by its mark. -/
def explicit (fuel : Nat) : Gather (Datum Scalar) := do
  match ← peek with
  | none => broken
  | some t =>
    match t with
    | .version _ _ | .tagHandle _ _ | .documentStart | .documentEnd | .streamEnd => nothing
    | _ => node fuel true false

/-- The first document. An empty text is a document with nothing in it. -/
def document (fuel : Nat) : Gather (Datum Scalar) := do
  let g ← get
  match g.tokens with
  | [] => return .broken
  | .streamEnd :: _ => nothing
  | t :: _ =>
    let marked := match t with
      | .version _ _ | .tagHandle _ _ | .documentStart => true
      | _ => false
    if marked then
      match directives g.tokens false [] with
      | some (hs, .documentStart :: ts) => do
        set { g with tokens := ts, handles := hs ++ defaultHandles }
        explicit fuel
      | _ => broken
    else node fuel true false

end Gather

/-- A text as a document, and whether it ends after it. -/
structure Parsed where
  datum : Datum Scalar
  anchored : List Anchored
  whole : Bool

/-- Whether nothing but the marks for the end of a document is left. -/
def endsHere : List Token → Bool
  | .documentEnd :: ts => endsHere ts
  | .streamEnd :: _ => true
  | _ => false

/-- Gathers the first document. At a token that cannot stand where it does all later ones are given
up, so every open part is closed by a broken one. Every step inwards takes a token within three
calls. -/
def gather (ts : List Token) : Parsed :=
  let start : Gathering := ⟨ts, Gather.defaultHandles, [], 0, []⟩
  let (datum, g) := (Gather.document (4 * ts.length + 8)).run start
  ⟨datum, g.anchored, endsHere g.tokens⟩

/-- The part with the number, the one that starts last. -/
def findAnchored (parts : List Anchored) (number : Nat) : Option (Datum Scalar) :=
  let same := parts.filter fun a => a.number = number
  (same.find? fun a => same.all fun b => b.order ≤ a.order).map (·.datum)

end LockDiscipline.Yaml
