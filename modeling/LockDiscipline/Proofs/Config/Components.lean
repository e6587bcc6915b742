import Mathlib.Data.List.Forall2
import LockDiscipline.Config.Export
import LockDiscipline.Proofs.Yaml.Words

namespace LockDiscipline.Config

open LockDiscipline.Document
open LockDiscipline.Yaml (Layout)

/-- How the absence of a value is written. -/
def null : Layout := .word "null"

theorem sound_null : null.Sound := ⟨by decide, Yaml.mayBePlain_of_word (by decide)⟩

/-- The value of a field. -/
inductive Setting where
  | flag (b : Bool)
  | word (n : UInt64)
  | text (s : Option String)
  deriving DecidableEq, Repr

namespace Setting

/-- The datum stands for the value. -/
def States {σ : Type} (d : Scope σ) (t : Datum σ) : Setting → Prop
  | flag b => Reader.flag.Reads d t b
  | word n => ∀ type, (Reader.word type).Reads d t n
  | text s => (Reader.optional .text).Reads d t s

/-- How the value is written. -/
def layout : Setting → Layout
  | flag b => flagWord b
  | word n => numberWord n
  | text (some s) => .text s
  | text none => null

theorem sound_layout (v : Setting) : v.layout.Sound := by
  cases v with
  | flag b => cases b <;> exact ⟨by decide, Yaml.mayBePlain_of_word (by decide)⟩
  | word n =>
    exact ⟨Yaml.toList_repr_ne_nil _, Yaml.mayBePlain_of_word
      (List.all_eq_true.2 fun c => Yaml.isKeyChar_of_mem_repr)⟩
  | text s =>
    cases s with
    | some s => trivial
    | none => exact sound_null

/-- What is written for a value states it. -/
theorem states_layout (anchored : Nat → Option (Datum Yaml.Scalar)) (v : Setting) :
    v.States ⟨Yaml.dialect, anchored⟩ v.layout.datum := by
  cases v with
  | flag b => exact Yaml.reads_flag b
  | word n => exact fun type => Yaml.reads_word type n
  | text s =>
    cases s with
    | some s => exact Yaml.reads_optional_text s
    | none => exact fun _ => rfl

end Setting

/-- A record type `τ` that a document fills in, each entry with one edit of `ε`. -/
structure Form (τ ε : Type) where
  shape : Shape τ
  edit : τ → ε → τ
  /-- The name of the field that an edit sets. -/
  field : ε → String
  isKey : ∀ e, Yaml.IsKey (field e)
  /-- The datum states the edit, as the value of its field. -/
  States : {σ : Type} → Scope σ → ε → Datum σ → Prop
  reads : ∀ {σ : Type} {d : Scope σ} {e : ε} {t : Datum σ}, States d e t →
    ∃ f, shape.fields.find? (fun g => g.name == field e) = some f ∧
      f.reader.Reads d t fun x => edit x e

namespace Form

variable {τ ε σ : Type} {k : Form τ ε} {d : Scope σ} {t : Datum σ} {es : List ε}

def editAll (k : Form τ ε) (x : τ) (es : List ε) : τ := es.foldl k.edit x

/-- The datum is a record that states these edits, each field once, and nothing else. -/
structure Filled (k : Form τ ε) (d : Scope σ) (t : Datum σ) (es : List ε) : Prop where
  distinct : (es.map k.field).Nodup
  entries : ∃ items, d.follow t = .record items ∧
    List.Forall₂ (fun item e => d.Names (k.field e) item.1 ∧ k.States d e item.2) items es

/-- The datum may also be absent, and then it states nothing. -/
def FilledIfAny (k : Form τ ε) (d : Scope σ) (t : Datum σ) : Option (List ε) → Prop
  | none => ∃ s, d.follow t = .leaf s ∧ d.dialect.presence s = .absent
  | some es => k.Filled d t es

theorem lists_of_forall₂ {items : List (Datum σ × Datum σ)} (hes : (es.map k.field).Nodup)
    (h : List.Forall₂ (fun item e => d.Names (k.field e) item.1 ∧ k.States d e item.2) items es) :
    k.shape.Lists d items (es.map k.field) fun x => k.editAll x es := by
  induction h with
  | nil => exact .nil
  | cons hitem _ ih =>
    obtain ⟨hfresh, hes⟩ := List.nodup_cons.1 hes
    obtain ⟨f, hfind, hread⟩ := k.reads hitem.2
    exact .cons hfind hitem.1 hread hfresh (ih hes)

/-- A record is read as what the shape starts from, with the edits that it states. -/
theorem Filled.reads (h : k.Filled d t es)
    (hrequired : ∀ f ∈ k.shape.fields, f.required = true → f.name ∈ es.map k.field) :
    k.shape.reader.Reads d t (k.editAll k.shape.start es) := by
  obtain ⟨items, ht, hitems⟩ := h.entries
  exact Shape.reads_of_lists (lists_of_forall₂ h.distinct hitems) ht hrequired

theorem FilledIfAny.reads {es : Option (List ε)} (h : k.FilledIfAny d t es)
    (hoptional : ∀ f ∈ k.shape.fields, f.required = false) :
    (Reader.optional k.shape.reader).Reads d t (es.map (k.editAll k.shape.start)) := by
  cases es with
  | none =>
    obtain ⟨s, ht, hs⟩ := h
    intro path
    simp only [Reader.optional, ht, hs]
    rfl
  | some es =>
    obtain ⟨items, ht, hitems⟩ := h.entries
    refine Reader.reads_optional ht (Shape.reads_of_lists (lists_of_forall₂ h.distinct hitems) rfl
      fun f hf hrequired => ?_)
    rw [hoptional f hf] at hrequired
    cases hrequired

theorem sound_layout (write : ε → Layout) (hwrite : ∀ e ∈ es, (write e).Sound) :
    (Layout.record (es.map fun e => (k.field e, write e))).Sound := by
  change Layout.SoundEntries _
  induction es with
  | nil => trivial
  | cons e es ih =>
    exact ⟨k.isKey e, hwrite e (List.mem_cons_self ..),
      ih fun e' he' => hwrite e' (List.mem_cons_of_mem e he')⟩

/-- What is written for edits that are stated by what is written for each of them. -/
theorem filled_layout {anchored : Nat → Option (Datum Yaml.Scalar)} (write : ε → Layout)
    (hdistinct : (es.map k.field).Nodup)
    (hwrite : ∀ e ∈ es, k.States ⟨Yaml.dialect, anchored⟩ e (write e).datum) :
    k.Filled ⟨Yaml.dialect, anchored⟩
      (Layout.record (es.map fun e => (k.field e, write e))).datum es := by
  refine ⟨hdistinct, Layout.entryData (es.map fun e => (k.field e, write e)), rfl, ?_⟩
  clear hdistinct
  induction es with
  | nil => exact .nil
  | cons e es ih =>
    exact .cons ⟨Yaml.names_key _, hwrite e (List.mem_cons_self ..)⟩
      (ih fun e' he' => hwrite e' (List.mem_cons_of_mem e he'))

/-- A record that may be absent is written as null where it is. -/
theorem filledIfAny_layout {anchored : Nat → Option (Datum Yaml.Scalar)}
    {es : Option (List ε)} (write : List ε → Layout)
    (hwrite : ∀ l ∈ es, k.Filled ⟨Yaml.dialect, anchored⟩ (write l).datum l) :
    k.FilledIfAny ⟨Yaml.dialect, anchored⟩ (es.elim null write).datum es := by
  cases es with
  | none => exact ⟨_, rfl, rfl⟩
  | some l => exact hwrite l rfl

end Form

/-- The list with another value under the name. -/
def setTo (name : String) (v : Setting) (list : List (String × Setting)) : List (String × Setting) :=
  list.map fun s => if s.1 = name then (name, v) else s

theorem lookup_setTo (name : String) (v : Setting) (list : List (String × Setting)) (n : String) :
    (setTo name v list).lookup n =
      if n = name then (list.lookup n).map fun _ => v else list.lookup n := by
  induction list with
  | nil => simp [setTo]
  | cons s list ih =>
    obtain ⟨m, w⟩ := s
    change List.lookup n ((if m = name then (name, v) else (m, w)) :: setTo name v list) = _
    by_cases hn : n = m
    · subst hn
      by_cases hname : n = name <;> simp [hname]
    · have hother : (n == m) = false := beq_false_of_ne hn
      by_cases hm : m = name
      · subst hm
        simp [List.lookup_cons, hother, ih]
      · simp [hm, List.lookup_cons, hother, ih]

/-- The settings `τ` of one detector, as a form of fields that are independent of each other and
have bounds. -/
structure Component (τ ε : Type) extends Form τ ε where
  /-- The value that an edit sets its field to. -/
  value : ε → Setting
  settings : τ → List (String × Setting)
  settings_edit : ∀ x e, settings (edit x e) = setTo (field e) (value e) (settings x)
  lookup_field : ∀ x e, ((settings x).lookup (field e)).isSome
  ext : ∀ x y, (∀ name ∈ shape.names, (settings x).lookup name = (settings y).lookup name) → x = y
  optional : ∀ f ∈ shape.fields, f.required = false
  states_iff : ∀ {σ : Type} {d : Scope σ} {e : ε} {t : Datum σ},
    States d e t ↔ (value e).States d t
  ofPreset : Preset → τ
  fault? : τ → Option Fault
  InRange : ε → Prop
  fault?_ofPreset : ∀ p, fault? (ofPreset p) = none
  fault?_edit : ∀ {x : τ} {e : ε}, fault? x = none → InRange e → fault? (edit x e) = none

namespace Component

variable {τ ε : Type} {k : Component τ ε} {es : List ε}

/-- The value of a field in the settings. -/
def get (k : Component τ ε) (name : String) (x : τ) : Option Setting := (k.settings x).lookup name

theorem get_edit (k : Component τ ε) (x : τ) (e : ε) (name : String) :
    k.get name (k.edit x e) = if name = k.field e then some (k.value e) else k.get name x := by
  rw [get, k.settings_edit, lookup_setTo]
  by_cases hname : name = k.field e
  · obtain ⟨v, hv⟩ := Option.isSome_iff_exists.1 (k.lookup_field x e)
    simp [hname, hv]
  · simp [hname, get]

/-- What edits say about a field; the last one counts. -/
def mention (k : Component τ ε) (es : List ε) (name : String) : Option Setting :=
  es.reverse.findSome? fun e => if name = k.field e then some (k.value e) else none

theorem mention_cons (e : ε) (es : List ε) (name : String) :
    k.mention (e :: es) name =
      (k.mention es name).or (if name = k.field e then some (k.value e) else none) := by
  rw [mention, List.reverse_cons, List.findSome?_append]
  simp [mention]

/-- Edits leave the fields alone that they do not name. -/
theorem get_editAll (x : τ) (es : List ε) (name : String) :
    k.get name (k.editAll x es) = (k.mention es name).or (k.get name x) := by
  induction es generalizing x with
  | nil => rfl
  | cons e es ih =>
    have hget := k.get_edit x e name
    change k.get name (k.editAll (k.edit x e) es) = _
    rw [ih, hget, mention_cons, Option.or_assoc]
    split <;> simp

/-- Edits within the bounds keep settings sound. -/
theorem fault?_editAll {x : τ} (hx : k.fault? x = none) (hes : ∀ e ∈ es, k.InRange e) :
    k.fault? (k.editAll x es) = none := by
  induction es generalizing x with
  | nil => exact hx
  | cons e es ih =>
    exact ih (k.fault?_edit hx (hes e (List.mem_cons_self ..)))
      fun e' he' => hes e' (List.mem_cons_of_mem e he')

/-- How edits are written. -/
def layout (k : Component τ ε) (es : List ε) : Layout :=
  .record (es.map fun e => (k.field e, (k.value e).layout))

theorem sound_layout : (k.layout es).Sound :=
  Form.sound_layout _ fun e _ => (k.value e).sound_layout

theorem sound_layoutIfAny (es : Option (List ε)) : (es.elim null k.layout).Sound := by
  cases es with
  | none => exact sound_null
  | some es => exact sound_layout

/-- What is written for edits states them. -/
theorem filled_layout {anchored : Nat → Option (Datum Yaml.Scalar)}
    (hes : (es.map k.field).Nodup) :
    k.Filled ⟨Yaml.dialect, anchored⟩ (k.layout es).datum es :=
  Form.filled_layout _ hes fun _ _ => k.states_iff.2 (Setting.states_layout ..)

end Component

namespace RecorderSettings.Edit

def field : Edit → String
  | captureBacktrace _ => "capture_backtrace"
  | echoWitnesses _ => "echo_witnesses"
  | strict _ => "strict"
  | sweepEvery _ => "sweep_every"

def value : Edit → Setting
  | captureBacktrace b | echoWitnesses b | strict b => .flag b
  | sweepEvery n => .word n

def InRange : Edit → Prop
  | sweepEvery n => 1 ≤ n ∧ n ≤ 1000000
  | _ => True

end RecorderSettings.Edit

def recorder : Component RecorderSettings RecorderSettings.Edit where
  shape := RecorderSettings.shape
  edit := RecorderSettings.edit
  field := RecorderSettings.Edit.field
  isKey e := by cases e <;> simp only [RecorderSettings.Edit.field] <;> decide
  States d e t := e.value.States d t
  reads {σ d e t} h := by
    cases e with
    | captureBacktrace b => exact ⟨_, rfl, Reader.Reads.map h _⟩
    | echoWitnesses b => exact ⟨_, rfl, Reader.Reads.map h _⟩
    | strict b => exact ⟨_, rfl, Reader.Reads.map h _⟩
    | sweepEvery n => exact ⟨_, rfl, Reader.Reads.map (h _) _⟩
  value := RecorderSettings.Edit.value
  settings s := [("capture_backtrace", .flag s.captureBacktrace),
    ("echo_witnesses", .flag s.echoWitnesses), ("strict", .flag s.strict),
    ("sweep_every", .word s.sweepEvery)]
  settings_edit x e := by cases e <;> rfl
  lookup_field x e := by cases e <;> rfl
  ext x y h := by
    have hbacktrace := h "capture_backtrace" (by decide)
    have hecho := h "echo_witnesses" (by decide)
    have hstrict := h "strict" (by decide)
    have hsweep := h "sweep_every" (by decide)
    obtain ⟨b, c, s, n⟩ := x
    obtain ⟨b', c', s', n'⟩ := y
    simp [List.lookup_cons] at hbacktrace hecho hstrict hsweep
    rw [hbacktrace, hecho, hstrict, hsweep]
  optional f hf := by
    simp only [RecorderSettings.shape, List.mem_cons, List.not_mem_nil, or_false] at hf
    rcases hf with rfl | rfl | rfl | rfl <;> rfl
  states_iff := Iff.rfl
  ofPreset := .ofPreset
  fault? := RecorderSettings.fault?
  InRange := RecorderSettings.Edit.InRange
  fault?_ofPreset p := by cases p <;> rfl
  fault?_edit {x e} hx he := by
    cases e with
    | sweepEvery n => exact Bounds.fault?_eq_none_iff.2 he
    | _ => exact hx

/-- An edit as a document states it: a namespace may also be taken away. -/
inductive SamplerSettings.Statement where
  | intervalMs (n : UInt64)
  | nameSpace (s : Option String)
  deriving DecidableEq, Repr

namespace SamplerSettings.Statement

def set (s : SamplerSettings) : Statement → SamplerSettings
  | intervalMs n => { s with intervalMs := n }
  | nameSpace n => { s with nameSpace := n }

def field : Statement → String
  | intervalMs _ => "interval_ms"
  | nameSpace _ => "namespace"

def value : Statement → Setting
  | intervalMs n => .word n
  | nameSpace s => .text s

def InRange : Statement → Prop
  | intervalMs n => 1 ≤ n ∧ n ≤ 60000
  | nameSpace s => ∀ t ∈ s, Text.isBlankText t = false

end SamplerSettings.Statement

def sampler : Component SamplerSettings SamplerSettings.Statement where
  shape := SamplerSettings.shape
  edit := SamplerSettings.Statement.set
  field := SamplerSettings.Statement.field
  isKey e := by cases e <;> simp only [SamplerSettings.Statement.field] <;> decide
  States d e t := e.value.States d t
  reads {σ d e t} h := by
    cases e with
    | intervalMs n => exact ⟨_, rfl, Reader.Reads.map (h _) _⟩
    | nameSpace s => exact ⟨_, rfl, Reader.Reads.map h _⟩
  value := SamplerSettings.Statement.value
  settings s := [("interval_ms", .word s.intervalMs), ("namespace", .text s.nameSpace)]
  settings_edit x e := by cases e <;> rfl
  lookup_field x e := by cases e <;> rfl
  ext x y h := by
    have hinterval := h "interval_ms" (by decide)
    have hspace := h "namespace" (by decide)
    obtain ⟨n, s⟩ := x
    obtain ⟨n', s'⟩ := y
    simp [List.lookup_cons] at hinterval hspace
    rw [hinterval, hspace]
  optional f hf := by
    simp only [SamplerSettings.shape, List.mem_cons, List.not_mem_nil, or_false] at hf
    rcases hf with rfl | rfl <;> rfl
  states_iff := Iff.rfl
  ofPreset := .ofPreset
  fault? := SamplerSettings.fault?
  InRange := SamplerSettings.Statement.InRange
  fault?_ofPreset p := by cases p <;> rfl
  fault?_edit {x e} hx he := by
    obtain ⟨hinterval, hspace⟩ := Option.or_eq_none_iff.1 hx
    cases e with
    | intervalMs n => exact Option.or_eq_none_iff.2 ⟨Bounds.fault?_eq_none_iff.2 he, hspace⟩
    | nameSpace n =>
      refine Option.or_eq_none_iff.2 ⟨hinterval, ?_⟩
      cases n with
      | none => rfl
      | some t =>
        have ht : Text.isBlankText t = false := he t rfl
        simp [SamplerSettings.Statement.set, nameSpaceFault?, ht]

namespace GuardSettings.Edit

def field : Edit → String
  | windowMs _ => "widen_window_ms"

def value : Edit → Setting
  | windowMs n => .word n

def InRange : Edit → Prop
  | windowMs n => 1 ≤ n ∧ n ≤ 1000

end GuardSettings.Edit

def guard : Component GuardSettings GuardSettings.Edit where
  shape := GuardSettings.shape
  edit := GuardSettings.edit
  field := GuardSettings.Edit.field
  isKey e := by
    cases e
    simp only [GuardSettings.Edit.field]
    decide
  States d e t := e.value.States d t
  reads {σ d e t} h := by
    cases e with
    | windowMs n => exact ⟨_, rfl, Reader.Reads.map (h _) _⟩
  value := GuardSettings.Edit.value
  settings s := [("widen_window_ms", .word s.windowMs)]
  settings_edit x e := by cases e; rfl
  lookup_field x e := by cases e; rfl
  ext x y h := by
    have hwindow := h "widen_window_ms" (by decide)
    obtain ⟨n⟩ := x
    obtain ⟨n'⟩ := y
    obtain rfl : n = n' := by simpa using hwindow
    rfl
  optional f hf := by
    simp only [GuardSettings.shape, List.mem_cons, List.not_mem_nil, or_false] at hf
    rcases hf with rfl
    rfl
  states_iff := Iff.rfl
  ofPreset := .ofPreset
  fault? := GuardSettings.fault?
  InRange := GuardSettings.Edit.InRange
  fault?_ofPreset p := by cases p <;> rfl
  fault?_edit {x e} _ he := by
    cases e
    exact Bounds.fault?_eq_none_iff.2 he

end LockDiscipline.Config
