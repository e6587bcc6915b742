import Mathlib.Data.List.Nodup
import LockDiscipline.Proofs.Config.Components

namespace LockDiscipline.Config

open LockDiscipline.Document
open LockDiscipline.Yaml (Layout)

/-- The override of one detector, which may be absent. -/
inductive Override where
  | recorder (edits : Option (List RecorderSettings.Edit))
  | sampler (edits : Option (List SamplerSettings.Statement))
  | guard (edits : Option (List GuardSettings.Edit))

namespace Override

def name : Override → String
  | recorder _ => "recorder"
  | sampler _ => "sampler"
  | guard _ => "guard"

def States {σ : Type} (d : Scope σ) (t : Datum σ) : Override → Prop
  | recorder es => Config.recorder.FilledIfAny d t es
  | sampler es => Config.sampler.FilledIfAny d t es
  | guard es => Config.guard.FilledIfAny d t es

/-- Sets the override; fields that it leaves out have their balanced values. -/
def set (o : Overrides) : Override → Overrides
  | recorder es => { o with recorder := es.map (Config.recorder.editAll (.ofPreset .balanced)) }
  | sampler es => { o with sampler := es.map (Config.sampler.editAll (.ofPreset .balanced)) }
  | guard es => { o with guard := es.map (Config.guard.editAll (.ofPreset .balanced)) }

def recorder? : Override → Option (Option (List RecorderSettings.Edit))
  | recorder es => some es
  | _ => none

def sampler? : Override → Option (Option (List SamplerSettings.Statement))
  | sampler es => some es
  | _ => none

def guard? : Override → Option (Option (List GuardSettings.Edit))
  | guard es => some es
  | _ => none

/-- How the override is written. -/
def layout : Override → Layout
  | recorder es => es.elim null Config.recorder.layout
  | sampler es => es.elim null Config.sampler.layout
  | guard es => es.elim null Config.guard.layout

/-- Whether no field is set twice. -/
def Distinct : Override → Prop
  | recorder es => ∀ l ∈ es, (l.map Config.recorder.field).Nodup
  | sampler es => ∀ l ∈ es, (l.map Config.sampler.field).Nodup
  | guard es => ∀ l ∈ es, (l.map Config.guard.field).Nodup

theorem sound_layout (o : Override) : o.layout.Sound := by
  cases o <;> exact Component.sound_layoutIfAny _

/-- What is written for an override states it. -/
theorem states_layout {anchored : Nat → Option (Datum Yaml.Scalar)} {o : Override}
    (ho : o.Distinct) : o.States ⟨Yaml.dialect, anchored⟩ o.layout.datum := by
  cases o <;> exact Form.filledIfAny_layout _ fun l hl => Component.filled_layout (ho l hl)

end Override

def overrides : Form Overrides Override where
  shape := Overrides.shape
  edit := Override.set
  field := Override.name
  isKey o := by cases o <;> simp only [Override.name] <;> decide
  States d o t := o.States d t
  reads {σ d o t} h := by
    cases o with
    | recorder es => exact ⟨_, rfl, (Form.FilledIfAny.reads h Config.recorder.optional).map _⟩
    | sampler es => exact ⟨_, rfl, (Form.FilledIfAny.reads h Config.sampler.optional).map _⟩
    | guard es => exact ⟨_, rfl, (Form.FilledIfAny.reads h Config.guard.optional).map _⟩

theorem overrides_optional : ∀ f ∈ overrides.shape.fields, f.required = false := by
  intro f hf
  simp only [overrides, Overrides.shape, List.mem_cons, List.not_mem_nil, or_false] at hf
  rcases hf with rfl | rfl | rfl <;> rfl

/-- An entry of a configuration file of the first version. -/
inductive Entry where
  | version
  | preset (label : String)
  | overrides (list : Option (List Override))

namespace Entry

def name : Entry → String
  | version => "version"
  | preset _ => "preset"
  | overrides _ => "overrides"

def States {σ : Type} (d : Scope σ) (t : Datum σ) : Entry → Prop
  | version => (Reader.optional Export.version32).Reads d t (some 1)
  | preset label => Reader.text.Reads d t label
  | overrides os => Config.overrides.FilledIfAny d t os

def set (e : Export) : Entry → Export
  | version => { e with version := some 1 }
  | preset label => { e with preset := label }
  | overrides os => { e with overrides := os.map (Config.overrides.editAll .none) }

def overrides? : Entry → Option (Option (List Override))
  | overrides os => some os
  | _ => none

def label? : Entry → Option String
  | preset label => some label
  | _ => none

def version? : Entry → Option (Option UInt32)
  | version => some (some 1)
  | _ => none

/-- How the entry is written. -/
def layout : Entry → Layout
  | version => .word "1"
  | preset label => .text label
  | overrides os =>
    os.elim null fun os => .record (os.map fun o => (Config.overrides.field o, o.layout))

/-- Whether nothing is overridden twice. -/
def Distinct : Entry → Prop
  | overrides os => ∀ l ∈ os, (l.map Config.overrides.field).Nodup ∧ ∀ o ∈ l, o.Distinct
  | _ => True

theorem sound_layout (e : Entry) : e.layout.Sound := by
  rcases e with _ | label | (_ | os)
  · exact ⟨by decide, Yaml.mayBePlain_of_word (by decide)⟩
  · trivial
  · exact sound_null
  · exact Form.sound_layout _ fun o _ => o.sound_layout

/-- What is written for an entry states it. -/
theorem states_layout {anchored : Nat → Option (Datum Yaml.Scalar)} {e : Entry}
    (he : e.Distinct) : e.States ⟨Yaml.dialect, anchored⟩ e.layout.datum := by
  cases e with
  | version =>
    intro path
    rfl
  | preset label => exact Yaml.reads_text _
  | overrides os =>
    refine Form.filledIfAny_layout _ fun l hl => ?_
    obtain ⟨hnames, hlist⟩ := he l hl
    exact Form.filled_layout _ hnames fun o ho => Override.states_layout (hlist o ho)

end Entry

def file : Form Export Entry where
  shape := Export.shape
  edit := Entry.set
  field := Entry.name
  isKey e := by cases e <;> simp only [Entry.name] <;> decide
  States d e t := e.States d t
  reads {σ d e t} h := by
    cases e with
    | version => exact ⟨_, rfl, Reader.Reads.map h _⟩
    | preset label => exact ⟨_, rfl, Reader.Reads.map h _⟩
    | overrides os => exact ⟨_, rfl, (Form.FilledIfAny.reads h overrides_optional).map _⟩

section

variable {τ ε γ σ : Type} {k : Form τ ε} {said : ε → Option γ} {name : String} {es : List ε}

/-- Of edits that set different fields, the one that says something is found. -/
theorem findSome?_of_mem (hname : ∀ e, (said e).isSome → k.field e = name)
    (hes : (es.map k.field).Nodup) {e : ε} (he : e ∈ es) {v : γ} (hv : said e = some v) :
    es.findSome? said = some v := by
  cases hfound : es.findSome? said with
  | none => rw [List.findSome?_eq_none_iff.1 hfound e he] at hv; cases hv
  | some v' =>
    obtain ⟨e', he', hv'⟩ := List.exists_of_findSome?_eq_some hfound
    have hsame : k.field e' = k.field e :=
      (hname e' (by simp [hv'])).trans (hname e (by simp [hv])).symm
    obtain rfl := List.inj_on_of_nodup_map hes he' he hsame
    rw [← hv', hv]

/-- A projection of edited settings is what the edit that sets it says, if there is one. -/
theorem proj_editAll (proj : τ → γ) (hset : ∀ x e, proj (k.edit x e) = (said e).getD (proj x))
    (hname : ∀ e, (said e).isSome → k.field e = name) (hes : (es.map k.field).Nodup) (x : τ) :
    proj (k.editAll x es) = (es.findSome? said).getD (proj x) := by
  induction es generalizing x with
  | nil => rfl
  | cons e es ih =>
    have hes' := (List.nodup_cons.1 hes).2
    change proj (k.editAll (k.edit x e) es) = _
    rw [ih hes', hset]
    cases hsaid : said e with
    | none => simp [hsaid]
    | some v =>
      have hothers : es.findSome? said = none := by
        rw [List.findSome?_eq_none_iff]
        intro e' he'
        cases hsaid' : said e' with
        | none => rfl
        | some v' =>
          have hsame := (hname e' (by simp [hsaid'])).trans (hname e (by simp [hsaid])).symm
          exact absurd (hsame ▸ List.mem_map_of_mem he') (List.nodup_cons.1 hes).1
      simp [hsaid, hothers]

/-- What is absent at first is there once an edit sets it. -/
theorem optional_editAll {β : Type} (name : String) (said : ε → Option (Option γ))
    (proj : τ → Option β) (f : γ → β)
    (hset : ∀ x e, proj (k.edit x e) = ((said e).map (Option.map f)).getD (proj x))
    (hname : ∀ e, (said e).isSome → k.field e = name) (hes : (es.map k.field).Nodup) {x : τ}
    (hx : proj x = none) : proj (k.editAll x es) = (es.findSome? said).join.map f := by
  have hname' : ∀ e, ((said e).map (Option.map f)).isSome → k.field e = name := fun e he =>
    hname e (by simpa using he)
  have hfound : es.findSome? (fun e => (said e).map (Option.map f)) =
      (es.findSome? said).map (Option.map f) := List.map_findSome?.symm
  rw [proj_editAll proj hset hname' hes, hfound, hx]
  cases es.findSome? said <;> rfl

theorem Form.Filled.states_of_mem {d : Scope σ} {t : Datum σ} (h : k.Filled d t es) {e : ε}
    (he : e ∈ es) : ∃ u, k.States d e u := by
  obtain ⟨items, -, hitems⟩ := h.entries
  clear h
  induction hitems with
  | nil => cases he
  | cons hitem _ ih =>
    rcases List.mem_cons.1 he with rfl | he
    · exact ⟨_, hitem.2⟩
    · exact ih he

end

/-- What is said about each detector: the fields that are set, unless it is not mentioned. -/
structure Outline where
  recorder : Option (List RecorderSettings.Edit)
  sampler : Option (List SamplerSettings.Statement)
  guard : Option (List GuardSettings.Edit)

namespace Outline

/-- What entries say about each detector. -/
def ofEntries (es : List Entry) : Outline :=
  let os := ((es.findSome? Entry.overrides?).join).getD []
  ⟨(os.findSome? Override.recorder?).join, (os.findSome? Override.sampler?).join,
    (os.findSome? Override.guard?).join⟩

/-- Whether no field of a detector is set twice. -/
structure Distinct (o : Outline) : Prop where
  recorder : ∀ es ∈ o.recorder, (es.map Config.recorder.field).Nodup
  sampler : ∀ es ∈ o.sampler, (es.map Config.sampler.field).Nodup
  guard : ∀ es ∈ o.guard, (es.map Config.guard.field).Nodup

/-- The overrides of the detectors that are mentioned. -/
def overrides (o : Outline) : List Override :=
  (o.recorder.map fun es => .recorder (some es)).toList ++
  (o.sampler.map fun es => .sampler (some es)).toList ++
  (o.guard.map fun es => .guard (some es)).toList

/-- The entries of a file of the preset with this outline. -/
def entries (o : Outline) (p : Preset) : List Entry :=
  [.version, .preset p.label, .overrides (some o.overrides)]

/-- The outline as a configuration file. -/
def document (o : Outline) (p : Preset) : String :=
  Layout.document ((o.entries p).map fun e => (file.field e, e.layout))

theorem ofEntries_entries (o : Outline) (p : Preset) : ofEntries (o.entries p) = o := by
  obtain ⟨_ | r, _ | s, _ | g⟩ := o <;> rfl

theorem distinct_of_mem_entries {o : Outline} (ho : o.Distinct) {p : Preset} :
    ∀ e ∈ o.entries p, e.Distinct := by
  have hnames : (o.overrides.map Config.overrides.field).Nodup := by
    obtain ⟨_ | r, _ | s, _ | g⟩ := o <;>
      simp [overrides, Config.overrides, Override.name]
  have hfields : ∀ v ∈ o.overrides, v.Distinct := by
    intro v hv
    simp only [overrides, List.mem_append, Option.mem_toList,
      Option.map_eq_some_iff] at hv
    rcases hv with (⟨es, hes, rfl⟩ | ⟨es, hes, rfl⟩) | ⟨es, hes, rfl⟩
    · exact fun l hl => ho.recorder l (hes.trans hl)
    · exact fun l hl => ho.sampler l (hes.trans hl)
    · exact fun l hl => ho.guard l (hes.trans hl)
  intro e he
  simp only [entries, List.mem_cons, List.not_mem_nil, or_false] at he
  rcases he with rfl | rfl | rfl
  · trivial
  · trivial
  · rintro l ⟨⟩
    exact ⟨hnames, hfields⟩

/-- The draft that a file of the preset with this outline stands for. -/
def draft (o : Outline) (p : Preset) : Draft :=
  ⟨p, o.recorder.map (Config.recorder.editAll (.ofPreset .balanced)),
    o.sampler.map (Config.sampler.editAll (.ofPreset .balanced)),
    o.guard.map (Config.guard.editAll (.ofPreset .balanced))⟩

end Outline

/-- The text is a configuration file of the first version and the preset, and says this about the
detectors. -/
structure Says (text : String) (p : Preset) (o : Outline) : Prop where
  whole : (Yaml.parse text).whole = true
  entries : ∃ es, file.Filled (Yaml.parse text).scope (Yaml.parse text).datum es ∧
    .version ∈ es ∧ (∃ label, .preset label ∈ es ∧ Preset.ofText? label = some p) ∧
    Outline.ofEntries es = o

namespace Says

variable {text : String} {p : Preset} {o : Outline}

theorem version_editAll {es : List Entry} (hes : (es.map file.field).Nodup)
    (hversion : .version ∈ es) (x : Export) : (file.editAll x es).version = some 1 := by
  have hname : ∀ e : Entry, e.version?.isSome → file.field e = "version" := by
    rintro (_ | _ | _) h <;> first | rfl | cases h
  have hset : ∀ x (e : Entry), (file.edit x e).version = e.version?.getD x.version := by
    rintro x (_ | _ | _) <;> rfl
  have hfound : es.findSome? Entry.version? = some (some 1) :=
    findSome?_of_mem hname hes hversion rfl
  rw [proj_editAll Export.version hset hname hes, hfound]
  rfl

theorem preset_editAll {es : List Entry} (hes : (es.map file.field).Nodup) {label : String}
    (hlabel : .preset label ∈ es) (x : Export) : (file.editAll x es).preset = label := by
  have hname : ∀ e : Entry, e.label?.isSome → file.field e = "preset" := by
    rintro (_ | _ | _) h <;> first | rfl | cases h
  have hset : ∀ x (e : Entry), (file.edit x e).preset = e.label?.getD x.preset := by
    rintro x (_ | _ | _) <;> rfl
  have hfound : es.findSome? Entry.label? = some label := findSome?_of_mem hname hes hlabel rfl
  rw [proj_editAll Export.preset hset hname hes, hfound]
  rfl

theorem overrides_editAll {es : List Entry} (hes : (es.map file.field).Nodup) :
    (file.editAll Export.shape.start es).overrides =
      (es.findSome? Entry.overrides?).join.map (overrides.editAll .none) := by
  refine optional_editAll "overrides" Entry.overrides? Export.overrides _ ?_ ?_ hes rfl
  · rintro x (_ | _ | _) <;> rfl
  · rintro (_ | _ | _) h <;> first | rfl | cases h

/-- Each detector is overridden by what is said about it. -/
theorem editAll_overrides {os : List Override} (hos : (os.map overrides.field).Nodup) :
    overrides.editAll .none os =
      ⟨(os.findSome? Override.recorder?).join.map (recorder.editAll (.ofPreset .balanced)),
        (os.findSome? Override.sampler?).join.map (sampler.editAll (.ofPreset .balanced)),
        (os.findSome? Override.guard?).join.map (guard.editAll (.ofPreset .balanced))⟩ := by
  have hrecorder := optional_editAll (k := overrides) "recorder" Override.recorder?
    Overrides.recorder _ (by rintro x (_ | _ | _) <;> rfl)
    (by rintro (_ | _ | _) h <;> first | rfl | cases h) hos (x := .none) rfl
  have hsampler := optional_editAll (k := overrides) "sampler" Override.sampler?
    Overrides.sampler _ (by rintro x (_ | _ | _) <;> rfl)
    (by rintro (_ | _ | _) h <;> first | rfl | cases h) hos (x := .none) rfl
  have hguard := optional_editAll (k := overrides) "guard" Override.guard?
    Overrides.guard _ (by rintro x (_ | _ | _) <;> rfl)
    (by rintro (_ | _ | _) h <;> first | rfl | cases h) hos (x := .none) rfl
  rw [← hrecorder, ← hsampler, ← hguard]

/-- A file is read as the draft that it stands for. -/
theorem ofYaml (h : Says text p o) : Draft.ofYaml text = .ok (o.draft p) := by
  obtain ⟨es, hfilled, hversion, ⟨label, hlabel, hp⟩, rfl⟩ := h.entries
  have hread : Export.shape.reader.Reads (Yaml.parse text).scope (Yaml.parse text).datum
      (file.editAll Export.shape.start es) := by
    refine hfilled.reads fun f hf hrequired => ?_
    simp only [file, Export.shape, List.mem_cons, List.not_mem_nil, or_false] at hf
    rcases hf with rfl | rfl | rfl
    · cases hrequired
    · exact List.mem_map.2 ⟨_, hlabel, rfl⟩
    · cases hrequired
  have hoverrides : ((file.editAll Export.shape.start es).overrides.getD .none) =
      ⟨((Outline.ofEntries es).draft p).recorder, ((Outline.ofEntries es).draft p).sampler,
        ((Outline.ofEntries es).draft p).guard⟩ := by
    rw [overrides_editAll hfilled.distinct]
    unfold Outline.ofEntries
    cases hjoin : (es.findSome? Entry.overrides?).join with
    | none => rfl
    | some os =>
      have hos : (os.map overrides.field).Nodup := by
        obtain ⟨e, he, hsaid⟩ := List.exists_of_findSome?_eq_some (Option.join_eq_some_iff.1 hjoin)
        cases e with
        | overrides os' =>
          obtain rfl : os' = some os := Option.some.inj hsaid
          obtain ⟨u, hu⟩ := hfilled.states_of_mem he
          exact hu.distinct
        | _ => cases hsaid
      exact editAll_overrides hos
  have hdraft : (file.editAll Export.shape.start es).draft =
      .ok ((Outline.ofEntries es).draft p) := by
    rw [Export.draft, version_editAll hfilled.distinct hversion,
      preset_editAll hfilled.distinct hlabel, hp, hoverrides]
    rfl
  rw [Draft.ofYaml, Yaml.read]
  simp only [hread [], h.whole, if_true, hdraft]

end Says

/-- Whatever may be said about the detectors is said by a file. -/
theorem says_document {o : Outline} (ho : o.Distinct) (p : Preset) : Says (o.document p) p o := by
  have hsound : (Layout.record ((o.entries p).map fun e => (file.field e, e.layout))).Sound :=
    Form.sound_layout _ fun e _ => e.sound_layout
  have hparse : Yaml.parse (o.document p) =
      ⟨(Layout.record ((o.entries p).map fun e => (file.field e, e.layout))).datum, [], true⟩ :=
    Layout.parse_document hsound (by simp [Outline.entries])
  have hnames : ((o.entries p).map file.field).Nodup := by
    simp [Outline.entries, file, Entry.name]
  refine ⟨by rw [hparse], o.entries p, ?_, List.mem_cons_self .., ?_, o.ofEntries_entries p⟩
  · rw [hparse]
    exact Form.filled_layout _ hnames fun e he =>
      Entry.states_layout (Outline.distinct_of_mem_entries ho e he)
  · exact ⟨p.label, by simp [Outline.entries], p.ofText?_label⟩

end LockDiscipline.Config
