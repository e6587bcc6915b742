import LockDiscipline.Config.Steps
import LockDiscipline.Proofs.Config.Outlines

namespace LockDiscipline.Config

open LockDiscipline.Yaml (Layout)

namespace Step

/-- Whether the step is made in code, and not by the environment. -/
def InCode : Step → Prop
  | environment _ => False
  | _ => True

def recorderEdits : Step → List RecorderSettings.Edit
  | recorder es => es
  | _ => []

def samplerEdits : Step → List SamplerSettings.Statement
  | sampler es => es.map fun
    | .intervalMs n => .intervalMs n
    | .nameSpace s => .nameSpace (some s)
  | _ => []

def guardEdits : Step → List GuardSettings.Edit
  | guard es => es
  | _ => []

end Step

namespace Draft

variable {d e f : Draft}

/-- From one draft to the other these edits are made to the settings in force. -/
structure Edited (d e : Draft) (r : List RecorderSettings.Edit) (s : List SamplerSettings.Statement)
    (g : List GuardSettings.Edit) : Prop where
  preset : e.preset = d.preset
  recorder : e.recorderSettings = Config.recorder.editAll d.recorderSettings r
  sampler : e.samplerSettings = Config.sampler.editAll d.samplerSettings s
  guard : e.guardSettings = Config.guard.editAll d.guardSettings g

theorem Edited.trans {r r' : List RecorderSettings.Edit} {s s' : List SamplerSettings.Statement}
    {g g' : List GuardSettings.Edit} (h : d.Edited e r s g) (h' : e.Edited f r' s' g') :
    d.Edited f (r ++ r') (s ++ s') (g ++ g') where
  preset := h'.preset.trans h.preset
  recorder := by rw [h'.recorder, h.recorder]; exact List.foldl_append.symm
  sampler := by rw [h'.sampler, h.sampler]; exact List.foldl_append.symm
  guard := by rw [h'.guard, h.guard]; exact List.foldl_append.symm

/-- A step in code edits the settings in force of one detector. -/
theorem edited_take {step : Step} (h : step.InCode) :
    ∃ e, d.take step = .ok e ∧
      d.Edited e step.recorderEdits step.samplerEdits step.guardEdits := by
  cases step with
  | recorder es => exact ⟨_, rfl, rfl, rfl, rfl, rfl⟩
  | sampler es =>
    refine ⟨_, rfl, rfl, rfl, ?_, rfl⟩
    change es.foldl SamplerSettings.edit d.samplerSettings = List.foldl _ _ (es.map _)
    rw [List.foldl_map]
    congr 1
    funext x e
    cases e <;> rfl
  | guard es => exact ⟨_, rfl, rfl, rfl, rfl, rfl⟩
  | environment env => exact h.elim

theorem edited_takeAll {steps : List Step} (h : ∀ step ∈ steps, step.InCode) :
    ∃ e, d.takeAll steps = .ok e ∧ d.Edited e (steps.flatMap Step.recorderEdits)
      (steps.flatMap Step.samplerEdits) (steps.flatMap Step.guardEdits) := by
  induction steps generalizing d with
  | nil => exact ⟨d, rfl, rfl, rfl, rfl, rfl⟩
  | cons step steps ih =>
    obtain ⟨e, hstep, hedited⟩ := edited_take (d := d) (h step (List.mem_cons_self ..))
    obtain ⟨f, hsteps, hrest⟩ := ih (d := e) fun s hs => h s (List.mem_cons_of_mem step hs)
    refine ⟨f, ?_, by simpa only [List.flatMap_cons] using hedited.trans hrest⟩
    simp only [takeAll, hstep, hsteps]

end Draft

namespace Component

variable {τ ε : Type} {k : Component τ ε} {es l : List ε}

/-- Edits in code set the same fields to the same values. Nothing is taken away in code, so what a
document takes away is not set. -/
def SetsAs (k : Component τ ε) (coded stated : List ε) : Prop :=
  ∀ name, k.mention coded name = (k.mention stated name).filter fun v => v ≠ .text none

/-- How the settings of a file and the settings of code lie over those of the preset, for what is
said about the detector. -/
structure Layered (k : Component τ ε) (p : Preset) (said : Option (List ε))
    (file code : τ) : Prop where
  unnamed : said = none → file = k.ofPreset p ∧ code = k.ofPreset p
  mentioned : ∀ es ∈ said, ∀ name v, k.mention es name = some v →
    k.get name file = some v ∧ k.get name code = some v
  unmentioned : ∀ es ∈ said, ∀ name, k.mention es name = none →
    k.get name file = k.get name (k.ofPreset .balanced) ∧
      k.get name code = k.get name (k.ofPreset p)
  agree_iff : file = code ↔ ∀ es ∈ said, ∀ name, k.mention es name = none →
    k.get name (k.ofPreset .balanced) = k.get name (k.ofPreset p)

theorem exists_of_mention {name : String} {v : Setting} (h : k.mention es name = some v) :
    ∃ e ∈ es, k.field e = name ∧ k.value e = v := by
  obtain ⟨e, he, hsaid⟩ := List.exists_of_findSome?_eq_some h
  split at hsaid
  · next hname => exact ⟨e, List.mem_reverse.1 he, hname.symm, Option.some.inj hsaid⟩
  · cases hsaid

/-- Edits that take nothing away set in code what they state. -/
theorem setsAs_self (hes : ∀ e ∈ es, k.value e ≠ .text none) : k.SetsAs es es := by
  intro name
  cases hm : k.mention es name with
  | none => rfl
  | some v =>
    obtain ⟨e, he, -, rfl⟩ := exists_of_mention hm
    simp [Option.filter, hes e he]

/-- Where nothing is there to be taken away, edits in code do what the document says. -/
theorem editAll_eq_of_setsAs (h : k.SetsAs l es) {x : τ}
    (hx : ∀ e, k.value e = .text none → k.get (k.field e) x = some (.text none)) :
    k.editAll x l = k.editAll x es := by
  refine k.ext _ _ fun name _ => ?_
  change k.get name _ = k.get name _
  rw [get_editAll, get_editAll, h name]
  cases hm : k.mention es name with
  | none => rfl
  | some v =>
    by_cases hv : v = .text none
    · subst hv
      obtain ⟨e, -, rfl, hvalue⟩ := exists_of_mention hm
      simp [Option.filter, hx e hvalue]
    · simp [Option.filter, hv]

/-- The settings that a file says for the detector. -/
def filed (k : Component τ ε) (p : Preset) (said : Option (List ε)) : τ :=
  said.elim (k.ofPreset p) (k.editAll (k.ofPreset .balanced))

theorem fault?_filed {p : Preset} {said : Option (List ε)}
    (hsaid : ∀ es ∈ said, ∀ e ∈ es, k.InRange e) : k.fault? (k.filed p said) = none := by
  cases said with
  | none => exact k.fault?_ofPreset p
  | some es => exact fault?_editAll (k.fault?_ofPreset _) (hsaid es rfl)

theorem fault?_coded {p : Preset} {said : Option (List ε)}
    (hsaid : ∀ es ∈ said, ∀ e ∈ es, k.InRange e) :
    k.fault? (k.editAll (k.ofPreset p) (said.getD [])) = none := by
  refine fault?_editAll (k.fault?_ofPreset p) ?_
  cases said with
  | none => simp
  | some es => exact hsaid es rfl

theorem layered (p : Preset) (said : Option (List ε)) :
    k.Layered p said (k.filed p said) (k.editAll (k.ofPreset p) (said.getD [])) := by
  cases said with
  | none =>
    refine ⟨fun _ => ⟨rfl, rfl⟩, ?_, ?_, fun _ => ?_, fun _ => rfl⟩ <;>
    · intro es hes
      cases hes
  | some es =>
    have hfile (name) : k.get name (k.filed p (some es)) =
        (k.mention es name).or (k.get name (k.ofPreset .balanced)) := get_editAll ..
    have hcode (name) : k.get name (k.editAll (k.ofPreset p) es) =
        (k.mention es name).or (k.get name (k.ofPreset p)) := get_editAll ..
    refine ⟨fun h => ?_, ?_, ?_, fun hagree => ?_, fun hsame => k.ext _ _ fun name _ => ?_⟩
    · cases h
    · rintro _ ⟨⟩ name v hv
      exact ⟨by simp [hfile, hv], by simp [hcode, hv]⟩
    · rintro _ ⟨⟩ name hnone
      exact ⟨by simp [hfile, hnone], by simp [hcode, hnone]⟩
    · rintro _ ⟨⟩ name hnone
      have hget := congrArg (k.get name) hagree
      simpa [hfile, hcode, hnone] using hget
    · change k.get name _ = k.get name _
      simp only [Option.getD_some, hfile, hcode]
      cases hm : k.mention es name with
      | some v => rfl
      | none => simpa using hsame es rfl name hm

/-- Over settings that are the balanced ones, a file and code agree. -/
theorem Layered.agree {p : Preset} {said : Option (List ε)} {file code : τ}
    (h : k.Layered p said file code) (hp : k.ofPreset p = k.ofPreset .balanced) : file = code :=
  h.agree_iff.2 fun _ _ _ _ => by rw [hp]

end Component

/-- Where the settings in force are sound, so is the draft. -/
theorem Draft.fault?_eq_none {d : Draft} (hr : d.recorderSettings.fault? = none)
    (hs : d.samplerSettings.fault? = none) (hg : d.guardSettings.fault? = none) :
    d.fault? = none := by
  obtain ⟨p, r, s, g⟩ := d
  simp only [Draft.fault?, Option.or_eq_none_iff]
  refine ⟨⟨?_, ?_⟩, ?_⟩
  · cases r with
    | none => rfl
    | some r => exact hr
  · cases s with
    | none => rfl
    | some s => exact hs
  · cases g with
    | none => rfl
    | some g => exact hg

namespace Outline

/-- Whether all values are within their bounds. -/
structure InRange (o : Outline) : Prop where
  recorder : ∀ es ∈ o.recorder, ∀ e ∈ es, Config.recorder.InRange e
  sampler : ∀ es ∈ o.sampler, ∀ e ∈ es, Config.sampler.InRange e
  guard : ∀ es ∈ o.guard, ∀ e ∈ es, Config.guard.InRange e

/-- Steps in code set exactly the fields that the outline mentions. -/
structure SetBy (o : Outline) (steps : List Step) : Prop where
  inCode : ∀ step ∈ steps, step.InCode
  recorder : Config.recorder.SetsAs (steps.flatMap Step.recorderEdits) (o.recorder.getD [])
  sampler : Config.sampler.SetsAs (steps.flatMap Step.samplerEdits) (o.sampler.getD [])
  guard : Config.guard.SetsAs (steps.flatMap Step.guardEdits) (o.guard.getD [])

variable {o : Outline}

theorem recorderSettings_draft (p : Preset) :
    (o.draft p).recorderSettings = Config.recorder.filed p o.recorder := by
  obtain ⟨_ | r, s, g⟩ := o <;> rfl

theorem samplerSettings_draft (p : Preset) :
    (o.draft p).samplerSettings = Config.sampler.filed p o.sampler := by
  obtain ⟨r, _ | s, g⟩ := o <;> rfl

theorem guardSettings_draft (p : Preset) :
    (o.draft p).guardSettings = Config.guard.filed p o.guard := by
  obtain ⟨r, s, _ | g⟩ := o <;> rfl

/-- What is said within bounds is approved. -/
theorem fault?_draft (h : o.InRange) (p : Preset) : (o.draft p).fault? = none := by
  refine Draft.fault?_eq_none ?_ ?_ ?_
  · rw [recorderSettings_draft]
    exact Component.fault?_filed h.recorder
  · rw [samplerSettings_draft]
    exact Component.fault?_filed h.sampler
  · rw [guardSettings_draft]
    exact Component.fault?_filed h.guard

/-- Code that sets what the outline mentions leads to the preset with these edits. -/
theorem takeAll_setBy {p : Preset} {steps : List Step} (h : o.SetBy steps) :
    ∃ d, (Draft.ofPreset p).takeAll steps = .ok d ∧ d.preset = p ∧
      d.recorderSettings = Config.recorder.editAll (.ofPreset p) (o.recorder.getD []) ∧
      d.samplerSettings = Config.sampler.editAll (.ofPreset p) (o.sampler.getD []) ∧
      d.guardSettings = Config.guard.editAll (.ofPreset p) (o.guard.getD []) := by
  obtain ⟨d, htake, hedited⟩ := Draft.edited_takeAll (d := .ofPreset p) h.inCode
  refine ⟨d, htake, hedited.preset, ?_, ?_, ?_⟩
  · rw [hedited.recorder]
    exact Component.editAll_eq_of_setsAs h.recorder fun e he => by cases e <;> cases he
  · rw [hedited.sampler]
    refine Component.editAll_eq_of_setsAs h.sampler fun e he => ?_
    -- No preset has a namespace that could be taken away.
    cases e with
    | intervalMs n => cases he
    | nameSpace s => cases p <;> rfl
  · rw [hedited.guard]
    exact Component.editAll_eq_of_setsAs h.guard fun e he => by cases e; cases he

/-- The label of a preset is written as it is. -/
theorem writeText_label (pad : List Char) (p : Preset) :
    Yaml.writeText pad p.label = p.label.toList ++ ['\n'] := by
  have hword : Yaml.mayBePlain p.label.toList = true :=
    Yaml.mayBePlain_of_word (by cases p <;> decide)
  have htext : Yaml.resolvesToText p.label = true := by cases p <;> decide +kernel
  have hline : p.label.toList.contains '\n' = false := by cases p <;> decide
  have hstyle : Yaml.styleFor p.label = .plain := by
    simp only [Yaml.styleFor, hline, htext, hword, Bool.false_eq_true, if_false, Bool.and_self,
      if_true]
  simp only [Yaml.writeText, hstyle]

/-- Whatever fields are to be set over a preset, within their bounds: some file says so, and every
file that does and all code that sets them are approved. They agree on the fields that are set and
on the detectors that are left out. The other fields of a detector are balanced in the file and the
preset's in code, so that both agree exactly where these do; over the balanced and the custom
preset, always. -/
theorem layering_exact (ho : o.Distinct) (hrange : o.InRange) (p : Preset) :
    (∃ text, Says text p o) ∧
    ∀ text steps, Says text p o → o.SetBy steps →
      ∃ a d b, Approved.ofYaml text = .ok a ∧
        (Draft.ofPreset p).takeAll steps = .ok d ∧ d.build = .ok b ∧
        a.draft.preset = p ∧ b.draft.preset = p ∧
        Config.recorder.Layered p o.recorder a.draft.recorderSettings b.draft.recorderSettings ∧
        Config.sampler.Layered p o.sampler a.draft.samplerSettings b.draft.samplerSettings ∧
        Config.guard.Layered p o.guard a.draft.guardSettings b.draft.guardSettings ∧
        (p = .balanced ∨ p = .custom →
          a.draft.recorderSettings = b.draft.recorderSettings ∧
          a.draft.samplerSettings = b.draft.samplerSettings ∧
          a.draft.guardSettings = b.draft.guardSettings) := by
  refine ⟨⟨_, says_document ho p⟩, fun text steps hfile hsteps => ?_⟩
  obtain ⟨a, ha⟩ := Draft.build_eq_ok_iff.2 (fault?_draft hrange p)
  have hload : Approved.ofYaml text = .ok a := by
    rw [Approved.ofYaml, hfile.ofYaml]
    exact ha
  have hdraft : a.draft = o.draft p := Draft.draft_of_build ha
  obtain ⟨d, htake, hpreset, hrecorder, hsampler, hguard⟩ := takeAll_setBy (p := p) hsteps
  have hsound : d.fault? = none := by
    refine Draft.fault?_eq_none ?_ ?_ ?_
    · rw [hrecorder]
      exact Component.fault?_coded hrange.recorder
    · rw [hsampler]
      exact Component.fault?_coded hrange.sampler
    · rw [hguard]
      exact Component.fault?_coded hrange.guard
  obtain ⟨b, hb⟩ := Draft.build_eq_ok_iff.2 hsound
  have hcode : b.draft = d := Draft.draft_of_build hb
  have hrecorders := Component.layered (k := Config.recorder) p o.recorder
  have hsamplers := Component.layered (k := Config.sampler) p o.sampler
  have hguards := Component.layered (k := Config.guard) p o.guard
  rw [← recorderSettings_draft] at hrecorders
  rw [← samplerSettings_draft] at hsamplers
  rw [← guardSettings_draft] at hguards
  refine ⟨a, d, b, hload, htake, hb, by rw [hdraft]; rfl, by rw [hcode, hpreset], ?_⟩
  rw [hdraft, hcode, hrecorder, hsampler, hguard]
  refine ⟨hrecorders, hsamplers, hguards, fun hp => ?_⟩
  have hsame : Config.recorder.ofPreset p = Config.recorder.ofPreset .balanced ∧
      Config.sampler.ofPreset p = Config.sampler.ofPreset .balanced ∧
      Config.guard.ofPreset p = Config.guard.ofPreset .balanced := by
    rcases hp with rfl | rfl <;> exact ⟨rfl, rfl, rfl⟩
  exact ⟨hrecorders.agree hsame.1, hsamplers.agree hsame.2.1, hguards.agree hsame.2.2⟩

/-- Over the quiet preset, a file and code make the recorder strict and watch one namespace. -/
theorem layering_exact_quiet :
    ∃ text a d b, Says text .quiet ⟨some [.strict true],
        some [.nameSpace (some "app::"), .intervalMs 5], none⟩ ∧
      Approved.ofYaml text = .ok a ∧
      (Draft.ofPreset .quiet).takeAll [.sampler [.nameSpace "app::"], .recorder [.strict true],
        .sampler [.intervalMs 5]] = .ok d ∧ d.build = .ok b ∧
      Config.recorder.get "strict" b.draft.recorderSettings = some (.flag true) ∧
      Config.recorder.get "sweep_every" a.draft.recorderSettings = some (.word 1024) ∧
      Config.recorder.get "sweep_every" b.draft.recorderSettings = some (.word 4096) ∧
      Config.sampler.get "interval_ms" a.draft.samplerSettings = some (.word 5) ∧
      a.draft.guardSettings = .ofPreset .quiet := by
  have ho : Distinct ⟨some [.strict true],
      some [.nameSpace (some "app::"), .intervalMs 5], none⟩ := ⟨by decide, by decide, by decide⟩
  have hrange : InRange ⟨some [.strict true],
      some [.nameSpace (some "app::"), .intervalMs 5], none⟩ := by
    refine ⟨?_, ?_, by simp⟩
    · rintro _ ⟨⟩ e he
      obtain rfl := List.mem_singleton.1 he
      trivial
    · rintro _ ⟨⟩ e he
      simp only [List.mem_cons, List.not_mem_nil, or_false] at he
      rcases he with rfl | rfl
      · rintro _ ⟨⟩
        decide
      · exact ⟨by decide, by decide⟩
  have hsteps : SetBy ⟨some [.strict true],
      some [.nameSpace (some "app::"), .intervalMs 5], none⟩
      [.sampler [.nameSpace "app::"], .recorder [.strict true], .sampler [.intervalMs 5]] := by
    refine ⟨?_, Component.setsAs_self (by decide), Component.setsAs_self (by decide),
      Component.setsAs_self (by decide)⟩
    intro step hstep
    simp only [List.mem_cons, List.not_mem_nil, or_false] at hstep
    rcases hstep with rfl | rfl | rfl <;> trivial
  obtain ⟨⟨text, htext⟩, h⟩ := layering_exact ho hrange .quiet
  obtain ⟨a, d, b, ha, hd, hb, -, -, hrecorder, hsampler, hguard, -⟩ := h text _ htext hsteps
  have hsweep := hrecorder.unmentioned _ rfl "sweep_every" rfl
  have hstrict := hrecorder.mentioned _ rfl "strict" _ rfl
  have hinterval := hsampler.mentioned _ rfl "interval_ms" _ rfl
  exact ⟨text, a, d, b, htext, ha, hd, hb, hstrict.2, hsweep.1, hsweep.2, hinterval.1,
    (hguard.unnamed rfl).1⟩

/-- A file that sets another field takes the strictness of the preset away, which code keeps. -/
theorem file_weakens_strict :
    Says "version: 1\npreset: strict\noverrides:\n  recorder:\n    sweep_every: 10\n" .strict
      ⟨some [.sweepEvery 10], none, none⟩ ∧
    InRange ⟨some [.sweepEvery 10], none, none⟩ ∧
    SetBy ⟨some [.sweepEvery 10], none, none⟩ [.recorder [.sweepEvery 10]] ∧
    ∃ a d b, Approved.ofYaml
        "version: 1\npreset: strict\noverrides:\n  recorder:\n    sweep_every: 10\n" = .ok a ∧
      (Draft.ofPreset .strict).takeAll [.recorder [.sweepEvery 10]] = .ok d ∧ d.build = .ok b ∧
      a.draft.recorderSettings = ⟨true, false, false, 10⟩ ∧
      b.draft.recorderSettings = ⟨true, true, true, 10⟩ := by
  have ho : Distinct ⟨some [.sweepEvery 10], none, none⟩ := ⟨by decide, by decide, by decide⟩
  have htext : document ⟨some [.sweepEvery 10], none, none⟩ .strict =
      "version: 1\npreset: strict\noverrides:\n  recorder:\n    sweep_every: 10\n" := by
    simp only [document, entries, List.map_cons, List.map_nil, Entry.layout, Layout.document,
      Layout.lines, Layout.afterKey, writeText_label]
    rfl
  have hfile := says_document ho .strict
  rw [htext] at hfile
  refine ⟨hfile, ⟨?_, by simp, by simp⟩, ⟨?_, Component.setsAs_self (by decide),
    Component.setsAs_self (by decide), Component.setsAs_self (by decide)⟩, ?_⟩
  · rintro _ ⟨⟩ e he
    obtain rfl := List.mem_singleton.1 he
    exact ⟨by decide, by decide⟩
  · intro step hstep
    obtain rfl := List.mem_singleton.1 hstep
    trivial
  · refine ⟨⟨draft ⟨some [.sweepEvery 10], none, none⟩ .strict, rfl⟩, _, _, ?_, rfl, rfl, rfl,
      rfl⟩
    rw [Approved.ofYaml, hfile.ofYaml]
    rfl

end Outline

end LockDiscipline.Config
