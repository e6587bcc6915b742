import LockDiscipline.Proofs.Config.Values

namespace LockDiscipline.Config

namespace Environment

variable {α : Type} {parse : String → Except String α} {means : String → α → Prop}
  {complaint : String → String} {env : Environment} {name : String} {change : Draft → α → Draft}
  {d e : Draft} {f : Fault}

/-- How values are read: which text stands for which value, and what is said of a text that stands
for none. -/
structure Reading (parse : String → Except String α) (means : String → α → Prop)
    (complaint : String → String) : Prop where
  ok : ∀ s x, parse s = .ok x ↔ means s x
  error : ∀ s, (¬ ∃ x, means s x) → parse s = .error (complaint s)

theorem reading_word : Reading word IsWord wordComplaint :=
  ⟨fun _ _ => word_eq_ok_iff, fun _ => word_eq_error⟩

theorem reading_flag (u : Text.Lowering) :
    Reading flag (IsFlag u) fun _ => "expected a boolean flag" := by
  refine ⟨fun _ _ => flag_eq_ok_iff u, fun s h => flag_eq_error ?_⟩
  simpa only [flag_eq_ok_iff u] using h

/-- Every text is a namespace. -/
theorem reading_text : Reading .ok (fun s t : String => t = s) fun _ => "" :=
  ⟨fun s t => by rw [Except.ok.injEq, eq_comm], fun s h => absurd ⟨s, rfl⟩ h⟩

/-- The variable is not set, or its value apart from blanks around it stands for something. -/
def Fits (means : String → α → Prop) (value : Option String) : Prop :=
  ∀ raw, value = some raw → ∃ x, means (Text.trim raw) x

/-- The variable `name` is set and stands for nothing, and this is the fault. -/
def Refused (env : Environment) (name : String) (means : String → α → Prop)
    (complaint : String → String) (f : Fault) : Prop :=
  ∃ raw, env name = some raw ∧ (¬ ∃ x, means (Text.trim raw) x) ∧
    f = .environment name raw (complaint (Text.trim raw))

/-- What the value of a variable stands for, if it is set. -/
def Gives (means : String → α → Prop) : Option String → Option α → Prop
  | none, x => x = none
  | some raw, x => ∃ y, means (Text.trim raw) y ∧ x = some y

/-- What a field is afterwards: what the value of the variable stands for, or what it was. -/
def Settles (means : String → α → Prop) (value : Option String) (before after : α) : Prop :=
  match value with
  | none => after = before
  | some raw => means (Text.trim raw) after

theorem exists_gives_iff {value : Option String} :
    (∃ x, Gives means value x) ↔ Fits means value := by
  unfold Fits
  cases value <;> simp [Gives]

theorem Gives.settles {value : Option String} {x : Option α} (h : Gives means value x)
    (before : α) : Settles means value before (x.getD before) := by
  cases value with
  | none =>
    cases h
    rfl
  | some raw =>
    obtain ⟨y, hy, rfl⟩ := h
    exact hy

theorem Gives.eq_none_iff {value : Option String} {x : Option α} (h : Gives means value x) :
    x = none ↔ value = none := by
  cases value with
  | none => exact ⟨fun _ => rfl, fun _ => h⟩
  | some raw =>
    obtain ⟨y, -, rfl⟩ := h
    simp

theorem gives_text_iff {value t : Option String} :
    Gives (fun s t => t = s) value t ↔ t = value.map Text.trim := by
  cases value <;> simp [Gives]

theorem apply_eq_ok_iff (h : Reading parse means complaint) :
    env.apply name parse change d = .ok e ↔
      ∃ x, Gives means (env name) x ∧ e = x.elim d (change d) := by
  unfold apply
  cases env name with
  | none => simp [Gives, eq_comm]
  | some raw =>
    simp only [Gives, ← h.ok]
    cases parse (Text.trim raw) with
    | ok x => simp [eq_comm]
    | error reason => simp

theorem apply_eq_error_iff (h : Reading parse means complaint) :
    env.apply name parse change d = .error f ↔ Refused env name means complaint f := by
  unfold apply Refused
  cases env name with
  | none => simp
  | some raw =>
    dsimp only
    by_cases hx : ∃ x, means (Text.trim raw) x
    · obtain ⟨x, hx⟩ := hx
      rw [(h.ok _ _).2 hx]
      constructor
      · intro herror
        cases herror
      · rintro ⟨raw', heq, hnone, -⟩
        cases heq
        exact absurd ⟨x, hx⟩ hnone
    · rw [h.error _ hx, Except.error.injEq]
      constructor
      · rintro rfl
        exact ⟨raw, rfl, hx, rfl⟩
      · rintro ⟨raw', heq, -, hf⟩
        cases heq
        exact hf.symm

theorem bind_eq_ok_iff {x : Except Fault Draft} {next : Draft → Except Fault Draft} :
    x >>= next = .ok e ↔ ∃ d, x = .ok d ∧ next d = .ok e := by
  cases x <;> simp [bind, Except.bind]

/-- Of a variable and what comes after it, the variable is the first that may be refused. -/
theorem apply_bind_eq_error_iff (h : Reading parse means complaint)
    {next : Draft → Except Fault Draft} {P : Prop} (hnext : ∀ d, next d = .error f ↔ P) :
    env.apply name parse change d >>= next = .error f ↔
      Refused env name means complaint f ∨ Fits means (env name) ∧ P := by
  have hok : (∃ e, env.apply name parse change d = .ok e) ↔ Fits means (env name) := by
    rw [← exists_gives_iff]
    simp only [apply_eq_ok_iff h]
    constructor
    · rintro ⟨-, x, hx, -⟩
      exact ⟨x, hx⟩
    · rintro ⟨x, hx⟩
      exact ⟨_, x, hx, rfl⟩
  have herror : env.apply name parse change d = .error f ↔ Refused env name means complaint f :=
    apply_eq_error_iff h
  rw [← herror, ← hok]
  cases env.apply name parse change d with
  | error g => simp [bind, Except.bind]
  | ok e => simp [bind, Except.bind, hnext]

/-- Every variable that is set stands for something. -/
structure WellFormed (u : Text.Lowering) (env : Environment) : Prop where
  interval : Fits IsWord (env intervalVariable)
  strict : Fits (IsFlag u) (env strictVariable)
  echo : Fits (IsFlag u) (env echoVariable)

/-- The fault is the one of the first variable that stands for nothing. Every namespace is one. -/
def FirstRefused (u : Text.Lowering) (env : Environment) (f : Fault) : Prop :=
  Refused env intervalVariable IsWord wordComplaint f ∨
    Fits IsWord (env intervalVariable) ∧
      (Refused env strictVariable (IsFlag u) (fun _ => "expected a boolean flag") f ∨
        Fits (IsFlag u) (env strictVariable) ∧
          Refused env echoVariable (IsFlag u) (fun _ => "expected a boolean flag") f)

end Environment

namespace Draft

open Environment

variable {env : Environment} {d e : Draft} {f : Fault} {n : Option UInt64} {s : Option String}
  {b c : Option Bool}

/-- The draft with these values in the place of those in force, where they are given. A detector for
which none is given is left alone. -/
def replace (d : Draft) (interval : Option UInt64) (nameSpace : Option String)
    (strict echo : Option Bool) : Draft :=
  let r := d.recorderSettings
  let s := d.samplerSettings
  { d with
    recorder :=
      if strict = none ∧ echo = none then d.recorder
      else some { r with
        strict := strict.getD r.strict
        echoWitnesses := echo.getD r.echoWitnesses }
    sampler :=
      if interval = none ∧ nameSpace = none then d.sampler
      else some ⟨interval.getD s.intervalMs, nameSpace.or s.nameSpace⟩ }

/-- Edits of one field after another replace each field, and find what the ones before left. -/
theorem replace_eq (d : Draft) (n : Option UInt64) (s : Option String) (b c : Option Bool) :
    let d₁ := n.elim d fun n => d.editSampler [.intervalMs n]
    let d₂ := s.elim d₁ fun s => d₁.editSampler [.nameSpace s]
    let d₃ := b.elim d₂ fun b => d₂.editRecorder [.strict b]
    c.elim d₃ (fun c => d₃.editRecorder [.echoWitnesses c]) = d.replace n s b c := by
  cases n <;> cases s <;> cases b <;> cases c <;> rfl

theorem replace_replace (d : Draft) (n : Option UInt64) (s : Option String) (b c : Option Bool) :
    (d.replace n s b c).replace n s b c = d.replace n s b c := by
  cases n <;> cases s <;> cases b <;> cases c <;> rfl

theorem recorderSettings_replace : (d.replace n s b c).recorderSettings =
    { d.recorderSettings with
      strict := b.getD d.recorderSettings.strict
      echoWitnesses := c.getD d.recorderSettings.echoWitnesses } := by
  cases b <;> cases c <;> rfl

theorem samplerSettings_replace : (d.replace n s b c).samplerSettings =
    ⟨n.getD d.samplerSettings.intervalMs, s.or d.samplerSettings.nameSpace⟩ := by
  cases n <;> cases s <;> rfl

theorem withEnvironment_eq_ok_iff (u : Text.Lowering) : d.withEnvironment env = .ok e ↔
    ∃ n b c, Gives IsWord (env intervalVariable) n ∧ Gives (IsFlag u) (env strictVariable) b ∧
      Gives (IsFlag u) (env echoVariable) c ∧
        e = d.replace n ((env nameSpaceVariable).map Text.trim) b c := by
  rw [withEnvironment]
  simp only [bind_eq_ok_iff, apply_eq_ok_iff reading_word, apply_eq_ok_iff reading_text,
    apply_eq_ok_iff (reading_flag u), gives_text_iff]
  -- four edits in a row are one replacement
  constructor
  · rintro ⟨-, ⟨n, hn, rfl⟩, -, ⟨-, rfl, rfl⟩, -, ⟨b, hb, rfl⟩, c, hc, rfl⟩
    exact ⟨n, b, c, hn, hb, hc, replace_eq d n _ b c⟩
  · rintro ⟨n, b, c, hn, hb, hc, rfl⟩
    exact ⟨_, ⟨n, hn, rfl⟩, _, ⟨_, rfl, rfl⟩, _, ⟨b, hb, rfl⟩, c, hc, (replace_eq d n _ b c).symm⟩

theorem withEnvironment_eq_error_iff (u : Text.Lowering) :
    d.withEnvironment env = .error f ↔ env.FirstRefused u f := by
  have htext : ∀ value, Fits (fun s t : String => t = s) value := fun _ raw _ => ⟨_, rfl⟩
  have hnone : ¬ Refused env nameSpaceVariable (fun s t : String => t = s) (fun _ => "") f := by
    rintro ⟨raw, -, hraw, -⟩
    exact hraw ⟨_, rfl⟩
  rw [withEnvironment, FirstRefused]
  refine apply_bind_eq_error_iff reading_word fun d => ?_
  rw [apply_bind_eq_error_iff reading_text fun d =>
    apply_bind_eq_error_iff (reading_flag u) fun d => apply_eq_error_iff (reading_flag u)]
  rw [or_iff_right hnone, and_iff_right (htext _)]

/-- From the draft `d` to `e` the variables that are set have replaced their fields in what is in
force, and nothing else has changed. -/
structure Overridden (u : Text.Lowering) (env : Environment) (d e : Draft) : Prop where
  preset : e.preset = d.preset
  guard : e.guard = d.guard
  guardSettings : e.guardSettings = d.guardSettings
  intervalMs : Settles IsWord (env intervalVariable) d.samplerSettings.intervalMs
    e.samplerSettings.intervalMs
  nameSpace : Settles (fun s n => n = some s) (env nameSpaceVariable) d.samplerSettings.nameSpace
    e.samplerSettings.nameSpace
  strict : Settles (IsFlag u) (env strictVariable) d.recorderSettings.strict
    e.recorderSettings.strict
  echoWitnesses : Settles (IsFlag u) (env echoVariable) d.recorderSettings.echoWitnesses
    e.recorderSettings.echoWitnesses
  captureBacktrace : e.recorderSettings.captureBacktrace = d.recorderSettings.captureBacktrace
  sweepEvery : e.recorderSettings.sweepEvery = d.recorderSettings.sweepEvery
  /-- A detector without a variable that is set is left alone; otherwise all that is in force is the
  override. -/
  sampler : e.sampler =
    if env intervalVariable = none ∧ env nameSpaceVariable = none then d.sampler
    else some e.samplerSettings
  recorder : e.recorder =
    if env strictVariable = none ∧ env echoVariable = none then d.recorder
    else some e.recorderSettings

theorem overridden_replace {u : Text.Lowering} (hn : Gives IsWord (env intervalVariable) n)
    (hb : Gives (IsFlag u) (env strictVariable) b) (hc : Gives (IsFlag u) (env echoVariable) c) :
    Overridden u env d (d.replace n ((env nameSpaceVariable).map Text.trim) b c) where
  preset := rfl
  guard := rfl
  guardSettings := rfl
  intervalMs := by
    rw [samplerSettings_replace]
    exact hn.settles _
  nameSpace := by
    rw [samplerSettings_replace]
    cases env nameSpaceVariable <;> rfl
  strict := by
    rw [recorderSettings_replace]
    exact hb.settles _
  echoWitnesses := by
    rw [recorderSettings_replace]
    exact hc.settles _
  captureBacktrace := by rw [recorderSettings_replace]
  sweepEvery := by rw [recorderSettings_replace]
  sampler := by
    rw [samplerSettings_replace]
    exact if_congr (and_congr hn.eq_none_iff Option.map_eq_none_iff) rfl rfl
  recorder := by
    rw [recorderSettings_replace]
    exact if_congr (and_congr hb.eq_none_iff hc.eq_none_iff) rfl rfl

/-- Which texts the variables may have, and what becomes of the settings. Small letters may be found
by any table. The variables are accepted if each that is set stands for something, and then each
replaces its field in what is in force, whether that comes from an override or from the preset;
nothing else changes, and another time nothing changes at all. Otherwise the first that stands for
nothing is the fault, with its value as it is set. -/
theorem environment_exact (u : Text.Lowering) (env : Environment) (d : Draft) :
    ((∃ e, d.withEnvironment env = .ok e) ↔ env.WellFormed u) ∧
    (∀ e, d.withEnvironment env = .ok e →
      Overridden u env d e ∧ e.withEnvironment env = .ok e) ∧
    ∀ f, d.withEnvironment env = .error f ↔ env.FirstRefused u f := by
  refine ⟨?_, ?_, fun f => withEnvironment_eq_error_iff u⟩
  · simp only [withEnvironment_eq_ok_iff u]
    constructor
    · rintro ⟨-, n, b, c, hn, hb, hc, -⟩
      exact ⟨exists_gives_iff.1 ⟨n, hn⟩, exists_gives_iff.1 ⟨b, hb⟩, exists_gives_iff.1 ⟨c, hc⟩⟩
    · rintro ⟨hinterval, hstrict, hecho⟩
      obtain ⟨n, hn⟩ := exists_gives_iff.2 hinterval
      obtain ⟨b, hb⟩ := exists_gives_iff.2 hstrict
      obtain ⟨c, hc⟩ := exists_gives_iff.2 hecho
      exact ⟨_, n, b, c, hn, hb, hc, rfl⟩
  · intro e he
    obtain ⟨n, b, c, hn, hb, hc, rfl⟩ := (withEnvironment_eq_ok_iff u).1 he
    refine ⟨overridden_replace hn hb hc, (withEnvironment_eq_ok_iff u).2 ?_⟩
    exact ⟨n, b, c, hn, hb, hc, (replace_replace d n _ b c).symm⟩

/-- A draft with a sampler and without a recorder: the namespace stays, and the recorder is the one
of the preset but for the field that is set. -/
example :
    let env : Environment := fun name =>
      if name = intervalVariable then some " +15\n"
      else if name = echoVariable then some "No" else none
    (Draft.withEnvironment env ⟨.strict, none, some ⟨7, some "app::"⟩, none⟩).toOption =
      some ⟨.strict, some ⟨true, false, true, 256⟩, some ⟨15, some "app::"⟩, none⟩ := by
  decide +kernel

end Draft

end LockDiscipline.Config
