import LockDiscipline.Proofs.Config.Layering
import LockDiscipline.Proofs.Config.Reload
import Mathlib.Data.List.TakeWhile

namespace LockDiscipline.Text

/-- A text whose last character is kept keeps a character from the front as well. -/
theorem trimChars_eq_nil_iff {cs : List Char} :
    trimChars cs = [] ↔ ∀ c ∈ cs, isBlank c = true := by
  rw [trimChars, List.reverse_eq_nil_iff, List.dropWhile_eq_nil_iff]
  constructor
  · intro h
    rw [← List.dropWhile_eq_nil_iff]
    by_contra hne
    have hblank := h _ (List.mem_reverse.2 (List.head_mem hne))
    rw [List.head_dropWhile_not isBlank hne] at hblank
    cases hblank
  · intro h c hc
    exact h c ((List.dropWhile_sublist _).mem (List.mem_reverse.1 hc))

theorem isBlankText_iff (s : String) : isBlankText s = true ↔ ∀ c ∈ s.toList, isBlank c = true := by
  rw [isBlankText, String.isEmpty_iff, ← trimChars_eq_nil_iff, trim, ← String.toList_inj]
  simp

end LockDiscipline.Text

namespace LockDiscipline.Config

def RecorderSettings.InBounds (s : RecorderSettings) : Prop :=
  1 ≤ s.sweepEvery.toNat ∧ s.sweepEvery.toNat ≤ 1000000

/-- A namespace, where there is one, has a character that shows. -/
structure SamplerSettings.InBounds (s : SamplerSettings) : Prop where
  interval : 1 ≤ s.intervalMs.toNat ∧ s.intervalMs.toNat ≤ 60000
  nameSpace : ∀ n, s.nameSpace = some n → ∃ c ∈ n.toList, Text.isBlank c = false

def GuardSettings.InBounds (s : GuardSettings) : Prop :=
  1 ≤ s.windowMs.toNat ∧ s.windowMs.toNat ≤ 1000

theorem Bounds.fault?_eq_none_iff_toNat {b : Bounds} {n : UInt64} :
    b.fault? n = none ↔ b.low.toNat ≤ n.toNat ∧ n.toNat ≤ b.high.toNat := by
  rw [fault?_eq_none_iff, UInt64.le_iff_toNat_le, UInt64.le_iff_toNat_le]

theorem RecorderSettings.fault?_eq_none_iff {s : RecorderSettings} :
    s.fault? = none ↔ s.InBounds :=
  Bounds.fault?_eq_none_iff_toNat

theorem nameSpaceFault?_eq_none_iff {n : Option String} :
    nameSpaceFault? n = none ↔ ∀ t, n = some t → ∃ c ∈ t.toList, Text.isBlank c = false := by
  cases n with
  | none => simp [nameSpaceFault?]
  | some t =>
    have hblank : Text.isBlankText t = false ↔ ∃ c ∈ t.toList, Text.isBlank c = false := by
      rw [← Bool.not_eq_true, Text.isBlankText_iff]
      simp
    cases h : Text.isBlankText t with
    | true =>
      rw [h] at hblank
      simp [nameSpaceFault?, h, ← hblank]
    | false => simp [nameSpaceFault?, h, hblank.1 h]

theorem SamplerSettings.fault?_eq_none_iff {s : SamplerSettings} :
    s.fault? = none ↔ s.InBounds := by
  rw [fault?, Option.or_eq_none_iff, Bounds.fault?_eq_none_iff_toNat, nameSpaceFault?_eq_none_iff]
  exact ⟨fun h => ⟨h.1, h.2⟩, fun h => ⟨h.interval, h.nameSpace⟩⟩

theorem GuardSettings.fault?_eq_none_iff {s : GuardSettings} : s.fault? = none ↔ s.InBounds :=
  Bounds.fault?_eq_none_iff_toNat

namespace Draft

variable {d : Draft} {f : Fault}

/-- Of a sound draft all that is in force is sound, also what only the preset says. -/
theorem sound_of_fault? (h : d.fault? = none) :
    d.recorderSettings.fault? = none ∧ d.samplerSettings.fault? = none ∧
      d.guardSettings.fault? = none := by
  obtain ⟨p, r, s, g⟩ := d
  simp only [fault?, Option.or_eq_none_iff] at h
  obtain ⟨⟨hr, hs⟩, hg⟩ := h
  refine ⟨?_, ?_, ?_⟩
  · cases r with
    | none => exact Config.recorder.fault?_ofPreset p
    | some r => exact hr
  · cases s with
    | none => exact Config.sampler.fault?_ofPreset p
    | some s => exact hs
  · cases g with
    | none => exact Config.guard.fault?_ofPreset p
    | some g => exact hg

/-- The fault is the one of the first override that is out of bounds. -/
def FirstFault (d : Draft) (f : Fault) : Prop :=
  (∃ r, d.recorder = some r ∧ r.fault? = some f) ∨
    (∀ r, d.recorder = some r → r.InBounds) ∧
      ((∃ s, d.sampler = some s ∧ s.fault? = some f) ∨
        (∀ s, d.sampler = some s → s.InBounds) ∧ ∃ g, d.guard = some g ∧ g.fault? = some f)

theorem bind_fault?_eq_none_iff {α : Type} {fault? : α → Option Fault} {P : α → Prop}
    (h : ∀ {x}, fault? x = none ↔ P x) {x : Option α} :
    x.bind fault? = none ↔ ∀ y, x = some y → P y := by
  cases x <;> simp [h]

theorem fault?_eq_some_iff : d.fault? = some f ↔ d.FirstFault f := by
  simp only [fault?, FirstFault, Option.or_eq_some_iff, Option.bind_eq_some_iff,
    Option.or_eq_none_iff, bind_fault?_eq_none_iff RecorderSettings.fault?_eq_none_iff,
    bind_fault?_eq_none_iff SamplerSettings.fault?_eq_none_iff]
  rw [or_assoc, and_assoc, ← and_or_left]

theorem build_eq_error_iff : d.build = .error f ↔ d.FirstFault f := by
  rw [← fault?_eq_some_iff]
  refine ⟨fun h => ?_, build_of_fault⟩
  unfold build at h
  split at h
  · cases h
  · next e he =>
    cases h
    exact he

theorem exists_build_eq_error_iff : (∃ f, d.build = .error f) ↔
    (∃ r, d.recorder = some r ∧ ¬ r.InBounds) ∨ (∃ s, d.sampler = some s ∧ ¬ s.InBounds) ∨
      ∃ g, d.guard = some g ∧ ¬ g.InBounds := by
  have hsome : (∃ f, d.build = .error f) ↔ ¬ d.fault? = none := by
    simp only [build_eq_error_iff, ← fault?_eq_some_iff, ← Option.ne_none_iff_exists', ne_eq]
  rw [hsome]
  simp only [fault?, Option.or_eq_none_iff, not_and_or, or_assoc,
    bind_fault?_eq_none_iff RecorderSettings.fault?_eq_none_iff,
    bind_fault?_eq_none_iff SamplerSettings.fault?_eq_none_iff,
    bind_fault?_eq_none_iff GuardSettings.fault?_eq_none_iff, not_forall, exists_prop]

end Draft

/-- What a caller may do with a draft. -/
inductive Move where
  | step (s : Step)
  /-- The settings in force become what the caller makes of them. -/
  | recorder (change : RecorderSettings → RecorderSettings)
  | sampler (change : SamplerSettings → SamplerSettings)
  | guard (change : GuardSettings → GuardSettings)
  /-- The draft is built, and what was approved is opened again. -/
  | rebuild

namespace Draft

def move (d : Draft) : Move → Except Fault Draft
  | .step s => d.take s
  | .recorder change => .ok { d with recorder := some (change d.recorderSettings) }
  | .sampler change => .ok { d with sampler := some (change d.samplerSettings) }
  | .guard change => .ok { d with guard := some (change d.guardSettings) }
  | .rebuild => d.build.map (·.draft)

/-- All moves, up to the first that fails, and then the draft is built. -/
def moveAll (d : Draft) (moves : List Move) : Except Fault Approved := do
  (← moves.foldlM move d).build

end Draft

/-- Where an approved configuration comes from. -/
inductive Source where
  /-- Nothing is built for the standard one. -/
  | standard
  | text (yaml : String)
  | file (content : Option ByteArray)
  | preset (p : Preset) (moves : List Move)
  /-- What was approved is opened, changed and built again. -/
  | reopened (before : Source) (moves : List Move)

namespace Source

/-- The approved configuration, as the draft that it is. -/
def result : Source → Except Fault Draft
  | standard => .ok (Approved.ofPreset .standard).draft
  | text yaml => (Approved.ofYaml yaml).map (·.draft)
  | file content => (Approved.ofFile content).map (·.draft)
  | preset p moves => ((Draft.ofPreset p).moveAll moves).map (·.draft)
  | reopened before moves => do
    let d ← before.result
    (d.moveAll moves).map (·.draft)

variable {d : Draft}

/-- Whatever was built has no fault. -/
theorem sound_of_map {r : Except Fault Approved} (h : r.map (·.draft) = .ok d) :
    d.fault? = none := by
  cases r with
  | error f => cases h
  | ok a =>
    cases h
    exact a.sound

theorem sound {s : Source} (h : s.result = .ok d) : d.fault? = none := by
  cases s with
  | standard =>
    cases h
    rfl
  | text yaml => exact sound_of_map h
  | file content => exact sound_of_map h
  | preset p moves => exact sound_of_map h
  | reopened before moves =>
    rw [result] at h
    cases hb : before.result with
    | error f => rw [hb] at h; cases h
    | ok e =>
      rw [hb] at h
      exact sound_of_map h

/-- Wherever an approved configuration comes from, all that is in force in it is within its bounds,
and building it again leaves it as it is. Building refuses exactly the drafts with an override out
of bounds, for the fault of the first one. -/
theorem approval_exact :
    (∀ (s : Source) (d : Draft), s.result = .ok d →
      (d.recorderSettings.fault? = none ∧ d.recorderSettings.InBounds) ∧
      (d.samplerSettings.fault? = none ∧ d.samplerSettings.InBounds) ∧
      (d.guardSettings.fault? = none ∧ d.guardSettings.InBounds) ∧
      ∃ a, d.build = .ok a ∧ a.draft = d) ∧
    ∀ d : Draft,
      ((∃ f, d.build = .error f) ↔ (∃ r, d.recorder = some r ∧ ¬ r.InBounds) ∨
        (∃ s, d.sampler = some s ∧ ¬ s.InBounds) ∨ ∃ g, d.guard = some g ∧ ¬ g.InBounds) ∧
      ∀ f, d.build = .error f ↔ d.FirstFault f := by
  refine ⟨fun s d h => ?_, fun d => ⟨Draft.exists_build_eq_error_iff,
    fun f => Draft.build_eq_error_iff⟩⟩
  have hd := sound h
  obtain ⟨hr, hs, hg⟩ := Draft.sound_of_fault? hd
  obtain ⟨a, ha⟩ := Draft.build_eq_ok_iff.2 hd
  exact ⟨⟨hr, RecorderSettings.fault?_eq_none_iff.1 hr⟩,
    ⟨hs, SamplerSettings.fault?_eq_none_iff.1 hs⟩, ⟨hg, GuardSettings.fault?_eq_none_iff.1 hg⟩,
    a, ha, Draft.draft_of_build ha⟩

/-- The sampler is set to the largest interval over the quiet preset; the result is opened, and the
recorder is set to the smallest sweep. -/
def extremes : Source :=
  .reopened (.preset .quiet [.sampler fun _ => ⟨60000, none⟩, .rebuild])
    [.recorder fun r => { r with sweepEvery := 1 }]

theorem approval_exact_extremes :
    ∃ d, extremes.result = .ok d ∧ d.recorderSettings.sweepEvery = 1 ∧
      d.samplerSettings.InBounds ∧ d.guardSettings.InBounds ∧ ∃ a, d.build = .ok a ∧ a.draft = d := by
  have hresult : extremes.result = .ok ⟨.quiet, some ⟨false, false, false, 1⟩, some ⟨60000, none⟩,
    none⟩ := rfl
  obtain ⟨-, hs, hg, hbuild⟩ := approval_exact.1 _ _ hresult
  exact ⟨_, hresult, rfl, hs.2, hg.2, hbuild⟩

end Source

end LockDiscipline.Config
