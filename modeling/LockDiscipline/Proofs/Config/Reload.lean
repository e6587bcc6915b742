import LockDiscipline.Proofs.Config.Outlines

namespace LockDiscipline.Config

namespace RecorderSettings

def edits (s : RecorderSettings) : List Edit :=
  [.captureBacktrace s.captureBacktrace, .echoWitnesses s.echoWitnesses, .strict s.strict,
    .sweepEvery s.sweepEvery]

theorem nodup_edits (s : RecorderSettings) : (s.edits.map recorder.field).Nodup := by
  simp [edits, recorder, Edit.field]

end RecorderSettings

namespace SamplerSettings

/-- A namespace that is absent is left out. -/
def edits (s : SamplerSettings) : List Statement :=
  .intervalMs s.intervalMs :: (s.nameSpace.map fun n => .nameSpace (some n)).toList

theorem nodup_edits (s : SamplerSettings) : (s.edits.map sampler.field).Nodup := by
  obtain ⟨n, _ | name⟩ := s <;> simp [edits, sampler, Statement.field]

end SamplerSettings

namespace GuardSettings

def edits (s : GuardSettings) : List Edit := [.windowMs s.windowMs]

theorem nodup_edits (s : GuardSettings) : (s.edits.map guard.field).Nodup := by
  simp [edits]

end GuardSettings

namespace Draft

variable (d : Draft)

def outline : Outline :=
  ⟨d.recorder.map (·.edits), d.sampler.map (·.edits), d.guard.map (·.edits)⟩

theorem distinct_outline : d.outline.Distinct where
  recorder := by
    intro es hes
    obtain ⟨s, -, rfl⟩ := Option.map_eq_some_iff.1 hes
    exact s.nodup_edits
  sampler := by
    intro es hes
    obtain ⟨s, -, rfl⟩ := Option.map_eq_some_iff.1 hes
    exact s.nodup_edits
  guard := by
    intro es hes
    obtain ⟨s, -, rfl⟩ := Option.map_eq_some_iff.1 hes
    exact s.nodup_edits

theorem document_outline : d.outline.document d.preset = d.toYaml := by
  obtain ⟨p, _ | r, _ | ⟨n, _ | name⟩, _ | g⟩ := d <;> rfl

theorem draft_outline : d.outline.draft d.preset = d := by
  -- Where no namespace is set, the balanced settings have none either.
  obtain ⟨p, _ | r, _ | ⟨n, _ | name⟩, _ | g⟩ := d <;> rfl

theorem says_toYaml : Says d.toYaml d.preset d.outline := by
  rw [← document_outline]
  exact says_document d.distinct_outline d.preset

theorem ofYaml_toYaml : Draft.ofYaml d.toYaml = .ok d := by
  rw [d.says_toYaml.ofYaml, draft_outline]

theorem build_of_fault {d : Draft} {f : Fault} (h : d.fault? = some f) : d.build = .error f := by
  unfold build
  split
  · next hnone => rw [h] at hnone; cases hnone
  · next f' hf => rw [h] at hf; cases hf; rfl

/-- The file of a draft is read as the draft, and it is approved as the draft itself is or refused
for the same fault. -/
theorem reload_exact :
    Draft.ofYaml d.toYaml = .ok d ∧
    (d.fault? = none → ∃ a, d.build = .ok a ∧ Approved.ofYaml d.toYaml = .ok a ∧ a.draft = d) ∧
    ∀ f, d.fault? = some f → d.build = .error f ∧ Approved.ofYaml d.toYaml = .error f := by
  have hload : Approved.ofYaml d.toYaml = d.build := by
    rw [Approved.ofYaml, ofYaml_toYaml]
    rfl
  rw [hload]
  refine ⟨d.ofYaml_toYaml, fun hfault => ?_, fun f hf => ?_⟩
  · obtain ⟨a, ha⟩ := build_eq_ok_iff.2 hfault
    exact ⟨a, ha, ha, draft_of_build ha⟩
  · exact ⟨build_of_fault hf, build_of_fault hf⟩

end Draft

end LockDiscipline.Config
