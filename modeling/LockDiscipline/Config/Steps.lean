import LockDiscipline.Config.Environment

namespace LockDiscipline.Config

/-- How a draft grows: edits of one detector's settings, or what the environment says. -/
inductive Step where
  | recorder (edits : List RecorderSettings.Edit)
  | sampler (edits : List SamplerSettings.Edit)
  | guard (edits : List GuardSettings.Edit)
  | environment (env : Environment)

namespace Draft

def take (d : Draft) : Step → Except Fault Draft
  | .recorder es => .ok (d.editRecorder es)
  | .sampler es => .ok (d.editSampler es)
  | .guard es => .ok (d.editGuard es)
  | .environment env => d.withEnvironment env

/-- All steps, up to the first that fails. -/
def takeAll (d : Draft) : List Step → Except Fault Draft
  | [] => .ok d
  | s :: ss =>
    match d.take s with
    | .ok d => d.takeAll ss
    | .error f => .error f

/-- The draft before the steps and after each one that succeeds. -/
def trail (d : Draft) : List Step → List Draft
  | [] => [d]
  | s :: ss =>
    match d.take s with
    | .ok e => d :: e.trail ss
    | .error _ => [d]

theorem trail_length {d e : Draft} {ss : List Step} (h : d.takeAll ss = .ok e) :
    (d.trail ss).length = ss.length + 1 := by
  induction ss generalizing d with
  | nil => rfl
  | cons s ss ih =>
    unfold takeAll at h
    unfold trail
    cases ht : d.take s with
    | error f => simp [ht] at h
    | ok c =>
      simp only [ht] at h
      simp [ih h]

end Draft

end LockDiscipline.Config
