import LockDiscipline.Exclusion.Guard

namespace LockDiscipline.Exclusion

namespace Guard

variable (g : Guard) (k l : Key) (t u : String) (f : Detection → Detection)

@[simp] theorem isMarked_mark : (g.mark l).isMarked k = (decide (k = l) || g.isMarked k) := by
  simp [isMarked, mark]

@[simp] theorem isMarked_clear : (g.clear l).isMarked k = (decide (k ≠ l) && g.isMarked k) := by
  rw [Bool.eq_iff_iff]
  simp [isMarked, clear, and_comm]

@[simp] theorem marks_update : (g.update t f).marks = g.marks := by
  unfold update
  split <;> rfl

@[simp] theorem marks_register : (g.register t).marks = g.marks := by
  unfold register
  split <;> rfl

@[simp] theorem isMarked_update : (g.update t f).isMarked k = g.isMarked k := by
  simp [isMarked]

@[simp] theorem isMarked_register : (g.register t).isMarked k = g.isMarked k := by
  simp [isMarked]

theorem marks_eq_nil {g : Guard} (h : ∀ k, g.isMarked k = false) : g.marks = [] := by
  refine List.eq_nil_iff_forall_not_mem.2 fun k hk => ?_
  have hmarked : g.isMarked k = true := List.contains_iff_mem.2 hk
  rw [h k] at hmarked
  cases hmarked

@[simp] theorem detection?_mark : (g.mark k).detection? t = g.detection? t := rfl

@[simp] theorem detection?_clear : (g.clear k).detection? t = g.detection? t := rfl

theorem update_of_unknown {g : Guard} {t : String} {f : Detection → Detection}
    (h : (g.detection? t).isNone = true) : g.update t f = g := by
  rw [update, Option.isNone_iff_eq_none.1 h]

theorem detection?_update :
    (g.update t f).detection? u = if u = t then (g.detection? t).map f else g.detection? u := by
  unfold update
  split
  · next d hd =>
    rw [detection?, Table.get?_set, hd]
    rfl
  · next hd =>
    split
    · next hu => rw [hu, hd, Option.map_none]
    · rfl

theorem detection?_register :
    (g.register t).detection? u =
      if u = t then some ((g.detection? t).getD ⟨false, false⟩) else g.detection? u := by
  unfold register
  split
  · next d hd =>
    split
    · next hu => rw [hu, hd, Option.getD_some]
    · rfl
  · next hd =>
    rw [detection?, Table.get?_set, hd]
    rfl

@[simp] theorem isSome_update :
    ((g.update t f).detection? u).isSome = (g.detection? u).isSome := by
  rw [detection?_update]
  split
  · next h => rw [h, Option.isSome_map]
  · rfl

@[simp] theorem isSome_register :
    ((g.register t).detection? u).isSome = (decide (u = t) || (g.detection? u).isSome) := by
  rw [detection?_register]
  split
  · next h => simp [h]
  · next h => simp [h]

theorem isEnabled_update : (g.update t f).isEnabled u =
    if u = t then (g.detection? t).any (fun d => (f d).enabled) else g.isEnabled u := by
  rw [isEnabled, detection?_update]
  split
  · rw [Option.any_map]
  · rfl

@[simp] theorem isEnabled_register : (g.register t).isEnabled u = g.isEnabled u := by
  rw [isEnabled, detection?_register]
  split
  · next h =>
    rw [isEnabled, h]
    cases g.detection? t <;> rfl
  · rfl

/-- Only what is about the exercise of a type changes. -/
theorem isEnabled_update_of_same (h : ∀ d, (f d).enabled = d.enabled) :
    (g.update t f).isEnabled u = g.isEnabled u := by
  rw [isEnabled_update]
  split
  · next hu => simp only [h, hu, isEnabled]
  · rfl

theorem isSome_of_isEnabled {g : Guard} {t : String} (h : g.isEnabled t = true) :
    (g.detection? t).isSome = true := by
  rw [isEnabled] at h
  cases hd : g.detection? t with
  | none => rw [hd] at h; cases h
  | some d => rfl

theorem wasExercised_update {g : Guard} {t : String} (h : (g.detection? t).isSome = true) :
    (g.update t fun d => { d with exercised := true }).wasExercised t = true := by
  obtain ⟨d, hd⟩ := Option.isSome_iff_exists.1 h
  rw [wasExercised, detection?_update, if_pos rfl, hd]
  rfl

@[simp] theorem enabledTypes_update : (g.update t f).enabledTypes = g.enabledTypes := by
  unfold update
  split <;> rfl

@[simp] theorem enabledTypes_register : (g.register t).enabledTypes = g.enabledTypes := by
  unfold register
  split <;> rfl

@[simp] theorem enabledTypes_mark : (g.mark k).enabledTypes = g.enabledTypes := rfl

@[simp] theorem enabledTypes_clear : (g.clear k).enabledTypes = g.enabledTypes := rfl

end Guard

end LockDiscipline.Exclusion
