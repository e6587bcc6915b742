namespace LockDiscipline

structure Table (κ α : Type) where
  entries : List (κ × α)
  deriving DecidableEq, Repr

namespace Table

variable {κ α : Type} [DecidableEq κ]

def empty : Table κ α := ⟨[]⟩

def get? (t : Table κ α) (k : κ) : Option α := t.entries.lookup k

def erase (t : Table κ α) (k : κ) : Table κ α := ⟨t.entries.filter fun e => e.1 ≠ k⟩

def set (t : Table κ α) (k : κ) (x : α) : Table κ α := ⟨(k, x) :: (t.erase k).entries⟩

def values (t : Table κ α) : List α := t.entries.map (·.2)

/-- Where the entries for some of the keys are taken out. -/
theorem get?_filter (t : Table κ α) (p : κ → Bool) (l : κ) :
    (Table.mk (t.entries.filter fun e => p e.1)).get? l = if p l then t.get? l else none := by
  obtain ⟨es⟩ := t
  unfold get?
  induction es with
  | nil => simp
  | cons e es ih =>
    obtain ⟨m, x⟩ := e
    dsimp only at ih ⊢
    cases hm : p m with
    | false =>
      rw [List.filter_cons_of_neg (by simp [hm]), ih, List.lookup_cons]
      by_cases hl : l = m
      · simp [hl, hm]
      · have hb : (l == m) = false := by simpa using hl
        simp [hb]
    | true =>
      rw [List.filter_cons_of_pos (by simp [hm]), List.lookup_cons, List.lookup_cons, ih]
      by_cases hl : l = m
      · simp [hl, hm]
      · have hb : (l == m) = false := by simpa using hl
        simp [hb]

theorem get?_erase (t : Table κ α) (k l : κ) :
    (t.erase k).get? l = if l = k then none else t.get? l := by
  have h := get?_filter t (fun m => decide (m ≠ k)) l
  unfold erase
  rw [h]
  by_cases hl : l = k <;> simp [hl]

theorem get?_set (t : Table κ α) (k l : κ) (x : α) :
    (t.set k x).get? l = if l = k then some x else t.get? l := by
  by_cases h : l = k
  · simp [set, get?, h]
  · have hb : (l == k) = false := by simpa using h
    have he := get?_erase t k l
    rw [if_neg h] at he
    rw [if_neg h, ← he]
    simp [set, get?, List.lookup_cons, hb]

/-- No key has two entries. -/
def Proper (t : Table κ α) : Prop := (t.entries.map (·.1)).Nodup

omit [DecidableEq κ] in
theorem Proper.filter {t : Table κ α} (h : t.Proper) (p : κ × α → Bool) :
    (Table.mk (t.entries.filter p)).Proper :=
  (List.filter_sublist.map _).nodup h

theorem Proper.set {t : Table κ α} (h : t.Proper) (k : κ) (x : α) : (t.set k x).Proper := by
  refine List.nodup_cons.2 ⟨?_, h.filter fun e => e.1 ≠ k⟩
  intro hk
  obtain ⟨e, he, rfl⟩ := List.mem_map.1 hk
  have hne := (List.mem_filter.1 he).2
  simp at hne

theorem Proper.get?_of_mem {t : Table κ α} (h : t.Proper) {k : κ} {x : α}
    (hm : (k, x) ∈ t.entries) : t.get? k = some x := by
  obtain ⟨es⟩ := t
  unfold Proper at h
  unfold get?
  induction es with
  | nil => cases hm
  | cons e es ih =>
    rw [List.map_cons, List.nodup_cons] at h
    rcases List.mem_cons.1 hm with rfl | hm
    · rw [List.lookup_cons_self]
    · have hne : (k == e.1) = false := by
        rw [beq_eq_false_iff_ne]
        rintro rfl
        exact h.1 (List.mem_map.2 ⟨_, hm, rfl⟩)
      rw [List.lookup_cons, hne]
      exact ih h.2 hm

theorem Proper.mem_entries_iff {t : Table κ α} (h : t.Proper) {k : κ} {x : α} :
    (k, x) ∈ t.entries ↔ t.get? k = some x := by
  refine ⟨h.get?_of_mem, fun hk => ?_⟩
  rw [get?, List.lookup_eq_some_iff] at hk
  obtain ⟨before, later, heq, -⟩ := hk
  rw [heq]
  simp

theorem mem_values_of_get? {t : Table κ α} {k : κ} {x : α} (h : t.get? k = some x) :
    x ∈ t.values := by
  obtain ⟨es⟩ := t
  unfold get? at h
  unfold values
  induction es with
  | nil => cases h
  | cons e es ih =>
    rw [List.lookup_cons] at h
    split at h
    · cases h; simp
    · exact List.mem_cons_of_mem _ (ih h)

omit [DecidableEq κ] in
theorem mem_values_filter {t : Table κ α} {p : κ × α → Bool} {x : α}
    (h : x ∈ (Table.mk (t.entries.filter p)).values) : x ∈ t.values :=
  (List.filter_sublist.map _).subset h

theorem mem_values_set {t : Table κ α} {k : κ} {x y : α} (h : x ∈ (t.set k y).values) :
    x = y ∨ x ∈ t.values := by
  rcases List.mem_cons.1 h with h | h
  · exact Or.inl h
  · exact Or.inr (mem_values_filter h)

end Table

end LockDiscipline
