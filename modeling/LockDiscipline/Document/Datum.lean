namespace LockDiscipline.Document

/-- What a structured text holds, over the scalars of its format. A text that is malformed somewhere
is the datum of all that stands before that place, closed by `broken`, so a reader meets the faults
of a text in the order in which they stand in it. -/
inductive Datum (σ : Type) where
  | leaf (scalar : σ)
  | list (items : List (Datum σ))
  | record (entries : List (Datum σ × Datum σ))
  /-- A reference to an anchored part of the same document. -/
  | reference (anchor : Nat)
  /-- The place where the text stops to make sense. -/
  | broken

namespace Datum

variable {σ : Type}

mutual

/-- Whether the whole subtree could be read. -/
def intact : Datum σ → Bool
  | leaf _ => true
  | list items => intactList items
  | record entries => intactEntries entries
  | reference _ => true
  | broken => false

def intactList : List (Datum σ) → Bool
  | [] => true
  | t :: ts => intact t && intactList ts

def intactEntries : List (Datum σ × Datum σ) → Bool
  | [] => true
  | (k, v) :: es => intact k && intact v && intactEntries es

end

theorem intactList_eq_all (ts : List (Datum σ)) : intactList ts = ts.all intact := by
  induction ts with
  | nil => rfl
  | cons t ts ih => simp [intactList, ih]

theorem intact_list {ts : List (Datum σ)} : (list ts).intact = true ↔ ∀ t ∈ ts, t.intact = true := by
  rw [intact, intactList_eq_all, List.all_eq_true]

end Datum

end LockDiscipline.Document
