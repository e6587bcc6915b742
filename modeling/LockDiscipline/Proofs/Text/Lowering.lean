import LockDiscipline.Text.Blank
import Mathlib.Data.List.Forall2

namespace LockDiscipline.Text

/-- What may be the small form of a character. -/
def LowersTo (c : Char) (cs : List Char) : Prop :=
  if c.toNat < 128 then cs = [c.toLower] else cs = ['k'] ∨ ∃ d ∈ cs, 128 ≤ d.toNat

/-- A way to make all letters of a text small ones. -/
structure Lowering where
  lower : String → String
  lowersTo : ∀ s, ∃ parts,
    List.Forall₂ LowersTo s.toList parts ∧ (lower s).toList = parts.flatten

variable {c : Char} {cs : List Char} {parts : List (List Char)} {s w : String}

theorem toLower_of_not_ascii (h : 128 ≤ c.toNat) : c.toLower = c := by
  have hcapital : ¬ (c.val ≥ 'A'.val ∧ c.val ≤ 'Z'.val) := by
    rintro ⟨-, hle⟩
    have hle : c.toNat ≤ 90 := UInt32.le_iff_toNat_le.1 hle
    omega
  exact dif_neg hcapital

/-- The letters beyond ASCII may also be left as they are. -/
def Lowering.ascii : Lowering where
  lower := lowerAscii
  lowersTo s := by
    refine ⟨s.toList.map fun c => [c.toLower], ?_, ?_⟩
    · rw [List.forall₂_map_right_iff, List.forall₂_same]
      intro c _
      unfold LowersTo
      split
      · rfl
      · next h =>
        rw [toLower_of_not_ascii (Nat.le_of_not_lt h)]
        exact Or.inr ⟨c, List.mem_singleton_self c, Nat.le_of_not_lt h⟩
    · rw [lowerAscii, String.toList_ofList, List.map_eq_flatMap, List.flatMap_def]

instance : Inhabited Lowering := ⟨.ascii⟩

theorem flatten_of_ascii (h : List.Forall₂ LowersTo cs parts) (hcs : ∀ c ∈ cs, c.toNat < 128) :
    parts.flatten = cs.map Char.toLower := by
  induction h with
  | nil => rfl
  | cons hc _ ih =>
    rw [List.forall_mem_cons] at hcs
    rw [LowersTo, if_pos hcs.1] at hc
    rw [hc, List.flatten_cons, ih hcs.2, List.map_cons, List.singleton_append]

/-- What is not ASCII leaves its trace. -/
theorem ascii_of_flatten (h : List.Forall₂ LowersTo cs parts)
    (hparts : ∀ d ∈ parts.flatten, d.toNat < 128 ∧ d ≠ 'k') : ∀ c ∈ cs, c.toNat < 128 := by
  induction h with
  | nil =>
    intro c hc
    cases hc
  | @cons c p cs parts hc _ ih =>
    rw [List.flatten_cons, List.forall_mem_append] at hparts
    rw [List.forall_mem_cons]
    refine ⟨?_, ih hparts.2⟩
    -- otherwise the small form has a `k` or a character that is not ASCII
    by_contra hnot
    rw [LowersTo, if_neg hnot] at hc
    rcases hc with rfl | ⟨d, hd, hbeyond⟩
    · exact (hparts.1 'k' (List.mem_singleton_self _)).2 rfl
    · exact Nat.not_lt.2 hbeyond (hparts.1 d hd).1

namespace Lowering

theorem lower_of_ascii (u : Lowering) (h : ∀ c ∈ s.toList, c.toNat < 128) :
    u.lower s = lowerAscii s := by
  obtain ⟨parts, hparts, heq⟩ := u.lowersTo s
  rw [← String.toList_inj, heq, flatten_of_ascii hparts h, lowerAscii, String.toList_ofList]

theorem ascii_of_lower (u : Lowering) (h : ∀ d ∈ (u.lower s).toList, d.toNat < 128 ∧ d ≠ 'k') :
    ∀ c ∈ s.toList, c.toNat < 128 := by
  obtain ⟨parts, hparts, heq⟩ := u.lowersTo s
  rw [heq] at h
  exact ascii_of_flatten hparts h

/-- Whichever way, the same texts become a text in ASCII without a `k`. -/
theorem lower_eq_iff (u : Lowering) (hw : ∀ d ∈ w.toList, d.toNat < 128 ∧ d ≠ 'k') :
    u.lower s = w ↔ lowerAscii s = w := by
  constructor
  · rintro rfl
    exact (u.lower_of_ascii (u.ascii_of_lower hw)).symm
  · rintro rfl
    exact u.lower_of_ascii (ascii.ascii_of_lower hw)

end Lowering

end LockDiscipline.Text
