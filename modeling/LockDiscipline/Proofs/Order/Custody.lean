import LockDiscipline.Proofs.Order.Realm

namespace LockDiscipline.Order

structure Ledger where
  /-- What each thread holds. -/
  held : List (Thread × ClassifierId)
  /-- What each thread has begun on which recorder. -/
  begun : List (Thread × Nat × ClassifierId)
  /-- What of it has been let go of since. -/
  lapsed : List (Thread × Nat × ClassifierId)
  deriving DecidableEq, Repr

/-- Whether a deed is neither an acquisition nor the release of one. -/
def Realm.Deed.isPlain : Realm.Deed → Bool
  | .begin .. => false
  | .release .. => false
  | _ => true

inductive Move where
  /-- A thread gets a lock that it does not hold. -/
  | take (thread : Thread) (a : ClassifierId)
  /-- A thread lets go of a lock altogether. -/
  | letGo (thread : Thread) (a : ClassifierId)
  | begin (thread : Thread) (recorder : Nat) (c : Classifier) (site : String)
  | release (thread : Thread) (recorder : Nat) (c : Classifier)
  | other (e : Realm.Deed) (plain : e.isPlain = true)

/-- Whether a move is a release or a sweep, which a program may as well leave out. -/
def Move.isSpare : Move → Bool
  | .release .. => true
  | .other (.sweep _) _ => true
  | _ => false

namespace Ledger

def empty : Ledger := ⟨[], [], []⟩

def holds (l : Ledger) (thread : Thread) (a : ClassifierId) : Bool := l.held.contains (thread, a)

def hasLapsed (l : Ledger) (thread : Thread) (r : Nat) (a : ClassifierId) : Bool :=
  l.lapsed.contains (thread, r, a)

/-- Without what is begun on some recorders by some threads. -/
def forget (l : Ledger) (p : Thread → Nat → Bool) : Ledger :=
  { l with
    begun := l.begun.filter fun k => !p k.1 k.2.1
    lapsed := l.lapsed.filter fun k => !p k.1 k.2.1 }

/-- What a move does to the ledger; nothing if it is not allowed. -/
def step (l : Ledger) : Move → Option Ledger
  | .take t a =>
    if l.holds t a || l.lapsed.any fun k => k.1 = t ∧ k.2.2 = a then none
    else some { l with held := (t, a) :: l.held }
  | .letGo t a =>
    if l.holds t a then
      some { l with
        held := l.held.filter fun k => k ≠ (t, a)
        lapsed := (l.begun.filter fun k => k.1 = t ∧ k.2.2 = a) ++ l.lapsed }
    else none
  | .begin t r c _ =>
    some { l with
      begun := (t, r, c.id) :: l.begun
      lapsed := l.lapsed.filter fun k => k ≠ (t, r, c.id) }
  | .release t r c => if l.hasLapsed t r c.id then some l else none
  | .other (.dropRecorder t r) _ => some (l.forget fun u p => u = t ∧ p = r)
  | .other (.endThread t) _ => some (l.forget fun u _ => u = t)
  | .other _ _ => some l

variable {l k : Ledger} {m : Move} {t : Thread} {r : Nat} {a : ClassifierId}

theorem hasLapsed_forget (l : Ledger) (p : Thread → Nat → Bool) (t : Thread) (r : Nat)
    (a : ClassifierId) : (l.forget p).hasLapsed t r a = (l.hasLapsed t r a && !p t r) := by
  rw [Bool.eq_iff_iff]
  simp [hasLapsed, forget]

/-- What a thread holds has lapsed on no recorder. -/
def Sound (l : Ledger) : Prop := ∀ t r a, l.holds t a = true → l.hasLapsed t r a = false

theorem sound_empty : empty.Sound := fun t r a h => by cases h

theorem hasLapsed_begin {c : Classifier} {site : String} {u : Thread} {p : Nat}
    (h : l.step (.begin t r c site) = some k) :
    k.hasLapsed u p a = (l.hasLapsed u p a && decide ((u, p, a) ≠ (t, r, c.id))) := by
  cases h
  rw [Bool.eq_iff_iff]
  simp [hasLapsed]

/-- What stays in the ledger of what has lapsed when a move is made. -/
theorem hasLapsed_step (h : l.step m = some k) (hk : k.hasLapsed t r a = true) :
    l.hasLapsed t r a = true ∨ m = .letGo t a := by
  cases m with
  | take u b =>
    rw [step, Option.ite_none_left_eq_some, Option.some_inj] at h
    rw [← h.2] at hk
    exact Or.inl hk
  | letGo u b =>
    rw [step, Option.ite_none_right_eq_some, Option.some_inj] at h
    rw [← h.2] at hk
    simp only [hasLapsed, List.contains_append, Bool.or_eq_true, List.contains_iff_mem,
      List.mem_filter, decide_eq_true_iff] at hk
    rcases hk with ⟨-, rfl, rfl⟩ | hk
    · exact Or.inr rfl
    · exact Or.inl (List.contains_iff_mem.2 hk)
  | begin u p c site =>
    cases h
    exact Or.inl (List.contains_iff_mem.2 (List.mem_of_mem_filter (List.contains_iff_mem.1 hk)))
  | release u p c =>
    rw [step, Option.ite_none_right_eq_some, Option.some_inj] at h
    rw [← h.2] at hk
    exact Or.inl hk
  | other e plain =>
    have hforget : ∀ p, (l.forget p).hasLapsed t r a = true → l.hasLapsed t r a = true := by
      intro p hp
      rw [hasLapsed_forget, Bool.and_eq_true] at hp
      exact hp.1
    cases e with
    | dropRecorder | endThread =>
      cases h
      exact Or.inl (hforget _ hk)
    | _ =>
      cases h
      exact Or.inl hk

theorem holds_step (h : l.step m = some k) (hk : k.holds t a = true) :
    l.holds t a = true ∧ m ≠ .letGo t a ∨ m = .take t a := by
  cases m with
  | take u b =>
    rw [step, Option.ite_none_left_eq_some, Option.some_inj] at h
    rw [← h.2] at hk
    rcases List.mem_cons.1 (List.contains_iff_mem.1 hk) with heq | hmem
    · cases heq
      exact Or.inr rfl
    · exact Or.inl ⟨List.contains_iff_mem.2 hmem, nofun⟩
  | letGo u b =>
    rw [step, Option.ite_none_right_eq_some, Option.some_inj] at h
    rw [← h.2] at hk
    obtain ⟨hmem, hne⟩ := List.mem_filter.1 (List.contains_iff_mem.1 hk)
    refine Or.inl ⟨List.contains_iff_mem.2 hmem, ?_⟩
    rintro heq
    cases heq
    simp at hne
  | begin u p c site =>
    cases h
    exact Or.inl ⟨hk, nofun⟩
  | release u p c =>
    rw [step, Option.ite_none_right_eq_some, Option.some_inj] at h
    rw [← h.2] at hk
    exact Or.inl ⟨hk, nofun⟩
  | other e plain =>
    cases e <;> cases h <;> exact Or.inl ⟨hk, nofun⟩

/-- What may be taken has lapsed on no recorder. -/
theorem hasLapsed_take (h : l.step (.take t a) = some k) (r : Nat) : k.hasLapsed t r a = false := by
  rw [step, Option.ite_none_left_eq_some, Option.some_inj] at h
  obtain ⟨hfree, rfl⟩ := h
  rw [Bool.eq_false_iff]
  intro hlapsed
  refine hfree (Bool.or_eq_true_iff.2 (Or.inr (List.any_eq_true.2 ⟨(t, r, a), ?_, by simp⟩)))
  exact List.contains_iff_mem.1 hlapsed

theorem Sound.step (hl : l.Sound) (h : l.step m = some k) : k.Sound := by
  intro t r a ha
  rcases holds_step h ha with ⟨hheld, hm⟩ | rfl
  · rw [Bool.eq_false_iff]
    intro hlapsed
    rcases hasLapsed_step h hlapsed with hold | heq
    · rw [hl t r a hheld] at hold
      cases hold
    · exact hm heq
  · exact hasLapsed_take h r

end Ledger

/-- A realm and a ledger of what its threads hold. -/
structure Custody where
  ledger : Ledger
  realm : Realm

/-- What a move does to the realm, if anything; an acquisition is told the truth. -/
def Move.deed? (l : Ledger) : Move → Option Realm.Deed
  | .take .. => none
  | .letGo .. => none
  | .begin t r c site => some (.begin (l.holds t) t r c site)
  | .release t r c => some (.release t r c)
  | .other e _ => some e

namespace Custody

open Detector (Reply)

def start : Custody := ⟨.empty, .start⟩

def step (w : Custody) (m : Move) : Option (Custody × Reply) :=
  (w.ledger.step m).bind fun l =>
    match m.deed? w.ledger with
    | none => some (⟨l, w.realm⟩, .done)
    | some e => (w.realm.step e).map fun s => (⟨l, s.1⟩, s.2)

def run (w : Custody) (ms : List Move) : Option (Custody × List Reply) := runWith step w ms

variable {w v : Custody} {m : Move} {x : Reply}

theorem step_eq_some_iff : w.step m = some (v, x) ↔ w.ledger.step m = some v.ledger ∧
    match m.deed? w.ledger with
    | none => v.realm = w.realm ∧ x = .done
    | some e => w.realm.step e = some (v.realm, x) := by
  obtain ⟨l, realm⟩ := v
  unfold step
  cases w.ledger.step m with
  | none => simp
  | some k =>
    cases m.deed? w.ledger with
    | none =>
      simp only [Option.bind_some, Option.some_inj, Prod.mk.injEq, Custody.mk.injEq]
      constructor
      · rintro ⟨⟨rfl, rfl⟩, rfl⟩
        exact ⟨rfl, rfl, rfl⟩
      · rintro ⟨rfl, rfl, rfl⟩
        exact ⟨⟨rfl, rfl⟩, rfl⟩
    | some e => simp [and_comm]

end Custody

end LockDiscipline.Order
