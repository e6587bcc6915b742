import LockDiscipline.Proofs.Exclusion.Isolation
import LockDiscipline.Proofs.Exclusion.Windows
import Mathlib.Tactic.IntervalCases

namespace LockDiscipline.Exclusion

namespace Crowd

variable {g : Guard} {s : Crowd} {tasks : Nat → Task} {turns : Nat → Option Nat}
  {i j a b n : Nat} {k : Key}

theorem task_of_conflict
    (h : ((start g tasks).moment turns n).calls i = .ended (.error k.conflict)) :
    tasks i = .check k := by
  rcases result_moment h with hok | ⟨f, hf, herror⟩
  · cases hok
  · cases herror
    cases hi : tasks i with
    | check l =>
      rw [hi, Task.fault?, Option.some.injEq, Key.conflict_inj] at hf
      rw [hf]
    | enable t | disable t =>
      rw [hi] at hf
      cases hf

/-- Between two moments at which nobody is about the value. -/
theorem accepted_iff (hs : Still k s)
    (hquiet : ∀ i, ((s.moment turns n).calls i).isInside k = false) :
    (∀ i, (s.calls i).result? = none →
        (s.moment turns n).calls i ≠ .ended (.error k.conflict)) ↔
      ∀ m ≤ n, ∀ i j, ((s.moment turns m).calls i).isInside k = true →
        ((s.moment turns m).calls j).isInside k = true → i = j := by
  constructor
  · intro hall
    rcases lone_or_doomed hs turns n with hlone | ⟨i, hi, hbefore⟩
    · intro m hm i j hin hjn
      exact ((hlone m hm i hin).2.2 j hjn).symm
    · rcases hi with hcollided | hfailed
      · have hout := hquiet i
        rw [hcollided] at hout
        simp [Call.isInside] at hout
      · exact absurd hfailed (hall i hbefore)
  · intro halone i hbefore hfailed
    obtain ⟨m, hm, j, hne, hi, hj⟩ := met_of_conflict hs hbefore hfailed
    exact hne (halone m hm j i hj hi)

/-- A mark stands only while some check is inside its window. A check fails only if another one on
the same value was inside its window at the same moment, and goes the same way when nobody checks
other values. Between two moments at which nobody is about a value, all checks of it succeed just if
no two of them overlapped. -/
theorem verdicts_exact (h : g.marks = []) (tasks : Nat → Task) (turns : Nat → Option Nat) :
    let s := (start g tasks).moment turns
    (∀ n k, (s n).guard.isMarked k = true → ∃ i, ((s n).calls i).isInside k = true) ∧
    (∀ n, (∀ i k, ((s n).calls i).isInside k = false) → (s n).guard.marks = []) ∧
    (∀ n i k, (s n).calls i = .ended (.error k.conflict) → ∃ m ≤ n, ∃ j, j ≠ i ∧
      ((s m).calls i).isInside k = true ∧ ((s m).calls j).isInside k = true) ∧
    (∀ n i k, tasks i = .check k →
      (s n).calls i = ((start g tasks).moment (turnsFor k tasks turns) n).calls i) ∧
    ∀ k a b, a ≤ b → (∀ i, ((s a).calls i).isInside k = false) →
      (∀ i, ((s b).calls i).isInside k = false) →
        ((∀ i r, tasks i = .check k → ((s a).calls i).result? = none →
            (s b).calls i = .ended r → r = .ok ()) ↔
          ∀ m, a ≤ m → m ≤ b → ∀ i j, ((s m).calls i).isInside k = true →
            ((s m).calls j).isInside k = true → i = j) := by
  intro s
  have hstill := still_start h tasks
  refine ⟨fun n k => exists_inside (hstill k), ?_, ?_, fun n i k => isolated g n, ?_⟩
  · intro n hquiet
    exact Guard.marks_eq_nil fun k => (still_of_quiet (hstill k) fun i => hquiet i k).unmarked
  · intro n i k hfailed
    refine met_of_conflict (hstill k) ?_ hfailed
    show ((tasks i).call).result? = none
    cases tasks i <;> rfl
  · intro k a b hab ha hb
    obtain ⟨c, rfl⟩ := Nat.exists_eq_add_of_le hab
    have hadd : ∀ m, s (a + m) = (s a).moment (fun m => turns (a + m)) m := moment_add _ turns a
    rw [hadd] at hb ⊢
    have hiff := accepted_iff (still_of_quiet (hstill k) ha) hb
    constructor
    · intro hall m ham hmb
      obtain ⟨d, rfl⟩ := Nat.exists_eq_add_of_le ham
      rw [hadd]
      refine hiff.1 ?_ d (by omega)
      intro i hbefore hfailed
      have htask : tasks i = .check k := task_of_conflict (by rw [← hadd] at hfailed; exact hfailed)
      cases hall i _ htask hbefore hfailed
    · intro halone i r hi hbefore hended
      have hresult := hended
      rw [← hadd] at hresult
      rcases result_moment hresult with hok | ⟨f, hf, rfl⟩
      · exact hok
      · rw [hi, Task.fault?, Option.some.injEq] at hf
        subst hf
        refine absurd hended (hiff.2 ?_ i hbefore)
        intro d hd
        rw [← hadd]
        exact halone (a + d) (by omega) (by omega)

/-- A guard that looks for concurrent access to one type. -/
def watchful : Guard := (Guard.empty.setDetection "u8" true).1

/-- Nothing but checks of one value. -/
def checkAll : Nat → Task := fun _ => .check ⟨"u8", 0⟩

/-- Call 0 opens its window, call 1 fails and removes the mark, call 2 opens its window, call 0
ends, call 3 opens its window, call 2 ends, and then call 3. -/
def relay (n : Nat) : Option Nat :=
  [0, 0, 0, 0, 0, 1, 1, 1, 1, 1, 1, 2, 2, 2, 2, 2, 0, 3, 3, 3, 3, 3, 2, 3][n]?

theorem quiet_after_relay (i : Nat) :
    (((start watchful checkAll).moment relay 24).calls i).isInside ⟨"u8", 0⟩ = false := by
  by_cases hi : i < 4
  · interval_cases i <;> rfl
  · have hnever : ∀ m, relay m ≠ some i := by
      intro m hm
      have hmem := List.mem_of_getElem? hm
      simp only [List.mem_cons, List.not_mem_nil, or_false] at hmem
      omega
    rw [calls_of_no_turn hnever]
    rfl

theorem verdicts_exact_relay :
    watchful.marks = [] ∧
      (∃ m ≤ 24, ∃ j, j ≠ 1 ∧
        (((start watchful checkAll).moment relay m).calls 1).isInside ⟨"u8", 0⟩ = true ∧
        (((start watchful checkAll).moment relay m).calls j).isInside ⟨"u8", 0⟩ = true) ∧
      ¬ ∀ i r, checkAll i = .check ⟨"u8", 0⟩ →
        (((start watchful checkAll).moment relay 0).calls i).result? = none →
          ((start watchful checkAll).moment relay 24).calls i = .ended r → r = .ok () := by
  obtain ⟨-, -, hmet, -, hiff⟩ := verdicts_exact (g := watchful) rfl checkAll relay
  have hfailed : ((start watchful checkAll).moment relay 24).calls 1 =
      .ended (.error (Key.conflict ⟨"u8", 0⟩)) := rfl
  refine ⟨rfl, hmet 24 1 ⟨"u8", 0⟩ hfailed, fun hall => ?_⟩
  have halone := (hiff ⟨"u8", 0⟩ 0 24 (by omega) (fun _ => rfl) quiet_after_relay).1 hall
  have htogether := halone 16 (by omega) (by omega) 0 2 rfl rfl
  cases htogether

theorem isInside_between (ha : ((s.moment turns a).calls i).isInside k = true)
    (hb : ((s.moment turns b).calls i).isInside k = true) (han : a ≤ n) (hnb : n ≤ b) :
    ((s.moment turns n).calls i).isInside k = true := by
  rcases calls_of_isInside ha han with hn | ⟨r, hn⟩
  · rwa [hn]
  · rw [calls_of_ended hn hnb] at hb
    cases hb

/-- Of two windows that are left one after the other, both with a mark to remove, the second one has
got its mark from a third call in between. -/
theorem exists_setting_between {r : Except Fault Unit} (hab : a < b)
    (hgone : (s.moment turns (a + 1)).guard.isMarked k = false)
    (hended : (s.moment turns (a + 1)).calls i = .ended r)
    (hin : ((s.moment turns (a + 1)).calls j).isInside k = true)
    (hstill : ((s.moment turns b).calls j).isInside k = true)
    (hmark : (s.moment turns b).guard.isMarked k = true) :
    ∃ c q, a < c ∧ c < b ∧ q ≠ i ∧ q ≠ j ∧ turns c = some q ∧
      (s.moment turns c).calls q = .checkExercised k ∧
      (s.moment turns c).calls i = .ended r ∧
      ((s.moment turns c).calls j).isInside k = true := by
  obtain ⟨c, hac, hcb, q, ht, hbegins⟩ := exists_setting hab hgone hmark
  have hi := calls_of_ended hended hac
  have hj := isInside_between hin hstill hac (Nat.le_of_lt hcb)
  refine ⟨c, q, hac, hcb, ?_, ?_, ht, hbegins, hi, hj⟩
  · rintro rfl
    rw [hi] at hbegins
    cases hbegins
  · rintro rfl
    rw [hbegins] at hj
    cases hj

/-- A check that is accepted found no mark when it started. -/
theorem unmarked_of_accepted (hnext : s.moment turns (a + 1) = (s.moment turns a).step j)
    (hbegins : (s.moment turns a).calls j = .checkExercised k) (han : a < n)
    (hj : (s.moment turns n).calls j = .ended (.ok ())) :
    (s.moment turns a).guard.isMarked k = false := by
  by_contra hmark
  rw [Bool.not_eq_false] at hmark
  have hfound := (enters_step hbegins).2
  rw [if_pos hmark, ← hnext] at hfound
  have hdoomed : Doomed k ((s.moment turns n).calls j) := Doomed.moment (Or.inl hfound) han
  rw [hj] at hdoomed
  rcases hdoomed with hdoomed | hdoomed <;> cases hdoomed

/-- Where a check is inside its window and its value has no mark, another check removed the mark. -/
theorem exists_removal_inside (hs : (s.calls i).isInside k = false)
    (hopen : ((s.moment turns a).calls i).isInside k = true)
    (hfree : (s.moment turns a).guard.isMarked k = false) :
    ∃ b p r, b < a ∧ p ≠ i ∧ turns b = some p ∧ ((s.moment turns b).calls i).isInside k = true ∧
      ((s.moment turns b).calls p).isInside k = true ∧
      (s.moment turns (b + 1)).calls p = .ended r := by
  obtain ⟨e, hea, -, -, hset, -, hstay⟩ := exists_entry hs hopen
  obtain ⟨b, heb, hba, p, htp, hp, r, hend⟩ := exists_removal hea hset hfree
  refine ⟨b, p, r, hba, ?_, htp, ?_, hp, hend⟩
  · rintro rfl
    rw [hstay (b + 1) (by omega) hba] at hend
    rw [hend] at hopen
    cases hopen
  · rwa [hstay b heb (Nat.le_of_lt hba)]

/-- Of two checks that are inside their windows together and are both accepted, the one that leaves
first takes the only mark, and the other one finds one all the same. -/
theorem exists_setting_inside (hij : i ≠ j) (han : a ≤ n)
    (hiin : ((s.moment turns a).calls i).isInside k = true)
    (hjin : ((s.moment turns a).calls j).isInside k = true)
    (hi : (s.moment turns n).calls i = .ended (.ok ()))
    (hj : (s.moment turns n).calls j = .ended (.ok ())) :
    ∃ c q, a < c ∧ c < n ∧ q ≠ i ∧ q ≠ j ∧ turns c = some q ∧
      (s.moment turns c).calls q = .checkExercised k ∧
        ((s.moment turns c).calls i = .ended (.ok ()) ∧
            ((s.moment turns c).calls j).isInside k = true ∨
          (s.moment turns c).calls j = .ended (.ok ()) ∧
            ((s.moment turns c).calls i).isInside k = true) := by
  obtain ⟨x, hax, hxn, htx, hcx, hmx, hgx, hex⟩ := exists_exit han hiin hi
  obtain ⟨y, hay, hyn, hty, hcy, hmy, hgy, hey⟩ := exists_exit han hjin hj
  have hxy : x ≠ y := by
    rintro rfl
    rw [htx] at hty
    exact hij (Option.some.inj hty)
  rcases Nat.lt_or_gt_of_ne hxy with hlt | hlt
  · have hjy : ((s.moment turns y).calls j).isInside k = true := by rwa [hcy]
    have hjx := isInside_between hjin hjy (n := x + 1) (by omega) hlt
    obtain ⟨c, q, hxc, hcy, hqi, hqj, htq, hq, hci, hcj⟩ :=
      exists_setting_between hlt hgx hex hjx hjy (hmy rfl)
    exact ⟨c, q, by omega, by omega, hqi, hqj, htq, hq, Or.inl ⟨hci, hcj⟩⟩
  · have hix : ((s.moment turns x).calls i).isInside k = true := by rwa [hcx]
    have hiy := isInside_between hiin hix (n := y + 1) (by omega) hlt
    obtain ⟨c, q, hyc, hcx, hqj, hqi, htq, hq, hcj, hci⟩ :=
      exists_setting_between hlt hgy hey hiy hix (hmx rfl)
    exact ⟨c, q, by omega, by omega, hqi, hqj, htq, hq, Or.inr ⟨hcj, hci⟩⟩

/-- Where a check starts while another one on the same value is inside its window, some check of
this value fails. It is one of the two, unless a third one removed a mark before the second started,
and a fourth one set a mark after the first of the two had ended and before the other one did. -/
theorem overlap_noticed (h : g.marks = []) (tasks : Nat → Task) (turns : Nat → Option Nat)
    {i j a n : Nat} {k : Key} (ht : turns a = some j)
    (hbegins : ((start g tasks).moment turns a).calls j = .checkExercised k)
    (hopen : (((start g tasks).moment turns a).calls i).isInside k = true) (han : a < n) :
    let s := (start g tasks).moment turns
    (∃ f, (s n).calls f = .collided k ∨ (s n).calls f = .ended (.error k.conflict)) ∧
    ((s n).calls i = .ended (.ok ()) → (s n).calls j = .ended (.ok ()) →
      ∃ b c p q, [i, j, p, q].Nodup ∧ b < a ∧ a < c ∧ c < n ∧
        (turns b = some p ∧ ((s b).calls i).isInside k = true ∧
          ((s b).calls p).isInside k = true) ∧
        turns c = some q ∧ (s c).calls q = .checkExercised k ∧
          ((s c).calls i = .ended (.ok ()) ∧ ((s c).calls j).isInside k = true ∨
            (s c).calls j = .ended (.ok ()) ∧ ((s c).calls i).isInside k = true)) := by
  intro s
  have hstill := still_start h tasks k
  have hij : i ≠ j := by
    rintro rfl
    rw [hbegins] at hopen
    cases hopen
  have hnext : s (a + 1) = (s a).step j := moment_succ_some ht
  have hjin : ((s (a + 1)).calls j).isInside k = true := by
    rw [hnext, (enters_step hbegins).2]
    split <;> simp [Call.isInside]
  have hiin : ((s (a + 1)).calls i).isInside k = true := by
    rwa [hnext, calls_step_of_ne _ hij]
  constructor
  · rcases lone_or_doomed hstill turns n with hlone | ⟨f, hf, -⟩
    · exact absurd ((hlone (a + 1) han i hiin).2.2 j hjin).symm hij
    · exact ⟨f, hf⟩
  · intro hi hj
    have hfree := unmarked_of_accepted hnext hbegins han hj
    obtain ⟨b, p, r, hba, hpi, htp, hib, hp, hend⟩ :=
      exists_removal_inside (hstill.outside i) hopen hfree
    obtain ⟨c, q, hac, hcn, hqi, hqj, htq, hq, hends⟩ :=
      exists_setting_inside hij han hiin hjin hi hj
    -- the third one has ended before the second one and the fourth one start
    have hpj : p ≠ j := by
      rintro rfl
      rw [calls_of_ended hend hba] at hbegins
      cases hbegins
    have hqp : q ≠ p := by
      rintro rfl
      rw [calls_of_ended hend (by omega)] at hq
      cases hq
    refine ⟨b, c, p, q, ?_, hba, by omega, hcn, ⟨htp, hib, hp⟩, htq, hq, hends⟩
    simp [hij, Ne.symm hpi, Ne.symm hqi, Ne.symm hpj, Ne.symm hqj, Ne.symm hqp]

theorem overlap_noticed_relay :
    relay 15 = some 2 ∧
      ((start watchful checkAll).moment relay 15).calls 2 = .checkExercised ⟨"u8", 0⟩ ∧
      (∃ f, ((start watchful checkAll).moment relay 24).calls f = .collided ⟨"u8", 0⟩ ∨
        ((start watchful checkAll).moment relay 24).calls f =
          .ended (.error (Key.conflict ⟨"u8", 0⟩))) ∧
      ∃ b c p q, [0, 2, p, q].Nodup ∧ b < 15 ∧ 15 < c ∧ c < 24 ∧
        relay b = some p ∧ relay c = some q := by
  obtain ⟨hfailed, hboth⟩ := overlap_noticed (g := watchful) rfl checkAll relay (i := 0) (j := 2)
    (a := 15) (n := 24) (k := ⟨"u8", 0⟩) rfl rfl rfl (by omega)
  obtain ⟨b, c, p, q, hnodup, hb, hc, hcn, ⟨hp, -, -⟩, hq, -⟩ := hboth rfl rfl
  exact ⟨rfl, rfl, hfailed, b, c, p, q, hnodup, hb, hc, hcn, hp, hq⟩

/-- Calls 0 and 2 are inside their windows at the same time, and both are accepted. -/
theorem both_accepted :
    (((start watchful checkAll).moment relay 16).calls 0).isInside ⟨"u8", 0⟩ = true ∧
      (((start watchful checkAll).moment relay 16).calls 2).isInside ⟨"u8", 0⟩ = true ∧
      ((start watchful checkAll).moment relay 24).calls 0 = .ended (.ok ()) ∧
      ((start watchful checkAll).moment relay 24).calls 2 = .ended (.ok ()) :=
  ⟨rfl, rfl, rfl, rfl⟩

end Crowd

end LockDiscipline.Exclusion
