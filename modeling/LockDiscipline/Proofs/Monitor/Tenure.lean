import LockDiscipline.Proofs.Monitor.Registry
import Mathlib.Data.List.Induction

namespace LockDiscipline.Monitor

open LockDiscipline.Order LockDiscipline.Sampling

/-- Monitors with one runtime, and the lists of the runtime apart. -/
structure Tracked where
  monitors : Monitors
  registry : Registry

namespace Tracked

inductive Move where
  | enter (thread : Thread) (label : String) (c : Classifier)
  | drop (thread : Thread) (label : String)

def start : Tracked := ⟨⟨.empty, [.empty], []⟩, .empty⟩

/-- A thread that wants to enter a monitor of another one waits. Its enter comes again later. -/
def step (s : Tracked) : Move → Tracked
  | .enter thread label c =>
    let g : HeldGuard := ⟨thread, label, c, some 0, none⟩
    match s.monitors.lock g with
    | none => s
    | some m =>
      let entered := s.registry.enter g
      ⟨m, (s.monitors.guard? thread label).elim entered entered.leave⟩
  | .drop thread label =>
    let (m, dropped) := s.monitors.unlock thread label
    ⟨m, dropped.elim s.registry s.registry.leave⟩

def run (ms : List Move) : Tracked := ms.foldl step start

/-- The thread has owned the monitor ever since the move with this number, and did not before it. -/
def Began (ms : List Move) (t : Thread) (c : ClassifierId) (n : Nat) : Prop :=
  n < ms.length ∧ (run (ms.take n)).monitors.owns t c = false ∧
    ∀ i, n < i → i ≤ ms.length → (run (ms.take i)).monitors.owns t c = true

variable {s : Tracked} {ms : List Move} {e : Move} {t : Thread} {c : ClassifierId} {n : Nat}

@[simp] theorem run_concat (ms : List Move) (e : Move) : run (ms ++ [e]) = (run ms).step e := by
  simp [run]

/-- The registry is linked, and no thread is listed twice. -/
structure Sound (s : Tracked) : Prop where
  linked : Registry.Linked s.monitors s.registry
  listed : s.monitors.Listed

theorem Sound.step (hs : s.Sound) (e : Move) : (s.step e).Sound := by
  cases e with
  | enter t label c =>
    unfold Tracked.step
    dsimp only
    cases h : s.monitors.lock ⟨t, label, c, some 0, none⟩ with
    | none => exact hs
    | some m => exact ⟨hs.linked.lock h rfl, hs.listed.lock h⟩
  | drop t label => exact ⟨hs.linked.unlock t label, hs.listed.unlock t label⟩

theorem sound_start : start.Sound := by
  refine ⟨.start, fun r hr => ?_⟩
  rw [List.mem_singleton.1 hr]
  exact List.nodup_nil

theorem sound_run (ms : List Move) : (run ms).Sound := by
  induction ms using List.reverseRecOn with
  | nil => exact sound_start
  | append_singleton ms e ih =>
    rw [run_concat]
    exact ih.step e

theorem fresh_step (hs : s.Sound) (e : Move) (t : Thread) :
    s.monitors.Fresh t ((s.step e).monitors.heldBy t) := by
  cases e with
  | enter u label c =>
    unfold Tracked.step
    dsimp only
    cases h : s.monitors.lock ⟨u, label, c, some 0, none⟩ with
    | none => exact Monitors.fresh_of_sublist (List.Sublist.refl _)
    | some m => exact hs.linked.solo.fresh_lock h rfl t
  | drop u label => exact hs.linked.solo.fresh_unlock u label t

theorem Began.concat (h : Began ms t c n) (howns : (run (ms ++ [e])).monitors.owns t c = true) :
    Began (ms ++ [e]) t c n := by
  obtain ⟨hn, hbefore, hsince⟩ := h
  have htake : ∀ i ≤ ms.length, (ms ++ [e]).take i = ms.take i :=
    fun i hi => List.take_append_of_le_length hi
  refine ⟨by simp; omega, by rwa [htake n (Nat.le_of_lt hn)], fun i hni hi => ?_⟩
  rw [List.length_append, List.length_singleton] at hi
  rcases Nat.lt_or_ge ms.length i with hlast | hi
  · rwa [List.take_of_length_le (by simp; omega)]
  · rw [htake i hi]
    exact hsince i hni hi

theorem began_concat (hbefore : (run ms).monitors.owns t c = false)
    (howns : (run (ms ++ [e])).monitors.owns t c = true) : Began (ms ++ [e]) t c ms.length := by
  refine ⟨by simp, by simpa using hbefore, fun i hni hi => ?_⟩
  rw [List.length_append, List.length_singleton] at hi
  rwa [List.take_of_length_le (by simp; omega)]

/-- What a thread lists first it has owned for longer. -/
theorem tenure_run (ms : List Move) (t : Thread) :
    (∀ c ∈ distinct ((run ms).monitors.heldBy t), ∃ n, Began ms t c.id n) ∧
      (distinct ((run ms).monitors.heldBy t)).Pairwise fun c d =>
        ∃ i j, i < j ∧ Began ms t c.id i ∧ Began ms t d.id j := by
  induction ms using List.reverseRecOn with
  | nil =>
    have hnil : (run []).monitors.heldBy t = [] := rfl
    rw [hnil]
    exact ⟨by simp [distinct], List.Pairwise.nil⟩
  | append_singleton ms e ih =>
    obtain ⟨hbegan, hpairs⟩ := ih
    obtain ⟨added, hsub, hone, hadded⟩ := fresh_step (sound_run ms) e t
    rw [← run_concat] at hsub
    have howns : ∀ c ∈ distinct ((run (ms ++ [e])).monitors.heldBy t),
        (run (ms ++ [e])).monitors.owns t c.id = true := fun c hc =>
      (sound_run (ms ++ [e])).linked.solo.owns_of_mem ((distinct_sublist _).subset hc)
    have hnew : ∀ c ∈ added, c ∈ distinct ((run (ms ++ [e])).monitors.heldBy t) →
        Began (ms ++ [e]) t c.id ms.length :=
      fun c hc hmem => began_concat (hadded c hc) (howns c hmem)
    have hall : (distinct ((run ms).monitors.heldBy t) ++ added).Pairwise fun c d =>
        c ∈ distinct ((run (ms ++ [e])).monitors.heldBy t) →
          d ∈ distinct ((run (ms ++ [e])).monitors.heldBy t) →
            ∃ i j, i < j ∧ Began (ms ++ [e]) t c.id i ∧ Began (ms ++ [e]) t d.id j := by
      rw [List.pairwise_append]
      refine ⟨?_, ?_, ?_⟩
      · refine hpairs.imp ?_
        rintro c d ⟨i, j, hij, hi, hj⟩ hc hd
        exact ⟨i, j, hij, hi.concat (howns c hc), hj.concat (howns d hd)⟩
      · rcases added with _ | ⟨x, _ | ⟨y, ys⟩⟩
        · exact List.Pairwise.nil
        · exact List.pairwise_singleton _ _
        · simp at hone
      · intro c hc d hd hcin hdin
        obtain ⟨n, hn⟩ := hbegan c hc
        exact ⟨n, ms.length, hn.1, hn.concat (howns c hcin), hnew d hd hdin⟩
    refine ⟨fun c hc => ?_, ?_⟩
    · rcases List.mem_append.1 (hsub.subset hc) with hold | hin
      · obtain ⟨n, hn⟩ := hbegan c hold
        exact ⟨n, hn.concat (howns c hc)⟩
      · exact ⟨ms.length, hnew c hin hc⟩
    · exact (hall.sublist hsub).imp_of_mem fun hc hd hcd => hcd hc hd

theorem owns_unique {m : Monitors} {t u : Thread} (ht : m.owns t c = true)
    (hu : m.owns u c = true) : t = u := by
  unfold Monitors.owns at ht hu
  cases ho : m.owner? c with
  | none =>
    rw [ho] at ht
    cases ht
  | some o =>
    rw [ho, Option.any_some, decide_eq_true_iff] at ht hu
    rw [← ht, hu]

/-- After every run: a thread is registered just if it has a guard. Its list has every classifier as
often as the thread has guards on it, and names only what the thread owns, so that no other list
names it. The first entries are all that the thread owns, what it has owned longest first. A
snapshot shows every registered thread once, whatever the threads are called, with the names of its
list, the monitor entered last first. Every guard still has its handle on the list that its thread
is registered with, and this is the one that the runtime shows. -/
theorem lists_exact (ms : List Move) :
    let m := (run ms).monitors
    let r := m.runtimeAt 0
    let lists := (run ms).registry
    (∀ t, (r.held.get? t).isSome = true ↔ ∃ g ∈ m.guards, g.thread = t) ∧
    r.threadCount = (m.guards.map (·.thread)).toFinset.card ∧
    (∀ t a, entries a (r.heldBy t) = m.guardsOn t a) ∧
    (∀ t, ∀ c ∈ r.heldBy t, m.owns t c.id = true ∧
      ∀ u, ∀ d ∈ r.heldBy u, d.id = c.id → u = t) ∧
    (∀ t, (∀ a, m.owns t a = true ↔ ∃ c ∈ distinct (r.heldBy t), c.id = a) ∧
      (∀ c ∈ distinct (r.heldBy t), ∃ n, Began ms t c.id n) ∧
      (distinct (r.heldBy t)).Pairwise fun c d =>
        ∃ i j, i < j ∧ Began ms t c.id i ∧ Began ms t d.id j) ∧
    (∃ threads : List Thread, threads.Nodup ∧
      (∀ t, t ∈ threads ↔ (r.held.get? t).isSome = true) ∧
      r.snapshot.Perm (threads.map fun t => ⟨t.name, (r.heldBy t).reverse.map (·.name)⟩)) ∧
    lists.handles.map (·.1) = m.guards ∧
      (∀ e ∈ lists.handles, lists.table.get? e.1.thread = some e.2) ∧
      ∀ t, (lists.table.get? t).map lists.lists = r.held.get? t := by
  intro m r lists
  obtain ⟨hlinked, hlisted⟩ := sound_run ms
  have hsolo := hlinked.solo
  have hproper := hlisted.runtimeAt 0
  have hregistered : ∀ t, (r.held.get? t).isSome = true ↔ ∃ g ∈ m.guards, g.thread = t := by
    intro t
    rw [hlinked.filled.isSome_get?]
    have hnil := hsolo.heldBy_eq_nil_iff (t := t)
    rw [Monitors.heldBy] at hnil
    rw [Ne, hnil]
    push Not
    rfl
  have hcount : r.threadCount = (m.guards.map (·.thread)).toFinset.card := by
    refine Runtime.threadCount_eq_card hproper fun t => ?_
    rw [hregistered, List.mem_toFinset, List.mem_map]
  refine ⟨hregistered, hcount, hsolo.entries_heldBy, ?_, ?_, ?_, hlinked.handles, hlinked.own,
    hlinked.lists⟩
  · intro t c hc
    refine ⟨hsolo.owns_of_mem hc, fun u d hd hid => ?_⟩
    have hd' := hsolo.owns_of_mem hd
    rw [hid] at hd'
    exact owns_unique hd' (hsolo.owns_of_mem hc)
  · intro t
    exact ⟨hsolo.owns_iff t, tenure_run ms t⟩
  · exact ⟨_, hproper, fun t => Runtime.mem_listed_iff hproper, Runtime.snapshot_perm hproper⟩

/-- Of two guards on one monitor either may go: the monitor keeps its place. -/
example :
    let t : Thread := ⟨1, "t"⟩
    let ms : List Move := [.enter t "x" ⟨1, "A"⟩, .enter t "y" ⟨2, "B"⟩, .enter t "z" ⟨1, "A"⟩]
    (run (ms ++ [.drop t "x"])).monitors.heldBy t = [⟨1, "A"⟩, ⟨2, "B"⟩] ∧
      (run (ms ++ [.drop t "z"])).monitors.heldBy t = [⟨1, "A"⟩, ⟨2, "B"⟩] :=
  ⟨rfl, rfl⟩

end Tracked

end LockDiscipline.Monitor
