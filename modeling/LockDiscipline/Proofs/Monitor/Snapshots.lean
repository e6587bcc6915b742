import LockDiscipline.Proofs.Monitor.Balance

namespace LockDiscipline.Monitor

open LockDiscipline.Order LockDiscipline.Sampling

namespace Runtime

variable {r : Runtime} {t : Thread} {c : Classifier}

theorem enter_proper (h : r.held.Proper) (t : Thread) (c : Classifier) :
    (r.enter t c).held.Proper :=
  h.set _ _

theorem leave_proper (h : r.held.Proper) (t : Thread) (c : Classifier) :
    (r.leave t c).held.Proper := by
  unfold leave
  dsimp only
  split
  · exact h.filter _
  · exact h.set _ _

/-- How a snapshot shows a thread; the monitor entered last comes first. -/
def shown (r : Runtime) (t : Thread) : Snapshot := ⟨t.name, (r.heldBy t).reverse.map (·.name)⟩

/-- Every listed thread is shown once, also one that has the name of another. -/
theorem snapshot_perm (h : r.held.Proper) :
    r.snapshot.Perm ((r.held.entries.map (·.1)).map r.shown) := by
  have hshown : (r.held.entries.map (·.1)).map r.shown =
      r.held.entries.map fun e => ⟨e.1.name, e.2.reverse.map (·.name)⟩ := by
    rw [List.map_map]
    refine List.map_congr_left ?_
    rintro ⟨t, cs⟩ he
    rw [Function.comp_apply, shown, heldBy, h.get?_of_mem he, Option.getD_some]
  rw [hshown]
  exact List.mergeSort_perm _ _

theorem exists_of_mem_snapshot (h : r.held.Proper) {s : Snapshot} (hs : s ∈ r.snapshot) :
    ∃ t, r.shown t = s := by
  rw [(snapshot_perm h).mem_iff, List.mem_map] at hs
  obtain ⟨t, -, hs⟩ := hs
  exact ⟨t, hs⟩

end Runtime

namespace Monitors

variable {m e : Monitors} {g : HeldGuard} {i : Option Nat} {f : Runtime → Runtime}

/-- No runtime lists a thread twice. -/
def Listed (m : Monitors) : Prop := ∀ r ∈ m.runtimes, r.held.Proper

namespace Listed

theorem changeRuntime (hm : m.Listed) (hf : ∀ r : Runtime, r.held.Proper → (f r).held.Proper) :
    (m.changeRuntime i f).Listed := by
  cases i with
  | none => exact hm
  | some i =>
    intro r hr
    change r ∈ m.runtimes.modify i f at hr
    obtain ⟨j, hj⟩ := List.mem_iff_getElem?.1 hr
    rw [List.getElem?_modify] at hj
    obtain ⟨q, hq, rfl⟩ := Option.map_eq_some_iff.1 hj
    have hproper := hm q (List.mem_of_getElem? hq)
    split
    · exact hf q hproper
    · exact hproper

theorem take (hm : m.Listed) (g : HeldGuard) : (m.take g).Listed := by
  have hacquire : (m.acquire g.thread g.classifier.id).Listed := hm
  exact hacquire.changeRuntime fun r hr => Runtime.enter_proper hr g.thread g.classifier

theorem drop (hm : m.Listed) (g : HeldGuard) : (m.drop g).Listed := by
  have hleave : (m.changeRuntime g.runtime (·.leave g.thread g.classifier)).Listed :=
    hm.changeRuntime fun r hr => Runtime.leave_proper hr g.thread g.classifier
  intro r hr
  unfold Monitors.drop at hr
  dsimp only at hr
  rw [runtimes_surrender] at hr
  exact hleave r hr

theorem lock (hm : m.Listed) (h : m.lock g = some e) : e.Listed := by
  obtain ⟨-, rfl | ⟨old, -, -, rfl⟩⟩ := lock_cases h
  · exact hm.take g
  · exact (hm.take g).drop old

theorem unlock (hm : m.Listed) (t : Thread) (label : String) : (m.unlock t label).1.Listed := by
  obtain h | ⟨g, -, -, h⟩ := m.unlock_cases t label
  · rw [h]
    exact hm
  · rw [h]
    exact hm.drop g

theorem runtimeAt (hm : m.Listed) (i : Nat) : (m.runtimeAt i).held.Proper := by
  unfold Monitors.runtimeAt
  cases h : m.runtimes[i]? with
  | none => exact List.nodup_nil
  | some r => exact hm r (List.mem_of_getElem? h)

end Listed

variable {n : Nat} {u : Thread} {d : Classifier}

theorem mem_heldBy_drop (hn : n < m.runtimes.length)
    (hd : d ∈ ((m.drop g).runtimeAt n).heldBy u) : d ∈ (m.runtimeAt n).heldBy u := by
  rw [heldBy_drop m g hn] at hd
  split at hd
  · exact (eraseLast_sublist _ _).subset hd
  · exact hd

/-- A runtime lists nothing but what was entered. -/
theorem mem_heldBy_lock (h : m.lock g = some e) (hn : n < m.runtimes.length)
    (hd : d ∈ (e.runtimeAt n).heldBy u) : d ∈ (m.runtimeAt n).heldBy u ∨ d = g.classifier := by
  have htake : d ∈ ((m.take g).runtimeAt n).heldBy u := by
    obtain ⟨-, rfl | ⟨old, -, -, rfl⟩⟩ := lock_cases h
    · exact hd
    · exact mem_heldBy_drop (by rwa [length_take]) hd
  rw [heldBy_take m g hn] at htake
  split at htake
  · exact (List.mem_append.1 htake).imp_right List.mem_singleton.1
  · exact Or.inl htake

theorem mem_heldBy_unlock {t : Thread} {label : String} (hn : n < m.runtimes.length)
    (hd : d ∈ ((m.unlock t label).1.runtimeAt n).heldBy u) : d ∈ (m.runtimeAt n).heldBy u := by
  obtain h | ⟨g, -, -, h⟩ := m.unlock_cases t label
  · rwa [h] at hd
  · rw [h] at hd
    exact mem_heldBy_drop hn hd

end Monitors

end LockDiscipline.Monitor
