import Mathlib.Data.List.Induction

namespace LockDiscipline

variable {σ ε α : Type} {step : σ → ε → Option (σ × α)} {s u w : σ} {es fs : List ε} {xs ys : List α}

/-- Nothing if one of the events cannot happen. -/
def runWith (step : σ → ε → Option (σ × α)) (s : σ) : List ε → Option (σ × List α)
  | [] => some (s, [])
  | e :: es => (step s e).bind fun r => (runWith step r.1 es).map fun q => (q.1, r.2 :: q.2)

theorem runWith_append (hu : runWith step s es = some (u, xs))
    (hw : runWith step u fs = some (w, ys)) : runWith step s (es ++ fs) = some (w, xs ++ ys) := by
  induction es generalizing s xs with
  | nil =>
    cases hu
    exact hw
  | cons e es ih =>
    obtain ⟨r, hr, hrest⟩ := Option.bind_eq_some_iff.1 hu
    obtain ⟨q, hq, hpair⟩ := Option.map_eq_some_iff.1 hrest
    cases hpair
    rw [List.cons_append, runWith, hr, Option.bind_some, ih hq]
    rfl

theorem runWith_concat {e : ε} {x : α} (hu : runWith step s es = some (u, xs))
    (hw : step u e = some (w, x)) : runWith step s (es ++ [e]) = some (w, xs ++ [x]) := by
  refine runWith_append hu ?_
  rw [runWith, hw]
  rfl

/-- A run in two parts. -/
theorem exists_of_runWith_append {zs : List α} (h : runWith step s (es ++ fs) = some (w, zs)) :
    ∃ u xs ys, runWith step s es = some (u, xs) ∧ runWith step u fs = some (w, ys) ∧
      zs = xs ++ ys := by
  induction es generalizing s zs with
  | nil => exact ⟨s, [], zs, rfl, h, rfl⟩
  | cons e es ih =>
    obtain ⟨r, hr, hrest⟩ := Option.bind_eq_some_iff.1 h
    obtain ⟨q, hq, hpair⟩ := Option.map_eq_some_iff.1 hrest
    cases hpair
    obtain ⟨u, xs, ys, hu, hw, hzs⟩ := ih hq
    refine ⟨u, r.2 :: xs, ys, ?_, hw, by rw [hzs]; rfl⟩
    rw [runWith, hr, Option.bind_some, hu]
    rfl

/-- The first step of a run. -/
theorem exists_of_runWith_cons {e : ε} (h : runWith step s (e :: es) = some (w, ys)) :
    ∃ u x xs, step s e = some (u, x) ∧ runWith step u es = some (w, xs) ∧ ys = x :: xs := by
  obtain ⟨⟨u, x⟩, hu, hrest⟩ := Option.bind_eq_some_iff.1 h
  obtain ⟨⟨v, xs⟩, hv, hpair⟩ := Option.map_eq_some_iff.1 hrest
  cases hpair
  exact ⟨u, x, xs, hu, hv, rfl⟩

/-- The last step of a run. -/
theorem exists_of_runWith_concat {e : ε} (h : runWith step s (es ++ [e]) = some (w, ys)) :
    ∃ u xs x, runWith step s es = some (u, xs) ∧ step u e = some (w, x) ∧ ys = xs ++ [x] := by
  obtain ⟨u, xs, zs, hu, hlast, rfl⟩ := exists_of_runWith_append h
  obtain ⟨v, x, rest, hx, hv, rfl⟩ := exists_of_runWith_cons hlast
  cases hv
  exact ⟨u, xs, x, hu, hx, rfl⟩

theorem length_runWith (h : runWith step s es = some (w, xs)) : es.length = xs.length := by
  induction es generalizing s xs with
  | nil =>
    cases h
    rfl
  | cons e es ih =>
    obtain ⟨r, hr, hrest⟩ := Option.bind_eq_some_iff.1 h
    obtain ⟨q, hq, hpair⟩ := Option.map_eq_some_iff.1 hrest
    cases hpair
    rw [List.length_cons, List.length_cons, ih hq]

theorem runWith_induction {P : List ε → σ → List α → Prop} (start : P [] s [])
    (next : ∀ es u xs e v x, runWith step s es = some (u, xs) → P es u xs → step u e = some (v, x) →
      P (es ++ [e]) v (xs ++ [x]))
    (h : runWith step s es = some (w, xs)) : P es w xs := by
  induction es using List.reverseRecOn generalizing w xs with
  | nil =>
    cases h
    exact start
  | append_singleton es e ih =>
    obtain ⟨u, ys, x, hu, hx, rfl⟩ := exists_of_runWith_concat h
    exact next es u ys e w x hu (ih hu) hx

variable {β : Type}

/-- What each event and its reply yield, one after another. -/
def gather (f : ε → α → List β) (es : List ε) (xs : List α) : List β :=
  (es.zip xs).flatMap fun p => f p.1 p.2

theorem gather_concat (f : ε → α → List β) (h : es.length = xs.length) (e : ε) (x : α) :
    gather f (es ++ [e]) (xs ++ [x]) = gather f es xs ++ f e x := by
  unfold gather
  rw [List.zip_append h, List.flatMap_append]
  simp

end LockDiscipline
