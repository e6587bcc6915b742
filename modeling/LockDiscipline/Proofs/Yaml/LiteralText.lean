import LockDiscipline.Proofs.Yaml.Characters
import LockDiscipline.Yaml.Block

namespace LockDiscipline.Yaml

variable {c : Char} {cs tail rest : List Char} {p : Position} {k : Chomping}
  {least depth m i : Nat}

namespace BlockText

/-- Where a block stands that has read the text: before its first line, inside of one, or between
two. -/
inductive Stands : BlockText → Bool → List Char → Prop where
  | before {s : BlockText} (done : s.done = []) (lead : s.lead = [])
      (trail : ∀ c ∈ s.trail, isBreak c = true) : Stands s false s.trail
  | inside {s : BlockText} {x : Char} {xs : List Char} (done : s.done = x :: xs)
      (last : isBreak x = false) (lead : s.lead = []) (trail : s.trail = []) :
      Stands s true s.done.reverse
  | between {s : BlockText} {x b : Char} {xs : List Char} (done : s.done = x :: xs)
      (last : isBreak x = false) (lead : s.lead = [b]) (first : isBreak b = true)
      (trail : ∀ c ∈ s.trail, isBreak c = true) :
      Stands s false (s.done.reverse ++ b :: s.trail)

/-- A line break between lines is one of an empty line. -/
theorem Stands.trail {s : BlockText} {t : List Char} (h : s.Stands false t) (hc : isBreak c = true)
    (deepest : Nat) :
    Stands { s with trail := s.trail ++ [c], deepest } false (t ++ [c]) := by
  have htrail (hall : ∀ d ∈ s.trail, isBreak d = true) :
      ∀ d ∈ s.trail ++ [c], isBreak d = true := by
    intro d hd
    rcases List.mem_append.1 hd with hd | hd
    · exact hall d hd
    · rwa [List.eq_of_mem_singleton hd]
  cases h with
  | before hdone hlead hall => exact .before hdone hlead (htrail hall)
  | between hdone hlast hlead hfirst hall =>
    have h := Stands.between (s := { s with trail := s.trail ++ [c], deepest }) hdone hlast hlead
      hfirst (htrail hall)
    simpa using h

/-- The first line break behind a line is the one that ends it. -/
theorem Stands.endLine {s : BlockText} {t : List Char} (h : s.Stands true t)
    (hc : isBreak c = true) :
    Stands { s with lead := [c], trail := [], deepest := 0 } false (t ++ [c]) := by
  cases h with
  | inside hdone hlast _ _ =>
    exact Stands.between (s := { s with lead := [c], trail := [], deepest := 0 }) hdone hlast rfl hc
      fun d hd => by cases hd

theorem Stands.more {s : BlockText} {t : List Char} (h : s.Stands true t)
    (hc : isBreak c = false) : Stands { s with done := c :: s.done } true (t ++ [c]) := by
  cases h with
  | inside hdone hlast hlead htrail =>
    have h := Stands.inside (s := { s with done := c :: s.done }) rfl hc hlead htrail
    simpa using h

/-- A line that starts keeps the line breaks before it. -/
theorem Stands.startLine {s : BlockText} {t : List Char} (h : s.Stands false t)
    (hc : isBreak c = false) (depth : Nat) :
    (s.startLine false depth c).Stands true (t ++ [c]) := by
  have hdone : (s.startLine false depth c).done =
      c :: ((s.lead ++ s.trail).reverse ++ s.done) := rfl
  have htext : s.done.reverse ++ (s.lead ++ s.trail) = t := by
    cases h with
    | before hdone hlead _ => simp [hdone, hlead]
    | between hdone _ hlead _ _ => simp [hlead]
  have h := Stands.inside hdone hc rfl rfl
  rwa [hdone, List.reverse_cons, List.reverse_append, List.reverse_reverse, htext] at h

/-- What becomes of the line breaks at the end of a text that is written as a block. -/
def chompingFor (t : List Char) : Chomping :=
  match t.reverse with
  | [] => .strip
  | a :: rest =>
    if !isBreak a then .strip
    else
      match rest with
      | [] => .keep
      | b :: _ => if isBreak b then .keep else .clip

/-- A text ends with a line break where the block stands outside of a line. -/
theorem Stands.last {s : BlockText} {inside : Bool} {t : List Char} (h : s.Stands inside t)
    (ht : t ≠ []) : t.getLast?.any isBreak = !inside := by
  cases h with
  | before _ _ hall =>
    obtain ⟨b, hb⟩ := Option.isSome_iff_exists.1 (List.getLast?_isSome.2 ht)
    rw [hb]
    exact hall b (List.mem_of_getLast? hb)
  | inside hdone hlast _ _ => simp [hdone, hlast]
  | @between x b xs _ _ _ hfirst hall =>
    by_cases htrail : s.trail = []
    · simp [htrail, hfirst]
    · obtain ⟨d, hd⟩ := Option.isSome_iff_exists.1 (List.getLast?_isSome.2 htrail)
      have hd' : (s.done.reverse ++ b :: s.trail).getLast? = some d := by
        simp [List.getLast?_cons_of_ne_nil htrail, hd]
      rw [hd']
      exact hall d (List.mem_of_getLast? hd)

/-- A block that is closed between its lines leaves the whole text. -/
theorem Stands.finish {s : BlockText} {t : List Char} (h : s.Stands false t) (ht : t ≠ []) :
    s.finish (chompingFor t) = t := by
  cases h with
  | before hdone hlead hall =>
    have hkeep : chompingFor s.trail = .keep := by
      obtain ⟨a, as, has⟩ := List.exists_cons_of_ne_nil (List.reverse_ne_nil_iff.2 ht)
      have hbreaks : ∀ d ∈ a :: as, isBreak d = true := fun d hd =>
        hall d (List.mem_reverse.1 (has ▸ hd))
      rw [chompingFor, has]
      cases as with
      | nil => simp [hbreaks a]
      | cons b bs => simp [hbreaks a, hbreaks b]
    rw [hkeep]
    simp [BlockText.finish, hdone, hlead]
  | @between x b xs hdone hlast hlead hfirst hall =>
    by_cases htrail : s.trail = []
    · have hclip : chompingFor (s.done.reverse ++ b :: s.trail) = .clip := by
        simp [chompingFor, htrail, hdone, hfirst, hlast]
      rw [hclip]
      simp [BlockText.finish, hlead, htrail]
    · have hkeep : chompingFor (s.done.reverse ++ b :: s.trail) = .keep := by
        obtain ⟨a, as, has⟩ := List.exists_cons_of_ne_nil (List.reverse_ne_nil_iff.2 htrail)
        have hbreaks : ∀ d ∈ a :: as, isBreak d = true := fun d hd =>
          hall d (List.mem_reverse.1 (has ▸ hd))
        rw [chompingFor, List.reverse_append, List.reverse_cons, has]
        cases as with
        | nil => simp [hbreaks a, hfirst]
        | cons d ds => simp [hbreaks a, hbreaks d]
      rw [hkeep]
      simp [BlockText.finish, hlead]

/-- A block that is closed by the line break behind its last line leaves the text before that. -/
theorem Stands.finish_line {s : BlockText} {t : List Char} (h : s.Stands true t) (b : Char)
    (deepest : Nat) :
    BlockText.finish { s with lead := [b], trail := [], deepest } (chompingFor t) = t := by
  cases h with
  | inside hdone hlast hlead htrail =>
    have hstrip : chompingFor s.done.reverse = .strip := by simp [chompingFor, hdone, hlast]
    rw [hstrip]
    simp [BlockText.finish]

end BlockText

/-- The indentation of a line is passed over. -/
theorem blockFrom_indentation {s : BlockText} (cs : List Char) (n : Nat) (p : Position)
    (h : ∀ d ∈ s.depth, p.column + n ≤ d) :
    blockFrom false k least false s p (List.replicate n ' ' ++ cs) =
      blockFrom false k least false s ((List.replicate n ' ').foldl .after p) cs := by
  induction n generalizing p with
  | zero => rfl
  | succ n ih =>
    have hshallow : s.depth.all (fun d => decide (p.column < d)) = true := by
      rw [Option.all_eq_true]
      intro d hd
      have hle := h d hd
      simp only [decide_eq_true_eq]
      omega
    have hnext : ∀ d ∈ s.depth, (p.after ' ').column + n ≤ d := by
      intro d hd
      rw [Position.after_of_not_break isBreak_space]
      have hle := h d hd
      dsimp only
      omega
    rw [List.replicate_succ, List.cons_append, blockFrom.eq_3, hshallow, if_pos (by simp),
      List.foldl_cons, ih _ hnext]

/-- A line starts at the depth of the block, and the first one says what the depth is. -/
theorem blockFrom_startLine {s : BlockText} (hshown : isShown c = true) (hbreak : isBreak c = false)
    (hdepth : s.depth = some depth ∨
      (s.depth = none ∧ s.deepest ≤ depth ∧ least ≤ depth ∧ c ≠ ' '))
    (hcolumn : p.column = 0) (cs : List Char) :
    ∃ q, blockFrom false k least false s p (List.replicate depth ' ' ++ c :: cs) =
      blockFrom false k least true (s.startLine false depth c) q cs := by
  have hreached : ((List.replicate depth ' ').foldl .after p).column = depth := by
    rw [(foldl_after (fun c hc => by rw [List.eq_of_mem_replicate hc]; decide) p).2, hcolumn,
      List.length_replicate, Nat.zero_add]
  have hroom : ∀ d ∈ s.depth, p.column + depth ≤ d := by
    intro d hd
    rcases hdepth with h | ⟨h, -⟩
    · rw [h, Option.mem_some] at hd
      omega
    · rw [h] at hd
      cases hd
  have hstart : ¬ (c = ' ' ∧ s.depth.all (fun d => decide (depth < d)) = true) := by
    rintro ⟨hc, hall⟩
    rcases hdepth with h | ⟨-, -, -, hne⟩
    · simp [h] at hall
    · exact hne hc
  have hsettle : s.settle least depth = depth := by
    rcases hdepth with h | ⟨h, hdeepest, hleast, -⟩
    · simp [BlockText.settle, h]
    · simp only [BlockText.settle, h, Option.getD_none]
      omega
  refine ⟨((List.replicate depth ' ').foldl .after p).after c, ?_⟩
  rw [blockFrom_indentation (c :: cs) depth p hroom, blockFrom.eq_3, hreached,
    if_neg (by simpa using hstart), if_neg (by simp [ne_tab_of_isShown hshown]), hbreak,
    if_neg Bool.false_ne_true]
  simp only [hsettle, if_true]

/-- The lines of a text are read as the text. -/
theorem blockFrom_lines {s : BlockText} {inside : Bool} {t : List Char} (hs : s.Stands inside t)
    (hdepth : s.depth = some depth) (hcolumn : inside = false → p.column = 0)
    (hshown : ∀ c ∈ cs, isShown c = true) (tail : List Char) :
    ∃ s' inside' q, BlockText.Stands s' inside' (t ++ cs) ∧ s'.depth = some depth ∧
      (inside' = false → q.column = 0) ∧
      blockFrom false k least inside s p
          (indentLines (List.replicate depth ' ') (!inside) cs ++ tail) =
        blockFrom false k least inside' s' q tail := by
  induction cs generalizing s inside t p with
  | nil =>
    refine ⟨s, inside, p, ?_, hdepth, hcolumn, rfl⟩
    rwa [List.append_nil]
  | cons c cs ih =>
    have hrest := fun d hd => hshown d (List.mem_cons_of_mem c hd)
    have hc := hshown c (List.mem_cons_self ..)
    have htext : t ++ c :: cs = t ++ [c] ++ cs := by simp
    rw [htext]
    cases hbreak : isBreak c with
    | true =>
      have hstart : (p.after c).column = 0 := Position.column_after_break hbreak p
      cases inside with
      | true =>
        obtain ⟨s', inside', q, hs', hdepth', hcolumn', hread⟩ :=
          ih (hs.endLine hbreak) hdepth (fun _ => hstart) hrest
        refine ⟨s', inside', q, hs', hdepth', hcolumn', ?_⟩
        rw [← hread, indentLines, if_pos hbreak, List.cons_append, blockFrom.eq_2, if_pos hbreak]
        rfl
      | false =>
        obtain ⟨s', inside', q, hs', hdepth', hcolumn', hread⟩ :=
          ih (hs.trail hbreak _) hdepth (fun _ => hstart) hrest
        refine ⟨s', inside', q, hs', hdepth', hcolumn', ?_⟩
        have hspace : c ≠ ' ' := by
          rintro rfl
          exact absurd hbreak (by decide)
        rw [← hread, indentLines, if_pos hbreak, List.cons_append, blockFrom.eq_3,
          if_neg (by simp [hspace]), if_neg (by simp [ne_tab_of_isShown hc]), if_pos hbreak]
        rfl
    | false =>
      cases inside with
      | true =>
        obtain ⟨s', inside', q, hs', hdepth', hcolumn', hread⟩ :=
          ih (hs.more hbreak) hdepth (fun h => Bool.noConfusion h) hrest
        refine ⟨s', inside', q, hs', hdepth', hcolumn', ?_⟩
        rw [← hread, indentLines, hbreak, if_neg Bool.false_ne_true, Bool.not_true,
          if_neg Bool.false_ne_true, List.nil_append, List.cons_append, blockFrom.eq_2, hbreak,
          if_neg Bool.false_ne_true]
      | false =>
        obtain ⟨q₁, hline⟩ := blockFrom_startLine hc hbreak (Or.inl hdepth) (hcolumn rfl) _
        obtain ⟨s', inside', q, hs', hdepth', hcolumn', hread⟩ :=
          ih (hs.startLine hbreak depth) rfl (fun h => Bool.noConfusion h) hrest
        refine ⟨s', inside', q, hs', hdepth', hcolumn', ?_⟩
        rw [← hread, indentLines, hbreak, if_neg Bool.false_ne_true, Bool.not_false, if_pos rfl,
          List.append_assoc, List.cons_append, hline]
        rfl

/-- A block ends where nothing follows, or a line that is not deep enough. -/
theorem blockFrom_outside {s : BlockText} (k : Chomping) (least : Nat)
    (hdepth : s.depth = some depth) (hm : m < depth) (hcolumn : p.column = 0)
    (hrest : Follows m rest) :
    ∃ q, q.column = m ∧ blockFrom false k least false s p (List.replicate m ' ' ++ rest) =
      some (s.finish k, ⟨q, rest⟩) := by
  have hroom : ∀ d ∈ s.depth, p.column + m ≤ d := by
    intro d hd
    rw [hdepth, Option.mem_some] at hd
    omega
  have hreached : ((List.replicate m ' ').foldl .after p).column = m := by
    rw [(foldl_after (fun c hc => by rw [List.eq_of_mem_replicate hc]; decide) p).2, hcolumn,
      List.length_replicate, Nat.zero_add]
  refine ⟨_, hreached, ?_⟩
  rw [blockFrom_indentation rest m p hroom]
  cases hrest with
  | nothing => rw [blockFrom.eq_1]
  | @key _ c cs hword =>
    obtain ⟨hblank, hbreak⟩ := isGap_of_isKeyChar hword
    have hspace := ne_of_isKeyChar hword (d := ' ') (by decide)
    have htab := ne_of_isKeyChar hword (d := '\t') (by decide)
    have hsettle : s.settle least m = depth := by simp [BlockText.settle, hdepth]
    rw [blockFrom.eq_3, hreached, if_neg (by simp [hspace]), if_neg (by simp [htab]), hbreak,
      if_neg Bool.false_ne_true]
    simp only [hsettle, Nat.ne_of_lt hm, if_false]

/-- The mark of a chomping in a header. -/
def Chomping.mark : Chomping → List Char
  | strip => ['-']
  | clip => []
  | keep => ['+']

theorem literalHeader_eq (cs : List Char) :
    literalHeader cs = '|' :: (if cs.head?.any fun c => isSpace c || isBreak c then ['2'] else []) ++
      (BlockText.chompingFor cs).mark := by
  simp only [literalHeader, BlockText.chompingFor]
  cases cs.reverse with
  | nil => rfl
  | cons a as =>
    cases ha : isBreak a with
    | false => simp [ha, Chomping.mark]
    | true =>
      cases as with
      | nil => simp [ha, Chomping.mark]
      | cons b bs => cases hb : isBreak b <;> simp [ha, hb, Chomping.mark]

/-- A header says how the block is read. -/
theorem block_header (k : Chomping) (deep : Bool) (i : Nat) (p : Position) (cs : List Char) :
    ∃ q, q.column = 0 ∧
      block false (some i) ⟨p, '|' :: (if deep then ['2'] else []) ++ k.mark ++ '\n' :: cs⟩ =
        blockFrom false k (i + 1) false
          ⟨[], [], [], false, if deep then some (i + 2) else none, 0⟩ q cs := by
  cases k <;> cases deep <;>
    exact ⟨_, Position.column_after_break (c := '\n') (by decide) _, rfl⟩

/-- The lines of a text are read behind the header that is written for it. -/
theorem blockFrom_written (hshown : ∀ c ∈ cs, isShown c = true) (hne : cs ≠ [])
    (hcolumn : p.column = 0) (tail : List Char) :
    ∃ s inside q, BlockText.Stands s inside cs ∧ s.depth = some (i + 2) ∧
      (inside = false → q.column = 0) ∧
      blockFrom false k (i + 1) false
          ⟨[], [], [], false,
            if cs.head?.any fun c => isSpace c || isBreak c then some (i + 2) else none, 0⟩ p
          (indentLines (List.replicate (i + 2) ' ') true cs ++ tail) =
        blockFrom false k (i + 1) inside s q tail := by
  obtain ⟨c, cs, rfl⟩ := List.exists_cons_of_ne_nil hne
  by_cases hgap : (isSpace c || isBreak c) = true
  · have hdeep : (c :: cs).head?.any (fun c => isSpace c || isBreak c) = true := hgap
    rw [if_pos hdeep]
    exact blockFrom_lines
      (BlockText.Stands.before (s := ⟨[], [], [], false, some (i + 2), 0⟩) rfl rfl (by simp)) rfl
      (fun _ => hcolumn) hshown tail
  · simp only [Bool.or_eq_true, not_or, Bool.not_eq_true] at hgap
    obtain ⟨hspace, hbreak⟩ := hgap
    have hne : c ≠ ' ' := by
      rintro rfl
      exact absurd hspace (by decide)
    have hstart := BlockText.Stands.before (s := ⟨[], [], [], false, none, 0⟩) rfl rfl (by simp)
    obtain ⟨q₁, hline⟩ := blockFrom_startLine (k := k)
      (s := ⟨[], [], [], false, none, 0⟩) (hshown c (List.mem_cons_self ..)) hbreak
      (Or.inr ⟨rfl, Nat.zero_le (i + 2), Nat.le_succ (i + 1), hne⟩) hcolumn
      (indentLines (List.replicate (i + 2) ' ') false cs ++ tail)
    obtain ⟨s, inside, q, hs, hdepth, hq, hread⟩ :=
      blockFrom_lines (k := k) (p := q₁) (hstart.startLine hbreak (i + 2)) rfl
        (fun h => Bool.noConfusion h) (fun d hd => hshown d (List.mem_cons_of_mem c hd)) tail
    refine ⟨s, inside, q, hs, hdepth, hq, ?_⟩
    rw [← hread, indentLines, hbreak, if_neg Bool.false_ne_true, if_pos rfl, List.append_assoc,
      List.cons_append]
    simpa [hspace, hbreak] using hline

/-- A text that is written as a block is read back, and the lines after it up to what follows. -/
theorem block_literal (hshown : ∀ c ∈ cs, isShown c = true) (hne : cs ≠ []) (hm : m ≤ i)
    (hrest : Follows m rest) (p : Position) :
    ∃ q, q.column = m ∧
      block false (some i) ⟨p, writeLiteral (List.replicate (i + 2) ' ') cs ++
          ((if cs.getLast?.any isBreak then [] else ['\n']) ++ (List.replicate m ' ' ++ rest))⟩ =
        some (cs, ⟨q, rest⟩) := by
  obtain ⟨p₁, hp₁, hheader⟩ := block_header (BlockText.chompingFor cs)
    (cs.head?.any fun c => isSpace c || isBreak c) i p
    (indentLines (List.replicate (i + 2) ' ') true cs ++
      ((if cs.getLast?.any isBreak then [] else ['\n']) ++ (List.replicate m ' ' ++ rest)))
  rw [writeLiteral, literalHeader_eq, List.append_assoc, List.cons_append (a := '\n'), hheader]
  obtain ⟨s, inside, p₂, hs, hdepth, hp₂, hread⟩ :=
    blockFrom_written (k := BlockText.chompingFor cs) (i := i) hshown hne hp₁
      ((if cs.getLast?.any isBreak then [] else ['\n']) ++ (List.replicate m ' ' ++ rest))
  rw [hread, hs.last hne]
  have hroom : m < i + 2 := by omega
  cases inside with
  | false =>
    obtain ⟨q, hq, hend⟩ := blockFrom_outside (BlockText.chompingFor cs) (i + 1) hdepth hroom
      (hp₂ rfl) hrest
    refine ⟨q, hq, ?_⟩
    rw [Bool.not_false, if_pos rfl, List.nil_append, hend, hs.finish hne]
  | true =>
    have hclosed : BlockText.depth { s with lead := ['\n'], trail := [], deepest := 0 } =
      some (i + 2) := hdepth
    obtain ⟨q, hq, hend⟩ := blockFrom_outside (BlockText.chompingFor cs) (i + 1) hclosed hroom
      (Position.column_after_break (c := '\n') (by decide) p₂) hrest
    refine ⟨q, hq, ?_⟩
    rw [Bool.not_true, if_neg Bool.false_ne_true, List.singleton_append, blockFrom.eq_2,
      if_pos (by decide), hend, hs.finish_line]

end LockDiscipline.Yaml
