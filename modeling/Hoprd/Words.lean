import Hoprd.Text

/-!
# Lines and words (`str::lines`, `str::split_whitespace`)

* `lines_ended`, `lines_intercalate`: lines that are joined by newlines, or end in one each,
  are read back.
* `splitWhitespace_eq_iff`: the words of a line are what stands between its blanks
  (`Words`).
-/
namespace Hoprd.Text

/-! ## Lines -/

/-- One carriage return before the newline goes with it. -/
def stripCr (l : List Char) : List Char := if l.getLast? = some '\r' then l.dropLast else l

def linesOf : List (List Char) → List (List Char)
  | [] => []
  | [last] => if last.isEmpty then [] else [last]
  | l :: rest => stripCr l :: linesOf rest

/-- `str::lines`. -/
def lines (s : List Char) : List (List Char) := linesOf (s.splitOn '\n')

theorem stripCr_concat (l : List Char) : stripCr (l ++ ['\r']) = l := by
  unfold stripCr
  rw [List.getLast?_concat, if_pos rfl, List.dropLast_concat]

theorem stripCr_of_not {l : List Char} (h : l.getLast? ≠ some '\r') : stripCr l = l := if_neg h

theorem lines_append {l : List Char} (h : '\n' ∉ l) (s : List Char) :
    lines (l ++ '\n' :: s) = stripCr l :: lines s := by
  unfold lines
  rw [List.splitOn_append_cons_self_of_not_mem h]
  cases hs : s.splitOn '\n' with
  | nil => exact absurd hs (List.splitOn_ne_nil '\n' s)
  | cons a rest => rfl

/-- No newline, and no carriage return that would go with one. -/
structure NoBreak (s : List Char) : Prop where
  newline : '\n' ∉ s
  cr : s.getLast? ≠ some '\r'

theorem NoBreak.append {s t : List Char} (hs : NoBreak s) (ht : NoBreak t) : NoBreak (s ++ t) := by
  refine ⟨fun h => (List.mem_append.1 h).elim hs.newline ht.newline, fun h => ?_⟩
  rw [List.getLast?_append] at h
  cases hlast : t.getLast? with
  | none =>
    rw [hlast] at h
    exact hs.cr h
  | some c =>
    rw [hlast] at h
    exact ht.cr (hlast.trans h)

/-- A text that is a line as it is. -/
structure OneLine (l : List Char) : Prop extends NoBreak l where
  ne_nil : l ≠ []

theorem lines_ended {ls : List (List Char)} (h : ∀ l ∈ ls, OneLine l) :
    lines (ls.flatMap fun l => l ++ ['\n']) = ls := by
  induction ls with
  | nil => rfl
  | cons l ls ih =>
    have hl := h l List.mem_cons_self
    have htext : (l :: ls).flatMap (fun l => l ++ ['\n']) =
        l ++ '\n' :: ls.flatMap fun l => l ++ ['\n'] := by
      rw [List.flatMap_cons, List.append_assoc]
      rfl
    rw [htext, lines_append hl.newline, stripCr_of_not hl.cr,
      ih fun m hm => h m (List.mem_cons_of_mem _ hm)]

theorem lines_intercalate {ls : List (List Char)} (h : ∀ l ∈ ls, OneLine l) :
    lines (['\n'].intercalate ls) = ls := by
  induction ls with
  | nil => rfl
  | cons l ls ih =>
    have hl := h l List.mem_cons_self
    cases ls with
    | nil =>
      rw [List.intercalate_singleton]
      unfold lines
      rw [List.splitOn_eq_singleton hl.newline]
      exact if_neg (by simpa using hl.ne_nil)
    | cons m ls =>
      have hjoin : ['\n'].intercalate (l :: m :: ls) =
          l ++ '\n' :: ['\n'].intercalate (m :: ls) := by
        simp [List.intercalate_cons_cons]
      rw [hjoin, lines_append hl.newline, stripCr_of_not hl.cr,
        ih fun n hn => h n (List.mem_cons_of_mem _ hn)]

/-! ## Words -/

/-- `str::split_whitespace`. -/
def splitWhitespace (s : List Char) : List (List Char) :=
  (s.splitOnP isWhitespace).filter fun w => !w.isEmpty

def NoBlank (w : List Char) : Prop := ∀ c ∈ w, isWhitespace c = false

instance (w : List Char) : Decidable (NoBlank w) := List.decidableBAll _ w

theorem trim_noBlank {w : List Char} (h : NoBlank w) : trim w = w :=
  trim_of_trimmed ⟨fun c hc => h c (List.mem_of_mem_head? hc),
    fun c hc => h c (List.mem_of_mem_getLast? hc)⟩

/-- The words of a line, with the blanks around and between them. -/
inductive Words : List (List Char) → List Char → Prop
  | nil {s : List Char} (hs : Blank s) : Words [] s
  | last {pre w post : List Char} (hpre : Blank pre) (hne : w ≠ []) (hw : NoBlank w)
      (hpost : Blank post) : Words [w] (pre ++ w ++ post)
  | cons {ws : List (List Char)} {pre w rest : List Char} {c : Char} (hpre : Blank pre)
      (hne : w ≠ []) (hw : NoBlank w) (hc : isWhitespace c = true) (h : Words ws rest) :
      Words (w :: ws) (pre ++ w ++ c :: rest)

theorem splitWhitespace_cons_blank {c : Char} (hc : isWhitespace c = true) (s : List Char) :
    splitWhitespace (c :: s) = splitWhitespace s := by
  unfold splitWhitespace
  rw [List.splitOnP_cons_eq_if_modifyHead, if_pos hc]
  rfl

theorem splitWhitespace_blank_append {pre : List Char} (h : Blank pre) (s : List Char) :
    splitWhitespace (pre ++ s) = splitWhitespace s := by
  induction pre with
  | nil => rfl
  | cons c pre ih =>
    rw [List.cons_append, splitWhitespace_cons_blank (h c List.mem_cons_self)]
    exact ih fun d hd => h d (List.mem_cons_of_mem _ hd)

theorem splitWhitespace_blank {s : List Char} (h : Blank s) : splitWhitespace s = [] := by
  have happ := splitWhitespace_blank_append h []
  rw [List.append_nil] at happ
  exact happ

theorem splitWhitespace_word {w : List Char} (hne : w ≠ []) (hw : NoBlank w) :
    splitWhitespace w = [w] := by
  unfold splitWhitespace
  rw [List.splitOnP_eq_singleton hw]
  simp [hne]

theorem splitWhitespace_word_append {w : List Char} {c : Char} (hne : w ≠ []) (hw : NoBlank w)
    (hc : isWhitespace c = true) (s : List Char) :
    splitWhitespace (w ++ c :: s) = w :: splitWhitespace s := by
  unfold splitWhitespace
  rw [List.splitOnP_append_cons_of_forall_mem hw c hc]
  simp [hne]

theorem Words.splitWhitespace_eq {ws : List (List Char)} {s : List Char} (h : Words ws s) :
    splitWhitespace s = ws := by
  induction h with
  | nil hs => exact splitWhitespace_blank hs
  | @last pre w post hpre hne hw hpost =>
    rw [List.append_assoc, splitWhitespace_blank_append hpre]
    cases post with
    | nil => rw [List.append_nil, splitWhitespace_word hne hw]
    | cons c post =>
      have hrest : Blank post := fun d hd => hpost d (List.mem_cons_of_mem _ hd)
      rw [splitWhitespace_word_append hne hw (hpost c List.mem_cons_self),
        splitWhitespace_blank hrest]
  | cons hpre hne hw hc _ ih =>
    rw [List.append_assoc, splitWhitespace_blank_append hpre,
      splitWhitespace_word_append hne hw hc, ih]

theorem splitWhitespace_concat_blank {c : Char} (hc : isWhitespace c = true) (s : List Char) :
    splitWhitespace (s ++ [c]) = splitWhitespace s := by
  unfold splitWhitespace
  rw [List.splitOnP_append_cons s [] hc, List.filter_append]
  exact List.append_nil _

/-- Before the first word there are only blanks. -/
theorem Words.first {ws : List (List Char)} {w s : List Char} (h : Words (w :: ws) s) :
    w ≠ [] ∧ NoBlank w ∧ ∃ pre t, Blank pre ∧ s = pre ++ (w ++ t) := by
  cases h with
  | last hpre hne hw _ => exact ⟨hne, hw, _, _, hpre, List.append_assoc _ _ _⟩
  | cons hpre hne hw _ _ => exact ⟨hne, hw, _, _, hpre, List.append_assoc _ _ _⟩

theorem noBlank_takeWhile (s : List Char) : NoBlank (s.takeWhile fun c => !isWhitespace c) := by
  intro c hc
  simpa using List.mem_takeWhile_imp hc

/-- The first word of a text that starts with one may go on after it. -/
theorem exists_first_word {w : List Char} (hne : w ≠ []) (hw : NoBlank w) (t : List Char) :
    ∃ u ws, splitWhitespace (w ++ t) = (w ++ u) :: ws ∧ NoBlank u ∧ u <+: t := by
  have hsplit := List.takeWhile_append_dropWhile (p := fun c => !isWhitespace c) (l := t)
  have hu := noBlank_takeWhile t
  generalize t.takeWhile (fun c => !isWhitespace c) = u at hsplit hu
  have hwu : NoBlank (w ++ u) := fun c hc => (List.mem_append.1 hc).elim (hw c) (hu c)
  have hneu : w ++ u ≠ [] := by simp [hne]
  refine ⟨u, ?_⟩
  cases hrest : t.dropWhile (fun c => !isWhitespace c) with
  | nil =>
    rw [hrest, List.append_nil] at hsplit
    rw [← hsplit]
    exact ⟨[], splitWhitespace_word hneu hwu, hu, List.prefix_refl u⟩
  | cons c rest =>
    have hc : isWhitespace c = true := by
      have hhead := List.head?_dropWhile_not (fun c => !isWhitespace c) t
      rw [hrest] at hhead
      simpa using hhead
    rw [hrest] at hsplit
    rw [← hsplit, ← List.append_assoc]
    exact ⟨_, splitWhitespace_word_append hneu hwu hc rest, hu, List.prefix_append u _⟩

/-- Every line has its words. -/
theorem words_splitWhitespace (s : List Char) : Words (splitWhitespace s) s := by
  induction hn : s.length using Nat.strong_induction_on generalizing s with
  | _ n ih =>
  subst hn
  obtain ⟨pre, hpre, hs⟩ := exists_blank_dropWhile s
  cases ht : s.dropWhile isWhitespace with
  | nil =>
    rw [ht, List.append_nil] at hs
    subst hs
    rw [splitWhitespace_blank hpre]
    exact .nil hpre
  | cons a t =>
    have ha : isWhitespace a = false := head_dropWhile s a (by rw [ht]; rfl)
    -- the first word, and what comes after it
    have hsplit := (List.takeWhile_append_dropWhile (p := fun c => !isWhitespace c) (l := a :: t))
    have hw := noBlank_takeWhile (a :: t)
    have hne : (a :: t).takeWhile (fun c => !isWhitespace c) ≠ [] := by simp [ha]
    generalize (a :: t).takeWhile (fun c => !isWhitespace c) = w at hsplit hw hne
    cases hrest : (a :: t).dropWhile (fun c => !isWhitespace c) with
    | nil =>
      rw [hrest, List.append_nil] at hsplit
      have hwords : Words [w] s := by
        rw [hs, ht, ← hsplit, ← List.append_nil (pre ++ w)]
        exact .last hpre hne hw blank_nil
      rw [hwords.splitWhitespace_eq]
      exact hwords
    | cons c rest =>
      have hc : isWhitespace c = true := by
        have hhead := List.head?_dropWhile_not (fun c => !isWhitespace c) (a :: t)
        rw [hrest] at hhead
        simpa using hhead
      rw [hrest] at hsplit
      have hlen : rest.length < s.length := by
        rw [hs, ht, ← hsplit]
        simp only [List.length_append, List.length_cons]
        omega
      have hwords : Words (w :: splitWhitespace rest) s := by
        rw [hs, ht, ← hsplit, ← List.append_assoc]
        exact .cons hpre hne hw hc (ih _ hlen rest rfl)
      rw [hwords.splitWhitespace_eq]
      exact hwords

theorem splitWhitespace_eq_iff {ws : List (List Char)} {s : List Char} :
    splitWhitespace s = ws ↔ Words ws s :=
  ⟨fun h => h ▸ words_splitWhitespace s, Words.splitWhitespace_eq⟩

end Hoprd.Text
