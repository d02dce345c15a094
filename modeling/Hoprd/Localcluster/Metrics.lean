import Hoprd.Core.Split
import Hoprd.Words
import Mathlib.Algebra.GroupWithZero.Nat

/-!
# Metrics snapshots (`localcluster/src/client_helper.rs`)

`MetricsSnapshot::parse` reads a scrape in the text exposition format: a sample a line,
its series, its value and perhaps a timestamp. `split_labels` walks over a label block with
a flag for quotes and one for escapes; `sum_where` adds up the samples of a name with a
given pair.

* `splitLabels_block`: a block of escaped pairs is split into exactly these.
* `stripTotalSuffixes_eq_iff`: names are compared up to trailing `_total` segments.
* `reads_iff`: a scrape is read back, sample by sample and sum by sum, exactly if no comment
  is misread. A comment is a line whose first character after blanks is `#`; only one that
  starts with it is skipped as such, an indented one whose second word is a number is a
  sample.
* `indented_comment_is_sample`: ` # 5`.

The value of a sample is whatever `parse` makes of its text.
-/
namespace Hoprd.Localcluster.Metrics

open Core (splitOnce splitOnce_append splitOnce_of_notMem)
open Text

/-! ## Labels -/

/-- The flags of `split_labels`, the text from `start` on, and the pairs so far. -/
structure Splitter where
  inQuotes : Bool
  escaped : Bool
  cur : List Char
  pairs : List (List Char)

/-- mirrors localcluster/src/client_helper.rs:145-156 -/
def Splitter.step (s : Splitter) (c : Char) : Splitter :=
  if s.escaped then { s with escaped := false, cur := s.cur ++ [c] }
  else if c = '\\' ∧ s.inQuotes then { s with escaped := true, cur := s.cur ++ [c] }
  else if c = '"' then { s with inQuotes := !s.inQuotes, cur := s.cur ++ [c] }
  else if c = ',' ∧ !s.inQuotes then { s with pairs := s.pairs ++ [trim s.cur], cur := [] }
  else { s with cur := s.cur ++ [c] }

def Splitter.run (s : Splitter) (text : List Char) : Splitter := text.foldl Splitter.step s

/-- `str::trim_start_matches` for one character. -/
def trimStartMatches (c : Char) (s : List Char) : List Char := s.dropWhile (· == c)

/-- `str::trim_end_matches` for one character. -/
def trimEndMatches (c : Char) (s : List Char) : List Char := (s.reverse.dropWhile (· == c)).reverse

/-- mirrors localcluster/src/client_helper.rs:139-160 -/
def splitLabels (labels : List Char) : List (List Char) :=
  let inner := trimEndMatches '}' (trimStartMatches '{' (trim labels))
  let s := (Splitter.mk false false [] []).run inner
  (s.pairs ++ [trim s.cur]).filter fun pair => !pair.isEmpty

/-- mirrors localcluster/src/client_helper.rs:134-136 -/
def hasLabel (labels filter : List Char) : Bool :=
  filter.isEmpty || (splitLabels labels).contains filter

/-! ### Blocks -/

/-- How the format writes a label value. -/
def escape (value : List Char) : List Char :=
  value.flatMap fun c =>
    if c = '\\' then ['\\', '\\']
    else if c = '"' then ['\\', '"']
    else if c = '\n' then ['\\', 'n']
    else [c]

/-- A label, its text free of blanks; a value may hold commas, braces, quotes and
backslashes. -/
structure Label where
  key : List Char
  value : List Char
  key_ok : ∀ c ∈ key, isWhitespace c = false ∧ c ≠ '"' ∧ c ≠ ',' ∧ c ≠ '{'
  value_ok : NoBlank (escape value)

/-- `key="value"` -/
def Label.pair (l : Label) : List Char := l.key ++ '=' :: '"' :: (escape l.value ++ ['"'])

def block (labels : List Label) : List Char :=
  if labels.isEmpty then [] else '{' :: ([','].intercalate (labels.map Label.pair) ++ ['}'])

section
variable {s : Splitter}

theorem run_append (s : Splitter) (a b : List Char) : s.run (a ++ b) = (s.run a).run b :=
  List.foldl_append

theorem run_cons (s : Splitter) (c : Char) (text : List Char) :
    s.run (c :: text) = (s.step c).run text := rfl

/-- Outside of quotes, text without quotes and commas is taken as it is. -/
theorem run_plain {text : List Char} (h : ∀ c ∈ text, c ≠ '"' ∧ c ≠ ',') (cur : List Char)
    (pairs : List (List Char)) :
    (Splitter.mk false false cur pairs).run text = ⟨false, false, cur ++ text, pairs⟩ := by
  induction text generalizing cur with
  | nil => rw [List.append_nil]; rfl
  | cons c text ih =>
    obtain ⟨hq, hc⟩ := h c List.mem_cons_self
    have hstep : (Splitter.mk false false cur pairs).step c =
        ⟨false, false, cur ++ [c], pairs⟩ := by
      simp [Splitter.step, hq, hc]
    rw [run_cons, hstep, ih fun d hd => h d (List.mem_cons_of_mem _ hd), List.append_assoc]
    rfl

/-- Inside of quotes, an escaped value is taken as it is. -/
theorem run_escape (value cur : List Char) (pairs : List (List Char)) :
    (Splitter.mk true false cur pairs).run (escape value) =
      ⟨true, false, cur ++ escape value, pairs⟩ := by
  induction value generalizing cur with
  | nil => simp [escape, Splitter.run]
  | cons c value ih =>
    have hcons : escape (c :: value) = escape [c] ++ escape value := by simp [escape]
    have hone : (Splitter.mk true false cur pairs).run (escape [c]) =
        ⟨true, false, cur ++ escape [c], pairs⟩ := by
      by_cases hb : c = '\\'
      · subst hb; simp [escape, Splitter.run, Splitter.step]
      by_cases hq : c = '"'
      · subst hq; simp [escape, Splitter.run, Splitter.step]
      by_cases hn : c = '\n'
      · subst hn; simp [escape, Splitter.run, Splitter.step]
      simp [escape, Splitter.run, Splitter.step, hb, hq, hn]
    rw [hcons, run_append, hone, ih, List.append_assoc]

theorem run_pair (l : Label) (cur : List Char) (pairs : List (List Char)) :
    (Splitter.mk false false cur pairs).run l.pair = ⟨false, false, cur ++ l.pair, pairs⟩ := by
  have hkey : ∀ c ∈ l.key, c ≠ '"' ∧ c ≠ ',' := by
    intro c hc
    obtain ⟨-, hq, hcomma, -⟩ := l.key_ok c hc
    exact ⟨hq, hcomma⟩
  have hopen : ∀ t, (Splitter.mk false false t pairs).run ['=', '"'] =
      ⟨true, false, t ++ ['=', '"'], pairs⟩ := by
    intro t
    simp [Splitter.run, Splitter.step]
  have hclose : ∀ t, (Splitter.mk true false t pairs).run ['"'] =
      ⟨false, false, t ++ ['"'], pairs⟩ := fun t => rfl
  have hpair : l.pair = l.key ++ (['=', '"'] ++ (escape l.value ++ ['"'])) := rfl
  rw [hpair, run_append, run_plain hkey, run_append, hopen, run_append, run_escape, hclose]
  simp

/-! ### A block is split into its pairs -/

theorem Label.noBlank_pair (l : Label) : NoBlank l.pair := by
  intro c hc
  simp only [Label.pair, List.mem_append, List.mem_cons, List.not_mem_nil, or_false] at hc
  rcases hc with hc | rfl | rfl | hc | rfl
  · exact (l.key_ok c hc).1
  · decide
  · decide
  · exact l.value_ok c hc
  · decide

/-- Pairs with commas between them: all but the last are split off, the last is what is
left. -/
theorem run_pairs (l : Label) (ls : List Label) (pairs : List (List Char)) :
    let s := (Splitter.mk false false [] pairs).run ([','].intercalate ((l :: ls).map Label.pair))
    s.pairs ++ [trim s.cur] = pairs ++ (l :: ls).map Label.pair := by
  induction ls generalizing l pairs with
  | nil =>
    simp only [List.map_cons, List.map_nil, List.intercalate_singleton]
    rw [run_pair, List.nil_append, trim_noBlank l.noBlank_pair]
  | cons m ls ih =>
    have hstep : (Splitter.mk false false l.pair pairs).step ',' =
        ⟨false, false, [], pairs ++ [l.pair]⟩ := by
      simp [Splitter.step, trim_noBlank l.noBlank_pair]
    have hjoin : [','].intercalate ((l :: m :: ls).map Label.pair) =
        l.pair ++ ',' :: [','].intercalate ((m :: ls).map Label.pair) := by
      simp [List.intercalate_cons_cons]
    rw [hjoin, run_append, run_pair, List.nil_append, run_cons, hstep]
    have hrest := ih m (pairs ++ [l.pair])
    rw [List.append_assoc] at hrest
    exact hrest

theorem Label.pair_ends (l : Label) :
    (∃ c t, l.pair = c :: t ∧ c ≠ '{') ∧ ∃ t, l.pair = t ++ ['"'] := by
  constructor
  · unfold Label.pair
    cases hk : l.key with
    | nil => exact ⟨'=', _, rfl, by decide⟩
    | cons c t =>
      have hc := l.key_ok c (hk ▸ List.mem_cons_self)
      exact ⟨c, _, rfl, hc.2.2.2⟩
  · exact ⟨l.key ++ '=' :: '"' :: escape l.value, by simp [Label.pair]⟩

theorem intercalate_ends (l : Label) (ls : List Label) :
    (∃ c t, [','].intercalate ((l :: ls).map Label.pair) = c :: t ∧ c ≠ '{') ∧
      ∃ t, [','].intercalate ((l :: ls).map Label.pair) = t ++ ['"'] := by
  constructor
  · obtain ⟨c, t, hp, hc⟩ := l.pair_ends.1
    cases ls with
    | nil => exact ⟨c, t, by simp [hp], hc⟩
    | cons m ls =>
      refine ⟨c, t ++ [','] ++ [','].intercalate ((m :: ls).map Label.pair), ?_, hc⟩
      rw [List.map_cons, List.map_cons, List.intercalate_cons_cons, hp]
      rfl
  · induction ls generalizing l with
    | nil =>
      obtain ⟨t, ht⟩ := l.pair_ends.2
      exact ⟨t, by simp [ht]⟩
    | cons m ls ih =>
      obtain ⟨t, ht⟩ := ih m
      refine ⟨l.pair ++ ',' :: t, ?_⟩
      rw [List.map_cons, List.map_cons, List.intercalate_cons_cons, ← List.map_cons, ht]
      simp

theorem trimStartMatches_cons {c : Char} {t : List Char} (h : ∃ d u, t = d :: u ∧ d ≠ c) :
    trimStartMatches c (c :: t) = t := by
  obtain ⟨d, u, rfl, hd⟩ := h
  simp [trimStartMatches, hd]

theorem trimEndMatches_concat {c : Char} {t : List Char} (h : ∃ d u, t = u ++ [d] ∧ d ≠ c) :
    trimEndMatches c (t ++ [c]) = t := by
  obtain ⟨d, u, rfl, hd⟩ := h
  simp [trimEndMatches, hd]

theorem noBlank_intercalate (ls : List Label) :
    NoBlank ([','].intercalate (ls.map Label.pair)) := by
  induction ls with
  | nil => nofun
  | cons l ls ih =>
    cases ls with
    | nil => simpa using l.noBlank_pair
    | cons m ls =>
      rw [List.map_cons, List.map_cons, List.intercalate_cons_cons, ← List.map_cons]
      intro c hc
      simp only [List.mem_append, List.mem_singleton] at hc
      rcases hc with (hc | rfl) | hc
      · exact l.noBlank_pair c hc
      · decide
      · exact ih c hc

theorem noBlank_block (ls : List Label) : NoBlank (block ls) := by
  unfold block
  split
  · nofun
  · intro c hc
    simp only [List.mem_cons, List.mem_append, List.not_mem_nil, or_false] at hc
    rcases hc with rfl | hc | rfl
    · decide
    · exact noBlank_intercalate ls c hc
    · decide

/-- **A label block is split into exactly its pairs.** -/
theorem splitLabels_block (ls : List Label) : splitLabels (block ls) = ls.map Label.pair := by
  cases ls with
  | nil => rfl
  | cons l ls =>
    have htrim := trim_noBlank (noBlank_block (l :: ls))
    obtain ⟨hstart, t, ht⟩ := intercalate_ends l ls
    have hblock : block (l :: ls) =
        '{' :: ([','].intercalate ((l :: ls).map Label.pair) ++ ['}']) := rfl
    have hinner : trimEndMatches '}' (trimStartMatches '{' (trim (block (l :: ls)))) =
        [','].intercalate ((l :: ls).map Label.pair) := by
      rw [htrim, hblock, trimStartMatches_cons, trimEndMatches_concat ⟨'"', t, ht, by decide⟩]
      obtain ⟨c, u, hc, hne⟩ := hstart
      exact ⟨c, _, by rw [hc]; rfl, hne⟩
    have hrun := run_pairs l ls []
    unfold splitLabels
    rw [hinner]
    dsimp only at hrun ⊢
    rw [hrun, List.nil_append, List.filter_eq_self]
    intro p hp
    obtain ⟨m, -, rfl⟩ := List.mem_map.1 hp
    simp [Label.pair]

end

/-! ## Names -/

def TOTAL : List Char := "_total".toList

/-- mirrors localcluster/src/client_helper.rs:117-123 -/
def stripTotalSuffixes (name : List Char) : List Char :=
  if h : TOTAL <:+ name then stripTotalSuffixes (name.take (name.length - 6)) else name
termination_by name.length
decreasing_by
  have hle := h.length_le
  have hlen : TOTAL.length = 6 := rfl
  rw [List.length_take]
  omega

/-- The same name up to trailing `_total` segments. -/
def SameSeries (a b : List Char) : Prop :=
  ∃ base m n, a = base ++ (List.replicate m TOTAL).flatten ∧
    b = base ++ (List.replicate n TOTAL).flatten

theorem take_append_total (name : List Char) :
    (name ++ TOTAL).take ((name ++ TOTAL).length - 6) = name := by
  have hlen : (name ++ TOTAL).length - 6 = name.length := by
    rw [List.length_append]
    exact Nat.add_sub_cancel name.length 6
  rw [hlen, List.take_left]

theorem stripTotalSuffixes_append (name : List Char) :
    stripTotalSuffixes (name ++ TOTAL) = stripTotalSuffixes name := by
  rw [stripTotalSuffixes, dif_pos (List.suffix_append name TOTAL), take_append_total]

theorem stripTotalSuffixes_append_replicate (name : List Char) (n : Nat) :
    stripTotalSuffixes (name ++ (List.replicate n TOTAL).flatten) = stripTotalSuffixes name := by
  induction n with
  | zero => rw [List.replicate_zero, List.flatten_nil, List.append_nil]
  | succ n ih =>
    rw [List.replicate_succ', List.flatten_append, List.flatten_singleton, ← List.append_assoc,
      stripTotalSuffixes_append, ih]

theorem exists_stripTotalSuffixes (name : List Char) :
    ∃ n, name = stripTotalSuffixes name ++ (List.replicate n TOTAL).flatten := by
  induction name using stripTotalSuffixes.induct with
  | case1 name h ih =>
    obtain ⟨n, hn⟩ := ih
    refine ⟨n + 1, ?_⟩
    rw [stripTotalSuffixes, dif_pos h, List.replicate_succ', List.flatten_append,
      List.flatten_singleton, ← List.append_assoc, ← hn]
    obtain ⟨t, rfl⟩ := h
    rw [take_append_total]
  | case2 name h => exact ⟨0, by rw [stripTotalSuffixes, dif_neg h]; simp⟩

theorem stripTotalSuffixes_eq_iff (a b : List Char) :
    stripTotalSuffixes a = stripTotalSuffixes b ↔ SameSeries a b := by
  constructor
  · intro h
    obtain ⟨m, hm⟩ := exists_stripTotalSuffixes a
    obtain ⟨n, hn⟩ := exists_stripTotalSuffixes b
    exact ⟨stripTotalSuffixes b, m, n, h ▸ hm, hn⟩
  · rintro ⟨base, m, n, rfl, rfl⟩
    rw [stripTotalSuffixes_append_replicate, stripTotalSuffixes_append_replicate]

instance (a b : List Char) : Decidable (SameSeries a b) :=
  decidable_of_iff _ (stripTotalSuffixes_eq_iff a b)

/-! ## Snapshots -/

variable {V : Type}

/-- One line that is neither blank nor starts with `#`.
mirrors localcluster/src/client_helper.rs:80-91 -/
def readSample (parse : List Char → Option V) (line : List Char) :
    Option (List Char × List Char × V) :=
  match splitWhitespace line with
  | series :: value :: _ =>
    (parse value).map fun v =>
      match splitOnce '{' series with
      | some (name, rest) => (name, '{' :: rest, v)
      | none => (series, [], v)
  | _ => none

def isSkipped (line : List Char) : Bool := line.head? == some '#' || (trim line).isEmpty

/-- The samples of a `MetricsSnapshot`.
mirrors localcluster/src/client_helper.rs:76-95 -/
def parseSnapshot (parse : List Char → Option V) (body : List Char) :
    List (List Char × List Char × V) :=
  ((lines body).filter fun line => !isSkipped line).filterMap (readSample parse)

/-- mirrors localcluster/src/client_helper.rs:102-117 -/
def sumWhere [Zero V] [Add V] (samples : List (List Char × List Char × V))
    (name labelFilter : List Char) : V :=
  let wanted := stripTotalSuffixes name
  ((samples.filter fun s =>
    stripTotalSuffixes s.1 == wanted && hasLabel s.2.1 labelFilter).map fun s => s.2.2).foldl
      (· + ·) 0

/-! ### Scrapes -/

/-- A sample, its name free of blanks. -/
structure Sample (V : Type) where
  name : List Char
  labels : List Label
  value : V
  name_ne : name ≠ []
  name_ok : ∀ c ∈ name, isWhitespace c = false ∧ c ≠ '{'
  name_head : name.head? ≠ some '#'

def Sample.series (s : Sample V) : List Char := s.name ++ block s.labels

/-- Any line with the words of a sample: its series, its value and perhaps a timestamp. -/
structure SampleLine (parse : List Char → Option V) where
  sample : Sample V
  value : List Char
  timestamp : Option (List Char)
  text : List Char
  value_ok : parse value = some sample.value
  words : Words (sample.series :: value :: timestamp.toList) text
  newline : '\n' ∉ text

/-- The lines of a scrape. A comment is a line whose first character after blanks is `#`. -/
inductive Line (parse : List Char → Option V) where
  | sample (l : SampleLine parse)
  | comment (pre rest : List Char) (hpre : Blank pre) (newline : '\n' ∉ pre ++ '#' :: rest)
  | blank (text : List Char) (htext : Blank text) (newline : '\n' ∉ text)

def Line.text {parse : List Char → Option V} : Line parse → List Char
  | .sample l => l.text
  | .comment pre rest _ _ => pre ++ '#' :: rest
  | .blank text _ _ => text

def Line.sample? {parse : List Char → Option V} : Line parse → Option (Sample V)
  | .sample l => some l.sample
  | .comment .. | .blank .. => none

def render {parse : List Char → Option V} (doc : List (Line parse)) : List Char :=
  ['\n'].intercalate (doc.map Line.text)

def samples {parse : List Char → Option V} (doc : List (Line parse)) : List (Sample V) :=
  doc.filterMap Line.sample?

/-- A comment that does not start its line, with a number for its second word. -/
def Line.Misread {parse : List Char → Option V} : Line parse → Prop
  | .comment pre rest _ _ => pre ≠ [] ∧
      ∃ w v ws, splitWhitespace (pre ++ '#' :: rest) = w :: v :: ws ∧ (parse v).isSome
  | .sample _ | .blank .. => False

/-! ### Line by line -/

section
variable {parse : List Char → Option V}

/-- What a line gives. -/
def readLine (parse : List Char → Option V) (line : List Char) :
    Option (List Char × List Char × V) :=
  if isSkipped line then none else readSample parse line

theorem parseSnapshot_eq (body : List Char) :
    parseSnapshot parse body = (lines body).filterMap (readLine parse) := by
  unfold parseSnapshot
  rw [List.filterMap_filter]
  congr 1
  funext line
  unfold readLine
  cases isSkipped line <;> rfl

theorem isSkipped_iff {line : List Char} :
    isSkipped line = true ↔ line.head? = some '#' ∨ Blank line := by
  unfold isSkipped
  rw [Bool.or_eq_true, beq_iff_eq, List.isEmpty_iff, trim_eq_nil_iff]

theorem readLine_blank {line : List Char} (h : Blank line) : readLine parse line = none :=
  if_pos (isSkipped_iff.2 (.inr h))

/-- A carriage return at the end of a line makes no difference. -/
theorem readLine_concat_cr (line : List Char) :
    readLine parse (line ++ ['\r']) = readLine parse line := by
  have hskip : isSkipped (line ++ ['\r']) = isSkipped line := by
    rw [Bool.eq_iff_iff, isSkipped_iff, isSkipped_iff, blank_append]
    cases line with
    | nil => simp [Blank, isWhitespace]
    | cons c line => simp [Blank, isWhitespace]
  have hwords : splitWhitespace (line ++ ['\r']) = splitWhitespace line :=
    splitWhitespace_concat_blank (by decide) line
  unfold readLine readSample
  rw [hskip, hwords]

theorem readLine_stripCr (line : List Char) :
    readLine parse (stripCr line) = readLine parse line := by
  by_cases h : line.getLast? = some '\r'
  · obtain ⟨l, rfl⟩ := List.getLast?_eq_some_iff.1 h
    rw [stripCr_concat, readLine_concat_cr]
  · rw [stripCr_of_not h]

theorem filterMap_linesOf (ls : List (List Char)) :
    (linesOf ls).filterMap (readLine parse) = ls.filterMap (readLine parse) := by
  induction ls with
  | nil => rfl
  | cons l rest ih =>
    cases rest with
    | nil =>
      cases l with
      | nil => rw [List.filterMap_cons_none (readLine_blank blank_nil)]; rfl
      | cons c l => rfl
    | cons m rest =>
      have hcons : linesOf (l :: m :: rest) = stripCr l :: linesOf (m :: rest) := rfl
      rw [hcons, List.filterMap_cons, List.filterMap_cons, readLine_stripCr, ih]

theorem Line.newline_notMem (l : Line parse) : '\n' ∉ l.text := by
  cases l with
  | sample l => exact l.newline
  | comment pre rest hpre h => exact h
  | blank text htext h => exact h

theorem parse_render (doc : List (Line parse)) :
    parseSnapshot parse (render doc) = doc.filterMap fun l => readLine parse l.text := by
  rw [parseSnapshot_eq]
  cases doc with
  | nil => rfl
  | cons l doc =>
    have hsplit : (render (l :: doc)).splitOn '\n' = (l :: doc).map Line.text := by
      refine List.splitOn_intercalate '\n' ?_ (by simp)
      intro t ht
      obtain ⟨m, -, rfl⟩ := List.mem_map.1 ht
      exact m.newline_notMem
    unfold lines
    rw [hsplit, filterMap_linesOf, List.filterMap_map]
    rfl

/-! ### Each kind of line -/

theorem not_blank_hash {s : List Char} : ¬Blank ('#' :: s) :=
  fun h => absurd (h '#' List.mem_cons_self) (by decide)

theorem SampleLine.not_skipped (l : SampleLine parse) : isSkipped l.text = false := by
  obtain ⟨hne, hw, pre, t, hpre, ht⟩ := l.words.first
  rw [Bool.eq_false_iff]
  intro h
  rcases isSkipped_iff.1 h with hhead | hblank
  · rw [ht] at hhead
    cases pre with
    | nil =>
      obtain ⟨c, name, hname⟩ := List.exists_cons_of_ne_nil l.sample.name_ne
      have hok := l.sample.name_head
      rw [Sample.series, hname] at hhead
      rw [hname] at hok
      exact hok hhead
    | cons c pre =>
      cases Option.some.inj hhead
      exact not_blank_hash hpre
  · have hnone := splitWhitespace_blank hblank
    rw [l.words.splitWhitespace_eq] at hnone
    cases hnone

/-- The name and the label block are told apart by the first brace. -/
theorem Sample.split_series (s : Sample V) :
    (match splitOnce '{' s.series with
      | some (name, rest) => (name, '{' :: rest, s.value)
      | none => (s.series, [], s.value)) = (s.name, block s.labels, s.value) := by
  have hname : '{' ∉ s.name := fun h => (s.name_ok '{' h).2 rfl
  unfold Sample.series block
  by_cases hl : s.labels.isEmpty
  · rw [if_pos hl, List.append_nil, splitOnce_of_notMem hname]
  · rw [if_neg hl, splitOnce_append hname]

theorem SampleLine.readLine_eq (l : SampleLine parse) :
    readLine parse l.text = some (l.sample.name, block l.sample.labels, l.sample.value) := by
  unfold readLine readSample
  rw [l.not_skipped, l.words.splitWhitespace_eq]
  simp only [Bool.false_eq_true, if_false, l.value_ok, Option.map_some, l.sample.split_series]

/-- The first word of a comment starts with `#`. -/
theorem comment_first {pre rest w : List Char} {ws : List (List Char)} (hpre : Blank pre)
    (h : splitWhitespace (pre ++ '#' :: rest) = w :: ws) : ∃ t, w = '#' :: t := by
  rw [splitWhitespace_blank_append hpre] at h
  obtain ⟨hne, -, pre', t, hpre', ht⟩ := (splitWhitespace_eq_iff.1 h).first
  cases pre' with
  | nil =>
    obtain ⟨c, u, rfl⟩ := List.exists_cons_of_ne_nil hne
    cases ht
    exact ⟨u, rfl⟩
  | cons c pre' =>
    cases ht
    cases not_blank_hash hpre'

/-- A comment gives a sample exactly if it is misread, and its name starts with `#`. -/
theorem readLine_comment {pre rest : List Char} {hpre : Blank pre}
    {hnl : '\n' ∉ pre ++ '#' :: rest} :
    ((Line.comment pre rest hpre hnl : Line parse).Misread →
      ∃ s, readLine parse (pre ++ '#' :: rest) = some s ∧ s.1.head? = some '#') ∧
    (¬(Line.comment pre rest hpre hnl : Line parse).Misread →
      readLine parse (pre ++ '#' :: rest) = none) := by
  have hskip : isSkipped (pre ++ '#' :: rest) = true ↔ pre = [] := by
    have hhash : ¬Blank (pre ++ '#' :: rest) := fun hb => not_blank_hash (blank_append.1 hb).2
    rw [isSkipped_iff, or_iff_left hhash]
    cases pre with
    | nil => simp
    | cons c pre =>
      refine ⟨fun h => ?_, nofun⟩
      cases Option.some.inj h
      cases not_blank_hash hpre
  unfold readLine readSample
  constructor
  · rintro ⟨hne, w, v, ws, hws, hv⟩
    obtain ⟨x, hx⟩ := Option.isSome_iff_exists.1 hv
    obtain ⟨t, rfl⟩ := comment_first hpre hws
    rw [if_neg (mt hskip.1 hne), hws]
    simp only [hx, Option.map_some]
    refine ⟨_, rfl, ?_⟩
    cases hsplit : splitOnce '{' ('#' :: t) with
    | none => rfl
    | some p =>
      obtain ⟨name, rest'⟩ := p
      obtain ⟨he, -⟩ := Core.splitOnce_eq_some_iff.1 hsplit
      cases name with
      | nil => cases he
      | cons c name => cases he; rfl
  · intro hnot
    by_cases hne : pre = []
    · exact if_pos (hskip.2 hne)
    · rw [if_neg (mt hskip.1 hne)]
      match hws : splitWhitespace (pre ++ '#' :: rest) with
      | [] | [_] => rfl
      | w :: v :: ws =>
        cases hv : parse v with
        | none => simp [hv]
        | some x => exact absurd ⟨hne, w, v, ws, hws, by rw [hv]; rfl⟩ hnot

end

/-! ## Reading back -/

def Sample.entry (s : Sample V) : List Char × List Char × V := (s.name, block s.labels, s.value)

/-- The sample has the name up to `_total` segments and carries the pair, if there is one. -/
def Sample.Matches (name pair : List Char) (s : Sample V) : Prop :=
  SameSeries s.name name ∧ (pair = [] ∨ pair ∈ s.labels.map Label.pair)

instance (name pair : List Char) (s : Sample V) : Decidable (s.Matches name pair) :=
  inferInstanceAs (Decidable (_ ∧ _))

/-- The snapshot has the samples of the scrape in order, their blocks are split into their
pairs, and the sums are those of the samples that match. -/
structure Reads [Zero V] [Add V] (parse : List Char → Option V) (doc : List (Line parse)) :
    Prop where
  samples : parseSnapshot parse (render doc) = (samples doc).map Sample.entry
  labels : ∀ s ∈ Metrics.samples doc, splitLabels (block s.labels) = s.labels.map Label.pair
  sums : ∀ name pair, sumWhere (parseSnapshot parse (render doc)) name pair =
    (((Metrics.samples doc).filter fun s => s.Matches name pair).map Sample.value).foldl (· + ·) 0

section
variable {parse : List Char → Option V}

theorem hasLabel_block (ls : List Label) (pair : List Char) :
    hasLabel (block ls) pair = true ↔ pair = [] ∨ pair ∈ ls.map Label.pair := by
  unfold hasLabel
  rw [splitLabels_block, Bool.or_eq_true, List.isEmpty_iff, List.contains_iff_mem]

theorem sumWhere_entries [Zero V] [Add V] (ss : List (Sample V)) (name pair : List Char) :
    sumWhere (ss.map Sample.entry) name pair =
      ((ss.filter fun s => s.Matches name pair).map Sample.value).foldl (· + ·) 0 := by
  have hmatch : ∀ s : Sample V, (stripTotalSuffixes s.entry.1 == stripTotalSuffixes name &&
      hasLabel s.entry.2.1 pair) = decide (s.Matches name pair) := by
    intro s
    rw [Bool.eq_iff_iff, Bool.and_eq_true, beq_iff_eq, decide_eq_true_iff]
    exact and_congr (stripTotalSuffixes_eq_iff s.name name) (hasLabel_block s.labels pair)
  unfold sumWhere
  dsimp only
  rw [List.filter_map, List.map_map]
  simp only [Function.comp_def, hmatch]
  rfl

theorem parse_of_none_misread {doc : List (Line parse)} (h : ∀ l ∈ doc, ¬l.Misread) :
    parseSnapshot parse (render doc) = (samples doc).map Sample.entry := by
  rw [parse_render]
  unfold samples
  rw [List.map_filterMap]
  refine List.filterMap_congr fun l hl => ?_
  cases l with
  | sample l => exact l.readLine_eq
  | comment pre rest hpre hnl => exact readLine_comment.2 (h _ hl)
  | blank text htext _ => exact readLine_blank htext

end

/-- **A scrape is read back exactly if no comment is misread.** -/
theorem reads_iff [Zero V] [Add V] (parse : List Char → Option V) (doc : List (Line parse)) :
    Reads parse doc ↔ ∀ l ∈ doc, ¬l.Misread := by
  constructor
  · intro h l hl hmis
    cases l with
    | sample l => exact hmis
    | blank text htext hnl => exact hmis
    | comment pre rest hpre hnl =>
      -- what the comment gives is named with a `#`, which no sample is
      obtain ⟨e, he, hhash⟩ := readLine_comment.1 hmis
      have hin : e ∈ parseSnapshot parse (render doc) := by
        rw [parse_render]
        exact List.mem_filterMap.2 ⟨_, hl, he⟩
      rw [h.samples] at hin
      obtain ⟨s, -, rfl⟩ := List.mem_map.1 hin
      exact s.name_head hhash
  · intro h
    have hparse := parse_of_none_misread h
    refine ⟨hparse, fun s _ => splitLabels_block s.labels, fun name pair => ?_⟩
    rw [hparse, sumWhere_entries]

/-- The line of a sample with one blank before its value. -/
def Sample.line {parse : List Char → Option V} (s : Sample V) (value : List Char)
    (hv : parse value = some s.value) (hne : value ≠ []) (hw : NoBlank value) :
    SampleLine parse where
  sample := s
  value := value
  timestamp := none
  text := s.series ++ ' ' :: value
  value_ok := hv
  words := by
    have hseries : NoBlank s.series := by
      intro c hc
      rcases List.mem_append.1 hc with hc | hc
      · exact (s.name_ok c hc).1
      · exact noBlank_block s.labels c hc
    have hsne : s.series ≠ [] := fun h => s.name_ne (List.append_eq_nil_iff.1 h).1
    have hlast := Words.last blank_nil hne hw blank_nil
    rw [List.append_nil] at hlast
    exact .cons blank_nil hsne hseries (by decide) hlast
  newline := by
    intro h
    rcases List.mem_append.1 h with h | h
    · rcases List.mem_append.1 h with h | h
      · cases (s.name_ok _ h).1
      · cases noBlank_block s.labels _ h
    · rcases List.mem_cons.1 h with h | h
      · cases h
      · cases hw _ h

/-- Samples written one a line are read back, whatever their labels. -/
theorem reads_plain [Zero V] [Add V] (parse : List Char → Option V) (fmt : V → List Char)
    (hparse : ∀ v, parse (fmt v) = some v) (hne : ∀ v, fmt v ≠ []) (hw : ∀ v, NoBlank (fmt v))
    (ss : List (Sample V)) :
    Reads parse (ss.map fun s =>
      .sample (s.line (fmt s.value) (hparse s.value) (hne s.value) (hw s.value))) := by
  refine (reads_iff parse _).2 fun l hl => ?_
  obtain ⟨s, -, rfl⟩ := List.mem_map.1 hl
  exact id

/-- A scrape that is one indented comment, ` # 5`. -/
def indented : List (Line parseU64) :=
  [.comment [' '] [' ', '5'] (by decide) (by decide)]

theorem indented_comment_is_sample :
    parseSnapshot parseU64 (render indented) = [(['#'], [], 5)] ∧
    ¬ ∀ doc : List (Line parseU64), Reads parseU64 doc := by
  have hparse : parseSnapshot parseU64 (render indented) = [(['#'], [], 5)] := rfl
  refine ⟨hparse, fun h => ?_⟩
  have hnone := (h indented).samples
  rw [hparse] at hnone
  cases hnone

end Hoprd.Localcluster.Metrics
