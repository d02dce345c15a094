import Mathlib.Data.UInt
import Hoprd.Localcluster.Metrics
import Hoprd.RestApi.Auth
import Hoprd.RestApi.MetricsEndpoint

/-!
# A node's metrics in the cluster (`rest-api/src/root.rs`, `localcluster/src/client_helper.rs`)

`HoprdApiClient::metrics` asks a node for `/metrics` and parses the answer, whose series the
cluster reads as sums. The text is the one that the metrics library writes, less the lines
that the endpoint drops. The library writes an instrument's series one a line, with `escape`d
label values that may hold blanks, and the client's words end at each of them.

* `readLine_named`: whatever the label values hold, a line gives a sample of its own name or none.
* `readLine_blankFree`: without blanks in them it gives the series.
* `scrape_reads`: a sum is that of the exposed series with the name and the label, if those
  with the name have no blanks in their label values, whatever the others have. A text that
  could not be gathered is read like that of a build without metrics: as no series at all.
-/
namespace Hoprd.Scrape

open Text Telemetry
open Core (splitOnce splitOnce_append splitOnce_of_notMem)
open RestApi (ApiError ApiErrorStatus HeaderMap authenticate)
open RestApi.Metrics (Instrument InstrumentKind MetricsLibrary OfReader SESSION_NAMES
  collectHoprMetrics gatherAllMetrics helpLine isNameChar isNameChar_ne isRead isRead_iff
  isSessionLine isSessionLine_series oneLine_write prefix_of_append seriesLines typeLine write)
open Localcluster.Metrics (Label SameSeries block escape hasLabel hasLabel_block isSkipped
  parseSnapshot parseSnapshot_eq readLine readSample stripTotalSuffixes stripTotalSuffixes_eq_iff
  sumWhere)

/-! ## The node -/

/-- mirrors rest-api/src/root.rs:5-27 -/
def collect {E : Type} (telemetry : Bool) (gathered : Except E (List Char)) :
    Except ApiErrorStatus (List Char) :=
  if telemetry then collectHoprMetrics gathered
  else .error (.unknownFailure "BUILT WITHOUT METRICS SUPPORT")

/-- The status and the body of the answer, behind the authentication.
mirrors rest-api/src/lib.rs:346-404, rest-api/src/root.rs:45-50 -/
def answer {E Value : Type} (toStr : Value → Option String) (auth : Config.Auth)
    (headers : HeaderMap Value) (telemetry : Bool) (gathered : Except E (List Char)) :
    Nat × Except ApiError (List Char) :=
  match authenticate toStr auth headers with
  | .error status => (status.statusCode, .error status.toApiError)
  | .next =>
    match collect telemetry gathered with
    | .ok metrics => (200, .ok metrics)
    | .error error => (422, .error error.toApiError)

/-! ## The client -/

/-- The status of an answer that is no scrape, and its body. -/
abbrev ScrapeError := Nat × Except ApiError (List Char)

/-- mirrors localcluster/src/client_helper.rs:210-231 -/
def clientMetrics {V : Type} (parse : List Char → Option V)
    (answer : Nat × Except ApiError (List Char)) :
    Except ScrapeError (List (List Char × List Char × V)) :=
  if answer.1 = 422 then .ok []
  else if 200 ≤ answer.1 ∧ answer.1 < 300 then
    match answer.2 with
    | .ok body => .ok (parseSnapshot parse body)
    | .error _ => .error answer
  else .error answer

/-! ## The series of an instrument -/

/-- One line of an instrument: what its name has after the one of the instrument, such as
`_bucket`, its labels by key and value, and its value. -/
structure Series (V : Type) where
  suffix : List Char
  labels : List (List Char × List Char)
  value : V
  suffix_ok : ∀ c ∈ suffix, isNameChar c = true
  keys_ok : ∀ l ∈ labels, ∀ c ∈ l.1, isNameChar c = true

/-- What an instrument has measured. -/
structure Measurement (V : Type) where
  name : String
  help : List Char
  kind : InstrumentKind
  series : List (Series V)
  help_ok : NoBreak help

/-- How the library writes values, and that the client reads them. -/
structure ValueFormat (V : Type) where
  write : V → List Char
  parse : List Char → Option V
  parse_write : ∀ v, parse (write v) = some v
  write_ne : ∀ v, write v ≠ []
  write_noBlank : ∀ v, NoBlank (write v)

/-- `key="value"` -/
def pairOf (l : List Char × List Char) : List Char := l.1 ++ '=' :: '"' :: (escape l.2 ++ ['"'])

def labelBlock (labels : List (List Char × List Char)) : List Char :=
  if labels.isEmpty then [] else '{' :: ([','].intercalate (labels.map pairOf) ++ ['}'])

variable {V : Type} (fmt : ValueFormat V) (lib : MetricsLibrary)

def Series.sample (s : Series V) : List Char :=
  s.suffix ++ labelBlock s.labels ++ ' ' :: fmt.write s.value

def BlankFree (s : Series V) : Prop := ∀ l ∈ s.labels, NoBlank (escape l.2)

instance (s : Series V) : Decidable (BlankFree s) :=
  inferInstanceAs (Decidable (∀ l ∈ s.labels, NoBlank (escape l.2)))

def fullName (m : Measurement V) (s : Series V) : List Char := lib.exportName m.name ++ s.suffix

def seriesLine (m : Measurement V) (s : Series V) : List Char :=
  lib.exportName m.name ++ s.sample fmt

/-! ## Lines -/

theorem newline_notMem_escape (value : List Char) : '\n' ∉ escape value := by
  intro h
  obtain ⟨c, -, hc⟩ := List.mem_flatMap.1 h
  split at hc
  · simp at hc
  · split at hc
    · simp at hc
    · split at hc
      · simp at hc
      · next hn => exact hn (List.mem_singleton.1 hc).symm

theorem newline_notMem_pairOf {l : List Char × List Char}
    (hkey : ∀ c ∈ l.1, isNameChar c = true) : '\n' ∉ pairOf l := by
  intro h
  simp only [pairOf, List.mem_append, List.mem_cons, List.not_mem_nil, or_false] at h
  rcases h with h | h | h | h | h
  · exact isNameChar_ne (hkey _ h) (by decide) rfl
  · cases h
  · cases h
  · exact newline_notMem_escape l.2 h
  · cases h

theorem newline_notMem_intercalate {ls : List (List Char × List Char)}
    (hkeys : ∀ l ∈ ls, ∀ c ∈ l.1, isNameChar c = true) :
    '\n' ∉ [','].intercalate (ls.map pairOf) := by
  induction ls with
  | nil => simp
  | cons l ls ih =>
    have hl := newline_notMem_pairOf (hkeys l List.mem_cons_self)
    have hrest := ih fun k hk => hkeys k (List.mem_cons_of_mem l hk)
    cases ls with
    | nil => simpa using hl
    | cons k ls =>
      rw [List.map_cons] at hrest
      rw [List.map_cons, List.map_cons, List.intercalate_cons_cons]
      simp [hl, hrest]

theorem newline_notMem_labelBlock {ls : List (List Char × List Char)}
    (hkeys : ∀ l ∈ ls, ∀ c ∈ l.1, isNameChar c = true) : '\n' ∉ labelBlock ls := by
  unfold labelBlock
  split
  · simp
  · simp [newline_notMem_intercalate hkeys]

theorem noBreak_sample (s : Series V) : NoBreak (s.sample fmt) := by
  have hvalue := fmt.write_noBlank s.value
  refine ⟨?_, ?_⟩
  · intro h
    simp only [Series.sample, List.mem_append, List.mem_cons] at h
    rcases h with (h | h) | h | h
    · exact isNameChar_ne (s.suffix_ok _ h) (by decide) rfl
    · exact newline_notMem_labelBlock s.keys_ok h
    · cases h
    · cases hvalue _ h
  · intro h
    obtain ⟨t, ht⟩ : ∃ t, s.sample fmt = t ++ fmt.write s.value :=
      ⟨s.suffix ++ labelBlock s.labels ++ [' '], by simp [Series.sample]⟩
    rw [ht, List.getLast?_append_of_ne_nil _ (fmt.write_ne s.value)] at h
    cases hvalue _ (List.mem_of_getLast? h)

def Measurement.instrument (m : Measurement V) : Instrument where
  name := m.name
  help := m.help
  kind := m.kind
  samples := m.series.map (Series.sample fmt)
  help_ok := m.help_ok
  samples_ok := by
    intro t ht
    obtain ⟨s, -, rfl⟩ := List.mem_map.1 ht
    exact noBreak_sample fmt s

/-- The text of the node's instruments, gathered. -/
def gathered (env : Env) (ms : List (Measurement V)) : List Char :=
  gatherAllMetrics lib (initLogger env) (ms.map (Measurement.instrument fmt))

/-- The exporter reads the instrument's provider, and the endpoint keeps the series. -/
def Exposed (env : Env) (intervals : Except VarError String) (m : Measurement V) (s : Series V) :
    Prop :=
  (exportsMetrics env = true → OfReader lib intervals m.name) ∧
    ¬SESSION_NAMES <+: fullName lib m s

theorem exposed_iff {env : Env} {intervals : Except VarError String} {m : Measurement V}
    {s : Series V} :
    (isRead lib (initLogger (withIntervals env intervals)) m.name &&
      !SESSION_NAMES.isPrefixOf (fullName lib m s)) = true ↔ Exposed lib env intervals m s := by
  rw [Bool.and_eq_true, isRead_iff, Bool.not_eq_true', ← Bool.not_eq_true,
    List.isPrefixOf_iff_prefix]
  rfl

instance (env : Env) (intervals : Except VarError String) (m : Measurement V) (s : Series V) :
    Decidable (Exposed lib env intervals m s) := decidable_of_iff _ (exposed_iff lib)

/-- The series has the name, up to `_total` segments, and carries the pair, if there is one. -/
def Series.Matches (name pair : List Char) (m : Measurement V) (s : Series V) : Prop :=
  SameSeries (fullName lib m s) name ∧ (pair = [] ∨ pair ∈ s.labels.map pairOf)

instance (name pair : List Char) (m : Measurement V) (s : Series V) :
    Decidable (s.Matches lib name pair m) := inferInstanceAs (Decidable (_ ∧ _))

/-- The series that the node exposes, in the order of the text. -/
def exposedSeries (env : Env) (intervals : Except VarError String) (ms : List (Measurement V)) :
    List (Measurement V × Series V) :=
  ms.flatMap fun m => (m.series.filter fun s => Exposed lib env intervals m s).map (Prod.mk m)

/-- The values of the exposed series that match. -/
def matching (env : Env) (intervals : Except VarError String) (ms : List (Measurement V))
    (name pair : List Char) : List V :=
  ((exposedSeries lib env intervals ms).filter fun x => x.2.Matches lib name pair x.1).map
    fun x => x.2.value

/-! ## What a line gives -/

section Line

variable {fmt lib} {m : Measurement V} {s : Series V}

theorem isNameChar_fullName : ∀ c ∈ fullName lib m s, isNameChar c = true := by
  intro c hc
  rcases List.mem_append.1 hc with hc | hc
  · exact lib.exportName_ok m.name c hc
  · exact s.suffix_ok c hc

theorem isWhitespace_of_isNameChar {c : Char} (hc : isNameChar c = true) :
    isWhitespace c = false := by
  simp only [isNameChar, Bool.or_eq_true, beq_iff_eq] at hc
  rcases hc with (hc | rfl) | rfl
  · simp only [Char.isAlphanum, Bool.or_eq_true] at hc
    rcases hc with hc | hc
    · rw [Bool.eq_false_iff]
      intro hw
      rw [isAlpha_of_isWhitespace hw] at hc
      cases hc
    · exact isWhitespace_of_isDigit hc
  · decide
  · decide

theorem fullName_ne : fullName lib m s ≠ [] := by
  intro h
  exact lib.exportName_ne m.name (List.append_eq_nil_iff.1 h).1

variable (lib m s) in
theorem noBlank_fullName : NoBlank (fullName lib m s) :=
  fun c hc => isWhitespace_of_isNameChar (isNameChar_fullName c hc)

theorem brace_notMem_fullName : '{' ∉ fullName lib m s :=
  fun h => isNameChar_ne (isNameChar_fullName _ h) (by decide) rfl

theorem seriesLine_eq : seriesLine fmt lib m s =
    fullName lib m s ++ (labelBlock s.labels ++ ' ' :: fmt.write s.value) := by
  simp [seriesLine, Series.sample, fullName]

theorem labelBlock_head (ls : List (List Char × List Char)) :
    labelBlock ls = [] ∨ ∃ t, labelBlock ls = '{' :: t := by
  unfold labelBlock
  split
  · exact .inl rfl
  · exact .inr ⟨_, rfl⟩

/-- Wherever the line is cut, what it gives has its name. -/
theorem readLine_named {e : List Char × List Char × V}
    (h : readLine fmt.parse (seriesLine fmt lib m s) = some e) : e.1 = fullName lib m s := by
  rw [seriesLine_eq] at h
  obtain ⟨u, ws, hsplit, hu, hpre⟩ := exists_first_word fullName_ne (noBlank_fullName lib m s)
    (labelBlock s.labels ++ ' ' :: fmt.write s.value)
  unfold readLine readSample at h
  rw [hsplit] at h
  split at h
  · cases h
  cases ws with
  | nil => cases h
  | cons value ws =>
    obtain ⟨v, -, rfl⟩ := Option.map_eq_some_iff.1 h
    cases u with
    | nil => rw [List.append_nil, splitOnce_of_notMem brace_notMem_fullName]
    | cons c u =>
      -- the word goes on after the name, with the labels
      have hc : c = '{' := by
        rcases labelBlock_head s.labels with hb | ⟨b, hb⟩
        · rw [hb] at hpre
          have hblank := hu c List.mem_cons_self
          rw [(List.cons_prefix_cons.1 hpre).1] at hblank
          cases hblank
        · rw [hb] at hpre
          exact (List.cons_prefix_cons.1 hpre).1
      rw [hc, splitOnce_append brace_notMem_fullName]

/-- Labels without blanks in their values are those that the client splits. -/
theorem exists_labels {ls : List (List Char × List Char)}
    (hkeys : ∀ l ∈ ls, ∀ c ∈ l.1, isNameChar c = true) (hfree : ∀ l ∈ ls, NoBlank (escape l.2)) :
    ∃ labels : List Label, labels.map Label.pair = ls.map pairOf ∧
      block labels = labelBlock ls := by
  have hpairs : ∃ labels : List Label, labels.map Label.pair = ls.map pairOf := by
    induction ls with
    | nil => exact ⟨[], rfl⟩
    | cons l ls ih =>
      obtain ⟨labels, hlabels⟩ := ih (fun k hk => hkeys k (List.mem_cons_of_mem l hk))
        fun k hk => hfree k (List.mem_cons_of_mem l hk)
      have hkey := hkeys l List.mem_cons_self
      refine ⟨⟨l.1, l.2, fun c hc => ?_, hfree l List.mem_cons_self⟩ :: labels, ?_⟩
      · exact ⟨isWhitespace_of_isNameChar (hkey c hc), isNameChar_ne (hkey c hc) (by decide),
          isNameChar_ne (hkey c hc) (by decide), isNameChar_ne (hkey c hc) (by decide)⟩
      · rw [List.map_cons, List.map_cons, hlabels]
        rfl
  obtain ⟨labels, hlabels⟩ := hpairs
  refine ⟨labels, hlabels, ?_⟩
  have hempty : labels.isEmpty = ls.isEmpty := by
    rw [← List.isEmpty_map (f := Label.pair), hlabels, List.isEmpty_map]
  unfold block labelBlock
  rw [hempty, hlabels]

variable (fmt lib m) in
/-- A line without blanks in its label values gives its series. -/
theorem readLine_blankFree (hfree : BlankFree s) :
    ∃ labels : List Label, labels.map Label.pair = s.labels.map pairOf ∧
      readLine fmt.parse (seriesLine fmt lib m s) =
        some (fullName lib m s, block labels, s.value) := by
  obtain ⟨labels, hlabels, hblock⟩ := exists_labels s.keys_ok hfree
  refine ⟨labels, hlabels, ?_⟩
  let sample : Localcluster.Metrics.Sample V := {
    name := fullName lib m s
    labels := labels
    value := s.value
    name_ne := fullName_ne
    name_ok := fun c hc => ⟨noBlank_fullName lib m s c hc,
      isNameChar_ne (isNameChar_fullName c hc) (by decide)⟩
    name_head := fun h =>
      isNameChar_ne (isNameChar_fullName _ (List.mem_of_mem_head? h)) (by decide) rfl }
  have hline := (sample.line (fmt.write s.value) (fmt.parse_write s.value) (fmt.write_ne s.value)
    (fmt.write_noBlank s.value)).readLine_eq
  have htext : seriesLine fmt lib m s = sample.series ++ ' ' :: fmt.write s.value := by
    rw [seriesLine_eq, ← hblock, ← List.append_assoc]
    rfl
  rw [htext]
  exact hline

end Line

/-! ## The sums of a scrape -/

/-- A sum over what the lines give is the one over what they stand for. -/
theorem sumWhere_filterMap [Zero V] [Add V] {X : Type} {name pair : List Char}
    {give : X → Option (List Char × List Char × V)} {counts : X → Bool} {value : X → V}
    {xs : List X}
    (hcounts : ∀ x ∈ xs, counts x = true → ∃ e, give x = some e ∧ SameSeries e.1 name ∧
      hasLabel e.2.1 pair = true ∧ e.2.2 = value x)
    (hnot : ∀ x ∈ xs, counts x = false → ∀ e, give x = some e →
      ¬(SameSeries e.1 name ∧ hasLabel e.2.1 pair = true)) :
    sumWhere (xs.filterMap give) name pair =
      ((xs.filter counts).map value).foldl (· + ·) 0 := by
  unfold sumWhere
  dsimp only
  congr 1
  induction xs with
  | nil => rfl
  | cons x xs ih =>
    have hrest := ih (fun y hy => hcounts y (List.mem_cons_of_mem x hy))
      fun y hy => hnot y (List.mem_cons_of_mem x hy)
    cases hx : counts x with
    | true =>
      obtain ⟨e, he, hname, hlabel, hvalue⟩ := hcounts x List.mem_cons_self hx
      have hkept : (stripTotalSuffixes e.1 == stripTotalSuffixes name &&
          hasLabel e.2.1 pair) = true := by
        rw [hlabel, (stripTotalSuffixes_eq_iff e.1 name).2 hname, beq_self_eq_true, Bool.true_and]
      rw [List.filterMap_cons_some he, List.filter_cons, if_pos hkept, List.map_cons, hrest,
        List.filter_cons_of_pos hx, List.map_cons, hvalue]
    | false =>
      rw [List.filter_cons_of_neg (by rw [hx]; exact Bool.false_ne_true), ← hrest]
      cases he : give x with
      | none => rw [List.filterMap_cons_none he]
      | some e =>
        have hdropped : ¬(stripTotalSuffixes e.1 == stripTotalSuffixes name &&
            hasLabel e.2.1 pair) = true := by
          rw [Bool.and_eq_true, beq_iff_eq, stripTotalSuffixes_eq_iff]
          exact hnot x List.mem_cons_self hx e he
        rw [List.filterMap_cons_some he, List.filter_cons, if_neg hdropped]

/-- The lines of the body. -/
theorem lines_body (env : Env) (ms : List (Measurement V)) :
    ∃ body, collectHoprMetrics (.ok (gathered fmt lib env ms) : Except String (List Char)) =
        .ok body ∧
      lines body = (((ms.map (Measurement.instrument fmt)).filter fun i =>
        isRead lib (initLogger env) i.name).flatMap (write lib)).filter
          fun l => !isSessionLine l := by
  have hlines : ∀ l ∈ ((ms.map (Measurement.instrument fmt)).filter fun i =>
      isRead lib (initLogger env) i.name).flatMap (write lib), OneLine l := by
    intro l hl
    obtain ⟨i, -, hl⟩ := List.mem_flatMap.1 hl
    exact oneLine_write lib i l hl
  refine ⟨_, rfl, ?_⟩
  unfold gathered gatherAllMetrics
  rw [lines_ended hlines, lines_intercalate fun l hl => hlines l (List.mem_of_mem_filter hl)]

variable {fmt lib}

/-- The endpoint drops a line by the name of its series. -/
theorem isSessionLine_seriesLine (m : Measurement V) {s : Series V} (hs : s ∈ m.series) :
    isSessionLine (seriesLine fmt lib m s) = SESSION_NAMES.isPrefixOf (fullName lib m s) := by
  have hmem : seriesLine fmt lib m s ∈ seriesLines lib (m.instrument fmt) :=
    List.mem_map.2 ⟨s.sample fmt, List.mem_map_of_mem hs, rfl⟩
  rw [isSessionLine_series lib hmem, seriesLine_eq, Bool.eq_iff_iff, List.isPrefixOf_iff_prefix,
    List.isPrefixOf_iff_prefix]
  refine ⟨fun h => ?_, fun h => h.trans (List.prefix_append _ _)⟩
  rcases labelBlock_head s.labels with hb | ⟨t, hb⟩
  · rw [hb] at h
    exact prefix_of_append (by decide) h
  · rw [hb] at h
    exact prefix_of_append (by decide) h

theorem readLine_hash {l : List Char} (h : l.head? = some '#') :
    readLine fmt.parse l = none := by
  unfold readLine isSkipped
  rw [h]
  rfl

/-- What one instrument gives. -/
theorem read_write (m : Measurement V) :
    ((write lib (m.instrument fmt)).filter fun l => !isSessionLine l).filterMap
        (readLine fmt.parse) =
      (m.series.filter fun s => !SESSION_NAMES.isPrefixOf (fullName lib m s)).filterMap
        fun s => readLine fmt.parse (seriesLine fmt lib m s) := by
  have hhelp : readLine fmt.parse (helpLine lib (m.instrument fmt)) = none := readLine_hash rfl
  have htype : readLine fmt.parse (typeLine lib (m.instrument fmt)) = none := readLine_hash rfl
  have hwrite : write lib (m.instrument fmt) = helpLine lib (m.instrument fmt) ::
      typeLine lib (m.instrument fmt) :: m.series.map (seriesLine fmt lib m) := by
    unfold write seriesLines
    rw [show (m.instrument fmt).samples = m.series.map (Series.sample fmt) from rfl, List.map_map]
    rfl
  rw [List.filterMap_filter, List.filterMap_filter, hwrite, List.filterMap_cons_none,
    List.filterMap_cons_none, List.filterMap_map]
  · refine List.filterMap_congr fun s hs => ?_
    simp only [Function.comp_apply, isSessionLine_seriesLine m hs]
  · rw [htype, ite_self]
  · rw [hhelp, ite_self]

/-- What the text of the node gives. -/
theorem read_gathered (env : Env) (intervals : Except VarError String)
    (ms : List (Measurement V)) :
    ((((ms.map (Measurement.instrument fmt)).filter fun i =>
        isRead lib (initLogger (withIntervals env intervals)) i.name).flatMap
          (write lib)).filter fun l => !isSessionLine l).filterMap (readLine fmt.parse) =
      (exposedSeries lib env intervals ms).filterMap
        fun x => readLine fmt.parse (seriesLine fmt lib x.1 x.2) := by
  induction ms with
  | nil => rfl
  | cons m ms ih =>
    have hcons : exposedSeries lib env intervals (m :: ms) =
        (m.series.filter fun s => Exposed lib env intervals m s).map (Prod.mk m) ++
          exposedSeries lib env intervals ms := rfl
    have hone : ((m.series.filter fun s => Exposed lib env intervals m s).map
        (Prod.mk m)).filterMap (fun x => readLine fmt.parse (seriesLine fmt lib x.1 x.2)) =
        (m.series.filter fun s => Exposed lib env intervals m s).filterMap
          fun s => readLine fmt.parse (seriesLine fmt lib m s) := List.filterMap_map
    have hexposed : ∀ s, decide (Exposed lib env intervals m s) =
        (isRead lib (initLogger (withIntervals env intervals)) m.name &&
          !SESSION_NAMES.isPrefixOf (fullName lib m s)) := by
      intro s
      rw [Bool.eq_iff_iff, decide_eq_true_iff, exposed_iff]
    rw [hcons, List.filterMap_append, hone, ← ih, List.map_cons, List.filter_cons]
    simp only [hexposed]
    cases hp : isRead lib (initLogger (withIntervals env intervals)) m.name with
    | true =>
      rw [if_pos (by exact hp), List.flatMap_cons, List.filter_append, List.filterMap_append,
        read_write]
      simp only [Bool.true_and]
    | false =>
      rw [if_neg (by simp [Measurement.instrument, hp])]
      simp only [Bool.false_and, List.filter_false, List.filterMap_nil, List.nil_append]

/-! ## A scrape -/

theorem sumWhere_exposed [Zero V] [Add V] (env : Env) (intervals : Except VarError String)
    (ms : List (Measurement V)) {name pair : List Char}
    (hfree : ∀ x ∈ exposedSeries lib env intervals ms,
      SameSeries (fullName lib x.1 x.2) name → BlankFree x.2) :
    sumWhere ((exposedSeries lib env intervals ms).filterMap
        fun x => readLine fmt.parse (seriesLine fmt lib x.1 x.2)) name pair =
      (matching lib env intervals ms name pair).foldl (· + ·) 0 := by
  refine sumWhere_filterMap ?_ ?_
  · intro x hx hmatch
    obtain ⟨hname, hlabel⟩ := of_decide_eq_true hmatch
    obtain ⟨labels, hlabels, hread⟩ := readLine_blankFree fmt lib x.1 (hfree x hx hname)
    refine ⟨_, hread, hname, ?_, rfl⟩
    rw [hasLabel_block, hlabels]
    exact hlabel
  · intro x hx hmatch e he hboth
    have hname := readLine_named he
    rw [hname] at hboth
    obtain ⟨labels, hlabels, hread⟩ := readLine_blankFree fmt lib x.1 (hfree x hx hboth.1)
    rw [hread] at he
    obtain rfl := Option.some.inj he
    rw [hasLabel_block, hlabels] at hboth
    exact absurd hboth (of_decide_eq_false hmatch)

theorem authenticate_cases {Value : Type} (toStr : Value → Option String) (auth : Config.Auth)
    (headers : HeaderMap Value) : authenticate toStr auth headers = .next ∨
      authenticate toStr auth headers = .error .unauthorized :=
  (ite_eq_or_eq _ _ _).symm

/-- **The cluster reads what a node has measured.** Where the client may ask: whatever the label
values hold, the sum of a name and a label over the answer is that of the exposed series with
this name and label, as long as those with the name have no blanks in their label values. A
text that the node cannot gather reads as no series, like the answer of a build without
metrics. Where the client may not ask, it says so. -/
theorem scrape_reads [Zero V] [Add V] (fmt : ValueFormat V) (lib : MetricsLibrary) (env : Env)
    (intervals : Except VarError String) (ms : List (Measurement V)) {Value : Type}
    (toStr : Value → Option String) (auth : Config.Auth) (headers : HeaderMap Value) :
    (authenticate toStr auth headers = .next →
      (∃ snapshot, clientMetrics fmt.parse (answer toStr auth headers true
          (.ok (gathered fmt lib (withIntervals env intervals) ms) : Except String (List Char))) =
            .ok snapshot ∧
        ∀ name pair, (∀ x ∈ exposedSeries lib env intervals ms,
            SameSeries (fullName lib x.1 x.2) name → BlankFree x.2) →
          sumWhere snapshot name pair =
            (matching lib env intervals ms name pair).foldl (· + ·) 0) ∧
      ∀ telemetry (result : Except String (List Char)),
        telemetry = false ∨ (∃ e, result = .error e) →
        clientMetrics fmt.parse (answer toStr auth headers telemetry result) = .ok []) ∧
    (authenticate toStr auth headers ≠ .next →
      ∀ telemetry (result : Except String (List Char)),
        clientMetrics fmt.parse (answer toStr auth headers telemetry result) =
          .error (401, .error ⟨"UNAUTHORIZED", none⟩)) := by
  refine ⟨fun hauth => ⟨?_, ?_⟩, fun hauth => ?_⟩
  · obtain ⟨body, hbody, hlines⟩ := lines_body fmt lib (withIntervals env intervals) ms
    have hanswer : answer toStr auth headers true
        (.ok (gathered fmt lib (withIntervals env intervals) ms) : Except String (List Char)) =
          (200, .ok body) := by
      unfold answer
      rw [hauth]
      simp only [collect, if_true, hbody]
    refine ⟨parseSnapshot fmt.parse body, ?_, ?_⟩
    · rw [hanswer]
      rfl
    · intro name pair hfree
      rw [parseSnapshot_eq, hlines, read_gathered]
      exact sumWhere_exposed env intervals ms hfree
  · intro telemetry result hfailed
    have hcollect : ∃ e, collect telemetry result = .error e := by
      rcases hfailed with rfl | ⟨e, rfl⟩
      · exact ⟨_, rfl⟩
      · cases telemetry <;> exact ⟨_, rfl⟩
    obtain ⟨e, he⟩ := hcollect
    unfold answer
    rw [hauth]
    simp only [he]
    rfl
  · intro telemetry result
    unfold answer
    rw [(authenticate_cases toStr auth headers).resolve_left hauth]
    rfl

/-! ## Packets, beside a gauge whose label has a blank -/

/-- `u64` in decimal digits. -/
def decimalFormat : ValueFormat UInt64 where
  write n := Nat.toDigits 10 n.toNat
  parse s := (parseU64 s).map UInt64.ofNat
  parse_write n := by
    show Option.map UInt64.ofNat (parseUnsigned (2 ^ 64) (Nat.toDigits 10 n.toNat)) = some n
    rw [parseUnsigned_toDigits n.toNat_lt, Option.map_some, UInt64.ofNat_toNat]
  write_ne _ := Nat.toDigits_ne_nil
  write_noBlank _ _ hc := isWhitespace_of_isDigit (isDigit_of_mem_toDigits hc)

def packets (kind : String) (n : UInt64) : Series UInt64 where
  suffix := "_total".toList
  labels := [("type".toList, kind.toList)]
  value := n
  suffix_ok := by simp; decide
  keys_ok := by simp; decide

theorem noBreak_nil : NoBreak [] := ⟨List.not_mem_nil, by simp⟩

def measured : List (Measurement UInt64) :=
  [{ name := "hopr_packets", help := [], kind := .counter, help_ok := noBreak_nil
     series := [packets "sent" 3, packets "received" 4] },
   { name := "hopr_build", help := [], kind := .gauge, help_ok := noBreak_nil
     series := [packets "release 9 x" 1] }]

theorem packets_are_read :
    ∃ snapshot, clientMetrics decimalFormat.parse (answer some .none [] true
        (.ok (gathered decimalFormat RestApi.Metrics.plainLibrary
          (withIntervals RestApi.Metrics.metricsEnv RestApi.Metrics.sessionIntervals) measured) :
            Except String (List Char))) = .ok snapshot ∧
      sumWhere snapshot "hopr_packets".toList [] = 7 ∧
      sumWhere snapshot "hopr_packets".toList "type=\"sent\"".toList = 3 := by
  obtain ⟨snapshot, hread, hsums⟩ := ((scrape_reads decimalFormat RestApi.Metrics.plainLibrary
    RestApi.Metrics.metricsEnv RestApi.Metrics.sessionIntervals measured some .none []).1 rfl).1
  refine ⟨snapshot, hread, ?_, ?_⟩
  · rw [hsums _ _ (by decide +kernel)]
    decide +kernel
  · rw [hsums _ _ (by decide +kernel)]
    decide +kernel

end Hoprd.Scrape
