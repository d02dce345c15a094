import Hoprd.Node.Meters
import Hoprd.RestApi.Error
import Hoprd.Words

/-!
# What `/metrics` exposes (`rest-api/src/root.rs`)

The endpoint gathers the text of the instruments that the Prometheus exporter reads, and drops
the lines of the session metrics, those whose names start with `hopr_session_`. The exporter
reads one provider: its clones share one reader, and the first provider built with it has it.

**The metrics library (`MetricsLibrary`).** It writes the name of an instrument in the
characters that the format allows, and registers the instrument with the provider of a
configured prefix that its name starts with, any of them, or with the default provider. A
reader stays with the provider that it is registered with first.

* `mem_exposed`: the series of the body are those of the instruments whose provider has the
  reader, without the lines that are dropped.
* `exposed_alike_iff`: two values of the intervals expose the same series exactly if every name
  that is kept is registered with the provider that has the reader under both or neither.
* `sessions_gauge_hidden`: `hopr_session=1000` hides `hopr_sessions_open`, and `hopr_p=1s`
  all but the instruments of this prefix.
-/
namespace Hoprd.RestApi.Metrics

open Telemetry Text

/-! ## The endpoint -/

def SESSION_NAMES : List Char := "hopr_session_".toList

def HELP : List Char := "# HELP ".toList

def TYPE : List Char := "# TYPE ".toList

/-- mirrors rest-api/src/root.rs:11-15 -/
def isSessionLine (line : List Char) : Bool :=
  SESSION_NAMES.isPrefixOf line || (HELP ++ SESSION_NAMES).isPrefixOf line ||
    (TYPE ++ SESSION_NAMES).isPrefixOf line

/-- mirrors rest-api/src/root.rs:6-20 -/
def collectHoprMetrics {E : Type} (gathered : Except E (List Char)) :
    Except ApiErrorStatus (List Char) :=
  match gathered with
  | .ok metrics => .ok (['\n'].intercalate ((lines metrics).filter fun l => !isSessionLine l))
  | .error _ => .error (.unknownFailure "Failed to gather metrics")

/-- The status of the response, and its body.
mirrors rest-api/src/root.rs:45-50 -/
def metrics {E : Type} (gathered : Except E (List Char)) : Nat × Except ApiError (List Char) :=
  match collectHoprMetrics gathered with
  | .ok metrics => (200, .ok metrics)
  | .error error => (422, .error error.toApiError)

/-! ## The library -/

inductive InstrumentKind where
  | counter
  | gauge
  | histogram
  deriving DecidableEq, Repr

def InstrumentKind.text : InstrumentKind → List Char
  | .counter => "counter".toList
  | .gauge => "gauge".toList
  | .histogram => "histogram".toList

/-- `samples` is what stands after the name on the line of each series. -/
structure Instrument where
  name : String
  help : List Char
  kind : InstrumentKind
  samples : List (List Char)
  help_ok : NoBreak help
  samples_ok : ∀ s ∈ samples, NoBreak s

def isNameChar (c : Char) : Bool := c.isAlphanum || c == '_' || c == ':'

structure MetricsLibrary where
  exportName : String → List Char
  exportName_ne : ∀ name, exportName name ≠ []
  exportName_ok : ∀ name, ∀ c ∈ exportName name, isNameChar c = true
  /-- The configured prefix whose provider an instrument is registered with. -/
  select : List String → String → Option String
  select_some : ∀ {names name p}, select names name = some p → p ∈ names ∧ p.toList <+: name.toList
  select_none : ∀ {names name}, select names name = none → ∀ p ∈ names, ¬p.toList <+: name.toList
  /-- The provider with the reader, of those built with a clone of one exporter, in this order. -/
  reader : List Provider → Option Provider
  reader_cons : ∀ p ps, reader (p :: ps) = some p

variable (lib : MetricsLibrary)

def providerOf (meters : Meters) (name : String) : Provider :=
  (lib.select meters.prefixes name).elim .default .prefixed

/-- The exporter reads the provider of the instrument. -/
def isRead (meters : Meters) (name : String) : Bool :=
  lib.reader meters.withExporter == some (providerOf lib meters name)

/-- `# HELP name help` -/
def helpLine (i : Instrument) : List Char :=
  HELP ++ lib.exportName i.name ++ [' '] ++ i.help

/-- `# TYPE name kind` -/
def typeLine (i : Instrument) : List Char :=
  TYPE ++ lib.exportName i.name ++ [' '] ++ i.kind.text

def seriesLines (i : Instrument) : List (List Char) :=
  i.samples.map fun s => lib.exportName i.name ++ s

/-- The lines of an instrument in the Prometheus text. -/
def write (i : Instrument) : List (List Char) :=
  helpLine lib i :: typeLine lib i :: seriesLines lib i

/-- The Prometheus text of the instruments of the provider with the reader. -/
def gatherAllMetrics (meters : Meters) (instruments : List Instrument) : List Char :=
  ((instruments.filter fun i => isRead lib meters i.name).flatMap (write lib)).flatMap
    fun l => l ++ ['\n']

/-- The series of a text: the lines that are neither blank nor comments. -/
def seriesOf (text : List Char) : List (List Char) :=
  (lines text).filter fun l => !l.isEmpty && l.head? != some '#'

/-- The series in the body of the endpoint. -/
def exposed (env : Env) (instruments : List Instrument) : List (List Char) :=
  let gathered : Except String (List Char) :=
    .ok (gatherAllMetrics lib (initLogger env) instruments)
  match (metrics gathered).2 with
  | .ok body => seriesOf body
  | .error _ => []

/-! ## What is exposed -/

theorem isNameChar_ne {c d : Char} (hc : isNameChar c = true) (hd : isNameChar d = false) :
    c ≠ d := by
  rintro rfl
  rw [hc] at hd
  cases hd

theorem noBreak_exportName (name : String) : NoBreak (lib.exportName name) := by
  refine ⟨fun h => isNameChar_ne (lib.exportName_ok name _ h) (by decide) rfl, fun h => ?_⟩
  exact isNameChar_ne (lib.exportName_ok name _ (List.mem_of_getLast? h)) (by decide) rfl

theorem noBreak_helpLine (i : Instrument) : NoBreak (helpLine lib i) := by
  have hhelp : NoBreak HELP := ⟨by decide, by decide⟩
  have hblank : NoBreak [' '] := ⟨by decide, by decide⟩
  exact ((hhelp.append (noBreak_exportName lib i.name)).append hblank).append i.help_ok

theorem noBreak_typeLine (i : Instrument) : NoBreak (typeLine lib i) := by
  have htype : NoBreak TYPE := ⟨by decide, by decide⟩
  have hblank : NoBreak [' '] := ⟨by decide, by decide⟩
  have hkind : NoBreak i.kind.text := by
    cases i.kind <;> exact ⟨by decide, by decide⟩
  exact ((htype.append (noBreak_exportName lib i.name)).append hblank).append hkind

/-- The texts before the name of an instrument are comments. -/
theorem comment_head {l : List Char} (i : Instrument)
    (h : l = helpLine lib i ∨ l = typeLine lib i) : l.head? = some '#' := by
  rcases h with rfl | rfl <;> rfl

theorem seriesLine_head {i : Instrument} {l : List Char} (h : l ∈ seriesLines lib i) :
    ∃ c t, l = c :: t ∧ isNameChar c = true := by
  obtain ⟨s, -, rfl⟩ := List.mem_map.1 h
  obtain ⟨c, t, hc⟩ := List.exists_cons_of_ne_nil (lib.exportName_ne i.name)
  refine ⟨c, t ++ s, by rw [hc]; rfl, lib.exportName_ok i.name c ?_⟩
  rw [hc]
  exact List.mem_cons_self

theorem oneLine_write (i : Instrument) : ∀ l ∈ write lib i, OneLine l := by
  intro l hl
  rcases List.mem_cons.1 hl with rfl | hl
  · exact ⟨noBreak_helpLine lib i, nofun⟩
  rcases List.mem_cons.1 hl with rfl | hl
  · exact ⟨noBreak_typeLine lib i, nofun⟩
  obtain ⟨c, t, hct, -⟩ := seriesLine_head lib hl
  obtain ⟨s, hs, rfl⟩ := List.mem_map.1 hl
  refine ⟨(noBreak_exportName lib i.name).append (i.samples_ok s hs), ?_⟩
  rw [hct]
  exact List.cons_ne_nil c t

theorem not_isPrefixOf_of_head {p l : List Char} {c d : Char} {t u : List Char} (hp : p = c :: t)
    (hl : l = d :: u) (h : d ≠ c) : p.isPrefixOf l = false := by
  subst hp hl
  simp [List.isPrefixOf, Ne.symm h]

/-- A line of a series is dropped by its name. -/
theorem isSessionLine_series {i : Instrument} {l : List Char} (h : l ∈ seriesLines lib i) :
    isSessionLine l = SESSION_NAMES.isPrefixOf l := by
  obtain ⟨c, t, hct, hc⟩ := seriesLine_head lib h
  have hne : c ≠ '#' := isNameChar_ne hc (by decide)
  unfold isSessionLine
  rw [not_isPrefixOf_of_head (p := HELP ++ SESSION_NAMES) rfl hct hne,
    not_isPrefixOf_of_head (p := TYPE ++ SESSION_NAMES) rfl hct hne, Bool.or_false, Bool.or_false]

theorem mem_write_series {i : Instrument} {l : List Char} :
    (l ∈ write lib i ∧ (!l.isEmpty && l.head? != some '#') = true) ↔ l ∈ seriesLines lib i := by
  constructor
  · rintro ⟨hl, hseries⟩
    have hcomment : ¬(l = helpLine lib i ∨ l = typeLine lib i) := by
      intro h
      simp [comment_head lib i h] at hseries
    unfold write at hl
    rw [List.mem_cons, List.mem_cons] at hl
    exact (hl.resolve_left fun h => hcomment (.inl h)).resolve_left fun h => hcomment (.inr h)
  · intro hl
    obtain ⟨c, t, hct, hc⟩ := seriesLine_head lib hl
    refine ⟨List.mem_cons_of_mem _ (List.mem_cons_of_mem _ hl), ?_⟩
    rw [hct]
    simp [isNameChar_ne hc (by decide : isNameChar '#' = false)]

theorem exposed_eq (env : Env) (instruments : List Instrument) : exposed lib env instruments =
    (((instruments.filter fun i => isRead lib (initLogger env) i.name).flatMap
      (write lib)).filter fun l => !isSessionLine l).filter
        fun l => !l.isEmpty && l.head? != some '#' := by
  have hlines : ∀ l ∈ (instruments.filter fun i =>
      isRead lib (initLogger env) i.name).flatMap (write lib), OneLine l := by
    intro l hl
    obtain ⟨i, -, hl⟩ := List.mem_flatMap.1 hl
    exact oneLine_write lib i l hl
  have hkept := fun l hl => hlines l (List.mem_of_mem_filter (p := fun l => !isSessionLine l) hl)
  show seriesOf (['\n'].intercalate ((lines (gatherAllMetrics lib (initLogger env)
    instruments)).filter fun l => !isSessionLine l)) = _
  unfold seriesOf gatherAllMetrics
  rw [lines_ended hlines, lines_intercalate hkept]

/-- The library registers the name with the provider that has the reader: that of the first
prefix that is not one of sessions, and the default one where there is none. -/
def OfReader (value : Except VarError String) (name : String) : Prop :=
  lib.select (prefixesOf value) name = readPrefix value

instance (value : Except VarError String) (name : String) : Decidable (OfReader lib value name) :=
  inferInstanceAs (Decidable (_ = _))

variable {lib}

/-- Where metrics are not exported there is one provider, and it is read. -/
theorem isRead_iff {env : Env} {value : Except VarError String} {name : String} :
    isRead lib (initLogger (withIntervals env value)) name = true ↔
      (exportsMetrics env = true → OfReader lib value name) := by
  have hprefixes := prefixes_initLogger env value
  obtain ⟨rest, hrest⟩ := withExporter_initLogger env value
  have hinj : ∀ p q : Option String,
      q.elim Provider.default Provider.prefixed = p.elim .default .prefixed ↔ p = q := by
    intro p q
    cases p <;> cases q <;> simp [eq_comm]
  unfold isRead providerOf OfReader
  rw [hrest, lib.reader_cons, beq_iff_eq, Option.some.injEq]
  cases hexports : exportsMetrics env with
  | false =>
    rw [hexports, if_neg Bool.false_ne_true] at hprefixes
    rw [hprefixes, if_neg Bool.false_ne_true]
    cases hselect : lib.select [] name with
    | none => simp
    | some p => cases (lib.select_some hselect).1
  | true =>
    rw [hexports, if_pos rfl] at hprefixes
    rw [hprefixes, if_pos rfl, hinj]
    simp

theorem mem_exposed {env : Env} {value : Except VarError String} {instruments : List Instrument}
    {l : List Char} : l ∈ exposed lib (withIntervals env value) instruments ↔
      ∃ i ∈ instruments, l ∈ seriesLines lib i ∧ ¬SESSION_NAMES <+: l ∧
        (exportsMetrics env = true → OfReader lib value i.name) := by
  rw [exposed_eq, List.mem_filter, List.mem_filter, List.mem_flatMap]
  constructor
  · rintro ⟨⟨⟨i, hi, hl⟩, hkept⟩, hseries⟩
    obtain ⟨hin, hread⟩ := List.mem_filter.1 hi
    have hl' := (mem_write_series lib).1 ⟨hl, hseries⟩
    refine ⟨i, hin, hl', fun hsession => ?_, isRead_iff.1 hread⟩
    rw [isSessionLine_series lib hl', List.isPrefixOf_iff_prefix.2 hsession] at hkept
    cases hkept
  · rintro ⟨i, hin, hl, hkept, hread⟩
    obtain ⟨hwrite, hseries⟩ := (mem_write_series lib).2 hl
    refine ⟨⟨⟨i, List.mem_filter.2 ⟨hin, isRead_iff.2 hread⟩, hwrite⟩, ?_⟩, hseries⟩
    rw [isSessionLine_series lib hl, Bool.not_eq_true', ← Bool.not_eq_true,
      List.isPrefixOf_iff_prefix]
    exact hkept

/-! ## Two values -/

/-- A text that stops at a character outside of `p` starts with `p` or does not. -/
theorem prefix_of_append {p s t : List Char} {c : Char} (hc : c ∉ p) (h : p <+: s ++ c :: t) :
    p <+: s := by
  rcases List.prefix_or_prefix_of_prefix h (List.prefix_append s (c :: t)) with hp | ⟨u, rfl⟩
  · exact hp
  · cases u with
    | nil => exact ⟨[], by simp⟩
    | cons d u =>
      have hd := (List.cons_prefix_cons.1 ((List.prefix_append_right_inj s).1 h)).1
      subst hd
      exact absurd (List.mem_append_right s List.mem_cons_self) hc

/-- A gauge with this name. -/
def gauge (name : String) : Instrument where
  name := name
  help := []
  kind := .gauge
  samples := [[' ', '3']]
  help_ok := ⟨by decide, by decide⟩
  samples_ok s hs := by
    rw [List.mem_singleton.1 hs]
    exact ⟨by decide, by decide⟩

theorem mem_exposed_gauge {env : Env} {value : Except VarError String} {name : String}
    (hname : ¬SESSION_NAMES <+: lib.exportName name) :
    lib.exportName name ++ [' ', '3'] ∈ exposed lib (withIntervals env value) [gauge name] ↔
      (exportsMetrics env = true → OfReader lib value name) := by
  have hline : lib.exportName name ++ [' ', '3'] ∈ seriesLines lib (gauge name) :=
    List.mem_singleton_self _
  have hkept : ¬SESSION_NAMES <+: lib.exportName name ++ [' ', '3'] :=
    fun h => hname (prefix_of_append (by decide) h)
  rw [mem_exposed]
  constructor
  · rintro ⟨i, hi, -, -, hread⟩
    rw [List.mem_singleton.1 hi] at hread
    exact hread
  · intro h
    exact ⟨gauge name, List.mem_singleton_self _, hline, hkept, h⟩

/-- **The intervals do not change what is exposed** exactly if metrics are not exported, or
every name that is kept is registered with the provider that has the reader under both values
or under neither. -/
theorem exposed_alike_iff (lib : MetricsLibrary) (env : Env) (v₁ v₂ : Except VarError String) :
    (∀ instruments l, l ∈ exposed lib (withIntervals env v₁) instruments ↔
      l ∈ exposed lib (withIntervals env v₂) instruments) ↔
    (exportsMetrics env = true → ∀ name, ¬SESSION_NAMES <+: lib.exportName name →
      (OfReader lib v₁ name ↔ OfReader lib v₂ name)) := by
  constructor
  · intro h hexports name hname
    have hgauge := h [gauge name] (lib.exportName name ++ [' ', '3'])
    rw [mem_exposed_gauge hname, mem_exposed_gauge hname] at hgauge
    simpa [hexports] using hgauge
  · intro h instruments l
    rw [mem_exposed, mem_exposed]
    refine exists_congr fun i => and_congr_right fun _ => and_congr_right fun hl =>
      and_congr_right fun hkept => forall_congr' fun hexports => ?_
    obtain ⟨s, -, rfl⟩ := List.mem_map.1 hl
    exact h hexports i.name fun hp => hkept (hp.trans (List.prefix_append _ s))

/-! ## Names that no session metric has -/

/-- An underscore for each character that the format does not allow. -/
def allowedName (name : String) : List Char :=
  match name.toList with
  | [] => ['_']
  | c :: t => (c :: t).map fun c => if isNameChar c then c else '_'

theorem allowedName_ne (name : String) : allowedName name ≠ [] := by
  unfold allowedName
  split <;> exact List.cons_ne_nil _ _

theorem allowedName_ok (name : String) : ∀ c ∈ allowedName name, isNameChar c = true := by
  unfold allowedName
  split
  · intro c hc
    rw [List.mem_singleton.1 hc]
    decide
  · intro c hc
    obtain ⟨d, -, rfl⟩ := List.mem_map.1 hc
    split
    · assumption
    · decide

/-- Registers an instrument with the first prefix that fits. -/
def plainLibrary : MetricsLibrary where
  exportName := allowedName
  exportName_ne := allowedName_ne
  exportName_ok := allowedName_ok
  select names name := names.find? fun p => p.toList.isPrefixOf name.toList
  select_some {_ name _} h := ⟨List.mem_of_find?_eq_some h, List.isPrefixOf_iff_prefix.1
    (List.find?_some (p := fun p : String => p.toList.isPrefixOf name.toList) h)⟩
  select_none h p hp hpre :=
    List.find?_eq_none.1 h p hp (List.isPrefixOf_iff_prefix.2 hpre)
  reader := List.head?
  reader_cons _ _ := rfl

/-- Metrics are exported, and nothing else is set. -/
def metricsEnv : Env := fun key =>
  if key = "HOPRD_USE_OPENTELEMETRY" then .ok "true"
  else if key = "HOPRD_OTEL_SIGNALS" then .ok "traces,metrics"
  else .error .notPresent

/-- The value in the samples of the deployment. -/
def sessionIntervals : Except VarError String := .ok "15000,hopr_session=1000"

/-- One prefix that is not one of sessions. -/
def plainInterval : Except VarError String := .ok "hopr_p=1s"

theorem sessions_gauge_hidden :
    (exposed plainLibrary (withIntervals metricsEnv (.error .notPresent))
        [gauge "hopr_sessions_open", gauge "hopr_peers"] =
          ["hopr_sessions_open 3".toList, "hopr_peers 3".toList] ∧
      exposed plainLibrary (withIntervals metricsEnv sessionIntervals)
        [gauge "hopr_sessions_open", gauge "hopr_peers"] = ["hopr_peers 3".toList] ∧
      exposed plainLibrary (withIntervals metricsEnv plainInterval)
        [gauge "hopr_sessions_open", gauge "hopr_peers"] = ["hopr_peers 3".toList]) ∧
    ¬ ∀ (lib : MetricsLibrary) (env : Env) (v₁ v₂ : Except VarError String)
      (instruments : List Instrument) (l : List Char),
        l ∈ exposed lib (withIntervals env v₁) instruments ↔
          l ∈ exposed lib (withIntervals env v₂) instruments := by
  have hunset : exposed plainLibrary (withIntervals metricsEnv (.error .notPresent))
      [gauge "hopr_sessions_open", gauge "hopr_peers"] =
        ["hopr_sessions_open 3".toList, "hopr_peers 3".toList] := by
    decide +kernel
  have hsession : exposed plainLibrary (withIntervals metricsEnv sessionIntervals)
      [gauge "hopr_sessions_open", gauge "hopr_peers"] = ["hopr_peers 3".toList] := by
    decide +kernel
  have hplain : exposed plainLibrary (withIntervals metricsEnv plainInterval)
      [gauge "hopr_sessions_open", gauge "hopr_peers"] = ["hopr_peers 3".toList] := by
    decide +kernel
  refine ⟨⟨hunset, hsession, hplain⟩, fun h => ?_⟩
  have hsame := h plainLibrary metricsEnv (.error .notPresent) sessionIntervals
    [gauge "hopr_sessions_open", gauge "hopr_peers"] "hopr_sessions_open 3".toList
  rw [hunset, hsession] at hsame
  have hin := hsame.1 List.mem_cons_self
  exact absurd hin (by decide)

end Hoprd.RestApi.Metrics
