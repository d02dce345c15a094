import Hoprd.Core.IndexMap
import Hoprd.Core.Split
import Hoprd.Text

/-!
# Metric export intervals (`hoprd/src/telemetry.rs`)

`HOPRD_METRIC_EXPORT_INTERVAL` has tokens separated by commas: a bare duration
is the default interval, `name=duration` the interval of the metrics whose names
start with `name`. `IsDuration` and `WellFormed` are the grammar of the two.

* `parseExportInterval_eq_some_iff`: the suffixes tried in order read exactly the
  durations.
* `readToken_eq_some_iff`: one turn of the loop acts on well-formed tokens.
* `metric_intervals`: the loop is the fold over the well-formed tokens, the last
  interval of each name winning over the earlier ones.
-/
namespace Hoprd.Telemetry

open Core (splitOnce splitOnce_append splitOnce_eq_some_iff)
open Text

/-- `normalized.strip_suffix(suffix)`, trimmed and parsed. -/
def numberBefore (suffix normalized : List Char) : Option Nat :=
  (normalized.dropSuffix? suffix).bind fun v => parseU64 (trim v)

/-- mirrors hoprd/src/telemetry.rs:214-259 -/
def parseExportInterval (value : List Char) : Option Duration :=
  let trimmed := trim value
  if trimmed.isEmpty then none
  else
    match parseU64 trimmed with
    | some ms => if ms = 0 then none else some (Duration.fromMillis ms)
    | none =>
      let normalized := trimmed.map Char.toLower
      match numberBefore ['m', 's'] normalized with
      | some ms => if ms = 0 then none else some (Duration.fromMillis ms)
      | none =>
        match numberBefore ['s'] normalized with
        | some seconds => if seconds = 0 then none else some (Duration.fromSecs seconds)
        | none =>
          match numberBefore ['m'] normalized with
          | some minutes =>
            if minutes = 0 then none
            else some (Duration.fromSecs (min (minutes * 60) (2 ^ 64 - 1)))
          | none => none

/-- mirrors hoprd/src/telemetry.rs:208-212 -/
structure MetricExportIntervalConfig where
  defaultInterval : Option Duration
  prefixIntervals : List (String × Duration)
  deriving DecidableEq, Repr

/-- One turn of the loop. A token that does not parse is logged and skipped.
mirrors hoprd/src/telemetry.rs:268-319 -/
def parseToken (config : MetricExportIntervalConfig) (token : List Char) :
    MetricExportIntervalConfig :=
  let token := trim token
  if token.isEmpty then config
  else
    match splitOnce '=' token with
    | some (name, intervalRaw) =>
      let name := trim name
      if name.isEmpty then config
      else
        match parseExportInterval intervalRaw with
        | none => config
        | some interval =>
          -- the existing entry in place, or a new one at the end
          { config with
            prefixIntervals :=
              Core.IndexMap.insert (.ofList name) interval config.prefixIntervals }
    | none =>
      match parseExportInterval token with
      | none => config
      | some interval => { config with defaultInterval := some interval }

def METRIC_EXPORT_INTERVAL_ENV_KEY : String := "HOPRD_METRIC_EXPORT_INTERVAL"

/-- mirrors hoprd/src/telemetry.rs:261-331 -/
def parseMetricExportIntervalConfigFromEnv (env : Env) : Option MetricExportIntervalConfig :=
  match env METRIC_EXPORT_INTERVAL_ENV_KEY with
  | .error _ => none
  | .ok rawValue =>
    let config := (rawValue.toList.splitOn ',').foldl parseToken ⟨none, []⟩
    if config.defaultInterval.isNone && config.prefixIntervals.isEmpty then none else some config

/-! ## Durations -/

inductive TimeUnit where
  | milliseconds
  | seconds
  | minutes
  deriving DecidableEq, Repr

def TimeUnit.text : TimeUnit → List Char
  | milliseconds => ['m', 's']
  | seconds => ['s']
  | minutes => ['m']

/-- Minutes saturate at the seconds that a `u64` holds. -/
def TimeUnit.duration (n : Nat) : TimeUnit → Duration
  | milliseconds => Duration.fromMillis n
  | seconds => Duration.fromSecs n
  | minutes => Duration.fromSecs (min (n * 60) (2 ^ 64 - 1))

/-- A positive `u64` and possibly a unit, in any case and after blanks; without one
the number is in milliseconds. -/
inductive IsDuration : Duration → List Char → Prop where
  | bare {before num after : List Char} {n : Nat} (hbefore : Blank before) (hafter : Blank after)
      (hnum : Numeral n num) (hpos : 0 < n) (hlt : n < 2 ^ 64) :
      IsDuration (Duration.fromMillis n) (before ++ num ++ after)
  | withUnit {before num gap unit after : List Char} {n : Nat} (t : TimeUnit)
      (hbefore : Blank before) (hgap : Blank gap) (hafter : Blank after) (hnum : Numeral n num)
      (hpos : 0 < n) (hlt : n < 2 ^ 64) (hunit : unit.map Char.toLower = t.text) :
      IsDuration (t.duration n) (before ++ (num ++ gap ++ unit) ++ after)

/-- Trimmed text of a number with a unit. -/
structure HasUnit (t : TimeUnit) (n : Nat) (s : List Char) : Prop where
  exists_eq : ∃ before num gap unit, s = before ++ (num ++ gap ++ unit) ∧ Blank before ∧
    Blank gap ∧ Numeral n num ∧ unit.map Char.toLower = t.text
  lt : n < 2 ^ 64

theorem isAlpha_blank_num_gap {before num gap : List Char} {n : Nat} (hbefore : Blank before)
    (hnum : Numeral n num) (hgap : Blank gap) :
    ∀ c ∈ before ++ num ++ gap, c.isAlpha = false := by
  intro c hc
  rw [List.mem_append, List.mem_append] at hc
  rcases hc with (hc | hc) | hc
  · exact isAlpha_of_blank hbefore c hc
  · exact hnum.isAlpha c hc
  · exact isAlpha_of_blank hgap c hc

theorem numberBefore_eq_some_iff {t : TimeUnit} {n : Nat} {s : List Char} :
    numberBefore t.text (s.map Char.toLower) = some n ↔ HasUnit t n s := by
  unfold numberBefore
  rw [Option.bind_eq_some_iff]
  constructor
  · rintro ⟨v, hv, hn⟩
    obtain ⟨suffix, he, hs⟩ := List.dropSuffix?_eq_some_iff.1 hv
    obtain rfl := eq_of_beq hs
    obtain ⟨hnum, hlt⟩ := parseUnsigned_eq_some_iff.1 hn
    obtain ⟨before, gap, hbefore, hgap, hv'⟩ := exists_trim v
    obtain ⟨s', unit, rfl, hs', hunit⟩ := List.map_eq_append_iff.1 he
    -- what is before the unit has no letters to change
    have hs'' : s' = v := by
      rw [hv'] at hs' ⊢
      exact (map_toLower_eq_iff (isAlpha_blank_num_gap hbefore hnum hgap)).1 hs'
    refine ⟨⟨before, trim v, gap, unit, ?_, hbefore, hgap, hnum, hunit⟩, hlt⟩
    rw [hs'', ← List.append_assoc, ← List.append_assoc, ← hv']
  · rintro ⟨⟨before, num, gap, unit, rfl, hbefore, hgap, hnum, hunit⟩, hlt⟩
    refine ⟨before ++ num ++ gap,
      List.dropSuffix?_eq_some_iff.2 ⟨t.text, ?_, beq_self_eq_true _⟩, ?_⟩
    · rw [← List.append_assoc, ← List.append_assoc, List.map_append, hunit,
        (map_toLower_eq_iff (isAlpha_blank_num_gap hbefore hnum hgap)).2 rfl]
    · rw [trim_append hbefore hgap hnum.trimmed]
      exact parseUnsigned_eq_some_iff.2 ⟨hnum, hlt⟩

/-- The letters a text ends in, last first and in lower case. -/
def lastLetters (s : List Char) : List Char :=
  (s.map Char.toLower).reverse.takeWhile Char.isAlpha

theorem lastLetters_append {s unit : List Char} (hs : ∀ c ∈ s, c.isAlpha = false)
    (hunit : ∀ c ∈ unit.map Char.toLower, c.isAlpha = true) :
    lastLetters (s ++ unit) = (unit.map Char.toLower).reverse := by
  unfold lastLetters
  rw [List.map_append, List.reverse_append,
    List.takeWhile_append_of_pos fun c hc => hunit c (List.mem_reverse.1 hc)]
  rw [(map_toLower_eq_iff hs).2 rfl]
  cases hr : s.reverse with
  | nil => simp
  | cons c r =>
    have hc : c.isAlpha = false := hs c (List.mem_reverse.1 (hr ▸ List.mem_cons_self))
    simp [hc]

theorem lastLetters_of_numeral {n : Nat} {s : List Char} (h : Numeral n s) :
    lastLetters s = [] := by
  have he : lastLetters (s ++ []) = [] := lastLetters_append h.isAlpha nofun
  rwa [List.append_nil] at he

theorem TimeUnit.isAlpha (t : TimeUnit) : ∀ c ∈ t.text, c.isAlpha = true :=
  List.all_eq_true.1 (by cases t <;> decide)

theorem HasUnit.lastLetters {t : TimeUnit} {n : Nat} {s : List Char} (h : HasUnit t n s) :
    lastLetters s = t.text.reverse := by
  obtain ⟨before, num, gap, unit, rfl, hbefore, hgap, hnum, hunit⟩ := h.exists_eq
  rw [← List.append_assoc, ← List.append_assoc, lastLetters_append
    (isAlpha_blank_num_gap hbefore hnum hgap) (hunit ▸ t.isAlpha), hunit]

/-- No text has a number with two different units, nor a number with and without. -/
theorem numberBefore_eq_none {t t' : TimeUnit} {n : Nat} {s : List Char} (h : HasUnit t n s)
    (hne : t ≠ t') : numberBefore t'.text (s.map Char.toLower) = none := by
  rw [Option.eq_none_iff_forall_ne_some]
  intro m hm
  have he := h.lastLetters.symm.trans (numberBefore_eq_some_iff.1 hm).lastLetters
  apply hne
  revert he
  cases t <;> cases t' <;> decide

theorem parseU64_eq_none {t : TimeUnit} {n : Nat} {s : List Char} (h : HasUnit t n s) :
    parseU64 s = none := by
  rw [Option.eq_none_iff_forall_ne_some]
  intro m hm
  have he := h.lastLetters.symm.trans (lastLetters_of_numeral (parseUnsigned_eq_some_iff.1 hm).1)
  revert he
  cases t <;> decide

theorem positive_of_isDuration {d : Duration} {s : List Char} (h : IsDuration d s) : 0 < d := by
  cases h with
  | bare _ _ _ hpos => exact Nat.mul_pos hpos (by decide)
  | @withUnit _ _ _ _ _ n t _ _ _ _ hpos =>
    cases t with
    | milliseconds => exact Nat.mul_pos hpos (by decide)
    | seconds => exact Nat.mul_pos hpos (by decide)
    | minutes =>
      have hmin : 0 < min (n * 60) (2 ^ 64 - 1) := by omega
      exact Nat.mul_pos hmin (by decide)

theorem trimmed_num_unit {t : TimeUnit} {num gap unit : List Char} {n : Nat}
    (hnum : Numeral n num) (hunit : unit.map Char.toLower = t.text) :
    Trimmed (num ++ gap ++ unit) := by
  obtain ⟨c, r, rfl, hc⟩ := hnum.head
  have hne : unit ≠ [] := by
    rintro rfl
    cases t <;> cases hunit
  have hlast : (unit.getLast hne).isAlpha = true := by
    rw [← isAlpha_toLower]
    exact t.isAlpha _ (hunit ▸ List.mem_map_of_mem (List.getLast_mem hne))
  refine trimmed_of_ends (c := c) (t := r ++ gap ++ unit)
    (u := c :: r ++ gap ++ unit.dropLast) rfl ?_ hc (isWhitespace_of_isAlpha hlast)
  rw [List.append_assoc _ unit.dropLast, List.dropLast_concat_getLast]

/-- An interval is read as a number of milliseconds, or at the first suffix that has a
number before it. -/
theorem parseExportInterval_cases {d : Duration} {s : List Char}
    (h : parseExportInterval s = some d) :
    (∃ n, parseU64 (trim s) = some n ∧ 0 < n ∧ d = Duration.fromMillis n) ∨
    ∃ (t : TimeUnit) (n : Nat),
      numberBefore t.text ((trim s).map Char.toLower) = some n ∧ 0 < n ∧ d = t.duration n := by
  have hpos : ∀ {n : Nat} {x : Duration}, (if n = 0 then none else some x) = some d →
      0 < n ∧ d = x := by
    intro n x hx
    split at hx
    · cases hx
    · next h0 => exact ⟨Nat.pos_of_ne_zero h0, (Option.some.inj hx).symm⟩
  unfold parseExportInterval at h
  dsimp only at h
  split at h
  · cases h
  split at h
  · next ms hms => exact .inl ⟨ms, hms, hpos h⟩
  split at h
  · next ms hms => exact .inr ⟨.milliseconds, ms, hms, hpos h⟩
  split at h
  · next seconds hseconds => exact .inr ⟨.seconds, seconds, hseconds, hpos h⟩
  split at h
  · next minutes hminutes => exact .inr ⟨.minutes, minutes, hminutes, hpos h⟩
  · cases h

theorem isDuration_of_parseExportInterval {d : Duration} {s : List Char}
    (h : parseExportInterval s = some d) : IsDuration d s := by
  obtain ⟨pre, post, hpre, hpost, hs⟩ := exists_trim s
  obtain ⟨n, hn, hpos, rfl⟩ | ⟨t, n, hn, hpos, rfl⟩ := parseExportInterval_cases h
  · obtain ⟨hnum, hlt⟩ := parseUnsigned_eq_some_iff.1 hn
    rw [hs]
    exact .bare hpre hpost hnum hpos hlt
  · obtain ⟨⟨before, num, gap, unit, he, hbefore, hgap, hnum, hu⟩, hlt⟩ :=
      numberBefore_eq_some_iff.1 hn
    rw [hs, he, ← List.append_assoc pre]
    exact .withUnit t (blank_append.2 ⟨hpre, hbefore⟩) hgap hpost hnum hpos hlt hu

theorem parseExportInterval_bare {before num after : List Char} {n : Nat} (hbefore : Blank before)
    (hafter : Blank after) (hnum : Numeral n num) (hpos : 0 < n) (hlt : n < 2 ^ 64) :
    parseExportInterval (before ++ num ++ after) = some (Duration.fromMillis n) := by
  have htrim := trim_append hbefore hafter hnum.trimmed
  obtain ⟨c, r, he, -⟩ := hnum.head
  have hne : ¬ num.isEmpty = true := by simp [he]
  have hparse : parseU64 num = some n := parseUnsigned_eq_some_iff.2 ⟨hnum, hlt⟩
  simp only [parseExportInterval, htrim, if_neg hne, hparse, if_neg (Nat.ne_of_gt hpos)]

/-- No other suffix has a number before it. -/
theorem parseExportInterval_withUnit {before num gap unit after : List Char} {n : Nat}
    (t : TimeUnit) (hbefore : Blank before) (hgap : Blank gap) (hafter : Blank after)
    (hnum : Numeral n num) (hpos : 0 < n) (hlt : n < 2 ^ 64)
    (hunit : unit.map Char.toLower = t.text) :
    parseExportInterval (before ++ (num ++ gap ++ unit) ++ after) = some (t.duration n) := by
  have htrimmed : Trimmed (num ++ gap ++ unit) := trimmed_num_unit hnum hunit
  have htrim := trim_append hbefore hafter htrimmed
  have hhas : HasUnit t n (num ++ gap ++ unit) :=
    ⟨⟨[], num, gap, unit, rfl, blank_nil, hgap, hnum, hunit⟩, hlt⟩
  obtain ⟨c, r, he, -⟩ := hnum.head
  have hne : ¬ (num ++ gap ++ unit).isEmpty = true := by simp [he]
  have hnumber := numberBefore_eq_some_iff.2 hhas
  have hother := fun t' : TimeUnit => @numberBefore_eq_none t t' _ _ hhas
  simp only [parseExportInterval, htrim, if_neg hne, parseU64_eq_none hhas]
  cases t with
  | milliseconds =>
    simp only [TimeUnit.text] at hnumber
    simp only [hnumber, if_neg (Nat.ne_of_gt hpos), TimeUnit.duration]
  | seconds =>
    have h1 := hother .milliseconds nofun
    simp only [TimeUnit.text] at hnumber h1
    simp only [h1, hnumber, if_neg (Nat.ne_of_gt hpos), TimeUnit.duration]
  | minutes =>
    have h1 := hother .milliseconds nofun
    have h2 := hother .seconds nofun
    simp only [TimeUnit.text] at hnumber h1 h2
    simp only [h1, h2, hnumber, if_neg (Nat.ne_of_gt hpos), TimeUnit.duration]

/-- The suffixes, tried in this order, read exactly the durations. -/
theorem parseExportInterval_eq_some_iff {d : Duration} {s : List Char} :
    parseExportInterval s = some d ↔ IsDuration d s := by
  constructor
  · exact isDuration_of_parseExportInterval
  · intro h
    cases h with
    | bare hbefore hafter hnum hpos hlt =>
      exact parseExportInterval_bare hbefore hafter hnum hpos hlt
    | withUnit t hbefore hgap hafter hnum hpos hlt hunit =>
      exact parseExportInterval_withUnit t hbefore hgap hafter hnum hpos hlt hunit

theorem parseExportInterval_congr {s t : List Char} (h : trim s = trim t) :
    parseExportInterval s = parseExportInterval t := by
  unfold parseExportInterval
  rw [h]

theorem IsDuration.surround {d : Duration} {s pre post : List Char} (h : IsDuration d s)
    (hpre : Blank pre) (hpost : Blank post) : IsDuration d (pre ++ s ++ post) := by
  cases h with
  | @bare before num after n hbefore hafter hnum hpos hlt =>
    have he : pre ++ (before ++ num ++ after) ++ post =
        (pre ++ before) ++ num ++ (after ++ post) := by simp only [List.append_assoc]
    rw [he]
    exact .bare (blank_append.2 ⟨hpre, hbefore⟩) (blank_append.2 ⟨hafter, hpost⟩) hnum hpos hlt
  | @withUnit before num gap unit after n t hbefore hgap hafter hnum hpos hlt hunit =>
    have he : pre ++ (before ++ (num ++ gap ++ unit) ++ after) ++ post =
        (pre ++ before) ++ (num ++ gap ++ unit) ++ (after ++ post) := by
      simp only [List.append_assoc]
    rw [he]
    exact .withUnit t (blank_append.2 ⟨hpre, hbefore⟩) hgap (blank_append.2 ⟨hafter, hpost⟩)
      hnum hpos hlt hunit

theorem IsDuration.not_blank {d : Duration} {s : List Char} (h : IsDuration d s) : ¬ Blank s := by
  intro hb
  have hs := parseExportInterval_eq_some_iff.2 h
  have he : (trim s).isEmpty = true := by rw [trim_eq_nil_iff.2 hb]; rfl
  simp [parseExportInterval, he] at hs

theorem eq_notMem_of_blank {s : List Char} (h : Blank s) : '=' ∉ s :=
  fun hm => absurd (h _ hm) (by decide)

theorem eq_notMem_of_numeral {n : Nat} {s : List Char} (h : Numeral n s) : '=' ∉ s := by
  intro hm
  cases h with
  | digits _ _ hd => exact absurd (hd _ hm) (by decide)
  | plus _ _ hd =>
    rcases List.mem_cons.1 hm with he | hm
    · exact absurd he (by decide)
    · exact absurd (hd _ hm) (by decide)

theorem IsDuration.eq_notMem {d : Duration} {s : List Char} (h : IsDuration d s) : '=' ∉ s := by
  cases h with
  | bare hbefore hafter hnum =>
    simp only [List.mem_append, not_or]
    exact ⟨⟨eq_notMem_of_blank hbefore, eq_notMem_of_numeral hnum⟩, eq_notMem_of_blank hafter⟩
  | withUnit t hbefore hgap hafter hnum _ _ hunit =>
    simp only [List.mem_append, not_or]
    refine ⟨⟨eq_notMem_of_blank hbefore, ⟨eq_notMem_of_numeral hnum, eq_notMem_of_blank hgap⟩,
      fun hm => ?_⟩, eq_notMem_of_blank hafter⟩
    have ha := t.isAlpha _ (hunit ▸ List.mem_map_of_mem hm)
    exact absurd ha (by decide)

/-! ## Tokens -/

/-- What a well-formed token sets. -/
inductive Entry where
  | default (d : Duration)
  | interval (name : String) (d : Duration)
  deriving DecidableEq, Repr

/-- A bare duration, or a name and a duration around the first `=`. Blanks may
stand around the name. -/
inductive WellFormed : Entry → List Char → Prop where
  | default {d : Duration} {token : List Char} (h : IsDuration d token) :
      WellFormed (.default d) token
  | interval {before name after raw : List Char} {d : Duration} (hbefore : Blank before)
      (hafter : Blank after) (hne : name ≠ []) (hname : Trimmed name) (heq : '=' ∉ name)
      (h : IsDuration d raw) :
      WellFormed (.interval (.ofList name) d) (before ++ (name ++ after ++ '=' :: raw))

/-- What one turn of the loop takes from its token. -/
def readToken (token : List Char) : Option Entry :=
  let token := trim token
  if token.isEmpty then none
  else
    match splitOnce '=' token with
    | some (name, raw) =>
      if (trim name).isEmpty then none
      else (parseExportInterval raw).map (.interval (.ofList (trim name)))
    | none => (parseExportInterval token).map .default

def Entry.apply (config : MetricExportIntervalConfig) : Entry → MetricExportIntervalConfig
  | .default d => { config with defaultInterval := some d }
  | .interval name d =>
    { config with prefixIntervals := Core.IndexMap.insert name d config.prefixIntervals }

theorem parseToken_eq (config : MetricExportIntervalConfig) (token : List Char) :
    parseToken config token = (readToken token).elim config (Entry.apply config) := by
  unfold parseToken readToken
  dsimp only
  split
  · rfl
  cases splitOnce '=' (trim token) with
  | none =>
    cases parseExportInterval (trim token) with
    | none => rfl
    | some d => rfl
  | some nameRaw =>
    obtain ⟨name, raw⟩ := nameRaw
    dsimp only
    split
    · rfl
    · cases parseExportInterval raw with
      | none => rfl
      | some d => rfl

theorem wellFormed_of_readToken {token : List Char} {e : Entry} (h : readToken token = some e) :
    WellFormed e token := by
  obtain ⟨pre, post, hpre, hpost, htoken⟩ := exists_trim token
  unfold readToken at h
  dsimp only at h
  split at h
  · cases h
  split at h
  · rename_i name0 raw hsplit
    split at h
    · cases h
    rename_i hne
    obtain ⟨d, hd, rfl⟩ := Option.map_eq_some_iff.1 h
    obtain ⟨he, heq⟩ := splitOnce_eq_some_iff.1 hsplit
    obtain ⟨before, after, hbefore, hafter, hname⟩ := exists_trim name0
    have htrim := trimmed_trim name0
    generalize trim name0 = name at *
    subst hname
    have hd' : IsDuration d (raw ++ post) := by
      exact (parseExportInterval_eq_some_iff.1 hd).surround blank_nil hpost
    have ht : token = (pre ++ before) ++ (name ++ after ++ '=' :: (raw ++ post)) := by
      rw [htoken, he]
      simp only [List.append_assoc, List.cons_append]
    rw [ht]
    refine .interval (blank_append.2 ⟨hpre, hbefore⟩) hafter ?_ htrim ?_ hd'
    · rintro rfl
      exact hne rfl
    · exact fun hm => heq (List.mem_append_left _ (List.mem_append_right _ hm))
  · obtain ⟨d, hd, rfl⟩ := Option.map_eq_some_iff.1 h
    rw [htoken]
    exact .default ((parseExportInterval_eq_some_iff.1 hd).surround hpre hpost)

theorem splitOnce_eq_none {s : List Char} (h : '=' ∉ s) : splitOnce '=' s = none := by
  rw [Option.eq_none_iff_forall_ne_some]
  rintro ⟨b, c⟩ hs
  obtain ⟨rfl, -⟩ := splitOnce_eq_some_iff.1 hs
  exact h (by simp)

theorem readToken_default {d : Duration} {token : List Char} (h : IsDuration d token) :
    readToken token = some (.default d) := by
  obtain ⟨pre, post, -, -, htoken⟩ := exists_trim token
  have hne : ¬ (trim token).isEmpty = true := fun he =>
    h.not_blank (trim_eq_nil_iff.1 (List.isEmpty_iff.1 he))
  have hsplit : splitOnce '=' (trim token) = none := splitOnce_eq_none fun hm =>
    h.eq_notMem (htoken ▸ List.mem_append_left _ (List.mem_append_right _ hm))
  have hparse : parseExportInterval (trim token) = _ :=
    (parseExportInterval_congr (trim_of_trimmed (trimmed_trim token))).trans
      (parseExportInterval_eq_some_iff.2 h)
  simp only [readToken, if_neg hne, hsplit, hparse, Option.map_some]

/-- Trimming stops at the name and at the end of the duration. -/
theorem trimmed_name_value {name gap value : List Char} (hne : name ≠ []) (hname : Trimmed name)
    (hvalue : value ≠ []) (htrim : Trimmed value) : Trimmed (name ++ gap ++ value) := by
  obtain ⟨c, r, rfl⟩ := List.exists_cons_of_ne_nil hne
  refine trimmed_of_ends (c := c) (u := (c :: r) ++ gap ++ value.dropLast)
    (d := value.getLast hvalue) rfl ?_ (hname.1 c rfl)
    (htrim.2 _ (List.getLast?_eq_getLast_of_ne_nil hvalue))
  conv_lhs => rw [← List.dropLast_concat_getLast hvalue]
  simp only [List.append_assoc]

theorem readToken_interval {before name after raw : List Char} {d : Duration}
    (hbefore : Blank before) (hafter : Blank after) (hne : name ≠ []) (hname : Trimmed name)
    (heq : '=' ∉ name) (h : IsDuration d raw) :
    readToken (before ++ (name ++ after ++ '=' :: raw)) =
      some (.interval (.ofList name) d) := by
  obtain ⟨rpre, rpost, hrpre, hrpost, hraw⟩ := exists_trim raw
  have htrim := trimmed_trim raw
  have hrne : trim raw ≠ [] := fun he => h.not_blank (trim_eq_nil_iff.1 he)
  have hparse : parseExportInterval (rpre ++ trim raw) = some d := by
    rw [← parseExportInterval_eq_some_iff.2 h]
    refine parseExportInterval_congr ?_
    have hs : trim (rpre ++ trim raw ++ []) = trim raw := trim_append hrpre blank_nil htrim
    rwa [List.append_nil] at hs
  generalize trim raw = value at *
  subst hraw
  have hmid : Trimmed (name ++ after ++ '=' :: (rpre ++ value)) := by
    have hends : Trimmed (name ++ (after ++ '=' :: rpre) ++ value) :=
      trimmed_name_value hne hname hrne htrim
    simpa only [List.append_assoc, List.cons_append] using hends
  have ht : trim (before ++ (name ++ after ++ '=' :: (rpre ++ value ++ rpost))) =
      name ++ after ++ '=' :: (rpre ++ value) := by
    rw [← trim_append hbefore hrpost hmid]
    simp only [List.append_assoc, List.cons_append]
  have hsplit : splitOnce '=' (name ++ after ++ '=' :: (rpre ++ value)) =
      some (name ++ after, rpre ++ value) := by
    refine splitOnce_append ?_ _
    rw [List.mem_append, not_or]
    exact ⟨heq, eq_notMem_of_blank hafter⟩
  have hname' : trim (name ++ after) = name := trim_append blank_nil hafter hname
  have hempty : ¬ (name ++ after ++ '=' :: (rpre ++ value)).isEmpty = true := by simp
  have hempty' : ¬ name.isEmpty = true := by simpa using hne
  simp only [readToken, ht, if_neg hempty, hsplit, hname', if_neg hempty', hparse,
    Option.map_some]

theorem readToken_of_wellFormed {token : List Char} {e : Entry} (h : WellFormed e token) :
    readToken token = some e := by
  cases h with
  | default h => exact readToken_default h
  | interval hbefore hafter hne hname heq h =>
    exact readToken_interval hbefore hafter hne hname heq h

/-- One turn of the loop acts on well-formed tokens, and on nothing else. -/
theorem readToken_eq_some_iff {token : List Char} {e : Entry} :
    readToken token = some e ↔ WellFormed e token :=
  ⟨wellFormed_of_readToken, readToken_of_wellFormed⟩

/-! ## The whole value -/

/-- The entries of the well-formed tokens, in order; the others are skipped. -/
inductive Read : List (List Char) → List Entry → Prop where
  | nil : Read [] []
  | wellFormed {token : List Char} {tokens : List (List Char)} {e : Entry} {es : List Entry}
      (he : WellFormed e token) (h : Read tokens es) : Read (token :: tokens) (e :: es)
  | malformed {token : List Char} {tokens : List (List Char)} {es : List Entry}
      (he : ∀ e, ¬WellFormed e token) (h : Read tokens es) : Read (token :: tokens) es

theorem read_iff {tokens : List (List Char)} {es : List Entry} :
    Read tokens es ↔ es = tokens.filterMap readToken := by
  constructor
  · intro h
    induction h with
    | nil => rfl
    | wellFormed he _ ih => rw [List.filterMap_cons_some (readToken_eq_some_iff.2 he), ih]
    | malformed he _ ih =>
      rw [List.filterMap_cons_none, ih]
      rw [Option.eq_none_iff_forall_ne_some]
      exact fun e h => he e (readToken_eq_some_iff.1 h)
  · rintro rfl
    induction tokens with
    | nil => exact .nil
    | cons token tokens ih =>
      cases he : readToken token with
      | none =>
        rw [List.filterMap_cons_none he]
        refine .malformed (fun e h => ?_) ih
        rw [readToken_eq_some_iff.2 h] at he
        cases he
      | some e =>
        rw [List.filterMap_cons_some he]
        exact .wellFormed (readToken_eq_some_iff.1 he) ih

def Entry.defaultOf : Entry → Option Duration
  | .default d => some d
  | .interval _ _ => none

def Entry.intervalOf : Entry → Option (String × Duration)
  | .default _ => none
  | .interval name d => some (name, d)

/-- What the configuration holds of the entries. -/
structure Holds (es : List Entry) (config : MetricExportIntervalConfig) : Prop where
  /-- the last bare duration -/
  default : config.defaultInterval = (es.filterMap Entry.defaultOf).getLast?
  /-- each name once, where it came first -/
  names : config.prefixIntervals.map Prod.fst =
    ((es.filterMap Entry.intervalOf).map Prod.fst).eraseDups
  distinct : Core.IndexMap.Distinct config.prefixIntervals
  /-- with the interval it had last -/
  intervals : ∀ name d, (name, d) ∈ config.prefixIntervals ↔
    (((es.filterMap Entry.intervalOf).filter fun e => e.1 = name).map Prod.snd).getLast? = some d

theorem foldl_apply_eq (es : List Entry) :
    es.foldl Entry.apply ⟨none, []⟩ =
      ⟨(es.filterMap Entry.defaultOf).getLast?,
        Core.IndexMap.insertAll (es.filterMap Entry.intervalOf) []⟩ := by
  induction es using List.reverseRecOn with
  | nil => rfl
  | append_singleton es e ih =>
    rw [List.foldl_append, ih, List.filterMap_append, List.filterMap_append]
    cases e with
    | default d =>
      have hd : [Entry.default d].filterMap Entry.defaultOf = [d] := rfl
      have hi : [Entry.default d].filterMap Entry.intervalOf = [] := rfl
      rw [hd, hi, List.append_nil, List.getLast?_concat]
      rfl
    | interval name d =>
      have hd : [Entry.interval name d].filterMap Entry.defaultOf = [] := rfl
      have hi : [Entry.interval name d].filterMap Entry.intervalOf = [(name, d)] := rfl
      rw [hd, hi, List.append_nil]
      simp only [Core.IndexMap.insertAll, List.foldl_append]
      rfl

theorem holds_foldl (es : List Entry) : Holds es (es.foldl Entry.apply ⟨none, []⟩) := by
  rw [foldl_apply_eq]
  have hdistinct : Core.IndexMap.Distinct
      (Core.IndexMap.insertAll (es.filterMap Entry.intervalOf) []) :=
    Core.IndexMap.distinct_insertAll List.nodup_nil
  refine ⟨rfl, Core.IndexMap.keys_insertAll_nil _, hdistinct, fun name d => ?_⟩
  rw [← Core.IndexMap.get?_eq_some hdistinct, Core.IndexMap.get?_insertAll]
  simp only [Core.IndexMap.get?, Option.or_none]

theorem foldl_parseToken (tokens : List (List Char)) (config : MetricExportIntervalConfig) :
    tokens.foldl parseToken config = (tokens.filterMap readToken).foldl Entry.apply config := by
  induction tokens generalizing config with
  | nil => rfl
  | cons token tokens ih =>
    rw [List.foldl_cons, parseToken_eq, ih]
    cases he : readToken token with
    | none => rw [List.filterMap_cons_none he]; rfl
    | some e => rw [List.filterMap_cons_some he]; rfl

theorem Holds.empty_iff {es : List Entry} {config : MetricExportIntervalConfig}
    (h : Holds es config) :
    (config.defaultInterval.isNone && config.prefixIntervals.isEmpty) = true ↔ es = [] := by
  rw [Bool.and_eq_true, Option.isNone_iff_eq_none, List.isEmpty_iff]
  constructor
  · rintro ⟨hd, hp⟩
    rw [h.default, List.getLast?_eq_none_iff] at hd
    rw [List.eq_nil_iff_forall_not_mem]
    intro e he
    cases e with
    | default d =>
      have hm : d ∈ es.filterMap Entry.defaultOf := List.mem_filterMap.2 ⟨_, he, rfl⟩
      rw [hd] at hm
      exact List.not_mem_nil hm
    | interval name d =>
      have hm : name ∈ ((es.filterMap Entry.intervalOf).map Prod.fst).eraseDups :=
        List.mem_eraseDups.2 (List.mem_map.2 ⟨(name, d), List.mem_filterMap.2 ⟨_, he, rfl⟩, rfl⟩)
      rw [← h.names, hp] at hm
      exact List.not_mem_nil hm
  · rintro rfl
    refine ⟨h.default, ?_⟩
    have hn := h.names
    exact List.map_eq_nil_iff.1 hn

theorem read_wellFormed {tokens : List (List Char)} {es : List Entry} (h : Read tokens es)
    {e : Entry} : e ∈ es ↔ ∃ token ∈ tokens, WellFormed e token := by
  rw [read_iff.1 h, List.mem_filterMap]
  simp only [readToken_eq_some_iff]

def Entry.duration : Entry → Duration
  | .default d | .interval _ d => d

theorem positive_of_wellFormed {e : Entry} {token : List Char} (h : WellFormed e token) :
    0 < e.duration := by
  cases h with
  | default h => exact positive_of_isDuration h
  | interval _ _ _ _ _ h => exact positive_of_isDuration h

theorem Holds.positive {tokens : List (List Char)} {es : List Entry}
    {config : MetricExportIntervalConfig} (hr : Read tokens es) (h : Holds es config) :
    (∀ d ∈ config.defaultInterval, 0 < d) ∧ ∀ e ∈ config.prefixIntervals, 0 < e.2 := by
  constructor
  · intro d hd
    rw [h.default, Option.mem_def] at hd
    obtain ⟨e, he, hde⟩ := List.mem_filterMap.1 (List.mem_of_getLast? hd)
    obtain ⟨token, -, hw⟩ := (read_wellFormed hr).1 he
    cases e with
    | default d' =>
      cases hde
      exact positive_of_wellFormed hw
    | interval name d' => cases hde
  · rintro ⟨name, d⟩ hm
    have hl := List.mem_of_getLast? ((h.intervals name d).1 hm)
    obtain ⟨⟨n, d'⟩, hf, rfl⟩ := List.mem_map.1 hl
    obtain ⟨e, he, hde⟩ := List.mem_filterMap.1 (List.mem_filter.1 hf).1
    obtain ⟨token, -, hw⟩ := (read_wellFormed hr).1 he
    cases e with
    | default d' => cases hde
    | interval name d' =>
      cases hde
      exact positive_of_wellFormed hw

/-- **The intervals of a value** are those of its well-formed tokens; there are none
exactly when no token is well formed. -/
theorem metric_intervals (env : Env) (raw : String)
    (h : env METRIC_EXPORT_INTERVAL_ENV_KEY = .ok raw) :
    ∃ es, Read (raw.toList.splitOn ',') es ∧
      (parseMetricExportIntervalConfigFromEnv env = none ↔
        ∀ token ∈ raw.toList.splitOn ',', ∀ e, ¬WellFormed e token) ∧
      ∀ config, parseMetricExportIntervalConfigFromEnv env = some config →
        Holds es config ∧ (∀ d ∈ config.defaultInterval, 0 < d) ∧
          ∀ e ∈ config.prefixIntervals, 0 < e.2 := by
  have hr := read_iff.2 (rfl : (raw.toList.splitOn ',').filterMap readToken = _)
  refine ⟨_, hr, ?_⟩
  have hholds := holds_foldl ((raw.toList.splitOn ',').filterMap readToken)
  rw [← foldl_parseToken] at hholds
  unfold parseMetricExportIntervalConfigFromEnv
  simp only [h]
  constructor
  · rw [ite_eq_left_iff, imp_iff_not (by exact nofun), Decidable.not_not, hholds.empty_iff,
      List.eq_nil_iff_forall_not_mem]
    constructor
    · intro hnone token hm e hw
      exact hnone e ((read_wellFormed hr).2 ⟨token, hm, hw⟩)
    · intro hnone e he
      obtain ⟨token, hm, hw⟩ := (read_wellFormed hr).1 he
      exact hnone token hm e hw
  · intro config hc
    split at hc
    · cases hc
    · cases hc
      exact ⟨hholds, hholds.positive hr⟩

/-- A default given twice, a name given twice, and a token that is neither. -/
def demoValue : String := "15, net=2 M,=5s,net = 500ms,tok=1s,60s"

theorem demo_intervals :
    parseMetricExportIntervalConfigFromEnv (fun _ => .ok demoValue) =
      some ⟨some (Duration.fromSecs 60),
        [("net", Duration.fromMillis 500), ("tok", Duration.fromSecs 1)]⟩ ∧
    ∃ es, Read (demoValue.toList.splitOn ',') es ∧
      (parseMetricExportIntervalConfigFromEnv (fun _ => .ok demoValue) = none ↔
        ∀ token ∈ demoValue.toList.splitOn ',', ∀ e, ¬WellFormed e token) ∧
      ∀ config, parseMetricExportIntervalConfigFromEnv (fun _ => .ok demoValue) = some config →
        Holds es config ∧ (∀ d ∈ config.defaultInterval, 0 < d) ∧
          ∀ e ∈ config.prefixIntervals, 0 < e.2 :=
  ⟨by decide +kernel, metric_intervals (fun _ => .ok demoValue) demoValue rfl⟩

end Hoprd.Telemetry
