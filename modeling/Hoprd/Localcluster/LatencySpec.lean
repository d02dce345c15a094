import Hoprd.Core.Except
import Hoprd.Core.Split
import Hoprd.Localcluster.Latency
import Hoprd.Text

/-!
# The latency argument (`localcluster/src/cli.rs`, `latency.rs`)

`--latency` is a delay or the path of a YAML file, with or without the base port of the
relays after an `@`. `parse_latency` splits at the last `@` whatever stands around it, and
`parse_delay` recognises the forms of a delay by their prefix or their separator.

**Floating point (`Floats`).** Reading, dividing and rounding to nanoseconds are those of
`f64` and `Duration`. Of the texts read as a finite number only the documented grammar is used: they
have digits, a point, an exponent and signs, and never a plus before a minus.

* `parseDuration_eq_ok_iff`, `parseDelay_eq_ok_iff`: what is read is exactly `IsDuration` and
  `IsDelay`, the grammar that the source documents.
* `latency_argument_iff`: the same of the whole argument. A path without a port is taken as it
  is written exactly if it holds no `@`.
-/
namespace Hoprd.Localcluster.LatencySpec

open Text
open Core (bind_ok eq_of_splitOnceAt rsplitOnce rsplitOnce_eq_none_iff rsplitOnce_eq_some_iff
  splitOnce splitOnceAt splitOnceAt_append splitOnceAt_eq_none splitOnce_append
  splitOnce_eq_some_iff)

/-- The text of a finite number: not empty, of these characters, and no `+-`. -/
structure Decimal (s : List Char) : Prop where
  ne : s ≠ []
  chars : ∀ c ∈ s, c.isDigit = true ∨ c ∈ ['.', 'e', 'E', '+', '-']
  signs : ¬['+', '-'] <:+: s

/-- `debug` is how a `Duration` is printed in a message. -/
structure Floats where
  parse : List Char → Option F64
  div : F64 → Nat → F64
  tryFromSecs : F64 → Option Duration
  debug : Duration → String
  decimal_of_parse : ∀ {s q}, parse s = some (.finite q) → Decimal s

inductive LatencyUnit where
  | us
  | ms
  | s
  deriving DecidableEq, Repr

/-- `value < 0.0 || !value.is_finite()` -/
def isRejected : F64 → Bool
  | .nan | .infinity _ => true
  | .finite q => q < 0

/-- The value and the unit, in milliseconds without a suffix. -/
def splitUnit (s : List Char) : List Char × LatencyUnit :=
  match s.dropSuffix? ['m', 's'] with
  | some v => (v, .ms)
  | none =>
    match (s.dropSuffix? ['u', 's']).or (s.dropSuffix? ['µ', 's']) with
    | some v => (v, .us)
    | none =>
      match s.dropSuffix? ['s'] with
      | some v => (v, .s)
      | none => (s, .ms)

variable (fl : Floats)

def LatencyUnit.secs (value : F64) : LatencyUnit → F64
  | .s => value
  | .ms => fl.div value 1000
  | .us => fl.div value 1000000

/-- mirrors localcluster/src/latency.rs:222-249 -/
def parseDuration (s : List Char) : Except String Duration :=
  let s := trim s
  let (value, unit) := splitUnit s
  match fl.parse (trim value) with
  | none => .error s!"'{String.ofList s}' is not a valid duration"
  | some value =>
    if isRejected value then
      .error s!"duration must be a non-negative number, got '{String.ofList s}'"
    else
      match fl.tryFromSecs (unit.secs fl value) with
      | some d => .ok d
      | none => .error s!"duration '{String.ofList s}' is out of range"

/-- mirrors localcluster/src/latency.rs:216-220 -/
def splitPair (s : List Char) : Except String (List Char × List Char) :=
  match splitOnce ',' s with
  | some (a, b) => .ok (trim a, trim b)
  | none =>
    .error s!"expected two comma-separated durations, got '{String.ofList s}'"

/-- `Duration::MAX` in nanoseconds. -/
def durationMax : Duration := (2 ^ 64 - 1) * 1000000000 + 999999999

/-- What `contains` and `split_once` find, `±` before `+-`. -/
def splitJitter (s : List Char) : Option (List Char × List Char) :=
  (splitOnceAt ['±'] s).or (splitOnceAt ['+', '-'] s)

/-- mirrors localcluster/src/latency.rs:166-214 -/
def parseDelay (s : List Char) : Except String DelayDist :=
  let s := trim s
  match s.dropPrefix? "uniform:".toList with
  | some rest => do
    let (min, max) ← splitPair rest
    let min ← parseDuration fl min
    let max ← parseDuration fl max
    if max ≤ min then
      .error ("uniform delay max (" ++ fl.debug max ++ ") must be > min (" ++ fl.debug min ++
        "); use a fixed delay for a degenerate range")
    else .ok (.uniform min max)
  | none =>
    match s.dropPrefix? "normal:".toList with
    | some rest => do
      let (mean, stddev) ← splitPair rest
      let mean ← parseDuration fl mean
      let stddev ← parseDuration fl stddev
      .ok (.normal mean stddev)
    | none =>
      match splitJitter s with
      | some (mean, jitter) => do
        let mean ← parseDuration fl mean
        let jitter ← parseDuration fl jitter
        .ok (.uniform (mean - jitter) (min (mean + jitter) durationMax))
      | none => (parseDuration fl s).map .fixed

/-- mirrors localcluster/src/cli.rs:225-232 -/
inductive LatencyKind where
  | fixed (dist : DelayDist)
  | config (path : List Char)
  deriving DecidableEq, Repr

/-- mirrors localcluster/src/cli.rs:234-239 -/
structure Latency where
  kind : LatencyKind
  portBase : Nat
  deriving DecidableEq, Repr

/-- mirrors localcluster/src/identity.rs:66 -/
def DEFAULT_LATENCY_PORT_BASE : Nat := 9100

/-- mirrors localcluster/src/cli.rs:281-284 -/
def parseKind (body : List Char) : Except String LatencyKind :=
  match body.dropPrefix? "config:".toList with
  | some path => .ok (.config path)
  | none => (parseDelay fl body).map .fixed

/-- mirrors localcluster/src/cli.rs:272-286 -/
def parseLatency (s : List Char) : Except String Latency :=
  match rsplitOnce '@' s with
  | some (body, port) =>
    match parseUnsigned (2 ^ 16) port with
    | some portBase => (parseKind fl body).map fun kind => ⟨kind, portBase⟩
    | none => .error s!"invalid relay base port '{String.ofList port}'"
  | none => (parseKind fl s).map fun kind => ⟨kind, DEFAULT_LATENCY_PORT_BASE⟩

/-! ## The grammar -/

def LatencyUnit.texts : LatencyUnit → List (List Char)
  | .us => [['u', 's'], ['µ', 's']]
  | .ms => [['m', 's'], []]
  | .s => [['s']]

/-- A number and a unit, or milliseconds without one, with blanks around and between them. -/
inductive IsDuration (d : Duration) : List Char → Prop where
  | mk {before num gap unit after : List Char} {q : Rat} (u : LatencyUnit) (hbefore : Blank before)
      (hgap : Blank gap) (hafter : Blank after) (hnum : fl.parse num = some (.finite q))
      (hunit : unit ∈ u.texts) (hq : 0 ≤ q) (hd : fl.tryFromSecs (u.secs fl (.finite q)) = some d) :
      IsDuration d (before ++ (num ++ gap ++ unit) ++ after)

/-- The forms of a delay. -/
inductive IsDelay : DelayDist → List Char → Prop where
  | fixed {d : Duration} {s : List Char} (h : IsDuration fl d s) : IsDelay (.fixed d) s
  | jitter {mean jitter : Duration} {s t sep : List Char} (hsep : sep = ['±'] ∨ sep = ['+', '-'])
      (hmean : IsDuration fl mean s) (hjitter : IsDuration fl jitter t) :
      IsDelay (.uniform (mean - jitter) (min (mean + jitter) durationMax)) (s ++ sep ++ t)
  | uniform {min max : Duration} {before s t : List Char} (hbefore : Blank before)
      (hmin : IsDuration fl min s) (hmax : IsDuration fl max t) (hlt : min < max) :
      IsDelay (.uniform min max) (before ++ "uniform:".toList ++ (s ++ ',' :: t))
  | normal {mean stddev : Duration} {before s t : List Char} (hbefore : Blank before)
      (hmean : IsDuration fl mean s) (hstddev : IsDuration fl stddev t) :
      IsDelay (.normal mean stddev) (before ++ "normal:".toList ++ (s ++ ',' :: t))

inductive IsKind : LatencyKind → List Char → Prop where
  | config (path : List Char) : IsKind (.config path) ("config:".toList ++ path)
  | fixed {dist : DelayDist} {s : List Char} (h : IsDelay fl dist s) : IsKind (.fixed dist) s

/-- A kind, and the base port after the last `@`. -/
inductive IsLatency : Latency → List Char → Prop where
  | port {kind : LatencyKind} {body port : List Char} {n : Nat} (hkind : IsKind fl kind body)
      (hport : Numeral n port) (hn : n < 2 ^ 16) : IsLatency ⟨kind, n⟩ (body ++ '@' :: port)
  | default {kind : LatencyKind} {body : List Char} (hkind : IsKind fl kind body)
      (hat : '@' ∉ body) : IsLatency ⟨kind, DEFAULT_LATENCY_PORT_BASE⟩ body

/-! ## Suffixes -/

theorem dropSuffix_append (v t : List Char) : (v ++ t).dropSuffix? t = some v :=
  List.dropSuffix?_eq_some_iff.2 ⟨t, rfl, beq_self_eq_true t⟩

theorem eq_of_dropSuffix {s t v : List Char} (h : s.dropSuffix? t = some v) : s = v ++ t := by
  obtain ⟨t', rfl, ht⟩ := List.dropSuffix?_eq_some_iff.1 h
  rw [eq_of_beq ht]

theorem eq_of_dropPrefix {s t v : List Char} (h : s.dropPrefix? t = some v) : s = t ++ v := by
  obtain ⟨t', rfl, ht⟩ := List.dropPrefix?_eq_some_iff.1 h
  rw [eq_of_beq ht]

theorem dropPrefix_append (t v : List Char) : (t ++ v).dropPrefix? t = some v :=
  List.dropPrefix?_eq_some_iff.2 ⟨t, rfl, beq_self_eq_true t⟩

theorem dropPrefix_eq_none {s t : List Char} (h : ∀ v, s ≠ t ++ v) : s.dropPrefix? t = none := by
  cases hsome : s.dropPrefix? t with
  | none => rfl
  | some v => exact absurd (eq_of_dropPrefix hsome) (h v)

theorem dropPrefix_of_notMem {s t : List Char} {c : Char} (hc : c ∈ t) (hs : c ∉ s) :
    s.dropPrefix? t = none := by
  apply dropPrefix_eq_none
  rintro v rfl
  exact hs (List.mem_append_left v hc)

/-- A suffix of two letters is no other one, nor ends before the last letter. -/
theorem dropSuffix_other {v : List Char} {a b c : Char} (hne : a ≠ b) :
    (v ++ [b, c]).dropSuffix? [a, c] = none := by
  cases h : (v ++ [b, c]).dropSuffix? [a, c] with
  | none => rfl
  | some x =>
    obtain ⟨-, heq⟩ := List.append_inj' (eq_of_dropSuffix h) rfl
    cases heq
    exact absurd rfl hne

theorem dropSuffix_short {v : List Char} {a c : Char} (ha : a ∉ v) :
    (v ++ [c]).dropSuffix? [a, c] = none := by
  cases h : (v ++ [c]).dropSuffix? [a, c] with
  | none => rfl
  | some x =>
    have hx : v ++ [c] = (x ++ [a]) ++ [c] := by simpa using eq_of_dropSuffix h
    rw [List.append_cancel_right hx] at ha
    exact absurd (List.mem_append_right x (List.mem_singleton_self a)) ha

theorem dropSuffix_notMem {v t : List Char} {c : Char} (hc : c ∈ t) (hv : c ∉ v) :
    v.dropSuffix? t = none := by
  cases h : v.dropSuffix? t with
  | none => rfl
  | some x =>
    rw [eq_of_dropSuffix h] at hv
    exact absurd (List.mem_append_right x hc) hv

/-- A value without the letters of the units is told apart from its unit. -/
theorem splitUnit_append {v unit : List Char} {u : LatencyUnit} (hunit : unit ∈ u.texts)
    (hm : 'm' ∉ v) (hu : 'u' ∉ v) (hmicro : 'µ' ∉ v) (hs : 's' ∉ v) :
    splitUnit (v ++ unit) = (v, u) := by
  unfold splitUnit
  cases u with
  | us =>
    rcases List.mem_cons.1 hunit with rfl | hunit
    · rw [dropSuffix_other (by decide), dropSuffix_append]
      rfl
    · obtain rfl := List.mem_singleton.1 hunit
      rw [dropSuffix_other (by decide), dropSuffix_other (by decide), dropSuffix_append]
      rfl
  | ms =>
    rcases List.mem_cons.1 hunit with rfl | hunit
    · rw [dropSuffix_append]
    · obtain rfl := List.mem_singleton.1 hunit
      rw [List.append_nil, dropSuffix_notMem List.mem_cons_self hm,
        dropSuffix_notMem List.mem_cons_self hu, dropSuffix_notMem List.mem_cons_self hmicro,
        dropSuffix_notMem List.mem_cons_self hs]
      rfl
  | s =>
    obtain rfl := List.mem_singleton.1 hunit
    rw [dropSuffix_short hm, dropSuffix_short hu, dropSuffix_short hmicro, dropSuffix_append]
    rfl

theorem exists_unit (s : List Char) :
    ∃ unit ∈ (splitUnit s).2.texts, s = (splitUnit s).1 ++ unit := by
  unfold splitUnit
  split
  · next v h => exact ⟨_, by simp [LatencyUnit.texts], eq_of_dropSuffix h⟩
  · split
    · next v h =>
      rcases Option.or_eq_some_iff.1 h with h | ⟨-, h⟩
      · exact ⟨_, by simp [LatencyUnit.texts], eq_of_dropSuffix h⟩
      · exact ⟨_, by simp [LatencyUnit.texts], eq_of_dropSuffix h⟩
    · split
      · next v h => exact ⟨_, by simp [LatencyUnit.texts], eq_of_dropSuffix h⟩
      · exact ⟨[], by simp [LatencyUnit.texts], (List.append_nil s).symm⟩

/-! ## Durations -/

/-- A duration without the blanks around it. -/
inductive Word (d : Duration) : List Char → Prop where
  | mk {num gap unit : List Char} {q : Rat} (u : LatencyUnit) (hgap : Blank gap)
      (hnum : fl.parse num = some (.finite q)) (hunit : unit ∈ u.texts) (hq : 0 ≤ q)
      (hd : fl.tryFromSecs (u.secs fl (.finite q)) = some d) (hbare : unit = [] → gap = []) :
      Word d (num ++ gap ++ unit)

variable {fl}

theorem Decimal.notMem {s : List Char} (h : Decimal s) {c : Char} (hd : c.isDigit = false)
    (hc : c ∉ ['.', 'e', 'E', '+', '-']) : c ∉ s := by
  intro hmem
  rcases h.chars c hmem with hdigit | hsign
  · rw [hd] at hdigit
    cases hdigit
  · exact hc hsign

theorem notMem_of_blank {s : List Char} (h : Blank s) {c : Char} (hc : isWhitespace c = false) :
    c ∉ s := by
  intro hmem
  rw [h c hmem] at hc
  cases hc

theorem Decimal.isWhitespace {s : List Char} (h : Decimal s) {c : Char} (hc : c ∈ s) :
    isWhitespace c = false := by
  rcases h.chars c hc with hdigit | hsign
  · exact isWhitespace_of_isDigit hdigit
  · simp only [List.mem_cons, List.not_mem_nil, or_false] at hsign
    rcases hsign with rfl | rfl | rfl | rfl | rfl <;> decide

theorem Decimal.trimmed {s : List Char} (h : Decimal s) : Trimmed s :=
  ⟨fun _ hc => h.isWhitespace (List.mem_of_mem_head? hc),
    fun _ hc => h.isWhitespace (List.mem_of_mem_getLast? hc)⟩

theorem mem_texts_chars {u : LatencyUnit} {unit : List Char} (h : unit ∈ u.texts) :
    ∀ c ∈ unit, c ∈ ['m', 'u', 'µ', 's'] := by
  revert unit
  cases u <;> simp [LatencyUnit.texts]

/-- Neither a number, nor blanks, nor a unit has the character. -/
theorem Word.notMem {d : Duration} {w : List Char} (h : Word fl d w) {c : Char}
    (hd : c.isDigit = false) (hw : Text.isWhitespace c = false)
    (hc : c ∉ ['.', 'e', 'E', '+', '-']) (hu : c ∉ ['m', 'u', 'µ', 's']) : c ∉ w := by
  cases h with
  | mk u hgap hnum hunit =>
    intro hmem
    rcases List.mem_append.1 hmem with hmem | hmem
    · rcases List.mem_append.1 hmem with hmem | hmem
      · exact (fl.decimal_of_parse hnum).notMem hd hc hmem
      · exact notMem_of_blank hgap hw hmem
    · exact hu (mem_texts_chars hunit c hmem)

theorem Word.head {d : Duration} {w : List Char} (h : Word fl d w) :
    ∃ c t, w = c :: t ∧ Text.isWhitespace c = false ∧ c ∉ ['c', 'n', 'u'] := by
  cases h with
  | @mk num gap unit _ u _ hnum _ _ _ _ =>
    have hdec := fl.decimal_of_parse hnum
    obtain ⟨c, t, rfl⟩ := List.exists_cons_of_ne_nil hdec.ne
    refine ⟨c, t ++ gap ++ unit, by simp, hdec.isWhitespace List.mem_cons_self, ?_⟩
    intro hc
    simp only [List.mem_cons, List.not_mem_nil, or_false] at hc
    rcases hc with rfl | rfl | rfl
    · exact hdec.notMem (by decide) (by decide) List.mem_cons_self
    · exact hdec.notMem (by decide) (by decide) List.mem_cons_self
    · exact hdec.notMem (by decide) (by decide) List.mem_cons_self

theorem Word.last {d : Duration} {w : List Char} (h : Word fl d w) :
    ∃ t c, w = t ++ [c] ∧ Text.isWhitespace c = false := by
  cases h with
  | @mk num gap unit _ u _ hnum hunit _ _ hbare =>
    rcases List.eq_nil_or_concat' unit with rfl | ⟨t, c, rfl⟩
    · -- the number itself is the end
      have hdec := fl.decimal_of_parse hnum
      obtain rfl := hbare rfl
      refine ⟨num.dropLast, num.getLast hdec.ne, ?_, hdec.isWhitespace (List.getLast_mem hdec.ne)⟩
      rw [List.append_nil, List.append_nil, List.dropLast_append_getLast]
    · refine ⟨num ++ gap ++ t, c, by simp, ?_⟩
      have hletters : ∀ x ∈ ['m', 'u', 'µ', 's'], Text.isWhitespace x = false := by
        simp [Text.isWhitespace]
      exact hletters c (mem_texts_chars hunit c (by simp))

theorem Word.trimmed {d : Duration} {w : List Char} (h : Word fl d w) : Trimmed w := by
  obtain ⟨c, t, hw, hc, -⟩ := h.head
  obtain ⟨t', c', hw', hc'⟩ := h.last
  exact trimmed_of_ends hw hw' hc hc'

/-- What follows does not make a `+-` that was not there. -/
theorem signs_append {a b : List Char} (ha : ¬['+', '-'] <:+: a) (hb : '-' ∉ b) :
    ¬['+', '-'] <:+: a ++ b := by
  rintro ⟨p, q, h⟩
  rcases List.append_eq_append_iff.1 h with ⟨x, hx, -⟩ | ⟨x, hx, hy⟩
  · exact ha ⟨p, x, hx.symm⟩
  · rcases List.eq_nil_or_concat' x with rfl | ⟨y, c, rfl⟩
    · rw [List.append_nil] at hx
      exact ha ⟨p, [], by rw [List.append_nil, hx]⟩
    · have hlast := congrArg List.getLast? hx
      have hc : '-' = c := by simpa using hlast
      rw [hy, ← hc] at hb
      simp at hb

theorem Word.signs {d : Duration} {w : List Char} (h : Word fl d w) : ¬['+', '-'] <:+: w := by
  cases h with
  | @mk num gap unit _ u hgap hnum hunit =>
    have hrest : '-' ∉ gap ++ unit := by
      intro hmem
      rcases List.mem_append.1 hmem with hmem | hmem
      · exact notMem_of_blank hgap (by decide) hmem
      · exact absurd (mem_texts_chars hunit _ hmem) (by decide)
    rw [List.append_assoc]
    exact signs_append (fl.decimal_of_parse hnum).signs hrest

theorem isDuration_iff {d : Duration} {s : List Char} :
    IsDuration fl d s ↔
      ∃ pre w post, Blank pre ∧ Blank post ∧ Word fl d w ∧ s = pre ++ w ++ post := by
  constructor
  · rintro ⟨u, hbefore, hgap, hafter, hnum, hunit, hq, hd⟩
    rename_i before num gap unit after q
    by_cases hbare : unit = []
    · subst hbare
      refine ⟨before, num ++ [] ++ [], gap ++ after, hbefore, blank_append.2 ⟨hgap, hafter⟩,
        .mk u blank_nil hnum hunit hq hd fun _ => rfl, by simp⟩
    · exact ⟨before, _, after, hbefore, hafter,
        .mk u hgap hnum hunit hq hd fun h => absurd h hbare, rfl⟩
  · rintro ⟨pre, w, post, hpre, hpost, ⟨u, hgap, hnum, hunit, hq, hd, -⟩, rfl⟩
    exact .mk u hpre hgap hpost hnum hunit hq hd

theorem IsDuration.surround {d : Duration} {s pre post : List Char} (h : IsDuration fl d s)
    (hpre : Blank pre) (hpost : Blank post) : IsDuration fl d (pre ++ s ++ post) := by
  obtain ⟨before, w, after, hbefore, hafter, hw, rfl⟩ := isDuration_iff.1 h
  exact isDuration_iff.2 ⟨pre ++ before, w, after ++ post, blank_append.2 ⟨hpre, hbefore⟩,
    blank_append.2 ⟨hafter, hpost⟩, hw, by simp⟩

theorem IsDuration.of_trim {d : Duration} {s : List Char} (h : IsDuration fl d (trim s)) :
    IsDuration fl d s := by
  obtain ⟨pre, post, hpre, hpost, hs⟩ := exists_trim s
  rw [hs]
  exact h.surround hpre hpost

theorem parseDuration_word {d : Duration} {s w : List Char} (h : Word fl d w) (hs : trim s = w) :
    parseDuration fl s = .ok d := by
  unfold parseDuration
  rw [hs]
  cases h with
  | @mk num gap unit q u hgap hnum hunit hq hd hbare =>
    have hdec := fl.decimal_of_parse hnum
    have hletter : ∀ c, c.isDigit = false → Text.isWhitespace c = false →
        c ∉ ['.', 'e', 'E', '+', '-'] → c ∉ num ++ gap := by
      intro c hdigit hblank hsign hmem
      rcases List.mem_append.1 hmem with hmem | hmem
      · exact hdec.notMem hdigit hsign hmem
      · exact notMem_of_blank hgap hblank hmem
    have hsplit := splitUnit_append hunit (hletter 'm' (by decide) (by decide) (by decide))
      (hletter 'u' (by decide) (by decide) (by decide))
      (hletter 'µ' (by decide) (by decide) (by decide))
      (hletter 's' (by decide) (by decide) (by decide))
    have htrim : trim (num ++ gap) = num := trim_append blank_nil hgap hdec.trimmed
    have hrejected : ¬isRejected (.finite q) = true := by simpa [isRejected] using hq
    simp only [hsplit, htrim, hnum, hd, if_neg hrejected]

theorem word_of_parseDuration {d : Duration} {s : List Char} (h : parseDuration fl s = .ok d) :
    IsDuration fl d s := by
  refine IsDuration.of_trim ?_
  unfold parseDuration at h
  obtain ⟨unit, hunit, hs⟩ := exists_unit (trim s)
  rcases hr : splitUnit (trim s) with ⟨value, u⟩
  rw [hr] at hunit hs
  simp only [hr] at h
  split at h
  · cases h
  · next x hparse =>
    split at h
    · cases h
    · next hok =>
      split at h
      · next d' hd =>
        cases h
        obtain ⟨before, gap, hbefore, hgap, hvalue⟩ := exists_trim value
        cases x with
        | nan | infinity => exact absurd rfl hok
        | finite q =>
          have hq : 0 ≤ q := by simpa [isRejected] using hok
          have hdur := @IsDuration.mk fl _ _ _ _ _ _ _ u hbefore hgap blank_nil hparse hunit hq hd
          rw [hs, hvalue]
          simpa using hdur
      · cases h

/-- The durations that are read. -/
theorem parseDuration_eq_ok_iff {d : Duration} {s : List Char} :
    parseDuration fl s = .ok d ↔ IsDuration fl d s := by
  refine ⟨word_of_parseDuration, fun h => ?_⟩
  obtain ⟨pre, w, post, hpre, hpost, hw, rfl⟩ := isDuration_iff.1 h
  exact parseDuration_word hw (trim_append hpre hpost hw.trimmed)

theorem IsDuration.notMem {d : Duration} {s : List Char} (h : IsDuration fl d s) {c : Char}
    (hd : c.isDigit = false) (hw : Text.isWhitespace c = false)
    (hc : c ∉ ['.', 'e', 'E', '+', '-']) (hu : c ∉ ['m', 'u', 'µ', 's']) : c ∉ s := by
  obtain ⟨pre, w, post, hpre, hpost, hword, rfl⟩ := isDuration_iff.1 h
  simp only [List.mem_append, not_or]
  exact ⟨⟨notMem_of_blank hpre hw, hword.notMem hd hw hc hu⟩, notMem_of_blank hpost hw⟩

/-! ## Delays -/

theorem eq_of_splitPair {s a b : List Char} (h : splitPair s = .ok (a, b)) :
    ∃ x y, s = x ++ ',' :: y ∧ a = trim x ∧ b = trim y := by
  unfold splitPair at h
  split at h
  · next x y hsplit =>
    cases h
    exact ⟨x, y, (splitOnce_eq_some_iff.1 hsplit).1, rfl, rfl⟩
  · cases h

theorem splitPair_append {x y : List Char} (hx : ',' ∉ x) :
    splitPair (x ++ ',' :: y) = .ok (trim x, trim y) := by
  unfold splitPair
  rw [splitOnce_append hx]

theorem eq_of_splitJitter {s a b : List Char} (h : splitJitter s = some (a, b)) :
    ∃ sep, (sep = ['±'] ∨ sep = ['+', '-']) ∧ s = a ++ sep ++ b := by
  rcases Option.or_eq_some_iff.1 h with h | ⟨-, h⟩
  · exact ⟨_, .inl rfl, eq_of_splitOnceAt h⟩
  · exact ⟨_, .inr rfl, eq_of_splitOnceAt h⟩

theorem not_infix_singleton {c : Char} {s : List Char} (h : c ∉ s) : ¬[c] <:+: s :=
  fun hin => h (hin.subset (List.mem_singleton_self c))

theorem isDelay_of_parseDelay {dist : DelayDist} {s : List Char}
    (h : parseDelay fl s = .ok dist) : IsDelay fl dist s := by
  obtain ⟨pre, post, hpre, hpost, hs⟩ := exists_trim s
  have hpost' : ∀ {d : Duration} {t : List Char}, IsDuration fl d t → IsDuration fl d (t ++ post) :=
    fun hd => by simpa using hd.surround blank_nil hpost
  unfold parseDelay at h
  dsimp only at h
  split at h
  · next rest hprefix =>
    obtain ⟨⟨a, b⟩, hpair, h⟩ := bind_ok h
    obtain ⟨x, y, rfl, rfl, rfl⟩ := eq_of_splitPair hpair
    obtain ⟨min, hmin, h⟩ := bind_ok h
    obtain ⟨max, hmax, h⟩ := bind_ok h
    split at h
    · cases h
    · next hlt =>
      cases h
      have hdelay := IsDelay.uniform hpre (parseDuration_eq_ok_iff.1 hmin).of_trim
        (hpost' (parseDuration_eq_ok_iff.1 hmax).of_trim) (Nat.lt_of_not_le hlt)
      rw [hs, eq_of_dropPrefix hprefix]
      simpa using hdelay
  · split at h
    · next rest hprefix =>
      obtain ⟨⟨a, b⟩, hpair, h⟩ := bind_ok h
      obtain ⟨x, y, rfl, rfl, rfl⟩ := eq_of_splitPair hpair
      obtain ⟨mean, hmean, h⟩ := bind_ok h
      obtain ⟨stddev, hstddev, h⟩ := bind_ok h
      cases h
      have hdelay := IsDelay.normal hpre (parseDuration_eq_ok_iff.1 hmean).of_trim
        (hpost' (parseDuration_eq_ok_iff.1 hstddev).of_trim)
      rw [hs, eq_of_dropPrefix hprefix]
      simpa using hdelay
    · split at h
      · next a b hsplit =>
        obtain ⟨mean, hmean, h⟩ := bind_ok h
        obtain ⟨jitter, hjitter, h⟩ := bind_ok h
        cases h
        obtain ⟨sep, hsep, htrim⟩ := eq_of_splitJitter hsplit
        have hmean' : IsDuration fl mean (pre ++ a) := by
          simpa using (parseDuration_eq_ok_iff.1 hmean).surround hpre blank_nil
        have hdelay := IsDelay.jitter hsep hmean' (hpost' (parseDuration_eq_ok_iff.1 hjitter))
        rw [hs, htrim]
        simpa using hdelay
      · rcases hd : parseDuration fl (trim s) with e | d
        · rw [hd] at h
          cases h
        · rw [hd] at h
          cases h
          exact .fixed (parseDuration_eq_ok_iff.1 hd).of_trim

/-- A text without a colon has neither prefix. -/
theorem parseDelay_plain {s : List Char} (hcolon : ':' ∉ trim s) :
    parseDelay fl s = match splitJitter (trim s) with
      | some (mean, jitter) => do
        let mean ← parseDuration fl mean
        let jitter ← parseDuration fl jitter
        .ok (.uniform (mean - jitter) (min (mean + jitter) durationMax))
      | none => (parseDuration fl (trim s)).map .fixed := by
  unfold parseDelay
  dsimp only
  rw [dropPrefix_of_notMem (t := "uniform:".toList) (c := ':') (by decide) hcolon]
  dsimp only
  rw [dropPrefix_of_notMem (t := "normal:".toList) (c := ':') (by decide) hcolon]

theorem parseDelay_fixed {d : Duration} {s : List Char} (h : IsDuration fl d s) :
    parseDelay fl s = .ok (.fixed d) := by
  obtain ⟨pre, w, post, hpre, hpost, hw, rfl⟩ := isDuration_iff.1 h
  have htrim : trim (pre ++ w ++ post) = w := trim_append hpre hpost hw.trimmed
  have hmicro : splitOnceAt ['±'] w = none := splitOnceAt_eq_none
    (not_infix_singleton (hw.notMem (by decide) (by decide) (by decide) (by decide)))
  have hnone : splitJitter w = none := by
    unfold splitJitter
    rw [hmicro, splitOnceAt_eq_none hw.signs]
    rfl
  rw [parseDelay_plain (by
    rw [htrim]
    exact hw.notMem (by decide) (by decide) (by decide) (by decide)), htrim, hnone]
  simp only [parseDuration_word hw (trim_of_trimmed hw.trimmed)]
  rfl

theorem splitJitter_append {a b sep : List Char} (hsep : sep = ['±'] ∨ sep = ['+', '-'])
    (ha : '±' ∉ a) (hb : '±' ∉ b) (hsigns : ¬['+', '-'] <:+: a) :
    splitJitter (a ++ sep ++ b) = some (a, b) := by
  unfold splitJitter
  rcases hsep with rfl | rfl
  · rw [splitOnceAt_append (by simp) (by simpa using not_infix_singleton ha)]
    rfl
  · have hnone : splitOnceAt ['±'] (a ++ ['+', '-'] ++ b) = none :=
      splitOnceAt_eq_none (not_infix_singleton (by simp [ha, hb]))
    rw [hnone, splitOnceAt_append (by simp) (signs_append hsigns (by simp))]
    rfl

theorem parseDelay_jitter {mean jitter : Duration} {s t sep : List Char}
    (hsep : sep = ['±'] ∨ sep = ['+', '-']) (hmean : IsDuration fl mean s)
    (hjitter : IsDuration fl jitter t) :
    parseDelay fl (s ++ sep ++ t) =
      .ok (.uniform (mean - jitter) (min (mean + jitter) durationMax)) := by
  obtain ⟨pre, w, post, hpre, hpost, hw, rfl⟩ := isDuration_iff.1 hmean
  obtain ⟨pre', w', post', hpre', hpost', hw', rfl⟩ := isDuration_iff.1 hjitter
  obtain ⟨c, u, hc, hcblank, -⟩ := hw.head
  obtain ⟨u', c', hc', hcblank'⟩ := hw'.last
  have hmid : Trimmed ((w ++ post) ++ sep ++ (pre' ++ w')) :=
    trimmed_of_ends (t := u ++ post ++ sep ++ (pre' ++ w'))
      (u := w ++ post ++ sep ++ pre' ++ u') (by simp [hc]) (by simp [hc']) hcblank hcblank'
  have htrim : trim (pre ++ w ++ post ++ sep ++ (pre' ++ w' ++ post')) =
      (w ++ post) ++ sep ++ (pre' ++ w') := by
    rw [← trim_append hpre hpost' hmid]
    simp
  have hleft : ∀ {x : Char}, x.isDigit = false → Text.isWhitespace x = false →
      x ∉ ['.', 'e', 'E', '+', '-'] → x ∉ ['m', 'u', 'µ', 's'] →
        x ∉ w ++ post ∧ x ∉ pre' ++ w' := by
    intro x hd hblank hsign hunit
    simp only [List.mem_append, not_or]
    exact ⟨⟨hw.notMem hd hblank hsign hunit, notMem_of_blank hpost hblank⟩,
      notMem_of_blank hpre' hblank, hw'.notMem hd hblank hsign hunit⟩
  have hcolon := hleft (x := ':') (by decide) (by decide) (by decide) (by decide)
  have hplus := hleft (x := '±') (by decide) (by decide) (by decide) (by decide)
  have hsigns : ¬['+', '-'] <:+: w ++ post :=
    signs_append hw.signs (notMem_of_blank hpost (by decide))
  have hnocolon : ':' ∉ (w ++ post) ++ sep ++ (pre' ++ w') := by
    have hsepcolon : ':' ∉ sep := by
      rcases hsep with rfl | rfl <;> decide
    intro hmem
    rcases List.mem_append.1 hmem with hmem | hmem
    · exact (List.mem_append.1 hmem).elim hcolon.1 hsepcolon
    · exact hcolon.2 hmem
  have hreadmean : parseDuration fl (w ++ post) = .ok mean :=
    parseDuration_word hw (by simpa using trim_append blank_nil hpost hw.trimmed)
  have hreadjitter : parseDuration fl (pre' ++ w') = .ok jitter :=
    parseDuration_word hw' (by simpa using trim_append hpre' blank_nil hw'.trimmed)
  rw [parseDelay_plain (by rw [htrim]; exact hnocolon), htrim,
    splitJitter_append hsep hplus.1 hplus.2 hsigns]
  simp only [hreadmean, hreadjitter]
  rfl

/-- After a prefix, two durations with a comma between them. -/
theorem trim_prefixed {first second : Duration} {before s t : List Char} {c : Char}
    (word : List Char) (hbefore : Blank before) (hword : word.head? = some c)
    (hc : Text.isWhitespace c = false) (hfirst : IsDuration fl first s)
    (hsecond : IsDuration fl second t) :
    ∃ rest, trim (before ++ word ++ (s ++ ',' :: t)) = word ++ rest ∧
      ∃ x y, splitPair rest = .ok (x, y) ∧ parseDuration fl x = .ok first ∧
        parseDuration fl y = .ok second := by
  obtain ⟨pre, w, post, hpre, hpost, hw, rfl⟩ := isDuration_iff.1 hsecond
  obtain ⟨u, c', hu, hblank'⟩ := hw.last
  obtain ⟨tail, rfl⟩ : ∃ tail, word = c :: tail := List.head?_eq_some_iff.1 hword
  have hmid : Trimmed ((c :: tail) ++ (s ++ ',' :: (pre ++ w))) :=
    trimmed_of_ends (t := tail ++ (s ++ ',' :: (pre ++ w)))
      (u := (c :: tail) ++ (s ++ ',' :: (pre ++ u))) (by simp) (by simp [hu]) hc hblank'
  refine ⟨s ++ ',' :: (pre ++ w), ?_, trim s, trim (pre ++ w), ?_, ?_, ?_⟩
  · rw [← trim_append hbefore hpost hmid]
    simp
  · exact splitPair_append (hfirst.notMem (by decide) (by decide) (by decide) (by decide))
  · obtain ⟨p, v, q, hp, hq, hv, rfl⟩ := isDuration_iff.1 hfirst
    rw [trim_append hp hq hv.trimmed]
    exact parseDuration_word hv (trim_of_trimmed hv.trimmed)
  · have htrim : trim (pre ++ w) = w := by simpa using trim_append hpre blank_nil hw.trimmed
    rw [htrim]
    exact parseDuration_word hw (trim_of_trimmed hw.trimmed)

/-- **The delays that are read** are those of the documented forms. -/
theorem parseDelay_eq_ok_iff {dist : DelayDist} {s : List Char} :
    parseDelay fl s = .ok dist ↔ IsDelay fl dist s := by
  refine ⟨isDelay_of_parseDelay, fun h => ?_⟩
  cases h with
  | fixed h => exact parseDelay_fixed h
  | jitter hsep hmean hjitter => exact parseDelay_jitter hsep hmean hjitter
  | uniform hbefore hmin hmax hlt =>
    obtain ⟨rest, htrim, x, y, hpair, hx, hy⟩ :=
      trim_prefixed "uniform:".toList hbefore rfl (by decide) hmin hmax
    unfold parseDelay
    dsimp only
    rw [htrim, dropPrefix_append]
    simp only [hpair, hx, hy, bind, Except.bind, if_neg (Nat.not_le_of_lt hlt)]
  | normal hbefore hmean hstddev =>
    obtain ⟨rest, htrim, x, y, hpair, hx, hy⟩ :=
      trim_prefixed "normal:".toList hbefore rfl (by decide) hmean hstddev
    have hnot : ("normal:".toList ++ rest).dropPrefix? "uniform:".toList = none := by
      apply dropPrefix_eq_none
      intro v heq
      cases heq
    unfold parseDelay
    dsimp only
    rw [htrim, hnot]
    dsimp only
    rw [dropPrefix_append]
    simp only [hpair, hx, hy, bind, Except.bind]

/-! ## The argument -/

theorem head_blank_append {before t : List Char} (hbefore : Blank before)
    (ht : t.head? ≠ some 'c') : (before ++ t).head? ≠ some 'c' := by
  cases before with
  | nil => exact ht
  | cons b before =>
    intro hhead
    obtain rfl : b = 'c' := Option.some.inj hhead
    exact absurd (hbefore 'c' List.mem_cons_self) (by decide)

theorem IsDuration.head {d : Duration} {s : List Char} (h : IsDuration fl d s) :
    s.head? ≠ some 'c' := by
  obtain ⟨pre, w, post, hpre, -, hw, rfl⟩ := isDuration_iff.1 h
  obtain ⟨c, t, rfl, -, hc⟩ := hw.head
  rw [List.append_assoc]
  apply head_blank_append hpre
  intro hhead
  obtain rfl : c = 'c' := Option.some.inj hhead
  exact hc List.mem_cons_self

/-- No delay looks like the path of a file. -/
theorem IsDelay.head {dist : DelayDist} {s : List Char} (h : IsDelay fl dist s) :
    s.head? ≠ some 'c' := by
  cases h with
  | fixed h => exact h.head
  | @jitter _ _ s t sep hsep hmean hjitter =>
    obtain ⟨pre, w, post, hpre, -, hw, rfl⟩ := isDuration_iff.1 hmean
    obtain ⟨c, u, rfl, -, -⟩ := hw.head
    have hhead := hmean.head
    cases pre <;> exact hhead
  | uniform hbefore =>
    rw [List.append_assoc]
    exact head_blank_append hbefore (by simp)
  | normal hbefore =>
    rw [List.append_assoc]
    exact head_blank_append hbefore (by simp)

theorem parseKind_eq_ok_iff {kind : LatencyKind} {body : List Char} :
    parseKind fl body = .ok kind ↔ IsKind fl kind body := by
  constructor
  · intro h
    unfold parseKind at h
    split at h
    · next path hprefix =>
      cases h
      rw [eq_of_dropPrefix hprefix]
      exact .config path
    · rcases hd : parseDelay fl body with e | dist
      · rw [hd] at h
        cases h
      · rw [hd] at h
        cases h
        exact .fixed (parseDelay_eq_ok_iff.1 hd)
  · intro h
    unfold parseKind
    cases h with
    | config path => rw [dropPrefix_append]
    | fixed h =>
      have hnot : body.dropPrefix? "config:".toList = none := by
        apply dropPrefix_eq_none
        rintro v rfl
        exact h.head rfl
      rw [hnot, parseDelay_eq_ok_iff.2 h]
      rfl

theorem at_notMem_numeral {n : Nat} {s : List Char} (h : Numeral n s) : '@' ∉ s := by
  intro hmem
  cases h with
  | digits _ _ hd => cases hd _ hmem
  | plus _ _ hd =>
    rcases List.mem_cons.1 hmem with hmem | hmem
    · cases hmem
    · cases hd _ hmem

theorem parseLatency_eq_ok_iff {l : Latency} {s : List Char} :
    parseLatency fl s = .ok l ↔ IsLatency fl l s := by
  constructor
  · intro h
    unfold parseLatency at h
    split at h
    · next body port hsplit =>
      obtain ⟨rfl, -⟩ := rsplitOnce_eq_some_iff.1 hsplit
      split at h
      · next n hn =>
        obtain ⟨hport, hlt⟩ := parseUnsigned_eq_some_iff.1 hn
        rcases hk : parseKind fl body with e | kind
        · rw [hk] at h
          cases h
        · rw [hk] at h
          cases h
          exact .port (parseKind_eq_ok_iff.1 hk) hport hlt
      · cases h
    · next hsplit =>
      rcases hk : parseKind fl s with e | kind
      · rw [hk] at h
        cases h
      · rw [hk] at h
        cases h
        exact .default (parseKind_eq_ok_iff.1 hk) (rsplitOnce_eq_none_iff.1 hsplit)
  · intro h
    unfold parseLatency
    cases h with
    | port hkind hport hn =>
      rw [rsplitOnce_eq_some_iff.2 ⟨rfl, at_notMem_numeral hport⟩]
      dsimp only
      rw [parseUnsigned_eq_some_iff.2 ⟨hport, hn⟩, parseKind_eq_ok_iff.2 hkind]
      rfl
    | default hkind hat =>
      rw [rsplitOnce_eq_none_iff.2 hat]
      dsimp only
      rw [parseKind_eq_ok_iff.2 hkind]
      rfl

variable (fl) in
/-- **The latency argument** is read exactly if it is one of the documented forms, as the one it
is. Behind a path the port may be left out exactly if the path holds no `@`. -/
theorem latency_argument_iff (s : List Char) (l : Latency) :
    (parseLatency fl s = .ok l ↔ IsLatency fl l s) ∧
    ∀ path, (parseLatency fl ("config:".toList ++ path) =
        .ok ⟨.config path, DEFAULT_LATENCY_PORT_BASE⟩ ↔ '@' ∉ path) ∧
      ∀ n < 2 ^ 16, parseLatency fl ("config:".toList ++ path ++ '@' :: Nat.toDigits 10 n) =
        .ok ⟨.config path, n⟩ := by
  refine ⟨parseLatency_eq_ok_iff, fun path => ⟨?_, fun n hn => ?_⟩⟩
  · rw [parseLatency_eq_ok_iff]
    constructor
    · intro h
      generalize hs : "config:".toList ++ path = s at h
      generalize hl : (⟨.config path, DEFAULT_LATENCY_PORT_BASE⟩ : Latency) = l at h
      cases h with
      | port hkind =>
        -- the port would have to come out of the path
        cases hl
        cases hkind
        have hlen := congrArg List.length hs
        simp at hlen
      | default hkind hat =>
        rw [← hs] at hat
        exact fun hmem => hat (List.mem_append_right _ hmem)
    · intro hat
      refine .default (.config path) ?_
      rw [List.mem_append, not_or]
      exact ⟨by decide, hat⟩
  · have hport := (parseUnsigned_eq_some_iff.1 (parseUnsigned_toDigits hn)).1
    exact parseLatency_eq_ok_iff.2 (.port (.config path) hport hn)

/-- A parser of whole numbers, with exact quotients. -/
def wholeNumbers : Floats where
  parse s := (parseUnsigned (2 ^ 53) s).map fun n : Nat => .finite n
  div x n := match x with
    | .finite q => .finite (q / n)
    | x => x
  tryFromSecs x := match x with
    | .finite q =>
      let nanos := (q * 1000000000).floor.toNat
      if nanos ≤ durationMax then some nanos else none
    | _ => none
  debug d := toString d ++ "ns"
  decimal_of_parse := by
    intro s q h
    obtain ⟨n, hn, -⟩ := Option.map_eq_some_iff.1 h
    have hnum := (parseUnsigned_eq_some_iff.1 hn).1
    have hdigits : ∀ {ds : List Char}, (∀ c ∈ ds, c.isDigit = true) → '-' ∉ ds :=
      fun hds hmem => by cases hds _ hmem
    cases hnum with
    | digits _ hne hd =>
      exact ⟨hne, fun c hc => .inl (hd c hc), fun hsigns => hdigits hd (hsigns.mem (by simp))⟩
    | plus _ _ hd =>
      refine ⟨List.cons_ne_nil _ _, fun c hc => ?_, fun hsigns => ?_⟩
      · rcases List.mem_cons.1 hc with rfl | hc
        · exact .inr (by simp)
        · exact .inl (hd c hc)
      · rcases List.mem_cons.1 (hsigns.mem (a := '-') (by simp)) with hplus | hmem
        · cases hplus
        · exact hdigits hd hmem

theorem latency_argument_demo :
    parseLatency wholeNumbers "100ms±30ms@20000".toList =
        .ok ⟨.fixed (.uniform 70000000 130000000), 20000⟩ ∧
      parseLatency wholeNumbers "config:/a@b@9200".toList = .ok ⟨.config "/a@b".toList, 9200⟩ := by
  have hms : ∀ (n : Nat) (num : List Char) (d : Duration),
      wholeNumbers.parse num = some (.finite n) →
      wholeNumbers.tryFromSecs (LatencyUnit.ms.secs wholeNumbers (.finite n)) = some d →
      IsDuration wholeNumbers d ([] ++ (num ++ [] ++ ['m', 's']) ++ []) :=
    fun _ _ _ hnum hd => .mk .ms blank_nil blank_nil blank_nil hnum List.mem_cons_self
      Rat.natCast_nonneg hd
  have hread : parseUnsigned (2 ^ 16) "20000".toList = some 20000 := by decide
  have hport := (parseUnsigned_eq_some_iff.1 hread).1
  have hmean := hms 100 "100".toList 100000000 (by decide) (by decide +kernel)
  have hspread := hms 30 "30".toList 30000000 (by decide) (by decide +kernel)
  have hjitter := IsDelay.jitter (.inl rfl) hmean hspread
  exact ⟨(latency_argument_iff wholeNumbers _ _).1.2 (.port (.fixed hjitter) hport (by decide)),
    ((latency_argument_iff wholeNumbers [] ⟨.config [], 0⟩).2 "/a@b".toList).2 9200 (by decide)⟩

end Hoprd.Localcluster.LatencySpec
