import Hoprd.Localcluster.Latency
import Hoprd.Core.Split
import Hoprd.Text

/-!
# What the summary says of a node's inbound delay (`localcluster/src/latency.rs`)

`describe_inbound` collects the descriptions of the links that are shaped, and gives one
for all where they agree. A link without any delay is not in the collection, so it does
not keep the others from agreeing.

* `describeInbound_cases`: nothing, one description or a breakdown, by what is collected.
* `reports_breakdown`: the breakdown can be read back, source by source.
* `faithful_iff`: the text is right about all inbound links exactly if they are all shaped,
  none is, or two are described differently.
* `unshaped_link_vanishes`: one of two links shaped, and one description for both.

How an `f64` of milliseconds is rounded is left open: `ms` is any function.
-/
namespace Hoprd.Localcluster

open Core (Table)

/-- mirrors localcluster/src/latency.rs:24-34 -/
def DelayDist.describe (ms : Duration → Nat) : DelayDist → String
  | .fixed d => toString (ms d) ++ "ms"
  | .uniform min max => toString (ms min) ++ "-" ++ toString (ms max) ++ "ms uniform"
  | .normal mean stddev => toString (ms mean) ++ "ms±" ++ toString (ms stddev) ++ "ms normal"

/-- The `BTreeMap` of the shaped sources, which is filled in the order of its keys. -/
def perSrc (ms : Duration → Nat) (cfg : LatencyConfig) (node numNodes : Nat) :
    List (Nat × String) :=
  ((List.range numNodes).filter fun src => src != node).filterMap fun src =>
    (cfg.resolve src node).map fun dist => (src, dist.describe ms)

def fromSource (e : Nat × String) : String := "from " ++ toString e.1 ++ ": " ++ e.2

def breakdown (entries : List (Nat × String)) : String := ", ".intercalate (entries.map fromSource)

/-- mirrors localcluster/src/latency.rs:99-122 -/
def LatencyConfig.describeInbound (ms : Duration → Nat) (cfg : LatencyConfig)
    (node numNodes : Nat) : Option String :=
  match perSrc ms cfg node numNodes with
  | [] => none
  | e :: entries =>
    if (e :: entries).all fun e' => e'.2 == e.2 then some e.2 else some (breakdown (e :: entries))

/-! ## Reading a breakdown -/

/-- The parts of a text between commas, without the blanks before them. -/
def entriesOf (text : List Char) : List (List Char) := (text.splitOn ',').map Text.trimStart

/-- The text lists the source with this description. -/
def reports (text : String) (src : Nat) (desc : String) : Bool :=
  (entriesOf text.toList).contains (fromSource (src, desc)).toList

theorem trimStart_space (s : List Char) : Text.trimStart (' ' :: s) = Text.trimStart s :=
  List.dropWhile_cons_of_pos rfl

theorem entriesOf_space (s : List Char) : entriesOf (' ' :: s) = entriesOf s := by
  unfold entriesOf
  rw [List.splitOn_cons_eq_if_modifyHead, if_neg (by decide)]
  cases hs : s.splitOn ',' with
  | nil => rfl
  | cons a l => exact congrArg (· :: _) (trimStart_space a)

theorem entriesOf_single {s : List Char} (h : ',' ∉ s) : entriesOf s = [Text.trimStart s] := by
  unfold entriesOf
  rw [List.splitOn_eq_singleton h]
  rfl

theorem entriesOf_append {s : List Char} (h : ',' ∉ s) (t : List Char) :
    entriesOf (s ++ ',' :: ' ' :: t) = Text.trimStart s :: entriesOf t := by
  rw [← entriesOf_space t]
  unfold entriesOf
  rw [List.splitOn_append_cons_self_of_not_mem h]
  rfl

/-- Lines without commas that start with no blank are read back. -/
theorem entriesOf_intercalate {l : List String} (hne : l ≠ [])
    (h : ∀ s ∈ l, ',' ∉ s.toList ∧ Text.trimStart s.toList = s.toList) :
    entriesOf (", ".intercalate l).toList = l.map String.toList := by
  induction l with
  | nil => exact absurd rfl hne
  | cons s l ih =>
    obtain ⟨hcomma, htrim⟩ := h s List.mem_cons_self
    cases l with
    | nil =>
      rw [String.intercalate_singleton, entriesOf_single hcomma, htrim]
      rfl
    | cons t l =>
      have hlist : (", ".intercalate (s :: t :: l)).toList =
          s.toList ++ ',' :: ' ' :: (", ".intercalate (t :: l)).toList := by
        rw [String.intercalate_cons_cons, String.toList_append, String.toList_append,
          List.append_assoc]
        rfl
      have hrest := ih (List.cons_ne_nil t l) fun u hu => h u (List.mem_cons_of_mem _ hu)
      rw [hlist, entriesOf_append hcomma, htrim, hrest]
      rfl

/-! ## Texts -/

theorem comma_notMem_describe (ms : Duration → Nat) (dist : DelayDist) :
    ',' ∉ (dist.describe ms).toList := by
  have hcomma := Text.notMem_toDigits (c := ',') (by decide)
  cases dist <;> simp [DelayDist.describe, hcomma]

theorem fromSource_toList (e : Nat × String) :
    (fromSource e).toList =
      "from ".toList ++ (Nat.toDigits 10 e.1 ++ ':' :: ' ' :: e.2.toList) := by
  simp [fromSource]

theorem fromSource_inj {e e' : Nat × String} (h : fromSource e = fromSource e') : e = e' := by
  have hcolon := Text.notMem_toDigits (c := ':') (by decide)
  have hlist := congrArg String.toList h
  rw [fromSource_toList, fromSource_toList] at hlist
  have hsplit := Core.splitOnce_append (hcolon e.1) (' ' :: e.2.toList)
  rw [List.append_cancel_left hlist, Core.splitOnce_append (hcolon e'.1)] at hsplit
  simp only [Option.some.injEq, Prod.mk.injEq, List.cons.injEq, true_and] at hsplit
  obtain ⟨hnum, hdesc⟩ := hsplit
  exact Prod.ext (Text.toDigits_injective hnum).symm (String.toList_inj.1 hdesc.symm)

theorem describe_toList (ms : Duration → Nat) (dist : DelayDist) :
    ∃ n t, (dist.describe ms).toList = Nat.toDigits 10 n ++ t := by
  cases dist with
  | fixed d => exact ⟨ms d, _, by simp [DelayDist.describe]; rfl⟩
  | uniform min max => exact ⟨ms min, _, by simp [DelayDist.describe]; rfl⟩
  | normal mean stddev => exact ⟨ms mean, _, by simp [DelayDist.describe]; rfl⟩

/-- A description starts with a digit, a breakdown with an `f`. -/
theorem breakdown_ne_describe (ms : Duration → Nat) (dist : DelayDist) (e : Nat × String)
    (entries : List (Nat × String)) : breakdown (e :: entries) ≠ dist.describe ms := by
  intro h
  have hbreakdown : (breakdown (e :: entries)).toList.head? = some 'f' := by
    cases entries <;> simp [breakdown, fromSource]
  obtain ⟨n, t, hdesc⟩ := describe_toList ms dist
  obtain ⟨c, ds, hc⟩ := List.exists_cons_of_ne_nil (Nat.toDigits_ne_nil (b := 10) (n := n))
  have hdigit : c.isDigit = true := Text.isDigit_of_mem_toDigits (hc ▸ List.mem_cons_self)
  rw [h, hdesc, hc] at hbreakdown
  cases Option.some.inj hbreakdown
  cases hdigit

/-! ## What is collected -/

section
variable {ms : Duration → Nat} {cfg : LatencyConfig} {node numNodes : Nat}

/-- Another node of the cluster. -/
def Source (node numNodes src : Nat) : Prop := src < numNodes ∧ src ≠ node

theorem mem_perSrc {src : Nat} {desc : String} :
    (src, desc) ∈ perSrc ms cfg node numNodes ↔
      Source node numNodes src ∧
        (cfg.resolve src node).map (DelayDist.describe ms) = some desc := by
  simp only [perSrc, List.mem_filterMap, List.mem_filter, List.mem_range, bne_iff_ne, Source]
  constructor
  · rintro ⟨src', hsrc, he⟩
    obtain ⟨dist, hr, he⟩ := Option.map_eq_some_iff.1 he
    cases he
    exact ⟨hsrc, by rw [hr]; rfl⟩
  · rintro ⟨hsrc, he⟩
    obtain ⟨dist, hr, rfl⟩ := Option.map_eq_some_iff.1 he
    exact ⟨src, hsrc, by rw [hr]; rfl⟩

/-- Some distribution shapes the link from this source. -/
def Shaped (cfg : LatencyConfig) (node src : Nat) : Prop := ∃ dist, cfg.resolve src node = some dist

/-- Two links are shaped by distributions that are described differently. -/
def Differ (ms : Duration → Nat) (cfg : LatencyConfig) (node numNodes : Nat) : Prop :=
  ∃ src src' dist dist', Source node numNodes src ∧ Source node numNodes src' ∧
    cfg.resolve src node = some dist ∧ cfg.resolve src' node = some dist' ∧
    dist.describe ms ≠ dist'.describe ms

/-- Nothing is collected, one description, or several. -/
theorem describeInbound_cases (ms : Duration → Nat) (cfg : LatencyConfig) (node numNodes : Nat) :
    (cfg.describeInbound ms node numNodes = none ∧
      ∀ src, Source node numNodes src → cfg.resolve src node = none) ∨
    (∃ src dist, Source node numNodes src ∧ cfg.resolve src node = some dist ∧
      cfg.describeInbound ms node numNodes = some (dist.describe ms) ∧
      ∀ src' dist', Source node numNodes src' → cfg.resolve src' node = some dist' →
        dist'.describe ms = dist.describe ms) ∨
    (Differ ms cfg node numNodes ∧ perSrc ms cfg node numNodes ≠ [] ∧
      cfg.describeInbound ms node numNodes = some (breakdown (perSrc ms cfg node numNodes))) := by
  have hmem := @mem_perSrc ms cfg node numNodes
  unfold LatencyConfig.describeInbound
  cases hp : perSrc ms cfg node numNodes with
  | nil =>
    refine .inl ⟨rfl, fun src hsrc => ?_⟩
    cases hr : cfg.resolve src node with
    | none => rfl
    | some dist =>
      have hin := hmem.2 ⟨hsrc, congrArg (Option.map (DelayDist.describe ms)) hr⟩
      rw [hp] at hin
      cases hin
  | cons e entries =>
    rw [hp] at hmem
    obtain ⟨hsrc, he⟩ := hmem.1 (show (e.1, e.2) ∈ e :: entries from List.mem_cons_self)
    obtain ⟨dist, hr, hdesc⟩ := Option.map_eq_some_iff.1 he
    dsimp only
    split
    · rename_i hall
      refine .inr (.inl ⟨e.1, dist, hsrc, hr, by rw [hdesc], fun src' dist' hsrc' hr' => ?_⟩)
      have hin := hmem.2 ⟨hsrc', congrArg (Option.map (DelayDist.describe ms)) hr'⟩
      rw [hdesc]
      exact eq_of_beq (List.all_eq_true.1 hall _ hin)
    · rename_i hall
      obtain ⟨e', hin, hne⟩ : ∃ e' ∈ e :: entries, e'.2 ≠ e.2 := by simpa using hall
      obtain ⟨hsrc', he'⟩ := hmem.1 (show (e'.1, e'.2) ∈ e :: entries from hin)
      obtain ⟨dist', hr', hdesc'⟩ := Option.map_eq_some_iff.1 he'
      exact .inr (.inr ⟨⟨e'.1, e.1, dist', dist, hsrc', hsrc, hr', hr, by rwa [hdesc, hdesc']⟩,
        List.cons_ne_nil _ _, rfl⟩)

/-- **A breakdown can be read back**: for each source, its description or that it has none. -/
theorem reports_breakdown (hne : perSrc ms cfg node numNodes ≠ []) {src : Nat}
    (hsrc : Source node numNodes src) (desc : String) :
    reports (breakdown (perSrc ms cfg node numNodes)) src desc = true ↔
      (cfg.resolve src node).map (DelayDist.describe ms) = some desc := by
  have hlines : ∀ s ∈ (perSrc ms cfg node numNodes).map fromSource,
      ',' ∉ s.toList ∧ Text.trimStart s.toList = s.toList := by
    intro s hs
    obtain ⟨e, he, rfl⟩ := List.mem_map.1 hs
    obtain ⟨-, hd⟩ := mem_perSrc.1 (show (e.1, e.2) ∈ _ from he)
    obtain ⟨dist, -, hdesc⟩ := Option.map_eq_some_iff.1 hd
    rw [fromSource_toList, ← hdesc]
    have hdigits := Text.notMem_toDigits (c := ',') (by decide) e.1
    have hcomma := comma_notMem_describe ms dist
    exact ⟨by simp [hdigits, hcomma], rfl⟩
  have hentries := entriesOf_intercalate (mt List.map_eq_nil_iff.1 hne) hlines
  unfold reports breakdown
  rw [hentries, List.contains_iff_mem, List.mem_map]
  constructor
  · rintro ⟨s, hs, he⟩
    obtain ⟨e, hin, rfl⟩ := List.mem_map.1 hs
    cases fromSource_inj (String.toList_inj.1 he)
    exact (mem_perSrc.1 hin).2
  · intro h
    exact ⟨_, List.mem_map_of_mem (mem_perSrc.2 ⟨hsrc, h⟩), rfl⟩

end

/-! ## Faithfulness -/

/-- One description means that every inbound link has it, nothing means that no link is
delayed, and any other text tells the delay of every source. -/
structure Faithful (ms : Duration → Nat) (cfg : LatencyConfig) (node numNodes : Nat) : Prop where
  single : ∀ dist : DelayDist, cfg.describeInbound ms node numNodes = some (dist.describe ms) ↔
    (∃ src, Source node numNodes src) ∧ ∀ src, Source node numNodes src →
      (cfg.resolve src node).map (DelayDist.describe ms) = some (dist.describe ms)
  nothing : cfg.describeInbound ms node numNodes = none ↔
    ∀ src, Source node numNodes src → cfg.resolve src node = none
  told : ∀ text, cfg.describeInbound ms node numNodes = some text →
    (∀ dist : DelayDist, dist.describe ms ≠ text) →
    ∀ src, Source node numNodes src → ∀ desc, reports text src desc = true ↔
      (cfg.resolve src node).map (DelayDist.describe ms) = some desc

section
variable {ms : Duration → Nat} {cfg : LatencyConfig} {node numNodes : Nat}

theorem describeInbound_eq_none_iff :
    cfg.describeInbound ms node numNodes = none ↔
      ∀ src, Source node numNodes src → cfg.resolve src node = none := by
  rcases describeInbound_cases ms cfg node numNodes with ⟨hn, hnone⟩ |
    ⟨src, dist, hsrc, hr, hres, -⟩ | ⟨⟨src, -, dist, -, hsrc, -, hr, -⟩, -, hres⟩
  · exact ⟨fun _ => hnone, fun _ => hn⟩
  all_goals
    constructor
    · intro h
      cases h.symm.trans hres
    · intro h
      cases (h src hsrc).symm.trans hr

/-- Links that are all shaped with one description get that description. -/
theorem describeInbound_of_same {desc : String} (hsome : ∃ src, Source node numNodes src)
    (hall : ∀ src, Source node numNodes src →
      (cfg.resolve src node).map (DelayDist.describe ms) = some desc) :
    cfg.describeInbound ms node numNodes = some desc := by
  obtain ⟨src, hsrc⟩ := hsome
  obtain ⟨dist, hr, hdesc⟩ := Option.map_eq_some_iff.1 (hall src hsrc)
  rcases describeInbound_cases ms cfg node numNodes with ⟨-, hnone⟩ |
    ⟨_, _, -, -, hres, hsame⟩ | ⟨⟨a, b, da, db, ha, hb, hra, hrb, hdiff⟩, -⟩
  · cases (hnone src hsrc).symm.trans hr
  · rw [hres, ← hsame src dist hsrc hr, hdesc]
  · have hda := hall a ha
    have hdb := hall b hb
    rw [hra] at hda
    rw [hrb] at hdb
    cases hdiff (Option.some.inj (hda.trans hdb.symm))

/-- A description is given where every shaped link has it. -/
theorem same_of_describeInbound {dist : DelayDist}
    (h : cfg.describeInbound ms node numNodes = some (dist.describe ms)) :
    (∃ src, Source node numNodes src ∧ Shaped cfg node src) ∧
      ∀ src d, Source node numNodes src → cfg.resolve src node = some d →
        d.describe ms = dist.describe ms := by
  rcases describeInbound_cases ms cfg node numNodes with ⟨hn, -⟩ |
    ⟨src, d, hsrc, hr, hres, hsame⟩ | ⟨-, hne, hres⟩
  · cases hn.symm.trans h
  · have hdesc := Option.some.inj (hres.symm.trans h)
    exact ⟨⟨src, hsrc, d, hr⟩, fun src' d' hsrc' hr' => (hsame src' d' hsrc' hr').trans hdesc⟩
  · obtain ⟨e, entries, hp⟩ := List.exists_cons_of_ne_nil hne
    rw [hp] at hres
    cases breakdown_ne_describe ms dist e entries (Option.some.inj (hres.symm.trans h))

/-- A text that is no description is a breakdown. -/
theorem told_of_describeInbound {text : String}
    (h : cfg.describeInbound ms node numNodes = some text)
    (hnot : ∀ dist : DelayDist, dist.describe ms ≠ text) {src : Nat}
    (hsrc : Source node numNodes src) (desc : String) :
    reports text src desc = true ↔
      (cfg.resolve src node).map (DelayDist.describe ms) = some desc := by
  rcases describeInbound_cases ms cfg node numNodes with ⟨hn, -⟩ | ⟨_, dist, -, -, hres, -⟩ |
    ⟨-, hne, hres⟩
  · cases hn.symm.trans h
  · cases hnot dist (Option.some.inj (hres.symm.trans h))
  · obtain rfl := Option.some.inj (hres.symm.trans h)
    exact reports_breakdown hne hsrc desc

end

/-- **The description is faithful exactly if the inbound links are all shaped, none is, or
two of them are described differently.** -/
theorem faithful_iff (ms : Duration → Nat) (cfg : LatencyConfig) (node numNodes : Nat) :
    Faithful ms cfg node numNodes ↔
      (∀ src, Source node numNodes src → Shaped cfg node src) ∨
      (∀ src, Source node numNodes src → ¬Shaped cfg node src) ∨
      Differ ms cfg node numNodes := by
  constructor
  · intro h
    rcases describeInbound_cases ms cfg node numNodes with ⟨-, hnone⟩ |
      ⟨src, dist, -, -, hres, -⟩ | ⟨hdiffer, -⟩
    · refine .inr (.inl fun src hsrc ⟨dist, hr⟩ => ?_)
      cases (hnone src hsrc).symm.trans hr
    · -- one description is given, so every link must have it
      refine .inl fun src' hsrc' => ?_
      obtain ⟨dist', hr', -⟩ := Option.map_eq_some_iff.1 (((h.single dist).1 hres).2 src' hsrc')
      exact ⟨dist', hr'⟩
    · exact .inr (.inr hdiffer)
  · intro hcond
    refine ⟨fun dist => ⟨fun hres => ?_, fun h => describeInbound_of_same h.1 h.2⟩,
      describeInbound_eq_none_iff,
      fun text htext hnot src hsrc desc => told_of_describeInbound htext hnot hsrc desc⟩
    obtain ⟨⟨src, hsrc, hshaped⟩, hsame⟩ := same_of_describeInbound hres
    refine ⟨⟨src, hsrc⟩, fun src' hsrc' => ?_⟩
    rcases hcond with hall | hnot | ⟨a, b, da, db, ha, hb, hra, hrb, hdiff⟩
    · obtain ⟨d, hd⟩ := hall src' hsrc'
      rw [hd, Option.map_some, hsame src' d hsrc' hd]
    · cases hnot src hsrc hshaped
    · cases hdiff ((hsame a da ha hra).trans (hsame b db hb hrb).symm)

/-- Link 0 → 2 has a delay of 100 ms, link 1 → 2 has none. -/
def oneShaped : LatencyConfig := ⟨none, ∅, AList.singleton (0, 2) (.fixed 100000000)⟩

theorem unshaped_link_vanishes :
    (∀ ms, oneShaped.describeInbound ms 2 3 = some (toString (ms 100000000) ++ "ms")) ∧
    oneShaped.resolve 1 2 = none ∧ ∀ ms, ¬Faithful ms oneShaped 2 3 := by
  have hres : ∀ ms, oneShaped.describeInbound ms 2 3 =
      some ((DelayDist.fixed 100000000).describe ms) := by
    intro ms
    have hp : perSrc ms oneShaped 2 3 = [(0, (DelayDist.fixed 100000000).describe ms)] := rfl
    simp [LatencyConfig.describeInbound, hp]
  refine ⟨hres, rfl, fun ms h => ?_⟩
  have hall := ((h.single (.fixed 100000000)).1 (hres ms)).2 1 ⟨by decide, by decide⟩
  cases hall

end Hoprd.Localcluster
