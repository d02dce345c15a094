import Hoprd.Node.StrategyConfig
import Mathlib.Data.List.Perm.Basic

/-!
# Building the strategies (`build_strategies`, `hoprd/src/strategy.rs`)

`build_strategies` seeds the gauges of all strategy kinds to 0 and walks the
tree. Each leaf stanza is built by its `hopr-strategy` builder (`Builders`), and
a builder's error ends the whole walk. A `Multi` stanza is built when the group
that contains it has `allow_recursive` set, with the flag cleared for its own
children; otherwise it is logged and skipped.

* `buildStrategies_ok`: a successful walk has built exactly the leaves it reached
  (`reached`), in order, each with its builder's result.
* `buildStrategies_error`: the walk fails only when some reached leaf fails.
* `build_strategies_drops_none_iff`: no leaf of the tree is missing from a
  successful result exactly when some reached leaf fails to build (there is no
  successful result) or no skipped group has a leaf below it.
-/
namespace Hoprd.Strategy

inductive BuildError (E : Type) where
  /-- `StrategyError` of a builder, through `?`. -/
  | strategy (e : E)
  | bail (message : String)
  deriving DecidableEq, Repr

/-- The builders of `hopr-strategy`: a strategy or an error, each on its own. -/
structure Builders (T : LeafTypes) (S E : Type) where
  autoRedeeming : T.AutoRedeeming → Duration → Except E S
  autoFunding : T.AutoFunding → Duration → Except E S
  closureFinalizer : T.ClosureFinalizer → Duration → Except E S
  channelLifecycle : T.ChannelLifecycle → Except E S
  pix : T.Pix → Except E S
  pixBuilt : Bool

/-- What `build` returns: a leaf strategy or a `MultiStrategy` of the built ones. -/
inductive Built (S : Type) where
  | strategy (s : S)
  | multi (strategies : List (Built S))

/-- `hopr_strategy_enabled_strategies`, one gauge for each kind. -/
abbrev Gauges := String → Nat

def Gauges.set (g : Gauges) (name : String) (v : Nat) : Gauges :=
  fun n => if n = name then v else g n

section
variable {T : LeafTypes} {S E : Type} (B : Builders T S E)

abbrev BuildResult (S E : Type) := Except (BuildError E) (List (Built S)) × Gauges

/-- `strategies.push(build(..)?)` and the telemetry update after the match. -/
def pushBuilt (name : String) (r : Except E S) (g : Gauges) : BuildResult S E :=
  match r with
  | .error e => (.error (.strategy e), g)
  | .ok s => (.ok [.strategy s], g.set name 1)

mutual

/-- One round of the loop: the strategies the stanza adds, and the gauges.
mirrors hoprd/src/strategy.rs:441-541 -/
def buildStanza (allowRecursive : Bool) (interval : Duration) :
    StrategyKind T → Gauges → BuildResult S E
  | .autoRedeeming cfg, g => pushBuilt "auto_redeeming" (B.autoRedeeming cfg interval) g
  | .autoFunding cfg, g => pushBuilt "auto_funding" (B.autoFunding cfg interval) g
  | .closureFinalizer cfg, g => pushBuilt "closure_finalizer" (B.closureFinalizer cfg interval) g
  | .pix cfg, g =>
    if B.pixBuilt then pushBuilt "pix" (B.pix cfg) g
    else (.error (.bail pixNotBuiltMessage), g)
  | .channelLifecycle cfg, g => pushBuilt "channel_lifecycle" (B.channelLifecycle cfg) g
  | .multi cfg, g =>
    if allowRecursive then
      -- the child is built as a clone with `allow_recursive = false`
      match buildGroup false cfg g with
      | (.error e, g) => (.error e, g)
      | (.ok built, g) => (.ok [built], g.set "multi" 1)
    else (.ok [], g)
  | .passive, g => (.ok [], g)

/-- `build_strategies_inner` with the group's own flag replaced by
`allowRecursive`. mirrors hoprd/src/strategy.rs:431-545 -/
def buildGroup (allowRecursive : Bool) :
    MultiStrategyConfig T → Gauges → Except (BuildError E) (Built S) × Gauges
  | ⟨_, interval, strategies⟩, g =>
    match buildLoop allowRecursive interval strategies g with
    | (.error e, g) => (.error e, g)
    | (.ok built, g) => (.ok (.multi built), g)

/-- `for strategy in cfg.strategies.iter()`. -/
def buildLoop (allowRecursive : Bool) (interval : Duration) :
    List (StrategyKind T) → Gauges → BuildResult S E
  | [], g => (.ok [], g)
  | k :: ks, g =>
    match buildStanza allowRecursive interval k g with
    | (.error e, g) => (.error e, g)
    | (.ok built, g) =>
      match buildLoop allowRecursive interval ks g with
      | (.error e, g) => (.error e, g)
      | (.ok rest, g) => (.ok (built ++ rest), g)

end

/-- mirrors hoprd/src/strategy.rs:406-545 -/
def buildStrategiesInner (cfg : MultiStrategyConfig T) (g : Gauges) :
    Except (BuildError E) (Built S) × Gauges :=
  buildGroup B cfg.allowRecursive cfg g

/-- mirrors hoprd/src/strategy.rs:354-389 -/
def buildStrategies (cfg : MultiStrategyConfig T) (g : Gauges) :
    Except (BuildError E) (Built S) × Gauges :=
  buildStrategiesInner B cfg (variants.foldl (fun g name => g.set name 0) g)

end

/-! ## Which leaves the walk reaches -/

section
variable {T : LeafTypes}

mutual

/-- The leaf stanzas the walk builds below a stanza. -/
def StrategyKind.reached (allowRecursive : Bool) (interval : Duration) :
    StrategyKind T → List (Duration × StrategyKind T)
  | .multi cfg => if allowRecursive then cfg.reachedIn false else []
  | .passive => []
  | k => [(interval, k)]

def MultiStrategyConfig.reachedIn (allowRecursive : Bool) :
    MultiStrategyConfig T → List (Duration × StrategyKind T)
  | ⟨_, interval, strategies⟩ => reachedOf allowRecursive interval strategies

def reachedOf (allowRecursive : Bool) (interval : Duration) :
    List (StrategyKind T) → List (Duration × StrategyKind T)
  | [] => []
  | k :: ks => k.reached allowRecursive interval ++ reachedOf allowRecursive interval ks

end

def MultiStrategyConfig.reached (cfg : MultiStrategyConfig T) : List (Duration × StrategyKind T) :=
  cfg.reachedIn cfg.allowRecursive

mutual

/-- The leaf stanzas below a group that the walk does not enter. -/
def StrategyKind.skipped (allowRecursive : Bool) : StrategyKind T → List (Duration × StrategyKind T)
  | .multi cfg => if allowRecursive then cfg.skippedIn false else cfg.leaves
  | _ => []

def MultiStrategyConfig.skippedIn (allowRecursive : Bool) :
    MultiStrategyConfig T → List (Duration × StrategyKind T)
  | ⟨_, _, strategies⟩ => skippedOf allowRecursive strategies

def skippedOf (allowRecursive : Bool) : List (StrategyKind T) → List (Duration × StrategyKind T)
  | [] => []
  | k :: ks => k.skipped allowRecursive ++ skippedOf allowRecursive ks

end

/-- The leaf stanzas of the tree that lie below a group the walk does not enter:
a group inside a top level without `allow_recursive`, or inside another group. -/
def MultiStrategyConfig.skipped (cfg : MultiStrategyConfig T) : List (Duration × StrategyKind T) :=
  cfg.skippedIn cfg.allowRecursive

mutual

theorem leaves_perm : ∀ (k : StrategyKind T) (a : Bool) (d : Duration),
    (k.leaves d).Perm (k.reached a d ++ k.skipped a)
  | .multi cfg, true, _ => by
    simpa only [StrategyKind.leaves, StrategyKind.reached, StrategyKind.skipped, if_true] using
      leaves_perm_in cfg false
  | .multi _, false, _ => by
    simp [StrategyKind.leaves, StrategyKind.reached, StrategyKind.skipped]
  | .autoRedeeming _, _, _ | .autoFunding _, _, _ | .closureFinalizer _, _, _
  | .channelLifecycle _, _, _ | .pix _, _, _ | .passive, _, _ => by
    simp [StrategyKind.leaves, StrategyKind.reached, StrategyKind.skipped]

theorem leaves_perm_in : ∀ (cfg : MultiStrategyConfig T) (a : Bool),
    cfg.leaves.Perm (cfg.reachedIn a ++ cfg.skippedIn a)
  | ⟨_, ivl, ks⟩, a => by
    simpa only [MultiStrategyConfig.leaves, MultiStrategyConfig.reachedIn,
      MultiStrategyConfig.skippedIn] using leaves_perm_of ks a ivl

theorem leaves_perm_of : ∀ (ks : List (StrategyKind T)) (a : Bool) (d : Duration),
    (leavesOf d ks).Perm (reachedOf a d ks ++ skippedOf a ks)
  | [], _, _ => by simp [leavesOf, reachedOf, skippedOf]
  | k :: ks, a, d => by
    have h := (leaves_perm k a d).append (leaves_perm_of ks a d)
    simp only [leavesOf, reachedOf, skippedOf, List.append_assoc] at h ⊢
    exact h.trans ((List.perm_append_comm_assoc _ _ _).append_left _)

end

end

/-! ## What a walk returns -/

section
variable {T : LeafTypes} {S E : Type} (B : Builders T S E)

mutual

/-- The strategies in a built tree. -/
def Built.leaves : Built S → List S
  | .strategy s => [s]
  | .multi bs => builtLeaves bs

def builtLeaves : List (Built S) → List S
  | [] => []
  | b :: bs => b.leaves ++ builtLeaves bs

end

theorem builtLeaves_append (bs cs : List (Built S)) :
    builtLeaves (bs ++ cs) = builtLeaves bs ++ builtLeaves cs := by
  induction bs with
  | nil => simp [builtLeaves]
  | cons b bs ih => simp [builtLeaves, ih]

/-- The builder's answer for a leaf stanza of a group with this interval;
`none` for `Multi` and `Passive`. -/
def buildLeaf (interval : Duration) : StrategyKind T → Option (Except (BuildError E) S)
  | .autoRedeeming cfg => some ((B.autoRedeeming cfg interval).mapError .strategy)
  | .autoFunding cfg => some ((B.autoFunding cfg interval).mapError .strategy)
  | .closureFinalizer cfg => some ((B.closureFinalizer cfg interval).mapError .strategy)
  | .channelLifecycle cfg => some ((B.channelLifecycle cfg).mapError .strategy)
  | .pix cfg =>
    some (if B.pixBuilt then (B.pix cfg).mapError .strategy else .error (.bail pixNotBuiltMessage))
  | .multi _ => none
  | .passive => none

/-- `s` is the strategy built from the leaf stanza `l`. -/
def BuiltFrom (l : Duration × StrategyKind T) (s : S) : Prop := buildLeaf B l.1 l.2 = some (.ok s)

/-- Building the leaf stanza `l` fails. -/
def FailsToBuild (l : Duration × StrategyKind T) : Prop :=
  ∃ e, buildLeaf B l.1 l.2 = some (.error e)

theorem BuiltFrom.not_fails {l : Duration × StrategyKind T} {s : S} (h : BuiltFrom B l s) :
    ¬FailsToBuild B l := by
  intro hf
  obtain ⟨e, he⟩ := hf
  rw [BuiltFrom, he] at h
  cases h

/-- A walk over the leaves `ls`: it built all of them, in order, or one failed. -/
def Walk (ls : List (Duration × StrategyKind T)) : Except (BuildError E) (List S) → Prop
  | .ok ss => List.Forall₂ (BuiltFrom B) ls ss
  | .error _ => ∃ l ∈ ls, FailsToBuild B l

theorem walk_nil : Walk B [] (.ok []) := .nil

theorem walk_append {ls ls' : List (Duration × StrategyKind T)} {ss : List S}
    {r : Except (BuildError E) (List S)} (h : Walk B ls (.ok ss)) (h' : Walk B ls' r) :
    Walk B (ls ++ ls') (r.map fun ss' => ss ++ ss') := by
  cases r with
  | ok ss' => exact List.rel_append h h'
  | error e =>
    obtain ⟨l, hl, hf⟩ := h'
    exact ⟨l, List.mem_append_right _ hl, hf⟩

theorem walk_error_append {ls : List (Duration × StrategyKind T)} {e : BuildError E}
    (ls' : List (Duration × StrategyKind T)) (h : Walk (S := S) B ls (.error e)) :
    Walk (S := S) B (ls ++ ls') (.error e) := by
  obtain ⟨l, hl, hf⟩ := h
  exact ⟨l, List.mem_append_left _ hl, hf⟩

/-- A leaf stanza: its builder's answer, pushed. -/
theorem pushBuilt_walk {d : Duration} {k : StrategyKind T} {r : Except E S} (name : String)
    (g : Gauges) (h : buildLeaf B d k = some (r.mapError .strategy)) :
    Walk B [(d, k)] ((pushBuilt name r g).1.map builtLeaves) := by
  cases r with
  | ok s => exact .cons h .nil
  | error e => exact ⟨(d, k), List.mem_singleton_self _, .strategy e, h⟩

mutual

theorem buildStanza_walk : ∀ (k : StrategyKind T) (a : Bool) (d : Duration) (g : Gauges),
    Walk B (k.reached a d) ((buildStanza B a d k g).1.map builtLeaves)
  | .autoRedeeming _, _, _, g | .autoFunding _, _, _, g | .closureFinalizer _, _, _, g
  | .channelLifecycle _, _, _, g => by
    simpa only [StrategyKind.reached, buildStanza] using pushBuilt_walk B _ g rfl
  | .pix cfg, _, d, g => by
    simp only [StrategyKind.reached, buildStanza]
    split
    · rename_i hp
      exact pushBuilt_walk B _ g (by simp [buildLeaf, hp])
    · rename_i hp
      exact ⟨(d, .pix cfg), List.mem_singleton_self _, .bail pixNotBuiltMessage,
        by simp [buildLeaf, hp]⟩
  | .multi cfg, true, _, g => by
    have h := buildGroup_walk cfg false g
    simp only [StrategyKind.reached, buildStanza, if_true]
    split
    · rename_i e _ he; rw [he] at h; exact h
    · rename_i built _ he
      rw [he] at h
      simpa [Except.map, builtLeaves] using h
  | .multi _, false, _, _ => by
    simp only [StrategyKind.reached, buildStanza, Bool.false_eq_true, if_false]
    exact walk_nil B
  | .passive, _, _, _ => by
    simp only [StrategyKind.reached, buildStanza]
    exact walk_nil B

theorem buildGroup_walk : ∀ (cfg : MultiStrategyConfig T) (a : Bool) (g : Gauges),
    Walk B (cfg.reachedIn a) ((buildGroup B a cfg g).1.map Built.leaves)
  | ⟨_, ivl, ks⟩, a, g => by
    have h := buildLoop_walk ks a ivl g
    simp only [MultiStrategyConfig.reachedIn, buildGroup]
    split
    · rename_i e _ he; rw [he] at h; exact h
    · rename_i built _ he; rw [he] at h; simpa [Except.map, Built.leaves] using h

theorem buildLoop_walk : ∀ (ks : List (StrategyKind T)) (a : Bool) (d : Duration) (g : Gauges),
    Walk B (reachedOf a d ks) ((buildLoop B a d ks g).1.map builtLeaves)
  | [], _, _, _ => by
    simp only [reachedOf, buildLoop]
    exact walk_nil B
  | k :: ks, a, d, g => by
    have h := buildStanza_walk k a d g
    simp only [reachedOf, buildLoop]
    split
    · rename_i e _ he; rw [he] at h; exact walk_error_append B _ h
    · rename_i built g' he
      rw [he] at h
      have h' := walk_append B h (buildLoop_walk ks a d g')
      split
      · rename_i e _ he'; rw [he'] at h'; exact h'
      · rename_i rest _ he'
        rw [he'] at h'
        simpa [Except.map, builtLeaves_append] using h'

end

/-! ## Nothing is dropped -/

/-- A successful result holds every leaf stanza of the tree, built exactly once:
its strategies are, in some order, one for each leaf stanza. -/
def NoneDropped (cfg : MultiStrategyConfig T) (r : Except (BuildError E) (Built S)) : Prop :=
  ∀ t, r = .ok t → ∃ ss, List.Forall₂ (BuiltFrom B) cfg.leaves ss ∧ ss.Perm t.leaves

theorem buildStrategies_walk (cfg : MultiStrategyConfig T) (g : Gauges) :
    Walk B cfg.reached ((buildStrategies B cfg g).1.map Built.leaves) :=
  buildGroup_walk B cfg cfg.allowRecursive _

/-- A successful result has built exactly the leaves the walk reached, in order. -/
theorem buildStrategies_ok {cfg : MultiStrategyConfig T} {g : Gauges} {t : Built S}
    (h : (buildStrategies B cfg g).1 = .ok t) :
    List.Forall₂ (BuiltFrom B) cfg.reached t.leaves := by
  have hw := buildStrategies_walk B cfg g
  rw [h] at hw
  exact hw

/-- The walk fails only on a leaf it reached that fails to build. -/
theorem buildStrategies_error {cfg : MultiStrategyConfig T} {g : Gauges} {e : BuildError E}
    (h : (buildStrategies B cfg g).1 = .error e) : ∃ l ∈ cfg.reached, FailsToBuild B l := by
  have hw := buildStrategies_walk B cfg g
  rw [h] at hw
  exact hw

theorem forall₂_builtFrom_not_fails {ls : List (Duration × StrategyKind T)} {ss : List S}
    (h : List.Forall₂ (BuiltFrom B) ls ss) : ∀ l ∈ ls, ¬FailsToBuild B l := by
  induction h with
  | nil => intro l hl; cases hl
  | cons hb _ ih =>
    intro l hl
    rcases List.mem_cons.1 hl with rfl | hl
    · exact hb.not_fails B
    · exact ih l hl

/-- **No strategy stanza is dropped** exactly when some stanza the walk reaches
fails to build, so that there is no result, or no leaf stanza lies below a group
the walk does not enter. -/
theorem build_strategies_drops_none_iff (cfg : MultiStrategyConfig T) (g : Gauges) :
    NoneDropped B cfg (buildStrategies B cfg g).1 ↔
      (∃ l ∈ cfg.reached, FailsToBuild B l) ∨ cfg.skipped = [] := by
  have hperm : cfg.leaves.Perm (cfg.reached ++ cfg.skipped) := leaves_perm_in cfg _
  constructor
  · intro h
    cases hr : (buildStrategies B cfg g).1 with
    | error e => exact .inl (buildStrategies_error B hr)
    | ok t =>
      right
      obtain ⟨ss, hss, hp⟩ := h t hr
      have h1 := hss.length_eq
      have h2 := (buildStrategies_ok B hr).length_eq
      have h3 := hp.length_eq
      have h4 := hperm.length_eq
      rw [List.length_append] at h4
      exact List.length_eq_zero_iff.1 (by omega)
  · intro h t ht
    rcases h with ⟨l, hl, hf⟩ | hs
    · exact absurd hf (forall₂_builtFrom_not_fails B (buildStrategies_ok B ht) l hl)
    · rw [hs, List.append_nil] at hperm
      exact List.perm_comp_forall₂ hperm (buildStrategies_ok B ht)

end

/-! ## A dropped `Pix` stanza -/

/-- Leaf stanzas that are all valid, in a binary with a deposit pool. -/
def acceptAll : Validators unitLeaves where
  autoRedeeming _ := []
  autoFunding _ := []
  closureFinalizer _ := []
  channelLifecycle _ := []
  pix _ := []
  pixBuilt := true

/-- Builders that all succeed. -/
def buildAll : Builders unitLeaves String Unit where
  autoRedeeming _ _ := .ok "auto_redeeming"
  autoFunding _ _ := .ok "auto_funding"
  closureFinalizer _ _ := .ok "closure_finalizer"
  channelLifecycle _ := .ok "channel_lifecycle"
  pix _ := .ok "pix"
  pixBuilt := true

/-- A `Pix` stanza two groups deep, every group with `allow_recursive`. -/
def nestedPix : MultiStrategyConfig unitLeaves :=
  ⟨true, Duration.fromSecs 60, [.multi ⟨true, Duration.fromSecs 60,
    [.multi ⟨true, Duration.fromSecs 60, [.pix ()]⟩]⟩]⟩

/-- The tree passes validation and is built without an error, and its only
stanza is missing from the result. -/
theorem nested_pix_dropped : nestedPix.validate acceptAll = [] ∧
    (buildStrategies buildAll nestedPix fun _ => 0).1 = .ok (.multi [.multi []]) ∧
    ¬NoneDropped buildAll nestedPix (buildStrategies buildAll nestedPix fun _ => 0).1 := by
  have hr : (buildStrategies buildAll nestedPix fun _ => 0).1 = .ok (.multi [.multi []]) := rfl
  refine ⟨rfl, hr, fun h => ?_⟩
  obtain ⟨ss, hss, hp⟩ := h _ hr
  have h1 := hss.length_eq
  have h2 := hp.length_eq
  rw [← h1] at h2
  exact absurd h2 (by decide)

end Hoprd.Strategy
