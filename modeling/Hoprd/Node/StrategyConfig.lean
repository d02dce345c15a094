import Hoprd.Rust

/-!
# The strategy stanzas of a node's configuration (`hoprd/src/strategy.rs`)

`MultiStrategyConfig` is a tree: a group of stanzas, each of which is one of
five leaf strategies of `hopr-strategy`, `Passive`, or another group. What the
leaf stanzas contain belongs to `hopr-strategy`; the model takes their types and
validators as parameters (`LeafTypes`, `Validators`).

`validate` returns the list of validation errors, each with the path of the
field it is about; a tree passes validation when the list is empty.

The variants that need the `runtime-tokio` feature are always present here: a
binary without it has the trees in which none of them occurs.
-/
namespace Hoprd.Strategy

/-- The configuration types of the leaf stanzas. `Pix` is `PixConfig` in a
binary with a deposit pool and `PixNotBuilt` in one without. -/
structure LeafTypes where
  AutoRedeeming : Type
  AutoFunding : Type
  ClosureFinalizer : Type
  ChannelLifecycle : Type
  Pix : Type

abbrev unitLeaves : LeafTypes := ⟨Unit, Unit, Unit, Unit, Unit⟩

mutual

/-- mirrors hoprd/src/strategy.rs:197-225 -/
inductive StrategyKind (T : LeafTypes) where
  | autoRedeeming (cfg : T.AutoRedeeming)
  | autoFunding (cfg : T.AutoFunding)
  | closureFinalizer (cfg : T.ClosureFinalizer)
  | channelLifecycle (cfg : T.ChannelLifecycle)
  | pix (cfg : T.Pix)
  | multi (cfg : MultiStrategyConfig T)
  | passive

/-- mirrors hoprd/src/strategy.rs:262-290 -/
structure MultiStrategyConfig (T : LeafTypes) where
  allowRecursive : Bool
  executionInterval : Duration
  strategies : List (StrategyKind T)

end

/-- `StrategyKind::to_string` (`strum`, snake case), also the entries of
`StrategyKind::VARIANTS`. -/
def StrategyKind.name {T : LeafTypes} : StrategyKind T → String
  | .autoRedeeming _ => "auto_redeeming"
  | .autoFunding _ => "auto_funding"
  | .closureFinalizer _ => "closure_finalizer"
  | .channelLifecycle _ => "channel_lifecycle"
  | .pix _ => "pix"
  | .multi _ => "multi"
  | .passive => "passive"

def variants : List String :=
  ["auto_redeeming", "auto_funding", "closure_finalizer", "channel_lifecycle", "pix", "multi",
    "passive"]

/-! ## Validation -/

/-- A validation error and the path of the field it is about. -/
structure ValidationError where
  path : List String
  message : String
  deriving DecidableEq, Repr

/-- The validators of the leaf stanzas; `pixBuilt` is the `pix` feature. -/
structure Validators (T : LeafTypes) where
  autoRedeeming : T.AutoRedeeming → List ValidationError
  autoFunding : T.AutoFunding → List ValidationError
  closureFinalizer : T.ClosureFinalizer → List ValidationError
  channelLifecycle : T.ChannelLifecycle → List ValidationError
  pix : T.Pix → List ValidationError
  pixBuilt : Bool

def pixNotBuiltMessage : String :=
  "the configuration contains a `Pix` strategy but this binary was built without a PIX deposit pool. Rebuild with `--features strategy-pix-curvy` (production) or `--features strategy-pix-test` (tests and demo)."

/-- mirrors hoprd/src/strategy.rs:124-132 -/
def validateExecutionInterval (interval : Duration) : List ValidationError :=
  if interval < Duration.fromSecs 10 then
    [⟨["execution_interval"], "strategy execution interval must be at least 10 seconds"⟩]
  else []

/-- The errors of element `i` of a nested list field. -/
def ValidationError.at (field : String) (i : Nat) (e : ValidationError) : ValidationError :=
  { e with path := (field ++ "[" ++ toString i ++ "]") :: e.path }

section
variable {T : LeafTypes} (V : Validators T)

mutual

/-- mirrors hoprd/src/strategy.rs:227-260 -/
def StrategyKind.validate : StrategyKind T → List ValidationError
  | .autoRedeeming cfg => V.autoRedeeming cfg
  | .autoFunding cfg => V.autoFunding cfg
  | .closureFinalizer cfg => V.closureFinalizer cfg
  | .channelLifecycle cfg => V.channelLifecycle cfg
  | .pix cfg => if V.pixBuilt then V.pix cfg else [⟨["Pix"], pixNotBuiltMessage⟩]
  | .multi cfg => cfg.validate
  | .passive => []

/-- The derived `Validate`: the interval's own check and every stanza's.
mirrors hoprd/src/strategy.rs:262-290 -/
def MultiStrategyConfig.validate : MultiStrategyConfig T → List ValidationError
  | ⟨_, interval, strategies⟩ => validateExecutionInterval interval ++ validateEach 0 strategies

/-- `#[validate(nested)]` on the list, from index `i` on. -/
def validateEach (i : Nat) : List (StrategyKind T) → List ValidationError
  | [] => []
  | k :: ks => k.validate.map (ValidationError.at "strategies" i) ++ validateEach (i + 1) ks

end

/-! ## The leaves of a tree -/

mutual

/-- The leaf stanzas below a stanza, each with the execution interval of the
group that directly contains it. -/
def StrategyKind.leaves (interval : Duration) : StrategyKind T → List (Duration × StrategyKind T)
  | .multi cfg => cfg.leaves
  | .passive => []
  | k => [(interval, k)]

/-- The leaf stanzas of a group, at any depth. -/
def MultiStrategyConfig.leaves : MultiStrategyConfig T → List (Duration × StrategyKind T)
  | ⟨_, interval, strategies⟩ => leavesOf interval strategies

def leavesOf (interval : Duration) : List (StrategyKind T) → List (Duration × StrategyKind T)
  | [] => []
  | k :: ks => k.leaves interval ++ leavesOf interval ks

end

mutual

/-- A stanza that passes validation in a binary without a deposit pool has no
`Pix` leaf below it, at any depth. -/
theorem pix_notMem_leaves (hp : V.pixBuilt = false) (p : T.Pix) (d' : Duration) :
    ∀ (k : StrategyKind T) (d : Duration), k.validate V = [] → (d', .pix p) ∉ k.leaves d
  | .autoRedeeming _, _, _ => by simp [StrategyKind.leaves]
  | .autoFunding _, _, _ => by simp [StrategyKind.leaves]
  | .closureFinalizer _, _, _ => by simp [StrategyKind.leaves]
  | .channelLifecycle _, _, _ => by simp [StrategyKind.leaves]
  | .pix _, _, h => by simp [StrategyKind.validate, hp] at h
  | .multi ⟨_, ivl, ks⟩, _, h => by
    simp only [StrategyKind.validate, MultiStrategyConfig.validate, List.append_eq_nil_iff] at h
    simpa only [StrategyKind.leaves, MultiStrategyConfig.leaves] using
      pix_notMem_leavesOf hp p d' ks 0 ivl h.2
  | .passive, _, _ => by simp [StrategyKind.leaves]

theorem pix_notMem_leavesOf (hp : V.pixBuilt = false) (p : T.Pix) (d' : Duration) :
    ∀ (ks : List (StrategyKind T)) (i : Nat) (d : Duration), validateEach V i ks = [] →
      (d', .pix p) ∉ leavesOf d ks
  | [], _, _, _ => by simp [leavesOf]
  | k :: ks, i, d, h => by
    simp only [validateEach, List.append_eq_nil_iff, List.map_eq_nil_iff] at h
    simp only [leavesOf, List.mem_append, not_or]
    exact ⟨pix_notMem_leaves hp p d' k d h.1, pix_notMem_leavesOf hp p d' ks (i + 1) d h.2⟩

end

end

end Hoprd.Strategy
