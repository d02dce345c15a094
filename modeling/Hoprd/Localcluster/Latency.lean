import Hoprd.Core.Table
import Hoprd.Rust

/-!
# Artificial latency (`localcluster/src/latency.rs`)

A delay distribution and which one shapes a directed link. A draw is whatever
the random generator makes it; the model only keeps what the code guarantees of
it. `Duration::from_secs_f64` panics on a value too large for a `Duration`,
which the tail of a normal distribution can reach.
-/
namespace Hoprd.Localcluster

open Core (Table)

/-- mirrors localcluster/src/latency.rs:12-21 -/
inductive DelayDist where
  | fixed (d : Duration)
  | uniform (min max : Duration)
  | normal (mean stddev : Duration)
  deriving DecidableEq, Repr

/-- `sample` can give this delay; `none` is a panic.
mirrors localcluster/src/latency.rs:37-56 -/
def DelayDist.draws : DelayDist → Option Duration → Bool
  | .fixed d, drawn => drawn == some d
  | .uniform min max, drawn => drawn.isSome && (max ≤ min → drawn = some min)
  | .normal _ _, _ => true

/-- `delay.map(|d| d.sample()).unwrap_or_default()` -/
def draws : Option DelayDist → Option Duration → Bool
  | some dist, drawn => dist.draws drawn
  | none, drawn => drawn == some 0

/-- mirrors localcluster/src/latency.rs:66-75 -/
structure LatencyConfig where
  default : Option DelayDist
  perNode : Table Nat DelayDist
  perLink : Table (Nat × Nat) DelayDist

/-- mirrors localcluster/src/latency.rs:85-92 -/
def LatencyConfig.resolve (cfg : LatencyConfig) (src dst : Nat) : Option DelayDist :=
  ((cfg.perLink.lookup (src, dst)).or (cfg.perNode.lookup dst)).or cfg.default

/-- The delay every datagram has when there is no or a fixed one. -/
def constantDelay : Option DelayDist → Option Duration
  | none => some 0
  | some (.fixed d) => some d
  | some _ => none

theorem draws_constant {delay : Option DelayDist} {d : Duration} (h : constantDelay delay = some d)
    {drawn : Option Duration} (hd : draws delay drawn = true) : drawn = some d := by
  match delay, h with
  | none, h => cases h; exact eq_of_beq hd
  | some (.fixed _), h => cases h; exact eq_of_beq hd

end Hoprd.Localcluster
