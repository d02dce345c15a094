import Hoprd.Node.LibConfig
import Hoprd.Text

/-!
# Overrides from the environment (`hoprd/src/lib.rs`)

Four variables adjust the library's configuration before the node is built. The
session capacity is assigned when its variable has a number in it; the two
concurrencies of the packet pipeline are assigned whatever their variables have,
and lose the value they had when that is no number (`update_outputConcurrency`).

* `overrides_named_iff`: so the overrides touch only what they name exactly when
  each of these two is given by its variable or was not set before.
-/
namespace Hoprd.Config

open Text (parseU64 parseUnsigned_eq_some_iff trim Numeral)

def OUT_PACKET_PIPELINE_CONCURRENCY : String := "HOPR_INTERNAL_OUT_PACKET_PIPELINE_CONCURRENCY"

def IN_PACKET_PIPELINE_CONCURRENCY : String := "HOPR_INTERNAL_IN_PACKET_PIPELINE_CONCURRENCY"

def SESSION_INCOMING_CAPACITY : String := "HOPR_INTERNAL_SESSION_INCOMING_CAPACITY"

def TEST_DISABLE_CHECKS : String := "HOPR_TEST_DISABLE_CHECKS"

/-- `str::parse::<usize>` on 64 bits. -/
def parseUsize (s : List Char) : Option UInt64 := (parseU64 s).map .ofNat

/-- `std::env::var(key).ok().and_then(|p| p.parse().ok())`. -/
def concurrencyVar (env : Env) (key : String) : Option UInt64 :=
  (env key).toOption.bind fun p => parseUsize p.toList

/-- Trimmed, and positive. -/
def capacityVar (env : Env) : Option UInt64 :=
  ((env SESSION_INCOMING_CAPACITY).toOption.bind fun s =>
    parseUsize (trim s.toList)).filter (0 < ·)

variable {L : LibTypes}

/-- A build with the `session-server` feature, which is on by default; the
protocol checks only look at their variable with `debugAssertions`.
mirrors hoprd/src/lib.rs:330-373 -/
def updateHoprLibConfigFromEnvVars (debugAssertions : Bool) (env : Env) (cfg : HoprLibConfig L) :
    HoprLibConfig L :=
  let cfg := { cfg with
    protocol.packet.pipeline.outputConcurrency :=
      concurrencyVar env OUT_PACKET_PIPELINE_CONCURRENCY }
  let cfg := { cfg with
    protocol.packet.pipeline.inputConcurrency :=
      concurrencyVar env IN_PACKET_PIPELINE_CONCURRENCY }
  let cfg := match capacityVar env with
    | some cap => { cfg with incomingSessionCapacity := cap }
    | none => cfg
  if debugAssertions then
    match env TEST_DISABLE_CHECKS with
    -- no character outside ASCII has `true` as its lower case
    | .ok v => { cfg with disableProtocolChecks := eqIgnoreAsciiCase v "true" }
    | .error _ => cfg
  else cfg

/-! ## What the variables say -/

theorem parseUsize_eq_some_iff {s : List Char} {n : UInt64} :
    parseUsize s = some n ↔ Numeral n.toNat s := by
  unfold parseUsize parseU64
  rw [Option.map_eq_some_iff]
  constructor
  · rintro ⟨m, hm, rfl⟩
    obtain ⟨hnum, hlt⟩ := parseUnsigned_eq_some_iff.1 hm
    rwa [UInt64.toNat_ofNat_of_lt' hlt]
  · intro h
    exact ⟨n.toNat, parseUnsigned_eq_some_iff.2 ⟨h, n.toNat_lt⟩, UInt64.ofNat_toNat⟩

/-- The variable is set to a number of packets to work on at once. -/
def ConcurrencyIs (env : Env) (key : String) (n : UInt64) : Prop :=
  ∃ s, env key = .ok s ∧ Numeral n.toNat s.toList

/-- The variable is set to a positive number, blanks around it allowed. -/
def CapacityIs (env : Env) (n : UInt64) : Prop :=
  ∃ s, env SESSION_INCOMING_CAPACITY = .ok s ∧ Numeral n.toNat (trim s.toList) ∧ 0 < n

theorem toOption_bind_eq_some {α β : Type} {x : Except VarError α} {f : α → Option β} {b : β} :
    x.toOption.bind f = some b ↔ ∃ a, x = .ok a ∧ f a = some b := by
  cases x with
  | error e => simp [Except.toOption]
  | ok a => simp [Except.toOption]

theorem concurrencyIs_iff {env : Env} {key : String} {n : UInt64} :
    concurrencyVar env key = some n ↔ ConcurrencyIs env key n := by
  rw [concurrencyVar, toOption_bind_eq_some]
  simp only [parseUsize_eq_some_iff, ConcurrencyIs]

theorem capacityIs_iff {env : Env} {n : UInt64} :
    capacityVar env = some n ↔ CapacityIs env n := by
  rw [capacityVar, Option.filter_eq_some_iff, toOption_bind_eq_some]
  simp only [parseUsize_eq_some_iff, CapacityIs, decide_eq_true_eq]
  constructor
  · rintro ⟨⟨s, hs, hn⟩, hpos⟩
    exact ⟨s, hs, hn, hpos⟩
  · rintro ⟨s, hs, hn, hpos⟩
    exact ⟨⟨s, hs, hn⟩, hpos⟩

/-! ## The overrides -/

/-- The field has the value that was given, or its prior one when none was. -/
structure Overridden {α : Type} (Given : α → Prop) (prior after : α) : Prop where
  given : ∀ v, Given v → after = v
  absent : (¬∃ v, Given v) → after = prior

/-- The overrides touch only what they name. -/
structure OverridesNamed (env : Env) (cfg after : HoprLibConfig L) : Prop where
  outputConcurrency : Overridden
    (fun v => ∃ n, v = some n ∧ ConcurrencyIs env OUT_PACKET_PIPELINE_CONCURRENCY n)
    cfg.protocol.packet.pipeline.outputConcurrency after.protocol.packet.pipeline.outputConcurrency
  inputConcurrency : Overridden
    (fun v => ∃ n, v = some n ∧ ConcurrencyIs env IN_PACKET_PIPELINE_CONCURRENCY n)
    cfg.protocol.packet.pipeline.inputConcurrency after.protocol.packet.pipeline.inputConcurrency
  incomingSessionCapacity :
    Overridden (CapacityIs env) cfg.incomingSessionCapacity after.incomingSessionCapacity
  checks : (∀ v, env TEST_DISABLE_CHECKS ≠ .ok v) →
    after.disableProtocolChecks = cfg.disableProtocolChecks
  rest : { after with
      protocol.packet.pipeline.outputConcurrency := cfg.protocol.packet.pipeline.outputConcurrency
      protocol.packet.pipeline.inputConcurrency := cfg.protocol.packet.pipeline.inputConcurrency
      incomingSessionCapacity := cfg.incomingSessionCapacity
      disableProtocolChecks := cfg.disableProtocolChecks } = cfg

section
variable (debugAssertions : Bool) (env : Env) (cfg : HoprLibConfig L)

/-- The protocol-check switch afterwards. -/
def checksAfter : Bool :=
  if debugAssertions then
    match env TEST_DISABLE_CHECKS with
    | .ok v => eqIgnoreAsciiCase v "true"
    | .error _ => cfg.disableProtocolChecks
  else cfg.disableProtocolChecks

/-- The four fields that are assigned, together. -/
theorem update_eq :
    updateHoprLibConfigFromEnvVars debugAssertions env cfg = { cfg with
      protocol.packet.pipeline.outputConcurrency :=
        concurrencyVar env OUT_PACKET_PIPELINE_CONCURRENCY
      protocol.packet.pipeline.inputConcurrency :=
        concurrencyVar env IN_PACKET_PIPELINE_CONCURRENCY
      incomingSessionCapacity := (capacityVar env).getD cfg.incomingSessionCapacity
      disableProtocolChecks := checksAfter debugAssertions env cfg } := by
  unfold updateHoprLibConfigFromEnvVars checksAfter
  cases capacityVar env with
  | none =>
    cases debugAssertions with
    | false => rfl
    | true =>
      cases env TEST_DISABLE_CHECKS with
      | error e => rfl
      | ok v => rfl
  | some cap =>
    cases debugAssertions with
    | false => rfl
    | true =>
      cases env TEST_DISABLE_CHECKS with
      | error e => rfl
      | ok v => rfl

theorem checksAfter_of_unset (h : ∀ v, env TEST_DISABLE_CHECKS ≠ .ok v) :
    checksAfter debugAssertions env cfg = cfg.disableProtocolChecks := by
  unfold checksAfter
  split
  · split
    · rename_i v hv
      exact absurd hv (h v)
    · rfl
  · rfl

theorem overridden_concurrency_iff (key : String) (prior : Option UInt64) :
    Overridden (fun v => ∃ n, v = some n ∧ ConcurrencyIs env key n) prior (concurrencyVar env key) ↔
      (∃ n, ConcurrencyIs env key n) ∨ prior = none := by
  constructor
  · intro h
    by_cases hn : ∃ n, ConcurrencyIs env key n
    · exact .inl hn
    · have hnone : concurrencyVar env key = none := by
        rw [Option.eq_none_iff_forall_ne_some]
        exact fun n he => hn ⟨n, concurrencyIs_iff.1 he⟩
      have hprior := h.absent fun ⟨_, n, _, hv⟩ => hn ⟨n, hv⟩
      exact .inr (hprior.symm.trans hnone)
  · intro h
    refine ⟨?_, fun hn => ?_⟩
    · rintro _ ⟨n, rfl, hv⟩
      exact concurrencyIs_iff.2 hv
    · obtain ⟨n, hv⟩ | rfl := h
      · exact absurd ⟨_, n, rfl, hv⟩ hn
      · rw [Option.eq_none_iff_forall_ne_some]
        exact fun n he => hn ⟨_, n, rfl, concurrencyIs_iff.1 he⟩

theorem overridden_capacity (prior : UInt64) :
    Overridden (CapacityIs env) prior ((capacityVar env).getD prior) := by
  refine ⟨fun n hn => ?_, fun hn => ?_⟩
  · have he : capacityVar env = some n := capacityIs_iff.2 hn
    rw [he]
    rfl
  · have he : capacityVar env = none := by
      rw [Option.eq_none_iff_forall_ne_some]
      exact fun n he => hn ⟨n, capacityIs_iff.1 he⟩
    rw [he]
    rfl

/-- The overrides touch only what they name exactly when each concurrency is
given by its variable, or was not set in the first place. -/
theorem overrides_named_iff :
    OverridesNamed env cfg (updateHoprLibConfigFromEnvVars debugAssertions env cfg) ↔
      ((∃ n, ConcurrencyIs env OUT_PACKET_PIPELINE_CONCURRENCY n) ∨
        cfg.protocol.packet.pipeline.outputConcurrency = none) ∧
      ((∃ n, ConcurrencyIs env IN_PACKET_PIPELINE_CONCURRENCY n) ∨
        cfg.protocol.packet.pipeline.inputConcurrency = none) := by
  rw [update_eq]
  constructor
  · intro h
    exact ⟨(overridden_concurrency_iff env _ _).1 h.outputConcurrency,
      (overridden_concurrency_iff env _ _).1 h.inputConcurrency⟩
  · rintro ⟨hout, hin⟩
    exact {
      outputConcurrency := (overridden_concurrency_iff env _ _).2 hout
      inputConcurrency := (overridden_concurrency_iff env _ _).2 hin
      incomingSessionCapacity := overridden_capacity env _
      checks := checksAfter_of_unset debugAssertions env cfg
      rest := rfl }

end

/-! ## A concurrency that is lost -/

/-- The defaults with four packets at once on the way out. -/
def fourOutgoing : HoprLibConfig plainTypes :=
  { plainLib.defaults with protocol.packet.pipeline.outputConcurrency := some 4 }

/-- Nothing is in the environment, and the configured concurrency is gone. -/
theorem empty_environment_resets_concurrency :
    (updateHoprLibConfigFromEnvVars false (fun _ => .error .notPresent)
      fourOutgoing).protocol.packet.pipeline.outputConcurrency = none ∧
    ¬OverridesNamed (fun _ => .error .notPresent) fourOutgoing
      (updateHoprLibConfigFromEnvVars false (fun _ => .error .notPresent) fourOutgoing) := by
  refine ⟨rfl, fun h => ?_⟩
  have hnone : ¬∃ v : Option UInt64, ∃ n, v = some n ∧
      ConcurrencyIs (fun _ => .error .notPresent) OUT_PACKET_PIPELINE_CONCURRENCY n :=
    fun ⟨_, _, _, _, hs, _⟩ => nomatch hs
  exact nomatch h.outputConcurrency.absent hnone

end Hoprd.Config
