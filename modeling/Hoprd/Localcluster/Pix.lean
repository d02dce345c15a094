import Hoprd.Core.Except
import Hoprd.Core.Fields
import Hoprd.Node.LibConfig

/-!
# PIX settings of a cluster (`localcluster/src/identity.rs`)

`PixSettings::from_yaml` reads a partial document over the demo defaults, and four
hand-written conversions carry the settings to the library: `pix_global_config` and
`incoming_pix_config` into the operator's half of a node's configuration
(`node_config`), and `HoprLibConfig.ofUser` from there. The settlement settings go to
the `Pix` stanza and the funding instead.

`PixKey` lists the keys of a document, so that what must hold of every key is one
statement: `Doc.value` is what a document says of a key, `libValue` where the key
ends up.

* `fromYaml_get`: the settings hold the document's value of every key, and the
  default where it has none.
* `fromYaml_error_iff`: a document is refused exactly for an unknown key or a value
  that does not parse.
* `pix_settings_reach`: both, carried through to the library's configuration.
-/
namespace Hoprd.Pix

open Config Core

/-- A `U256` amount of xDai in wei. -/
abbrev XDaiBalance := BitVec 256

/-- mirrors localcluster/src/identity.rs:93-279 -/
structure PixSettings where
  numSsaParts : UInt64
  ssaPartSize : UInt64
  additionalShares : UInt64
  quotaRangeMin : UInt64
  quotaRangeMax : UInt64
  maxSsaDeliveryTime : Duration
  maxDepositWait : Duration
  enforceOnNodes : List UInt64
  ssasPerRequest : UInt64
  maxSsasPerRequest : UInt64
  allowDynamicSsaBatches : Bool
  maxServedWithoutProgress : UInt64
  maxRecoveryTime : Duration
  fillEnabled : Bool
  fillMaxRate : UInt32
  fillFinishFraction : F64
  safeDepositFloat : HoprBalance
  pricePerByte : HoprBalance
  maxSsaAllocation : HoprBalance
  maxSpendPerWindow : HoprBalance
  spendWindow : Duration
  maxDepositTrackingTime : Duration
  gasXdaiPerSweep : XDaiBalance

/-- mirrors localcluster/src/identity.rs:385-420 -/
structure RawPixSettings where
  numSsaParts : Option UInt64
  ssaPartSize : Option UInt64
  additionalShares : Option UInt64
  quotaRangeMin : Option UInt64
  quotaRangeMax : Option UInt64
  maxSsaDeliveryTime : Option Duration
  maxDepositWait : Option Duration
  enforceOnNodes : Option (List UInt64)
  ssasPerRequest : Option UInt64
  maxSsasPerRequest : Option UInt64
  allowDynamicSsaBatches : Option Bool
  maxServedWithoutProgress : Option UInt64
  maxRecoveryTime : Option Duration
  fillEnabled : Option Bool
  fillMaxRate : Option UInt32
  fillFinishFraction : Option F64
  safeDepositFloat : Option String
  pricePerByte : Option String
  maxSsaAllocation : Option String
  maxSpendPerWindow : Option String
  spendWindow : Option Duration
  maxDepositTrackingTime : Option Duration
  gasXdaiPerSweep : Option String

def RawPixSettings.default : RawPixSettings :=
  ⟨none, none, none, none, none, none, none, none, none, none, none, none, none, none, none, none,
    none, none, none, none, none, none, none⟩

/-- wei in one wxHOPR, and in one xDai. -/
def ether : Nat := 1000000000000000000

/-- The demo defaults; `incoming` is the operator's default admission policy.
mirrors localcluster/src/identity.rs:422-488 -/
def PixSettings.default (incoming : UserIncomingSessionPixConfig) : PixSettings where
  numSsaParts := 8
  ssaPartSize := 2
  additionalShares := 2
  quotaRangeMin := 0
  quotaRangeMax := 1024 * 1024
  maxSsaDeliveryTime := Duration.fromSecs 20
  maxDepositWait := Duration.fromSecs 60
  enforceOnNodes := []
  ssasPerRequest := 1
  maxSsasPerRequest := 2
  allowDynamicSsaBatches := true
  maxServedWithoutProgress := 2048
  maxRecoveryTime := incoming.maxRecoveryTime
  fillEnabled := incoming.fillEnabled
  fillMaxRate := incoming.fillMaxRate
  fillFinishFraction := incoming.fillFinishFraction
  safeDepositFloat := BitVec.ofNat 256 (1000 * ether)
  -- 0.0000715 wxHOPR
  pricePerByte := BitVec.ofNat 256 (715 * ether / 10000000)
  maxSsaAllocation := BitVec.ofNat 256 (10 * ether)
  maxSpendPerWindow := BitVec.ofNat 256 (1000 * ether)
  spendWindow := Duration.fromSecs (24 * 3600)
  maxDepositTrackingTime := Duration.fromSecs 30
  gasXdaiPerSweep := BitVec.ofNat 256 (ether / 100)

/-! ## The keys of a document -/

inductive PixKey where
  | numSsaParts | ssaPartSize | additionalShares | quotaRangeMin | quotaRangeMax
  | maxSsaDeliveryTime | maxDepositWait | enforceOnNodes | ssasPerRequest | maxSsasPerRequest
  | allowDynamicSsaBatches | maxServedWithoutProgress | maxRecoveryTime | fillEnabled
  | fillMaxRate | fillFinishFraction | safeDepositFloat | pricePerByte | maxSsaAllocation
  | maxSpendPerWindow | spendWindow | maxDepositTrackingTime | gasXdaiPerSweep
  deriving DecidableEq, Repr

/-- The field's name in the source, which is the key on the wire. -/
def PixKey.name : PixKey → String
  | .numSsaParts => "num_ssa_parts"
  | .ssaPartSize => "ssa_part_size"
  | .additionalShares => "additional_shares"
  | .quotaRangeMin => "quota_range_min"
  | .quotaRangeMax => "quota_range_max"
  | .maxSsaDeliveryTime => "max_ssa_delivery_time"
  | .maxDepositWait => "max_deposit_wait"
  | .enforceOnNodes => "enforce_on_nodes"
  | .ssasPerRequest => "ssas_per_request"
  | .maxSsasPerRequest => "max_ssas_per_request"
  | .allowDynamicSsaBatches => "allow_dynamic_ssa_batches"
  | .maxServedWithoutProgress => "max_served_without_progress"
  | .maxRecoveryTime => "max_recovery_time"
  | .fillEnabled => "fill_enabled"
  | .fillMaxRate => "fill_max_rate"
  | .fillFinishFraction => "fill_finish_fraction"
  | .safeDepositFloat => "safe_deposit_float"
  | .pricePerByte => "price_per_byte"
  | .maxSsaAllocation => "max_ssa_allocation"
  | .maxSpendPerWindow => "max_spend_per_window"
  | .spendWindow => "spend_window"
  | .maxDepositTrackingTime => "max_deposit_tracking_time"
  | .gasXdaiPerSweep => "gas_xdai_per_sweep"

def PixKey.all : List PixKey :=
  [.numSsaParts, .ssaPartSize, .additionalShares, .quotaRangeMin, .quotaRangeMax,
    .maxSsaDeliveryTime, .maxDepositWait, .enforceOnNodes, .ssasPerRequest, .maxSsasPerRequest,
    .allowDynamicSsaBatches, .maxServedWithoutProgress, .maxRecoveryTime, .fillEnabled,
    .fillMaxRate, .fillFinishFraction, .safeDepositFloat, .pricePerByte, .maxSsaAllocation,
    .maxSpendPerWindow, .spendWindow, .maxDepositTrackingTime, .gasXdaiPerSweep]

def PixKey.ofName (name : String) : Option PixKey := PixKey.all.find? (·.name = name)

/-- The type of a field of `RawPixSettings`, without its `Option`. -/
abbrev PixKey.Wire : PixKey → Type
  | .maxSsaDeliveryTime | .maxDepositWait | .maxRecoveryTime | .spendWindow
  | .maxDepositTrackingTime => Duration
  | .enforceOnNodes => List UInt64
  | .allowDynamicSsaBatches | .fillEnabled => Bool
  | .fillMaxRate => UInt32
  | .fillFinishFraction => F64
  | .safeDepositFloat | .pricePerByte | .maxSsaAllocation | .maxSpendPerWindow
  | .gasXdaiPerSweep => String
  | _ => UInt64

/-- The type of a field of `PixSettings`. -/
abbrev PixKey.Val : PixKey → Type
  | .safeDepositFloat | .pricePerByte | .maxSsaAllocation | .maxSpendPerWindow => HoprBalance
  | .gasXdaiPerSweep => XDaiBalance
  | k => k.Wire

def RawPixSettings.get (r : RawPixSettings) : (k : PixKey) → Option k.Wire
  | .numSsaParts => r.numSsaParts
  | .ssaPartSize => r.ssaPartSize
  | .additionalShares => r.additionalShares
  | .quotaRangeMin => r.quotaRangeMin
  | .quotaRangeMax => r.quotaRangeMax
  | .maxSsaDeliveryTime => r.maxSsaDeliveryTime
  | .maxDepositWait => r.maxDepositWait
  | .enforceOnNodes => r.enforceOnNodes
  | .ssasPerRequest => r.ssasPerRequest
  | .maxSsasPerRequest => r.maxSsasPerRequest
  | .allowDynamicSsaBatches => r.allowDynamicSsaBatches
  | .maxServedWithoutProgress => r.maxServedWithoutProgress
  | .maxRecoveryTime => r.maxRecoveryTime
  | .fillEnabled => r.fillEnabled
  | .fillMaxRate => r.fillMaxRate
  | .fillFinishFraction => r.fillFinishFraction
  | .safeDepositFloat => r.safeDepositFloat
  | .pricePerByte => r.pricePerByte
  | .maxSsaAllocation => r.maxSsaAllocation
  | .maxSpendPerWindow => r.maxSpendPerWindow
  | .spendWindow => r.spendWindow
  | .maxDepositTrackingTime => r.maxDepositTrackingTime
  | .gasXdaiPerSweep => r.gasXdaiPerSweep

def RawPixSettings.set (r : RawPixSettings) : (k : PixKey) → Option k.Wire → RawPixSettings
  | .numSsaParts, x => { r with numSsaParts := x }
  | .ssaPartSize, x => { r with ssaPartSize := x }
  | .additionalShares, x => { r with additionalShares := x }
  | .quotaRangeMin, x => { r with quotaRangeMin := x }
  | .quotaRangeMax, x => { r with quotaRangeMax := x }
  | .maxSsaDeliveryTime, x => { r with maxSsaDeliveryTime := x }
  | .maxDepositWait, x => { r with maxDepositWait := x }
  | .enforceOnNodes, x => { r with enforceOnNodes := x }
  | .ssasPerRequest, x => { r with ssasPerRequest := x }
  | .maxSsasPerRequest, x => { r with maxSsasPerRequest := x }
  | .allowDynamicSsaBatches, x => { r with allowDynamicSsaBatches := x }
  | .maxServedWithoutProgress, x => { r with maxServedWithoutProgress := x }
  | .maxRecoveryTime, x => { r with maxRecoveryTime := x }
  | .fillEnabled, x => { r with fillEnabled := x }
  | .fillMaxRate, x => { r with fillMaxRate := x }
  | .fillFinishFraction, x => { r with fillFinishFraction := x }
  | .safeDepositFloat, x => { r with safeDepositFloat := x }
  | .pricePerByte, x => { r with pricePerByte := x }
  | .maxSsaAllocation, x => { r with maxSsaAllocation := x }
  | .maxSpendPerWindow, x => { r with maxSpendPerWindow := x }
  | .spendWindow, x => { r with spendWindow := x }
  | .maxDepositTrackingTime, x => { r with maxDepositTrackingTime := x }
  | .gasXdaiPerSweep, x => { r with gasXdaiPerSweep := x }

def PixSettings.get (s : PixSettings) : (k : PixKey) → k.Val
  | .numSsaParts => s.numSsaParts
  | .ssaPartSize => s.ssaPartSize
  | .additionalShares => s.additionalShares
  | .quotaRangeMin => s.quotaRangeMin
  | .quotaRangeMax => s.quotaRangeMax
  | .maxSsaDeliveryTime => s.maxSsaDeliveryTime
  | .maxDepositWait => s.maxDepositWait
  | .enforceOnNodes => s.enforceOnNodes
  | .ssasPerRequest => s.ssasPerRequest
  | .maxSsasPerRequest => s.maxSsasPerRequest
  | .allowDynamicSsaBatches => s.allowDynamicSsaBatches
  | .maxServedWithoutProgress => s.maxServedWithoutProgress
  | .maxRecoveryTime => s.maxRecoveryTime
  | .fillEnabled => s.fillEnabled
  | .fillMaxRate => s.fillMaxRate
  | .fillFinishFraction => s.fillFinishFraction
  | .safeDepositFloat => s.safeDepositFloat
  | .pricePerByte => s.pricePerByte
  | .maxSsaAllocation => s.maxSsaAllocation
  | .maxSpendPerWindow => s.maxSpendPerWindow
  | .spendWindow => s.spendWindow
  | .maxDepositTrackingTime => s.maxDepositTrackingTime
  | .gasXdaiPerSweep => s.gasXdaiPerSweep

/-- The fields of the wire form, each under its key. -/
def rawFields : Fields PixKey RawPixSettings fun k => Option k.Wire where
  get := RawPixSettings.get
  set := RawPixSettings.set
  get_set_self r k x := by cases k <;> rfl
  get_set_other r k x k' h := by
    cases k <;> cases k' <;> first | rfl | exact absurd rfl h

/-! ## Reading a document -/

/-- A YAML mapping, whose keys are distinct. A text that repeats a key has none: the
reader refuses it before anything here runs. -/
structure Doc (V : Type) where
  entries : List (String × V)
  nodup : (entries.map Prod.fst).Nodup

/-- What the YAML library and the balance types give: each value read at a type
(`none` is YAML's null, which is absence for an optional field), and the balance
parsers. -/
structure Reader (V : Type) where
  usize : V → Except String (Option UInt64)
  u64 : V → Except String (Option UInt64)
  u32 : V → Except String (Option UInt32)
  f64 : V → Except String (Option F64)
  bool : V → Except String (Option Bool)
  usizes : V → Except String (Option (List UInt64))
  string : V → Except String (Option String)
  humantime : V → Except String (Option Duration)
  hoprBalance : String → Except String HoprBalance
  xdaiBalance : String → Except String XDaiBalance

variable {V : Type} (y : Reader V)

/-- The deserializer of each field of the wire form.
mirrors localcluster/src/identity.rs:385-420 -/
def Reader.wire : (k : PixKey) → V → Except String (Option k.Wire)
  | .numSsaParts | .ssaPartSize | .additionalShares | .ssasPerRequest
  | .maxSsasPerRequest => y.usize
  | .quotaRangeMin | .quotaRangeMax | .maxServedWithoutProgress => y.u64
  | .maxSsaDeliveryTime | .maxDepositWait | .maxRecoveryTime | .spendWindow
  | .maxDepositTrackingTime => y.humantime
  | .enforceOnNodes => y.usizes
  | .allowDynamicSsaBatches | .fillEnabled => y.bool
  | .fillMaxRate => y.u32
  | .fillFinishFraction => y.f64
  | .safeDepositFloat | .pricePerByte | .maxSsaAllocation | .maxSpendPerWindow
  | .gasXdaiPerSweep => y.string

def invalid (e : String) : String := "invalid PIX config: " ++ e

/-- `serde_saphyr::from_str` on a mapping, with `deny_unknown_fields`. -/
def rawFromDoc (doc : Doc V) : Except String RawPixSettings :=
  match rawFields.decode PixKey.ofName y.wire (fun n => "unknown field " ++ n) .default
      doc.entries with
  | .ok raw => .ok raw
  | .error e => .error (invalid e)

/-- The closure `balance`, also what is done with `gas_xdai_per_sweep`.
mirrors localcluster/src/identity.rs:313-322, 364-370 -/
def balance {B : Type} (parse : String → Except String B) (field : String) (given : Option String)
    (fallback : B) : Except String B :=
  match given with
  | none => .ok fallback
  | some v =>
    match parse v with
    | .ok b => .ok b
    | .error e => .error (invalid (field ++ " (" ++ v ++ "): " ++ e))

/-- What `from_yaml` makes of the wire form, over the defaults `d`.
mirrors localcluster/src/identity.rs:311-372 -/
def RawPixSettings.over (raw : RawPixSettings) (d : PixSettings) : Except String PixSettings := do
  let safeDepositFloat ←
    balance y.hoprBalance "safe_deposit_float" raw.safeDepositFloat d.safeDepositFloat
  let pricePerByte ← balance y.hoprBalance "price_per_byte" raw.pricePerByte d.pricePerByte
  let maxSsaAllocation ←
    balance y.hoprBalance "max_ssa_allocation" raw.maxSsaAllocation d.maxSsaAllocation
  let maxSpendPerWindow ←
    balance y.hoprBalance "max_spend_per_window" raw.maxSpendPerWindow d.maxSpendPerWindow
  let gasXdaiPerSweep ←
    balance y.xdaiBalance "gas_xdai_per_sweep" raw.gasXdaiPerSweep d.gasXdaiPerSweep
  pure
    { numSsaParts := raw.numSsaParts.getD d.numSsaParts
      ssaPartSize := raw.ssaPartSize.getD d.ssaPartSize
      additionalShares := raw.additionalShares.getD d.additionalShares
      quotaRangeMin := raw.quotaRangeMin.getD d.quotaRangeMin
      quotaRangeMax := raw.quotaRangeMax.getD d.quotaRangeMax
      maxSsaDeliveryTime := raw.maxSsaDeliveryTime.getD d.maxSsaDeliveryTime
      maxDepositWait := raw.maxDepositWait.getD d.maxDepositWait
      enforceOnNodes := raw.enforceOnNodes.getD d.enforceOnNodes
      ssasPerRequest := raw.ssasPerRequest.getD d.ssasPerRequest
      maxSsasPerRequest := raw.maxSsasPerRequest.getD d.maxSsasPerRequest
      allowDynamicSsaBatches := raw.allowDynamicSsaBatches.getD d.allowDynamicSsaBatches
      maxServedWithoutProgress := raw.maxServedWithoutProgress.getD d.maxServedWithoutProgress
      maxRecoveryTime := raw.maxRecoveryTime.getD d.maxRecoveryTime
      fillEnabled := raw.fillEnabled.getD d.fillEnabled
      fillMaxRate := raw.fillMaxRate.getD d.fillMaxRate
      fillFinishFraction := raw.fillFinishFraction.getD d.fillFinishFraction
      safeDepositFloat := safeDepositFloat
      pricePerByte := pricePerByte
      maxSsaAllocation := maxSsaAllocation
      maxSpendPerWindow := maxSpendPerWindow
      spendWindow := raw.spendWindow.getD d.spendWindow
      maxDepositTrackingTime := raw.maxDepositTrackingTime.getD d.maxDepositTrackingTime
      gasXdaiPerSweep := gasXdaiPerSweep }

/-- mirrors localcluster/src/identity.rs:308-373 -/
def PixSettings.fromYaml (incoming : UserIncomingSessionPixConfig) (doc : Doc V) :
    Except String PixSettings := do
  let raw ← rawFromDoc y doc
  raw.over y (.default incoming)

/-! ## What a document says of a key -/

/-- A wire value as a setting: balances are parsed, the rest is taken as it is. -/
def Reader.parse : (k : PixKey) → k.Wire → Except String k.Val
  | .safeDepositFloat, v | .pricePerByte, v | .maxSsaAllocation, v | .maxSpendPerWindow, v =>
    y.hoprBalance v
  | .gasXdaiPerSweep, v => y.xdaiBalance v
  | .numSsaParts, v | .ssaPartSize, v | .additionalShares, v | .quotaRangeMin, v
  | .quotaRangeMax, v | .maxSsaDeliveryTime, v | .maxDepositWait, v | .enforceOnNodes, v
  | .ssasPerRequest, v | .maxSsasPerRequest, v | .allowDynamicSsaBatches, v
  | .maxServedWithoutProgress, v | .maxRecoveryTime, v | .fillEnabled, v | .fillMaxRate, v
  | .fillFinishFraction, v | .spendWindow, v | .maxDepositTrackingTime, v => .ok v

/-- `v` under key `k` does not parse: not as the field's type, or not as a balance. -/
def Unparsable (k : PixKey) (v : V) : Prop :=
  (∃ e, y.wire k v = .error e) ∨ ∃ w e, y.wire k v = .ok (some w) ∧ y.parse k w = .error e

/-- The value a document gives a key, `none` when the key is absent or null. -/
def Doc.value (doc : Doc V) (k : PixKey) : Option k.Val :=
  (doc.entries.lookup k.name).bind fun v =>
    match y.wire k v with
    | .ok (some w) => (y.parse k w).toOption
    | _ => none

theorem PixKey.ofName_name (k : PixKey) : PixKey.ofName k.name = some k := by
  cases k <;> decide

theorem PixKey.name_of_ofName {n : String} {k : PixKey} (h : PixKey.ofName n = some k) :
    n = k.name := by
  have hname := List.find?_some h
  simp only [decide_eq_true_eq] at hname
  exact hname.symm

theorem ofName_inj {k : PixKey} (n n' : String) (h : PixKey.ofName n = some k)
    (h' : PixKey.ofName n' = some k) : n = n' :=
  (PixKey.name_of_ofName h).trans (PixKey.name_of_ofName h').symm

theorem mem_of_lookup {es : List (String × V)} {n : String} {v : V} (h : es.lookup n = some v) :
    (n, v) ∈ es := by
  rw [List.lookup_eq_some_iff] at h
  obtain ⟨l₁, l₂, heq, -⟩ := h
  rw [heq]
  simp

theorem rawFromDoc_ok {doc : Doc V} {raw : RawPixSettings} (h : rawFromDoc y doc = .ok raw) :
    rawFields.decode PixKey.ofName y.wire (fun n => "unknown field " ++ n) .default doc.entries =
      .ok raw := by
  unfold rawFromDoc at h
  split at h
  · rename_i raw' hraw
    cases h
    exact hraw
  · cases h

/-- The wire form holds what each entry was read as, and nothing else. -/
theorem raw_get {doc : Doc V} {raw : RawPixSettings} (h : rawFromDoc y doc = .ok raw) (k : PixKey) :
    (∃ v, doc.entries.lookup k.name = some v ∧ y.wire k v = .ok (raw.get k)) ∨
      (doc.entries.lookup k.name = none ∧ raw.get k = none) := by
  have h := rawFromDoc_ok y h
  cases hl : doc.entries.lookup k.name with
  | some v =>
    exact .inl ⟨v, rfl, rawFields.decode_get_mem _ _ _ ofName_inj doc.nodup h (mem_of_lookup hl)
      k.ofName_name⟩
  | none =>
    rw [List.lookup_eq_none_iff] at hl
    refine .inr ⟨rfl, ?_⟩
    have habsent : ∀ e ∈ doc.entries, PixKey.ofName e.1 ≠ some k := by
      intro e he hk
      have hne := hl e he
      rw [PixKey.name_of_ofName hk] at hne
      simp at hne
    have hget := rawFields.decode_get_absent _ _ _ h habsent
    refine hget.trans ?_
    cases k <;> rfl

/-! ## The settings of a document -/

theorem balance_ok {B : Type} {parse : String → Except String B} {field : String}
    {given : Option String} {fallback b : B} (h : balance parse field given fallback = .ok b) :
    (given = none ∧ b = fallback) ∨ ∃ v, given = some v ∧ parse v = .ok b := by
  unfold balance at h
  cases given with
  | none => exact .inl ⟨rfl, (Except.ok.inj h).symm⟩
  | some v =>
    refine .inr ⟨v, rfl, ?_⟩
    cases hv : parse v with
    | error e => simp [hv] at h
    | ok b' =>
      simp only [hv, Except.ok.injEq] at h
      rw [h]

theorem balance_of_parse {B : Type} (parse : String → Except String B) {given : Option String}
    (field : String) (fallback : B) (h : ∀ v, given = some v → ∃ b, parse v = .ok b) :
    ∃ b, balance parse field given fallback = .ok b := by
  unfold balance
  cases given with
  | none => exact ⟨fallback, rfl⟩
  | some v =>
    obtain ⟨b, hb⟩ := h v rfl
    refine ⟨b, ?_⟩
    simp only [hb]

/-- A setting is the parsed wire value, or the default when there is none. -/
def Merged (d : PixSettings) (raw : RawPixSettings) (s : PixSettings) (k : PixKey) : Prop :=
  (raw.get k = none ∧ s.get k = d.get k) ∨ ∃ w, raw.get k = some w ∧ y.parse k w = .ok (s.get k)

theorem over_merged {d s : PixSettings} {raw : RawPixSettings} (h : raw.over y d = .ok s)
    (k : PixKey) : Merged y d raw s k := by
  obtain ⟨b1, h1, h⟩ := bind_ok h
  obtain ⟨b2, h2, h⟩ := bind_ok h
  obtain ⟨b3, h3, h⟩ := bind_ok h
  obtain ⟨b4, h4, h⟩ := bind_ok h
  obtain ⟨b5, h5, h⟩ := bind_ok h
  have hs := pure_ok h
  subst hs
  have hplain {α : Type} (given : Option α) (fallback : α) :
      (given = none ∧ given.getD fallback = fallback) ∨
        ∃ w, given = some w ∧ (Except.ok w : Except String α) = .ok (given.getD fallback) := by
    cases given with
    | none => exact .inl ⟨rfl, rfl⟩
    | some w => exact .inr ⟨w, rfl, rfl⟩
  cases k with
  | safeDepositFloat => exact balance_ok h1
  | pricePerByte => exact balance_ok h2
  | maxSsaAllocation => exact balance_ok h3
  | maxSpendPerWindow => exact balance_ok h4
  | gasXdaiPerSweep => exact balance_ok h5
  | _ => exact hplain _ _

theorem fromYaml_merged {incoming : UserIncomingSessionPixConfig} {doc : Doc V} {s : PixSettings}
    (h : PixSettings.fromYaml y incoming doc = .ok s) :
    ∃ raw, rawFromDoc y doc = .ok raw ∧ ∀ k, Merged y (.default incoming) raw s k := by
  obtain ⟨raw, hraw, h⟩ := bind_ok h
  exact ⟨raw, hraw, over_merged y h⟩

/-- **The settings of a document**: its value of every key, the demo default where it
gives none. -/
theorem fromYaml_get {incoming : UserIncomingSessionPixConfig} {doc : Doc V} {s : PixSettings}
    (h : PixSettings.fromYaml y incoming doc = .ok s) (k : PixKey) :
    s.get k = (doc.value y k).getD ((PixSettings.default incoming).get k) := by
  obtain ⟨raw, hraw, hmerged⟩ := fromYaml_merged y h
  have hvalue : doc.value y k = (raw.get k).bind fun w => (y.parse k w).toOption := by
    unfold Doc.value
    obtain ⟨v, hl, hread⟩ | ⟨hl, hnone⟩ := raw_get y hraw k
    · simp only [hl, hread, Option.bind_some]
      cases raw.get k <;> rfl
    · simp only [hl, hnone, Option.bind_none]
  rw [hvalue]
  obtain ⟨hnone, hs⟩ | ⟨w, hw, hs⟩ := hmerged k
  · rw [hnone, hs]
    rfl
  · rw [hw, Option.bind_some, hs]
    rfl

theorem over_of_parse (d : PixSettings) {raw : RawPixSettings}
    (hparse : ∀ k w, raw.get k = some w → ∃ b, y.parse k w = .ok b) :
    ∃ s, raw.over y d = .ok s := by
  obtain ⟨b1, h1⟩ := balance_of_parse y.hoprBalance "safe_deposit_float"
    d.safeDepositFloat (hparse .safeDepositFloat)
  obtain ⟨b2, h2⟩ := balance_of_parse y.hoprBalance "price_per_byte"
    d.pricePerByte (hparse .pricePerByte)
  obtain ⟨b3, h3⟩ := balance_of_parse y.hoprBalance "max_ssa_allocation"
    d.maxSsaAllocation (hparse .maxSsaAllocation)
  obtain ⟨b4, h4⟩ := balance_of_parse y.hoprBalance "max_spend_per_window"
    d.maxSpendPerWindow (hparse .maxSpendPerWindow)
  obtain ⟨b5, h5⟩ := balance_of_parse y.xdaiBalance "gas_xdai_per_sweep"
    d.gasXdaiPerSweep (hparse .gasXdaiPerSweep)
  unfold RawPixSettings.over
  simp only [RawPixSettings.get] at h1 h2 h3 h4 h5
  simp only [bind, Except.bind, h1, h2, h3, h4, h5]
  exact ⟨_, rfl⟩

/-- Every key known and every value parsed: the document is accepted. -/
theorem fromYaml_of_parses (incoming : UserIncomingSessionPixConfig) {doc : Doc V}
    (hknown : ∀ n v, (n, v) ∈ doc.entries → PixKey.ofName n ≠ none)
    (hparses : ∀ k v, (PixKey.name k, v) ∈ doc.entries → ¬Unparsable y k v) :
    ∃ s, PixSettings.fromYaml y incoming doc = .ok s := by
  have hreadable : ∀ e ∈ doc.entries, Fields.Readable PixKey.ofName y.wire e := by
    intro e hmem
    obtain ⟨n, v⟩ := e
    cases hk : PixKey.ofName n with
    | none => exact absurd hk (hknown n v hmem)
    | some k =>
      have hn := PixKey.name_of_ofName hk
      subst hn
      cases hv : y.wire k v with
      | ok x => exact ⟨k, x, hk, hv⟩
      | error e => exact absurd (.inl ⟨e, hv⟩) (hparses k v hmem)
  obtain ⟨raw, hdec⟩ := (rawFields.decode_ok_iff PixKey.ofName y.wire
    (fun n => "unknown field " ++ n) .default doc.entries).2 hreadable
  have hraw : rawFromDoc y doc = .ok raw := by
    unfold rawFromDoc
    rw [hdec]
  have hbalances : ∀ k w, raw.get k = some w → ∃ b, y.parse k w = .ok b := by
    intro k w hw
    obtain ⟨v, hl, hread⟩ | ⟨-, hget⟩ := raw_get y hraw k
    · rw [hw] at hread
      cases hp : y.parse k w with
      | ok b => exact ⟨b, rfl⟩
      | error e => exact absurd (.inr ⟨w, e, hread, hp⟩) (hparses k v (mem_of_lookup hl))
    · rw [hget] at hw
      cases hw
  obtain ⟨s, hs⟩ := over_of_parse y (.default incoming) hbalances
  refine ⟨s, ?_⟩
  unfold PixSettings.fromYaml
  rw [hraw]
  exact hs

/-- An accepted document has no unknown key and no value that does not parse. -/
theorem parses_of_fromYaml {incoming : UserIncomingSessionPixConfig} {doc : Doc V}
    {s : PixSettings} (hs : PixSettings.fromYaml y incoming doc = .ok s) :
    (∀ n v, (n, v) ∈ doc.entries → PixKey.ofName n ≠ none) ∧
      ∀ k v, (PixKey.name k, v) ∈ doc.entries → ¬Unparsable y k v := by
  obtain ⟨raw, hraw, hmerged⟩ := fromYaml_merged y hs
  have hdec := rawFromDoc_ok y hraw
  have hreadable := (rawFields.decode_ok_iff _ _ _ _ _).1 ⟨raw, hdec⟩
  refine ⟨?_, ?_⟩
  · intro n v hmem hunknown
    obtain ⟨k, -, hk, -⟩ := hreadable _ hmem
    rw [show PixKey.ofName n = none from hunknown] at hk
    cases hk
  · intro k v hmem hbad
    have hread := rawFields.decode_get_mem _ _ _ ofName_inj doc.nodup hdec hmem k.ofName_name
    obtain ⟨e, he⟩ | ⟨w, e, hw, he⟩ := hbad
    · rw [he] at hread
      cases hread
    · rw [hw] at hread
      have hget : raw.get k = some w := (Except.ok.inj hread).symm
      obtain ⟨hnone, -⟩ | ⟨w', hw', hok⟩ := hmerged k
      · rw [hget] at hnone
        cases hnone
      · rw [hget] at hw'
        cases hw'
        rw [he] at hok
        cases hok

/-- **A document is refused** exactly for an unknown key or a value that does not parse. -/
theorem fromYaml_error_iff (incoming : UserIncomingSessionPixConfig) (doc : Doc V) :
    (∃ e, PixSettings.fromYaml y incoming doc = .error e) ↔
      (∃ n v, (n, v) ∈ doc.entries ∧ PixKey.ofName n = none) ∨
        ∃ k v, (PixKey.name k, v) ∈ doc.entries ∧ Unparsable y k v := by
  constructor
  · intro h
    obtain ⟨e, he⟩ := h
    by_contra hnone
    simp only [not_or, not_exists, not_and] at hnone
    obtain ⟨s, hs⟩ := fromYaml_of_parses y incoming hnone.1 hnone.2
    rw [hs] at he
    cases he
  · intro h
    cases hs : PixSettings.fromYaml y incoming doc with
    | error e => exact ⟨e, rfl⟩
    | ok s =>
      obtain ⟨hknown, hparses⟩ := parses_of_fromYaml y hs
      obtain ⟨n, v, hmem, hunknown⟩ | ⟨k, v, hmem, hbad⟩ := h
      · exact absurd hunknown (hknown n v hmem)
      · exact absurd hbad (hparses k v hmem)

/-! ## From the settings to the library -/

/-- mirrors localcluster/src/identity.rs:490-511 -/
def pixGlobalConfig (pix : Option PixSettings) : Option UserPixGlobalConfig :=
  pix.map fun pix =>
    { numSsaParts := pix.numSsaParts
      ssaPartSize := pix.ssaPartSize
      additionalShares := some pix.additionalShares
      maxSsasPerRequest := pix.maxSsasPerRequest }

/-- `dflt` is `UserIncomingSessionPixConfig::default()`.
mirrors localcluster/src/identity.rs:513-546 -/
def incomingPixConfig (dflt : UserIncomingSessionPixConfig) (pix : Option PixSettings)
    (id : UInt64) : UserIncomingSessionPixConfig :=
  match pix with
  | some pix =>
    { enforcePix := pix.enforceOnNodes.contains id
      quotaRangeMin := pix.quotaRangeMin
      quotaRangeMax := pix.quotaRangeMax
      maxSsaDeliveryTime := pix.maxSsaDeliveryTime
      maxDepositWait := pix.maxDepositWait
      ssasPerRequest := pix.ssasPerRequest
      allowDynamicSsaBatches := pix.allowDynamicSsaBatches
      maxServedWithoutProgress := pix.maxServedWithoutProgress
      maxRecoveryTime := pix.maxRecoveryTime
      fillEnabled := pix.fillEnabled
      fillMaxRate := pix.fillMaxRate
      fillFinishFraction := pix.fillFinishFraction
      maxLiveCycleBytes := dflt.maxLiveCycleBytes
      drainAfterClose := dflt.drainAfterClose }
  | none => dflt

/-- The part of `GenerationConfig` a node's configuration is made of; `latency` says
whether relays are used.
mirrors localcluster/src/identity.rs:548-578 -/
structure GenerationConfig where
  blokliUrl : String
  configHome : String
  identityPassword : String
  latency : Bool
  pix : Option PixSettings

/-- The defaults and the path functions `node_config` uses. `forwarding` is the default
without an allow list; `absolute` fails where `std::path::absolute` or the conversion of
its result to a string does. -/
structure NodeDefaults (L : LibTypes) where
  lib : UserHoprLibConfig L
  api : Api
  forwarding : SessionIpForwardingConfig L
  absolute : String → Option String
  joinPath : String → String → String

variable {L : LibTypes} {T : Strategy.LeafTypes} (defaults : NodeDefaults L)

/-- mirrors localcluster/src/identity.rs:743-807 -/
def nodeConfig (id : UInt64) (config : GenerationConfig) (safe : SafeModule)
    (nodeStrategy : Strategy.MultiStrategyConfig T) (idFile : String)
    (pixGlobal : Option UserPixGlobalConfig) : Option (HoprdConfig L T) := do
  let file ← defaults.absolute idFile
  let home ← defaults.absolute config.configHome
  pure
    { hopr :=
        { defaults.lib with
          announce := !config.latency
          network :=
            { defaults.lib.network with
              announceLocalAddresses := true
              preferLocalAddresses := true
              probeRecheckThreshold := Duration.fromSecs 3
              probeInterval := Duration.fromSecs 3
              pix := pixGlobal.getD defaults.lib.network.pix
              incomingSessionPix :=
                incomingPixConfig defaults.lib.network.incomingSessionPix config.pix id }
          safeModule := safe }
      identity := { file := file, password := config.identityPassword, privateKey := none }
      db :=
        { data := defaults.joinPath home ("db_" ++ toString id)
          initializeDb := true
          forceInitialize := false }
      api := { defaults.api with enable := true, auth := .none }
      sessionIpForwarding := defaults.forwarding
      blokliUrl := config.blokliUrl
      blokliDnsOverride := none
      strategy := nodeStrategy }

/-- The settings that reach the library; the others are settlement settings, and the
list of enforcing nodes. -/
def PixKey.inLib : PixKey → Bool
  | .enforceOnNodes | .safeDepositFloat | .pricePerByte | .maxSsaAllocation
  | .maxSpendPerWindow | .spendWindow | .maxDepositTrackingTime | .gasXdaiPerSweep => false
  | _ => true

/-- Where the library's configuration holds a key: the Entry half in `pix`, the Exit half
in `incoming_session_pix_config`. -/
def libValue (c : HoprLibConfig L) : (k : PixKey) → Option k.Val
  | .numSsaParts => some c.protocol.pix.numSsaParts
  | .ssaPartSize => some c.protocol.pix.ssaPartSize
  | .additionalShares => c.protocol.pix.additionalShares
  | .maxSsasPerRequest => some c.protocol.pix.maxSsasPerRequest
  | .quotaRangeMin => some c.protocol.incomingSessionPixConfig.quotaRange.start
  | .quotaRangeMax => some c.protocol.incomingSessionPixConfig.quotaRange.stop
  | .maxSsaDeliveryTime => some c.protocol.incomingSessionPixConfig.supervision.maxSsaDeliveryTime
  | .maxDepositWait => some c.protocol.incomingSessionPixConfig.supervision.maxDepositWait
  | .ssasPerRequest => some c.protocol.incomingSessionPixConfig.supervision.ssasPerRequest
  | .allowDynamicSsaBatches =>
    some c.protocol.incomingSessionPixConfig.supervision.allowDynamicSsaBatches
  | .maxServedWithoutProgress =>
    some c.protocol.incomingSessionPixConfig.supervision.maxServedWithoutProgress
  | .maxRecoveryTime => some c.protocol.incomingSessionPixConfig.supervision.maxRecoveryTime
  | .fillEnabled => some c.protocol.incomingSessionPixConfig.supervision.fill.enabled
  | .fillMaxRate => some c.protocol.incomingSessionPixConfig.supervision.fill.maxRate
  | .fillFinishFraction => some c.protocol.incomingSessionPixConfig.supervision.fill.finishFraction
  | .enforceOnNodes | .safeDepositFloat | .pricePerByte | .maxSsaAllocation
  | .maxSpendPerWindow | .spendWindow | .maxDepositTrackingTime | .gasXdaiPerSweep => none

/-- The operator's half of a node's configuration carries its PIX settings. -/
theorem nodeConfig_pix {id : UInt64} {config : GenerationConfig} {safe : SafeModule}
    {nodeStrategy : Strategy.MultiStrategyConfig T} {idFile : String} {s : PixSettings}
    {c : HoprdConfig L T} (hpix : config.pix = some s)
    (h : nodeConfig defaults id config safe nodeStrategy idFile (pixGlobalConfig config.pix) =
      some c) :
    some c.hopr.network.pix = pixGlobalConfig (some s) ∧
      c.hopr.network.incomingSessionPix =
        incomingPixConfig defaults.lib.network.incomingSessionPix (some s) id := by
  unfold nodeConfig at h
  simp only [Option.bind_eq_bind, Option.bind_eq_some_iff, Option.pure_def, Option.some.injEq] at h
  obtain ⟨file, -, home, -, h⟩ := h
  subst h
  rw [hpix]
  exact ⟨rfl, rfl⟩

/-- Each setting is in its place of the library's configuration, and a node enforces PIX
exactly when it is listed. -/
theorem libValue_ofUser (lib : HoprLib L) {u : UserHoprLibConfig L} {s : PixSettings} {id : UInt64}
    {dflt : UserIncomingSessionPixConfig} (hglobal : some u.network.pix = pixGlobalConfig (some s))
    (hincoming : u.network.incomingSessionPix = incomingPixConfig dflt (some s) id) :
    (∀ k : PixKey, k.inLib = true → libValue (HoprLibConfig.ofUser lib u) k = some (s.get k)) ∧
      ((HoprLibConfig.ofUser lib u).protocol.incomingSessionPixConfig.enforcePix = true ↔
        id ∈ s.enforceOnNodes) := by
  have hglobal := Option.some.inj hglobal
  refine ⟨?_, ?_⟩
  · intro k hk
    cases k <;> simp only [PixKey.inLib, Bool.false_eq_true] at hk <;>
      simp only [libValue, HoprLibConfig.ofUser, PixSettings.get, hglobal, hincoming,
        incomingPixConfig]
  · simp only [HoprLibConfig.ofUser, hincoming, incomingPixConfig, List.contains_iff_mem]

/-- **PIX settings reach the library**: an accepted document's value of every key, or the
demo default, is what the library's configuration holds for it on every node, and a node
enforces PIX exactly when the document, or the default, lists it. A document is refused
exactly for an unknown key or a value that does not parse. -/
theorem pix_settings_reach (lib : HoprLib L) (doc : Doc V) (id : UInt64) (config : GenerationConfig)
    (safe : SafeModule) (nodeStrategy : Strategy.MultiStrategyConfig T) (idFile : String) :
    (∀ s c, PixSettings.fromYaml y defaults.lib.network.incomingSessionPix doc = .ok s →
      config.pix = some s →
      nodeConfig defaults id config safe nodeStrategy idFile (pixGlobalConfig config.pix) = some c →
      let value := fun k : PixKey => (doc.value y k).getD
        ((PixSettings.default defaults.lib.network.incomingSessionPix).get k)
      (∀ k : PixKey, k.inLib = true →
        libValue (HoprLibConfig.ofUser lib c.hopr) k = some (value k)) ∧
      ((HoprLibConfig.ofUser lib c.hopr).protocol.incomingSessionPixConfig.enforcePix = true ↔
        id ∈ value .enforceOnNodes)) ∧
    ((∃ e, PixSettings.fromYaml y defaults.lib.network.incomingSessionPix doc = .error e) ↔
      (∃ n v, (n, v) ∈ doc.entries ∧ PixKey.ofName n = none) ∨
        ∃ k v, (PixKey.name k, v) ∈ doc.entries ∧ Unparsable y k v) := by
  refine ⟨?_, fromYaml_error_iff y _ doc⟩
  intro s c hs hpix hc
  have hget := fromYaml_get y hs
  obtain ⟨hglobal, hincoming⟩ := nodeConfig_pix defaults hpix hc
  obtain ⟨hlib, henforce⟩ := libValue_ofUser lib hglobal hincoming
  refine ⟨?_, ?_⟩
  · intro k hk
    rw [hlib k hk, hget k]
  · rw [henforce]
    have henf := hget .enforceOnNodes
    exact Eq.to_iff (congrArg (id ∈ ·) henf)

/-- A document is numbers; balances are refused. -/
def demoReader : Reader Nat where
  usize v := .ok (some (UInt64.ofNat v))
  u64 v := .ok (some (UInt64.ofNat v))
  u32 v := .ok (some (UInt32.ofNat v))
  f64 v := .ok (some (.finite v))
  bool v := .ok (some (v == 1))
  usizes v := .ok (some [UInt64.ofNat v])
  string v := .ok (some (toString v))
  humantime v := .ok (some (Duration.fromSecs v))
  hoprBalance _ := .error "not a balance"
  xdaiBalance _ := .error "not a balance"

def demoDoc : Doc Nat := ⟨[("num_ssa_parts", 32), ("enforce_on_nodes", 2)], by decide⟩

def demoDefaults : NodeDefaults plainTypes where
  lib := plainUser none
  api := ⟨true, .none, ⟨.ipv4 "127.0.0.1", 3001⟩, false, .off⟩
  forwarding := ⟨⟨.v4 127 0 0 1, 0⟩, ()⟩
  absolute p := some ("/" ++ p)
  joinPath dir name := dir ++ "/" ++ name

def demoSettings : PixSettings :=
  { PixSettings.default demoDefaults.lib.network.incomingSessionPix with
    numSsaParts := 32
    enforceOnNodes := [2] }

def demoGeneration : GenerationConfig :=
  ⟨"http://chain:8080", "nodes", "password", false, some demoSettings⟩

def demoStrategy : Strategy.MultiStrategyConfig Strategy.unitLeaves := ⟨false, 0, []⟩

/-- On node 2 the named number of parts arrives, and PIX is enforced. -/
theorem demo_settings_reach :
    ∃ c, nodeConfig demoDefaults 2 demoGeneration ⟨1, 2⟩ demoStrategy "node_id_2.id"
        (pixGlobalConfig demoGeneration.pix) = some c ∧
      libValue (HoprLibConfig.ofUser plainLib c.hopr) .numSsaParts =
        some ((demoDoc.value demoReader .numSsaParts).getD 8) ∧
      demoDoc.value demoReader .numSsaParts = some 32 ∧
      ((HoprLibConfig.ofUser plainLib c.hopr).protocol.incomingSessionPixConfig.enforcePix = true ↔
        2 ∈ (demoDoc.value demoReader .enforceOnNodes).getD []) := by
  obtain ⟨hreach, -⟩ := pix_settings_reach demoReader demoDefaults plainLib demoDoc 2 demoGeneration
    ⟨1, 2⟩ demoStrategy "node_id_2.id"
  have hs : PixSettings.fromYaml demoReader demoDefaults.lib.network.incomingSessionPix demoDoc =
      .ok demoSettings := rfl
  obtain ⟨hlib, henforce⟩ := hreach demoSettings _ hs rfl rfl
  exact ⟨_, rfl, hlib .numSsaParts rfl, rfl, henforce⟩

end Hoprd.Pix
