import Mathlib.Logic.Function.Basic
import Hoprd.Core.Except
import Hoprd.Core.LTS
import Hoprd.RestApi.CloseClient

/-!
# SURB configuration of sessions (`rest-api/src/session.rs`)

A client gives the size of its response buffer and the bandwidth for SURBs; the
protocol keeps a number of SURBs and a rate. `toSurbBalancer` and `fromSurbBalancer`
convert between the two, on creation (`intoProtocolSessionConfig`), on reading a
session's configuration (`sessionConfig`) and on changing it (`adjustSession`). On the
wire both values are text (`TextFormat`).

* `surb_parameters_iff`: a change takes what was given and keeps what was not exactly
  under `Honoured`: without a response buffer the bandwidth is ignored, and what is not
  given is reset to the library's default.
* `config_survives_iff`: what is read and posted back leaves the session as it was
  exactly if the rendered buffer size still holds `target` packets (`Survives`).
-/
namespace Hoprd.RestApi.SurbConfig

open Core (LTS bind_ok pure_ok toOption_eq_some)
open CloseClient (IpProtocol)
open Function (update update_self update_of_ne)

abbrev Address := BitVec 160
abbrev SessionId := Nat

/-- In bytes. -/
abbrev ByteSize := UInt64

/-- Gigabits, and bits below a gigabit, per second. -/
structure Bandwidth where
  gbps : UInt64
  bps : UInt32
  bps_lt : bps.toNat < 1000000000
  deriving DecidableEq

namespace Bandwidth

/-- A `u128`. -/
def asBps (b : Bandwidth) : Nat := b.gbps.toNat * 1000000000 + b.bps.toNat

/-- `as_bps() as usize`. -/
def asUsize (b : Bandwidth) : Nat := b.asBps % 2 ^ 64

def fromBps (n : UInt64) : Bandwidth where
  gbps := n / 1000000000
  bps := (n % 1000000000).toUInt32
  bps_lt := by
    have h : n.toNat % 1000000000 < 1000000000 := Nat.mod_lt _ (by omega)
    simp only [UInt64.toNat_toUInt32, UInt64.toNat_mod]
    exact lt_of_le_of_lt (Nat.mod_le _ _) h

theorem asBps_fromBps (n : UInt64) : (fromBps n).asBps = n.toNat := by
  have hlow : n.toNat % 1000000000 < 2 ^ 32 := by omega
  simp only [asBps, fromBps, UInt64.toNat_div, UInt64.toNat_toUInt32, UInt64.toNat_mod]
  simp only [UInt64.reduceToNat, Nat.mod_eq_of_lt hlow]
  omega

end Bandwidth

/-! ## The library -/

/-- The settings with no counterpart in the API are `rest`. -/
structure SurbBalancerConfig (Rest : Type) where
  targetSurbBufferSize : UInt64
  maxSurbsPerSec : UInt64
  rest : Rest
  deriving DecidableEq

/-- mirrors rest-api/src/session.rs:41-46 -/
inductive SessionTargetSpec where
  | plain (target : String)
  | sealed (target : Bytes)
  | service (id : UInt32)
  deriving DecidableEq, Repr

/-- What the code takes from `hopr-lib`. A session is what its configurator acts on. -/
structure HoprLib (Target Flow Rest Session : Type) where
  sessionMtu : Nat
  surbSize : Nat
  /-- `SurbBalancerConfig::default()` -/
  default : SurbBalancerConfig Rest
  /-- `SessionId::from_hex` -/
  fromHex : String → Option SessionId
  intoTarget : SessionTargetSpec → IpProtocol → Except String Target
  /-- `HopRouting::try_from` -/
  hopRouting : Nat → Except String Nat
  /-- the text of `GeneralError::ParseError` -/
  parseError : String → String
  /-- `FlowControlConfig::default()` and `FlowControlConfig::robust()` -/
  flowDefault : Flow
  flowRobust : Flow
  connect : Option (SurbBalancerConfig Rest) → Session
  getSurbBalancerConfig : Session → Except String (Option (SurbBalancerConfig Rest))
  updateSurbBalancerConfig : Session → SurbBalancerConfig Rest → Except String Session

variable {Target Flow Rest Session : Type}

namespace HoprLib

variable (lib : HoprLib Target Flow Rest Session)

/-- The configuration holds two packets, and its sizes in bytes and bits fit `u64`. -/
def Settled (cfg : SurbBalancerConfig Rest) : Prop :=
  2 ≤ cfg.targetSurbBufferSize.toNat ∧
  cfg.targetSurbBufferSize.toNat * lib.sessionMtu < 2 ^ 64 ∧
  cfg.maxSurbsPerSec.toNat * (8 * lib.surbSize) < 2 ^ 64

/-- What the code relies on: the constants and the default are sensible, a session has
the configuration it was given last, and a session with a SURB balancer takes a new
one. -/
structure Lawful : Prop where
  sessionMtu_pos : 0 < lib.sessionMtu
  sessionMtu_lt : 2 * lib.sessionMtu < 2 ^ 64
  surbSize_pos : 0 < lib.surbSize
  surbSize_lt : 8 * lib.surbSize < 2 ^ 64
  default_settled : lib.Settled lib.default
  get_connect : ∀ cfg, (∀ c, cfg = some c → lib.Settled c) →
    lib.getSurbBalancerConfig (lib.connect cfg) = .ok cfg
  get_update : ∀ s cfg s', lib.Settled cfg → lib.updateSurbBalancerConfig s cfg = .ok s' →
    lib.getSurbBalancerConfig s' = .ok (some cfg)
  update_managed : ∀ s cur cfg, lib.getSurbBalancerConfig s = .ok (some cur) → lib.Settled cfg →
    ∃ s', lib.updateSurbBalancerConfig s cfg = .ok s'

end HoprLib

/-! ## The two conversions -/

/-- mirrors rest-api/src/session.rs:942-974 -/
structure SessionConfig where
  responseBuffer : Option ByteSize
  maxSurbUpstream : Option Bandwidth
  deriving DecidableEq

namespace HoprLib

variable (lib : HoprLib Target Flow Rest Session)

/-- mirrors rest-api/src/session.rs:976-997 -/
def toSurbBalancer (value : SessionConfig) : Option (SurbBalancerConfig Rest) :=
  match value.responseBuffer with
  | some bufferSize =>
    if 2 * lib.sessionMtu ≤ bufferSize.toNat then
      some { lib.default with
        targetSurbBufferSize := UInt64.ofNat (bufferSize.toNat / lib.sessionMtu)
        maxSurbsPerSec := match value.maxSurbUpstream with
          | some b => UInt64.ofNat (b.asUsize / (8 * lib.surbSize))
          | none => lib.default.maxSurbsPerSec }
    else none
  | none => some lib.default

/-- mirrors rest-api/src/session.rs:999-1011 -/
def fromSurbBalancer (value : SurbBalancerConfig Rest) : SessionConfig where
  responseBuffer := some (value.targetSurbBufferSize * UInt64.ofNat lib.sessionMtu)
  maxSurbUpstream :=
    some (.fromBps (value.maxSurbsPerSec * UInt64.ofNat (8 * lib.surbSize)))

end HoprLib

/-! ## Creating, changing and reading -/

inductive TransportCapability where
  | segmentation
  | retransmissionAck
  | retransmissionNack
  | noDelay
  | noRateControl
  | usePix
  deriving DecidableEq, Repr

/-- mirrors rest-api/src/session.rs:106-119 -/
inductive SessionCapability where
  | segmentation
  | retransmission
  | retransmissionAckOnly
  | noDelay
  | noRateControl
  | usePix
  deriving DecidableEq, Repr

/-- The flags a capability sets.
mirrors rest-api/src/session.rs:121-145 -/
def SessionCapability.flags : SessionCapability → List TransportCapability
  | segmentation => [.segmentation]
  | retransmission => [.retransmissionNack, .retransmissionAck]
  | retransmissionAckOnly => [.retransmissionAck]
  | noDelay => [.noDelay]
  | noRateControl => [.noRateControl]
  | usePix => [.usePix]

/-- mirrors rest-api/src/session.rs:147-153 -/
inductive RoutingOptions where
  | hops (n : Nat)
  | intermediatePath (path : List String)
  deriving DecidableEq, Repr

/-- mirrors rest-api/src/config.rs:75-84 -/
inductive SessionFlowControl where
  | off
  | clean
  | robust
  deriving DecidableEq, Repr

/-- mirrors rest-api/src/session.rs:207-275 -/
structure SessionClientRequest where
  destination : Address
  forwardPath : RoutingOptions
  returnPath : RoutingOptions
  target : SessionTargetSpec
  capabilities : Option (List SessionCapability)
  responseBuffer : Option ByteSize
  maxSurbUpstream : Option Bandwidth
  flowControl : Option SessionFlowControl

/-- The SURB parameters of a request. -/
def SessionClientRequest.sessionConfig (request : SessionClientRequest) : SessionConfig :=
  ⟨request.responseBuffer, request.maxSurbUpstream⟩

structure HoprSessionClientConfig (Flow Rest : Type) where
  forwardPath : Nat
  returnPath : Nat
  capabilities : List TransportCapability
  surbManagement : Option (SurbBalancerConfig Rest)
  flowControl : Option Flow

/-- The open sessions of all listeners, by id. -/
abbrev Sessions (Session : Type) := SessionId → Option Session

namespace HoprLib

variable (lib : HoprLib Target Flow Rest Session)

/-- mirrors rest-api/src/config.rs:86-96 -/
def flowControlConfig : SessionFlowControl → Option Flow
  | .off => none
  | .clean => some lib.flowDefault
  | .robust => some lib.flowRobust

/-- mirrors rest-api/src/session.rs:155-168 -/
def routing : RoutingOptions → Except String Nat
  | .hops n => lib.hopRouting n
  | .intermediatePath _ => .error (lib.parseError
      "explicit path routing is only supported on /session/\x7bprotocol\x7d/explicit-path")

/-- mirrors rest-api/src/session.rs:277-323 -/
def intoProtocolSessionConfig (request : SessionClientRequest) (targetProtocol : IpProtocol)
    (flowControl : Option Flow) :
    Except ApiErrorStatus (Address × Target × HoprSessionClientConfig Flow Rest) := do
  let capabilities := match request.capabilities with
    | some vs => vs.flatMap SessionCapability.flags
    | none => match targetProtocol with
      | .tcp => [.retransmissionAck, .retransmissionNack, .segmentation]
      | .udp => SessionCapability.segmentation.flags
  let target ← (lib.intoTarget request.target targetProtocol).mapError .unknownFailure
  let forwardPath ← (lib.routing request.forwardPath).mapError .unknownFailure
  let returnPath ← (lib.routing request.returnPath).mapError .unknownFailure
  return (request.destination, target, {
    forwardPath := forwardPath
    returnPath := returnPath
    capabilities := capabilities
    surbManagement :=
      lib.toSurbBalancer ⟨request.responseBuffer, request.maxSurbUpstream⟩
    flowControl := match request.flowControl with
      | some profile => lib.flowControlConfig profile
      | none => flowControl })

/-- Answers `204`; an error has a status of its own and leaves the sessions alone.
mirrors rest-api/src/session.rs:1038-1067 -/
def adjustSession (state : Sessions Session) (sessionId : String) (args : SessionConfig) :
    Except (Nat × ApiErrorStatus) (Sessions Session) :=
  match lib.fromHex sessionId with
  | none => .error (400, .invalidSessionId)
  | some sid =>
    match lib.toSurbBalancer args with
    | none => .error (400, .invalidInput)
    | some cfg =>
      match state sid with
      | none => .error (404, .sessionNotFound)
      | some configurator =>
        match lib.updateSurbBalancerConfig configurator cfg with
        | .ok s => .ok (update state sid (some s))
        | .error e => .error (406, .unknownFailure e)

/-- Answers `200`.
mirrors rest-api/src/session.rs:1089-1118 -/
def sessionConfig (state : Sessions Session) (sessionId : String) :
    Except (Nat × ApiErrorStatus) SessionConfig :=
  match lib.fromHex sessionId with
  | none => .error (400, .invalidSessionId)
  | some sid =>
    match state sid with
    | none => .error (404, .sessionNotFound)
    | some configurator =>
      match lib.getSurbBalancerConfig configurator with
      | .ok (some cfg) => .ok (lib.fromSurbBalancer cfg)
      | .ok none => .error (404, .sessionNotFound)
      | .error e => .error (422, .unknownFailure e)

end HoprLib

/-! ## What the conversions do -/

section
variable {lib : HoprLib Target Flow Rest Session}

/-- The three bodies that convert, and what they convert to. -/
theorem toSurbBalancer_cases {value : SessionConfig} {cfg : SurbBalancerConfig Rest}
    (h : lib.toSurbBalancer value = some cfg) :
    (value.responseBuffer = none ∧ cfg = lib.default) ∨
    (∃ b, value.responseBuffer = some b ∧ 2 * lib.sessionMtu ≤ b.toNat ∧
      cfg.targetSurbBufferSize = UInt64.ofNat (b.toNat / lib.sessionMtu) ∧
      (value.maxSurbUpstream = none → cfg.maxSurbsPerSec = lib.default.maxSurbsPerSec) ∧
      ∀ u, value.maxSurbUpstream = some u →
        cfg.maxSurbsPerSec = UInt64.ofNat (u.asUsize / (8 * lib.surbSize))) := by
  unfold HoprLib.toSurbBalancer at h
  cases hb : value.responseBuffer with
  | none =>
    rw [hb] at h
    exact .inl ⟨rfl, (Option.some.inj h).symm⟩
  | some b =>
    simp only [hb] at h
    by_cases hsize : 2 * lib.sessionMtu ≤ b.toNat
    · rw [if_pos hsize] at h
      obtain rfl := Option.some.inj h
      refine .inr ⟨b, rfl, hsize, rfl, ?_, ?_⟩
      · intro hu
        simp only [hu]
      · intro u hu
        simp only [hu]
    · rw [if_neg hsize] at h
      cases h

/-- A quotient of a `u64` fits `u64`. -/
theorem toNat_ofNat_div {n : Nat} (d : Nat) (h : n < 2 ^ 64) :
    (UInt64.ofNat (n / d)).toNat = n / d := by
  rw [UInt64.toNat_ofNat', Nat.mod_eq_of_lt (lt_of_le_of_lt (Nat.div_le_self n d) h)]

theorem settled_toSurbBalancer (lawful : lib.Lawful) {value : SessionConfig}
    {cfg : SurbBalancerConfig Rest} (h : lib.toSurbBalancer value = some cfg) :
    lib.Settled cfg := by
  have hdefault := lawful.default_settled
  rcases toSurbBalancer_cases h with ⟨-, rfl⟩ | ⟨b, -, hsize, htarget, hnone, hsome⟩
  · exact hdefault
  · have hb := b.toNat_lt
    have hquot := toNat_ofNat_div lib.sessionMtu hb
    refine ⟨?_, ?_, ?_⟩
    · rw [htarget, hquot, Nat.le_div_iff_mul_le lawful.sessionMtu_pos]
      exact hsize
    · rw [htarget, hquot]
      exact lt_of_le_of_lt (Nat.div_mul_le_self _ _) hb
    · cases hu : value.maxSurbUpstream with
      | none =>
        rw [hnone hu]
        exact hdefault.2.2
      | some u =>
        have hlt : u.asUsize < 2 ^ 64 := Nat.mod_lt _ (by omega)
        rw [hsome u hu, toNat_ofNat_div _ hlt]
        exact lt_of_le_of_lt (Nat.div_mul_le_self _ _) hlt

/-- Neither product of the way back wraps. -/
theorem fromSurbBalancer_exact (lawful : lib.Lawful) {cfg : SurbBalancerConfig Rest}
    (h : lib.Settled cfg) :
    ∃ b u, lib.fromSurbBalancer cfg = ⟨some b, some u⟩ ∧
      b.toNat = cfg.targetSurbBufferSize.toNat * lib.sessionMtu ∧
      u.asBps = cfg.maxSurbsPerSec.toNat * (8 * lib.surbSize) := by
  obtain ⟨-, htarget, hmax⟩ := h
  have hmtu : (UInt64.ofNat lib.sessionMtu).toNat = lib.sessionMtu := by
    have := lawful.sessionMtu_lt
    rw [UInt64.toNat_ofNat']
    omega
  have hsurb : (UInt64.ofNat (8 * lib.surbSize)).toNat = 8 * lib.surbSize := by
    rw [UInt64.toNat_ofNat', Nat.mod_eq_of_lt lawful.surbSize_lt]
  refine ⟨_, _, rfl, ?_, ?_⟩
  · rw [UInt64.toNat_mul, hmtu, Nat.mod_eq_of_lt htarget]
  · rw [Bandwidth.asBps_fromBps, UInt64.toNat_mul, hsurb, Nat.mod_eq_of_lt hmax]

end

/-! ## What a change takes and what it keeps -/

section
variable (lib : HoprLib Target Flow Rest Session)

/-- What was given took effect, and what was not is as in `cur`. -/
def Effective (cur : SurbBalancerConfig Rest) (body : SessionConfig)
    (after : SurbBalancerConfig Rest) : Prop :=
  (match body.maxSurbUpstream with
    | some u => after.maxSurbsPerSec.toNat = u.asBps / (8 * lib.surbSize)
    | none => after.maxSurbsPerSec = cur.maxSurbsPerSec) ∧
  match body.responseBuffer with
  | some b => after.targetSurbBufferSize.toNat = b.toNat / lib.sessionMtu
  | none => after.targetSurbBufferSize = cur.targetSurbBufferSize

/-- The bodies that do what they say: the bandwidth fits `u64` when both are given, and
what the default replaces was the default already. -/
def Honoured (cur : SurbBalancerConfig Rest) (body : SessionConfig) : Prop :=
  match body.responseBuffer, body.maxSurbUpstream with
  | some _, some u => u.asBps < 2 ^ 64
  | some _, none => cur.maxSurbsPerSec = lib.default.maxSurbsPerSec
  | none, some u => cur.targetSurbBufferSize = lib.default.targetSurbBufferSize ∧
      u.asBps / (8 * lib.surbSize) = lib.default.maxSurbsPerSec.toNat
  | none, none => cur.targetSurbBufferSize = lib.default.targetSurbBufferSize ∧
      cur.maxSurbsPerSec = lib.default.maxSurbsPerSec

end

section
variable {lib : HoprLib Target Flow Rest Session}

/-- The cast to `usize` keeps the quotient only of what fits. -/
theorem div_asUsize_iff (lawful : lib.Lawful) (u : Bandwidth) :
    u.asUsize / (8 * lib.surbSize) = u.asBps / (8 * lib.surbSize) ↔ u.asBps < 2 ^ 64 := by
  have hpos : 0 < 8 * lib.surbSize := by
    have := lawful.surbSize_pos
    omega
  constructor
  · intro h
    by_contra hbig
    have hmod := Nat.div_add_mod u.asBps (2 ^ 64)
    have hover : u.asUsize + 8 * lib.surbSize ≤ u.asBps := by
      have hsize := lawful.surbSize_lt
      have hquot : 1 ≤ u.asBps / 2 ^ 64 := by omega
      unfold Bandwidth.asUsize
      omega
    have hstep := Nat.div_le_div_right (c := 8 * lib.surbSize) hover
    rw [Nat.add_div_right _ hpos] at hstep
    omega
  · intro h
    rw [Bandwidth.asUsize, Nat.mod_eq_of_lt h]

theorem effective_iff (lawful : lib.Lawful) {cur cfg : SurbBalancerConfig Rest}
    {body : SessionConfig} (h : lib.toSurbBalancer body = some cfg) :
    Effective lib cur body cfg ↔ Honoured lib cur body := by
  rcases toSurbBalancer_cases h with ⟨hb, rfl⟩ | ⟨b, hb, -, htarget, hnone, hsome⟩
  · -- no buffer given: the default replaces everything
    cases hu : body.maxSurbUpstream with
    | none =>
      simp only [Effective, Honoured, hb, hu]
      rw [and_comm, eq_comm, @eq_comm _ lib.default.maxSurbsPerSec]
    | some u =>
      simp only [Effective, Honoured, hb, hu]
      rw [and_comm, eq_comm, @eq_comm _ lib.default.maxSurbsPerSec.toNat]
  · have hquot : cfg.targetSurbBufferSize.toNat = b.toNat / lib.sessionMtu := by
      rw [htarget, toNat_ofNat_div _ b.toNat_lt]
    cases hu : body.maxSurbUpstream with
    | none =>
      simp only [Effective, Honoured, hb, hu, hnone hu, hquot, and_true]
      exact eq_comm
    | some u =>
      have hlt : u.asUsize < 2 ^ 64 := Nat.mod_lt _ (by omega)
      simp only [Effective, Honoured, hb, hu, hsome u hu, hquot, and_true, toNat_ofNat_div _ hlt]
      exact div_asUsize_iff lawful u

theorem adjustSession_ok {state state' : Sessions Session} {sessionId : String}
    {args : SessionConfig} (h : lib.adjustSession state sessionId args = .ok state') :
    ∃ sid cfg s s', lib.fromHex sessionId = some sid ∧ lib.toSurbBalancer args = some cfg ∧
      state sid = some s ∧ lib.updateSurbBalancerConfig s cfg = .ok s' ∧
      state' = update state sid (some s') := by
  unfold HoprLib.adjustSession at h
  cases hid : lib.fromHex sessionId with
  | none => simp [hid] at h
  | some sid =>
    cases hcfg : lib.toSurbBalancer args with
    | none => simp [hid, hcfg] at h
    | some cfg =>
      cases hs : state sid with
      | none => simp [hid, hcfg, hs] at h
      | some s =>
        cases hup : lib.updateSurbBalancerConfig s cfg with
        | error e => simp [hid, hcfg, hs, hup] at h
        | ok s' =>
          simp only [hid, hcfg, hs, hup, Except.ok.injEq] at h
          exact ⟨sid, cfg, s, s', rfl, rfl, hs, hup, h.symm⟩

/-- After an accepted change the session has what its body converts to. -/
theorem adjustSession_get (lawful : lib.Lawful) {state state' : Sessions Session} {id : String}
    {sid : SessionId} {args : SessionConfig} (hid : lib.fromHex id = some sid)
    (h : lib.adjustSession state id args = .ok state') :
    ∃ cfg s', lib.toSurbBalancer args = some cfg ∧ state' sid = some s' ∧
      lib.getSurbBalancerConfig s' = .ok (some cfg) := by
  obtain ⟨sid', cfg, s, s', hid', hcfg, -, hup, rfl⟩ := adjustSession_ok h
  obtain rfl : sid = sid' := Option.some.inj (hid.symm.trans hid')
  have hget := lawful.get_update _ _ _ (settled_toSurbBalancer lawful hcfg) hup
  exact ⟨cfg, s', hcfg, update_self .., hget⟩

theorem intoProtocolSessionConfig_surb {request : SessionClientRequest} {protocol : IpProtocol}
    {flow : Option Flow} {destination : Address} {target : Target}
    {config : HoprSessionClientConfig Flow Rest}
    (h : lib.intoProtocolSessionConfig request protocol flow = .ok (destination, target, config)) :
    config.surbManagement = lib.toSurbBalancer request.sessionConfig := by
  unfold HoprLib.intoProtocolSessionConfig at h
  obtain ⟨target', -, h⟩ := bind_ok h
  obtain ⟨forwardPath, -, h⟩ := bind_ok h
  obtain ⟨returnPath, -, h⟩ := bind_ok h
  have hconfig := pure_ok h
  simp only [Prod.mk.injEq] at hconfig
  rw [← hconfig.2.2]
  rfl

/-- **Parameters take effect only in part.** An accepted change, and a session created
with SURB management, have what was given and keep what was not exactly if the body is
`Honoured`, relative to the current configuration and to the default. -/
theorem surb_parameters_iff (lawful : lib.Lawful) :
    (∀ (state state' : Sessions Session) (id : String) (sid : SessionId) (s : Session)
      (cur : SurbBalancerConfig Rest) (body : SessionConfig),
      lib.fromHex id = some sid → state sid = some s →
      lib.getSurbBalancerConfig s = .ok (some cur) →
      lib.adjustSession state id body = .ok state' →
      ∃ s' after, state' sid = some s' ∧ lib.getSurbBalancerConfig s' = .ok (some after) ∧
        (Effective lib cur body after ↔ Honoured lib cur body)) ∧
    ∀ (request : SessionClientRequest) (protocol : IpProtocol) (flow : Option Flow)
      (destination : Address) (target : Target) (config : HoprSessionClientConfig Flow Rest)
      (created : SurbBalancerConfig Rest),
      lib.intoProtocolSessionConfig request protocol flow = .ok (destination, target, config) →
      config.surbManagement = some created →
      (Effective lib lib.default request.sessionConfig created ↔
        Honoured lib lib.default request.sessionConfig) := by
  constructor
  · intro state state' id sid s cur body hid hs _ hadjust
    obtain ⟨cfg, s', hcfg, hs', hget⟩ := adjustSession_get lawful hid hadjust
    exact ⟨s', cfg, hs', hget, effective_iff lawful hcfg⟩
  · intro request protocol flow destination target config created hinto hcreated
    rw [intoProtocolSessionConfig_surb hinto] at hcreated
    exact effective_iff lawful hcreated

end

/-! ## Reading a configuration and posting it back -/

/-- The JSON body. -/
structure SessionConfigJson where
  responseBuffer : Option String
  maxSurbUpstream : Option String
  deriving DecidableEq, Repr

/-- The texts of the two fields: `bytesize`'s `Display` and `FromStr`, and those of
`human_bandwidth`, which renders exactly. -/
structure TextFormat where
  showSize : ByteSize → String
  parseSize : String → Option ByteSize
  showBandwidth : Bandwidth → String
  parseBandwidth : String → Option Bandwidth
  parse_showBandwidth : ∀ b, parseBandwidth (showBandwidth b) = some b

def TextFormat.serialize (text : TextFormat) (c : SessionConfig) : SessionConfigJson where
  responseBuffer := c.responseBuffer.map text.showSize
  maxSurbUpstream := c.maxSurbUpstream.map text.showBandwidth

/-- `none` if the body is refused. -/
def TextFormat.deserialize (text : TextFormat) (json : SessionConfigJson) :
    Option SessionConfig := do
  let responseBuffer ← json.responseBuffer.mapM text.parseSize
  let maxSurbUpstream ← json.maxSurbUpstream.mapM text.parseBandwidth
  return ⟨responseBuffer, maxSurbUpstream⟩

/-- What a client can have done. -/
inductive Label (Flow : Type) where
  | createClient (sid : SessionId) (request : SessionClientRequest) (protocol : IpProtocol)
      (flowControl : Option Flow)
  | adjustSession (sessionId : String) (args : SessionConfig)
  | sessionConfig (sessionId : String)

section
variable (lib : HoprLib Target Flow Rest Session)

/-- An accepted call. -/
def step (state : Sessions Session) : Label Flow → Option (Sessions Session)
  | .createClient sid request protocol flowControl =>
    match state sid, lib.intoProtocolSessionConfig request protocol flowControl with
    | none, .ok (_, _, config) => some (update state sid (some (lib.connect config.surbManagement)))
    | _, _ => none
  | .adjustSession sessionId args => (lib.adjustSession state sessionId args).toOption
  | .sessionConfig sessionId => (lib.sessionConfig state sessionId).toOption.map fun _ => state

def system : LTS (Sessions Session) (Label Flow) :=
  .ofFn (fun state => state = fun _ => none) (step lib)

/-- What `sessionConfig` answers, posted to `adjustSession`; `none` if either is
refused. -/
def getThenPost (text : TextFormat) (state : Sessions Session) (sessionId : String) :
    Option (Sessions Session) := do
  let body ← (lib.sessionConfig state sessionId).toOption
  let args ← text.deserialize (text.serialize body)
  (lib.adjustSession state sessionId args).toOption

/-- Reading and posting back is accepted and changes neither number. -/
def Unchanged (text : TextFormat) (state : Sessions Session) (sessionId : String)
    (sid : SessionId) (cfg : SurbBalancerConfig Rest) : Prop :=
  ∃ state' s' cfg', getThenPost lib text state sessionId = some state' ∧ state' sid = some s' ∧
    lib.getSurbBalancerConfig s' = .ok (some cfg') ∧
    cfg'.targetSurbBufferSize = cfg.targetSurbBufferSize ∧
    cfg'.maxSurbsPerSec = cfg.maxSurbsPerSec

/-- Neither conversion overflows: the way back is exact, and its bandwidth survives the
cast on the way in. -/
def NoOverflow (cfg : SurbBalancerConfig Rest) : Prop :=
  ∃ b u, lib.fromSurbBalancer cfg = ⟨some b, some u⟩ ∧
    b.toNat = cfg.targetSurbBufferSize.toNat * lib.sessionMtu ∧
    u.asBps = cfg.maxSurbsPerSec.toNat * (8 * lib.surbSize) ∧ u.asUsize = u.asBps

/-- The text of `target` packets stands for a size of `target` packets and less than one
packet more. -/
def Survives (text : TextFormat) (target : Nat) : Prop :=
  ∃ v, text.parseSize (text.showSize (UInt64.ofNat (target * lib.sessionMtu))) = some v ∧
    target * lib.sessionMtu ≤ v.toNat ∧ v.toNat < (target + 1) * lib.sessionMtu

/-- Every configuration of an open session is settled. -/
def Inv (state : Sessions Session) : Prop :=
  ∀ sid s, state sid = some s → ∀ cfg, lib.getSurbBalancerConfig s = .ok (some cfg) →
    lib.Settled cfg

end

section
variable {lib : HoprLib Target Flow Rest Session}

theorem Inv.update {state : Sessions Session} (hinv : Inv lib state) (sid : SessionId)
    {s : Session} (hs : ∀ cfg, lib.getSurbBalancerConfig s = .ok (some cfg) → lib.Settled cfg) :
    Inv lib (update state sid (some s)) := by
  intro sid' s' hs' cfg hget
  by_cases hsame : sid' = sid
  · subst hsame
    rw [update_self] at hs'
    obtain rfl := Option.some.inj hs'
    exact hs cfg hget
  · rw [update_of_ne hsame] at hs'
    exact hinv sid' s' hs' cfg hget

theorem inv_step (lawful : lib.Lawful) {state state' : Sessions Session} {l : Label Flow}
    (hinv : Inv lib state) (h : step lib state l = some state') : Inv lib state' := by
  cases l with
  | createClient sid request protocol flowControl =>
    simp only [step] at h
    split at h
    · next destination target config hfree hinto =>
      obtain rfl := Option.some.inj h
      apply hinv.update
      intro cfg hget
      have hsettled : ∀ c, config.surbManagement = some c → lib.Settled c := by
        intro c hc
        rw [intoProtocolSessionConfig_surb hinto] at hc
        exact settled_toSurbBalancer lawful hc
      rw [lawful.get_connect _ hsettled] at hget
      exact hsettled cfg (Except.ok.inj hget)
    · cases h
  | adjustSession sessionId args =>
    obtain ⟨sid, cfg, s, s', -, hcfg, -, hup, rfl⟩ := adjustSession_ok (toOption_eq_some.mp h)
    have hsettled := settled_toSurbBalancer lawful hcfg
    apply hinv.update
    intro cfg' hget
    rw [lawful.get_update _ _ _ hsettled hup] at hget
    obtain rfl := Option.some.inj (Except.ok.inj hget)
    exact hsettled
  | sessionConfig sessionId =>
    unfold step at h
    obtain ⟨_, _, rfl⟩ := Option.map_eq_some_iff.mp h
    exact hinv

theorem inv_reachable (lawful : lib.Lawful) {state : Sessions Session}
    (h : (system lib).Reachable state) : Inv lib state := by
  have hind : (system lib).Inductive (Inv lib) := by
    constructor
    · rintro state rfl sid s hs
      cases hs
    · intro state l state' hinv hstep
      exact inv_step lawful hinv hstep
  exact hind.reachable state h

theorem sessionConfig_of_get {state : Sessions Session} {id : String} {sid : SessionId}
    {s : Session} {cfg : SurbBalancerConfig Rest} (hid : lib.fromHex id = some sid)
    (hs : state sid = some s) (hget : lib.getSurbBalancerConfig s = .ok (some cfg)) :
    lib.sessionConfig state id = .ok (lib.fromSurbBalancer cfg) := by
  unfold HoprLib.sessionConfig
  simp only [hid, hs, hget]

theorem adjustSession_of_update {state : Sessions Session} {id : String} {sid : SessionId}
    {s s' : Session} {args : SessionConfig} {cfg : SurbBalancerConfig Rest}
    (hid : lib.fromHex id = some sid) (hs : state sid = some s)
    (hcfg : lib.toSurbBalancer args = some cfg)
    (hup : lib.updateSurbBalancerConfig s cfg = .ok s') :
    lib.adjustSession state id args = .ok (update state sid (some s')) := by
  unfold HoprLib.adjustSession
  simp only [hid, hs, hcfg, hup]

/-- Only the size can change on the wire. -/
theorem deserialize_serialize (text : TextFormat) (b : ByteSize) (u : Bandwidth) :
    text.deserialize (text.serialize ⟨some b, some u⟩) =
      (text.parseSize (text.showSize b)).map fun v => ⟨some v, some u⟩ := by
  simp only [TextFormat.deserialize, TextFormat.serialize, Option.map_some, Option.mapM_some,
    text.parse_showBandwidth]
  cases text.parseSize (text.showSize b) with
  | none => rfl
  | some v => rfl

/-- Posting back is changing to the parsed size and the bandwidth that was read. -/
theorem getThenPost_eq_some {text : TextFormat} {state state' : Sessions Session} {id : String}
    {sid : SessionId} {s : Session} {cfg : SurbBalancerConfig Rest} {b : ByteSize} {u : Bandwidth}
    (hid : lib.fromHex id = some sid) (hs : state sid = some s)
    (hget : lib.getSurbBalancerConfig s = .ok (some cfg))
    (hfrom : lib.fromSurbBalancer cfg = ⟨some b, some u⟩) :
    getThenPost lib text state id = some state' ↔
      ∃ v, text.parseSize (text.showSize b) = some v ∧
        lib.adjustSession state id ⟨some v, some u⟩ = .ok state' := by
  have hbody : (lib.sessionConfig state id).toOption = some ⟨some b, some u⟩ := by
    rw [sessionConfig_of_get hid hs hget, hfrom]
    rfl
  unfold getThenPost
  simp only [hbody, bind, Option.bind_some, deserialize_serialize, Option.bind_map,
    Option.bind_eq_some_iff, Function.comp_apply, toOption_eq_some]

/-- The conversion of a body that gives both. -/
theorem toSurbBalancer_both {v : ByteSize} {u : Bandwidth} (h : 2 * lib.sessionMtu ≤ v.toNat) :
    ∃ cfg, lib.toSurbBalancer ⟨some v, some u⟩ = some cfg ∧
      cfg.targetSurbBufferSize = UInt64.ofNat (v.toNat / lib.sessionMtu) ∧
      cfg.maxSurbsPerSec = UInt64.ofNat (u.asUsize / (8 * lib.surbSize)) :=
  ⟨_, if_pos h, rfl, rfl⟩

/-- A bandwidth that stands for `m` SURBs is not cut, and stands for `m` SURBs. -/
theorem rate_exact (lawful : lib.Lawful) {m : UInt64} {u : Bandwidth}
    (hlt : m.toNat * (8 * lib.surbSize) < 2 ^ 64)
    (hu : u.asBps = m.toNat * (8 * lib.surbSize)) :
    u.asUsize = u.asBps ∧ UInt64.ofNat (u.asUsize / (8 * lib.surbSize)) = m := by
  have hpos := lawful.surbSize_pos
  have hcast : u.asUsize = u.asBps := by
    rw [Bandwidth.asUsize, Nat.mod_eq_of_lt (by omega)]
  refine ⟨hcast, ?_⟩
  rw [hcast, hu, Nat.mul_div_cancel _ (by omega)]
  exact UInt64.ofNat_toNat

/-- The sizes that count as `target` packets. -/
theorem div_sessionMtu_iff (lawful : lib.Lawful) {n target : Nat} :
    n / lib.sessionMtu = target ↔
      target * lib.sessionMtu ≤ n ∧ n < (target + 1) * lib.sessionMtu := by
  have hmtu := lawful.sessionMtu_pos
  rw [Nat.div_eq_iff hmtu, Nat.succ_mul]
  omega

/-- **What was read can be posted back only if its text is faithful enough.** In every
state reached by accepted calls neither conversion overflows, and reading a session's
configuration and posting it back is accepted and leaves both numbers as they were
exactly if the rendered buffer size `Survives`. -/
theorem config_survives_iff (lawful : lib.Lawful) (text : TextFormat) {state : Sessions Session}
    (h : (system lib).Reachable state) {id : String} {sid : SessionId} {s : Session}
    {cfg : SurbBalancerConfig Rest} (hid : lib.fromHex id = some sid) (hs : state sid = some s)
    (hget : lib.getSurbBalancerConfig s = .ok (some cfg)) :
    NoOverflow lib cfg ∧
    (Unchanged lib text state id sid cfg ↔
      Survives lib text cfg.targetSurbBufferSize.toNat) := by
  have hsettled := inv_reachable lawful h sid s hs cfg hget
  obtain ⟨b, u, hfrom, hb, hu⟩ := fromSurbBalancer_exact lawful hsettled
  obtain ⟨htwo, htarget, hmax⟩ := hsettled
  obtain ⟨hcast, hrate⟩ := rate_exact lawful hmax hu
  have hsize : UInt64.ofNat (cfg.targetSurbBufferSize.toNat * lib.sessionMtu) = b := by
    rw [← hb]
    exact UInt64.ofNat_toNat
  refine ⟨⟨b, u, hfrom, hb, hu, hcast⟩, ?_⟩
  unfold Unchanged Survives
  simp only [hsize, getThenPost_eq_some hid hs hget hfrom]
  constructor
  · rintro ⟨state', s', cfg', ⟨v, hv, hadjust⟩, hs', hget', htarget', -⟩
    obtain ⟨cfg'', s'', hcfg, hs'', hget''⟩ := adjustSession_get lawful hid hadjust
    obtain rfl := Option.some.inj (hs''.symm.trans hs')
    obtain rfl := Option.some.inj (Except.ok.inj (hget''.symm.trans hget'))
    rcases toSurbBalancer_cases hcfg with ⟨hnone, -⟩ | ⟨v', hv', -, hquot, -, -⟩
    · cases hnone
    · obtain rfl : v = v' := Option.some.inj hv'
      have hdiv : v.toNat / lib.sessionMtu = cfg.targetSurbBufferSize.toNat := by
        rw [← htarget', hquot, toNat_ofNat_div _ v.toNat_lt]
      exact ⟨v, hv, (div_sessionMtu_iff lawful).mp hdiv⟩
  · rintro ⟨v, hv, hbetween⟩
    have htwoMtu : 2 * lib.sessionMtu ≤ v.toNat :=
      le_trans (Nat.mul_le_mul_right _ htwo) hbetween.1
    have hdiv : UInt64.ofNat (v.toNat / lib.sessionMtu) = cfg.targetSurbBufferSize := by
      rw [(div_sessionMtu_iff lawful).mpr hbetween]
      exact UInt64.ofNat_toNat
    obtain ⟨cfg', hcfg, htarget', hmax'⟩ := toSurbBalancer_both htwoMtu (u := u)
    have hsettled' := settled_toSurbBalancer lawful hcfg
    obtain ⟨s', hup⟩ := lawful.update_managed s cfg cfg' hget hsettled'
    exact ⟨_, s', cfg', ⟨v, hv, adjustSession_of_update hid hs hcfg hup⟩, update_self ..,
      lawful.get_update _ _ _ hsettled' hup, htarget'.trans hdiv, hmax'.trans hrate⟩

end

/-! ## A library -/

/-- Packets of 1452 bytes; only a session with a SURB balancer can be reconfigured. -/
def demoLib : HoprLib Unit Unit Unit (Option (SurbBalancerConfig Unit)) where
  sessionMtu := 1452
  surbSize := 398
  default := ⟨7000, 5000, ()⟩
  fromHex := fun t => if t = "0x00" then some 0 else none
  intoTarget := fun _ _ => .ok ()
  hopRouting := fun n => if n ≤ 3 then .ok n else .error "too many hops"
  parseError := fun t => "parse error: " ++ t
  flowDefault := ()
  flowRobust := ()
  connect := id
  getSurbBalancerConfig := .ok
  updateSurbBalancerConfig := fun s cfg =>
    match s with
    | some _ => .ok (some cfg)
    | none => .error "cannot update a session without SURB balancing"

theorem demoLib_lawful : demoLib.Lawful where
  sessionMtu_pos := by decide
  sessionMtu_lt := by decide
  surbSize_pos := by decide
  surbSize_lt := by decide
  default_settled := by
    unfold HoprLib.Settled
    decide
  get_connect := fun _ _ => rfl
  get_update := by
    intro s cfg s' _ hup
    cases s with
    | none => cases hup
    | some cur =>
      obtain rfl := Except.ok.inj hup
      rfl
  update_managed := by
    intro s cur cfg hget _
    obtain rfl := Except.ok.inj hget
    exact ⟨some cfg, rfl⟩

/-- One body for both parts: the bandwidth alone, for a session at 1000 packets. -/
def upstreamAlone : SessionConfig := ⟨none, some (.fromBps 2000000)⟩

/-- The bandwidth alone is accepted, ignored, and resets the buffer to the default. -/
theorem upstream_alone_is_ignored :
    ∃ state' after,
      demoLib.adjustSession (fun _ => some (some ⟨1000, 200, ()⟩)) "0x00" upstreamAlone =
        .ok state' ∧
      state' 0 = some (some after) ∧ after = demoLib.default ∧
      ¬ Effective demoLib ⟨1000, 200, ()⟩ upstreamAlone after := by
  refine ⟨_, demoLib.default, rfl, rfl, rfl, ?_⟩
  rintro ⟨-, htarget⟩
  have hkept : (7000 : UInt64) = 1000 := htarget
  exact absurd hkept (by decide)

theorem demo_parameters : ∃ s' after, update (fun _ => some (some ⟨1000, 200, ()⟩)) 0
      (some (some demoLib.default)) 0 = some s' ∧
    demoLib.getSurbBalancerConfig s' = .ok (some after) ∧
    (Effective demoLib ⟨1000, 200, ()⟩ upstreamAlone after ↔
      Honoured demoLib ⟨1000, 200, ()⟩ upstreamAlone) :=
  (surb_parameters_iff demoLib_lawful).1 (fun _ => some (some ⟨1000, 200, ()⟩)) _ "0x00" 0 _ _
    upstreamAlone rfl rfl rfl rfl

/-- A bandwidth is rendered in bits; of the sizes only 1452000 bytes is. -/
def demoText : TextFormat where
  showSize := fun n => if n = 1452000 then "1.4 MiB" else n.toNat.repr ++ " B"
  parseSize := fun t => if t = "1.4 MiB" then some 1468006 else none
  showBandwidth := fun b => b.asBps.repr ++ "bps"
  parseBandwidth := fun t =>
    let n := Nat.ofDigitChars 10 (t.toList.take (t.toList.length - 3)) 0
    some {
      gbps := UInt64.ofNat (n / 1000000000)
      bps := UInt32.ofNat (n % 1000000000)
      bps_lt := by
        rw [UInt32.toNat_ofNat']
        omega }
  parse_showBandwidth := by
    intro b
    have hdigits : (b.asBps.repr ++ "bps").toList.take ((b.asBps.repr ++ "bps").toList.length - 3) =
        Nat.toDigits 10 b.asBps := by
      simp [Nat.toList_repr]
    have hlow := b.bps_lt
    have hdiv : b.asBps / 1000000000 = b.gbps.toNat := by
      unfold Bandwidth.asBps
      omega
    have hmod : b.asBps % 1000000000 = b.bps.toNat := by
      unfold Bandwidth.asBps
      omega
    simp only [hdigits, Nat.ofDigitChars_ten_toDigits, hdiv, hmod, UInt64.ofNat_toNat,
      UInt32.ofNat_toNat]

/-- A session with a buffer of a thousand packets and no SURBs beyond it. -/
def demoRequest : SessionClientRequest where
  destination := 1
  forwardPath := .hops 1
  returnPath := .hops 1
  target := .plain "localhost:8080"
  capabilities := none
  responseBuffer := some 1452000
  maxSurbUpstream := some (.fromBps 0)
  flowControl := none

def demoState : Sessions (Option (SurbBalancerConfig Unit)) :=
  update (fun _ => none) 0 (some (some ⟨1000, 0, ()⟩))

theorem demoState_reachable : (system demoLib).Reachable demoState :=
  .step (.init rfl) (l := .createClient 0 demoRequest .tcp none) rfl

/-- Read as `1.4 MiB`, posted back as 1011 packets. -/
theorem posting_back_grows :
    (system demoLib).Reachable demoState ∧ demoState 0 = some (some ⟨1000, 0, ()⟩) ∧
    (∃ state', getThenPost demoLib demoText demoState "0x00" = some state' ∧
      state' 0 = some (some ⟨1011, 0, ()⟩)) ∧
    ¬ Unchanged demoLib demoText demoState "0x00" 0 ⟨1000, 0, ()⟩ := by
  have hpost : getThenPost demoLib demoText demoState "0x00" =
      some (update demoState 0 (some (some ⟨1011, 0, ()⟩))) := by
    have hid : demoLib.fromHex "0x00" = some 0 := rfl
    have hcreated : demoState 0 = some (some ⟨1000, 0, ()⟩) := rfl
    have hread : demoLib.getSurbBalancerConfig (some ⟨1000, 0, ()⟩) =
        .ok (some ⟨1000, 0, ()⟩) := rfl
    rw [getThenPost_eq_some hid hcreated hread rfl]
    exact ⟨1468006, rfl, rfl⟩
  refine ⟨demoState_reachable, rfl, ⟨_, hpost, rfl⟩, ?_⟩
  rintro ⟨state', s', cfg', hpost', hs', hget', htarget, -⟩
  obtain rfl := Option.some.inj (hpost.symm.trans hpost')
  obtain rfl := Option.some.inj hs'
  obtain rfl := Option.some.inj (Except.ok.inj hget')
  exact absurd htarget (by decide)

theorem demo_config_survives :
    NoOverflow demoLib ⟨1000, 0, ()⟩ ∧
    (Unchanged demoLib demoText demoState "0x00" 0 ⟨1000, 0, ()⟩ ↔
      Survives demoLib demoText 1000) :=
  config_survives_iff demoLib_lawful demoText demoState_reachable rfl rfl rfl

end Hoprd.RestApi.SurbConfig
