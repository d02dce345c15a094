import Hoprd.Node.StrategyConfig

/-!
# The node's configuration (`hoprd/src/config.rs`, `rest-api/src/config.rs`)

`HoprdConfig` as the file and the command line fill it in, with every field the
source declares. Types of `hopr-lib` that hoprd only stores or passes on are
parameters (`LibTypes`); those whose fields hoprd writes are spelled out. `usize`
is 64 bits wide.
-/
namespace Hoprd.Config

/-- Types of `hopr-lib` and the session forwarder whose contents hoprd never
looks into. The `Rest` types are the fields behind a `..Default::default()`. -/
structure LibTypes where
  WinningProbability : Type
  Poisson : Type
  ReplayFilter : Type
  Reconstructor : Type
  TransitLatency : Type
  PathPlanner : Type
  Stream : Type
  PacketRest : Type
  PipelineRest : Type
  ProbeRest : Type
  SessionRest : Type
  TagAllocatorRest : Type
  LibRest : Type
  ForwarderRest : Type

/-- 20 bytes. -/
abbrev Address := BitVec 160

/-- A `U256` amount of wxHOPR in wei. -/
abbrev HoprBalance := BitVec 256

inductive HostType where
  | ipv4 (addr : String)
  | domain (name : String)
  deriving DecidableEq, Repr

structure HostConfig where
  address : HostType
  port : UInt16
  deriving DecidableEq, Repr

structure SafeModule where
  safeAddress : Address
  moduleAddress : Address
  deriving DecidableEq, Repr

structure UniformConfig where
  minDelay : Duration
  delayRange : Duration
  deriving DecidableEq, Repr

inductive MixerType (L : LibTypes) where
  | uniform (cfg : UniformConfig)
  | poisson (cfg : L.Poisson)

structure MixerConfig (L : LibTypes) where
  capacity : UInt64
  mixerType : MixerType L

/-! ## The operator-facing half -/

/-- mirrors hoprd/src/config.rs:265-317 -/
structure UserPixGlobalConfig where
  numSsaParts : UInt64
  ssaPartSize : UInt64
  additionalShares : Option UInt64
  maxSsasPerRequest : UInt64

/-- mirrors hoprd/src/config.rs:332-542 -/
structure UserIncomingSessionPixConfig where
  enforcePix : Bool
  quotaRangeMin : UInt64
  quotaRangeMax : UInt64
  maxSsaDeliveryTime : Duration
  maxDepositWait : Duration
  maxLiveCycleBytes : UInt64
  maxRecoveryTime : Duration
  maxServedWithoutProgress : UInt64
  ssasPerRequest : UInt64
  allowDynamicSsaBatches : Bool
  drainAfterClose : Bool
  fillEnabled : Bool
  fillMaxRate : UInt32
  fillFinishFraction : F64

/-- mirrors hoprd/src/config.rs:595-660 -/
structure UserHoprNetworkConfig (L : LibTypes) where
  sessionIdleTimeout : Duration
  maximumSessions : UInt64
  sessionEstablishMaxRetries : UInt64
  probeRecheckThreshold : Duration
  probeInterval : Duration
  announceLocalAddresses : Bool
  preferLocalAddresses : Bool
  outgoingTicketWinningProb : Option F64
  outgoingTicketPrice : Option HoprBalance
  minIncomingTicketPrice : Option HoprBalance
  mixer : MixerConfig L
  pix : UserPixGlobalConfig
  incomingSessionPix : UserIncomingSessionPixConfig

/-- mirrors hoprd/src/config.rs:662-690 -/
structure UserHoprLibConfig (L : LibTypes) where
  announce : Bool
  host : HostConfig
  safeModule : SafeModule
  network : UserHoprNetworkConfig L
  ticketStorageFile : Option String

/-! ## The other sections -/

/-- mirrors hoprd/src/config.rs:87-100 -/
structure Identity where
  file : String
  password : String
  privateKey : Option String
  deriving DecidableEq, Repr

/-- mirrors hoprd/src/config.rs:116-131 -/
structure Db where
  data : String
  initializeDb : Bool
  forceInitialize : Bool
  deriving DecidableEq, Repr

/-- mirrors rest-api/src/config.rs:24-29 -/
inductive Auth where
  | none
  | token (t : String)
  deriving DecidableEq, Repr

/-- mirrors rest-api/src/config.rs:60-82 -/
inductive SessionFlowControl where
  | off | clean | robust
  deriving DecidableEq, Repr

/-- mirrors rest-api/src/config.rs:31-58 -/
structure Api where
  enable : Bool
  auth : Auth
  host : HostConfig
  enableExplicitPathSessions : Bool
  sessionFlowControl : SessionFlowControl
  deriving DecidableEq, Repr

structure SessionIpForwardingConfig (L : LibTypes) where
  defaultEntryListenHost : SocketAddr
  rest : L.ForwarderRest

/-- mirrors hoprd/src/config.rs:856-900 -/
structure HoprdConfig (L : LibTypes) (T : Strategy.LeafTypes) where
  hopr : UserHoprLibConfig L
  identity : Identity
  db : Db
  api : Api
  sessionIpForwarding : SessionIpForwardingConfig L
  blokliUrl : String
  blokliDnsOverride : Option (IpAddr × Option UInt16)
  strategy : Strategy.MultiStrategyConfig T

/-! ## The library's half -/

structure TransportConfig where
  announceLocalAddresses : Bool
  preferLocalAddresses : Bool

structure HoprCodecConfig (L : LibTypes) where
  outgoingWinProb : Option L.WinningProbability
  outgoingTicketPrice : Option HoprBalance
  minIncomingTicketPrice : Option HoprBalance
  replayFilter : L.ReplayFilter

structure PacketPipelineConfig (L : LibTypes) where
  outputConcurrency : Option UInt64
  inputConcurrency : Option UInt64
  surbResolutionWait : Option Duration
  rest : L.PipelineRest

structure HoprPacketPipelineConfig (L : LibTypes) where
  codec : HoprCodecConfig L
  pipeline : PacketPipelineConfig L
  rest : L.PacketRest

structure ProbeConfig (L : LibTypes) where
  interval : Duration
  recheckThreshold : Duration
  rest : L.ProbeRest

structure TagAllocatorConfig (L : LibTypes) where
  session : UInt64
  rest : L.TagAllocatorRest

structure SessionGlobalConfig (L : LibTypes) where
  idleTimeout : Duration
  establishMaxRetries : UInt64
  tagAllocator : TagAllocatorConfig L
  rest : L.SessionRest

structure PixGlobalConfig (L : LibTypes) where
  numSsaParts : UInt64
  ssaPartSize : UInt64
  additionalShares : Option UInt64
  maxSsasPerRequest : UInt64
  reconstructor : L.Reconstructor

structure PixFillConfig where
  enabled : Bool
  maxRate : UInt32
  drainAfterClose : Bool
  heartbeat : Nat
  finishFraction : F64
  lossMargin : F64
  minSurbReserve : Nat

structure SupervisorConfig where
  maxSsaDeliveryTime : Duration
  maxDepositWait : Duration
  maxRecoveryTime : Duration
  ssasPerRequest : UInt64
  allowDynamicSsaBatches : Bool
  maxServedWithoutProgress : UInt64
  maxFailedCycles : Nat
  maxRecoveryIdle : Duration
  maxOffFrontShareFraction : F64
  minShareOrderSample : Nat
  maxPredepositPackets : Nat
  tombstoneRetentionWindow : Duration
  commitmentRecommitInterval : Duration
  ssaRequestResendInterval : Duration
  fill : PixFillConfig

/-- `min ..= max`. -/
structure RangeInclusive where
  start : UInt64
  stop : UInt64

structure IncomingSessionPixConfig where
  enforcePix : Bool
  quotaRange : RangeInclusive
  maxLiveCycleBytes : UInt64
  supervision : SupervisorConfig

structure HoprProtocolConfig (L : LibTypes) where
  transport : TransportConfig
  packet : HoprPacketPipelineConfig L
  transitLatency : Option L.TransitLatency
  probe : ProbeConfig L
  session : SessionGlobalConfig L
  pix : PixGlobalConfig L
  incomingSessionPixConfig : IncomingSessionPixConfig
  pathPlanner : L.PathPlanner
  counterFlushInterval : Duration
  surbFlushInterval : Duration
  latencyRaceMemory : Nat
  relayerHealthWeight : F64
  mixer : MixerConfig L
  stream : L.Stream

structure HoprLibConfig (L : LibTypes) where
  host : HostConfig
  publish : Bool
  safeModule : SafeModule
  protocol : HoprProtocolConfig L
  incomingSessionCapacity : UInt64
  disableProtocolChecks : Bool
  rest : L.LibRest

end Hoprd.Config
