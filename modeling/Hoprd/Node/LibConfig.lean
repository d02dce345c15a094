import Hoprd.Node.Config

/-!
# From the operator's settings to the library's (`hoprd/src/config.rs`)

`HoprLibConfig.ofUser` is the hand-written conversion: some fields from the
operator's value, the others pinned to the library's defaults. Validation runs
the library's own validator on the converted value.

`readBack` lists where each operator-facing field ends up; the conversion keeps
all of them (`readBack_ofUser`), so two settings can only convert to the same
value when they differ in the winning probability at most. That field goes
through `WinningProbability::try_from_f64(..).ok()`, which turns a value the
library cannot represent into an absent one before validation sees it:
`no_inert_knob_iff` is the exact condition under which two accepted settings
keep every field and stay apart.
-/
namespace Hoprd.Config

open Strategy (ValidationError)

/-- What the conversion uses of `hopr-lib`: its defaults, the winning
probability's constructor and the validator. -/
structure HoprLib (L : LibTypes) where
  defaults : HoprLibConfig L
  tryFromF64 : F64 → Option L.WinningProbability
  validate : HoprLibConfig L → List ValidationError

variable {L : LibTypes} (lib : HoprLib L)

/-- mirrors hoprd/src/config.rs:702-848 -/
def HoprLibConfig.ofUser (value : UserHoprLibConfig L) : HoprLibConfig L :=
  let protocol := lib.defaults.protocol
  let supervisionDefaults := protocol.incomingSessionPixConfig.supervision
  { lib.defaults with
    host := value.host
    publish := value.announce
    safeModule := value.safeModule
    protocol :=
      { transport :=
          { announceLocalAddresses := value.network.announceLocalAddresses
            preferLocalAddresses := value.network.preferLocalAddresses }
        packet :=
          { protocol.packet with
            codec :=
              { outgoingWinProb :=
                  value.network.outgoingTicketWinningProb.bind fun v => lib.tryFromF64 v
                outgoingTicketPrice := value.network.outgoingTicketPrice
                minIncomingTicketPrice := value.network.minIncomingTicketPrice
                replayFilter := protocol.packet.codec.replayFilter }
            pipeline :=
              { protocol.packet.pipeline with surbResolutionWait := some (Duration.fromSecs 1) } }
        transitLatency := none
        probe :=
          { protocol.probe with
            interval := value.network.probeInterval
            recheckThreshold := value.network.probeRecheckThreshold }
        session :=
          { protocol.session with
            idleTimeout := value.network.sessionIdleTimeout
            establishMaxRetries := value.network.sessionEstablishMaxRetries
            -- `as u64` from a 64-bit `usize`
            tagAllocator :=
              { protocol.session.tagAllocator with session := value.network.maximumSessions } }
        pix :=
          { numSsaParts := value.network.pix.numSsaParts
            ssaPartSize := value.network.pix.ssaPartSize
            additionalShares := value.network.pix.additionalShares
            maxSsasPerRequest := value.network.pix.maxSsasPerRequest
            reconstructor := protocol.pix.reconstructor }
        incomingSessionPixConfig :=
          { enforcePix := value.network.incomingSessionPix.enforcePix
            quotaRange :=
              ⟨value.network.incomingSessionPix.quotaRangeMin,
                value.network.incomingSessionPix.quotaRangeMax⟩
            maxLiveCycleBytes := value.network.incomingSessionPix.maxLiveCycleBytes
            supervision :=
              { maxSsaDeliveryTime := value.network.incomingSessionPix.maxSsaDeliveryTime
                maxDepositWait := value.network.incomingSessionPix.maxDepositWait
                maxRecoveryTime := value.network.incomingSessionPix.maxRecoveryTime
                ssasPerRequest := value.network.incomingSessionPix.ssasPerRequest
                allowDynamicSsaBatches := value.network.incomingSessionPix.allowDynamicSsaBatches
                maxServedWithoutProgress :=
                  value.network.incomingSessionPix.maxServedWithoutProgress
                maxFailedCycles := supervisionDefaults.maxFailedCycles
                maxRecoveryIdle := supervisionDefaults.maxRecoveryIdle
                maxOffFrontShareFraction := supervisionDefaults.maxOffFrontShareFraction
                minShareOrderSample := supervisionDefaults.minShareOrderSample
                maxPredepositPackets := supervisionDefaults.maxPredepositPackets
                tombstoneRetentionWindow := supervisionDefaults.tombstoneRetentionWindow
                commitmentRecommitInterval := supervisionDefaults.commitmentRecommitInterval
                ssaRequestResendInterval := supervisionDefaults.ssaRequestResendInterval
                fill :=
                  { enabled := value.network.incomingSessionPix.fillEnabled
                    maxRate := value.network.incomingSessionPix.fillMaxRate
                    drainAfterClose := value.network.incomingSessionPix.drainAfterClose
                    heartbeat := supervisionDefaults.fill.heartbeat
                    finishFraction := value.network.incomingSessionPix.fillFinishFraction
                    lossMargin := supervisionDefaults.fill.lossMargin
                    minSurbReserve := supervisionDefaults.fill.minSurbReserve } } }
        pathPlanner := protocol.pathPlanner
        counterFlushInterval := protocol.counterFlushInterval
        surbFlushInterval := protocol.surbFlushInterval
        latencyRaceMemory := protocol.latencyRaceMemory
        relayerHealthWeight := protocol.relayerHealthWeight
        mixer := value.network.mixer
        stream := protocol.stream } }

/-- mirrors hoprd/src/config.rs:850-854 -/
def UserHoprLibConfig.validate (value : UserHoprLibConfig L) : List ValidationError :=
  lib.validate (HoprLibConfig.ofUser lib value)

/-! ## Where the operator's fields are -/

/-- The operator-facing fields of a settings value: all but the ticket storage
file, which hoprd opens itself. -/
def UserHoprLibConfig.operatorFields (u : UserHoprLibConfig L) : UserHoprLibConfig L :=
  { u with ticketStorageFile := none }

/-- The operator-facing fields of a library configuration, each from its place;
the winning probability, which the library holds in another type, is `prob`. -/
def HoprLibConfig.readBack (c : HoprLibConfig L) (prob : Option F64) : UserHoprLibConfig L where
  announce := c.publish
  host := c.host
  safeModule := c.safeModule
  network :=
    { sessionIdleTimeout := c.protocol.session.idleTimeout
      maximumSessions := c.protocol.session.tagAllocator.session
      sessionEstablishMaxRetries := c.protocol.session.establishMaxRetries
      probeRecheckThreshold := c.protocol.probe.recheckThreshold
      probeInterval := c.protocol.probe.interval
      announceLocalAddresses := c.protocol.transport.announceLocalAddresses
      preferLocalAddresses := c.protocol.transport.preferLocalAddresses
      outgoingTicketWinningProb := prob
      outgoingTicketPrice := c.protocol.packet.codec.outgoingTicketPrice
      minIncomingTicketPrice := c.protocol.packet.codec.minIncomingTicketPrice
      mixer := c.protocol.mixer
      pix :=
        { numSsaParts := c.protocol.pix.numSsaParts
          ssaPartSize := c.protocol.pix.ssaPartSize
          additionalShares := c.protocol.pix.additionalShares
          maxSsasPerRequest := c.protocol.pix.maxSsasPerRequest }
      incomingSessionPix :=
        let incoming := c.protocol.incomingSessionPixConfig
        { enforcePix := incoming.enforcePix
          quotaRangeMin := incoming.quotaRange.start
          quotaRangeMax := incoming.quotaRange.stop
          maxSsaDeliveryTime := incoming.supervision.maxSsaDeliveryTime
          maxDepositWait := incoming.supervision.maxDepositWait
          maxLiveCycleBytes := incoming.maxLiveCycleBytes
          maxRecoveryTime := incoming.supervision.maxRecoveryTime
          maxServedWithoutProgress := incoming.supervision.maxServedWithoutProgress
          ssasPerRequest := incoming.supervision.ssasPerRequest
          allowDynamicSsaBatches := incoming.supervision.allowDynamicSsaBatches
          drainAfterClose := incoming.supervision.fill.drainAfterClose
          fillEnabled := incoming.supervision.fill.enabled
          fillMaxRate := incoming.supervision.fill.maxRate
          fillFinishFraction := incoming.supervision.fill.finishFraction } }
  ticketStorageFile := none

/-- The conversion keeps every operator-facing field but the winning probability. -/
theorem readBack_ofUser (u : UserHoprLibConfig L) :
    (HoprLibConfig.ofUser lib u).readBack u.network.outgoingTicketWinningProb = u.operatorFields :=
  rfl

/-! ## The winning probability -/

/-- The probability arrived: absent as absent, a value as the library's
representation of it. -/
def ProbCarried : Option F64 → Option L.WinningProbability → Prop
  | none, w => w = none
  | some v, w => ∃ p, lib.tryFromF64 v = some p ∧ w = some p

/-- Every operator-facing field of `u` is in `c`, unchanged. -/
structure Carried (u : UserHoprLibConfig L) (c : HoprLibConfig L) : Prop where
  fields : c.readBack u.network.outgoingTicketWinningProb = u.operatorFields
  prob : ProbCarried lib u.network.outgoingTicketWinningProb c.protocol.packet.codec.outgoingWinProb

/-- The winning probability is absent or in `[0, 1]`. -/
def Representable (u : UserHoprLibConfig L) : Prop :=
  ∀ v, u.network.outgoingTicketWinningProb = some v → v.inUnit = true

theorem carried_iff (hwin : ∀ v, (lib.tryFromF64 v).isSome = v.inUnit) (u : UserHoprLibConfig L) :
    Carried lib u (HoprLibConfig.ofUser lib u) ↔ Representable u := by
  constructor
  · intro h v hv
    have hp := h.prob
    rw [hv] at hp
    obtain ⟨p, hp, -⟩ := hp
    rw [← hwin, hp]; rfl
  · intro h
    refine ⟨readBack_ofUser lib u, ?_⟩
    show ProbCarried lib _ (u.network.outgoingTicketWinningProb.bind fun v => lib.tryFromF64 v)
    cases hv : u.network.outgoingTicketWinningProb with
    | none => rfl
    | some v =>
      have hs := hwin v
      rw [h v hv] at hs
      obtain ⟨p, hp⟩ := Option.isSome_iff_exists.1 hs
      exact ⟨p, hp, hp⟩

/-- `u` with the winning probability replaced. -/
def UserHoprLibConfig.withProb (u : UserHoprLibConfig L) (prob : Option F64) :
    UserHoprLibConfig L :=
  { u with network.outgoingTicketWinningProb := prob }

/-- `try_from_f64(v).ok()` on the optional setting. -/
def winProb (u : UserHoprLibConfig L) : Option L.WinningProbability :=
  u.network.outgoingTicketWinningProb.bind fun v => lib.tryFromF64 v

/-- The settings agree on every operator-facing field but the winning
probability, and their different probabilities convert to the same value. -/
structure ProbMerged (u u' : UserHoprLibConfig L) : Prop where
  agree : u.operatorFields = u'.operatorFields.withProb u.network.outgoingTicketWinningProb
  differ : u.network.outgoingTicketWinningProb ≠ u'.network.outgoingTicketWinningProb
  merged : winProb lib u = winProb lib u'

/-- The conversion sees the operator-facing fields, and the winning probability
only as converted. -/
theorem ofUser_congr {u u' : UserHoprLibConfig L} (hp : winProb lib u = winProb lib u')
    (h : u.operatorFields = u'.operatorFields.withProb u.network.outgoingTicketWinningProb) :
    HoprLibConfig.ofUser lib u = HoprLibConfig.ofUser lib u' :=
  calc HoprLibConfig.ofUser lib u
    _ = HoprLibConfig.ofUser lib u.operatorFields := rfl
    _ = HoprLibConfig.ofUser lib
          (u'.operatorFields.withProb u.network.outgoingTicketWinningProb) := by rw [h]
    _ = { HoprLibConfig.ofUser lib u' with
          protocol.packet.codec.outgoingWinProb := winProb lib u } := rfl
    _ = { HoprLibConfig.ofUser lib u' with
          protocol.packet.codec.outgoingWinProb := winProb lib u' } := by rw [hp]
    _ = HoprLibConfig.ofUser lib u' := rfl

/-- Settings that convert to the same value agree on every operator-facing field
but the winning probability. -/
theorem operatorFields_of_ofUser_eq {u u' : UserHoprLibConfig L}
    (h : HoprLibConfig.ofUser lib u = HoprLibConfig.ofUser lib u') :
    u.operatorFields = u'.operatorFields.withProb u.network.outgoingTicketWinningProb := by
  rw [← readBack_ofUser lib u, h]
  rfl

/-- Different settings convert to different values exactly when the library's
conversion of the winning probability does not merge them. -/
theorem ofUser_ne_iff (u u' : UserHoprLibConfig L) :
    (u.operatorFields ≠ u'.operatorFields →
      HoprLibConfig.ofUser lib u ≠ HoprLibConfig.ofUser lib u') ↔ ¬ProbMerged lib u u' := by
  constructor
  · intro h hmerged
    obtain ⟨ha, hd, hm⟩ := hmerged
    refine h (fun he => hd ?_) (ofUser_congr lib hm ha)
    exact congrArg (fun u => u.network.outgoingTicketWinningProb) he
  · intro h hne he
    have ha := operatorFields_of_ofUser_eq lib he
    refine h ⟨ha, fun hd => hne ?_, ?_⟩
    · rw [ha, hd]; rfl
    · exact congrArg (fun c => c.protocol.packet.codec.outgoingWinProb) he

/-- What is asked of two accepted settings: every field of both arrives, and
they convert to different values when they differ in an operator-facing field. -/
structure NoInertKnob (u u' : UserHoprLibConfig L) : Prop where
  left : Carried lib u (HoprLibConfig.ofUser lib u)
  right : Carried lib u' (HoprLibConfig.ofUser lib u')
  apart : u.operatorFields ≠ u'.operatorFields →
    HoprLibConfig.ofUser lib u ≠ HoprLibConfig.ofUser lib u'

/-- **No knob is inert** for two accepted settings exactly when their winning
probabilities are absent or in `[0, 1]`, and are not all they differ in while
the library represents them by the same value. -/
theorem no_inert_knob_iff (hwin : ∀ v, (lib.tryFromF64 v).isSome = v.inUnit)
    (u u' : UserHoprLibConfig L) (_ : u.validate lib = []) (_ : u'.validate lib = []) :
    NoInertKnob lib u u' ↔ Representable u ∧ Representable u' ∧ ¬ProbMerged lib u u' := by
  rw [← carried_iff lib hwin u, ← carried_iff lib hwin u', ← ofUser_ne_iff]
  exact ⟨fun ⟨h1, h2, h3⟩ => ⟨h1, h2, h3⟩, fun ⟨h1, h2, h3⟩ => ⟨h1, h2, h3⟩⟩

/-! ## A winning probability of 1.5 -/

abbrev plainTypes : LibTypes where
  WinningProbability := F64
  Poisson := Unit
  ReplayFilter := Unit
  Reconstructor := Unit
  TransitLatency := Unit
  PathPlanner := Unit
  Stream := Unit
  PacketRest := Unit
  PipelineRest := Unit
  ProbeRest := Unit
  SessionRest := Unit
  TagAllocatorRest := Unit
  LibRest := Unit
  ForwarderRest := Unit

def plainMixer : MixerConfig plainTypes := ⟨20000, .uniform ⟨0, Duration.fromMillis 20⟩⟩

/-- A library whose constructor fails outside `[0, 1]` and whose validator
accepts everything, an absent winning probability included. -/
def plainLib : HoprLib plainTypes where
  defaults :=
    { host := ⟨.ipv4 "0.0.0.0", 9091⟩
      publish := true
      safeModule := ⟨0, 0⟩
      protocol :=
        { transport := ⟨false, false⟩
          packet := ⟨⟨none, none, none, ()⟩, ⟨none, none, none, ()⟩, ()⟩
          transitLatency := none
          probe := ⟨Duration.fromSecs 5, Duration.fromSecs 60, ()⟩
          session := ⟨Duration.fromSecs 180, 3, ⟨2048, ()⟩, ()⟩
          pix := ⟨32, 8, none, 4, ()⟩
          incomingSessionPixConfig :=
            ⟨true, ⟨1, 1000⟩, 1000,
              { maxSsaDeliveryTime := Duration.fromSecs 10
                maxDepositWait := Duration.fromSecs 60
                maxRecoveryTime := Duration.fromSecs 30
                ssasPerRequest := 1
                allowDynamicSsaBatches := false
                maxServedWithoutProgress := 1000
                maxFailedCycles := 3
                maxRecoveryIdle := Duration.fromSecs 10
                maxOffFrontShareFraction := .finite (1 / 2)
                minShareOrderSample := 16
                maxPredepositPackets := 64
                tombstoneRetentionWindow := Duration.fromSecs 60
                commitmentRecommitInterval := Duration.fromSecs 5
                ssaRequestResendInterval := Duration.fromSecs 5
                fill := ⟨true, 100, false, 1, .finite 1, .finite 0, 8⟩ }⟩
          pathPlanner := ()
          counterFlushInterval := Duration.fromSecs 10
          surbFlushInterval := Duration.fromSecs 10
          latencyRaceMemory := 16
          relayerHealthWeight := .finite 1
          mixer := plainMixer
          stream := () }
      incomingSessionCapacity := 256
      disableProtocolChecks := false
      rest := () }
  tryFromF64 v := if v.inUnit then some v else none
  validate _ := []

theorem plainLib_tryFromF64 (v : F64) : (plainLib.tryFromF64 v).isSome = v.inUnit := by
  show (if v.inUnit then some v else none).isSome = v.inUnit
  cases v.inUnit <;> rfl

def plainUser (prob : Option F64) : UserHoprLibConfig plainTypes where
  announce := true
  host := ⟨.ipv4 "192.0.2.1", 9091⟩
  safeModule := ⟨1, 2⟩
  network :=
    { sessionIdleTimeout := Duration.fromSecs 180
      maximumSessions := 2048
      sessionEstablishMaxRetries := 3
      probeRecheckThreshold := Duration.fromSecs 60
      probeInterval := Duration.fromSecs 5
      announceLocalAddresses := false
      preferLocalAddresses := false
      outgoingTicketWinningProb := prob
      outgoingTicketPrice := none
      minIncomingTicketPrice := none
      mixer := plainMixer
      pix := ⟨32, 8, none, 4⟩
      incomingSessionPix :=
        { enforcePix := true
          quotaRangeMin := 1
          quotaRangeMax := 1000
          maxSsaDeliveryTime := Duration.fromSecs 10
          maxDepositWait := Duration.fromSecs 60
          maxLiveCycleBytes := 1000
          maxRecoveryTime := Duration.fromSecs 30
          maxServedWithoutProgress := 1000
          ssasPerRequest := 1
          allowDynamicSsaBatches := false
          drainAfterClose := false
          fillEnabled := true
          fillMaxRate := 100
          fillFinishFraction := .finite 1 } }
  ticketStorageFile := none

theorem plainUser_operatorFields_ne {p q : Option F64} (h : p ≠ q) :
    (plainUser p).operatorFields ≠ (plainUser q).operatorFields :=
  fun he => h (congrArg (fun u => u.network.outgoingTicketWinningProb) he)

/-- A winning probability of 1.5 is accepted and converts to the configuration
without one: it is neither rejected nor carried. -/
theorem out_of_range_prob_inert :
    (∀ v, (plainLib.tryFromF64 v).isSome = v.inUnit) ∧
    (plainUser (some (.finite (3 / 2)))).validate plainLib = [] ∧
    (plainUser none).validate plainLib = [] ∧
    (plainUser (some (.finite (3 / 2)))).operatorFields ≠ (plainUser none).operatorFields ∧
    HoprLibConfig.ofUser plainLib (plainUser (some (.finite (3 / 2)))) =
      HoprLibConfig.ofUser plainLib (plainUser none) ∧
    ¬NoInertKnob plainLib (plainUser (some (.finite (3 / 2)))) (plainUser none) := by
  have hne := plainUser_operatorFields_ne (p := some (.finite (3 / 2))) (q := none) (by decide)
  have hnone : plainLib.tryFromF64 (.finite (3 / 2)) = none :=
    if_neg (show ¬F64.inUnit (.finite (3 / 2)) = true by decide +kernel)
  have heq : HoprLibConfig.ofUser plainLib (plainUser (some (.finite (3 / 2)))) =
      HoprLibConfig.ofUser plainLib (plainUser none) := ofUser_congr plainLib hnone rfl
  exact ⟨plainLib_tryFromF64, rfl, rfl, hne, heq, fun h => h.apart hne heq⟩

/-- Two settings with probabilities in range: one absent, one certain. -/
theorem no_inert_knob_in_range :
    NoInertKnob plainLib (plainUser none) (plainUser (some (.finite 1))) ↔
      Representable (plainUser none) ∧ Representable (plainUser (some (.finite 1))) ∧
        ¬ProbMerged plainLib (plainUser none) (plainUser (some (.finite 1))) :=
  no_inert_knob_iff plainLib plainLib_tryFromF64 _ _ rfl rfl

end Hoprd.Config
