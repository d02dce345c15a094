import Hoprd.RestApi.Channels

/-!
# Failed lookups in the responses (`channels.rs`, `tickets.rs`, `peers.rs`)

Seven handlers begin with a lookup in the chain backend: of the channel with the
counterparty, or of its packet key. `Reported` says what the response may make of the
outcome: 404 is for what was looked for and is not there, 422 for a lookup that failed.

* `reported_of_channel`: what a handler has to do for it when the lookup is of a channel;
  the channel and ticket handlers all do.
* `pingPeer_reported`: so does the ping, with the key.
* `lookups_reported_iff`: `show_peer_info` does not. It takes a failed key lookup for an
  unknown peer, and shows no channel where the channel lookup failed.
-/
namespace Hoprd.RestApi.Channels

/-! ## Pinging (`peers.rs`) -/

/-- The errors of a ping that the handler tells apart. -/
inductive PingFailure where
  | protocolTimeout
  | trafficError
  | pingerError (e : String)
  | nonExistingPeer
  | other (text : String)
  deriving DecidableEq, Repr

/-- mirrors rest-api/src/peers.rs:291-302 -/
structure PingResponse where
  latency : Duration
  deriving DecidableEq, Repr

/-- The key that is pinged, if it comes to that, and the response.
mirrors rest-api/src/peers.rs:327-387 -/
def pingPeer (hopr : Hopr) (ping : PacketKey → Except PingFailure Duration) (address : Address) :
    Option PacketKey × Response PingResponse :=
  match hopr.chainKeyToPacketKey address with
  | .ok none => (none, ⟨404, .error .peerNotFound⟩)
  | .error e => (none, ⟨422, .error (.unknownFailure e)⟩)
  | .ok (some offchainKey) =>
    (some offchainKey, match ping offchainKey with
      | .ok latency => ⟨200, .ok ⟨latency / 2⟩⟩
      | .error .protocolTimeout => ⟨408, .error .timeout⟩
      | .error .trafficError => ⟨408, .error .timeout⟩
      | .error (.pingerError e) => ⟨422, .error (.pingError e)⟩
      | .error .nonExistingPeer => ⟨404, .error .peerNotFound⟩
      | .error (.other e) => ⟨422, .error (.unknownFailure e)⟩)

/-! ## Outcomes -/

inductive Outcome where
  | found
  | absent
  | failed
  deriving DecidableEq, Repr

/-- A closed channel counts as absent. -/
def Outcome.ofChannel : Except String (Option ChannelEntry) → Outcome
  | .ok (some c) => if c.status ≠ .closed then .found else .absent
  | .ok none => .absent
  | .error _ => .failed

def Outcome.ofKey : Except String (Option PacketKey) → Outcome
  | .ok (some _) => .found
  | .ok none => .absent
  | .error _ => .failed

/-- The lookup of the channel with a counterparty. -/
def Hopr.lookup (hopr : Hopr) (address : Address) : ChannelDirection → Outcome
  | .outgoing => .ofChannel (hopr.channel hopr.nodeAddress address)
  | .incoming => .ofChannel (hopr.channel address hopr.nodeAddress)

/-- What a response may make of the outcome of the handler's initial lookup. `Initial`
says that the lookup was all there was. -/
structure Reported {B : Type} (outcome : Outcome) (Initial : Prop) (r : Response B) : Prop where
  notFound : Initial → r.status = 404 → outcome = .absent
  failed : outcome = .failed → r.status = 422
  notAbsent : outcome = .failed →
    r.body ≠ .error .channelNotFound ∧ r.body ≠ .error .peerNotFound

/-! ## The channel handlers -/

/-- An open channel is not reported as missing, a failure is reported as one. -/
theorem reported_of_channel {B : Type} {r : Response B}
    (result : Except String (Option ChannelEntry))
    (hopen : ∀ c, result = .ok (some c) → c.status ≠ .closed → r.status ≠ 404)
    (herror : ∀ e, result = .error e → r = ⟨422, .error (.unknownFailure e)⟩) :
    Reported (.ofChannel result) True r := by
  have habsent : Reported .absent True r := ⟨fun _ _ => rfl, nofun, nofun⟩
  match result with
  | .error e =>
    rw [herror e rfl]
    exact ⟨fun _ => nofun, fun _ => rfl, fun _ => ⟨nofun, nofun⟩⟩
  | .ok none => exact habsent
  | .ok (some c) =>
    by_cases hclosed : c.status = .closed
    · have habs : Outcome.ofChannel (.ok (some c)) = .absent := by
        simp [Outcome.ofChannel, hclosed]
      rw [habs]
      exact habsent
    · have hfound : Outcome.ofChannel (.ok (some c)) = .found := by
        simp [Outcome.ofChannel, hclosed]
      rw [hfound]
      exact ⟨fun _ h => absurd h (hopen c rfl hclosed), nofun, nofun⟩

/-- The mapping of the outcome that the channel handlers have in common. -/
def respond {B : Type} (found : ChannelEntry → Response B) :
    Except ApiErrorStatus ChannelEntry → Response B
  | .ok c => found c
  | .error status => ⟨resolveErrorCode status, .error status⟩

theorem reported_filterOpenChannel {B : Type} (found : ChannelEntry → Response B)
    (hfound : ∀ c, (found c).status ≠ 404) (result : Except String (Option ChannelEntry)) :
    Reported (.ofChannel result) True (respond found (filterOpenChannel result)) := by
  apply reported_of_channel
  · intro c hc hopen
    simp only [hc, filterOpenChannel, if_pos hopen]
    exact hfound c
  · intro e he
    simp only [he, filterOpenChannel]
    rfl

section
variable (hopr : Hopr) (address : Address) (direction : ChannelDirection)

theorem reported_resolveChannel {B : Type} (found : ChannelEntry → Response B)
    (hfound : ∀ c, (found c).status ≠ 404) :
    Reported (hopr.lookup address direction) True
      (respond found (resolveChannel hopr address direction)) := by
  cases direction with
  | outgoing => exact reported_filterOpenChannel found hfound _
  | incoming => exact reported_filterOpenChannel found hfound _

theorem operationResponse_ne_404 (result : Except OperationError Hash) :
    (operationResponse result).status ≠ 404 := by
  match result with
  | .ok _ => exact nofun
  | .error .notReady => exact nofun
  | .error (.other _) => exact nofun

theorem showChannel_reported (joinError : Option String) :
    Reported (hopr.lookup address direction) True
      (showChannel hopr joinError address direction) := by
  cases joinError with
  | some e => exact ⟨nofun, fun _ => rfl, fun _ => ⟨nofun, nofun⟩⟩
  | none =>
    have he : showChannel hopr none address direction =
        respond (fun c => ⟨200, .ok (channelToTopologyInfo hopr c)⟩)
          (resolveChannel hopr address direction) := by
      unfold showChannel respond
      cases resolveChannel hopr address direction with
      | ok c => rfl
      | error status => rfl
    rw [he]
    exact reported_resolveChannel hopr address direction _ fun _ => nofun

theorem closeChannel_reported :
    Reported (hopr.lookup address direction) True (closeChannel hopr address direction).2 := by
  have he : (closeChannel hopr address direction).2 =
      respond (fun c => operationResponse (hopr.closeChannelById (hopr.getId c)))
        (resolveChannel hopr address direction) := by
    unfold closeChannel respond
    cases resolveChannel hopr address direction with
    | ok c => rfl
    | error status => rfl
  rw [he]
  exact reported_resolveChannel hopr address direction _ fun _ => operationResponse_ne_404 _

theorem fundChannel_reported (amount : HoprBalance) :
    Reported (hopr.lookup address .outgoing) True (fundChannel hopr address amount).2 := by
  have he : (fundChannel hopr address amount).2 =
      respond (fun c => operationResponse (hopr.fundChannel (hopr.getId c) amount))
        (resolveChannel hopr address .outgoing) := by
    unfold fundChannel respond
    cases resolveChannel hopr address .outgoing with
    | ok c => rfl
    | error status => rfl
  rw [he]
  exact reported_resolveChannel hopr address .outgoing _ fun _ => operationResponse_ne_404 _

/-- The ticket handlers write the mapping out. -/
theorem showTicketStatistics_reported :
    Reported (hopr.lookup address .incoming) True
      (showTicketStatistics hopr (some address)).2 := by
  apply reported_of_channel
  · intro c hc hopen
    simp only [showTicketStatistics, hc, if_pos hopen]
    cases hopr.ticketStats (hopr.getId c) with
    | ok stats => exact (by decide : (200 : Nat) ≠ 404)
    | error e => exact (by decide : (422 : Nat) ≠ 404)
  · intro e he
    simp only [showTicketStatistics, he]

theorem redeemTickets_reported :
    Reported (hopr.lookup address .incoming) True (redeemTickets hopr (some address)).2 := by
  apply reported_of_channel
  · intro c hc hopen
    simp only [redeemTickets, hc, if_pos hopen]
    exact (by decide : (202 : Nat) ≠ 404)
  · intro e he
    simp only [redeemTickets, he]

/-! ## The peer handlers -/

/-- A ping that finds nobody is a 404 too, but one the key lookup has no part in. -/
theorem pingPeer_reported (ping : PacketKey → Except PingFailure Duration) :
    Reported (.ofKey (hopr.chainKeyToPacketKey address)) ((pingPeer hopr ping address).1 = none)
      (pingPeer hopr ping address).2 := by
  unfold pingPeer
  match hopr.chainKeyToPacketKey address with
  | .ok none => exact ⟨fun _ _ => rfl, nofun, nofun⟩
  | .error e => exact ⟨fun _ => nofun, fun _ => rfl, fun _ => ⟨nofun, nofun⟩⟩
  | .ok (some key) => exact ⟨nofun, nofun, nofun⟩

theorem showPeerInfo_not_found (h : ∀ key, hopr.chainKeyToPacketKey address ≠ .ok (some key)) :
    showPeerInfo hopr address = ⟨404, .error .peerNotFound⟩ := by
  unfold showPeerInfo
  split
  · rfl
  · rfl
  · rename_i key hkey
    exact absurd hkey (h key)

theorem showPeerInfo_found {key : PacketKey}
    (hkey : hopr.chainKeyToPacketKey address = .ok (some key)) :
    (∃ e, hopr.streamAccounts key = .error e ∧
      showPeerInfo hopr address = ⟨422, .error (.unknownFailure e)⟩) ∨
    ∃ accounts info, hopr.streamAccounts key = .ok accounts ∧
      showPeerInfo hopr address = ⟨200, .ok info⟩ ∧
      info.outgoingChannel =
        channelEntryToPeerInfo hopr (hopr.channel hopr.nodeAddress address) ∧
      info.incomingChannel =
        channelEntryToPeerInfo hopr (hopr.channel address hopr.nodeAddress) := by
  unfold showPeerInfo
  rw [hkey]
  cases ha : hopr.streamAccounts key with
  | error e =>
    simp only [ha]
    exact .inl ⟨e, rfl, rfl⟩
  | ok accounts =>
    simp only [ha]
    exact .inr ⟨accounts, _, rfl, rfl, rfl, rfl⟩

/-- Only a failed lookup of the key is taken for its absence. -/
theorem showPeerInfo_reported_iff :
    Reported (.ofKey (hopr.chainKeyToPacketKey address)) True (showPeerInfo hopr address) ↔
      Outcome.ofKey (hopr.chainKeyToPacketKey address) ≠ .failed := by
  match hkey : hopr.chainKeyToPacketKey address with
  | .ok none =>
    rw [showPeerInfo_not_found hopr address (by rw [hkey]; exact nofun)]
    exact ⟨fun _ => nofun, fun _ => ⟨fun _ _ => rfl, nofun, nofun⟩⟩
  | .error e =>
    rw [showPeerInfo_not_found hopr address (by rw [hkey]; exact nofun)]
    exact ⟨fun h => absurd (h.failed rfl) nofun, fun h => absurd rfl h⟩
  | .ok (some key) =>
    refine ⟨fun _ => nofun, fun _ => ⟨fun _ h => ?_, nofun, nofun⟩⟩
    obtain ⟨e, -, hr⟩ | ⟨accounts, info, -, hr, -, -⟩ := showPeerInfo_found hopr address hkey
    · rw [hr] at h; cases h
    · rw [hr] at h; cases h

theorem channelEntryToPeerInfo_of_failed {result : Except String (Option ChannelEntry)}
    (h : Outcome.ofChannel result = .failed) : channelEntryToPeerInfo hopr result = none := by
  match result with
  | .error _ => rfl
  | .ok none => rfl
  | .ok (some c) =>
    by_cases hclosed : c.status = .closed
    · simp [Outcome.ofChannel, hclosed] at h
    · simp [Outcome.ofChannel, hclosed] at h

/-- A peer's page leaves a channel out only when its lookup did not fail. -/
def PeerChannelsReported : Prop :=
  ∀ info, (showPeerInfo hopr address).body = .ok info → ∀ direction,
    hopr.lookup address direction = .failed → info.side direction ≠ none

/-- The page is shown, and both lookups of its channels succeed if it is. -/
def PageLookupsSucceed : Prop :=
  ∀ key accounts, hopr.chainKeyToPacketKey address = .ok (some key) →
    hopr.streamAccounts key = .ok accounts → ∀ direction, hopr.lookup address direction ≠ .failed

theorem peerChannelsReported_iff :
    PeerChannelsReported hopr address ↔ PageLookupsSucceed hopr address := by
  constructor
  · intro h key accounts hkey ha direction hf
    obtain ⟨e, he, -⟩ | ⟨-, info, -, hr, hout, hin⟩ := showPeerInfo_found hopr address hkey
    · rw [ha] at he; cases he
    refine h info (by rw [hr]) direction hf ?_
    cases direction with
    | outgoing => exact hout.trans (channelEntryToPeerInfo_of_failed hopr hf)
    | incoming => exact hin.trans (channelEntryToPeerInfo_of_failed hopr hf)
  · intro h info hinfo direction hf
    exfalso
    match hkey : hopr.chainKeyToPacketKey address with
    | .ok none | .error _ =>
      rw [showPeerInfo_not_found hopr address (by rw [hkey]; exact nofun)] at hinfo
      cases hinfo
    | .ok (some key) =>
      obtain ⟨e, -, hr⟩ | ⟨accounts, -, ha, -⟩ := showPeerInfo_found hopr address hkey
      · rw [hr] at hinfo; cases hinfo
      · exact h key accounts hkey ha direction hf

/-! ## All seven -/

/-- No handler reports a failed lookup as absence. -/
structure LookupsReported : Prop where
  showChannel : ∀ joinError direction,
    Reported (hopr.lookup address direction) True (showChannel hopr joinError address direction)
  closeChannel : ∀ direction,
    Reported (hopr.lookup address direction) True (closeChannel hopr address direction).2
  fundChannel : ∀ amount,
    Reported (hopr.lookup address .outgoing) True (fundChannel hopr address amount).2
  showTicketStatistics :
    Reported (hopr.lookup address .incoming) True (showTicketStatistics hopr (some address)).2
  redeemTickets :
    Reported (hopr.lookup address .incoming) True (redeemTickets hopr (some address)).2
  pingPeer : ∀ ping, Reported (.ofKey (hopr.chainKeyToPacketKey address))
    ((pingPeer hopr ping address).1 = none) (pingPeer hopr ping address).2
  showPeerInfo :
    Reported (.ofKey (hopr.chainKeyToPacketKey address)) True (showPeerInfo hopr address)
  peerChannels : PeerChannelsReported hopr address

/-- That is so exactly when the backend does not fail on the key of the peer, nor on its
channels once the page is shown. -/
theorem lookups_reported_iff :
    LookupsReported hopr address ↔
      Outcome.ofKey (hopr.chainKeyToPacketKey address) ≠ .failed ∧
        PageLookupsSucceed hopr address := by
  constructor
  · intro h
    exact ⟨(showPeerInfo_reported_iff hopr address).1 h.showPeerInfo,
      (peerChannelsReported_iff hopr address).1 h.peerChannels⟩
  · rintro ⟨hkey, hpage⟩
    exact {
      showChannel := fun joinError direction =>
        showChannel_reported hopr address direction joinError
      closeChannel := closeChannel_reported hopr address
      fundChannel := fundChannel_reported hopr address
      showTicketStatistics := showTicketStatistics_reported hopr address
      redeemTickets := redeemTickets_reported hopr address
      pingPeer := pingPeer_reported hopr address
      showPeerInfo := (showPeerInfo_reported_iff hopr address).2 hkey
      peerChannels := (peerChannelsReported_iff hopr address).2 hpage }

end

/-! ## While the indexer is failing -/

def keyLookupFails : Hopr :=
  { demoHopr with chainKeyToPacketKey := fun _ => .error "indexer unavailable" }

def channelLookupFails : Hopr :=
  { demoHopr with channel := fun _ _ => .error "indexer unavailable" }

/-- With the key lookup failing the peer is not found, where a ping says what happened;
with the channel lookup failing the page shows no channel. -/
theorem indexer_failure_shown_as_absence :
    (showPeerInfo keyLookupFails 2).status = 404 ∧
      (pingPeer keyLookupFails (fun _ => .error .nonExistingPeer) 2).2.status = 422 ∧
    (∃ info, showPeerInfo channelLookupFails 2 = ⟨200, .ok info⟩ ∧
      info.outgoingChannel = none ∧ channelLookupFails.lookup 2 .outgoing = .failed) ∧
    ¬LookupsReported keyLookupFails 2 ∧ ¬LookupsReported channelLookupFails 2 := by
  refine ⟨rfl, rfl, ⟨_, rfl, rfl, rfl⟩, fun h => ?_, fun h => ?_⟩
  · exact nomatch h.showPeerInfo.failed rfl
  · exact h.peerChannels _ rfl .outgoing rfl rfl

end Hoprd.RestApi.Channels
