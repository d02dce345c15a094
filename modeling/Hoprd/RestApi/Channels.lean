import Hoprd.RestApi.Error

/-!
# Channels seen by the REST API (`rest-api/src/channels.rs`, `peers.rs`, `tickets.rs`)

Six handlers look up channels of this node in three ways: `list_channels` filters the
channels to and from it, `show_channel`, `close_channel` and `fund_channel` resolve one
by counterparty and direction, `show_peer_info`, the ticket statistics and the
redemption ask for both directions or for the incoming one.

Over one store (`Reads`) each of them is a reading of `ChainState.openChannel`, the
channel with the counterparty that is there and not closed: `resolveChannel_eq`,
`listChannels_eq`, `showPeerInfo_eq` and one lemma for each acting handler.
`channel_endpoints_agree` puts them together.
-/
namespace Hoprd.RestApi.Channels

abbrev Address := BitVec 160
abbrev Hash := BitVec 256
abbrev PacketKey := BitVec 256
abbrev Multiaddr := String

/-- In wei. -/
abbrev HoprBalance := Nat

/-- The closure time is counted from the Unix epoch. -/
inductive ChannelStatus where
  | closed
  | open
  | pendingToClose (closureTime : Duration)
  deriving DecidableEq, Repr

structure ChannelEntry where
  source : Address
  destination : Address
  balance : HoprBalance
  ticketIndex : UInt64
  status : ChannelStatus
  channelEpoch : UInt32
  deriving DecidableEq

def ChannelEntry.closureTimeAt (c : ChannelEntry) : Option Duration :=
  match c.status with
  | .pendingToClose t => some t
  | .closed | .open => none

/-! ## The node behind the API -/

/-- Errors of the operations that send a transaction. -/
inductive OperationError where
  | notReady
  | other (text : String)
  deriving DecidableEq, Repr

structure ChannelStats where
  winningTickets : Nat
  unredeemedValue : HoprBalance
  neglectedValue : HoprBalance
  rejectedValue : HoprBalance
  deriving DecidableEq, Repr

/-- mirrors rest-api/src/peers.rs:83-100 -/
structure PeerQosInfo where
  probeRate : Option F64
  lastUpdate : Nat
  averageLatency : Option Nat
  score : Option F64
  deriving DecidableEq, Repr

/-- An edge of the network graph. The immediate observation is the probe rate and the
latency. -/
structure Edge where
  src : PacketKey
  dst : PacketKey
  immediateQos : Option (Option F64 × Option Nat)
  lastUpdate : Nat
  score : Option F64

/-- What the handlers use of the node. An error is its text. -/
structure Hopr where
  nodeAddress : Address
  /-- the id of the channel between two addresses -/
  channelId : Address → Address → Hash
  /-- the text of `HoprLibError::chain` -/
  chainError : String → String
  streamChannels : Except String (List ChannelEntry)
  channelsTo : Address → Except String (List ChannelEntry)
  channelsFrom : Address → Except String (List ChannelEntry)
  channel : Address → Address → Except String (Option ChannelEntry)
  chainKeyToPacketKey : Address → Except String (Option PacketKey)
  packetKeyToChainKey : PacketKey → Except String (Option Address)
  streamAccounts : PacketKey → Except String (List (List Multiaddr))
  multiaddressOf : PacketKey → Option (List Multiaddr)
  graphIdentity : PacketKey
  connectedEdges : List Edge
  closeChannelById : Hash → Except OperationError Hash
  fundChannel : Hash → HoprBalance → Except OperationError Hash
  ticketStats : Hash → Except String ChannelStats
  ticketStatistics : Except String ChannelStats

def Hopr.getId (hopr : Hopr) (c : ChannelEntry) : Hash := hopr.channelId c.source c.destination

/-- What a handler has the node do. -/
inductive Action where
  | closeChannelById (id : Hash)
  | fundChannel (id : Hash) (amount : HoprBalance)
  | ticketStats (id : Hash)
  | ticketStatistics
  | redeemTicketsWithCounterparty (address : Address)
  | redeemAllTickets
  deriving DecidableEq, Repr

structure Response (B : Type) where
  status : Nat
  body : Except ApiErrorStatus B

/-! ## Channels (`channels.rs`) -/

/-- mirrors rest-api/src/channels.rs:36-49 -/
structure NodeChannel where
  id : Hash
  peerAddress : Address
  status : ChannelStatus
  balance : HoprBalance
  deriving DecidableEq

/-- mirrors rest-api/src/channels.rs:65-87 -/
structure ChannelInfoResponse where
  channelId : Hash
  source : Address
  destination : Address
  balance : HoprBalance
  status : ChannelStatus
  ticketIndex : UInt64
  channelEpoch : UInt32
  closureTime : Nat
  deriving DecidableEq

/-- mirrors rest-api/src/channels.rs:111-118 -/
structure NodeChannelsResponse where
  incoming : List NodeChannel
  outgoing : List NodeChannel
  all : List ChannelInfoResponse

/-- mirrors rest-api/src/channels.rs:120-134 -/
def channelToTopologyInfo (hopr : Hopr) (c : ChannelEntry) : ChannelInfoResponse where
  channelId := hopr.getId c
  source := c.source
  destination := c.destination
  balance := c.balance
  status := c.status
  ticketIndex := c.ticketIndex
  channelEpoch := c.channelEpoch
  closureTime := (c.closureTimeAt.map (· / 1000000000)).getD 0

/-- mirrors rest-api/src/channels.rs:144-153 -/
structure ChannelsQueryRequest where
  includingClosed : Bool
  fullTopology : Bool

/-- mirrors rest-api/src/channels.rs:173-255 -/
def listChannels (hopr : Hopr) (query : ChannelsQueryRequest) : Response NodeChannelsResponse :=
  if query.fullTopology then
    match hopr.streamChannels with
    | .ok stream => ⟨200, .ok ⟨[], [], stream.map (channelToTopologyInfo hopr)⟩⟩
    | .error e => ⟨422, .error (.unknownFailure (hopr.chainError e))⟩
  else
    let me := hopr.nodeAddress
    let shown := fun c : ChannelEntry => query.includingClosed || c.status != .closed
    let channels := do
      let incoming ← hopr.channelsTo me
      let outgoing ← hopr.channelsFrom me
      return (incoming, outgoing)
    match channels with
    | .ok (incoming, outgoing) =>
      ⟨200, .ok {
        incoming := (incoming.filter shown).map fun c =>
          { id := hopr.getId c, peerAddress := c.source, status := c.status, balance := c.balance }
        outgoing := (outgoing.filter shown).map fun c =>
          { id := hopr.getId c, peerAddress := c.destination, status := c.status,
            balance := c.balance }
        all := [] }⟩
    | .error e => ⟨422, .error (.unknownFailure e)⟩

/-- mirrors rest-api/src/channels.rs:362-368 -/
inductive ChannelDirection where
  | outgoing
  | incoming
  deriving DecidableEq, Repr

/-- mirrors rest-api/src/channels.rs:385-393 -/
def filterOpenChannel (result : Except String (Option ChannelEntry)) :
    Except ApiErrorStatus ChannelEntry :=
  match result with
  | .ok (some c) => if c.status ≠ .closed then .ok c else .error .channelNotFound
  | .ok none => .error .channelNotFound
  | .error e => .error (.unknownFailure e)

/-- mirrors rest-api/src/channels.rs:396-407 -/
def resolveChannel (hopr : Hopr) (address : Address) (direction : ChannelDirection) :
    Except ApiErrorStatus ChannelEntry :=
  let me := hopr.nodeAddress
  let lookup := match direction with
    | .outgoing => hopr.channel me address
    | .incoming => hopr.channel address me
  filterOpenChannel lookup

/-- The status of a channel that did not resolve. -/
def resolveErrorCode : ApiErrorStatus → Nat
  | .channelNotFound => 404
  | _ => 422

/-- `joinError` is the text of the blocking task's own failure, if it failed.
mirrors rest-api/src/channels.rs:431-450 -/
def showChannel (hopr : Hopr) (joinError : Option String) (address : Address)
    (direction : ChannelDirection) : Response ChannelInfoResponse :=
  match joinError with
  | some e => ⟨422, .error (.unknownFailure e)⟩
  | none =>
    match resolveChannel hopr address direction with
    | .ok channel => ⟨200, .ok (channelToTopologyInfo hopr channel)⟩
    | .error status => ⟨resolveErrorCode status, .error status⟩

/-- The response to an operation that sent a transaction. -/
def operationResponse : Except OperationError Hash → Response Hash
  | .ok txHash => ⟨200, .ok txHash⟩
  | .error .notReady => ⟨412, .error .notReady⟩
  | .error (.other e) => ⟨422, .error (.unknownFailure e)⟩

/-- mirrors rest-api/src/channels.rs:497-534 -/
def closeChannel (hopr : Hopr) (address : Address) (direction : ChannelDirection) :
    List Action × Response Hash :=
  match resolveChannel hopr address direction with
  | .error status => ([], ⟨resolveErrorCode status, .error status⟩)
  | .ok c =>
    let id := hopr.getId c
    ([.closeChannelById id], operationResponse (hopr.closeChannelById id))

/-- mirrors rest-api/src/channels.rs:593-630 -/
def fundChannel (hopr : Hopr) (address : Address) (amount : HoprBalance) :
    List Action × Response Hash :=
  match resolveChannel hopr address .outgoing with
  | .error status => ([], ⟨resolveErrorCode status, .error status⟩)
  | .ok c =>
    let id := hopr.getId c
    ([.fundChannel id amount], operationResponse (hopr.fundChannel id amount))

/-! ## Peers (`peers.rs`) -/

/-- mirrors rest-api/src/peers.rs:62-72 -/
structure PeerChannelInfo where
  id : Hash
  status : ChannelStatus
  balance : HoprBalance
  deriving DecidableEq

/-- mirrors rest-api/src/network.rs:230-235 -/
inductive AnnouncementOriginResponse where
  | chain
  | dht
  deriving DecidableEq, Repr

structure MultiaddressSource where
  multiaddress : Multiaddr
  origin : AnnouncementOriginResponse
  deriving DecidableEq, Repr

/-- mirrors rest-api/src/peers.rs:114-129 -/
structure NodePeerInfoResponse where
  announcedSources : List MultiaddressSource
  observed : List Multiaddr
  qos : Option PeerQosInfo
  outgoingChannel : Option PeerChannelInfo
  incomingChannel : Option PeerChannelInfo

/-- mirrors rest-api/src/peers.rs:141-149 -/
def toAnnouncedSources (announced : List Multiaddr) : List MultiaddressSource :=
  announced.map fun ma => ⟨ma, .chain⟩

/-- mirrors rest-api/src/peers.rs:152-164 -/
def channelEntryToPeerInfo (hopr : Hopr) (result : Except String (Option ChannelEntry)) :
    Option PeerChannelInfo :=
  match result with
  | .ok (some c) => if c.status ≠ .closed then some ⟨hopr.getId c, c.status, c.balance⟩ else none
  | .ok none | .error _ => none

/-- The loop over the edges: the first edge from this node to the address decides.
mirrors rest-api/src/peers.rs:240-268 -/
def findQos (hopr : Hopr) (address : Address) : List Edge → Option PeerQosInfo
  | [] => none
  | e :: edges =>
    if e.src ≠ hopr.graphIdentity then findQos hopr address edges
    else
      match hopr.packetKeyToChainKey e.dst with
      | .ok (some addr) =>
        if addr ≠ address then findQos hopr address edges
        else e.immediateQos.map fun (rate, latency) => ⟨rate, e.lastUpdate, latency, e.score⟩
      | .ok none | .error _ => findQos hopr address edges

/-- mirrors rest-api/src/peers.rs:189-289 -/
def showPeerInfo (hopr : Hopr) (address : Address) : Response NodePeerInfoResponse :=
  match hopr.chainKeyToPacketKey address with
  | .ok none | .error _ => ⟨404, .error .peerNotFound⟩
  | .ok (some offchainKey) =>
    match hopr.streamAccounts offchainKey with
    | .error e => ⟨422, .error (.unknownFailure e)⟩
    | .ok accounts =>
      let me := hopr.nodeAddress
      ⟨200, .ok {
        announcedSources := toAnnouncedSources accounts.flatten
        observed := (hopr.multiaddressOf offchainKey).getD []
        qos := findQos hopr address hopr.connectedEdges
        outgoingChannel := channelEntryToPeerInfo hopr (hopr.channel me address)
        incomingChannel := channelEntryToPeerInfo hopr (hopr.channel address me) }⟩

/-! ## Tickets (`tickets.rs`) -/

/-- mirrors rest-api/src/tickets.rs:67-80 -/
structure NodeTicketStatisticsResponse where
  winningCount : UInt64
  unredeemedValue : HoprBalance
  neglectedValue : HoprBalance
  rejectedValue : HoprBalance
  deriving DecidableEq, Repr

/-- mirrors rest-api/src/tickets.rs:82-91 -/
def NodeTicketStatisticsResponse.fromStats (value : ChannelStats) :
    NodeTicketStatisticsResponse where
  winningCount := UInt64.ofNat value.winningTickets
  unredeemedValue := value.unredeemedValue
  neglectedValue := value.neglectedValue
  rejectedValue := value.rejectedValue

/-- mirrors rest-api/src/tickets.rs:128-181 -/
def showTicketStatistics (hopr : Hopr) (address : Option Address) :
    List Action × Response NodeTicketStatisticsResponse :=
  let answer := fun stats : Except String ChannelStats =>
    match stats with
    | .ok stats => Response.mk 200 (.ok (.fromStats stats))
    | .error e => ⟨422, .error (.unknownFailure e)⟩
  match address with
  | some address =>
    match hopr.channel address hopr.nodeAddress with
    | .ok (some c) =>
      if c.status ≠ .closed then
        let channelId := hopr.getId c
        ([.ticketStats channelId], answer (hopr.ticketStats channelId))
      else ([], ⟨404, .error .channelNotFound⟩)
    | .ok none => ([], ⟨404, .error .channelNotFound⟩)
    | .error e => ([], ⟨422, .error (.unknownFailure e)⟩)
  | none => ([.ticketStatistics], answer hopr.ticketStatistics)

/-- The redemption runs in a task of its own, whose outcome is only logged.
mirrors rest-api/src/tickets.rs:226-285 -/
def redeemTickets (hopr : Hopr) (address : Option Address) : List Action × Response Unit :=
  match address with
  | some address =>
    match hopr.channel address hopr.nodeAddress with
    | .ok (some c) =>
      if c.status ≠ .closed then
        ([.redeemTicketsWithCounterparty address], ⟨202, .ok ()⟩)
      else ([], ⟨404, .error .channelNotFound⟩)
    | .ok none => ([], ⟨404, .error .channelNotFound⟩)
    | .error e => ([], ⟨422, .error (.unknownFailure e)⟩)
  | none => ([.redeemAllTickets], ⟨202, .ok ()⟩)

/-! ## The store -/

/-- The channels of the network, at most one from an address to another. -/
structure ChainState where
  channels : List ChannelEntry
  unique : ∀ c ∈ channels, ∀ c' ∈ channels,
    c.source = c'.source → c.destination = c'.destination → c = c'

namespace ChainState

variable (state : ChainState)

def channel (source destination : Address) : Option ChannelEntry :=
  state.channels.find? fun c => c.source == source && c.destination == destination

theorem channel_eq_some {source destination : Address} {c : ChannelEntry} :
    state.channel source destination = some c ↔
      c ∈ state.channels ∧ c.source = source ∧ c.destination = destination := by
  constructor
  · intro h
    have hends := List.find?_some h
    simp only [Bool.and_eq_true, beq_iff_eq] at hends
    exact ⟨List.mem_of_find?_eq_some h, hends⟩
  · rintro ⟨hmem, rfl, rfl⟩
    cases hfind : state.channel c.source c.destination with
    | none =>
      have hnone := List.find?_eq_none.mp hfind c hmem
      simp at hnone
    | some c' =>
      have hends := List.find?_some hfind
      simp only [Bool.and_eq_true, beq_iff_eq] at hends
      rw [state.unique c' (List.mem_of_find?_eq_some hfind) c hmem hends.1 hends.2]

/-- **What the endpoints are about:** the channel with a counterparty that is there and
not closed. -/
def openChannel (me address : Address) (direction : ChannelDirection) : Option ChannelEntry :=
  let lookup := match direction with
    | .outgoing => state.channel me address
    | .incoming => state.channel address me
  lookup.filter (·.status != .closed)

end ChainState

/-- The channel has the counterparty at its other end. -/
def ChannelEntry.Joins (c : ChannelEntry) (me address : Address) : ChannelDirection → Prop
  | .outgoing => c.source = me ∧ c.destination = address
  | .incoming => c.source = address ∧ c.destination = me

theorem ChainState.openChannel_eq_some {state : ChainState} {me address : Address}
    {direction : ChannelDirection} {c : ChannelEntry} :
    state.openChannel me address direction = some c ↔
      c ∈ state.channels ∧ c.Joins me address direction ∧ c.status ≠ .closed := by
  cases direction with
  | outgoing =>
    simp only [openChannel, Option.filter_eq_some_iff, channel_eq_some, ChannelEntry.Joins,
      bne_iff_ne, and_assoc]
  | incoming =>
    simp only [openChannel, Option.filter_eq_some_iff, channel_eq_some, ChannelEntry.Joins,
      bne_iff_ne, and_assoc]

/-- The three ways of looking a channel up read one store, and none of them fails. -/
structure Reads (hopr : Hopr) (state : ChainState) : Prop where
  channelsTo : ∃ incoming, hopr.channelsTo hopr.nodeAddress = .ok incoming ∧
    ∀ c, c ∈ incoming ↔ c ∈ state.channels ∧ c.destination = hopr.nodeAddress
  channelsFrom : ∃ outgoing, hopr.channelsFrom hopr.nodeAddress = .ok outgoing ∧
    ∀ c, c ∈ outgoing ↔ c ∈ state.channels ∧ c.source = hopr.nodeAddress
  channel : ∀ source destination,
    hopr.channel source destination = .ok (state.channel source destination)

/-! ## Each handler reads the open channel -/

section
variable {hopr : Hopr} {state : ChainState} (reads : Reads hopr state) (address : Address)
  (direction : ChannelDirection)

theorem filterOpenChannel_ok (o : Option ChannelEntry) :
    filterOpenChannel (.ok o) =
      (o.filter (·.status != .closed)).elim (.error .channelNotFound) .ok := by
  cases o with
  | none => rfl
  | some c =>
    by_cases hclosed : c.status = .closed
    · simp [filterOpenChannel, Option.filter, hclosed]
    · simp [filterOpenChannel, Option.filter, hclosed]

theorem channelEntryToPeerInfo_ok (o : Option ChannelEntry) :
    channelEntryToPeerInfo hopr (.ok o) =
      (o.filter (·.status != .closed)).map fun c => ⟨hopr.getId c, c.status, c.balance⟩ := by
  cases o with
  | none => rfl
  | some c =>
    by_cases hclosed : c.status = .closed
    · simp [channelEntryToPeerInfo, Option.filter, hclosed]
    · simp [channelEntryToPeerInfo, Option.filter, hclosed]

include reads

theorem resolveChannel_eq :
    resolveChannel hopr address direction =
      (state.openChannel hopr.nodeAddress address direction).elim
        (.error .channelNotFound) .ok := by
  cases direction with
  | outgoing =>
    simp only [resolveChannel, reads.channel, filterOpenChannel_ok, ChainState.openChannel]
  | incoming =>
    simp only [resolveChannel, reads.channel, filterOpenChannel_ok, ChainState.openChannel]

theorem showChannel_eq :
    showChannel hopr none address direction =
      (state.openChannel hopr.nodeAddress address direction).elim
        ⟨404, .error .channelNotFound⟩ fun c => ⟨200, .ok (channelToTopologyInfo hopr c)⟩ := by
  unfold showChannel
  rw [resolveChannel_eq reads]
  cases state.openChannel hopr.nodeAddress address direction with
  | none => rfl
  | some c => rfl

theorem closeChannel_actions :
    (closeChannel hopr address direction).1 =
      (state.openChannel hopr.nodeAddress address direction).toList.map fun c =>
        .closeChannelById (hopr.getId c) := by
  unfold closeChannel
  rw [resolveChannel_eq reads]
  cases state.openChannel hopr.nodeAddress address direction with
  | none => rfl
  | some c => rfl

theorem fundChannel_actions (amount : HoprBalance) :
    (fundChannel hopr address amount).1 =
      (state.openChannel hopr.nodeAddress address .outgoing).toList.map fun c =>
        .fundChannel (hopr.getId c) amount := by
  unfold fundChannel
  rw [resolveChannel_eq reads]
  cases state.openChannel hopr.nodeAddress address .outgoing with
  | none => rfl
  | some c => rfl

theorem showTicketStatistics_actions :
    (showTicketStatistics hopr (some address)).1 =
      (state.openChannel hopr.nodeAddress address .incoming).toList.map fun c =>
        .ticketStats (hopr.getId c) := by
  simp only [showTicketStatistics, reads.channel, ChainState.openChannel]
  cases state.channel address hopr.nodeAddress with
  | none => rfl
  | some c =>
    by_cases hclosed : c.status = .closed
    · simp [Option.filter, hclosed]
    · simp [Option.filter, hclosed]

theorem redeemTickets_eq :
    redeemTickets hopr (some address) =
      (state.openChannel hopr.nodeAddress address .incoming).elim
        ([], ⟨404, .error .channelNotFound⟩)
        fun _ => ([.redeemTicketsWithCounterparty address], ⟨202, .ok ()⟩) := by
  simp only [redeemTickets, reads.channel, ChainState.openChannel]
  cases state.channel address hopr.nodeAddress with
  | none => rfl
  | some c =>
    by_cases hclosed : c.status = .closed
    · simp [Option.filter, hclosed]
    · simp [Option.filter, hclosed]

end

/-! ## The listing and the peer's page -/

def NodeChannelsResponse.side (listing : NodeChannelsResponse) :
    ChannelDirection → List NodeChannel
  | .outgoing => listing.outgoing
  | .incoming => listing.incoming

def NodePeerInfoResponse.side (info : NodePeerInfoResponse) :
    ChannelDirection → Option PeerChannelInfo
  | .outgoing => info.outgoingChannel
  | .incoming => info.incomingChannel

/-- What every page says of a channel. -/
structure Report where
  id : Hash
  status : ChannelStatus
  balance : HoprBalance
  deriving DecidableEq

def NodeChannel.report (n : NodeChannel) : Report := ⟨n.id, n.status, n.balance⟩

def ChannelInfoResponse.report (r : ChannelInfoResponse) : Report :=
  ⟨r.channelId, r.status, r.balance⟩

def PeerChannelInfo.report (p : PeerChannelInfo) : Report := ⟨p.id, p.status, p.balance⟩

def Hopr.report (hopr : Hopr) (c : ChannelEntry) : Report := ⟨hopr.getId c, c.status, c.balance⟩

/-- The entries made of the channels that are not closed. -/
theorem mem_shown {hopr : Hopr} {found : List ChannelEntry} {peer : ChannelEntry → Address}
    {n : NodeChannel} :
    n ∈ (found.filter fun c => false || c.status != .closed).map (fun c =>
      { id := hopr.getId c, peerAddress := peer c, status := c.status, balance := c.balance }) ↔
      ∃ c ∈ found, c.status ≠ .closed ∧ peer c = n.peerAddress ∧ n.report = hopr.report c := by
  obtain ⟨id, peerAddress, status, balance⟩ := n
  simp only [List.mem_map, List.mem_filter, Bool.false_or, bne_iff_ne, and_assoc,
    NodeChannel.report, Hopr.report, Report.mk.injEq, NodeChannel.mk.injEq]
  constructor
  · rintro ⟨c, hmem, hopen, rfl, rfl, rfl, rfl⟩
    exact ⟨c, hmem, hopen, rfl, rfl, rfl, rfl⟩
  · rintro ⟨c, hmem, hopen, rfl, rfl, rfl, rfl⟩
    exact ⟨c, hmem, hopen, rfl, rfl, rfl, rfl⟩

/-- Without closed channels, a side of the listing is the open channels on that side. -/
theorem listChannels_eq {hopr : Hopr} {state : ChainState} (reads : Reads hopr state) :
    ∃ listing, listChannels hopr ⟨false, false⟩ = ⟨200, .ok listing⟩ ∧
      ∀ direction (n : NodeChannel), n ∈ listing.side direction ↔
        ∃ c, state.openChannel hopr.nodeAddress n.peerAddress direction = some c ∧
          n.report = hopr.report c := by
  obtain ⟨incoming, hincoming, hmemTo⟩ := reads.channelsTo
  obtain ⟨outgoing, houtgoing, hmemFrom⟩ := reads.channelsFrom
  have hlist := show listChannels hopr ⟨false, false⟩ = ⟨200, .ok _⟩ by
    unfold listChannels
    simp only [hincoming, houtgoing]
    rfl
  refine ⟨_, hlist, ?_⟩
  intro direction n
  cases direction with
  | outgoing =>
    simp only [NodeChannelsResponse.side, mem_shown, hmemFrom, ChainState.openChannel_eq_some,
      ChannelEntry.Joins]
    constructor
    · rintro ⟨c, ⟨hmem, hsource⟩, hopen, hpeer, hreport⟩
      exact ⟨c, ⟨hmem, ⟨hsource, hpeer⟩, hopen⟩, hreport⟩
    · rintro ⟨c, ⟨hmem, ⟨hsource, hpeer⟩, hopen⟩, hreport⟩
      exact ⟨c, ⟨hmem, hsource⟩, hopen, hpeer, hreport⟩
  | incoming =>
    simp only [NodeChannelsResponse.side, mem_shown, hmemTo, ChainState.openChannel_eq_some,
      ChannelEntry.Joins]
    constructor
    · rintro ⟨c, ⟨hmem, hdest⟩, hopen, hpeer, hreport⟩
      exact ⟨c, ⟨hmem, ⟨hpeer, hdest⟩, hopen⟩, hreport⟩
    · rintro ⟨c, ⟨hmem, ⟨hpeer, hdest⟩, hopen⟩, hreport⟩
      exact ⟨c, ⟨hmem, hdest⟩, hopen, hpeer, hreport⟩

theorem showPeerInfo_eq {hopr : Hopr} {state : ChainState} (reads : Reads hopr state)
    {address : Address} {key : PacketKey} {accounts : List (List Multiaddr)}
    (hkey : hopr.chainKeyToPacketKey address = .ok (some key))
    (haccounts : hopr.streamAccounts key = .ok accounts) :
    ∃ info, showPeerInfo hopr address = ⟨200, .ok info⟩ ∧
      ∀ direction, (info.side direction).map PeerChannelInfo.report =
        (state.openChannel hopr.nodeAddress address direction).map hopr.report := by
  have hinfo := show showPeerInfo hopr address = ⟨200, .ok _⟩ by
    unfold showPeerInfo
    simp only [hkey, haccounts]
    rfl
  refine ⟨_, hinfo, ?_⟩
  intro direction
  cases direction with
  | outgoing =>
    simp only [NodePeerInfoResponse.side, reads.channel, channelEntryToPeerInfo_ok, Option.map_map,
      ChainState.openChannel]
    rfl
  | incoming =>
    simp only [NodePeerInfoResponse.side, reads.channel, channelEntryToPeerInfo_ok, Option.map_map,
      ChainState.openChannel]
    rfl

/-! ## Agreement -/

/-- The action is on this channel. -/
def Action.On (hopr : Hopr) (c : ChannelEntry) : Action → Prop
  | closeChannelById id | fundChannel id _ | ticketStats id => hopr.getId c = id
  | redeemTicketsWithCounterparty address => c.Joins hopr.nodeAddress address .incoming
  | ticketStatistics | redeemAllTickets => False

/-- What the handlers that act on one channel have the node do, for one counterparty. -/
def actions (hopr : Hopr) (address : Address) (direction : ChannelDirection)
    (amount : HoprBalance) : List Action :=
  (closeChannel hopr address direction).1 ++ (fundChannel hopr address amount).1 ++
    (showTicketStatistics hopr (some address)).1 ++ (redeemTickets hopr (some address)).1

/-- The endpoints agree on the channel with `address` in one direction; `shown` is what
`show_channel` answers. -/
structure Agree (hopr : Hopr) (address : Address) (direction : ChannelDirection)
    (listing : NodeChannelsResponse) (info : NodePeerInfoResponse)
    (shown : Option ChannelInfoResponse) : Prop where
  shown_iff : (showChannel hopr none address direction).status = 200 ↔ shown.isSome
  listed_iff : (∃ n ∈ listing.side direction, n.peerAddress = address) ↔ shown.isSome
  listed : ∀ n ∈ listing.side direction, n.peerAddress = address →
    shown.map ChannelInfoResponse.report = some n.report
  reported : (info.side direction).map PeerChannelInfo.report =
    shown.map ChannelInfoResponse.report
  close : (closeChannel hopr address direction).1 =
    shown.toList.map fun r => .closeChannelById r.channelId
  fund : direction = .outgoing → ∀ amount, (fundChannel hopr address amount).1 =
    shown.toList.map fun r => .fundChannel r.channelId amount
  statistics : direction = .incoming → (showTicketStatistics hopr (some address)).1 =
    shown.toList.map fun r => .ticketStats r.channelId
  redeem : direction = .incoming →
    ((redeemTickets hopr (some address)).2.status = 202 ↔ shown.isSome)

/-- What `show_channel` answers. -/
theorem showChannel_shown {hopr : Hopr} {state : ChainState} (reads : Reads hopr state)
    (address : Address) (direction : ChannelDirection) :
    (showChannel hopr none address direction).body.toOption =
      (state.openChannel hopr.nodeAddress address direction).map (channelToTopologyInfo hopr) := by
  rw [showChannel_eq reads]
  cases state.openChannel hopr.nodeAddress address direction with
  | none => rfl
  | some c => rfl

/-- A listing with the open channels on a side has at most one with the counterparty. -/
theorem listed_report {hopr : Hopr} {state : ChainState} {address : Address}
    {direction : ChannelDirection} {listing : NodeChannelsResponse}
    (hlisted : ∀ n, n ∈ listing.side direction ↔
      ∃ c, state.openChannel hopr.nodeAddress n.peerAddress direction = some c ∧
        n.report = hopr.report c) :
    (∀ n ∈ listing.side direction, n.peerAddress = address →
      (state.openChannel hopr.nodeAddress address direction).map hopr.report = some n.report) ∧
    ((∃ n ∈ listing.side direction, n.peerAddress = address) ↔
      (state.openChannel hopr.nodeAddress address direction).isSome) := by
  have hreport : ∀ n ∈ listing.side direction, n.peerAddress = address →
      (state.openChannel hopr.nodeAddress address direction).map hopr.report = some n.report := by
    intro n hn hpeer
    obtain ⟨c, hopen, hreport⟩ := (hlisted n).mp hn
    rw [← hpeer, hopen, hreport]
    rfl
  refine ⟨hreport, ?_, ?_⟩
  · rintro ⟨n, hn, hpeer⟩
    have hsome := hreport n hn hpeer
    rw [Option.map_eq_some_iff] at hsome
    obtain ⟨c, hopen, -⟩ := hsome
    simp [hopen]
  · intro hsome
    obtain ⟨c, hopen⟩ := Option.isSome_iff_exists.mp hsome
    let n : NodeChannel := ⟨hopr.getId c, address, c.status, c.balance⟩
    exact ⟨n, (hlisted n).mpr ⟨c, hopen, rfl⟩, rfl⟩

theorem agree {hopr : Hopr} {state : ChainState} (reads : Reads hopr state) {address : Address}
    {direction : ChannelDirection} {listing : NodeChannelsResponse} {info : NodePeerInfoResponse}
    (hlisted : ∀ n, n ∈ listing.side direction ↔
      ∃ c, state.openChannel hopr.nodeAddress n.peerAddress direction = some c ∧
        n.report = hopr.report c)
    (hreported : (info.side direction).map PeerChannelInfo.report =
      (state.openChannel hopr.nodeAddress address direction).map hopr.report) :
    Agree hopr address direction listing info
      (showChannel hopr none address direction).body.toOption := by
  obtain ⟨hreport, hexists⟩ := @listed_report hopr state address direction listing hlisted
  have hshown : (Option.map (channelToTopologyInfo hopr)
      (state.openChannel hopr.nodeAddress address direction)).map ChannelInfoResponse.report =
      (state.openChannel hopr.nodeAddress address direction).map hopr.report := by
    rw [Option.map_map]
    rfl
  rw [showChannel_shown reads]
  exact {
    shown_iff := by
      rw [showChannel_eq reads]
      cases state.openChannel hopr.nodeAddress address direction with
      | none => simp
      | some c => simp
    listed_iff := by rw [hexists, Option.isSome_map]
    listed := fun n hn hpeer => by rw [hshown, hreport n hn hpeer]
    reported := by rw [hshown, hreported]
    close := by
      rw [closeChannel_actions reads, Option.toList_map, List.map_map]
      rfl
    fund := by
      rintro rfl amount
      rw [fundChannel_actions reads, Option.toList_map, List.map_map]
      rfl
    statistics := by
      rintro rfl
      rw [showTicketStatistics_actions reads, Option.toList_map, List.map_map]
      rfl
    redeem := by
      rintro rfl
      rw [redeemTickets_eq reads]
      cases state.openChannel hopr.nodeAddress address .incoming with
      | none => simp
      | some c => simp }

/-- An action is on an open channel, and on no channel with another id. -/
theorem actions_on {hopr : Hopr} {state : ChainState} (reads : Reads hopr state)
    {address : Address} {direction : ChannelDirection} {amount : HoprBalance} {act : Action}
    (hact : act ∈ actions hopr address direction amount) :
    ∃ direction c, state.openChannel hopr.nodeAddress address direction = some c ∧
      act.On hopr c ∧ ∀ c', act.On hopr c' → hopr.getId c' = hopr.getId c := by
  unfold actions at hact
  rw [closeChannel_actions reads, fundChannel_actions reads, showTicketStatistics_actions reads,
    redeemTickets_eq reads] at hact
  simp only [List.mem_append, List.mem_map, Option.mem_toList] at hact
  rcases hact with ((⟨c, hopen, rfl⟩ | ⟨c, hopen, rfl⟩) | ⟨c, hopen, rfl⟩) | hredeem
  · exact ⟨direction, c, hopen, rfl, fun _ h => h⟩
  · exact ⟨.outgoing, c, hopen, rfl, fun _ h => h⟩
  · exact ⟨.incoming, c, hopen, rfl, fun _ h => h⟩
  · cases hopen : state.openChannel hopr.nodeAddress address .incoming with
    | none => simp [hopen] at hredeem
    | some c =>
      have hact : act = .redeemTicketsWithCounterparty address := by
        simpa [hopen] using hredeem
      subst hact
      have hjoins := (ChainState.openChannel_eq_some.mp hopen).2.1
      refine ⟨.incoming, c, hopen, hjoins, ?_⟩
      intro c' hjoins'
      obtain ⟨hsource, hdest⟩ := hjoins
      obtain ⟨hsource', hdest'⟩ := hjoins'
      rw [Hopr.getId, Hopr.getId, hsource, hdest, hsource', hdest']

/-- **The endpoints agree.** Over one store, whatever the counterparty and the direction,
`show_channel`, `list_channels` and `show_peer_info` know the same channel and report it
alike, the others act on exactly that one, and a channel that is acted on is not
closed. -/
theorem channel_endpoints_agree {hopr : Hopr} {state : ChainState} (reads : Reads hopr state)
    {address : Address} {key : PacketKey} {accounts : List (List Multiaddr)}
    (hkey : hopr.chainKeyToPacketKey address = .ok (some key))
    (haccounts : hopr.streamAccounts key = .ok accounts) :
    (∃ listing info, listChannels hopr ⟨false, false⟩ = ⟨200, .ok listing⟩ ∧
      showPeerInfo hopr address = ⟨200, .ok info⟩ ∧
      ∀ direction, Agree hopr address direction listing info
        (showChannel hopr none address direction).body.toOption) ∧
    ∀ direction amount, ∀ act ∈ actions hopr address direction amount,
      (∃ c ∈ state.channels, act.On hopr c ∧ c.status ≠ .closed) ∧
      -- ids tell channels apart
      ((∀ c ∈ state.channels, ∀ c' ∈ state.channels, hopr.getId c = hopr.getId c' → c = c') →
        ∀ c ∈ state.channels, act.On hopr c → c.status ≠ .closed) := by
  constructor
  · obtain ⟨listing, hlisting, hlisted⟩ := listChannels_eq reads
    obtain ⟨info, hinfo, hreported⟩ := showPeerInfo_eq reads hkey haccounts
    refine ⟨listing, info, hlisting, hinfo, ?_⟩
    intro direction
    exact agree reads (hlisted direction) (hreported direction)
  · intro direction amount act hact
    obtain ⟨side, c, hopen, hon, hid⟩ := actions_on reads hact
    obtain ⟨hmem, -, hstatus⟩ := ChainState.openChannel_eq_some.mp hopen
    refine ⟨⟨c, hmem, hon, hstatus⟩, ?_⟩
    intro hids c' hmem' hon'
    have hsame : c' = c := hids c' hmem' c hmem (hid c' hon')
    rwa [hsame]

/-! ## A store -/

/-- An outgoing channel to the peer being closed, an incoming one already closed, and a
channel between others. -/
def demoState : ChainState where
  channels := [
    ⟨1, 2, 10, 0, .pendingToClose 1700000000000000000, 1⟩,
    ⟨2, 1, 7, 3, .closed, 2⟩,
    ⟨3, 2, 5, 0, .open, 1⟩]
  unique := by decide

/-- Node `1`. -/
def demoHopr : Hopr where
  nodeAddress := 1
  channelId := fun s d => s.setWidth 256 <<< 128 ||| d.setWidth 256
  chainError := fun e => "chain error: " ++ e
  streamChannels := .ok demoState.channels
  channelsTo := fun a => .ok (demoState.channels.filter (·.destination == a))
  channelsFrom := fun a => .ok (demoState.channels.filter (·.source == a))
  channel := fun s d => .ok (demoState.channel s d)
  chainKeyToPacketKey := fun a => .ok (some (a.setWidth 256))
  packetKeyToChainKey := fun k => .ok (some (k.setWidth 160))
  streamAccounts := fun _ => .ok [["/ip4/10.0.2.100/tcp/19093"]]
  multiaddressOf := fun _ => none
  graphIdentity := 1
  connectedEdges := []
  closeChannelById := fun id => .ok id
  fundChannel := fun id _ => .ok id
  ticketStats := fun _ => .ok ⟨0, 0, 0, 0⟩
  ticketStatistics := .ok ⟨0, 0, 0, 0⟩

theorem demoHopr_reads : Reads demoHopr demoState where
  channelsTo := by
    refine ⟨_, rfl, ?_⟩
    intro c
    simp
  channelsFrom := by
    refine ⟨_, rfl, ?_⟩
    intro c
    simp
  channel := fun _ _ => rfl

theorem demo_endpoints_agree :
    (∃ listing info, listChannels demoHopr ⟨false, false⟩ = ⟨200, .ok listing⟩ ∧
      showPeerInfo demoHopr 2 = ⟨200, .ok info⟩ ∧
      ∀ direction, Agree demoHopr 2 direction listing info
        (showChannel demoHopr none 2 direction).body.toOption) ∧
    (closeChannel demoHopr 2 .outgoing).1 ≠ [] ∧ (closeChannel demoHopr 2 .incoming).1 = [] :=
  ⟨(channel_endpoints_agree demoHopr_reads rfl rfl).1, by decide, by decide⟩

end Hoprd.RestApi.Channels
