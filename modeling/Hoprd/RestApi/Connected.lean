import Hoprd.RestApi.Channels
import Mathlib.Data.List.Nodup

/-!
# Connected peers and their pages (`rest-api/src/network.rs`, `peers.rs`)

`connected` lists the peers this node is known to be connected to, `show_peer_info`
shows one of them. Both walk the edges of the graph: the one from keys to addresses,
skipping what it cannot resolve, the other until it meets the address it was asked for.

* `findQos_of_edge`: the page shows the one edge to its address.
* `connected_pages_agree`: the list and the pages say the same.
-/
namespace Hoprd.RestApi.Channels

/-- An edge with what its immediate observation knows of the connection. -/
structure ObservedEdge extends Edge where
  isConnected : Option Bool

/-- mirrors rest-api/src/network.rs:124-147 -/
structure ConnectedPeerResponse where
  address : Address
  probeRate : Option F64
  lastUpdate : Nat
  averageLatency : Option Nat
  score : Option F64
  deriving DecidableEq, Repr

/-- What the loop pushes for an edge. -/
def connectedPeer (hopr : Hopr) (e : ObservedEdge) : Option ConnectedPeerResponse :=
  if e.src ≠ hopr.graphIdentity then none
  else
    match e.immediateQos with
    | none => none
    | some (rate, latency) =>
      if e.isConnected ≠ some true then none
      else
        match hopr.packetKeyToChainKey e.dst with
        | .ok (some address) => some ⟨address, rate, e.lastUpdate, latency, e.score⟩
        | .ok none | .error _ => none

/-- mirrors rest-api/src/network.rs:169-210 -/
def connected (hopr : Hopr) (edges : List ObservedEdge) : Response (List ConnectedPeerResponse) :=
  ⟨200, .ok (edges.filterMap (connectedPeer hopr))⟩

/-- One graph behind both endpoints, with at most one edge from a key to another, and one
mapping between keys and addresses, read in both directions. -/
structure Network where
  hopr : Hopr
  edges : List ObservedEdge
  edges_eq : hopr.connectedEdges = edges.map ObservedEdge.toEdge
  onePerPair : (edges.map fun e => (e.src, e.dst)).Nodup
  mapping : ∀ key address, hopr.packetKeyToChainKey key = .ok (some address) ↔
    hopr.chainKeyToPacketKey address = .ok (some key)

/-- What a page shows of an entry of the list. -/
def ConnectedPeerResponse.qos (entry : ConnectedPeerResponse) : PeerQosInfo :=
  ⟨entry.probeRate, entry.lastUpdate, entry.averageLatency, entry.score⟩

/-- An edge from this node to the address. -/
def ObservedEdge.LeadsTo (e : ObservedEdge) (hopr : Hopr) (address : Address) : Prop :=
  e.src = hopr.graphIdentity ∧ hopr.packetKeyToChainKey e.dst = .ok (some address)

/-- The list and the pages say the same. -/
structure QualityAgrees (n : Network) (peers : List ConnectedPeerResponse) : Prop where
  /-- The page of an entry is there, unless the accounts cannot be read, and shows it. -/
  listed : ∀ entry ∈ peers, ∃ key, n.hopr.chainKeyToPacketKey entry.address = .ok (some key) ∧
    ∀ accounts, n.hopr.streamAccounts key = .ok accounts →
      ∃ info, showPeerInfo n.hopr entry.address = ⟨200, .ok info⟩ ∧ info.qos = some entry.qos
  /-- A page that shows an edge known to be connected is listed once. -/
  shown : ∀ address info, showPeerInfo n.hopr address = ⟨200, .ok info⟩ → info.qos.isSome →
    (∃ e ∈ n.edges, e.LeadsTo n.hopr address ∧ e.isConnected = some true) →
    peers.countP (fun entry => entry.address = address) = 1

/-! ## One edge -/

/-- The quality that both endpoints copy from an edge. -/
def ObservedEdge.qos (e : ObservedEdge) : Option PeerQosInfo :=
  e.immediateQos.map fun (rate, latency) => ⟨rate, e.lastUpdate, latency, e.score⟩

section
variable {hopr : Hopr} {e : ObservedEdge} {address : Address}

theorem connectedPeer_eq_some_iff {entry : ConnectedPeerResponse} :
    connectedPeer hopr e = some entry ↔
      e.LeadsTo hopr entry.address ∧ e.isConnected = some true ∧ e.qos = some entry.qos := by
  unfold connectedPeer ObservedEdge.LeadsTo ObservedEdge.qos
  by_cases hsrc : e.src = hopr.graphIdentity
  · cases himm : e.immediateQos with
    | none => simp [hsrc]
    | some imm =>
      obtain ⟨rate, latency⟩ := imm
      by_cases hcon : e.isConnected = some true
      · cases hkey : hopr.packetKeyToChainKey e.dst with
        | error err => simp [hsrc, hcon]
        | ok found =>
          cases found with
          | none => simp [hsrc, hcon]
          | some a =>
            obtain ⟨a', rate', update', latency', score'⟩ := entry
            simp [hsrc, hcon, ConnectedPeerResponse.qos]
      · simp [hsrc, hcon]
  · simp [hsrc]

theorem findQos_cons_of_leadsTo {edges : List Edge} (h : e.LeadsTo hopr address) :
    findQos hopr address (e.toEdge :: edges) = e.qos := by
  obtain ⟨hsrc, hdst⟩ := h
  simp [findQos, hsrc, hdst, ObservedEdge.qos]

theorem findQos_cons_of_not_leadsTo {edges : List Edge} (h : ¬ e.LeadsTo hopr address) :
    findQos hopr address (e.toEdge :: edges) = findQos hopr address edges := by
  rw [findQos]
  by_cases hsrc : e.src = hopr.graphIdentity
  · rw [if_neg (not_not_intro hsrc)]
    split
    · next a ha =>
      have hne : a ≠ address := fun he => h ⟨hsrc, he ▸ ha⟩
      exact if_pos hne
    · rfl
    · rfl
  · exact if_pos hsrc

end

/-! ## All edges -/

namespace Network

variable (n : Network) {e e' : ObservedEdge} {address : Address}

theorem leadsTo_unique (he : e ∈ n.edges) (he' : e' ∈ n.edges) (h : e.LeadsTo n.hopr address)
    (h' : e'.LeadsTo n.hopr address) : e = e' := by
  have hkey := (n.mapping e.dst address).1 h.2
  have hkey' := (n.mapping e'.dst address).1 h'.2
  have hdst : e.dst = e'.dst := by
    rw [hkey] at hkey'
    exact Option.some.inj (Except.ok.inj hkey')
  refine List.inj_on_of_nodup_map n.onePerPair he he' ?_
  exact Prod.ext (h.1.trans h'.1.symm) hdst

end Network

section
variable {hopr : Hopr} {address : Address} {e : ObservedEdge} {edges : List ObservedEdge}

theorem findQos_of_edge (he : e ∈ edges) (h : e.LeadsTo hopr address)
    (hunique : ∀ e' ∈ edges, e'.LeadsTo hopr address → e' = e) :
    findQos hopr address (edges.map ObservedEdge.toEdge) = e.qos := by
  induction edges with
  | nil => cases he
  | cons d edges ih =>
    rw [List.map_cons]
    by_cases hd : d.LeadsTo hopr address
    · obtain rfl := hunique d List.mem_cons_self hd
      exact findQos_cons_of_leadsTo hd
    · rw [findQos_cons_of_not_leadsTo hd]
      have hmem : e ∈ edges := by
        rcases List.mem_cons.1 he with rfl | hmem
        · exact (hd h).elim
        · exact hmem
      exact ih hmem fun e' he' => hunique e' (List.mem_cons_of_mem _ he')

theorem countP_eq_one {α : Type} {p : α → Bool} {l : List α} {a : α} (hl : l.Nodup) (ha : a ∈ l)
    (hp : p a = true) (hunique : ∀ b ∈ l, p b = true → b = a) : l.countP p = 1 := by
  have hfilter : l.filter p = [a] := by
    have hone : [a].Nodup := List.nodup_singleton a
    refine List.perm_singleton.1 ((List.perm_ext_iff_of_nodup (hl.filter p) hone).2 fun b => ?_)
    rw [List.mem_filter, List.mem_singleton]
    exact ⟨fun hb => hunique b hb.1 hb.2, fun hb => hb ▸ ⟨ha, hp⟩⟩
  rw [List.countP_eq_length_filter, hfilter, List.length_singleton]

end

namespace Network

variable (n : Network) {e : ObservedEdge} {address : Address}

/-- The page of a key that is known, when the accounts can be read. -/
theorem showPeerInfo_of_key {key : PacketKey} {accounts : List (List Multiaddr)}
    (hkey : n.hopr.chainKeyToPacketKey address = .ok (some key))
    (ha : n.hopr.streamAccounts key = .ok accounts) :
    ∃ info, showPeerInfo n.hopr address = ⟨200, .ok info⟩ ∧
      info.qos = findQos n.hopr address n.hopr.connectedEdges := by
  unfold showPeerInfo
  rw [hkey]
  simp only [ha]
  exact ⟨_, rfl, rfl⟩

theorem qos_of_showPeerInfo {info : NodePeerInfoResponse}
    (h : showPeerInfo n.hopr address = ⟨200, .ok info⟩) :
    info.qos = findQos n.hopr address n.hopr.connectedEdges := by
  unfold showPeerInfo at h
  split at h
  · cases h
  · cases h
  · split at h
    · cases h
    · cases h
      rfl

theorem findQos_eq (he : e ∈ n.edges) (h : e.LeadsTo n.hopr address) :
    findQos n.hopr address n.hopr.connectedEdges = e.qos := by
  rw [n.edges_eq]
  exact findQos_of_edge he h fun e' he' h' => n.leadsTo_unique he' he h' h

/-- **The list and the pages agree.** -/
theorem connected_pages_agree (n : Network) :
    ∃ peers, connected n.hopr n.edges = ⟨200, .ok peers⟩ ∧ QualityAgrees n peers := by
  refine ⟨_, rfl, ?_, ?_⟩
  · intro entry hentry
    obtain ⟨e, he, hpeer⟩ := List.mem_filterMap.1 hentry
    obtain ⟨hleads, -, hqos⟩ := connectedPeer_eq_some_iff.1 hpeer
    have hkey := (n.mapping e.dst entry.address).1 hleads.2
    refine ⟨e.dst, hkey, fun accounts ha => ?_⟩
    obtain ⟨info, hpage, hshown⟩ := n.showPeerInfo_of_key hkey ha
    exact ⟨info, hpage, by rw [hshown, n.findQos_eq he hleads, hqos]⟩
  · rintro address info hpage hsome ⟨e, he, hleads, hcon⟩
    rw [n.qos_of_showPeerInfo hpage, n.findQos_eq he hleads] at hsome
    obtain ⟨q, hq⟩ := Option.isSome_iff_exists.1 hsome
    have hpeer : connectedPeer n.hopr e =
        some ⟨address, q.probeRate, q.lastUpdate, q.averageLatency, q.score⟩ :=
      connectedPeer_eq_some_iff.2 ⟨hleads, hcon, hq⟩
    rw [List.countP_filterMap]
    refine countP_eq_one (List.Nodup.of_map _ n.onePerPair) he (by simp [hpeer]) ?_
    intro e' he' hlisted
    cases hpeer' : connectedPeer n.hopr e' with
    | none => simp [hpeer'] at hlisted
    | some entry =>
      have haddress : entry.address = address := by simpa [hpeer'] using hlisted
      have hleads' := (connectedPeer_eq_some_iff.1 hpeer').1
      exact n.leadsTo_unique he' he (haddress ▸ hleads') hleads

end Network

/-! ## A graph -/

/-- An edge to peer `2`, measured, and one back. -/
def demoEdges : List ObservedEdge :=
  [⟨⟨1, 2, some (some (.finite (1 / 2)), some 100), 1690000000000, none⟩, some true⟩,
    ⟨⟨2, 1, some (none, none), 0, none⟩, none⟩]

/-- The keys are the addresses, in more bits. -/
def demoNetwork : Network where
  hopr := { demoHopr with
    packetKeyToChainKey := fun k =>
      .ok (if (k.setWidth 160).setWidth 256 = k then some (k.setWidth 160) else none)
    connectedEdges := demoEdges.map ObservedEdge.toEdge }
  edges := demoEdges
  edges_eq := rfl
  onePerPair := by decide
  mapping key address := by
    have hnarrow : (address.setWidth 256).setWidth 160 = address :=
      BitVec.setWidth_setWidth_of_le address (by decide)
    show Except.ok _ = Except.ok _ ↔ Except.ok (some (address.setWidth 256)) = Except.ok (some key)
    simp only [Except.ok.injEq, Option.some.injEq]
    constructor
    · intro h
      split at h
      · next hk =>
        rw [← Option.some.inj h]
        exact hk
      · cases h
    · rintro rfl
      rw [hnarrow, if_pos rfl]

theorem demo_pages_agree : ∃ peers,
    connected demoNetwork.hopr demoNetwork.edges = ⟨200, .ok peers⟩ ∧
      QualityAgrees demoNetwork peers := demoNetwork.connected_pages_agree

end Hoprd.RestApi.Channels
