import Hoprd.Localcluster.RelayFlows

/-!
# Peers that are not nodes (`localcluster/src/relay.rs`, `peer_index`)

`peer_index` recovers a node index from a source port. It checks the port against the
base from below only, and `resolve` also looks up the destination, which on the forward
leg is the node behind the relay.

* `peerIndex_outsider`: a port that belongs to no node gives an index no node has, so no
  rule over the nodes matches it (`isBlocked_outside`, `arrivalOn_outside`).
* `outsiders_global_iff`: all its datagrams get the global delay exactly if no entry of the
  configuration shapes one of its two links otherwise.
* `per_node_shapes_outsider`: a per-node entry of the node behind the relay does.
-/
namespace Hoprd.Localcluster

/-- The entry that goes before the global default, if there is one. -/
def LatencyConfig.specific (cfg : LatencyConfig) (src dst : Nat) : Option DelayDist :=
  (cfg.perLink.lookup (src, dst)).or (cfg.perNode.lookup dst)

/-- No entry shapes the link otherwise than the global default. -/
def LatencyConfig.FallsBack (cfg : LatencyConfig) (src dst : Nat) : Prop :=
  ∀ d, cfg.specific src dst = some d → cfg.default = some d

theorem resolve_eq_default_iff (cfg : LatencyConfig) (src dst : Nat) :
    cfg.resolve src dst = cfg.default ↔ cfg.FallsBack src dst := by
  have hres : cfg.resolve src dst = (cfg.specific src dst).or cfg.default := rfl
  unfold LatencyConfig.FallsBack
  rw [hres]
  cases hs : cfg.specific src dst with
  | none => exact ⟨nofun, fun _ => rfl⟩
  | some d =>
    constructor
    · intro h d' hd
      rw [← h, ← hd]
      rfl
    · intro h
      exact (h d rfl).symm

namespace Relay

open Core

/-- The port belongs to none of the `n` nodes. -/
def Outsider (cfg : RelayConfig) (n : Nat) (p : SocketAddr) : Prop :=
  p.port.toNat < cfg.p2pPortBase.toNat ∨ cfg.p2pPortBase.toNat + n ≤ p.port.toNat

instance (cfg : RelayConfig) (n : Nat) (p : SocketAddr) : Decidable (Outsider cfg n p) :=
  inferInstanceAs (Decidable (_ ∨ _))

/-- Both rule sets are over the indices of the `n` nodes. -/
structure RulesWithin (n : Nat) (s : St) : Prop where
  blocked : ∀ l ∈ s.blocked, l.1 < n ∧ l.2 < n
  stalled : ∀ l ∈ s.stalled, l.1 < n ∧ l.2 < n

/-- The link of these ends is open, its datagrams are not held when they come in. -/
structure Unruled (s : St) (src dst : Nat) : Prop where
  admitted : isBlocked s.blocked src dst = false
  notHeld : s.arrivalOn src dst = s.now

/-- No rule matches the peer in either direction, and both its legs draw from the global
default. -/
structure GlobalOnly (cfg : RelayConfig) (p : SocketAddr) (s : St) : Prop where
  forward : Unruled s (peerIndex cfg p) cfg.nodeId
  ret : Unruled s cfg.nodeId (peerIndex cfg p)
  shaped : ∀ t, s.sessions.lookup p = some t →
    t.forward.delay = cfg.latency.default ∧ t.ret.delay = cfg.latency.default

section
variable {maxInstant : Instant} {cfg : RelayConfig} {n : Nat} {p : SocketAddr} {s : St}

theorem peerIndex_outsider (hn : n < 2 ^ 64) (ho : Outsider cfg n p) : n ≤ peerIndex cfg p := by
  unfold peerIndex
  split
  · rename_i hle
    have hle : cfg.p2pPortBase.toNat ≤ p.port.toNat := UInt16.le_iff_toNat_le.1 hle
    rw [UInt16.toNat_sub_of_le _ _ hle]
    rcases ho with hlt | hge <;> omega
  · unfold UNKNOWN_PEER
    omega

/-! ## Rules -/

theorem isBlocked_outside {src dst : Nat} (hr : RulesWithin n s) (h : n ≤ src ∨ n ≤ dst) :
    isBlocked s.blocked src dst = false := by
  apply Bool.eq_false_iff.2
  intro hb
  have hmem : (src, dst) ∈ s.blocked := List.contains_iff_mem.1 hb
  obtain ⟨hsrc, hdst⟩ := hr.blocked _ hmem
  dsimp only at hsrc hdst
  omega

theorem arrivalOn_outside {src dst : Nat} (hr : RulesWithin n s) (h : n ≤ src ∨ n ≤ dst) :
    s.arrivalOn src dst = s.now := by
  have hnone : s.stalled.lookup (src, dst) = none := by
    apply AList.lookup_eq_none.2
    intro hmem
    obtain ⟨hsrc, hdst⟩ := hr.stalled _ hmem
    dsimp only at hsrc hdst
    omega
  simp [St.arrivalOn, stallDelay, hnone]

theorem unruled_outside {src dst : Nat} (hr : RulesWithin n s) (h : n ≤ src ∨ n ≤ dst) :
    Unruled s src dst := ⟨isBlocked_outside hr h, arrivalOn_outside hr h⟩

/-! ## Delays -/

/-- Both legs of a session keep the delay they were created with. -/
theorem leg_delays {t : Session} (h : (system maxInstant cfg).Reachable s)
    (ht : s.sessions.lookup p = some t) :
    t.forward.delay = cfg.latency.resolve (peerIndex cfg p) cfg.nodeId ∧
      t.ret.delay = cfg.latency.resolve cfg.nodeId (peerIndex cfg p) := by
  obtain ⟨hforward, hret⟩ := legs_flowInv h ht
  exact ⟨hforward.sameDelay, hret.sameDelay⟩

/-- The state after the first datagram of a peer. -/
theorem exists_session (maxInstant : Instant) (cfg : RelayConfig) (p : SocketAddr) :
    ∃ s t, (system maxInstant cfg).Reachable s ∧ s.blocked = [] ∧ s.stalled = ∅ ∧
      s.sessions.lookup p = some t := by
  have hstep : step maxInstant cfg ⟨0, 0, [], ∅, ∅⟩ (.datagram p [] true p) =
      some ⟨0, 0, [], ∅, forward cfg ⟨0, 0, [], ∅, ∅⟩
        ((∅ : Table SocketAddr Session).insert p (newUpstream cfg 0 p)) p
        (newUpstream cfg 0 p) []⟩ := rfl
  have hinit : (system maxInstant cfg).init ⟨0, 0, [], ∅, ∅⟩ := rfl
  have hreach := (LTS.Reachable.init hinit).step hstep
  obtain ⟨hb, -⟩ | ⟨-, -, hf⟩ | ⟨-, hx, -⟩ := forward_cases cfg ⟨0, 0, [], ∅, ∅⟩
    ((∅ : Table SocketAddr Session).insert p (newUpstream cfg 0 p)) p (newUpstream cfg 0 p) []
  · cases hb
  · rw [hf] at hreach
    exact ⟨_, _, hreach, rfl, rfl, AList.lookup_insert _⟩
  · cases hx

end

/-- **Outsiders get the global delay and no rule, in every run, exactly if no entry of
the configuration shapes a link between the index they get and the node otherwise.** -/
theorem outsiders_global_iff (maxInstant : Instant) (cfg : RelayConfig) (n : Nat)
    (p : SocketAddr) (hn : n < 2 ^ 64) (ho : Outsider cfg n p) :
    (∀ s, (system maxInstant cfg).Reachable s → RulesWithin n s → GlobalOnly cfg p s) ↔
      cfg.latency.FallsBack (peerIndex cfg p) cfg.nodeId ∧
        cfg.latency.FallsBack cfg.nodeId (peerIndex cfg p) := by
  have hout := peerIndex_outsider hn ho
  constructor
  · intro h
    obtain ⟨s, t, hreach, hb, hst, ht⟩ := exists_session maxInstant cfg p
    have hrules : RulesWithin n s := by
      constructor
      · rw [hb]; nofun
      · rw [hst]; intro l hl; cases AList.notMem_empty l hl
    obtain ⟨hforward, hret⟩ := (h s hreach hrules).shaped t ht
    obtain ⟨hforward', hret'⟩ := leg_delays hreach ht
    exact ⟨(resolve_eq_default_iff _ _ _).1 (hforward'.symm.trans hforward),
      (resolve_eq_default_iff _ _ _).1 (hret'.symm.trans hret)⟩
  · rintro ⟨hforward, hret⟩ s hreach hrules
    refine ⟨unruled_outside hrules (.inl hout), unruled_outside hrules (.inr hout), ?_⟩
    intro t ht
    obtain ⟨hforward', hret'⟩ := leg_delays hreach ht
    exact ⟨hforward'.trans ((resolve_eq_default_iff _ _ _).2 hforward),
      hret'.trans ((resolve_eq_default_iff _ _ _).2 hret)⟩

/-- Node 0 of a cluster of two: the other node and the link from it have delays of their own,
the entry of node 0 repeats the default. -/
def shapedPair : RelayConfig :=
  ⟨0, 9000, ⟨some (.fixed 5), (AList.singleton 1 (.fixed 7)).insert 0 (.fixed 5),
    AList.singleton (1, 0) (.fixed 9)⟩⟩

/-- A client, whose port is below the base. -/
def client : SocketAddr := ⟨.v4 127 0 0 1, 4000⟩

theorem outsiders_global_pair : ∃ s t, (system 1000 shapedPair).Reachable s ∧
    s.sessions.lookup client = some t ∧ t.forward.delay = some (.fixed 5) ∧
    GlobalOnly shapedPair client s := by
  have hback : shapedPair.latency.FallsBack (peerIndex shapedPair client) shapedPair.nodeId ∧
      shapedPair.latency.FallsBack shapedPair.nodeId (peerIndex shapedPair client) := by
    refine ⟨?_, nofun⟩
    intro d hd
    obtain rfl := Option.some.inj hd
    rfl
  obtain ⟨s, t, hreach, hb, hst, ht⟩ := exists_session 1000 shapedPair client
  have hrules : RulesWithin 2 s := by
    constructor
    · rw [hb]; nofun
    · rw [hst]; intro l hl; cases AList.notMem_empty l hl
  have hglobal := (outsiders_global_iff 1000 shapedPair 2 client (by decide) (by decide)).2 hback
    s hreach hrules
  exact ⟨s, t, hreach, ht, (hglobal.shaped t ht).1, hglobal⟩

/-- Node 0 of a cluster of one, with a delay for all that goes to it. -/
def slowNode : RelayConfig := ⟨0, 9000, ⟨none, AList.singleton 0 (.fixed 5), ∅⟩⟩

theorem per_node_shapes_outsider :
    (∃ s t, (system 1000 slowNode).Reachable s ∧ s.sessions.lookup client = some t ∧
      peerIndex slowNode client = UNKNOWN_PEER ∧ slowNode.latency.default = none ∧
      t.forward.delay = some (.fixed 5)) ∧
    ¬ ∀ (cfg : RelayConfig) (n : Nat) (p : SocketAddr), n < 2 ^ 64 → cfg.nodeId < n →
      Outsider cfg n p → ∀ s, (system 1000 cfg).Reachable s → RulesWithin n s →
        GlobalOnly cfg p s := by
  obtain ⟨s, t, hreach, hb, hst, ht⟩ := exists_session 1000 slowNode client
  have hdelay : t.forward.delay = some (.fixed 5) := (leg_delays hreach ht).1.trans rfl
  refine ⟨⟨s, t, hreach, ht, rfl, rfl, hdelay⟩, fun h => ?_⟩
  have hrules : RulesWithin 1 s := by
    constructor
    · rw [hb]; nofun
    · rw [hst]; intro l hl; cases AList.notMem_empty l hl
  have hglobal := h slowNode 1 client (by decide) (by decide) (by decide) s hreach hrules
  rw [(hglobal.shaped t ht).1] at hdelay
  cases hdelay

end Relay

end Hoprd.Localcluster
