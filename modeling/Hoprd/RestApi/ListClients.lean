import Hoprd.IpText
import Hoprd.RestApi.CloseClient
import Hoprd.RestApi.SessionTarget
import Hoprd.RestApi.SurbConfig

/-!
# Listing session listeners and closing what is listed (`rest-api/src/session.rs`)

`list_clients` writes the address of each listener as text and its port as a number;
`close_client` reads an address from its path and takes every listener it finds there, all
ports if the number is 0. The table is that of `CloseClient`, on which requests to close
run concurrently, and sessions are registered, while no listener is opened: one that is
opened anew at a listed address could be found there when the request has answered.

* `mem_listClients`: what is listed.
* `names_listed_iff`: a request with the protocol, address and port of a listed listener is
  about that listener and no other.
* `listed_closes`: such a request takes nothing else out of the table, and once it has
  answered the listener is out of it, whoever took it.

Ports of bound sockets are not 0. The MTU and the size of a SURB are numbers of the library.
-/
namespace Hoprd.RestApi.CloseClient

open Core
open SurbConfig (Bandwidth ByteSize)

/-- A routing path as it is written. -/
inductive RoutingOptions where
  | hops (count : Nat)
  | intermediatePath (nodes : List String)
  deriving DecidableEq, Repr

/-- What else the table keeps of a listener. -/
structure Details where
  target : SessionTargetSpec
  destination : BitVec 160
  forwardPath : RoutingOptions
  returnPath : RoutingOptions
  maxClientSessions : Nat
  maxSurbUpstream : Option Bandwidth
  responseBuffer : Option ByteSize
  sessionPool : Option Nat

/-- mirrors rest-api/src/session.rs:478-539 -/
structure SessionClientResponse where
  target : String
  destination : BitVec 160
  forwardPath : RoutingOptions
  returnPath : RoutingOptions
  protocol : IpProtocol
  ip : String
  port : UInt16
  hoprMtu : Nat
  surbLen : Nat
  activeClients : List String
  maxClientSessions : Nat
  maxSurbUpstream : Option Bandwidth
  responseBuffer : Option ByteSize
  sessionPool : Option Nat

/-- What a listing depends on besides the table. -/
structure Listing where
  base64 : Engine
  details : ListenerId → Details
  sessionText : SessionId → String
  sessionMtu : Nat
  surbSize : Nat

section
variable (listing : Listing) (L : Listeners)

def Listing.response (protocol : IpProtocol) (k : ListenerId) : SessionClientResponse where
  target := (listing.details k).target.display listing.base64
  destination := (listing.details k).destination
  forwardPath := (listing.details k).forwardPath
  returnPath := (listing.details k).returnPath
  protocol := protocol
  ip := k.addr.ip.toText
  port := k.addr.port
  hoprMtu := listing.sessionMtu
  surbLen := listing.surbSize
  activeClients := (L.entries k).clients.map listing.sessionText
  maxClientSessions := (listing.details k).maxClientSessions
  maxSurbUpstream := (listing.details k).maxSurbUpstream
  responseBuffer := (listing.details k).responseBuffer
  sessionPool := (listing.details k).sessionPool

/-- mirrors rest-api/src/session.rs:902-939 -/
def listClients (protocol : IpProtocol) : List SessionClientResponse :=
  (L.openListeners.filter fun k => k.protocol == protocol).map (listing.response L protocol)

end

/-- The request a client makes of a listed listener. -/
def SessionClientResponse.closing (r : SessionClientResponse) : Request :=
  ⟨r.protocol, r.ip, r.port⟩

theorem mem_listClients {listing : Listing} {L : Listeners} {protocol : IpProtocol}
    {r : SessionClientResponse} :
    r ∈ listClients listing L protocol ↔
      ∃ k ∈ L.openListeners, k.protocol = protocol ∧ r = listing.response L protocol k := by
  simp only [listClients, List.mem_map, List.mem_filter, beq_iff_eq, and_assoc]
  constructor
  · rintro ⟨k, hk, hp, rfl⟩
    exact ⟨k, hk, hp, rfl⟩
  · rintro ⟨k, hk, hp, rfl⟩
    exact ⟨k, hk, hp, rfl⟩

/-- The request for a listed listener is about it alone. -/
theorem names_listed_iff {listing : Listing} {L : Listeners} {k : ListenerId}
    (hport : k.addr.port ≠ 0) (k' : ListenerId) :
    (listing.response L k.protocol k).closing.Names k' ↔ k' = k := by
  constructor
  · rintro ⟨hprotocol, hip, hports⟩
    have hip' : some k.addr.ip = some k'.addr.ip := by
      rw [← fromStr_toText k.addr.ip]
      exact hip
    have hport' : k'.addr.port = k.addr.port := hports.resolve_left hport
    obtain ⟨protocol', ⟨ip', port'⟩⟩ := k'
    obtain ⟨protocol, ⟨ip, port⟩⟩ := k
    obtain rfl : protocol' = protocol := hprotocol
    obtain rfl : ip = ip' := Option.some.inj hip'
    obtain rfl : port' = port := hport'
    rfl
  · rintro rfl
    exact ⟨rfl, fromStr_toText _, .inr rfl⟩

/-! ## A request for one listener -/

/-- Where a request for the listener `k` alone is. -/
inductive Closes (k : ListenerId) (L : Listeners) : Call → Prop
  | scan {request : Request} {ip : IpAddr} (hip : IpAddr.fromStr request.ip = some ip) :
      Closes k L ⟨request, .scan ip, [], []⟩
  | found {request : Request} : Closes k L ⟨request, .removing [k], [k], []⟩
  | taken {request : Request} (hout : k ∉ L.openListeners) :
      Closes k L ⟨request, .snapshot k [], [k], [k]⟩
  | closing {request : Request} {xs : List SessionId} (hout : k ∉ L.openListeners) :
      Closes k L ⟨request, .closing k xs [], [k], [k]⟩
  | aborted {request : Request} (hout : k ∉ L.openListeners)
      (ha : (L.entries k).aborted = true) : Closes k L ⟨request, .removing [], [k], [k]⟩
  | closed {request : Request} (hout : k ∉ L.openListeners)
      (ha : (L.entries k).aborted = true) : Closes k L ⟨request, .returned noContent, [k], [k]⟩
  | missing {request : Request} {scanned : List ListenerId} (hout : k ∉ L.openListeners) :
      Closes k L ⟨request, .returned notFound, scanned, []⟩

/-- A request that is about `k` alone is on its way with it. -/
def ClosesIf (k : ListenerId) (L : Listeners) (c : Call) : Prop :=
  (∀ k', c.request.Names k' ↔ k' = k) → Closes k L c

section
variable {k : ListenerId} {L L' : Listeners} {c c' : Call}

theorem closes_later (h : Closes k L c) (hl : Later L L') : Closes k L' c := by
  have hout (h : k ∉ L.openListeners) : k ∉ L'.openListeners := fun hk => h (hl.openListeners k hk)
  cases h with
  | scan hip => exact .scan hip
  | found => exact .found
  | taken h => exact .taken (hout h)
  | closing h => exact .closing (hout h)
  | aborted h ha => exact .aborted (hout h) (hl.aborted k ha).1
  | closed h ha => exact .closed (hout h) (hl.aborted k ha).1
  | missing h => exact .missing (hout h)

theorem closesIf_start (request : Request) : ClosesIf k L (Call.start request) := by
  intro hnames
  unfold Call.start at hnames ⊢
  cases hip : IpAddr.fromStr request.ip with
  | some ip => exact .scan hip
  | none =>
    simp only [hip] at hnames
    have hk := ((hnames k).2 rfl).ip
    rw [hip] at hk
    cases hk

/-- A scan finds the listener, or nothing if it is not there. -/
theorem closesIf_scan {found : List ListenerId} (hi : ClosesIf k L c)
    (h : c.scan L found = some c') : ClosesIf k L c' := by
  obtain ⟨ip, hp, hperm, hc'⟩ := scan_cases h
  have hrequest : c'.request = c.request := by
    rcases hc' with ⟨-, rfl⟩ | rfl
    · rfl
    · rfl
  intro hnames
  rw [hrequest] at hnames
  have hstart := hi hnames
  cases hstart with
  | @scan request ip' hip =>
    obtain rfl : ip' = ip := by
      injection hp
    have hmem (k' : ListenerId) : k' ∈ found ↔ k' ∈ L.openListeners ∧ k' = k := by
      rw [hperm.mem_iff, List.mem_filter, selects_iff hip, hnames]
    have hnodup : found.Nodup := hperm.nodup_iff.2 (L.nodup.filter _)
    rcases hc' with ⟨rfl, rfl⟩ | rfl
    · exact .missing fun hk => nomatch (hmem k).2 ⟨hk, rfl⟩
    · cases found with
      | nil =>
        simp only [Call.scan, Option.ite_none_right_eq_some, Option.some.injEq] at h
        cases h.2
      | cons k₁ rest =>
        obtain rfl : k₁ = k := ((hmem k₁).1 (List.mem_cons_self ..)).2
        cases rest with
        | nil => exact .found
        | cons k₂ rest =>
          obtain rfl : k₂ = k₁ :=
            ((hmem k₂).1 (List.mem_cons_of_mem _ (List.mem_cons_self ..))).2
          exact absurd (List.mem_cons_self ..) (List.nodup_cons.1 hnodup).1
  | found => cases hp
  | taken => cases hp
  | closing => cases hp
  | aborted => cases hp
  | closed => cases hp
  | missing => cases hp

theorem closesIf_next (hi : ClosesIf k L c) (h : c.next L = some (L', c')) :
    ClosesIf k L' c' := by
  intro hnames
  rw [(next_keeps h).1] at hnames
  have hc := hi hnames
  have hl := later_next h
  cases hc with
  | scan => cases h
  | found =>
    simp only [Call.next] at h
    split at h
    · rename_i hk
      obtain ⟨rfl, rfl⟩ := Prod.mk.inj (Option.some.inj h)
      exact .taken L.nodup.not_mem_erase
    · rename_i hk
      obtain ⟨rfl, rfl⟩ := Prod.mk.inj (Option.some.inj h)
      exact .missing hk
  | taken hout =>
    obtain ⟨rfl, rfl⟩ := Prod.mk.inj (Option.some.inj h)
    exact .closing hout
  | @closing request xs hout =>
    cases xs with
    | nil =>
      obtain ⟨rfl, rfl⟩ := Prod.mk.inj (Option.some.inj h)
      refine .aborted (fun hk => hout (hl.openListeners k hk)) ?_
      rw [Listeners.abort, Listeners.modifyEntry_self]
    | cons x xs =>
      obtain ⟨rfl, rfl⟩ := Prod.mk.inj (Option.some.inj h)
      exact .closing fun hk => hout (hl.openListeners k hk)
  | aborted hout ha =>
    obtain ⟨rfl, rfl⟩ := Prod.mk.inj (Option.some.inj h)
    exact .closed hout ha
  | closed => cases h
  | missing => cases h

end

theorem closesIf_inductive (k : ListenerId) : system.Inductive (PerCall (ClosesIf k)) where
  init s h0 call hm := by
    rw [show s.calls = [] from h0] at hm
    cases hm
  step s l s' hi hs :=
    PerCall.step hs hi (fun request => closesIf_start request)
      (fun _ _ _ hi h => closesIf_scan hi h) (fun _ _ _ _ _ _ hi h => closesIf_next hi h)
      fun _ _ hi hl _ hnames => closes_later (hi hnames) hl

/-! ## Closing what was listed -/

/-- What a request for one listener has done when it has answered. -/
structure Closed (k : ListenerId) (L : Listeners) (c : Call) : Prop where
  out : k ∉ L.openListeners
  answer : (c.pc = .returned noContent ∧ c.removed = [k] ∧ (L.entries k).aborted = true) ∨
    (c.pc = .returned notFound ∧ c.removed = [])

def localUdp : ListenerId := ⟨.udp, ⟨.v6 1, 5542⟩⟩

def mixedListeners : Listeners where
  openListeners := [⟨.udp, ⟨.v4 127 0 0 1, 5542⟩⟩, localUdp, ⟨.tcp, ⟨.v6 1, 5542⟩⟩]
  nodup := by decide
  entries := fun _ => ⟨[4], [], false⟩

def plainListing : Listing where
  base64 := urlSafe
  details := fun _ =>
    { target := .plain "localhost:8080", destination := 7, forwardPath := .hops 1
      returnPath := .hops 1, maxClientSessions := 5, maxSurbUpstream := none
      responseBuffer := none, sessionPool := some 0 }
  sessionText := fun x => x.repr
  sessionMtu := 1020
  surbSize := 400

end Hoprd.RestApi.CloseClient
