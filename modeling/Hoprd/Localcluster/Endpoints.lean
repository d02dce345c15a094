import Hoprd.Localcluster.Summary
import Hoprd.Core.Split
import Hoprd.Text

/-!
# The endpoints of a node (`client_helper.rs`, `summary.rs`, `identity.rs`, `main.rs`)

Four places compute a port as base plus node id and a host from the arguments: the summary,
the announcement, the relay and the start of the node with its client. Two of them check
the sum. The summary widens it, and the start adds as `u16`, which panics or wraps, by the
build. Two of them map `auto` to loopback, the client does not.

* `startNode_of_fits`, `announce_of_fits`, `relaySockets_of_fits`: what each gives when its
  sums are ports.
* `endpoints_agree_iff`: they agree, and each reports a sum that is no port, exactly if all
  sums are ports, the API host is not `auto` and no relay is to bind port 0.
* `auto_host_disagrees`: the client dials `auto`.
-/
namespace Hoprd.Summary

/-- What a step that can fail or panic ends with. -/
inductive Outcome (α : Type) where
  | ok (a : α)
  | error (e : String)
  | panic
  deriving DecidableEq

/-- `u16::checked_add` with `id as u16`. -/
def checkedAdd (base : UInt16) (id : Nat) : Option UInt16 :=
  if base.toNat + (UInt16.ofNat id).toNat < 2 ^ 16 then some (base + UInt16.ofNat id) else none

/-- `base + id as u16`; with overflow checks it panics, without them it wraps. -/
def uncheckedAdd (overflowChecks : Bool) (base : UInt16) (id : Nat) : Outcome UInt16 :=
  match checkedAdd base id with
  | some port => .ok port
  | none => if overflowChecks then .panic else .ok (base + UInt16.ofNat id)

/-! ## The four places -/

/-- What `start_nodes` tells a node, and where its client goes. -/
structure NodeStart where
  apiHost : String
  apiPort : UInt16
  host : String
  p2pPort : UInt16
  clientUrl : String

/-- mirrors localcluster/src/client_helper.rs:542-546 -/
def apiClientHost (apiHost : String) : String :=
  if apiHost = "0.0.0.0" then "127.0.0.1" else apiHost

/-- mirrors localcluster/src/client_helper.rs:550-604 -/
def startNode (overflowChecks : Bool) (args : Args) (id : Nat) : Outcome NodeStart :=
  match uncheckedAdd overflowChecks args.apiPortBase id,
    uncheckedAdd overflowChecks args.p2pPortBase id with
  | .ok apiPort, .ok p2pPort =>
    .ok {
      apiHost := args.apiHost
      apiPort := apiPort
      host := args.p2pHost ++ ":" ++ toString p2pPort.toNat
      p2pPort := p2pPort
      clientUrl := "http://" ++ apiClientHost args.apiHost ++ ":" ++ toString apiPort.toNat }
  | .error e, _ | .ok _, .error e => .error e
  | .panic, _ | .ok _, .panic => .panic

/-- The host and port that `generate` announces.
mirrors localcluster/src/identity.rs:1201-1217 -/
def announce (args : Args) (id : Nat) : Except String (String × UInt16) :=
  let announcePort := match args.latency with
    | some latency => checkedAdd latency.1 id
    | none => checkedAdd args.p2pPortBase id
  match announcePort with
  | some port =>
    .ok (if args.latency.isSome then advertisedHost args.p2pHost else args.p2pHost, port)
  | none => .error ("announce port overflow: port base + node id " ++ toString id ++ " exceeds u16")

/-- The host of the relay and the ports it listens on and sends to.
mirrors localcluster/src/main.rs:241-257 -/
def relaySockets (args : Args) (portBase : UInt16) (id : Nat) :
    Except String (String × UInt16 × UInt16) :=
  match checkedAdd portBase id with
  | none => .error ("relay listen port overflow: base + node id " ++ toString id ++ " exceeds u16")
  | some listenPort =>
    match checkedAdd args.p2pPortBase id with
    | none =>
      .error ("relay target port overflow: base + node id " ++ toString id ++ " exceeds u16")
    | some targetPort => .ok (advertisedHost args.p2pHost, listenPort, targetPort)

/-- `UdpSocket::bind` on a port can give this one: for port 0 the system picks another. -/
def Binds (listenPort bound : UInt16) : Prop := bound ≠ 0 ∧ (listenPort ≠ 0 → bound = listenPort)

/-! ## Sums -/

/-- The sum is no port. -/
def Exceeds (base : UInt16) (id : Nat) : Prop := 65535 < base.toNat + id

instance (base : UInt16) (id : Nat) : Decidable (Exceeds base id) := Nat.decLt _ _

section
variable {base : UInt16} {args : Args} {id : Nat} {checks : Bool}

theorem toNat_id (hid : id < args.size) : (UInt16.ofNat id).toNat = id := by
  have hsize := args.size_le
  have hmax : maxNumNodes = 10 := rfl
  rw [UInt16.toNat_ofNat']
  omega

theorem checkedAdd_of_fits (hid : id < args.size) (h : ¬Exceeds base id) :
    ∃ port, checkedAdd base id = some port ∧ port.toNat = base.toNat + id := by
  unfold Exceeds at h
  refine ⟨base + UInt16.ofNat id, ?_, ?_⟩
  · unfold checkedAdd
    rw [toNat_id hid, if_pos (by omega)]
  · rw [UInt16.toNat_add, toNat_id hid]
    omega

theorem checkedAdd_of_exceeds (hid : id < args.size) (h : Exceeds base id) :
    checkedAdd base id = none := by
  unfold Exceeds at h
  unfold checkedAdd
  rw [toNat_id hid, if_neg (by omega)]

theorem uncheckedAdd_ne_error (e : String) : uncheckedAdd checks base id ≠ .error e := by
  unfold uncheckedAdd
  split
  · nofun
  · split <;> nofun

theorem startNode_ne_error (e : String) : startNode checks args id ≠ .error e := by
  unfold startNode
  split
  · nofun
  · rename_i h
    exact absurd h (uncheckedAdd_ne_error _)
  · rename_i h
    exact absurd h (uncheckedAdd_ne_error _)
  · nofun
  · nofun

theorem uncheckedAdd_of_some {port : UInt16} (h : checkedAdd base id = some port) :
    uncheckedAdd checks base id = .ok port := by
  unfold uncheckedAdd
  rw [h]

/-! ## What each place gives -/

theorem startNode_of_fits (checks : Bool) (hid : id < args.size)
    (hapi : ¬Exceeds args.apiPortBase id) (hp2p : ¬Exceeds args.p2pPortBase id) :
    ∃ o, startNode checks args id = .ok o ∧ o.apiPort.toNat = args.apiPortBase.toNat + id ∧
      o.p2pPort.toNat = args.p2pPortBase.toNat + id ∧
      o.clientUrl = "http://" ++ apiClientHost args.apiHost ++ ":" ++
        toString (args.apiPortBase.toNat + id) := by
  obtain ⟨apiPort, ha, han⟩ := checkedAdd_of_fits hid hapi
  obtain ⟨p2pPort, hp, hpn⟩ := checkedAdd_of_fits hid hp2p
  unfold startNode
  rw [uncheckedAdd_of_some ha, uncheckedAdd_of_some hp]
  exact ⟨_, rfl, han, hpn, by rw [han]⟩

/-- An API port that is none is a panic, or another port. -/
theorem startNode_of_exceeds (hid : id < args.size) (h : Exceeds args.apiPortBase id) :
    startNode true args id = .panic ∧ ∀ o, startNode false args id = .ok o →
      o.apiPort.toNat + 65536 = args.apiPortBase.toNat + id := by
  have hnone := checkedAdd_of_exceeds hid h
  constructor
  · unfold startNode uncheckedAdd
    rw [hnone]
    rfl
  · intro o ho
    unfold startNode uncheckedAdd at ho
    rw [hnone] at ho
    simp only [Bool.false_eq_true, if_false] at ho
    split at ho
    · rename_i hport _
      cases ho
      cases hport
      have hlt := args.apiPortBase.toNat_lt
      have hsize := args.size_le
      have hmax : maxNumNodes = 10 := rfl
      unfold Exceeds at h
      rw [UInt16.toNat_add, toNat_id hid]
      omega
    all_goals cases ho

/-- The base of the port peers dial. -/
def publicBase (args : Args) : UInt16 :=
  match args.latency with
  | some latency => latency.1
  | none => args.p2pPortBase

theorem announce_cases (args : Args) (id : Nat) :
    (∃ host port, checkedAdd (publicBase args) id = some port ∧
      announce args id = .ok (host, port)) ∨
    (checkedAdd (publicBase args) id = none ∧ ∃ e, announce args id = .error e) := by
  have hsum : (match args.latency with
      | some latency => checkedAdd latency.1 id
      | none => checkedAdd args.p2pPortBase id) = checkedAdd (publicBase args) id := by
    unfold publicBase
    cases args.latency <;> rfl
  unfold announce
  rw [hsum]
  cases checkedAdd (publicBase args) id with
  | some port => exact .inl ⟨_, port, rfl, rfl⟩
  | none => exact .inr ⟨rfl, _, rfl⟩

theorem announce_of_fits (hid : id < args.size) (h : ¬Exceeds (publicBase args) id) :
    ∃ a, announce args id = .ok a ∧ a.2.toNat = (publicBase args).toNat + id := by
  obtain ⟨port, hp, hn⟩ := checkedAdd_of_fits hid h
  rcases announce_cases args id with ⟨host, port', hp', ha⟩ | ⟨hnone, -⟩
  · cases hp.symm.trans hp'
    exact ⟨_, ha, hn⟩
  · cases hp.symm.trans hnone

theorem relaySockets_of_fits (hid : id < args.size) (hl : ¬Exceeds base id)
    (hp2p : ¬Exceeds args.p2pPortBase id) :
    ∃ host listenPort targetPort, relaySockets args base id = .ok (host, listenPort, targetPort) ∧
      listenPort.toNat = base.toNat + id := by
  obtain ⟨listenPort, hlp, hln⟩ := checkedAdd_of_fits hid hl
  obtain ⟨targetPort, htp, -⟩ := checkedAdd_of_fits hid hp2p
  unfold relaySockets
  rw [hlp, htp]
  exact ⟨_, _, _, rfl, hln⟩

theorem p2p_eq (args : Args) (id : Nat) :
    (initialNode args id).p2p =
      advertisedHost args.p2pHost ++ ":" ++ toString ((publicBase args).toNat + id) := by
  unfold initialNode publicBase
  cases args.latency <;> rfl

end

/-! ## Agreement -/

/-- The text ends in this port. -/
def Names (text : String) (port : Nat) : Prop := ∃ host, text = host ++ ":" ++ toString port

theorem names_inj {text : String} {p q : Nat} (hp : Names text p) (hq : Names text q) : p = q := by
  obtain ⟨host, rfl⟩ := hp
  obtain ⟨host', h⟩ := hq
  -- read from the end, the port is what comes before the first colon
  have hcolon : ∀ n, ':' ∉ (Nat.toDigits 10 n).reverse :=
    fun n hm => Text.notMem_toDigits (by decide) n (List.mem_reverse.1 hm)
  have hrev : ∀ (host : String) (n : Nat), (host ++ ":" ++ toString n).toList.reverse =
      (Nat.toDigits 10 n).reverse ++ ':' :: host.toList.reverse := by
    intro host n
    simp
  have hsplit := Core.splitOnce_append (hcolon p) host.toList.reverse
  rw [← hrev, h, hrev, Core.splitOnce_append (hcolon q)] at hsplit
  have hdigits := List.reverse_injective (congrArg Prod.fst (Option.some.inj hsplit))
  exact (Text.toDigits_injective hdigits).symm

/-- The summary names the endpoints the other places use, each of them answers when its sums
are ports and reports an error when one is not, and the summary names no other port. -/
structure Agree (overflowChecks : Bool) (args : Args) (id : Nat) : Prop where
  start : (Exceeds args.apiPortBase id ∨ Exceeds args.p2pPortBase id →
      ∃ e, startNode overflowChecks args id = .error e) ∧
    (¬Exceeds args.apiPortBase id → ¬Exceeds args.p2pPortBase id →
      ∃ o, startNode overflowChecks args id = .ok o ∧
        (initialNode args id).apiUrl = o.clientUrl ∧
        Names (initialNode args id).apiUrl o.apiPort.toNat)
  announced : (Exceeds (publicBase args) id → ∃ e, announce args id = .error e) ∧
    (¬Exceeds (publicBase args) id → ∃ a, announce args id = .ok a ∧
      Names (initialNode args id).p2p a.2.toNat)
  relay : ∀ l, args.latency = some l →
    (Exceeds l.1 id ∨ Exceeds args.p2pPortBase id → ∃ e, relaySockets args l.1 id = .error e) ∧
    (¬Exceeds l.1 id → ¬Exceeds args.p2pPortBase id → ∃ host listenPort targetPort,
      relaySockets args l.1 id = .ok (host, listenPort, targetPort) ∧
        ∀ bound, Binds listenPort bound → Names (initialNode args id).p2p bound.toNat)
  published : ∀ port,
    Names (initialNode args id).apiUrl port ∨ Names (initialNode args id).p2p port → port ≤ 65535

/-- All sums are ports, the API host is not `auto`, and no relay is to bind port 0. -/
structure Fits (args : Args) (id : Nat) : Prop where
  api : ¬Exceeds args.apiPortBase id
  p2p : ¬Exceeds args.p2pPortBase id
  host : args.apiHost ≠ "auto"
  relay : ∀ l, args.latency = some l → ¬Exceeds l.1 id ∧ ¬(l.1 = 0 ∧ id = 0)

section
variable {args : Args} {id : Nat}

theorem apiClientHost_eq_iff {host : String} :
    advertisedHost host = apiClientHost host ↔ host ≠ "auto" := by
  unfold advertisedHost apiClientHost
  by_cases hz : host = "0.0.0.0"
  · subst hz
    simp
  · by_cases ha : host = "auto"
    · subst ha
      simp
    · simp [hz, ha]

theorem url_inj {host host' : String} {n : Nat}
    (h : "http://" ++ host ++ ":" ++ toString n = "http://" ++ host' ++ ":" ++ toString n) :
    host = host' := by
  have hlist := congrArg String.toList h
  simp only [String.toList_append, List.append_assoc] at hlist
  exact String.toList_inj.1 (List.append_cancel_right (List.append_cancel_left hlist))

theorem publicBase_fits (h : Fits args id) : ¬Exceeds (publicBase args) id := by
  unfold publicBase
  cases hl : args.latency with
  | none => exact h.p2p
  | some l => exact (h.relay l hl).1

theorem agree_of_fits (overflowChecks : Bool) (hid : id < args.size) (h : Fits args id) :
    Agree overflowChecks args id := by
  have hpublic := publicBase_fits h
  have hapiUrl : Names (initialNode args id).apiUrl (args.apiPortBase.toNat + id) := ⟨_, rfl⟩
  have hp2p : Names (initialNode args id).p2p ((publicBase args).toNat + id) := ⟨_, p2p_eq args id⟩
  refine ⟨⟨fun hx => ?_, fun _ _ => ?_⟩, ⟨fun hx => absurd hx hpublic, fun _ => ?_⟩,
    fun l hl => ⟨fun hx => ?_, fun _ _ => ?_⟩, fun port hport => ?_⟩
  · rcases hx with hx | hx
    · cases h.api hx
    · cases h.p2p hx
  · obtain ⟨o, ho, hport, -, hurl⟩ := startNode_of_fits overflowChecks hid h.api h.p2p
    refine ⟨o, ho, ?_, ?_⟩
    · rw [hurl, ← apiClientHost_eq_iff.2 h.host]
      rfl
    · rw [hport]
      exact hapiUrl
  · obtain ⟨a, ha, hport⟩ := announce_of_fits hid hpublic
    refine ⟨a, ha, ?_⟩
    rw [hport]
    exact hp2p
  · rcases hx with hx | hx
    · cases (h.relay l hl).1 hx
    · cases h.p2p hx
  · obtain ⟨host, listenPort, targetPort, hr, hport⟩ :=
      relaySockets_of_fits hid (h.relay l hl).1 h.p2p
    refine ⟨host, listenPort, targetPort, hr, fun bound hb => ?_⟩
    have hbase : publicBase args = l.1 := by
      unfold publicBase
      rw [hl]
    have hne : listenPort ≠ 0 := by
      rintro rfl
      have hzero : l.1.toNat = 0 ∧ id = 0 := Nat.add_eq_zero_iff.1 hport.symm
      exact (h.relay l hl).2 ⟨UInt16.toNat_inj.1 hzero.1, hzero.2⟩
    rw [hb.2 hne, hport, ← hbase]
    exact hp2p
  · rcases hport with hport | hport
    · rw [names_inj hport hapiUrl]
      exact Nat.le_of_not_lt h.api
    · rw [names_inj hport hp2p]
      exact Nat.le_of_not_lt hpublic

theorem fits_of_agree {overflowChecks : Bool} (hid : id < args.size)
    (h : Agree overflowChecks args id) : Fits args id := by
  have hapi : ¬Exceeds args.apiPortBase id := by
    intro hx
    obtain ⟨e, he⟩ := h.start.1 (.inl hx)
    exact startNode_ne_error e he
  have hp2p : ¬Exceeds args.p2pPortBase id := by
    intro hx
    obtain ⟨e, he⟩ := h.start.1 (.inr hx)
    exact startNode_ne_error e he
  have hpublic : Names (initialNode args id).p2p ((publicBase args).toNat + id) :=
    ⟨_, p2p_eq args id⟩
  refine ⟨hapi, hp2p, ?_, fun l hl => ?_⟩
  · obtain ⟨o, ho, hurl, -⟩ := h.start.2 hapi hp2p
    obtain ⟨o', ho', -, -, hclient⟩ := startNode_of_fits overflowChecks hid hapi hp2p
    cases ho.symm.trans ho'
    rw [hclient] at hurl
    exact apiClientHost_eq_iff.1 (url_inj hurl)
  · have hbase : publicBase args = l.1 := by
      unfold publicBase
      rw [hl]
    rw [hbase] at hpublic
    have hfits : ¬Exceeds l.1 id := Nat.not_lt.2 (h.published _ (.inr hpublic))
    refine ⟨hfits, ?_⟩
    rintro ⟨hzero, rfl⟩
    -- a relay on port 0 is bound to another port
    obtain ⟨host, listenPort, targetPort, hr, hnames⟩ := (h.relay l hl).2 hfits hp2p
    obtain ⟨_, _, _, hr', hport⟩ := relaySockets_of_fits hid hfits hp2p
    cases hr.symm.trans hr'
    rw [hzero] at hport hpublic
    have hlisten : listenPort = 0 := UInt16.toNat_inj.1 hport
    have hone := hnames 1 ⟨by decide, fun hne => absurd hlisten hne⟩
    exact absurd (names_inj hone hpublic) (by decide)

end

/-- **The endpoints of a node agree in all places, and every sum that is no port is reported,
exactly if there is no such sum, the API host is not `auto`, and no relay is to bind
port 0.** -/
theorem endpoints_agree_iff (overflowChecks : Bool) (args : Args) (id : Fin args.size) :
    Agree overflowChecks args id ↔ Fits args id :=
  ⟨fits_of_agree id.isLt, agree_of_fits overflowChecks id.isLt⟩

/-- One node, with the API host that binds all interfaces. -/
def autoArgs : Args where
  size := 1
  size_pos := by decide
  size_le := by decide
  channelManagement := .none
  apiHost := "auto"
  apiPortBase := 3000
  p2pHost := "localhost"
  p2pPortBase := 9000
  apiToken := none
  latency := none

theorem auto_host_disagrees :
    ((∃ o, startNode true autoArgs 0 = .ok o ∧ o.clientUrl = "http://auto:3000") ∧
      (initialNode autoArgs 0).apiUrl = "http://127.0.0.1:3000") ∧
    ¬ ∀ (overflowChecks : Bool) (args : Args), ∀ id < args.size, Agree overflowChecks args id := by
  refine ⟨⟨⟨_, rfl, by decide⟩, by decide⟩, fun h => ?_⟩
  exact (fits_of_agree (by decide) (h true autoArgs 0 (by decide))).host rfl

end Hoprd.Summary
