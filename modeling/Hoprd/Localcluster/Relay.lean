import Hoprd.Localcluster.Flow

/-!
# The relay of one node (`localcluster/src/relay.rs`, `run_relay`, `new_upstream`)

The relay keeps one session per peer address. A session has a forward flow, a
reader on its own upstream socket and a return flow; the reader owns the sender
end of the return flow. A datagram from a peer is one iteration of the loop:
make room and create a session if there is none, then queue the datagram on the
forward flow unless the link is blocked. Around it, the node sends to the
upstream sockets, readers and workers advance, the clocks run and the fault
files change; every order of these steps is a run.

* `session_table`: the table stays within its bound, a session leaves it only
  when its forward worker is gone or as the least recently seen of a full table,
  and blocked links queue nothing.
* `legs_alive`: as long as no receive on an upstream socket fails and no return
  worker panics, every session in the table has its return leg working.
* `dead_reader_stays`: a run in which a receive fails and the session stays,
  without a reader.

An error of the listen socket ends the loop, and with it the run. A session that
leaves the table takes its workers with it.
-/
namespace Hoprd.Localcluster.Relay

open Core
open Hoprd.Localcluster.Flow (WorkerLabel)

/-- mirrors localcluster/src/relay.rs:65 -/
def MAX_SESSIONS : Nat := 256

/-- `usize::MAX` -/
def UNKNOWN_PEER : Nat := 2 ^ 64 - 1

/-- mirrors localcluster/src/relay.rs:97-103 -/
structure Stall where
  period : Duration
  stall : Duration
  delay : Duration
  deriving DecidableEq, Repr

/-- The part of `RelayConfig` that stays as it is; the sockets' addresses do not
matter here. -/
structure RelayConfig where
  nodeId : Nat
  p2pPortBase : UInt16
  latency : LatencyConfig

/-- mirrors localcluster/src/relay.rs:447-454 -/
def peerIndex (cfg : RelayConfig) (addr : SocketAddr) : Nat :=
  if cfg.p2pPortBase ≤ addr.port then (addr.port - cfg.p2pPortBase).toNat else UNKNOWN_PEER

/-- mirrors localcluster/src/relay.rs:132-136 -/
def isBlocked (blocked : List (Nat × Nat)) (src dst : Nat) : Bool := blocked.contains (src, dst)

def asMillis (d : Duration) : Nat := d / 1000000

/-- mirrors localcluster/src/relay.rs:109-127 -/
def stallDelay (stalled : Table (Nat × Nat) Stall) (wallMs src dst : Nat) : Duration :=
  match stalled.lookup (src, dst) with
  | none => 0
  | some stall =>
    let periodMs := max (asMillis stall.period) 1
    let phaseMs := wallMs % periodMs
    if phaseMs < asMillis stall.stall then stall.delay else 0

/-- What became of a datagram the reader took from the upstream socket. -/
inductive ReadOutcome where
  | blocked | queued | full | closed
  deriving DecidableEq, Repr

/-- mirrors localcluster/src/relay.rs:67-76, with the workers in `tasks` spelled
out -/
structure Session where
  forward : Flow
  lastSeen : Instant
  /-- the reader is still in its loop -/
  reader : Bool
  /-- sent by the node to the upstream socket, not yet read -/
  inbox : List Bytes
  ret : Flow
  /-- ghost: everything the node sent -/
  nodeSent : List Bytes
  /-- ghost: what the reader did with each datagram -/
  reads : List (Bytes × ReadOutcome)

structure St where
  now : Instant
  /-- the system clock, in milliseconds since the epoch -/
  wallMs : Nat
  blocked : List (Nat × Nat)
  stalled : Table (Nat × Nat) Stall
  sessions : Table SocketAddr Session

/-- The arrival recorded for a datagram entering a link: now, plus the stall's hold. -/
def St.arrivalOn (s : St) (src dst : Nat) : Instant :=
  s.now + stallDelay s.stalled s.wallMs src dst

/-- mirrors localcluster/src/relay.rs:240-302 -/
def newUpstream (cfg : RelayConfig) (now : Instant) (peer : SocketAddr) : Session where
  forward := .new (cfg.latency.resolve (peerIndex cfg peer) cfg.nodeId)
  lastSeen := now
  reader := true
  inbox := []
  ret := .new (cfg.latency.resolve cfg.nodeId (peerIndex cfg peer))
  nodeSent := []
  reads := []

/-- `lru` is a session with the smallest `last_seen`, one `min_by_key` can pick. -/
def isLru (sessions : Table SocketAddr Session) (lru : SocketAddr) : Bool :=
  match sessions.lookup lru with
  | some s => sessions.entries.all fun e => s.lastSeen ≤ e.2.lastSeen
  | none => false

/-- mirrors localcluster/src/relay.rs:191-202 -/
def makeRoom (sessions : Table SocketAddr Session) (lru : SocketAddr) :
    Option (Table SocketAddr Session) :=
  if MAX_SESSIONS ≤ sessions.size then
    if isLru sessions lru then some (sessions.erase lru) else none
  else some sessions

/-- The table after a session was looked for and, if need be, created; `none` in
the second place when the creation failed.
mirrors localcluster/src/relay.rs:188-211 -/
def ensureSession (cfg : RelayConfig) (now : Instant) (sessions : Table SocketAddr Session)
    (peer : SocketAddr) (created : Bool) (lru : SocketAddr) :
    Option (Table SocketAddr Session × Option Session) :=
  match sessions.lookup peer with
  | some session => some (sessions, some session)
  | none => do
    let sessions ← makeRoom sessions lru
    if created then
      let session := newUpstream cfg now peer
      return (sessions.insert peer session, some session)
    else return (sessions, none)

/-- mirrors localcluster/src/relay.rs:213-234 -/
def forward (cfg : RelayConfig) (s : St) (sessions : Table SocketAddr Session) (peer : SocketAddr)
    (session : Session) (bytes : Bytes) : Table SocketAddr Session :=
  if isBlocked s.blocked (peerIndex cfg peer) cfg.nodeId then sessions
  else
    match session.forward.trySend (s.arrivalOn (peerIndex cfg peer) cfg.nodeId) bytes with
    | (flow, .ok) | (flow, .full) =>
      sessions.insert peer { session with lastSeen := s.now, forward := flow }
    | (_, .closed) => sessions.erase peer

/-- The reader returns, and drops its end of the return flow. -/
def Session.endReader (session : Session) : Session :=
  { session with reader := false, ret := session.ret.hangup }

/-- The reader receives a datagram.
mirrors localcluster/src/relay.rs:274-288 -/
def Session.read (cfg : RelayConfig) (s : St) (peer : SocketAddr) (session : Session) :
    Option Session :=
  match session.reader, session.inbox with
  | true, bytes :: inbox =>
    let session := { session with inbox := inbox }
    if isBlocked s.blocked cfg.nodeId (peerIndex cfg peer) then
      some { session with reads := session.reads ++ [(bytes, .blocked)] }
    else
      match session.ret.trySend (s.arrivalOn cfg.nodeId (peerIndex cfg peer)) bytes with
      | (flow, .ok) =>
        some { session with ret := flow, reads := session.reads ++ [(bytes, .queued)] }
      | (flow, .full) =>
        some { session with ret := flow, reads := session.reads ++ [(bytes, .full)] }
      | (flow, .closed) =>
        let session :=
          { session with ret := flow, reads := session.reads ++ [(bytes, ReadOutcome.closed)] }
        some session.endReader
  | _, _ => none

inductive Label where
  | tick (t : Instant)
  | wall (ms : Nat)
  | setBlocked (links : List (Nat × Nat))
  | setStalled (links : Table (Nat × Nat) Stall)
  /-- one iteration of the loop; whether `new_upstream` succeeds, and the victim
  that the walk of the table finds -/
  | datagram (peer : SocketAddr) (bytes : Bytes) (created : Bool) (lru : SocketAddr)
  | nodeSend (peer : SocketAddr) (bytes : Bytes)
  | read (peer : SocketAddr)
  /-- the receive on the upstream socket returns an error -/
  | readError (peer : SocketAddr)
  | forwardWork (peer : SocketAddr) (l : WorkerLabel)
  | retWork (peer : SocketAddr) (l : WorkerLabel)

/-- The peer whose session the step is about, for steps outside the loop. -/
def Label.session? : Label → Option SocketAddr
  | .nodeSend peer _ | .read peer | .readError peer | .forwardWork peer _ | .retWork peer _ =>
    some peer
  | _ => none

/-- A step of one session. -/
def sessionStep (maxInstant : Instant) (cfg : RelayConfig) (s : St) (session : Session) :
    Label → Option Session
  | .nodeSend _ bytes =>
    some { session with
      inbox := session.inbox ++ [bytes], nodeSent := session.nodeSent ++ [bytes] }
  | .read peer => session.read cfg s peer
  | .readError _ => if session.reader then some session.endReader else none
  | .forwardWork _ l =>
    (session.forward.work maxInstant s.now l).map fun flow => { session with forward := flow }
  | .retWork _ l =>
    (session.ret.work maxInstant s.now l).map fun flow => { session with ret := flow }
  | _ => none

def update (s : St) (peer : SocketAddr) (f : Session → Option Session) : Option St := do
  let session ← s.sessions.lookup peer
  let session ← f session
  return { s with sessions := s.sessions.insert peer session }

def step (maxInstant : Instant) (cfg : RelayConfig) (s : St) (l : Label) : Option St :=
  match l with
  | .tick t => if s.now ≤ t then some { s with now := t } else none
  | .wall ms => some { s with wallMs := ms }
  | .setBlocked links => some { s with blocked := links }
  | .setStalled links => some { s with stalled := links }
  | .datagram peer bytes created lru =>
    match ensureSession cfg s.now s.sessions peer created lru with
    | some (sessions, some session) =>
      some { s with sessions := forward cfg s sessions peer session bytes }
    | some (sessions, none) => some { s with sessions := sessions }
    | none => none
  | .nodeSend peer _ | .read peer | .readError peer | .forwardWork peer _ | .retWork peer _ =>
    update s peer (sessionStep maxInstant cfg s · l)

def system (maxInstant : Instant) (cfg : RelayConfig) : LTS St Label :=
  .ofFn (fun s => s.sessions = ∅) (step maxInstant cfg)

/-! ## The iteration -/

section
variable {maxInstant : Instant} {cfg : RelayConfig} {sessions sessions' : Table SocketAddr Session}
  {peer lru : SocketAddr} {created : Bool}

/-- A session no other in the table is older than. -/
def Oldest (sessions : Table SocketAddr Session) (p : SocketAddr) : Prop :=
  ∃ session, sessions.lookup p = some session ∧
    ∀ q t, sessions.lookup q = some t → session.lastSeen ≤ t.lastSeen

theorem isLru_iff : isLru sessions lru = true ↔ Oldest sessions lru := by
  unfold isLru Oldest
  cases hl : sessions.lookup lru with
  | none => exact ⟨nofun, fun ⟨_, h, _⟩ => nomatch h⟩
  | some s =>
    simp only [List.all_eq_true, decide_eq_true_eq, Option.some.injEq]
    constructor
    · intro h
      exact ⟨s, rfl, fun q t ht => h ⟨q, t⟩ (AList.mem_lookup_iff.1 ht)⟩
    · intro h e he
      obtain ⟨session, rfl, hold⟩ := h
      exact hold e.1 e.2 (AList.mem_lookup_iff.2 he)

theorem makeRoom_cases (h : makeRoom sessions lru = some sessions') :
    (sessions.size < MAX_SESSIONS ∧ sessions' = sessions) ∨
    (MAX_SESSIONS ≤ sessions.size ∧ Oldest sessions lru ∧ sessions' = sessions.erase lru) := by
  unfold makeRoom at h
  split at h
  · rename_i hfull
    split at h
    · rename_i hlru
      exact .inr ⟨hfull, isLru_iff.1 hlru, (Option.some.inj h).symm⟩
    · cases h
  · rename_i hroom
    exact .inl ⟨Nat.lt_of_not_le hroom, (Option.some.inj h).symm⟩

/-- Making room only takes sessions out. -/
theorem makeRoom_lookup {p : SocketAddr} {t : Session}
    (h : makeRoom sessions lru = some sessions') (ht : sessions'.lookup p = some t) :
    sessions.lookup p = some t := by
  rcases makeRoom_cases h with ⟨-, rfl⟩ | ⟨-, -, rfl⟩
  · exact ht
  · rw [Table.lookup_erase_ite] at ht
    split at ht
    · cases ht
    · exact ht

theorem ensureSession_cases {now : Instant} {o : Option Session}
    (h : ensureSession cfg now sessions peer created lru = some (sessions', o)) :
    (∃ session, sessions.lookup peer = some session ∧ sessions' = sessions ∧ o = some session) ∨
    (sessions.lookup peer = none ∧ ∃ room, makeRoom sessions lru = some room ∧
      ((sessions' = room.insert peer (newUpstream cfg now peer) ∧
          o = some (newUpstream cfg now peer)) ∨
        (sessions' = room ∧ o = none))) := by
  unfold ensureSession at h
  split at h
  · rename_i session hs
    cases h
    exact .inl ⟨session, hs, rfl, rfl⟩
  · rename_i hn
    obtain ⟨room, hr, h⟩ := Option.bind_eq_some_iff.1 h
    refine .inr ⟨hn, room, hr, ?_⟩
    split at h
    · cases h; exact .inl ⟨rfl, rfl⟩
    · cases h; exact .inr ⟨rfl, rfl⟩

/-- The session after a datagram was offered to its forward flow. -/
def Session.offer (cfg : RelayConfig) (s : St) (peer : SocketAddr) (t : Session) (bytes : Bytes) :
    Session :=
  { t with
    lastSeen := s.now
    forward := (t.forward.trySend (s.arrivalOn (peerIndex cfg peer) cfg.nodeId) bytes).1 }

theorem forward_cases (cfg : RelayConfig) (s : St) (sessions : Table SocketAddr Session)
    (peer : SocketAddr) (session : Session) (bytes : Bytes) :
    (isBlocked s.blocked (peerIndex cfg peer) cfg.nodeId = true ∧
      forward cfg s sessions peer session bytes = sessions) ∨
    (isBlocked s.blocked (peerIndex cfg peer) cfg.nodeId = false ∧ session.forward.pc ≠ .exited ∧
      forward cfg s sessions peer session bytes =
        sessions.insert peer (session.offer cfg s peer bytes)) ∨
    (isBlocked s.blocked (peerIndex cfg peer) cfg.nodeId = false ∧ session.forward.pc = .exited ∧
      forward cfg s sessions peer session bytes = sessions.erase peer) := by
  unfold forward
  split
  · rename_i hb; exact .inl ⟨hb, rfl⟩
  · rename_i hb
    have hb := Bool.eq_false_iff.2 hb
    unfold Session.offer
    obtain ⟨hp, ht⟩ | ⟨hp, -, ht⟩ | ⟨hp, -, ht⟩ := session.forward.trySend_cases
      (s.arrivalOn (peerIndex cfg peer) cfg.nodeId) bytes <;> rw [ht]
    · exact .inr (.inr ⟨hb, hp, rfl⟩)
    · exact .inr (.inl ⟨hb, hp, rfl⟩)
    · exact .inr (.inl ⟨hb, hp, rfl⟩)

/-- An iteration looks for a session, and forwards if it has one. -/
theorem datagram_cases {s s' : St} {bytes : Bytes}
    (h : step maxInstant cfg s (.datagram peer bytes created lru) = some s') :
    ∃ sessions o, ensureSession cfg s.now s.sessions peer created lru = some (sessions, o) ∧
      ((o = none ∧ s' = { s with sessions := sessions }) ∨
        ∃ session, o = some session ∧
          s' = { s with sessions := forward cfg s sessions peer session bytes }) := by
  simp only [step] at h
  split at h
  · rename_i sessions session ha
    exact ⟨sessions, some session, ha, .inr ⟨session, rfl, (Option.some.inj h).symm⟩⟩
  · rename_i sessions ha
    exact ⟨sessions, none, ha, .inl ⟨rfl, (Option.some.inj h).symm⟩⟩
  · cases h

theorem update_cases {s s' : St} {f : Session → Option Session} (h : update s peer f = some s') :
    ∃ session session', s.sessions.lookup peer = some session ∧ f session = some session' ∧
      s' = { s with sessions := s.sessions.insert peer session' } := by
  obtain ⟨session, hs, h⟩ := Option.bind_eq_some_iff.1 h
  obtain ⟨session', hf, h⟩ := Option.bind_eq_some_iff.1 h
  exact ⟨session, session', hs, hf, (Option.some.inj h).symm⟩

/-- The steps outside the loop change one session at most. -/
theorem step_cases {s s' : St} {l : Label} (h : step maxInstant cfg s l = some s') :
    (∃ t, l = .tick t ∧ s.now ≤ t ∧ s' = { s with now := t }) ∨
    (s'.sessions = s.sessions ∧ s'.now = s.now) ∨
    (∃ peer bytes created lru, l = .datagram peer bytes created lru) ∨
    (∃ peer session session', l.session? = some peer ∧ s.sessions.lookup peer = some session ∧
      sessionStep maxInstant cfg s session l = some session' ∧
      s' = { s with sessions := s.sessions.insert peer session' }) := by
  cases l with
  | tick t =>
    simp only [step] at h
    split at h
    · rename_i ht; exact .inl ⟨t, rfl, ht, (Option.some.inj h).symm⟩
    · cases h
  | wall ms => cases h; exact .inr (.inl ⟨rfl, rfl⟩)
  | setBlocked links => cases h; exact .inr (.inl ⟨rfl, rfl⟩)
  | setStalled links => cases h; exact .inr (.inl ⟨rfl, rfl⟩)
  | datagram peer bytes created lru => exact .inr (.inr (.inl ⟨peer, bytes, created, lru, rfl⟩))
  | nodeSend peer _ | read peer | readError peer | forwardWork peer _ | retWork peer _ =>
    obtain ⟨session, session', hs, hf, he⟩ := update_cases h
    exact .inr (.inr (.inr ⟨peer, session, session', rfl, hs, hf, he⟩))

theorem forward_lookup_of_ne (s : St) (session : Session) (bytes : Bytes) {q : SocketAddr}
    (h : q ≠ peer) :
    (forward cfg s sessions peer session bytes).lookup q = sessions.lookup q := by
  obtain ⟨-, hf⟩ | ⟨-, -, hf⟩ | ⟨-, -, hf⟩ :=
    forward_cases cfg s sessions peer session bytes <;> rw [hf]
  · exact AList.lookup_insert_ne h
  · exact AList.lookup_erase_ne h

theorem forward_size_le (s : St) (session : Session) (bytes : Bytes) (h : peer ∈ sessions) :
    (forward cfg s sessions peer session bytes).size ≤ sessions.size := by
  obtain ⟨-, hf⟩ | ⟨-, -, hf⟩ | ⟨-, -, hf⟩ :=
    forward_cases cfg s sessions peer session bytes <;> rw [hf]
  · exact Nat.le_of_eq (Table.size_insert_of_mem h _)
  · exact Table.size_erase_le _ _

/-- An iteration for a peer without a session: the others are those of the table
after making room. -/
theorem datagram_absent {s s' : St} {bytes : Bytes} (hn : s.sessions.lookup peer = none)
    (h : step maxInstant cfg s (.datagram peer bytes created lru) = some s') :
    ∃ room, makeRoom s.sessions lru = some room ∧
      (∀ q, q ≠ peer → s'.sessions.lookup q = room.lookup q) ∧
      s'.sessions.size ≤ room.size + 1 := by
  obtain ⟨sessions, o, ha, hs'⟩ := datagram_cases h
  rcases ensureSession_cases ha with ⟨session, hs, -, -⟩ | ⟨-, room, hr, ⟨rfl, rfl⟩ | ⟨rfl, rfl⟩⟩
  · rw [hn] at hs; cases hs
  · refine ⟨room, hr, ?_⟩
    obtain ⟨hc, -⟩ | ⟨session, he, rfl⟩ := hs'
    · cases hc
    obtain rfl := Option.some.inj he
    refine ⟨fun q hq => ?_, ?_⟩
    · rw [forward_lookup_of_ne _ _ _ hq]; exact AList.lookup_insert_ne hq
    · exact (forward_size_le s _ bytes (AList.mem_insert _ |>.2 (.inl rfl))).trans
        (Table.size_insert_le _ _ _)
  · obtain ⟨-, rfl⟩ | ⟨session, he, -⟩ := hs'
    · exact ⟨sessions, hr, fun q _ => rfl, Nat.le_succ _⟩
    · cases he

/-- An iteration for a peer with a session: the others stay, and so does the
peer's unless its forward worker is gone. -/
theorem datagram_present {s s' : St} {bytes : Bytes} {session : Session}
    (hs : s.sessions.lookup peer = some session)
    (h : step maxInstant cfg s (.datagram peer bytes created lru) = some s') :
    s' = { s with sessions := forward cfg s s.sessions peer session bytes } := by
  obtain ⟨sessions, o, ha, hs'⟩ := datagram_cases h
  rcases ensureSession_cases ha with ⟨t, ht, rfl, rfl⟩ | ⟨hn, -⟩
  · rw [hs] at ht
    obtain rfl := Option.some.inj ht
    obtain ⟨hc, -⟩ | ⟨t, he, rfl⟩ := hs'
    · cases hc
    · obtain rfl := Option.some.inj he; rfl
  · rw [hs] at hn; cases hn

/-! ## The session table -/

/-- `p` had a session before the step and has none after it. -/
def Removed (s s' : St) (p : SocketAddr) : Prop := p ∈ s.sessions ∧ p ∉ s'.sessions

theorem size_step {s s' : St} {l : Label} (hi : s.sessions.size ≤ MAX_SESSIONS)
    (h : step maxInstant cfg s l = some s') : s'.sessions.size ≤ MAX_SESSIONS := by
  rcases step_cases h with ⟨t, -, -, rfl⟩ | ⟨he, -⟩ | ⟨peer, bytes, created, lru, rfl⟩ |
    ⟨peer, session, session', -, hs, -, rfl⟩
  · exact hi
  · rw [he]; exact hi
  · cases hs : s.sessions.lookup peer with
    | some session =>
      rw [datagram_present hs h]
      exact (forward_size_le s session bytes (Table.mem_of_lookup hs)).trans hi
    | none =>
      obtain ⟨room, hr, -, hsize⟩ := datagram_absent hs h
      rcases makeRoom_cases hr with ⟨hlt, rfl⟩ | ⟨-, ⟨t, ht, -⟩, rfl⟩
      · omega
      · have := Table.size_erase_of_mem (Table.mem_of_lookup ht)
        omega
  · show Table.size (s.sessions.insert peer session') ≤ MAX_SESSIONS
    rw [Table.size_insert_of_mem (Table.mem_of_lookup hs)]; exact hi

theorem size_inductive (maxInstant : Instant) (cfg : RelayConfig) :
    (system maxInstant cfg).Inductive fun s => s.sessions.size ≤ MAX_SESSIONS where
  init s h0 := by rw [show s.sessions = ∅ from h0]; exact Nat.zero_le _
  step s l s' hi hs := size_step hi hs

/-- When the table is full, a peer without a session takes the place of an oldest
one, and of that one only. -/
theorem evicts_oldest {s s' : St} {bytes : Bytes} (hfull : MAX_SESSIONS ≤ s.sessions.size)
    (hn : peer ∉ s.sessions)
    (h : step maxInstant cfg s (.datagram peer bytes created lru) = some s') :
    Oldest s.sessions lru ∧ ∀ p, Removed s s' p ↔ p = lru := by
  have hn' : s.sessions.lookup peer = none := AList.lookup_eq_none.2 hn
  obtain ⟨room, hr, hlook, -⟩ := datagram_absent hn' h
  rcases makeRoom_cases hr with ⟨hlt, -⟩ | ⟨-, hold, rfl⟩
  · omega
  have hlru : lru ∈ s.sessions := by
    obtain ⟨t, ht, -⟩ := hold
    exact Table.mem_of_lookup ht
  have hmem : ∀ p ∈ s.sessions, p ∈ s'.sessions ↔ p ≠ lru := by
    intro p hp
    have hne : p ≠ peer := fun e => hn (e ▸ hp)
    rw [← AList.lookup_isSome, hlook p hne, AList.lookup_isSome, AList.mem_erase]
    exact ⟨fun h => h.1, fun h => ⟨h, hp⟩⟩
  refine ⟨hold, fun p => ?_⟩
  constructor
  · intro hr
    obtain ⟨hp, hp'⟩ := hr
    by_contra hne
    exact hp' ((hmem p hp).2 hne)
  · intro he
    subst he
    exact ⟨hlru, fun hm => (hmem p hlru).1 hm rfl⟩

/-- Why a session can leave the table in an iteration for `peer`. -/
def MayLeave (s : St) (peer p : SocketAddr) : Prop :=
  (p = peer ∧ ∃ session, s.sessions.lookup p = some session ∧ session.forward.pc = .exited) ∨
  (s.sessions.size = MAX_SESSIONS ∧ peer ∉ s.sessions ∧ Oldest s.sessions p)

theorem removed_step {s s' : St} {l : Label} {p : SocketAddr}
    (hsize : s.sessions.size ≤ MAX_SESSIONS) (h : step maxInstant cfg s l = some s')
    (hr : Removed s s' p) :
    ∃ peer bytes created lru, l = .datagram peer bytes created lru ∧ MayLeave s peer p := by
  obtain ⟨hp, hp'⟩ := hr
  rcases step_cases h with ⟨t, -, -, rfl⟩ | ⟨he, -⟩ | ⟨peer, bytes, created, lru, rfl⟩ |
    ⟨peer, session, session', -, -, -, rfl⟩
  · exact absurd hp hp'
  · rw [he] at hp'; exact absurd hp hp'
  · refine ⟨peer, bytes, created, lru, rfl, ?_⟩
    cases hs : s.sessions.lookup peer with
    | some session =>
      rw [datagram_present hs h] at hp'
      obtain ⟨-, hf⟩ | ⟨-, -, hf⟩ | ⟨-, hx, hf⟩ :=
        forward_cases cfg s s.sessions peer session bytes
      · exact absurd hp (hf ▸ hp')
      · exact absurd (AList.mem_insert _ |>.2 (.inr hp)) (hf ▸ hp')
      · have hpeer : p = peer := by
          by_contra hne
          have hp' : p ∉ s.sessions.erase peer := hf ▸ hp'
          exact hp' (AList.mem_erase.2 ⟨hne, hp⟩)
        exact .inl ⟨hpeer, session, hpeer ▸ hs, hx⟩
    | none =>
      have hn : peer ∉ s.sessions := AList.lookup_eq_none.1 hs
      by_cases hfull : MAX_SESSIONS ≤ s.sessions.size
      · obtain ⟨hold, hiff⟩ := evicts_oldest hfull hn h
        obtain rfl := (hiff p).1 ⟨hp, hp'⟩
        exact .inr ⟨Nat.le_antisymm hsize hfull, hn, hold⟩
      · obtain ⟨room, hr, hlook, -⟩ := datagram_absent hs h
        rcases makeRoom_cases hr with ⟨-, rfl⟩ | ⟨hle, -⟩
        · have hne : p ≠ peer := fun e => hn (e ▸ hp)
          rw [← AList.lookup_isSome, hlook p hne, AList.lookup_isSome] at hp'
          exact absurd hp hp'
        · exact absurd hle hfull
  · exact absurd (AList.mem_insert _ |>.2 (.inr hp)) hp'

/-- A datagram on a blocked link only ever adds an empty session. -/
theorem blocked_datagram {s s' : St} {bytes : Bytes}
    (hb : isBlocked s.blocked (peerIndex cfg peer) cfg.nodeId = true)
    (h : step maxInstant cfg s (.datagram peer bytes created lru) = some s') {p : SocketAddr}
    {t : Session} (ht : s'.sessions.lookup p = some t) :
    s.sessions.lookup p = some t ∨
      (p = peer ∧ peer ∉ s.sessions ∧ t = newUpstream cfg s.now peer) := by
  have hforward : ∀ sessions session, forward cfg s sessions peer session bytes = sessions := by
    intro sessions session
    rcases forward_cases cfg s sessions peer session bytes with ⟨-, hf⟩ | ⟨hn, -⟩ | ⟨hn, -⟩
    · exact hf
    · rw [hb] at hn; cases hn
    · rw [hb] at hn; cases hn
  cases hs : s.sessions.lookup peer with
  | some session =>
    rw [datagram_present hs h] at ht
    rw [show (forward cfg s s.sessions peer session bytes) = s.sessions from hforward _ _] at ht
    exact .inl ht
  | none =>
    have hn : peer ∉ s.sessions := AList.lookup_eq_none.1 hs
    obtain ⟨sessions, o, ha, hs'⟩ := datagram_cases h
    rcases ensureSession_cases ha with ⟨session, hc, -, -⟩ | ⟨-, room, hr, ⟨rfl, rfl⟩ | ⟨rfl, rfl⟩⟩
    · rw [hs] at hc; cases hc
    · obtain ⟨hc, -⟩ | ⟨session, he, rfl⟩ := hs'
      · cases hc
      · have ht : (forward cfg s _ peer session bytes).lookup p = some t := ht
        rw [hforward, Table.lookup_insert_ite] at ht
        split at ht
        · rename_i hp; exact .inr ⟨hp, hn, (Option.some.inj ht).symm⟩
        · exact .inl (makeRoom_lookup hr ht)
    · obtain ⟨-, rfl⟩ | ⟨session, he, -⟩ := hs'
      · exact .inl (makeRoom_lookup hr ht)
      · cases he

/-- A datagram of the node on a blocked link is read and queued nowhere. -/
theorem blocked_read {s s' : St} (hb : isBlocked s.blocked cfg.nodeId (peerIndex cfg peer) = true)
    (h : step maxInstant cfg s (.read peer) = some s') {p : SocketAddr} {t' : Session}
    (ht : s'.sessions.lookup p = some t') :
    ∃ t, s.sessions.lookup p = some t ∧ t'.forward = t.forward ∧ t'.ret = t.ret ∧
      t'.lastSeen = t.lastSeen := by
  obtain ⟨session, session', hs, hf, rfl⟩ := update_cases h
  have ht : (s.sessions.insert peer session').lookup p = some t' := ht
  rw [Table.lookup_insert_ite] at ht
  split at ht
  · rename_i hp
    obtain rfl := Option.some.inj ht
    refine ⟨session, hp ▸ hs, ?_⟩
    have hf : session.read cfg s peer = some session' := hf
    unfold Session.read at hf
    split at hf
    · rw [if_pos hb] at hf
      obtain rfl := Option.some.inj hf
      exact ⟨rfl, rfl, rfl⟩
    · cases hf
  · exact ⟨t', ht, rfl, rfl, rfl⟩

/-- The table of a relay and what the next step can do to it. -/
structure SessionTable (maxInstant : Instant) (cfg : RelayConfig) (s : St) : Prop where
  size : s.sessions.size ≤ MAX_SESSIONS
  onePerPeer : s.sessions.keys.Nodup
  leaves : ∀ l s' p, step maxInstant cfg s l = some s' → Removed s s' p →
    ∃ peer bytes created lru, l = .datagram peer bytes created lru ∧ MayLeave s peer p
  evicts : ∀ peer bytes created lru s', s.sessions.size = MAX_SESSIONS → peer ∉ s.sessions →
    step maxInstant cfg s (.datagram peer bytes created lru) = some s' →
    Oldest s.sessions lru ∧ ∀ p, Removed s s' p ↔ p = lru
  blocked : ∀ peer bytes created lru s' p t,
    isBlocked s.blocked (peerIndex cfg peer) cfg.nodeId = true →
    step maxInstant cfg s (.datagram peer bytes created lru) = some s' →
    s'.sessions.lookup p = some t → s.sessions.lookup p = some t ∨
      (p = peer ∧ peer ∉ s.sessions ∧ t = newUpstream cfg s.now peer)
  blockedReturn : ∀ peer s' p t', isBlocked s.blocked cfg.nodeId (peerIndex cfg peer) = true →
    step maxInstant cfg s (.read peer) = some s' → s'.sessions.lookup p = some t' →
    ∃ t, s.sessions.lookup p = some t ∧ t'.forward = t.forward ∧ t'.ret = t.ret ∧
      t'.lastSeen = t.lastSeen

/-- **Session table.** In every reachable state of a relay. -/
theorem session_table (maxInstant : Instant) (cfg : RelayConfig) (s : St)
    (h : (system maxInstant cfg).Reachable s) : SessionTable maxInstant cfg s where
  size := (size_inductive maxInstant cfg).reachable s h
  onePerPeer := AList.keys_nodup s.sessions
  leaves _ _ _ := removed_step ((size_inductive maxInstant cfg).reachable s h)
  evicts _ _ _ _ _ hfull := evicts_oldest (Nat.le_of_eq hfull.symm)
  blocked _ _ _ _ _ _ _ hb hs ht := blocked_datagram hb hs ht
  blockedReturn _ _ _ _ hb hs ht := blocked_read hb hs ht

/-- The relay of node 0, without delays, and the peer that is node 1. -/
def plainRelay : RelayConfig := ⟨0, 9000, ⟨none, ∅, ∅⟩⟩

def peer1 : SocketAddr := ⟨.v4 127 0 0 1, 9001⟩

/-- Two peers on the same host, the second with its link cut. -/
theorem two_peers_session_table : ∃ s : St, s.sessions.keys.length = 2 ∧
    SessionTable 1000 plainRelay s := by
  obtain ⟨s, hr, hs⟩ : ∃ s : St, (system 1000 plainRelay).Reachable s ∧
      s.sessions.keys.length = 2 :=
    ⟨_, LTS.reachable_of_exec ⟨0, 0, [], ∅, ∅⟩
      [.datagram peer1 [1] true peer1, .setBlocked [(2, 0)],
        .datagram { peer1 with port := 9002 } [2] true peer1] rfl rfl, rfl⟩
  exact ⟨s, hs, session_table 1000 plainRelay s hr⟩

/-! ## Invariants of each session -/

/-- `I` of every session in the table. -/
def PerSession (I : Instant → SocketAddr → Session → Prop) (s : St) : Prop :=
  ∀ p t, s.sessions.lookup p = some t → I s.now p t

/-- What `ensureSession` leaves in the table was there before, or is new. -/
theorem ensureSession_lookup {now : Instant} {o : Option Session}
    (h : ensureSession cfg now sessions peer created lru = some (sessions', o)) :
    (∀ p t, sessions'.lookup p = some t →
      sessions.lookup p = some t ∨ (p = peer ∧ t = newUpstream cfg now peer)) ∧
    ∀ t, o = some t → sessions'.lookup peer = some t := by
  rcases ensureSession_cases h with ⟨session, hs, rfl, rfl⟩ | ⟨-, room, hr, hres⟩
  · exact ⟨fun _ _ h => .inl h, fun _ h => h ▸ hs⟩
  obtain ⟨rfl, rfl⟩ | ⟨rfl, rfl⟩ := hres
  · refine ⟨fun p t hp => ?_, fun t ht => ht ▸ AList.lookup_insert _⟩
    rw [Table.lookup_insert_ite] at hp
    split at hp
    · rename_i he; exact .inr ⟨he, (Option.some.inj hp).symm⟩
    · exact .inl (makeRoom_lookup hr hp)
  · exact ⟨fun p t hp => .inl (makeRoom_lookup hr hp), fun _ ht => nomatch ht⟩

/-- A step keeps `I` of every session when new sessions have it, time and the
forward flow's senders keep it, and the step of one session keeps it there. -/
theorem PerSession.step {I : Instant → SocketAddr → Session → Prop} {s s' : St} {l : Label}
    (h : step maxInstant cfg s l = some s') (hi : PerSession I s)
    (htick : ∀ now p t, s.now ≤ now → I s.now p t → I now p t)
    (hnew : ∀ p, I s.now p (newUpstream cfg s.now p))
    (hoffer : ∀ p t bytes, I s.now p t → I s.now p (t.offer cfg s p bytes))
    (hsession : ∀ p t t', l.session? = some p → s.sessions.lookup p = some t → I s.now p t →
      sessionStep maxInstant cfg s t l = some t' → I s.now p t') :
    PerSession I s' := by
  rcases step_cases h with ⟨now, -, hle, rfl⟩ | ⟨hs, hnow⟩ | ⟨peer, bytes, created, lru, rfl⟩ |
    ⟨peer, session, session', hl, hs, hf, rfl⟩
  · exact fun p t ht => htick now p t hle (hi p t ht)
  · intro p t ht
    rw [hs] at ht
    rw [hnow]
    exact hi p t ht
  · obtain ⟨sessions, o, ha, hs'⟩ := datagram_cases h
    obtain ⟨hall, ho⟩ := ensureSession_lookup ha
    have hadm : ∀ p t, sessions.lookup p = some t → I s.now p t := by
      intro p t ht
      rcases hall p t ht with hold | ⟨rfl, rfl⟩
      · exact hi p t hold
      · exact hnew p
    obtain ⟨-, rfl⟩ | ⟨session, he, rfl⟩ := hs'
    · exact hadm
    have hsession := ho session he
    obtain ⟨-, hf⟩ | ⟨-, -, hf⟩ | ⟨-, -, hf⟩ :=
      forward_cases cfg s sessions peer session bytes
    · intro p t ht
      exact hadm p t (hf ▸ ht)
    · intro p t ht
      have ht : (sessions.insert peer (session.offer cfg s peer bytes)).lookup p = some t :=
        hf ▸ ht
      rw [Table.lookup_insert_ite] at ht
      split at ht
      · rename_i hp
        obtain rfl := Option.some.inj ht
        exact hp ▸ hoffer peer session bytes (hadm peer session hsession)
      · exact hadm p t ht
    · intro p t ht
      have ht : (sessions.erase peer).lookup p = some t := hf ▸ ht
      rw [Table.lookup_erase_ite] at ht
      split at ht
      · cases ht
      · exact hadm p t ht
  · intro p t ht
    have ht : (s.sessions.insert peer session').lookup p = some t := ht
    rw [Table.lookup_insert_ite] at ht
    split at ht
    · rename_i hp
      obtain rfl := Option.some.inj ht
      exact hsession p session session' (hp ▸ hl) (hp ▸ hs) (hi p session (hp ▸ hs)) hf
    · exact hi p t ht

/-- What a read does to a session: the head of the inbox is read, and dropped,
queued, or the reader ends. -/
theorem read_cases {s : St} {t t' : Session} (h : t.read cfg s peer = some t') :
    ∃ bytes inbox, t.reader = true ∧ t.inbox = bytes :: inbox ∧
      ((isBlocked s.blocked cfg.nodeId (peerIndex cfg peer) = true ∧
          t' = { t with inbox := inbox, reads := t.reads ++ [(bytes, .blocked)] }) ∨
        ∃ arrival, arrival = s.arrivalOn cfg.nodeId (peerIndex cfg peer) ∧
          isBlocked s.blocked cfg.nodeId (peerIndex cfg peer) = false ∧
          ((t.ret.pc ≠ .exited ∧ t.ret.chan.length < RELAY_QUEUE_CAP ∧
              t' = { t with
                inbox := inbox, ret := (t.ret.trySend arrival bytes).1
                reads := t.reads ++ [(bytes, .queued)] }) ∨
            (t.ret.pc ≠ .exited ∧ RELAY_QUEUE_CAP ≤ t.ret.chan.length ∧
              t' = { t with
                inbox := inbox, ret := (t.ret.trySend arrival bytes).1
                reads := t.reads ++ [(bytes, .full)] }) ∨
            (t.ret.pc = .exited ∧
              t' = { t with
                inbox := inbox, reader := false, ret := (t.ret.trySend arrival bytes).1.hangup
                reads := t.reads ++ [(bytes, .closed)] }))) := by
  unfold Session.read at h
  split at h
  · rename_i bytes inbox hr hin
    refine ⟨bytes, inbox, hr, hin, ?_⟩
    split at h
    · rename_i hb; exact .inl ⟨hb, (Option.some.inj h).symm⟩
    · rename_i hb
      dsimp only at h
      refine .inr ⟨_, rfl, Bool.eq_false_iff.2 hb, ?_⟩
      obtain ⟨hp, ht⟩ | ⟨hp, hc, ht⟩ | ⟨hp, hc, ht⟩ := t.ret.trySend_cases
        (s.arrivalOn cfg.nodeId (peerIndex cfg peer)) bytes <;> rw [ht] at h ⊢
      · exact .inr (.inr ⟨hp, (Option.some.inj h).symm⟩)
      · exact .inr (.inl ⟨hp, hc, (Option.some.inj h).symm⟩)
      · exact .inl ⟨hp, hc, (Option.some.inj h).symm⟩
  · cases h

/-! ## The return leg -/

/-- No receive on an upstream socket fails, and no draw of a return delay panics. -/
def NoLegFailure (s : St) : Label → Prop
  | .readError _ => False
  | .retWork peer (.recv none) => ∀ t ∈ s.sessions.lookup peer, RELAY_QUEUE_CAP ≤ t.ret.heap.size
  | _ => True

instance (s : St) (l : Label) : Decidable (NoLegFailure s l) :=
  match l with
  | .readError _ => inferInstanceAs (Decidable False)
  | .retWork peer (.recv none) =>
    inferInstanceAs (Decidable (∀ t ∈ s.sessions.lookup peer, RELAY_QUEUE_CAP ≤ t.ret.heap.size))
  | .retWork _ (.recv (some _)) | .retWork _ .wake | .retWork _ (.drain _) | .retWork _ .park
  | .retWork _ .timer | .tick _ | .wall _ | .setBlocked _ | .setStalled _ | .datagram _ _ _ _
  | .nodeSend _ _ | .read _ | .forwardWork _ _ => inferInstanceAs (Decidable True)

/-- The reader and the return worker run, and every datagram of the node was
read in order and dropped only on a blocked link or for a full queue, or waits
to be read. -/
structure Alive (t : Session) : Prop where
  reader : t.reader = true
  sender : t.ret.sender = true
  worker : t.ret.pc ≠ .exited
  outcomes : ∀ r ∈ t.reads, r.2 ≠ .closed
  order : t.nodeSent = t.reads.map Prod.fst ++ t.inbox
  queued : (t.reads.filter fun r => r.2 = .queued).map Prod.fst =
    t.ret.accepted.map Datagram.bytes

theorem alive_read {s : St} {t t' : Session} (hi : Alive t) (h : t.read cfg s peer = some t') :
    Alive t' := by
  obtain ⟨bytes, inbox, hr, hin, hres⟩ := read_cases h
  have horder := hi.order
  rw [hin] at horder
  have hreads : ∀ o : ReadOutcome,
      t.nodeSent = (t.reads ++ [(bytes, o)]).map Prod.fst ++ inbox := by
    intro o
    simp [horder]
  have hout : ∀ o : ReadOutcome, o ≠ .closed → ∀ r ∈ t.reads ++ [(bytes, o)], r.2 ≠ .closed := by
    intro o ho r hr
    simp only [List.mem_append, List.mem_singleton] at hr
    rcases hr with hr | hr
    · exact hi.outcomes r hr
    · subst hr
      exact ho
  have hqueued : ∀ o : ReadOutcome, o ≠ .queued →
      ((t.reads ++ [(bytes, o)]).filter fun r => r.2 = .queued).map Prod.fst =
        t.ret.accepted.map Datagram.bytes := by
    intro o ho
    simp [hi.queued, ho]
  obtain ⟨-, rfl⟩ | ⟨arrival, -, -, ⟨hp, hc, rfl⟩ | ⟨hp, hc, rfl⟩ | ⟨hp, rfl⟩⟩ := hres
  · -- the link is blocked
    exact { hi with
      outcomes := hout .blocked nofun, order := hreads .blocked
      queued := hqueued .blocked nofun }
  · obtain ⟨hx, -⟩ | ⟨-, hf, -⟩ | ⟨-, -, ht⟩ := t.ret.trySend_cases arrival bytes
    · exact absurd hx hp
    · omega
    · rw [ht]
      have hq : ((t.reads ++ [(bytes, ReadOutcome.queued)]).filter fun r => r.2 = .queued).map
          Prod.fst = t.ret.accepted.map Datagram.bytes ++ [bytes] := by
        simp [hi.queued]
      exact { hi with
        outcomes := hout .queued nofun, order := hreads .queued
        queued := by rw [hq]; simp }
  · obtain ⟨hx, -⟩ | ⟨-, -, ht⟩ | ⟨-, hf, -⟩ := t.ret.trySend_cases arrival bytes
    · exact absurd hx hp
    · rw [ht]
      exact { hi with
        outcomes := hout .full nofun, order := hreads .full, queued := hqueued .full nofun }
    · omega
  · exact absurd hp hi.worker

theorem alive_retWork {now : Instant} {t : Session} {l : WorkerLabel} {f : Flow} (hi : Alive t)
    (h : t.ret.Worked maxInstant now l f)
    (hl : l = .recv none → RELAY_QUEUE_CAP ≤ t.ret.heap.size) : Alive { t with ret := f } := by
  cases h with
  | closed _ _ _ _ hs => rw [hi.sender] at hs; cases hs
  | panic _ _ _ _ _ hf => have := hl rfl; omega
  | drain due e heap ok hp => exact { hi with }
  | _ => exact { hi with worker := nofun }

theorem alive_step {s s' : St} {l : Label} (h : step maxInstant cfg s l = some s')
    (hC : NoLegFailure s l) (hi : PerSession (fun _ _ => Alive) s) :
    PerSession (fun _ _ => Alive) s' := by
  refine PerSession.step h hi (fun _ _ _ _ h => h) ?_ ?_ ?_
  · exact fun p => ⟨rfl, rfl, nofun, nofun, rfl, rfl⟩
  · exact fun p t bytes ha => { ha with }
  · intro p t t' hl ht ha hf
    cases l with
    | nodeSend _ bytes =>
      obtain rfl := Option.some.inj hf
      have horder : t.nodeSent ++ [bytes] = t.reads.map Prod.fst ++ (t.inbox ++ [bytes]) := by
        simp [ha.order]
      exact { ha with order := horder }
    | read peer => exact alive_read ha hf
    | readError peer => exact hC.elim
    | forwardWork peer l =>
      obtain ⟨f, -, rfl⟩ := Option.map_eq_some_iff.1 hf
      exact { ha with }
    | retWork peer l =>
      obtain ⟨f, hw, rfl⟩ := Option.map_eq_some_iff.1 hf
      obtain rfl := Option.some.inj hl
      refine alive_retWork ha (Flow.work_cases hw) ?_
      intro hrecv
      subst hrecv
      exact hC t ht
    | _ => cases hl

theorem alive_inductive (maxInstant : Instant) (cfg : RelayConfig) :
    ((system maxInstant cfg).restrict NoLegFailure).Inductive (PerSession fun _ _ => Alive) where
  init s h0 p t ht := by rw [show s.sessions = ∅ from h0] at ht; cases ht
  step s l s' hi hs := alive_step hs.1 hs.2 hi

/-- With the return leg alive, the next datagram of the node can be read. -/
theorem read_next (maxInstant : Instant) (cfg : RelayConfig) {s : St} {p : SocketAddr}
    {t : Session} {bytes : Bytes} {inbox : List Bytes}
    (ht : s.sessions.lookup p = some t) (ha : Alive t) (hin : t.inbox = bytes :: inbox) :
    ∃ s' t', step maxInstant cfg s (.read p) = some s' ∧ s'.sessions.lookup p = some t' ∧
      t.read cfg s p = some t' ∧ t'.inbox = inbox ∧ t'.nodeSent = t.nodeSent := by
  obtain ⟨t', hr⟩ : ∃ t', t.read cfg s p = some t' := by
    unfold Session.read
    rw [ha.reader, hin]
    dsimp only
    split
    · exact ⟨_, rfl⟩
    · split <;> exact ⟨_, rfl⟩
  have hstep : step maxInstant cfg s (.read p) =
      some { s with sessions := s.sessions.insert p t' } := by
    simp only [step, update, sessionStep, ht, hr, Option.bind_eq_bind, Option.bind_some]
    rfl
  refine ⟨_, t', hstep, AList.lookup_insert _, hr, ?_⟩
  obtain ⟨b, rest, -, hin', hres⟩ := read_cases hr
  rw [hin] at hin'
  cases hin'
  obtain ⟨-, rfl⟩ | ⟨arrival, -, -, ⟨-, -, rfl⟩ | ⟨-, -, rfl⟩ | ⟨-, rfl⟩⟩ := hres <;>
    exact ⟨rfl, rfl⟩

/-- What a read does on a link that is not blocked. -/
theorem read_queued {s : St} {p : SocketAddr} {t t' : Session} {bytes : Bytes} {inbox : List Bytes}
    (ha : Alive t) (hin : t.inbox = bytes :: inbox)
    (hb : isBlocked s.blocked cfg.nodeId (peerIndex cfg p) = false)
    (hr : t.read cfg s p = some t') :
    (∃ d : Datagram, d.bytes = bytes ∧ t'.ret.chan = t.ret.chan ++ [d]) ∨
      (RELAY_QUEUE_CAP ≤ t.ret.chan.length ∧ t'.ret.chan = t.ret.chan) := by
  obtain ⟨b, rest, -, hin', ⟨hb', -⟩ | ⟨arrival, -, -, hres⟩⟩ := read_cases hr
  · rw [hb] at hb'; cases hb'
  rw [hin] at hin'
  cases hin'
  obtain ⟨-, hc, rfl⟩ | ⟨hp, hc, rfl⟩ | ⟨hp, -⟩ := hres
  · obtain ⟨hx, -⟩ | ⟨-, hf, -⟩ | ⟨-, -, he⟩ := t.ret.trySend_cases arrival bytes
    · exact absurd hx ha.worker
    · omega
    · exact .inl ⟨_, rfl, by rw [he]⟩
  · obtain ⟨hx, -⟩ | ⟨-, -, he⟩ | ⟨-, hf, -⟩ := t.ret.trySend_cases arrival bytes
    · exact absurd hx hp
    · exact .inr ⟨hc, by rw [he]⟩
    · omega
  · exact absurd hp ha.worker

/-- Reading goes on until everything the node sent has been read. -/
theorem read_all {p : SocketAddr} (n : Nat) : ∀ {s : St} {t : Session},
    s.sessions.lookup p = some t → Alive t → t.inbox.length = n →
    ∃ s' t', (system maxInstant cfg).Run s (List.replicate n (.read p)) s' ∧
      s'.sessions.lookup p = some t' ∧ t'.reads.map Prod.fst = t.nodeSent := by
  induction n with
  | zero =>
    intro s t ht ha hlen
    have hempty : t.inbox = [] := List.eq_nil_of_length_eq_zero hlen
    exact ⟨s, t, .nil s, ht, by simp [ha.order, hempty]⟩
  | succ n ih =>
    intro s t ht ha hlen
    obtain ⟨bytes, inbox, hin⟩ := List.exists_cons_of_length_eq_add_one hlen
    obtain ⟨s₁, t₁, hstep, ht₁, hr, hin₁, hsent⟩ :=
      read_next maxInstant cfg ht ha hin
    have hlen₁ : t₁.inbox.length = n := by
      simp only [hin, List.length_cons] at hlen
      rw [hin₁]
      omega
    obtain ⟨s', t', hrun, ht', hreads⟩ := ih ht₁ (alive_read ha hr) hlen₁
    exact ⟨s', t', .cons hstep hrun, ht', hreads.trans hsent⟩

/-- Every session in the table serves its return leg: its next datagram can be
read, on a link that is not blocked it is queued or the queue is full, and
reading on, all of them are. -/
structure LegsAlive (maxInstant : Instant) (cfg : RelayConfig) (s : St) : Prop where
  alive : ∀ p t, s.sessions.lookup p = some t → Alive t
  nextRead : ∀ p t bytes inbox, s.sessions.lookup p = some t → t.inbox = bytes :: inbox →
    ∃ s' t', step maxInstant cfg s (.read p) = some s' ∧ s'.sessions.lookup p = some t' ∧
      t'.inbox = inbox ∧ (isBlocked s.blocked cfg.nodeId (peerIndex cfg p) = false →
        (∃ d : Datagram, d.bytes = bytes ∧ t'.ret.chan = t.ret.chan ++ [d]) ∨
          (RELAY_QUEUE_CAP ≤ t.ret.chan.length ∧ t'.ret.chan = t.ret.chan))
  allRead : ∀ p t, s.sessions.lookup p = some t → ∃ s' t',
    (system maxInstant cfg).Run s (List.replicate t.inbox.length (.read p)) s' ∧
      s'.sessions.lookup p = some t' ∧ t'.reads.map Prod.fst = t.nodeSent

/-- **Both legs alive.** In every run in which no receive on an upstream socket
fails and no draw of a return delay panics. -/
theorem legs_alive (maxInstant : Instant) (cfg : RelayConfig) (s : St)
    (h : ((system maxInstant cfg).restrict NoLegFailure).Reachable s) :
    LegsAlive maxInstant cfg s := by
  have hi := (alive_inductive maxInstant cfg).reachable s h
  refine ⟨hi, fun p t bytes inbox ht hin => ?_, fun p t ht => read_all _ ht (hi p t ht) rfl⟩
  obtain ⟨s', t', hstep, ht', hr, hin', -⟩ :=
    read_next maxInstant cfg ht (hi p t ht) hin
  exact ⟨s', t', hstep, ht', hin', fun hb => read_queued (hi p t ht) hin hb hr⟩

/-- The step leaves `p` its session. -/
def Keeps (maxInstant : Instant) (cfg : RelayConfig) (p : SocketAddr) (s : St) (l : Label) : Prop :=
  ∀ s', step maxInstant cfg s l = some s' → ¬Removed s s' p

/-- `p` has a session without a reader, which read `reads` before it ended. -/
def Deaf (p : SocketAddr) (reads : List (Bytes × ReadOutcome)) (s : St) : Prop :=
  ∃ t, s.sessions.lookup p = some t ∧ t.reader = false ∧ t.reads = reads

theorem deaf_sessionStep {s : St} {t t' : Session} {l : Label}
    (h : sessionStep maxInstant cfg s t l = some t') (hd : t.reader = false) :
    t'.reader = false ∧ t'.reads = t.reads := by
  cases l with
  | nodeSend _ bytes => obtain rfl := Option.some.inj h; exact ⟨hd, rfl⟩
  | read peer =>
    obtain ⟨_, _, hr, -⟩ := read_cases h
    rw [hd] at hr; cases hr
  | readError peer =>
    simp only [sessionStep, hd] at h
    cases h
  | forwardWork peer l | retWork peer l =>
    obtain ⟨f, -, rfl⟩ := Option.map_eq_some_iff.1 h
    exact ⟨hd, rfl⟩
  | _ => cases h

/-- A session without a reader stays so, and reads nothing, until it is removed. -/
theorem deaf_step {s s' : St} {l : Label} {p : SocketAddr} {reads : List (Bytes × ReadOutcome)}
    (h : step maxInstant cfg s l = some s') (hk : Keeps maxInstant cfg p s l)
    (hd : Deaf p reads s) : Deaf p reads s' := by
  obtain ⟨t, ht, hr, hreads⟩ := hd
  have hkept : p ∈ s'.sessions := by
    by_contra hp
    exact hk s' h ⟨Table.mem_of_lookup ht, hp⟩
  rcases step_cases h with ⟨now, -, -, rfl⟩ | ⟨he, -⟩ | ⟨peer, bytes, created, lru, rfl⟩ |
    ⟨peer, session, session', -, hs, hf, rfl⟩
  · exact ⟨t, ht, hr, hreads⟩
  · exact ⟨t, he ▸ ht, hr, hreads⟩
  · by_cases hp : p = peer
    · subst hp
      rw [datagram_present ht h] at hkept ⊢
      obtain ⟨-, hf⟩ | ⟨-, -, hf⟩ | ⟨-, -, hf⟩ := forward_cases cfg s s.sessions p t bytes <;>
        simp only [Deaf, hf] at hkept ⊢
      · exact ⟨t, ht, hr, hreads⟩
      · exact ⟨_, AList.lookup_insert _, hr, hreads⟩
      · exact absurd rfl (AList.mem_erase.1 hkept).1
    · refine ⟨t, ?_, hr, hreads⟩
      cases hs : s.sessions.lookup peer with
      | some session =>
        rw [datagram_present hs h]
        exact (forward_lookup_of_ne s session bytes hp).trans ht
      | none =>
        obtain ⟨room, hroom, hlook, -⟩ := datagram_absent hs h
        rw [← AList.lookup_isSome, hlook p hp] at hkept
        rw [hlook p hp]
        rcases makeRoom_cases hroom with ⟨-, rfl⟩ | ⟨-, -, rfl⟩
        · exact ht
        · rw [Table.lookup_erase_ite] at hkept ⊢
          split at hkept
          · cases hkept
          · rename_i hne; rw [if_neg hne]; exact ht
  · by_cases hp : p = peer
    · subst hp
      rw [ht] at hs
      obtain rfl := Option.some.inj hs
      obtain ⟨hr', hreads'⟩ := deaf_sessionStep hf hr
      exact ⟨session', AList.lookup_insert _, hr', hreads'.trans hreads⟩
    · exact ⟨t, (AList.lookup_insert_ne hp).trans ht, hr, hreads⟩

theorem deaf_run {s s' : St} {ls : List Label} {p : SocketAddr}
    {reads : List (Bytes × ReadOutcome)} (hd : Deaf p reads s)
    (h : ((system maxInstant cfg).restrict (Keeps maxInstant cfg p)).Run s ls s') :
    Deaf p reads s' := by
  refine h.preserves ?_ hd
  exact fun _ _ _ hd hs => deaf_step hs.1 hs.2 hd

end

/-- The node is not listening yet when the first datagram reaches it, and the
receive on the upstream socket is refused. What the node sends later is not read
for as long as the session stays. -/
theorem dead_reader_stays : ∃ s : St, (system 1000 plainRelay).Reachable s ∧
    isBlocked s.blocked plainRelay.nodeId (peerIndex plainRelay peer1) = false ∧
    (∃ t ∈ s.sessions.lookup peer1, t.inbox = [[2]]) ∧ ¬LegsAlive 1000 plainRelay s ∧
    ∀ ls s', ((system 1000 plainRelay).restrict (Keeps 1000 plainRelay peer1)).Run s ls s' →
      ∃ t ∈ s'.sessions.lookup peer1, t.reads = [] := by
  obtain ⟨s, t, hr, hb, ht, hin, hdead, hreads⟩ : ∃ (s : St) (t : Session),
      (system 1000 plainRelay).Reachable s ∧
      isBlocked s.blocked plainRelay.nodeId (peerIndex plainRelay peer1) = false ∧
      s.sessions.lookup peer1 = some t ∧ t.inbox = [[2]] ∧ t.reader = false ∧ t.reads = [] :=
    ⟨_, _, LTS.reachable_of_exec ⟨0, 0, [], ∅, ∅⟩
      [.datagram peer1 [1] true peer1, .forwardWork peer1 .wake, .forwardWork peer1 .park,
        .forwardWork peer1 (.recv (some 0)), .forwardWork peer1 .wake,
        .forwardWork peer1 (.drain true), .readError peer1, .nodeSend peer1 [2]] rfl rfl,
      rfl, rfl, rfl, rfl, rfl⟩
  refine ⟨s, hr, hb, ⟨t, ht, hin⟩, fun h => ?_, fun ls s' h => ?_⟩
  · have halive := (h.alive peer1 t ht).reader
    rw [hdead] at halive; cases halive
  · obtain ⟨t', ht', -, hreads'⟩ := deaf_run ⟨t, ht, hdead, hreads⟩ h
    exact ⟨t', ht', hreads'⟩

/-- The node answers the first datagram, and the reader takes the answer. -/
theorem answered_legs_alive : ∃ s : St,
    (∃ t ∈ s.sessions.lookup peer1, t.reads = [([2], .queued)]) ∧ LegsAlive 1000 plainRelay s := by
  obtain ⟨s, hr, ht⟩ : ∃ s : St,
      ((system 1000 plainRelay).restrict NoLegFailure).Reachable s ∧
      ∃ t ∈ s.sessions.lookup peer1, t.reads = [([2], .queued)] :=
    ⟨_, LTS.restrict_reachable_of_exec ⟨0, 0, [], ∅, ∅⟩
      [.datagram peer1 [1] true peer1, .retWork peer1 .wake, .retWork peer1 .park,
        .nodeSend peer1 [2], .read peer1, .retWork peer1 (.recv (some 0)),
        .nodeSend peer1 [3]] rfl rfl, _, rfl, rfl⟩
  exact ⟨s, ht, legs_alive 1000 plainRelay s hr⟩

end Hoprd.Localcluster.Relay
