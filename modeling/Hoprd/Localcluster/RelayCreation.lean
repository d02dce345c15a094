import Hoprd.Localcluster.Relay
import Mathlib.Data.List.MinMax

/-!
# A session that cannot be created (`localcluster/src/relay.rs`, `run_relay`)

The loop makes room for a new session before it creates one. When `new_upstream` fails,
the datagram is dropped and the loop goes on, but the room has been made.

* `failed_creation_keeps_iff`: the table is as it was exactly if it was not full.
* `exhausted_run`: while every creation fails, a full table loses its oldest session
  once, and nothing else.
* `full_table_loses_session`: 256 peers and a newcomer.
-/
namespace Hoprd.Localcluster.Relay

open Core

section
variable {maxInstant : Instant} {cfg : RelayConfig} {s s' : St} {peer lru : SocketAddr}
  {bytes : Bytes}

/-- The same sessions, each with its workers as they were. -/
def SameSessions (s s' : St) : Prop := ∀ p, s'.sessions.lookup p = s.sessions.lookup p

theorem failed_creation (hn : peer ∉ s.sessions)
    (h : step maxInstant cfg s (.datagram peer bytes false lru) = some s') :
    ∃ room, makeRoom s.sessions lru = some room ∧ s' = { s with sessions := room } := by
  have hn : s.sessions.lookup peer = none := AList.lookup_eq_none.2 hn
  obtain ⟨sessions, o, ha, hs'⟩ := datagram_cases h
  unfold ensureSession at ha
  simp only [hn] at ha
  obtain ⟨room, hr, ha⟩ := Option.bind_eq_some_iff.1 ha
  rw [if_neg (by decide)] at ha
  cases ha
  obtain ⟨-, rfl⟩ | ⟨session, he, -⟩ := hs'
  · exact ⟨sessions, hr, rfl⟩
  · cases he

/-- A full table has an oldest session, so the iteration always goes through. -/
theorem exists_oldest (sessions : Table SocketAddr Session) (h : 0 < sessions.size) :
    ∃ lru, Oldest sessions lru := by
  cases hmin : sessions.entries.argmin fun e => e.2.lastSeen with
  | none =>
    have hnil := List.argmin_eq_none.1 hmin
    simp [Table.size, AList.keys, List.keys, hnil] at h
  | some e =>
    refine ⟨e.1, e.2, AList.mem_lookup_iff.2 (List.argmin_mem hmin), fun q t ht => ?_⟩
    exact List.le_of_mem_argmin (f := fun e : (_ : SocketAddr) × Session => e.2.lastSeen)
      (AList.mem_lookup_iff.1 ht) hmin

/-- **A failed creation leaves the table as it was exactly if it was not full.** -/
theorem failed_creation_keeps_iff (maxInstant : Instant) (cfg : RelayConfig) (s s' : St)
    (peer lru : SocketAddr) (bytes : Bytes) (hn : peer ∉ s.sessions)
    (h : step maxInstant cfg s (.datagram peer bytes false lru) = some s') :
    SameSessions s s' ↔ s.sessions.size < MAX_SESSIONS := by
  obtain ⟨room, hr, rfl⟩ := failed_creation hn h
  rcases makeRoom_cases hr with ⟨hlt, rfl⟩ | ⟨hfull, ⟨t, ht, -⟩, rfl⟩
  · exact ⟨fun _ => hlt, fun _ _ => rfl⟩
  · constructor
    · intro hsame
      have hgone := hsame lru
      rw [ht] at hgone
      cases (AList.lookup_erase lru s.sessions).symm.trans hgone
    · intro hlt
      omega

/-- Two peers have their sessions, and for a third none can be created. -/
theorem failed_creation_keeps_two : ∃ s s', (system 1000 plainRelay).Reachable s ∧
    s.sessions.size = 2 ∧
    step 1000 plainRelay s (.datagram { peer1 with port := 9003 } [3] false peer1) = some s' ∧
    (SameSessions s s' ↔ s.sessions.size < MAX_SESSIONS) := by
  obtain ⟨s, s', hr, hsize, hnew, hs⟩ : ∃ s s', (system 1000 plainRelay).Reachable s ∧
      s.sessions.size = 2 ∧ { peer1 with port := 9003 } ∉ s.sessions ∧
      step 1000 plainRelay s (.datagram { peer1 with port := 9003 } [3] false peer1) = some s' :=
    ⟨_, _, LTS.reachable_of_exec ⟨0, 0, [], ∅, ∅⟩
        [.datagram peer1 [1] true peer1,
          .datagram { peer1 with port := 9002 } [2] true peer1] rfl rfl,
      rfl, AList.lookup_eq_none.1 rfl, rfl⟩
  exact ⟨s, s', hr, hsize, hs,
    failed_creation_keeps_iff 1000 plainRelay s s' { peer1 with port := 9003 } peer1 [3] hnew hs⟩

/-! ## While every creation fails -/

/-- A datagram of a peer without a session, whose creation fails. -/
def FailedCreation (s : St) (l : Label) : Prop :=
  ∃ peer bytes lru, l = .datagram peer bytes false lru ∧ peer ∉ s.sessions

theorem failedCreation_step {l : Label} (hl : FailedCreation s l)
    (h : step maxInstant cfg s l = some s') :
    (s.sessions.size < MAX_SESSIONS ∧ s'.sessions = s.sessions) ∨
    (MAX_SESSIONS ≤ s.sessions.size ∧
      ∃ lru, Oldest s.sessions lru ∧ s'.sessions = s.sessions.erase lru) := by
  obtain ⟨peer, bytes, lru, rfl, hn⟩ := hl
  obtain ⟨room, hr, rfl⟩ := failed_creation hn h
  rcases makeRoom_cases hr with ⟨hlt, rfl⟩ | ⟨hfull, hold, rfl⟩
  · exact .inl ⟨hlt, rfl⟩
  · exact .inr ⟨hfull, lru, hold, rfl⟩

theorem exhausted_run_of_room {ls : List Label} (hlt : s.sessions.size < MAX_SESSIONS)
    (h : ((system maxInstant cfg).restrict FailedCreation).Run s ls s') :
    s'.sessions = s.sessions := by
  induction h with
  | nil => rfl
  | cons hs _ ih =>
    rcases failedCreation_step hs.2 hs.1 with ⟨-, he⟩ | ⟨hfull, -⟩
    · rw [← he]
      exact ih (he.symm ▸ hlt)
    · omega

/-- Only the first failure costs a session. -/
theorem exhausted_run {ls : List Label} (hsize : s.sessions.size ≤ MAX_SESSIONS)
    (h : ((system maxInstant cfg).restrict FailedCreation).Run s ls s') :
    s'.sessions = s.sessions ∨
    (s.sessions.size = MAX_SESSIONS ∧
      ∃ lru, Oldest s.sessions lru ∧ s'.sessions = s.sessions.erase lru) := by
  cases h with
  | nil => exact .inl rfl
  | cons hs hrun =>
    rcases failedCreation_step hs.2 hs.1 with ⟨hlt, he⟩ | ⟨hfull, lru, hold, he⟩
    · left
      rw [← he]
      exact exhausted_run_of_room (he.symm ▸ hlt) hrun
    · have hless : Table.size (s.sessions.erase lru) + 1 = s.sessions.size := by
        obtain ⟨t, ht, -⟩ := hold
        exact Table.size_erase_of_mem (Table.mem_of_lookup ht)
      refine .inr ⟨Nat.le_antisymm hsize hfull, lru, hold, ?_⟩
      rw [← he]
      refine exhausted_run_of_room ?_ hrun
      rw [he]
      omega

end

/-! ## 256 peers -/

/-- Peers on one host, told apart by their ports. -/
def localPeer (i : Nat) : SocketAddr := ⟨.v4 127 0 0 1, .ofNat i⟩

/-- A datagram of each of the first `n` peers. -/
def crowd (n : Nat) : List Label :=
  (List.range n).map fun i => .datagram (localPeer i) [] true (localPeer i)

theorem localPeer_inj {i j : Nat} (hi : i < 2 ^ 16) (hj : j < 2 ^ 16)
    (h : localPeer i = localPeer j) : i = j := by
  have hport : (UInt16.ofNat i).toNat = (UInt16.ofNat j).toNat :=
    congrArg (fun p : SocketAddr => p.port.toNat) h
  rw [UInt16.toNat_ofNat', UInt16.toNat_ofNat'] at hport
  omega

/-- A peer without a session gets one while there is room. -/
theorem join_step (cfg : RelayConfig) {s : St} {peer : SocketAddr} (bytes : Bytes)
    (hn : peer ∉ s.sessions) (hlt : s.sessions.size < MAX_SESSIONS) :
    ∃ s', step 1000 cfg s (.datagram peer bytes true peer) = some s' ∧
      s'.sessions.size = s.sessions.size + 1 ∧
      ∀ p ∈ s'.sessions, p = peer ∨ p ∈ s.sessions := by
  have hensure : ensureSession cfg s.now s.sessions peer true peer =
      some (s.sessions.insert peer (newUpstream cfg s.now peer),
        some (newUpstream cfg s.now peer)) := by
    unfold ensureSession makeRoom
    rw [AList.lookup_eq_none.2 hn]
    simp [Nat.not_le_of_lt hlt]
  have hstep : step 1000 cfg s (.datagram peer bytes true peer) = some { s with
      sessions := forward cfg s (s.sessions.insert peer (newUpstream cfg s.now peer)) peer
        (newUpstream cfg s.now peer) bytes } := by
    simp only [step, hensure]
  refine ⟨_, hstep, ?_⟩
  have hnew : Table.size (s.sessions.insert peer (newUpstream cfg s.now peer)) =
      s.sessions.size + 1 := Table.size_insert_of_notMem hn _
  have hmem : ∀ t : Session, ∀ p ∈ s.sessions.insert peer t, p = peer ∨ p ∈ s.sessions :=
    fun t p hp => (AList.mem_insert _).1 hp
  dsimp only
  obtain ⟨-, hf⟩ | ⟨-, -, hf⟩ | ⟨-, hx, -⟩ := forward_cases cfg s
    (s.sessions.insert peer (newUpstream cfg s.now peer)) peer (newUpstream cfg s.now peer) bytes
  · rw [hf]
    exact ⟨hnew, hmem _⟩
  · rw [hf, AList.insert_insert]
    exact ⟨Table.size_insert_of_notMem hn _, hmem _⟩
  · cases hx

theorem crowd_sessions {n : Nat} (hn : n ≤ MAX_SESSIONS) :
    ∃ s, (system 1000 plainRelay).Run ⟨0, 0, [], ∅, ∅⟩ (crowd n) s ∧
      s.sessions.size = n ∧ ∀ p ∈ s.sessions, ∃ i < n, p = localPeer i := by
  induction n with
  | zero => exact ⟨_, .nil _, rfl, fun p hp => absurd hp (AList.notMem_empty p)⟩
  | succ n ih =>
    obtain ⟨s, hs, hsize, hpeers⟩ := ih (by omega)
    have hlt : s.sessions.size < MAX_SESSIONS := by omega
    have hnew : localPeer n ∉ s.sessions := by
      intro hmem
      obtain ⟨i, hi, he⟩ := hpeers _ hmem
      have hcap : MAX_SESSIONS = 256 := rfl
      have := localPeer_inj (by omega) (by omega) he
      omega
    obtain ⟨s', hstep, hsize', hpeers'⟩ := join_step plainRelay [] hnew hlt
    refine ⟨s', ?_, by omega, fun p hp => ?_⟩
    · rw [crowd, List.range_succ, List.map_append]
      exact hs.snoc hstep
    · rcases hpeers' p hp with rfl | hp
      · exact ⟨n, Nat.lt_succ_self n, rfl⟩
      · obtain ⟨i, hi, he⟩ := hpeers p hp
        exact ⟨i, Nat.lt_succ_of_lt hi, he⟩

/-- Peer 256 comes when 256 peers are there, and its socket cannot be bound. -/
theorem full_table_loses_session :
    (∃ s lru s', (system 1000 plainRelay).Run ⟨0, 0, [], ∅, ∅⟩ (crowd MAX_SESSIONS) s ∧
      step 1000 plainRelay s (.datagram (localPeer MAX_SESSIONS) [] false lru) = some s' ∧
      Removed s s' lru) ∧
    ¬ ∀ (s s' : St) (peer lru : SocketAddr), peer ∉ s.sessions →
      step 1000 plainRelay s (.datagram peer [] false lru) = some s' → SameSessions s s' := by
  obtain ⟨s, hrun, hsize, hpeers⟩ := crowd_sessions (Nat.le_refl MAX_SESSIONS)
  have hcap : MAX_SESSIONS = 256 := rfl
  have hnew : localPeer MAX_SESSIONS ∉ s.sessions := by
    intro hmem
    obtain ⟨i, hi, he⟩ := hpeers _ hmem
    have := localPeer_inj (by omega) (by omega) he
    omega
  obtain ⟨lru, hold⟩ := exists_oldest s.sessions (by rw [hsize]; decide)
  have hensure : ensureSession plainRelay s.now s.sessions (localPeer MAX_SESSIONS) false lru =
      some (s.sessions.erase lru, none) := by
    unfold ensureSession makeRoom
    rw [AList.lookup_eq_none.2 hnew]
    simp [hsize, isLru_iff.2 hold]
  have hstep : step 1000 plainRelay s (.datagram (localPeer MAX_SESSIONS) [] false lru) =
      some { s with sessions := s.sessions.erase lru } := by
    simp only [step, hensure]
  obtain ⟨t, ht, -⟩ := hold
  refine ⟨⟨s, lru, _, hrun, hstep, Table.mem_of_lookup ht, fun hm => ?_⟩, fun h => ?_⟩
  · exact (AList.mem_erase.1 hm).1 rfl
  · have hgone := h s _ _ lru hnew hstep lru
    rw [ht] at hgone
    cases (AList.lookup_erase lru s.sessions).symm.trans hgone

end Hoprd.Localcluster.Relay
