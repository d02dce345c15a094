import Hoprd.Localcluster.RelayFlows

/-!
# What a relay delivers (`localcluster/src/relay.rs`)

The datagrams that come from a peer, and those that the node sends to it, are read off the
run, from the step that made the peer's session on: `fromPeer` and `fromNode`. A session
knows exactly those, wherever they are now.

* `relay_delivers`: on each leg, what has come in since the session began is handed over,
  waits, was dropped or was lost with a worker, each datagram once, and there is nothing
  else. So no datagram is sent on the session of another peer.
* `relay_delivers_in_order`: while no stall holds up its link, what a leg with no or a fixed
  delay has sent is a subsequence of what came.
-/
namespace Hoprd.Localcluster.Relay

open Core
open Hoprd.Localcluster.Flow (WorkerLabel)

variable {maxInstant : Instant} {cfg : RelayConfig} {p : SocketAddr}

/-! ## What comes in -/

/-- A datagram of the peer that the loop takes to the forward leg. -/
def taken (cfg : RelayConfig) (p : SocketAddr) (s : St) : Label → Option Bytes
  | .datagram peer bytes _ _ =>
    if peer = p ∧ isBlocked s.blocked (peerIndex cfg p) cfg.nodeId = false then some bytes
    else none
  | _ => none

/-- A datagram that the node sends to the socket of the peer's session. -/
def sentTo (p : SocketAddr) : Label → Option Bytes
  | .nodeSend peer bytes => if peer = p then some bytes else none
  | _ => none

/-- What came in for the peer, with what came in before it. A step that finds no session of
the peer starts over, so the session begins with what the step that makes it brings. -/
def arrived (p : SocketAddr) (incoming : Option Bytes) (s : St) (before : List Bytes) :
    List Bytes :=
  (if p ∈ s.sessions then before else []) ++ incoming.toList

/-- What came in along a run since the session of the peer began. -/
def sinceBegan (maxInstant : Instant) (cfg : RelayConfig) (p : SocketAddr)
    (incoming : St → Label → Option Bytes) : List Bytes → St → List Label → List Bytes
  | before, _, [] => before
  | before, s, l :: ls =>
    match step maxInstant cfg s l with
    | some s' => sinceBegan maxInstant cfg p incoming (arrived p (incoming s l) s before) s' ls
    | none => before

/-- The datagrams of the peer, those on a blocked link left out. -/
def fromPeer (maxInstant : Instant) (cfg : RelayConfig) (p : SocketAddr) (s : St)
    (ls : List Label) : List Bytes :=
  sinceBegan maxInstant cfg p (taken cfg p) [] s ls

/-- The datagrams of the node. -/
def fromNode (maxInstant : Instant) (cfg : RelayConfig) (p : SocketAddr) (s : St)
    (ls : List Label) : List Bytes :=
  sinceBegan maxInstant cfg p (fun _ => sentTo p) [] s ls

/-! ## What a step does to one session -/

/-- The session a datagram finds or, where there is none, makes. -/
def Began (cfg : RelayConfig) (s : St) (p : SocketAddr) (t : Session) : Prop :=
  s.sessions.lookup p = some t ∨ (s.sessions.lookup p = none ∧ t = newUpstream cfg s.now p)

theorem taken_of_session {s : St} {l : Label} (h : l.session? = some p) :
    taken cfg p s l = none := by
  cases l with
  | datagram => cases h
  | _ => rfl

theorem sentTo_of_other {l : Label} (h : l.session? ≠ some p) : sentTo p l = none := by
  cases l with
  | nodeSend peer bytes => exact if_neg fun he => h (congrArg some he)
  | _ => rfl

/-- What an iteration for the peer leaves of its session. -/
theorem datagram_session {s s' : St} {bytes : Bytes} {created : Bool} {lru : SocketAddr}
    {t' : Session} (h : step maxInstant cfg s (.datagram p bytes created lru) = some s')
    (ht' : s'.sessions.lookup p = some t') :
    ∃ t, Began cfg s p t ∧
      ((isBlocked s.blocked (peerIndex cfg p) cfg.nodeId = true ∧ t' = t) ∨
        (isBlocked s.blocked (peerIndex cfg p) cfg.nodeId = false ∧
          t' = t.offer cfg s p bytes)) := by
  obtain ⟨sessions, o, ha, hs'⟩ := datagram_cases h
  obtain ⟨hall, ho⟩ := ensureSession_lookup ha
  have hbegan : ∀ t, sessions.lookup p = some t → Began cfg s p t := by
    intro t ht
    rcases ensureSession_cases ha with ⟨session, hs, hsame, -⟩ | ⟨hn, -⟩
    · rw [hsame] at ht
      exact .inl ht
    · rcases hall p t ht with hold | ⟨-, hnew⟩
      · exact .inl hold
      · exact .inr ⟨hn, hnew⟩
  obtain ⟨rfl, rfl⟩ | ⟨session, rfl, rfl⟩ := hs'
  · -- no session could be made, so there is none
    rcases ensureSession_cases ha with ⟨t, -, -, hnone⟩ | ⟨hn, room, hr, ⟨-, hsome⟩ | ⟨rfl, -⟩⟩
    · cases hnone
    · cases hsome
    · have hold := makeRoom_lookup hr ht'
      rw [hn] at hold
      cases hold
  · have hsession := ho session rfl
    rcases forward_cases cfg s sessions p session bytes with ⟨hb, hf⟩ | ⟨hb, -, hf⟩ | ⟨-, -, hf⟩
    · refine ⟨t', hbegan t' ?_, .inl ⟨hb, rfl⟩⟩
      rw [← hf]
      exact ht'
    · refine ⟨session, hbegan session hsession, .inr ⟨hb, ?_⟩⟩
      have hlook : (sessions.insert p (session.offer cfg s p bytes)).lookup p = some t' :=
        hf ▸ ht'
      rw [AList.lookup_insert] at hlook
      exact (Option.some.inj hlook).symm
    · have hlook : (sessions.erase p).lookup p = some t' := hf ▸ ht'
      rw [AList.lookup_erase] at hlook
      cases hlook

/-- An iteration for another peer. -/
theorem datagram_other {s s' : St} {peer : SocketAddr} {bytes : Bytes} {created : Bool}
    {lru : SocketAddr} {t' : Session} (hne : p ≠ peer)
    (h : step maxInstant cfg s (.datagram peer bytes created lru) = some s')
    (ht' : s'.sessions.lookup p = some t') : s.sessions.lookup p = some t' := by
  cases hs : s.sessions.lookup peer with
  | some session =>
    rw [datagram_present hs h] at ht'
    exact (forward_lookup_of_ne s session bytes hne).symm.trans ht'
  | none =>
    obtain ⟨room, hroom, hlook, -⟩ := datagram_absent hs h
    rw [hlook p hne] at ht'
    exact makeRoom_lookup hroom ht'

/-- A session of the table after the step: a datagram of its peer was offered to it, or
nothing was, or the step was one of its own. -/
theorem session_cases {s s' : St} {l : Label} {t' : Session}
    (h : step maxInstant cfg s l = some s') (ht' : s'.sessions.lookup p = some t') :
    (∃ t, Began cfg s p t ∧ l.session? ≠ some p ∧
      ((taken cfg p s l = none ∧ t' = t) ∨
        ∃ bytes, taken cfg p s l = some bytes ∧ t' = t.offer cfg s p bytes)) ∨
    ∃ t, s.sessions.lookup p = some t ∧ l.session? = some p ∧
      sessionStep maxInstant cfg s t l = some t' := by
  cases l with
  | tick now =>
    simp only [step] at h
    split at h
    · obtain rfl := Option.some.inj h
      exact .inl ⟨t', .inl ht', (Option.some_ne_none p).symm, .inl ⟨rfl, rfl⟩⟩
    · cases h
  | wall | setBlocked | setStalled =>
    obtain rfl := Option.some.inj h
    exact .inl ⟨t', .inl ht', (Option.some_ne_none p).symm, .inl ⟨rfl, rfl⟩⟩
  | datagram peer bytes created lru =>
    refine .inl ?_
    by_cases hp : peer = p
    · subst hp
      obtain ⟨t, ht, ⟨hb, rfl⟩ | ⟨hb, rfl⟩⟩ := datagram_session h ht'
      · exact ⟨_, ht, (Option.some_ne_none peer).symm, .inl ⟨if_neg (by simp [hb]), rfl⟩⟩
      · exact ⟨t, ht, (Option.some_ne_none peer).symm, .inr ⟨bytes, if_pos ⟨rfl, hb⟩, rfl⟩⟩
    · have hold := datagram_other (Ne.symm hp) h ht'
      exact ⟨t', .inl hold, (Option.some_ne_none p).symm, .inl ⟨if_neg fun hc => hp hc.1, rfl⟩⟩
  | nodeSend peer | read peer | readError peer | forwardWork peer | retWork peer =>
    obtain ⟨session, session', hs, hf, rfl⟩ := update_cases h
    have hrest : (s.sessions.insert peer session').lookup p = some t' := ht'
    rw [Table.lookup_insert_ite] at hrest
    split at hrest
    · next hp =>
      obtain rfl := Option.some.inj hrest
      subst hp
      exact .inr ⟨session, hs, rfl, hf⟩
    · next hp =>
      exact .inl ⟨t', .inl hrest, fun he => hp (Option.some.inj he).symm, .inl ⟨rfl, rfl⟩⟩

/-! ## What a session knows -/

/-- The datagrams that came in are those the session knows of. -/
structure Knows (peerSent nodeSent : List Bytes) (t : Session) : Prop where
  forward : t.forward.offered.map Datagram.bytes = peerSent
  sent : t.nodeSent = nodeSent
  read : t.reads.map Prod.fst ++ t.inbox = t.nodeSent
  ret : t.ret.offered.map Datagram.bytes =
    (t.reads.filter fun r => r.2 ≠ .blocked).map Prod.fst

theorem knows_new (now : Instant) : Knows [] [] (newUpstream cfg now p) where
  forward := rfl
  sent := rfl
  read := rfl
  ret := rfl

theorem knows_offer {s : St} {peerSent nodeSent : List Bytes} {t : Session} (bytes : Bytes)
    (h : Knows peerSent nodeSent t) :
    Knows (peerSent ++ [bytes]) nodeSent (t.offer cfg s p bytes) where
  forward := by
    have hoffered := (t.forward.places_trySend (s.arrivalOn (peerIndex cfg p) cfg.nodeId) bytes).2
    rw [Session.offer, hoffered, List.map_append, h.forward]
    rfl
  sent := h.sent
  read := h.read
  ret := h.ret

theorem knows_read {s : St} {peerSent nodeSent : List Bytes} {t t' : Session}
    (h : Knows peerSent nodeSent t) (hread : t.read cfg s p = some t') :
    Knows peerSent nodeSent t' := by
  obtain ⟨bytes, inbox, -, hin, hres⟩ := read_cases hread
  have hall : ∀ r, (t.reads ++ [(bytes, r)]).map Prod.fst ++ inbox = t.nodeSent := by
    intro r
    rw [← h.read, hin, List.map_append, List.append_assoc]
    rfl
  have hoffered := fun arrival => (t.ret.places_trySend arrival bytes).2
  have hret : ∀ arrival r, r ≠ ReadOutcome.blocked →
      (t.ret.trySend arrival bytes).1.offered.map Datagram.bytes =
        ((t.reads ++ [(bytes, r)]).filter fun r => r.2 ≠ .blocked).map Prod.fst := by
    intro arrival r hr
    rw [hoffered, List.map_append, h.ret, List.filter_append, List.map_append]
    simp [hr]
  obtain ⟨-, rfl⟩ | ⟨arrival, -, -, ⟨-, -, rfl⟩ | ⟨-, -, rfl⟩ | ⟨-, rfl⟩⟩ := hres
  · refine ⟨h.forward, h.sent, hall _, ?_⟩
    rw [List.filter_append, List.map_append, ← h.ret]
    simp
  · exact ⟨h.forward, h.sent, hall _, hret arrival _ nofun⟩
  · exact ⟨h.forward, h.sent, hall _, hret arrival _ nofun⟩
  · exact ⟨h.forward, h.sent, hall _, hret arrival _ nofun⟩

theorem knows_sessionStep {s : St} {l : Label} {peerSent nodeSent : List Bytes} {t t' : Session}
    (hl : l.session? = some p) (h : Knows peerSent nodeSent t)
    (hstep : sessionStep maxInstant cfg s t l = some t') :
    Knows peerSent (nodeSent ++ (sentTo p l).toList) t' := by
  cases l with
  | nodeSend peer bytes =>
    obtain rfl := Option.some.inj hl
    obtain rfl := Option.some.inj hstep
    refine ⟨h.forward, ?_, ?_, h.ret⟩
    · rw [h.sent, sentTo, if_pos rfl]
      rfl
    · rw [← h.read, List.append_assoc]
  | read peer =>
    obtain rfl := Option.some.inj hl
    rw [show (sentTo peer (.read peer)).toList = [] from rfl, List.append_nil]
    exact knows_read h hstep
  | readError peer =>
    rw [show (sentTo p (.readError peer)).toList = [] from rfl, List.append_nil]
    simp only [sessionStep] at hstep
    split at hstep
    · obtain rfl := Option.some.inj hstep
      exact ⟨h.forward, h.sent, h.read, h.ret⟩
    · cases hstep
  | forwardWork peer l =>
    rw [show (sentTo p (.forwardWork peer l)).toList = [] from rfl, List.append_nil]
    obtain ⟨f, hw, rfl⟩ := Option.map_eq_some_iff.1 hstep
    have hsame := (Flow.places_worked (Flow.work_cases hw)).2
    exact ⟨by rw [hsame]; exact h.forward, h.sent, h.read, h.ret⟩
  | retWork peer l =>
    rw [show (sentTo p (.retWork peer l)).toList = [] from rfl, List.append_nil]
    obtain ⟨f, hw, rfl⟩ := Option.map_eq_some_iff.1 hstep
    have hsame := (Flow.places_worked (Flow.work_cases hw)).2
    exact ⟨h.forward, h.sent, h.read, by rw [hsame]; exact h.ret⟩
  | _ => cases hl

/-- What a session that a datagram found or made knew before. -/
theorem knows_began {s : St} {peerSent nodeSent : List Bytes} {t : Session}
    (h : ∀ t, s.sessions.lookup p = some t → Knows peerSent nodeSent t)
    (ht : Began cfg s p t) :
    Knows (arrived p none s peerSent) (arrived p none s nodeSent) t := by
  unfold arrived
  rcases ht with ht | ⟨hn, rfl⟩
  · have hp : p ∈ s.sessions := Table.mem_of_lookup ht
    rw [if_pos hp, if_pos hp, Option.toList_none, List.append_nil, List.append_nil]
    exact h t ht
  · have hp : p ∉ s.sessions := AList.lookup_eq_none.1 hn
    rw [if_neg hp, if_neg hp]
    exact knows_new s.now

theorem arrived_some (s : St) (bytes : Bytes) (before : List Bytes) :
    arrived p (some bytes) s before = arrived p none s before ++ [bytes] := by
  unfold arrived
  rw [Option.toList_none, List.append_nil]
  rfl

theorem arrived_of_session {s : St} {t : Session} (ht : s.sessions.lookup p = some t)
    (incoming : Option Bytes) (before : List Bytes) :
    arrived p incoming s before = before ++ incoming.toList := by
  rw [arrived, if_pos (Table.mem_of_lookup ht)]

theorem knows_step {s s' : St} {l : Label} {peerSent nodeSent : List Bytes}
    (h : ∀ t, s.sessions.lookup p = some t → Knows peerSent nodeSent t)
    (hstep : step maxInstant cfg s l = some s') {t' : Session}
    (ht' : s'.sessions.lookup p = some t') :
    Knows (arrived p (taken cfg p s l) s peerSent) (arrived p (sentTo p l) s nodeSent) t' := by
  rcases session_cases hstep ht' with ⟨t, hbegan, hother, hres⟩ | ⟨t, ht, hl, hown⟩
  · have hknows := knows_began h hbegan
    rw [sentTo_of_other hother]
    rcases hres with ⟨hnone, rfl⟩ | ⟨bytes, hsome, rfl⟩
    · rwa [hnone]
    · rw [hsome, arrived_some]
      exact knows_offer bytes hknows
  · rw [taken_of_session hl, arrived_of_session ht, arrived_of_session ht, Option.toList_none,
      List.append_nil]
    exact knows_sessionStep hl (h t ht) hown

/-- What a session knows at the end of a run, from what it knew at the start. -/
theorem knows_run {s s' : St} {ls : List Label} (hrun : (system maxInstant cfg).Run s ls s')
    {peerSent nodeSent : List Bytes}
    (h : ∀ t, s.sessions.lookup p = some t → Knows peerSent nodeSent t) {t' : Session}
    (ht' : s'.sessions.lookup p = some t') :
    Knows (sinceBegan maxInstant cfg p (taken cfg p) peerSent s ls)
      (sinceBegan maxInstant cfg p (fun _ => sentTo p) nodeSent s ls) t' := by
  induction hrun generalizing peerSent nodeSent with
  | nil s => exact h t' ht'
  | @cons s u s' l ls hs hrun ih =>
    have hnext := ih (fun t => knows_step h hs) ht'
    have hsome : step maxInstant cfg s l = some u := hs
    simpa only [sinceBegan, hsome] using hnext

/-- At first there is no session, and nothing has come in. -/
theorem knows_of_init {s₀ s : St} {ls : List Label} (h0 : s₀.sessions = ∅)
    (hrun : (system maxInstant cfg).Run s₀ ls s) {t : Session}
    (ht : s.sessions.lookup p = some t) :
    Knows (fromPeer maxInstant cfg p s₀ ls) (fromNode maxInstant cfg p s₀ ls) t := by
  apply knows_run hrun _ ht
  intro t ht
  rw [h0] at ht
  cases ht

/-! ## What is delivered -/

/-- What has come in is in one place, and nothing else is: with `Flow.places`, handed over,
waiting in the channel or the heap, dropped or lost, and on the way back also not taken for
a blocked link, or not yet read. -/
structure Delivers (peerSent nodeSent : List Bytes) (t : Session) : Prop where
  forward : peerSent.Perm (t.forward.places.map Datagram.bytes)
  ret : nodeSent.Perm (t.ret.places.map Datagram.bytes ++
    (t.reads.filter fun r => r.2 = .blocked).map Prod.fst ++ t.inbox)

/-- **Delivery.** In every run of a relay, on both legs of every session, of what came in
since the session began. -/
theorem relay_delivers {s₀ s : St} {ls : List Label} (h0 : s₀.sessions = ∅)
    (hrun : (system maxInstant cfg).Run s₀ ls s) {t : Session}
    (ht : s.sessions.lookup p = some t) :
    Delivers (fromPeer maxInstant cfg p s₀ ls) (fromNode maxInstant cfg p s₀ ls) t := by
  have hknows := knows_of_init h0 hrun ht
  obtain ⟨hforward, hret⟩ := legs_flowInv ⟨s₀, ls, h0, hrun⟩ ht
  constructor
  · rw [← hknows.forward]
    exact hforward.perm.map _
  have hsplit : ((t.reads.filter fun r => r.2 ≠ .blocked).map Prod.fst ++
      (t.reads.filter fun r => r.2 = .blocked).map Prod.fst).Perm (t.reads.map Prod.fst) := by
    rw [← List.map_append]
    refine List.Perm.map _ (.trans ?_ (List.filter_append_perm (fun r => r.2 ≠ .blocked) t.reads))
    simp
  rw [← hknows.sent, ← hknows.read]
  refine .append_right _ (hsplit.symm.trans (.append_right _ ?_))
  rw [← hknows.ret]
  exact hret.perm.map _

/-- The worker takes a datagram without delay and gives it to the socket. -/
def passOn (work : WorkerLabel → Label) (ok : Bool) : List Label :=
  [work .park, work (.recv (some 0)), work .wake, work (.drain ok)]

/-- For the first datagram no session can be made. Then the peer sends three, of which the
socket refuses the second, and the node four: the link back is blocked as the second is
read, and the last one is not read yet. -/
def exchange : List Label :=
  [.datagram peer1 [9] false peer1, .datagram peer1 [1] true peer1,
    .datagram peer1 [2] true peer1, .datagram peer1 [3] true peer1, .forwardWork peer1 .wake] ++
  passOn (.forwardWork peer1) true ++ passOn (.forwardWork peer1) false ++
  passOn (.forwardWork peer1) true ++
  [.nodeSend peer1 [4], .nodeSend peer1 [5], .nodeSend peer1 [6], .nodeSend peer1 [7],
    .read peer1, .setBlocked [(0, 1)], .read peer1, .setBlocked [], .read peer1,
    .retWork peer1 .wake] ++
  passOn (.retWork peer1) true ++ passOn (.retWork peer1) true

theorem exchange_delivers : ∃ t : Session, t.forward.sent.map Datagram.bytes = [[1], [3]] ∧
    t.ret.sent.map Datagram.bytes = [[4], [6]] ∧ t.inbox = [[7]] ∧
    Delivers [[1], [2], [3]] [[4], [5], [6], [7]] t := by
  obtain ⟨s, t, hrun, ht, hsent, hret, hinbox⟩ : ∃ (s : St) (t : Session),
      (system 1000 plainRelay).Run ⟨0, 0, [], ∅, ∅⟩ exchange s ∧
      s.sessions.lookup peer1 = some t ∧ t.forward.sent.map Datagram.bytes = [[1], [3]] ∧
      t.ret.sent.map Datagram.bytes = [[4], [6]] ∧ t.inbox = [[7]] :=
    ⟨_, _, LTS.ofFn_run_iff.2 rfl, rfl, rfl, rfl, rfl⟩
  exact ⟨t, hsent, hret, hinbox, relay_delivers rfl hrun ht⟩

/-- **Order.** In a run in which no stall holds up the link of a leg with no or a fixed delay,
what the leg has sent is a subsequence of what came in since the session began. -/
theorem relay_delivers_in_order {s₀ s : St} {ls : List Label} (h0 : s₀.sessions = ∅)
    {t : Session} (ht : s.sessions.lookup p = some t) :
    (∀ d, constantDelay (cfg.latency.resolve (peerIndex cfg p) cfg.nodeId) = some d →
      ((system maxInstant cfg).restrict (Unstalled (peerIndex cfg p) cfg.nodeId)).Run s₀ ls s →
        (t.forward.sent.map Datagram.bytes).Sublist (fromPeer maxInstant cfg p s₀ ls)) ∧
      ∀ d, constantDelay (cfg.latency.resolve cfg.nodeId (peerIndex cfg p)) = some d →
        ((system maxInstant cfg).restrict (Unstalled cfg.nodeId (peerIndex cfg p))).Run s₀ ls s →
          (t.ret.sent.map Datagram.bytes).Sublist (fromNode maxInstant cfg p s₀ ls) := by
  refine ⟨fun d hd hrun => ?_, fun d hd hrun => ?_⟩
  · have horder := (relay_in_order ht).1 d hd ⟨s₀, ls, h0, hrun⟩
    have hknows := knows_of_init h0 hrun.of_restrict ht
    rw [← hknows.forward]
    exact horder.subsequence.map _
  · have horder := (relay_in_order ht).2 d hd ⟨s₀, ls, h0, hrun⟩
    have hknows := knows_of_init h0 hrun.of_restrict ht
    have hread : (t.ret.offered.map Datagram.bytes).Sublist t.nodeSent := by
      rw [hknows.ret, ← hknows.read]
      exact (List.filter_sublist.map _).trans (List.sublist_append_left _ _)
    rw [← hknows.sent]
    exact (horder.subsequence.map _).trans hread

theorem exchange_in_order : ∃ t : Session, t.forward.sent.map Datagram.bytes = [[1], [3]] ∧
    (t.forward.sent.map Datagram.bytes).Sublist [[1], [2], [3]] ∧
    t.ret.sent.map Datagram.bytes = [[4], [6]] ∧
    (t.ret.sent.map Datagram.bytes).Sublist [[4], [5], [6], [7]] := by
  obtain ⟨s, t, hforward, hret, ht, hsent, hback⟩ : ∃ (s : St) (t : Session),
      ((system 1000 plainRelay).restrict (Unstalled 1 0)).Run ⟨0, 0, [], ∅, ∅⟩ exchange s ∧
      ((system 1000 plainRelay).restrict (Unstalled 0 1)).Run ⟨0, 0, [], ∅, ∅⟩ exchange s ∧
      s.sessions.lookup peer1 = some t ∧ t.forward.sent.map Datagram.bytes = [[1], [3]] ∧
      t.ret.sent.map Datagram.bytes = [[4], [6]] :=
    ⟨_, _, LTS.restrict_run_of_exec rfl, LTS.restrict_run_of_exec rfl, rfl, rfl, rfl⟩
  have h0 : (⟨0, 0, [], ∅, ∅⟩ : St).sessions = ∅ := rfl
  exact ⟨t, hsent, (relay_delivers_in_order h0 ht).1 0 rfl hforward, hback,
    (relay_delivers_in_order h0 ht).2 0 rfl hret⟩

end Hoprd.Localcluster.Relay
