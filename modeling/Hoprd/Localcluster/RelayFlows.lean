import Hoprd.Localcluster.Relay

/-!
# The legs of a relay as flows

The two legs of every session in the table are flows of their own, shaped by the
delays of their directed links: whatever happens in the relay, each of them sees
a run of `flowSystem`. So what holds of every run of a flow holds of the legs.

* `flows_reachable`: when every arrival the relay records on a link is `R`-related to
  the clock, both legs of every session are reachable in a flow of which this holds.
* `relay_conserves`: a leg loses, doubles and makes up no datagram.
* `relay_in_order`: while its own link does not stall, a leg with no or a fixed delay
  sends in the order in which the datagrams came.
-/
namespace Hoprd.Localcluster.Relay

open Core
open Hoprd.Localcluster.Flow (WorkerLabel)

/-- Arrivals are `R`-related to the clock at which they are recorded. -/
def Stamped (R : Instant → Instant → Prop) (s : FlowSt) : FlowLabel → Prop
  | .enqueue arrival _ => R s.now arrival
  | .tick _ | .hangup | .work _ => True

/-- The runs of a flow with this delay whose arrivals satisfy `R`. -/
def stampedFlow (maxInstant : Instant) (R : Instant → Instant → Prop) (delay : Option DelayDist) :
    LTS FlowSt FlowLabel :=
  (flowSystem maxInstant delay).restrict (Stamped R)

section
variable {maxInstant : Instant} {R : Instant → Instant → Prop} {delay : Option DelayDist}
  {now : Instant} {f : Flow}

theorem flow_tick {now' : Instant} (h : (stampedFlow maxInstant R delay).Reachable ⟨now, f⟩)
    (hle : now ≤ now') : (stampedFlow maxInstant R delay).Reachable ⟨now', f⟩ :=
  h.step (l := .tick now') ⟨if_pos hle, trivial⟩

theorem flow_enqueue (h : (stampedFlow maxInstant R delay).Reachable ⟨now, f⟩)
    (hs : f.sender = true) {arrival : Instant} (hR : R now arrival) (bytes : Bytes) :
    (stampedFlow maxInstant R delay).Reachable ⟨now, (f.trySend arrival bytes).1⟩ :=
  h.step (l := .enqueue arrival bytes) ⟨if_pos hs, hR⟩

theorem flow_hangup (h : (stampedFlow maxInstant R delay).Reachable ⟨now, f⟩) :
    (stampedFlow maxInstant R delay).Reachable ⟨now, f.hangup⟩ :=
  h.step (l := .hangup) ⟨rfl, trivial⟩

theorem flow_work {f' : Flow} {l : WorkerLabel}
    (h : (stampedFlow maxInstant R delay).Reachable ⟨now, f⟩)
    (hw : f.work maxInstant now l = some f') :
    (stampedFlow maxInstant R delay).Reachable ⟨now, f'⟩ :=
  h.step (l := .work l) ⟨congrArg (Option.map _) hw, trivial⟩

/-- A flow whose arrivals are the clock accepts nothing from the future. -/
theorem accepted_le_step {s s' : FlowSt} {l : FlowLabel}
    (hs : flowStep maxInstant s l = some s') (hC : Stamped (fun now arrival => arrival = now) s l)
    (hi : ∀ d ∈ s.flow.accepted, d.arrival ≤ s.now) :
    ∀ d ∈ s'.flow.accepted, d.arrival ≤ s'.now := by
  rcases flowStep_cases hs with ⟨t, -, ht, rfl⟩ | ⟨arrival, bytes, rfl, -, rfl⟩ | ⟨-, rfl⟩ |
    ⟨f, l', -, hw, rfl⟩
  · intro d hd
    exact Nat.le_trans (hi d hd) ht
  · have hnow : arrival = s.now := hC
    obtain ⟨-, h⟩ | ⟨-, -, h⟩ | ⟨-, -, h⟩ := s.flow.trySend_cases arrival bytes <;> simp only [h]
    · exact hi
    · exact hi
    · intro d hd
      simp only [List.mem_append, List.mem_singleton] at hd
      rcases hd with hd | hd
      · exact hi d hd
      · subst hd
        exact Nat.le_of_eq hnow
  · exact hi
  · simp only [Flow.worked_accepted hw]
    exact hi

/-- Arrivals taken from the clock do not go back. -/
theorem inArrivalOrder_of_stamped (s : FlowSt)
    (h : (stampedFlow maxInstant (fun now arrival => arrival = now) delay).Reachable s) :
    ((flowSystem maxInstant delay).restrict InArrivalOrder).Reachable s := by
  have hI : (stampedFlow maxInstant (fun now arrival => arrival = now) delay).Inductive fun s =>
      (∀ d ∈ s.flow.accepted, d.arrival ≤ s.now) ∧
        ((flowSystem maxInstant delay).restrict InArrivalOrder).Reachable s := by
    constructor
    · intro s h0
      have hnew : s.flow = .new delay := h0
      exact ⟨by rw [hnew]; nofun, .init h0⟩
    · intro s l s' hi hs
      obtain ⟨hle, hr⟩ := hi
      refine ⟨accepted_le_step hs.1 hs.2 hle, hr.step (l := l) ⟨hs.1, ?_⟩⟩
      cases l with
      | enqueue arrival bytes =>
        have hnow : arrival = s.now := hs.2
        intro _ d hd
        rw [hnow]
        exact hle d hd
      | tick t => trivial
      | hangup => trivial
      | work l => trivial
  exact (hI.reachable s h).2

end

section
variable {maxInstant : Instant} {cfg : RelayConfig} {R : Nat × Nat → Instant → Instant → Prop}

/-- Every arrival the relay can record now satisfies the `R` of its link. -/
def Stamps (R : Nat × Nat → Instant → Instant → Prop) (s : St) (_ : Label) : Prop :=
  ∀ src dst, R (src, dst) s.now (s.arrivalOn src dst)

/-- The legs of a session with `p` are reachable flows, and their senders are
there as long as the session and its reader are. -/
structure FlowsReachable (maxInstant : Instant) (cfg : RelayConfig)
    (R : Nat × Nat → Instant → Instant → Prop) (now : Instant) (p : SocketAddr) (t : Session) :
    Prop where
  forward : (stampedFlow maxInstant (R (peerIndex cfg p, cfg.nodeId))
    (cfg.latency.resolve (peerIndex cfg p) cfg.nodeId)).Reachable ⟨now, t.forward⟩
  ret : (stampedFlow maxInstant (R (cfg.nodeId, peerIndex cfg p))
    (cfg.latency.resolve cfg.nodeId (peerIndex cfg p))).Reachable ⟨now, t.ret⟩
  forwardSender : t.forward.sender = true
  retSender : t.reader = true → t.ret.sender = true

theorem flowsReachable_new (now : Instant) (p : SocketAddr) :
    FlowsReachable maxInstant cfg R now p (newUpstream cfg now p) where
  forward := .init rfl
  ret := .init rfl
  forwardSender := rfl
  retSender _ := rfl

theorem flowsReachable_offer {s : St} {p : SocketAddr} {t : Session}
    (hR : ∀ src dst, R (src, dst) s.now (s.arrivalOn src dst))
    (hi : FlowsReachable maxInstant cfg R s.now p t) (bytes : Bytes) :
    FlowsReachable maxInstant cfg R s.now p (t.offer cfg s p bytes) := by
  have hsender := t.forward.trySend_sender (s.arrivalOn (peerIndex cfg p) cfg.nodeId) bytes
  exact { hi with
    forward := flow_enqueue hi.forward hi.forwardSender (hR _ _) bytes
    forwardSender := hsender.trans hi.forwardSender }

theorem flowsReachable_read {s : St} {p : SocketAddr} {t t' : Session}
    (hR : ∀ src dst, R (src, dst) s.now (s.arrivalOn src dst))
    (hi : FlowsReachable maxInstant cfg R s.now p t) (h : t.read cfg s p = some t') :
    FlowsReachable maxInstant cfg R s.now p t' := by
  obtain ⟨bytes, inbox, hr, -, hres⟩ := read_cases h
  have hret := flow_enqueue hi.ret (hi.retSender hr) (hR cfg.nodeId (peerIndex cfg p)) bytes
  have hsender := t.ret.trySend_sender (s.arrivalOn cfg.nodeId (peerIndex cfg p)) bytes
  obtain ⟨-, rfl⟩ | ⟨arrival, rfl, -, ⟨-, -, rfl⟩ | ⟨-, -, rfl⟩ | ⟨-, rfl⟩⟩ := hres
  · exact { hi with }
  · exact { hi with ret := hret, retSender := fun _ => hsender.trans (hi.retSender hr) }
  · exact { hi with ret := hret, retSender := fun _ => hsender.trans (hi.retSender hr) }
  · exact { hi with ret := flow_hangup hret, retSender := nofun }

theorem flowsReachable_sessionStep {s : St} {l : Label} {p : SocketAddr} {t t' : Session}
    (hR : ∀ src dst, R (src, dst) s.now (s.arrivalOn src dst)) (hl : l.session? = some p)
    (hi : FlowsReachable maxInstant cfg R s.now p t)
    (h : sessionStep maxInstant cfg s t l = some t') :
    FlowsReachable maxInstant cfg R s.now p t' := by
  cases l with
  | nodeSend _ bytes =>
    obtain rfl := Option.some.inj h
    exact { hi with }
  | read peer =>
    obtain rfl := Option.some.inj hl
    exact flowsReachable_read hR hi h
  | readError peer =>
    simp only [sessionStep] at h
    split at h
    · obtain rfl := Option.some.inj h
      have hended : t.endReader.reader = true → t.endReader.ret.sender = true := by
        intro hr
        cases hr
      exact { hi with ret := flow_hangup hi.ret, retSender := hended }
    · cases h
  | forwardWork peer l =>
    obtain ⟨f, hw, rfl⟩ := Option.map_eq_some_iff.1 h
    have hsender := Flow.worked_sender (Flow.work_cases hw)
    exact { hi with
      forward := flow_work hi.forward hw, forwardSender := hsender.trans hi.forwardSender }
  | retWork peer l =>
    obtain ⟨f, hw, rfl⟩ := Option.map_eq_some_iff.1 h
    have hsender := Flow.worked_sender (Flow.work_cases hw)
    exact { hi with
      ret := flow_work hi.ret hw, retSender := fun hr => hsender.trans (hi.retSender hr) }
  | _ => cases hl

theorem flowsReachable_inductive (maxInstant : Instant) (cfg : RelayConfig)
    (R : Nat × Nat → Instant → Instant → Prop) :
    ((system maxInstant cfg).restrict (Stamps R)).Inductive
      (PerSession (FlowsReachable maxInstant cfg R)) where
  init s h0 p t ht := by rw [show s.sessions = ∅ from h0] at ht; cases ht
  step s l s' hi hs := by
    obtain ⟨hs, hR⟩ := hs
    refine PerSession.step hs hi ?_ ?_ ?_ ?_
    · intro now p t hle h
      exact { h with forward := flow_tick h.forward hle, ret := flow_tick h.ret hle }
    · exact flowsReachable_new s.now
    · intro p t bytes h
      exact flowsReachable_offer hR h bytes
    · intro p t t' hl _ h hf
      exact flowsReachable_sessionStep hR hl h hf

/-- **Legs are flows.** In every run of the relay in which all recorded arrivals
satisfy `R`. -/
theorem flows_reachable (maxInstant : Instant) (cfg : RelayConfig)
    (R : Nat × Nat → Instant → Instant → Prop) (s : St)
    (h : ((system maxInstant cfg).restrict (Stamps R)).Reachable s) :
    PerSession (FlowsReachable maxInstant cfg R) s :=
  (flowsReachable_inductive maxInstant cfg R).reachable s h

/-- What holds of a flow at any time holds of both legs of a session. -/
theorem legs_flowInv {s : St} {p : SocketAddr} {t : Session}
    (h : (system maxInstant cfg).Reachable s) (ht : s.sessions.lookup p = some t) :
    FlowInv (cfg.latency.resolve (peerIndex cfg p) cfg.nodeId) ⟨s.now, t.forward⟩ ∧
      FlowInv (cfg.latency.resolve cfg.nodeId (peerIndex cfg p)) ⟨s.now, t.ret⟩ := by
  have hstamps : ((system maxInstant cfg).restrict (Stamps fun _ _ _ => True)).Reachable s :=
    h.mono (fun _ h0 => h0) fun _ _ _ hs => ⟨hs, fun _ _ => trivial⟩
  have hflows := flows_reachable maxInstant cfg _ s hstamps p t ht
  exact ⟨flowInv_inductive.reachable _ hflows.forward.of_restrict,
    flowInv_inductive.reachable _ hflows.ret.of_restrict⟩

/-- **Conservation in a relay**, on both legs of every session, in every run. -/
theorem relay_conserves {s : St} {p : SocketAddr} {t : Session}
    (h : (system maxInstant cfg).Reachable s) (ht : s.sessions.lookup p = some t) :
    FlowConserved maxInstant (cfg.latency.resolve (peerIndex cfg p) cfg.nodeId)
        ⟨s.now, t.forward⟩ ∧
      FlowConserved maxInstant (cfg.latency.resolve cfg.nodeId (peerIndex cfg p))
        ⟨s.now, t.ret⟩ := by
  obtain ⟨hforward, hret⟩ := legs_flowInv h ht
  exact ⟨hforward.conserved, hret.conserved⟩

/-- No stall holds up what enters the link now. -/
def Unstalled (src dst : Nat) (s : St) (_ : Label) : Prop :=
  stallDelay s.stalled s.wallMs src dst = 0

instance (src dst : Nat) (s : St) (l : Label) : Decidable (Unstalled src dst s l) :=
  inferInstanceAs (Decidable (_ = _))

/-- Arrivals on one link are the clock. -/
def Punctual (src dst : Nat) (link : Nat × Nat) (now arrival : Instant) : Prop :=
  link = (src, dst) → arrival = now

theorem stamps_unstalled {src dst : Nat} {s : St} {l : Label} (h : Unstalled src dst s l) :
    Stamps (Punctual src dst) s l := by
  rintro a b ⟨⟩
  rw [St.arrivalOn, h, Nat.add_zero]

/-- A leg whose arrivals are the clock. -/
theorem sentInOrder_of_punctual {src dst : Nat} {delay : Option DelayDist} {now : Instant}
    {f : Flow} {d : Duration} (hd : constantDelay delay = some d)
    (h : (stampedFlow maxInstant (Punctual src dst (src, dst)) delay).Reachable ⟨now, f⟩) :
    SentInOrder f := by
  have hstamped : (stampedFlow maxInstant (fun now arrival => arrival = now) delay).Reachable
      ⟨now, f⟩ := by
    apply h.restrict_mono
    intro s l hl
    cases l with
    | enqueue arrival bytes => exact hl rfl
    | tick | hangup | work => trivial
  have horder := (orderInv_inductive hd).reachable _ (inArrivalOrder_of_stamped _ hstamped)
  exact horder.2.sentInOrder horder.1

/-- **Order in a relay**: as long as no stall holds up its own link, a leg with no or a
fixed delay sends in the order in which the datagrams came. -/
theorem relay_in_order {s : St} {p : SocketAddr} {t : Session}
    (ht : s.sessions.lookup p = some t) :
    (∀ d, constantDelay (cfg.latency.resolve (peerIndex cfg p) cfg.nodeId) = some d →
      ((system maxInstant cfg).restrict (Unstalled (peerIndex cfg p) cfg.nodeId)).Reachable s →
        SentInOrder t.forward) ∧
    ∀ d, constantDelay (cfg.latency.resolve cfg.nodeId (peerIndex cfg p)) = some d →
      ((system maxInstant cfg).restrict (Unstalled cfg.nodeId (peerIndex cfg p))).Reachable s →
        SentInOrder t.ret := by
  refine ⟨fun d hd h => ?_, fun d hd h => ?_⟩
  · have hstamps := h.restrict_mono fun _ _ hn => stamps_unstalled hn
    exact sentInOrder_of_punctual hd (flows_reachable maxInstant cfg _ s hstamps p t ht).forward
  · have hstamps := h.restrict_mono fun _ _ hn => stamps_unstalled hn
    exact sentInOrder_of_punctual hd (flows_reachable maxInstant cfg _ s hstamps p t ht).ret

end

end Hoprd.Localcluster.Relay
