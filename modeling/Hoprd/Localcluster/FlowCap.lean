import Hoprd.Localcluster.Flow

/-!
# How much one flow buffers (`localcluster/src/relay.rs`, `sender_worker`)

`RELAY_QUEUE_CAP` is meant to bound what the channel and the release heap of a flow hold
together. The channel is bounded by its capacity, and the worker looks at the heap when
it takes a datagram out of the channel: each of the two is bounded, their sum is not.

* `in_flight_cap_iff`: the runs within the cap are those in which whatever the channel
  accepts finds room in both together.
* `channel_fills_behind_heap`: a run that holds one datagram too many.
-/
namespace Hoprd.Localcluster

open Core

/-- Datagrams in the channel and in the release heap. -/
def Flow.buffered (f : Flow) : Nat := f.chan.length + f.heap.size

def InCap (s : FlowSt) : Prop := s.flow.buffered ≤ RELAY_QUEUE_CAP

/-- A datagram offered finds room in channel and heap together, or a full channel. -/
def FindsRoom (s : FlowSt) : FlowLabel → Prop
  | .enqueue _ _ => s.flow.buffered < RELAY_QUEUE_CAP ∨ RELAY_QUEUE_CAP ≤ s.flow.chan.length
  | .tick _ | .hangup | .work _ => True

instance (s : FlowSt) (l : FlowLabel) : Decidable (FindsRoom s l) :=
  match l with
  | .enqueue _ _ => inferInstanceAs (Decidable (_ ∨ _))
  | .tick _ | .hangup | .work _ => inferInstanceAs (Decidable True)

section
variable {maxInstant now : Instant} {delay : Option DelayDist}

/-- The worker moves datagrams from the channel to the heap, or takes them out. -/
theorem Flow.buffered_worked {f f' : Flow} {l : Flow.WorkerLabel}
    (h : f.Worked maxInstant now l f') : f'.buffered ≤ f.buffered := by
  unfold Flow.buffered
  cases h with
  | wake | park | timer => exact Nat.le_refl _
  | drain due e heap ok hp hpop =>
    have he := congrArg List.length (MinHeap.pop_entries hpop)
    rw [List.length_cons] at he
    simp only [MinHeap.size]
    omega
  | closed | panic => exact Nat.zero_le _
  | heapFull next drawn d chan hp hc =>
    simp only [hc, List.length_cons]
    omega
  | push next d chan sampled hp hc =>
    have hpush := (f.heap.push_perm ⟨d.arrival + sampled, f.seq, d, sampled⟩).length_eq
    rw [List.length_cons] at hpush
    simp only [hc, List.length_cons, MinHeap.size, hpush]
    omega
  | overflow next d chan sampled hp hc =>
    simp only [hc, List.length_cons]
    omega

/-- A worker that is gone has left nothing behind. -/
def GoneEmpty (s : FlowSt) : Prop := s.flow.pc = .exited → s.flow.buffered = 0

theorem goneEmpty_inductive : (flowSystem maxInstant delay).Inductive GoneEmpty where
  init s h0 := by
    have h0 : s.flow = .new delay := h0
    intro hp
    rw [h0] at hp
    cases hp
  step s l s' hi hs := by
    rcases flowStep_cases hs with ⟨t, -, -, rfl⟩ | ⟨arrival, bytes, -, -, rfl⟩ | ⟨-, rfl⟩ |
      ⟨f, l', -, hw, rfl⟩
    · exact hi
    · intro hp
      obtain ⟨hx, h⟩ | ⟨hx, -, h⟩ | ⟨hx, -, h⟩ := s.flow.trySend_cases arrival bytes
      · simp only [h]
        exact hi hx
      · simp only [h] at hp
        exact (hx hp).elim
      · simp only [h] at hp
        exact (hx hp).elim
    · exact hi
    · intro hp
      cases hw with
      | closed | panic => rfl
      | drain due e heap ok hp' => exact nomatch hp'.symm.trans hp
      | wake | park | heapFull | push | overflow | timer => cases hp

/-- A step from within the cap stays there exactly if what it offers finds room. -/
theorem findsRoom_iff {s s' : FlowSt} {l : FlowLabel}
    (hr : (flowSystem maxInstant delay).Reachable s) (h : InCap s)
    (hs : flowStep maxInstant s l = some s') : FindsRoom s l ↔ InCap s' := by
  rcases flowStep_cases hs with ⟨t, rfl, -, rfl⟩ | ⟨arrival, bytes, rfl, -, rfl⟩ | ⟨rfl, rfl⟩ |
    ⟨f, l', rfl, hw, rfl⟩
  · exact ⟨fun _ => h, fun _ => trivial⟩
  · obtain ⟨hx, hsend⟩ | ⟨-, hfull, hsend⟩ | ⟨-, hroom, hsend⟩ :=
      s.flow.trySend_cases arrival bytes
    · have hempty := goneEmpty_inductive.reachable s hr hx
      refine ⟨fun _ => ?_, fun _ => .inl (by rw [hempty]; decide)⟩
      simp only [InCap, hsend]
      exact h
    · refine ⟨fun _ => ?_, fun _ => .inr hfull⟩
      simp only [InCap, hsend]
      exact h
    · simp only [FindsRoom, InCap, hsend, Flow.buffered, List.length_append, List.length_singleton]
      omega
  · exact ⟨fun _ => h, fun _ => trivial⟩
  · exact ⟨fun _ => Nat.le_trans (Flow.buffered_worked hw) h, fun _ => trivial⟩

/-- **The runs within the cap are those in which every datagram offered finds room.** -/
theorem in_flight_cap_iff (maxInstant : Instant) (delay : Option DelayDist) {s₀ s : FlowSt}
    {ls : List FlowLabel} (h0 : (flowSystem maxInstant delay).init s₀) :
    ((flowSystem maxInstant delay).restrict FindsRoom).Run s₀ ls s ↔
      (flowSystem maxInstant delay).Throughout InCap s₀ ls s := by
  have hstart : InCap s₀ := by
    have h0 : s₀.flow = .new delay := h0
    unfold InCap
    rw [h0]
    exact Nat.zero_le _
  exact LTS.restrict_run_iff_throughout (fun _ _ _ hr h hs => findsRoom_iff hr h hs) (.init h0)
    hstart

/-- Two datagrams go through the heap to the socket, while two more come in behind them. -/
def fourDatagrams : List FlowLabel :=
  [.enqueue 0 [1], .enqueue 0 [2], .work .wake, .work .park, .work (.recv (some 5)), .work .wake,
    .work .park, .work (.recv (some 5)), .enqueue 0 [3], .work .wake, .work .park, .tick 5,
    .work .timer, .work .wake, .work (.drain true), .work (.drain true), .enqueue 5 [4]]

theorem four_datagrams_in_cap : ∃ s,
    (flowSystem 1000 (some (.fixed 5))).Throughout InCap ⟨0, .new (some (.fixed 5))⟩
      fourDatagrams s ∧ s.flow.handed.length = 2 ∧ s.flow.chan.length = 2 := by
  obtain ⟨s, hrun, hhanded, hchan⟩ : ∃ s,
      ((flowSystem 1000 (some (.fixed 5))).restrict FindsRoom).Run ⟨0, .new (some (.fixed 5))⟩
        fourDatagrams s ∧ s.flow.handed.length = 2 ∧ s.flow.chan.length = 2 :=
    ⟨_, LTS.restrict_run_of_exec rfl, rfl, rfl⟩
  have hinit : (flowSystem 1000 (some (.fixed 5))).init ⟨0, .new (some (.fixed 5))⟩ := rfl
  exact ⟨s, (in_flight_cap_iff 1000 (some (.fixed 5)) hinit).1 hrun, hhanded, hchan⟩

/-! ## One too many -/

/-- While the worker waits, the channel fills up. -/
theorem fill_channel (maxInstant : Instant) (delay : Option DelayDist) {n : Nat} {s : FlowSt}
    (hs : s.flow.sender = true)
    (hp : s.flow.pc ≠ .exited) (hn : s.flow.chan.length + n ≤ RELAY_QUEUE_CAP) :
    ∃ s', (flowSystem maxInstant delay).Run s (List.replicate n (.enqueue 0 [])) s' ∧
      s'.flow.chan.length = s.flow.chan.length + n ∧ s'.flow.heap = s.flow.heap := by
  induction n generalizing s with
  | zero => exact ⟨s, .nil s, rfl, rfl⟩
  | succ n ih =>
    have hstep : flowStep maxInstant s (.enqueue 0 []) =
        some { s with flow := (s.flow.trySend 0 []).1 } := if_pos hs
    obtain ⟨hx, -⟩ | ⟨-, hfull, -⟩ | ⟨-, -, hsend⟩ := s.flow.trySend_cases 0 []
    · exact (hp hx).elim
    · omega
    · rw [hsend] at hstep
      obtain ⟨s', hrun, hchan, hheap⟩ := ih (s := { s with flow := { s.flow with
        offered := s.flow.offered ++ [⟨s.flow.offered.length, 0, []⟩]
        chan := s.flow.chan ++ [⟨s.flow.offered.length, 0, []⟩]
        accepted := s.flow.accepted ++ [⟨s.flow.offered.length, 0, []⟩] } }) hs hp (by
          simp only [List.length_append, List.length_singleton]
          omega)
      refine ⟨s', .cons hstep hrun, ?_, hheap⟩
      rw [hchan]
      simp only [List.length_append, List.length_singleton]
      omega

end

/-- A datagram held for 80 ns, and 1024 more before its release. -/
def crowded : List FlowLabel :=
  [.enqueue 0 [], .work .wake, .work .park, .work (.recv (some 80))] ++
    List.replicate RELAY_QUEUE_CAP (.enqueue 0 [])

theorem channel_fills_behind_heap :
    (∃ s, (flowSystem 1000 (some (.fixed 80))).Run ⟨0, .new (some (.fixed 80))⟩ crowded s ∧
      s.flow.buffered = RELAY_QUEUE_CAP + 1) ∧
    ¬ ∀ (maxInstant : Instant) (delay : Option DelayDist) (s : FlowSt),
      (flowSystem maxInstant delay).Reachable s → InCap s := by
  obtain ⟨s, hrun, hsender, hpc, hchan, hheap⟩ : ∃ s : FlowSt,
      (flowSystem 1000 (some (.fixed 80))).Run ⟨0, .new (some (.fixed 80))⟩
        [.enqueue 0 [], .work .wake, .work .park, .work (.recv (some 80))] s ∧
      s.flow.sender = true ∧ s.flow.pc = .top ∧ s.flow.chan = [] ∧ s.flow.heap.size = 1 :=
    ⟨_, LTS.ofFn_run_iff.2 rfl, rfl, rfl, rfl, rfl⟩
  obtain ⟨s', hrun', hchan', hheap'⟩ := fill_channel 1000 (some (.fixed 80))
    (n := RELAY_QUEUE_CAP) hsender (by rw [hpc]; exact nofun)
    (by rw [hchan]; exact Nat.le_of_eq (Nat.zero_add _))
  have hbuffered : s'.flow.buffered = RELAY_QUEUE_CAP + 1 := by
    rw [Flow.buffered, hchan', hheap', hheap, hchan, List.length_nil, Nat.zero_add]
  refine ⟨⟨s', hrun.append hrun', hbuffered⟩, fun h => ?_⟩
  have hinit : (flowSystem 1000 (some (.fixed 80))).init ⟨0, .new (some (.fixed 80))⟩ := rfl
  have hcap := h 1000 _ s' ⟨_, _, hinit, hrun.append hrun'⟩
  unfold InCap at hcap
  omega

end Hoprd.Localcluster
