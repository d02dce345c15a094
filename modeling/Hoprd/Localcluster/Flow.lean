import Hoprd.Core.LTS
import Hoprd.Core.MinHeap
import Hoprd.Localcluster.Latency
import Mathlib.Data.Prod.Lex

/-!
# One directed flow of the relay (`localcluster/src/relay.rs`, `sender_worker`)

A flow is a bounded channel and the worker that empties it. The worker moves
datagrams from the channel into a heap ordered by release time (arrival plus a
sampled delay, ties broken by a sequence counter) and hands those that are due
to the socket. Around it, senders put datagrams into the channel without waiting
and the clock advances; every order of these steps is a run.

* `flow_conserves`: every datagram offered is in exactly one place, nothing
  reaches the socket twice or early, and what leaves the heap is its least.
* `flow_in_order`: with no or a fixed delay, and arrivals that do not go back,
  datagrams leave in the order they were offered.

Datagrams carry a serial number, their position among all those offered, so
that equal payloads stay apart. The sequence counter is not bounded by 64 bits.
When the worker ends, what it still held is `lost`.
-/
namespace Hoprd.Localcluster

open Core

/-- mirrors localcluster/src/relay.rs:51 -/
def RELAY_QUEUE_CAP : Nat := 1024

structure Datagram where
  serial : Nat
  arrival : Instant
  bytes : Bytes
  deriving DecidableEq, Repr

/-- An entry of the release heap, with the delay that was drawn for it. -/
structure Entry where
  release : Instant
  seq : Nat
  datagram : Datagram
  sampled : Duration
  deriving DecidableEq, Repr

/-- The order of the heap: release instant, then sequence number. -/
def Entry.key (e : Entry) : Lex (Instant × Nat) := toLex (e.release, e.seq)

/-- A datagram given to the socket: when, and whether the send succeeded. -/
structure Handed where
  entry : Entry
  time : Instant
  ok : Bool
  deriving DecidableEq, Repr

inductive DropReason where
  | channelFull
  | heapFull
  | releaseOverflow
  deriving DecidableEq, Repr

/-- Where the worker is: at the top of its loop, sending what is due at the
instant it read there, waiting for a datagram or for the next release, or gone. -/
inductive WorkerPc where
  | top
  | draining (now : Instant)
  | selecting (nextRelease : Option Instant)
  | exited
  deriving DecidableEq, Repr

structure Flow where
  delay : Option DelayDist
  /-- the sender end still exists -/
  sender : Bool
  chan : List Datagram
  heap : MinHeap Entry.key
  seq : Nat
  pc : WorkerPc
  /-- ghost: everything `try_send` was called with -/
  offered : List Datagram
  /-- ghost: what it accepted -/
  accepted : List Datagram
  handed : List Handed
  dropped : List (Datagram × DropReason)
  lost : List Datagram

namespace Flow

def new (delay : Option DelayDist) : Flow where
  delay := delay
  sender := true
  chan := []
  heap := .empty
  seq := 0
  pc := .top
  offered := []
  accepted := []
  handed := []
  dropped := []
  lost := []

inductive TrySend where
  | ok | full | closed
  deriving DecidableEq, Repr

/-- `tx.try_send((arrival, bytes))` -/
def trySend (f : Flow) (arrival : Instant) (bytes : Bytes) : Flow × TrySend :=
  let d : Datagram := ⟨f.offered.length, arrival, bytes⟩
  let f := { f with offered := f.offered ++ [d] }
  if f.pc = .exited then ({ f with lost := f.lost ++ [d] }, .closed)
  else if RELAY_QUEUE_CAP ≤ f.chan.length then
    ({ f with dropped := f.dropped ++ [(d, .channelFull)] }, .full)
  else ({ f with chan := f.chan ++ [d], accepted := f.accepted ++ [d] }, .ok)

/-- The sender end is dropped. -/
def hangup (f : Flow) : Flow := { f with sender := false }

/-- The worker ends and drops what it and the channel hold. -/
def exit (f : Flow) (rest : List Datagram) : Flow :=
  { f with
    pc := .exited
    chan := []
    heap := .empty
    lost := f.lost ++ f.heap.entries.map Entry.datagram ++ rest }

/-- `Instant::checked_add`, up to the platform's last instant. -/
def checkedAdd (maxInstant : Instant) (t : Instant) (d : Duration) : Option Instant :=
  if t + d ≤ maxInstant then some (t + d) else none

inductive WorkerLabel where
  | wake
  | drain (ok : Bool)
  | park
  | recv (drawn : Option Duration)
  | timer
  deriving DecidableEq, Repr

/-- One step of the worker at time `now`.
mirrors localcluster/src/relay.rs:329-372 -/
def work (maxInstant now : Instant) (f : Flow) : WorkerLabel → Option Flow
  | .wake =>
    match f.pc with
    | .top => some { f with pc := .draining now }
    | _ => none
  | .drain ok =>
    match f.pc, f.heap.pop? with
    | .draining due, some (e, heap) =>
      if e.release ≤ due then
        some { f with heap := heap, handed := f.handed ++ [⟨e, now, ok⟩] }
      else none
    | _, _ => none
  | .park =>
    match f.pc with
    | .draining due =>
      if ∀ e ∈ f.heap.peek?, due < e.release then
        some { f with pc := .selecting (f.heap.peek?.map Entry.release) }
      else none
    | _ => none
  | .recv drawn =>
    match f.pc, f.chan with
    | .selecting _, [] => if f.sender then none else some (f.exit [])
    | .selecting _, d :: chan =>
      if RELAY_QUEUE_CAP ≤ f.heap.size then
        some { f with pc := .top, chan := chan, dropped := f.dropped ++ [(d, .heapFull)] }
      else if draws f.delay drawn then
        match drawn with
        | none => some (f.exit (d :: chan))
        | some sampled =>
          match checkedAdd maxInstant d.arrival sampled with
          | some release =>
            some { f with
              pc := .top
              chan := chan
              heap := f.heap.push ⟨release, f.seq, d, sampled⟩
              seq := f.seq + 1 }
          | none =>
            some { f with
              pc := .top, chan := chan, dropped := f.dropped ++ [(d, .releaseOverflow)] }
      else none
    | _, _ => none
  | .timer =>
    match f.pc with
    | .selecting (some release) => if release ≤ now then some { f with pc := .top } else none
    | _ => none

end Flow

/-- A flow and the clock. -/
structure FlowSt where
  now : Instant
  flow : Flow

inductive FlowLabel where
  | tick (t : Instant)
  | enqueue (arrival : Instant) (bytes : Bytes)
  | hangup
  | work (l : Flow.WorkerLabel)

def flowStep (maxInstant : Instant) (s : FlowSt) : FlowLabel → Option FlowSt
  | .tick t => if s.now ≤ t then some { s with now := t } else none
  | .enqueue arrival bytes =>
    if s.flow.sender then some { s with flow := (s.flow.trySend arrival bytes).1 } else none
  | .hangup => some { s with flow := s.flow.hangup }
  | .work l => (s.flow.work maxInstant s.now l).map fun f => { s with flow := f }

/-- The runs of a flow with the given delay, started at any time. -/
def flowSystem (maxInstant : Instant) (delay : Option DelayDist) : LTS FlowSt FlowLabel :=
  .ofFn (fun s => s.flow = .new delay) (flowStep maxInstant)

/-! ## What a step does -/

namespace Flow

variable {maxInstant now : Instant} {f f' : Flow}

/-- The three outcomes of `try_send`. -/
theorem trySend_cases (f : Flow) (arrival : Instant) (bytes : Bytes) :
    let d : Datagram := ⟨f.offered.length, arrival, bytes⟩
    let g := { f with offered := f.offered ++ [d] }
    (f.pc = .exited ∧ f.trySend arrival bytes = ({ g with lost := f.lost ++ [d] }, .closed)) ∨
    (f.pc ≠ .exited ∧ RELAY_QUEUE_CAP ≤ f.chan.length ∧
      f.trySend arrival bytes = ({ g with dropped := f.dropped ++ [(d, .channelFull)] }, .full)) ∨
    (f.pc ≠ .exited ∧ f.chan.length < RELAY_QUEUE_CAP ∧
      f.trySend arrival bytes =
        ({ g with chan := f.chan ++ [d], accepted := f.accepted ++ [d] }, .ok)) := by
  intro d g
  unfold trySend
  by_cases hp : f.pc = .exited
  · exact .inl ⟨hp, if_pos hp⟩
  · by_cases hc : RELAY_QUEUE_CAP ≤ f.chan.length
    · exact .inr (.inl ⟨hp, hc, (if_neg hp).trans (if_pos hc)⟩)
    · exact .inr (.inr ⟨hp, Nat.lt_of_not_le hc, (if_neg hp).trans (if_neg hc)⟩)

/-- Everything the worker can do. -/
inductive Worked (maxInstant now : Instant) (f : Flow) : WorkerLabel → Flow → Prop
  | wake (hp : f.pc = .top) : Worked maxInstant now f .wake { f with pc := .draining now }
  | drain (due : Instant) (e : Entry) (heap : MinHeap Entry.key) (ok : Bool)
      (hp : f.pc = .draining due) (hpop : f.heap.pop? = some (e, heap)) (hdue : e.release ≤ due) :
      Worked maxInstant now f (.drain ok)
        { f with heap := heap, handed := f.handed ++ [⟨e, now, ok⟩] }
  | park (due : Instant) (hp : f.pc = .draining due)
      (hdue : ∀ e ∈ f.heap.peek?, due < e.release) :
      Worked maxInstant now f .park
        { f with pc := .selecting (f.heap.peek?.map Entry.release) }
  | closed (next : Option Instant) (drawn : Option Duration) (hp : f.pc = .selecting next)
      (hc : f.chan = []) (hs : f.sender = false) : Worked maxInstant now f (.recv drawn) (f.exit [])
  | heapFull (next : Option Instant) (drawn : Option Duration) (d : Datagram)
      (chan : List Datagram) (hp : f.pc = .selecting next) (hc : f.chan = d :: chan)
      (hf : RELAY_QUEUE_CAP ≤ f.heap.size) :
      Worked maxInstant now f (.recv drawn)
        { f with pc := .top, chan := chan, dropped := f.dropped ++ [(d, .heapFull)] }
  | panic (next : Option Instant) (d : Datagram) (chan : List Datagram)
      (hp : f.pc = .selecting next) (hc : f.chan = d :: chan) (hf : f.heap.size < RELAY_QUEUE_CAP)
      (hd : draws f.delay none = true) :
      Worked maxInstant now f (.recv none) (f.exit (d :: chan))
  | push (next : Option Instant) (d : Datagram) (chan : List Datagram) (sampled : Duration)
      (hp : f.pc = .selecting next) (hc : f.chan = d :: chan) (hf : f.heap.size < RELAY_QUEUE_CAP)
      (hd : draws f.delay (some sampled) = true) (hr : d.arrival + sampled ≤ maxInstant) :
      Worked maxInstant now f (.recv (some sampled))
        { f with
          pc := .top
          chan := chan
          heap := f.heap.push ⟨d.arrival + sampled, f.seq, d, sampled⟩
          seq := f.seq + 1 }
  | overflow (next : Option Instant) (d : Datagram) (chan : List Datagram) (sampled : Duration)
      (hp : f.pc = .selecting next) (hc : f.chan = d :: chan)
      (hd : draws f.delay (some sampled) = true) (hr : maxInstant < d.arrival + sampled) :
      Worked maxInstant now f (.recv (some sampled))
        { f with pc := .top, chan := chan, dropped := f.dropped ++ [(d, .releaseOverflow)] }
  | timer (release : Instant) (hp : f.pc = .selecting (some release)) (hr : release ≤ now) :
      Worked maxInstant now f .timer { f with pc := .top }

theorem work_cases {l : WorkerLabel} (h : f.work maxInstant now l = some f') :
    Worked maxInstant now f l f' := by
  cases l with
  | wake =>
    simp only [work] at h
    split at h
    · rename_i hp; cases h; exact .wake hp
    · cases h
  | drain ok =>
    simp only [work] at h
    split at h
    · rename_i due e heap hp hpop
      split at h
      · rename_i hdue; cases h; exact .drain due e heap ok hp hpop hdue
      · cases h
    · cases h
  | park =>
    simp only [work] at h
    split at h
    · rename_i due hp
      split at h
      · rename_i hdue; cases h; exact .park due hp hdue
      · cases h
    · cases h
  | recv drawn =>
    simp only [work] at h
    split at h
    · rename_i next hp hc
      split at h
      · cases h
      · rename_i hs; cases h; exact .closed next drawn hp hc (Bool.eq_false_iff.2 hs)
    · rename_i next d chan hp hc
      split at h
      · rename_i hf; cases h; exact .heapFull next drawn d chan hp hc hf
      · rename_i hf
        split at h
        · rename_i hd
          split at h
          · cases h; exact .panic next d chan hp hc (Nat.lt_of_not_le hf) hd
          · rename_i sampled
            split at h
            · rename_i release hr
              unfold checkedAdd at hr
              split at hr
              · rename_i hle
                cases hr; cases h
                exact .push next d chan sampled hp hc (Nat.lt_of_not_le hf) hd hle
              · cases hr
            · rename_i hr
              unfold checkedAdd at hr
              split at hr
              · cases hr
              · rename_i hle
                cases h
                exact .overflow next d chan sampled hp hc hd (Nat.lt_of_not_le hle)
        · cases h
    · cases h
  | timer =>
    simp only [work] at h
    split at h
    · rename_i release hp
      split at h
      · rename_i hr; cases h; exact .timer release hp hr
      · cases h
    · cases h

end Flow

theorem flowStep_cases {maxInstant : Instant} {s s' : FlowSt} {l : FlowLabel}
    (h : flowStep maxInstant s l = some s') :
    (∃ t, l = .tick t ∧ s.now ≤ t ∧ s' = { s with now := t }) ∨
    (∃ arrival bytes, l = .enqueue arrival bytes ∧ s.flow.sender = true ∧
      s' = { s with flow := (s.flow.trySend arrival bytes).1 }) ∨
    (l = .hangup ∧ s' = { s with flow := s.flow.hangup }) ∨
    (∃ f l', l = .work l' ∧ s.flow.Worked maxInstant s.now l' f ∧ s' = { s with flow := f }) := by
  cases l with
  | tick t =>
    simp only [flowStep] at h
    split at h
    · rename_i ht; exact .inl ⟨t, rfl, ht, (Option.some.inj h).symm⟩
    · cases h
  | enqueue arrival bytes =>
    simp only [flowStep] at h
    split at h
    · rename_i hs; exact .inr (.inl ⟨arrival, bytes, rfl, hs, (Option.some.inj h).symm⟩)
    · cases h
  | hangup => exact .inr (.inr (.inl ⟨rfl, (Option.some.inj h).symm⟩))
  | work l =>
    obtain ⟨f, hf, he⟩ := Option.map_eq_some_iff.1 h
    exact .inr (.inr (.inr ⟨f, l, rfl, Flow.work_cases hf, he.symm⟩))

/-! ## Conservation -/

namespace Flow

theorem trySend_sender (f : Flow) (arrival : Instant) (bytes : Bytes) :
    (f.trySend arrival bytes).1.sender = f.sender := by
  obtain ⟨-, h⟩ | ⟨-, -, h⟩ | ⟨-, -, h⟩ := f.trySend_cases arrival bytes <;> rw [h]

theorem worked_sender {maxInstant now : Instant} {f f' : Flow} {l : WorkerLabel}
    (h : f.Worked maxInstant now l f') : f'.sender = f.sender := by
  cases h <;> rfl

theorem worked_accepted {maxInstant now : Instant} {f f' : Flow} {l : WorkerLabel}
    (h : f.Worked maxInstant now l f') : f'.accepted = f.accepted := by
  cases h <;> rfl

/-- Every place a datagram can be in. -/
def places (f : Flow) : List Datagram :=
  f.handed.map (fun h => h.entry.datagram) ++ f.heap.entries.map Entry.datagram ++ f.chan ++
    f.dropped.map Prod.fst ++ f.lost

theorem places_exit (f : Flow) {rest : List Datagram} (h : rest = f.chan) :
    f.places.Perm (f.exit rest).places := by
  subst h
  rw [List.perm_iff_count]
  intro d
  simp only [places, exit, MinHeap.empty_entries, List.count_append, List.map_nil, List.count_nil]
  omega

theorem places_worked {maxInstant now : Instant} {f f' : Flow} {l : WorkerLabel}
    (h : f.Worked maxInstant now l f') :
    f.places.Perm f'.places ∧ f'.offered = f.offered := by
  cases h with
  | wake => exact ⟨.rfl, rfl⟩
  | drain due e heap ok hp hpop =>
    have he := MinHeap.pop_entries hpop
    refine ⟨?_, rfl⟩
    simp only [places, he, List.map_cons, List.map_append, List.map_nil, List.append_assoc,
      List.cons_append, List.nil_append]
    exact .rfl
  | park => exact ⟨.rfl, rfl⟩
  | closed next drawn hp hc => exact ⟨f.places_exit hc.symm, rfl⟩
  | heapFull next drawn d chan hp hc =>
    refine ⟨List.perm_iff_count.2 fun x => ?_, rfl⟩
    simp only [places, hc, List.map_append, List.map_cons, List.map_nil, List.count_append,
      List.count_cons, List.count_nil]
    omega
  | panic next d chan hp hc => exact ⟨f.places_exit hc.symm, rfl⟩
  | push next d chan sampled hp hc =>
    refine ⟨List.perm_iff_count.2 fun x => ?_, rfl⟩
    have hpush := ((f.heap.push_perm ⟨d.arrival + sampled, f.seq, d, sampled⟩).map
      Entry.datagram).count_eq x
    simp only [List.map_cons, List.count_cons] at hpush
    simp only [places, hc, List.count_append, List.count_cons]
    omega
  | overflow next d chan sampled hp hc =>
    refine ⟨List.perm_iff_count.2 fun x => ?_, rfl⟩
    simp only [places, hc, List.map_append, List.map_cons, List.map_nil, List.count_append,
      List.count_cons, List.count_nil]
    omega
  | timer => exact ⟨.rfl, rfl⟩

theorem places_trySend (f : Flow) (arrival : Instant) (bytes : Bytes) :
    let d : Datagram := ⟨f.offered.length, arrival, bytes⟩
    (f.places ++ [d]).Perm (f.trySend arrival bytes).1.places ∧
      (f.trySend arrival bytes).1.offered = f.offered ++ [d] := by
  intro d
  obtain ⟨-, h⟩ | ⟨-, -, h⟩ | ⟨-, -, h⟩ := f.trySend_cases arrival bytes <;> rw [h]
  · refine ⟨?_, rfl⟩
    simp only [places, List.append_assoc]
    exact .rfl
  · refine ⟨List.perm_iff_count.2 fun x => ?_, rfl⟩
    simp only [places, d, List.map_append, List.map_cons, List.map_nil, List.count_append]
    omega
  · refine ⟨List.perm_iff_count.2 fun x => ?_, rfl⟩
    simp only [places, d, List.count_append]
    omega

end Flow

/-- What holds of a flow at any time. -/
structure FlowInv (delay : Option DelayDist) (s : FlowSt) : Prop where
  sameDelay : s.flow.delay = delay
  perm : s.flow.offered.Perm s.flow.places
  serials : s.flow.offered.map Datagram.serial = List.range s.flow.offered.length
  running : s.flow.pc ≠ .exited → s.flow.lost = []
  clock : ∀ due, s.flow.pc = .draining due → due ≤ s.now
  release : ∀ e ∈ s.flow.heap.entries,
    e.release = e.datagram.arrival + e.sampled ∧ draws delay (some e.sampled) = true
  handed : ∀ h ∈ s.flow.handed, draws delay (some h.entry.sampled) = true ∧
    h.entry.datagram.arrival + h.entry.sampled ≤ h.time

variable {maxInstant : Instant} {delay : Option DelayDist}

theorem flowInv_trySend {s : FlowSt} (hi : FlowInv delay s) (arrival : Instant) (bytes : Bytes) :
    FlowInv delay { s with flow := (s.flow.trySend arrival bytes).1 } := by
  obtain ⟨hperm, hoff⟩ := s.flow.places_trySend arrival bytes
  have h1 : (s.flow.trySend arrival bytes).1.offered.Perm
      (s.flow.trySend arrival bytes).1.places := by
    rw [hoff]; exact (hi.perm.append_right _).trans hperm
  have h2 : (s.flow.trySend arrival bytes).1.offered.map Datagram.serial =
      List.range (s.flow.trySend arrival bytes).1.offered.length := by
    simp [hoff, hi.serials, List.range_succ]
  obtain ⟨hp, h⟩ | ⟨hp, -, h⟩ | ⟨hp, -, h⟩ := s.flow.trySend_cases arrival bytes <;>
    rw [h] at h1 h2 ⊢
  · exact { hi with perm := h1, serials := h2, running := fun hn => absurd hp hn }
  · exact { hi with perm := h1, serials := h2 }
  · exact { hi with perm := h1, serials := h2 }

theorem flowInv_worked {s : FlowSt} {f : Flow} {l : Flow.WorkerLabel} (hi : FlowInv delay s)
    (h : s.flow.Worked maxInstant s.now l f) : FlowInv delay { s with flow := f } := by
  obtain ⟨hplaces, hoff⟩ := Flow.places_worked h
  have h1 : f.offered.Perm f.places := by rw [hoff]; exact hi.perm.trans hplaces
  have h2 : f.offered.map Datagram.serial = List.range f.offered.length := by
    rw [hoff]; exact hi.serials
  have hlost : ∀ {p : WorkerPc}, s.flow.pc = p → p ≠ .exited → s.flow.lost = [] := by
    intro p hp hn
    exact hi.running (by rw [hp]; exact hn)
  cases h with
  | wake hp =>
    have hclock : ∀ due, WorkerPc.draining s.now = .draining due → due ≤ s.now := by
      intro due hdue
      cases hdue
      exact Nat.le_refl _
    exact { hi with
      perm := h1, serials := h2, running := fun _ => hlost hp nofun, clock := hclock }
  | drain due e heap ok hp hpop hdue =>
    have he := MinHeap.pop_entries hpop
    have hrel := hi.release
    rw [he] at hrel
    have hhanded : ∀ h ∈ s.flow.handed ++ [⟨e, s.now, ok⟩],
        draws delay (some h.entry.sampled) = true ∧
          h.entry.datagram.arrival + h.entry.sampled ≤ h.time := by
      intro h hh
      simp only [List.mem_append, List.mem_singleton] at hh
      rcases hh with hh | hh
      · exact hi.handed h hh
      · obtain ⟨hr, hd⟩ := hrel e List.mem_cons_self
        have hdone : e.datagram.arrival + e.sampled ≤ s.now := calc
          e.datagram.arrival + e.sampled = e.release := hr.symm
          _ ≤ due := hdue
          _ ≤ s.now := hi.clock due hp
        subst hh
        exact ⟨hd, hdone⟩
    exact { hi with
      perm := h1, serials := h2, handed := hhanded
      release := fun e' he' => hrel e' (List.mem_cons_of_mem _ he') }
  | park due hp =>
    exact { hi with
      perm := h1, serials := h2, running := fun _ => hlost hp nofun, clock := nofun }
  | closed =>
    exact { hi with
      perm := h1, serials := h2, running := fun hn => absurd rfl hn, clock := nofun
      release := nofun }
  | heapFull next drawn d chan hp =>
    exact { hi with
      perm := h1, serials := h2, running := fun _ => hlost hp nofun, clock := nofun }
  | panic =>
    exact { hi with
      perm := h1, serials := h2, running := fun hn => absurd rfl hn, clock := nofun
      release := nofun }
  | push next d chan sampled hp hc hf hd =>
    have hrelease : ∀ e ∈ (s.flow.heap.push ⟨d.arrival + sampled, s.flow.seq, d, sampled⟩).entries,
        e.release = e.datagram.arrival + e.sampled ∧ draws delay (some e.sampled) = true := by
      intro e he
      rcases MinHeap.mem_push.1 he with rfl | he
      · exact ⟨rfl, hi.sameDelay ▸ hd⟩
      · exact hi.release e he
    exact { hi with
      perm := h1, serials := h2, running := fun _ => hlost hp nofun, clock := nofun
      release := hrelease }
  | overflow next d chan sampled hp =>
    exact { hi with
      perm := h1, serials := h2, running := fun _ => hlost hp nofun, clock := nofun }
  | timer release hp =>
    exact { hi with
      perm := h1, serials := h2, running := fun _ => hlost hp nofun, clock := nofun }

theorem flowInv_inductive : (flowSystem maxInstant delay).Inductive (FlowInv delay) where
  init s h0 := by
    obtain ⟨now, f⟩ := s
    obtain rfl : f = .new delay := h0
    exact ⟨rfl, .rfl, rfl, fun _ => rfl, nofun, nofun, nofun⟩
  step s l s' hi hs := by
    rcases flowStep_cases hs with ⟨t, -, ht, rfl⟩ | ⟨arrival, bytes, -, -, rfl⟩ | ⟨-, rfl⟩ |
      ⟨f, l', -, hw, rfl⟩
    · exact { hi with clock := fun due hd => Nat.le_trans (hi.clock due hd) ht }
    · exact flowInv_trySend hi arrival bytes
    · exact { hi with }
    · exact flowInv_worked hi hw

/-- No datagram is in two places. -/
theorem places_nodup {s : FlowSt} (hi : FlowInv delay s) :
    (s.flow.places.map Datagram.serial).Nodup := by
  rw [← (hi.perm.map Datagram.serial).nodup_iff, hi.serials]
  exact List.nodup_range

/-- What a drop with this reason says about the state before it. -/
def Justified (maxInstant : Instant) (delay : Option DelayDist) (f : Flow) (d : Datagram) :
    DropReason → Prop
  | .channelFull => RELAY_QUEUE_CAP ≤ f.chan.length
  | .heapFull => RELAY_QUEUE_CAP ≤ f.heap.size
  | .releaseOverflow =>
    ∃ sampled, draws delay (some sampled) = true ∧ maxInstant < d.arrival + sampled

/-- Every datagram offered is accounted for, and each step takes the least of
the heap and drops only what it has to. -/
structure FlowConserved (maxInstant : Instant) (delay : Option DelayDist) (s : FlowSt) : Prop where
  partition : s.flow.pc ≠ .exited →
    s.flow.offered.Perm (s.flow.handed.map (fun h => h.entry.datagram) ++
      s.flow.heap.entries.map Entry.datagram ++ s.flow.chan ++ s.flow.dropped.map Prod.fst)
  /-- With what is lost when the worker ends. -/
  account : s.flow.offered.Perm s.flow.places
  distinct : (s.flow.offered.map Datagram.serial).Nodup
  once : (s.flow.handed.map fun h => h.entry.datagram.serial).Nodup
  offered : ∀ h ∈ s.flow.handed, h.entry.datagram ∈ s.flow.offered
  notEarly : ∀ h ∈ s.flow.handed, draws delay (some h.entry.sampled) = true ∧
    h.entry.datagram.arrival + h.entry.sampled ≤ h.time
  least : ∀ l s', flowStep maxInstant s l = some s' → s'.flow.handed = s.flow.handed ∨
    ∃ e ok, s'.flow.handed = s.flow.handed ++ [⟨e, s.now, ok⟩] ∧
      s.flow.heap.entries = e :: s'.flow.heap.entries ∧
      ∀ b ∈ s.flow.heap.entries, e.key ≤ b.key
  drops : ∀ l s', flowStep maxInstant s l = some s' → s'.flow.dropped = s.flow.dropped ∨
    ∃ d reason, s'.flow.dropped = s.flow.dropped ++ [(d, reason)] ∧
      Justified maxInstant delay s.flow d reason

theorem handed_step {s s' : FlowSt} {l : FlowLabel} (h : flowStep maxInstant s l = some s') :
    s'.flow.handed = s.flow.handed ∨
      ∃ e ok, s'.flow.handed = s.flow.handed ++ [⟨e, s.now, ok⟩] ∧
        s.flow.heap.entries = e :: s'.flow.heap.entries ∧
        ∀ b ∈ s.flow.heap.entries, e.key ≤ b.key := by
  rcases flowStep_cases h with ⟨t, -, -, rfl⟩ | ⟨arrival, bytes, -, -, rfl⟩ | ⟨-, rfl⟩ |
    ⟨f, l', -, hw, rfl⟩
  · exact .inl rfl
  · obtain ⟨-, hs⟩ | ⟨-, -, hs⟩ | ⟨-, -, hs⟩ := s.flow.trySend_cases arrival bytes <;>
      exact .inl (by rw [hs])
  · exact .inl rfl
  · cases hw with
    | drain due e heap ok hp hpop =>
      exact .inr ⟨e, ok, rfl, MinHeap.pop_entries hpop, MinHeap.pop_le hpop⟩
    | _ => exact .inl rfl

theorem dropped_step {s s' : FlowSt} {l : FlowLabel} (hd : s.flow.delay = delay)
    (h : flowStep maxInstant s l = some s') :
    s'.flow.dropped = s.flow.dropped ∨
      ∃ d reason, s'.flow.dropped = s.flow.dropped ++ [(d, reason)] ∧
        Justified maxInstant delay s.flow d reason := by
  rcases flowStep_cases h with ⟨t, -, -, rfl⟩ | ⟨arrival, bytes, -, -, rfl⟩ | ⟨-, rfl⟩ |
    ⟨f, l', -, hw, rfl⟩
  · exact .inl rfl
  · obtain ⟨-, hs⟩ | ⟨-, hc, hs⟩ | ⟨-, -, hs⟩ := s.flow.trySend_cases arrival bytes
    · exact .inl (by rw [hs])
    · exact .inr ⟨_, .channelFull, by rw [hs], hc⟩
    · exact .inl (by rw [hs])
  · exact .inl rfl
  · cases hw with
    | heapFull next drawn d chan hp hc hf => exact .inr ⟨d, .heapFull, rfl, hf⟩
    | overflow next d chan sampled hp hc hdraw hr =>
      exact .inr ⟨d, .releaseOverflow, rfl, sampled, hd ▸ hdraw, hr⟩
    | _ => exact .inl rfl

theorem FlowInv.conserved {s : FlowSt} (hi : FlowInv delay s) :
    FlowConserved maxInstant delay s := by
  have hsub : (s.flow.handed.map fun h => h.entry.datagram).Sublist s.flow.places := by
    simp only [Flow.places, List.append_assoc]
    exact List.sublist_append_left _ _
  have honce : (s.flow.handed.map fun h => h.entry.datagram.serial).Nodup := by
    have hnodup := (places_nodup hi).sublist (hsub.map Datagram.serial)
    rwa [List.map_map] at hnodup
  exact {
    partition := by
      intro hp
      have hperm := hi.perm
      unfold Flow.places at hperm
      rwa [hi.running hp, List.append_nil] at hperm
    account := hi.perm
    distinct := by
      rw [hi.serials]
      exact List.nodup_range
    once := honce
    offered := by
      intro h hh
      exact hi.perm.mem_iff.2 (hsub.subset (List.mem_map_of_mem hh))
    notEarly := hi.handed
    least := fun l s' hs => handed_step hs
    drops := fun l s' hs => dropped_step hi.sameDelay hs }

/-- A jittery flow in which the second of two datagrams overtakes the first. -/
def overtaking : List FlowLabel :=
  [.enqueue 10 [1], .enqueue 11 [2], .work .wake, .work .park, .work (.recv (some 20)), .work .wake,
    .work .park, .work (.recv (some 5)), .tick 40, .work .wake, .work (.drain true),
    .work (.drain false)]

/-- Arrivals accepted by the channel do not go back. -/
def InArrivalOrder (s : FlowSt) : FlowLabel → Prop
  | .enqueue arrival bytes => (s.flow.trySend arrival bytes).2 = .ok →
      ∀ d ∈ s.flow.accepted, d.arrival ≤ arrival
  | _ => True

instance (s : FlowSt) (l : FlowLabel) : Decidable (InArrivalOrder s l) :=
  match l with
  | .enqueue arrival bytes =>
    inferInstanceAs (Decidable ((s.flow.trySend arrival bytes).2 = .ok → _))
  | .tick _ | .hangup | .work _ => inferInstanceAs (Decidable True)

/-- What has left the flow and what is in it, in the order in which it leaves. -/
def Flow.queue (f : Flow) : List Datagram :=
  f.handed.map (fun h => h.entry.datagram) ++ f.heap.entries.map Entry.datagram ++ f.chan

structure OrderInv (d : Duration) (s : FlowSt) : Prop where
  accepted : s.flow.queue.Sublist s.flow.accepted
  offered : (s.flow.queue ++ s.flow.lost).Sublist s.flow.offered
  arrivals : s.flow.accepted.Pairwise fun a b => a.arrival ≤ b.arrival
  entries : ∀ e ∈ s.flow.heap.entries, e.release = e.datagram.arrival + d ∧ e.seq < s.flow.seq

/-- The next datagram of the channel arrived after all in the heap. -/
theorem arrival_le_of_heap {d : Duration} {s : FlowSt} (hi : OrderInv d s) {x : Datagram}
    {chan : List Datagram} (hc : s.flow.chan = x :: chan) :
    ∀ e ∈ s.flow.heap.entries, e.datagram.arrival ≤ x.arrival := by
  intro e he
  have hp := hi.arrivals.sublist hi.accepted
  rw [Flow.queue, hc] at hp
  refine (List.pairwise_append.1 hp).2.2 e.datagram ?_ x (by simp)
  simp only [List.mem_append, List.mem_map]
  exact .inr ⟨e, he, rfl⟩

/-- With a constant delay the heap is a queue: what is pushed goes to its end. -/
theorem push_entries {d : Duration} {s : FlowSt} (hi : OrderInv d s) {x : Datagram}
    {chan : List Datagram} (hc : s.flow.chan = x :: chan) :
    (s.flow.heap.push ⟨x.arrival + d, s.flow.seq, x, d⟩).entries =
      s.flow.heap.entries ++ [⟨x.arrival + d, s.flow.seq, x, d⟩] := by
  refine MinHeap.push_last fun e he => ?_
  obtain ⟨hr, hs⟩ := hi.entries e he
  have hle := Nat.add_le_add_right (arrival_le_of_heap hi hc e he) d
  rw [← hr] at hle
  rcases Nat.lt_or_eq_of_le hle with hlt | heq
  · exact Prod.Lex.toLex_lt_toLex.2 (.inl hlt)
  · exact Prod.Lex.toLex_lt_toLex.2 (.inr ⟨heq, hs⟩)

/-- The worker only takes from the queue, and moves what it takes to `lost` when
it ends. -/
theorem queue_worked {d : Duration} {s : FlowSt} {f : Flow} {l : Flow.WorkerLabel}
    (hi : OrderInv d s) (hinv : FlowInv delay s) (hd : constantDelay delay = some d)
    (h : s.flow.Worked maxInstant s.now l f) :
    f.queue.Sublist s.flow.queue ∧ (f.queue ++ f.lost).Sublist (s.flow.queue ++ s.flow.lost) ∧
      f.accepted = s.flow.accepted ∧ f.offered = s.flow.offered := by
  have hexit : ∀ {next : Option Instant} {rest : List Datagram}, s.flow.pc = .selecting next →
      s.flow.chan = rest → (s.flow.exit rest).queue.Sublist s.flow.queue ∧
        ((s.flow.exit rest).queue ++ (s.flow.exit rest).lost).Sublist
          (s.flow.queue ++ s.flow.lost) := by
    intro next rest hp hc
    subst hc
    have hlost := hinv.running (by rw [hp]; nofun)
    simp only [Flow.queue, Flow.exit, hlost, MinHeap.empty_entries, List.map_nil, List.append_nil,
      List.nil_append, List.append_assoc]
    exact ⟨List.sublist_append_left _ _, .refl _⟩
  -- a datagram is dropped off the head of the channel
  have hdrop : ∀ {x : Datagram} {chan : List Datagram}, s.flow.chan = x :: chan →
      (s.flow.handed.map (fun h => h.entry.datagram) ++ s.flow.heap.entries.map Entry.datagram ++
        chan).Sublist s.flow.queue := by
    intro x chan hc
    rw [Flow.queue, hc]
    exact (List.sublist_cons_self x chan).append_left _
  cases h with
  | wake => exact ⟨.refl _, .refl _, rfl, rfl⟩
  | drain due e heap ok hp hpop =>
    have hq : ({ s.flow with
        heap := heap, handed := s.flow.handed ++ [⟨e, s.now, ok⟩] } : Flow).queue =
        s.flow.queue := by
      simp only [Flow.queue, MinHeap.pop_entries hpop, List.map_append, List.map_cons,
        List.map_nil, List.append_assoc, List.cons_append, List.nil_append]
    rw [hq]
    exact ⟨.refl _, .refl _, rfl, rfl⟩
  | park => exact ⟨.refl _, .refl _, rfl, rfl⟩
  | closed next drawn hp hc => exact ⟨(hexit hp hc).1, (hexit hp hc).2, rfl, rfl⟩
  | heapFull next drawn x chan hp hc => exact ⟨hdrop hc, (hdrop hc).append_right _, rfl, rfl⟩
  | panic next x chan hp hc => exact ⟨(hexit hp hc).1, (hexit hp hc).2, rfl, rfl⟩
  | push next x chan sampled hp hc hf hdraw =>
    obtain rfl : sampled = d := by
      rw [hinv.sameDelay] at hdraw
      exact Option.some.inj (draws_constant hd hdraw)
    have hq : ({ s.flow with
        pc := .top, chan := chan
        heap := s.flow.heap.push ⟨x.arrival + sampled, s.flow.seq, x, sampled⟩
        seq := s.flow.seq + 1 } : Flow).queue = s.flow.queue := by
      simp only [Flow.queue, push_entries hi hc, hc, List.map_append, List.map_cons, List.map_nil,
        List.append_assoc, List.cons_append, List.nil_append]
    rw [hq]
    exact ⟨.refl _, .refl _, rfl, rfl⟩
  | overflow next x chan sampled hp hc => exact ⟨hdrop hc, (hdrop hc).append_right _, rfl, rfl⟩
  | timer => exact ⟨.refl _, .refl _, rfl, rfl⟩

theorem entries_worked {d : Duration} {s : FlowSt} {f : Flow} {l : Flow.WorkerLabel}
    (hi : OrderInv d s) (hinv : FlowInv delay s) (hd : constantDelay delay = some d)
    (h : s.flow.Worked maxInstant s.now l f) :
    ∀ e ∈ f.heap.entries, e.release = e.datagram.arrival + d ∧ e.seq < f.seq := by
  cases h with
  | wake => exact hi.entries
  | drain due e heap ok hp hpop =>
    intro e' he'
    exact hi.entries e' (by rw [MinHeap.pop_entries hpop]; exact List.mem_cons_of_mem _ he')
  | park => exact hi.entries
  | closed => nofun
  | heapFull => exact hi.entries
  | panic => nofun
  | push next x chan sampled hp hc hf hdraw =>
    intro e he
    rcases MinHeap.mem_push.1 he with rfl | he
    · rw [hinv.sameDelay] at hdraw
      obtain rfl := Option.some.inj (draws_constant hd hdraw)
      exact ⟨rfl, Nat.lt_succ_self _⟩
    · exact ⟨(hi.entries e he).1, Nat.lt_succ_of_lt (hi.entries e he).2⟩
  | overflow => exact hi.entries
  | timer => exact hi.entries

theorem orderInv_worked {d : Duration} {s : FlowSt} {f : Flow} {l : Flow.WorkerLabel}
    (hi : OrderInv d s) (hinv : FlowInv delay s) (hd : constantDelay delay = some d)
    (h : s.flow.Worked maxInstant s.now l f) : OrderInv d { s with flow := f } := by
  obtain ⟨hq, hl, ha, ho⟩ := queue_worked hi hinv hd h
  have haccepted : f.queue.Sublist f.accepted := by
    rw [ha]
    exact hq.trans hi.accepted
  have hoffered : (f.queue ++ f.lost).Sublist f.offered := by
    rw [ho]
    exact hl.trans hi.offered
  have harrivals : f.accepted.Pairwise fun a b => a.arrival ≤ b.arrival := by
    rw [ha]
    exact hi.arrivals
  exact ⟨haccepted, hoffered, harrivals, entries_worked hi hinv hd h⟩

theorem orderInv_trySend {d : Duration} {s : FlowSt} (hi : OrderInv d s) (hinv : FlowInv delay s)
    {arrival : Instant} {bytes : Bytes} (hC : InArrivalOrder s (.enqueue arrival bytes)) :
    OrderInv d { s with flow := (s.flow.trySend arrival bytes).1 } := by
  have hC : (s.flow.trySend arrival bytes).2 = .ok →
    ∀ d ∈ s.flow.accepted, d.arrival ≤ arrival := hC
  obtain ⟨hp, h⟩ | ⟨hp, -, h⟩ | ⟨hp, -, h⟩ := s.flow.trySend_cases arrival bytes <;> rw [h] at hC ⊢
  · -- the worker is gone: the datagram is lost, and the queue does not change
    have hoffered := hi.offered.append_right [⟨s.flow.offered.length, arrival, bytes⟩]
    rw [List.append_assoc] at hoffered
    exact { hi with offered := hoffered }
  · exact { hi with offered := hi.offered.trans (List.sublist_append_left _ _) }
  · have hoff := hi.offered
    rw [hinv.running hp, List.append_nil] at hoff
    have haccepted := hi.accepted.append_right [⟨s.flow.offered.length, arrival, bytes⟩]
    have hoffered := hoff.append_right [⟨s.flow.offered.length, arrival, bytes⟩]
    simp only [Flow.queue, List.append_assoc] at haccepted hoffered
    have harrivals := List.pairwise_append.2 ⟨hi.arrivals,
      List.pairwise_singleton _ (⟨s.flow.offered.length, arrival, bytes⟩ : Datagram), by
        intro a ha b hb
        simp only [List.mem_singleton] at hb
        subst hb
        exact hC rfl a ha⟩
    exact {
      accepted := by simp only [Flow.queue, List.append_assoc]; exact haccepted
      offered := by
        simp only [Flow.queue, hinv.running hp, List.append_nil, List.append_assoc]
        exact hoffered
      arrivals := harrivals
      entries := hi.entries }

theorem orderInv_inductive {d : Duration} (hd : constantDelay delay = some d) :
    ((flowSystem maxInstant delay).restrict InArrivalOrder).Inductive fun s =>
      FlowInv delay s ∧ OrderInv d s where
  init s h0 := by
    have hinv : (flowSystem maxInstant delay).Inductive (FlowInv delay) := flowInv_inductive
    refine ⟨hinv.init s h0, ?_⟩
    obtain ⟨now, f⟩ := s
    obtain rfl : f = .new delay := h0
    exact ⟨.slnil, .slnil, .nil, nofun⟩
  step s l s' hi hs := by
    obtain ⟨hinv, hi⟩ := hi
    obtain ⟨hs, hC⟩ := hs
    refine ⟨flowInv_inductive.step s l s' hinv hs, ?_⟩
    rcases flowStep_cases hs with ⟨t, -, -, rfl⟩ | ⟨arrival, bytes, rfl, -, rfl⟩ | ⟨-, rfl⟩ |
      ⟨f, l', -, hw, rfl⟩
    · exact { hi with }
    · exact orderInv_trySend hi hinv hC
    · exact { hi with }
    · exact orderInv_worked hi hinv hd hw

/-- The datagrams sent, in the order in which they were. -/
def Flow.sent (f : Flow) : List Datagram :=
  (f.handed.filter Handed.ok).map fun h => h.entry.datagram

/-- The datagrams sent are a subsequence of those offered, by arrival, and one
that was overtaken was dropped or its send failed. -/
structure SentInOrder (f : Flow) : Prop where
  subsequence : f.sent.Sublist f.offered
  arrivals : f.sent.Pairwise fun a b => a.arrival ≤ b.arrival
  gaps : ∀ d ∈ f.sent, ∀ d' ∈ f.offered, d'.serial < d.serial →
    d' ∈ f.sent ∨ (∃ reason, (d', reason) ∈ f.dropped) ∨
      ∃ h ∈ f.handed, h.ok = false ∧ h.entry.datagram = d'

theorem sent_sublist_handed (f : Flow) :
    f.sent.Sublist (f.handed.map fun h => h.entry.datagram) :=
  List.filter_sublist.map _

/-- What is still to come or lost was offered after everything handed over. -/
theorem not_waiting_of_lt {d : Duration} {s : FlowSt} (hi : OrderInv d s) (hinv : FlowInv delay s)
    {x y : Datagram} (hx : x ∈ s.flow.handed.map fun h => h.entry.datagram)
    (hlt : y.serial < x.serial) :
    y ∉ s.flow.heap.entries.map Entry.datagram ++ s.flow.chan ++ s.flow.lost := by
  intro hy
  have hserials : s.flow.offered.Pairwise fun a b => a.serial < b.serial := by
    rw [← List.pairwise_map (R := fun a b => a < b), hinv.serials]
    exact List.pairwise_lt_range
  have hp := hserials.sublist hi.offered
  simp only [Flow.queue, List.append_assoc] at hp hy
  exact Nat.lt_asymm hlt ((List.pairwise_append.1 hp).2.2 x hx y hy)

theorem OrderInv.sentInOrder {d : Duration} {s : FlowSt} (hi : OrderInv d s)
    (hinv : FlowInv delay s) : SentInOrder s.flow := by
  have hsent := sent_sublist_handed s.flow
  have hqueue : (s.flow.handed.map fun h => h.entry.datagram).Sublist s.flow.queue := by
    simp only [Flow.queue, List.append_assoc]
    exact List.sublist_append_left _ _
  refine ⟨?_, hi.arrivals.sublist ((hsent.trans hqueue).trans hi.accepted),
    fun x hx y hy hlt => ?_⟩
  · exact (hsent.trans hqueue).trans ((List.sublist_append_left _ _).trans hi.offered)
  · have hwait := not_waiting_of_lt hi hinv (hsent.subset hx) hlt
    have hplace := hinv.perm.mem_iff.1 hy
    simp only [Flow.places, List.mem_append] at hplace hwait
    rcases hplace with (((hh | hh) | hc) | hdrop) | hl
    · obtain ⟨h, hmem, rfl⟩ := List.mem_map.1 hh
      cases hok : h.ok with
      | true => exact .inl (List.mem_map.2 ⟨h, List.mem_filter.2 ⟨hmem, hok⟩, rfl⟩)
      | false => exact .inr (.inr ⟨h, hmem, hok, rfl⟩)
    · exact absurd (.inl (.inl hh)) hwait
    · exact absurd (.inl (.inr hc)) hwait
    · obtain ⟨⟨z, reason⟩, hm, rfl⟩ := List.mem_map.1 hdrop
      exact .inr (.inl ⟨reason, hm⟩)
    · exact absurd (.inr hl) hwait

/-- **Order.** With no or a fixed delay, and arrivals that do not go back. -/
theorem flow_in_order (maxInstant : Instant) (delay : Option DelayDist) (d : Duration)
    (hd : constantDelay delay = some d) (s : FlowSt)
    (h : ((flowSystem maxInstant delay).restrict InArrivalOrder).Reachable s) :
    SentInOrder s.flow := by
  obtain ⟨hinv, hi⟩ := (orderInv_inductive hd).reachable s h
  exact hi.sentInOrder hinv

theorem fixed_delay_in_order : ∃ s : FlowSt,
    s.flow.sent.map Datagram.serial = [0, 2] ∧ SentInOrder s.flow := by
  obtain ⟨s, hr, hs⟩ : ∃ s,
      ((flowSystem 1000 (some (.fixed 7))).restrict InArrivalOrder).Reachable s ∧
      s.flow.sent.map Datagram.serial = [0, 2] :=
    ⟨_, LTS.restrict_reachable_of_exec ⟨9, .new _⟩
      [.enqueue 10 [1], .enqueue 10 [2], .work .wake, .work .park, .work (.recv (some 7)),
        .work .wake, .work .park, .work (.recv (some 7)), .enqueue 12 [3], .tick 40, .work .wake,
        .work (.drain true), .work (.drain false), .work .park, .work (.recv (some 7)),
        .work .wake, .work (.drain true)] rfl rfl, rfl⟩
  exact ⟨s, hs, flow_in_order 1000 _ 7 rfl s hr⟩

end Hoprd.Localcluster
