import Hoprd.Core.LTS
import Hoprd.Net
import Hoprd.RestApi.Error

/-!
# Closing session listeners (`rest-api/src/session.rs`, `close_client`)

Requests to close listeners run concurrently on one table of open listeners,
next to the accept task of each listener, which registers client sessions in
its listener's entry until it is aborted. A request scans the table, then for
each listener found: takes it out, snapshots the configurators of its clients,
closes them one by one, and aborts the accept task. Each of these is one step;
a listener missing from the table ends the request early.

* `no_live_session_left`: as long as no session is registered between the
  snapshot of an entry and its abort, a request that has answered leaves every
  session of the listeners it removed closed.
* `bulk_close_completes`: among requests alone, as long as a request that finds
  a key gone has only finished listeners left to close, every listener it
  scanned is closed when it answers, and nothing else was touched.
* `late_session_survives`, `taken_key_ends_bulk_close`: runs without these
  conditions in which a session stays open, and a listener stays in the table.

An entry is shared by the table, the request that removed it and the accept
task, so `entries` keeps it after its removal. Listeners opened meanwhile are
not modelled. The scan is one step, in whatever order the table is walked.
-/
namespace Hoprd.RestApi.CloseClient

open Core

abbrev SessionId := Nat

inductive IpProtocol where
  | tcp | udp
  deriving DecidableEq, Repr

structure ListenerId where
  protocol : IpProtocol
  addr : SocketAddr
  deriving DecidableEq, Repr

/-- The client table and the abort handle of a listener. `closed` holds the
clients whose configurator has been closed. -/
structure Entry where
  clients : List SessionId
  closed : List SessionId
  aborted : Bool
  deriving DecidableEq, Repr

structure Listeners where
  openListeners : List ListenerId
  nodup : openListeners.Nodup
  entries : ListenerId → Entry

/-- mirrors rest-api/src/session.rs:1154-1168 -/
structure Request where
  protocol : IpProtocol
  ip : String
  port : UInt16
  deriving DecidableEq, Repr

structure Response where
  status : Nat
  body : Option ApiError
  deriving DecidableEq, Repr

def noContent : Response := ⟨204, none⟩
def badRequest : Response := ⟨400, some ApiErrorStatus.invalidInput.toApiError⟩
def notFound : Response := ⟨404, some ApiErrorStatus.invalidInput.toApiError⟩

/-- The filter of the scan.
mirrors rest-api/src/session.rs:1211-1214 -/
def selects (protocol : IpProtocol) (listeningIp : IpAddr) (port : UInt16) (k : ListenerId) : Bool :=
  protocol == k.protocol && k.addr.ip == listeningIp && (k.addr.port == port || port == 0)

/-- Where a request is: before its scan, before the next removal, between a
removal and the snapshot, closing what is left of the snapshot, or answered. -/
inductive Pc where
  | scan (listeningIp : IpAddr)
  | removing (todo : List ListenerId)
  | snapshot (k : ListenerId) (todo : List ListenerId)
  | closing (k : ListenerId) (configurators : List SessionId) (todo : List ListenerId)
  | returned (response : Response)
  deriving DecidableEq, Repr

structure Call where
  request : Request
  pc : Pc
  /-- ghost: what the scan found -/
  scanned : List ListenerId
  /-- ghost: the listeners this request took out of the table -/
  removed : List ListenerId
  deriving DecidableEq, Repr

/-- The key being closed. -/
def Pc.current : Pc → Option ListenerId
  | .snapshot k _ | .closing k _ _ => some k
  | _ => none

/-- The key whose snapshot has been taken. -/
def Pc.closing? : Pc → Option ListenerId
  | .closing k _ _ => some k
  | _ => none

/-- The keys after the current one. -/
def Pc.todo : Pc → List ListenerId
  | .removing todo | .snapshot _ todo | .closing _ _ todo => todo
  | _ => []

namespace Listeners

variable (L : Listeners)

def modifyEntry (k : ListenerId) (f : Entry → Entry) : Listeners :=
  { L with entries := fun k' => if k' = k then f (L.entries k') else L.entries k' }

def remove (k : ListenerId) : Listeners :=
  { L with openListeners := L.openListeners.erase k, nodup := L.nodup.erase k }

def close (k : ListenerId) (x : SessionId) : Listeners :=
  L.modifyEntry k fun e => { e with closed := x :: e.closed }

def abort (k : ListenerId) : Listeners := L.modifyEntry k fun e => { e with aborted := true }

/-- The accept task adds a new session to the client table. -/
def register (k : ListenerId) (x : SessionId) : Option Listeners :=
  if (L.entries k).aborted ∨ x ∈ (L.entries k).clients then none
  else some (L.modifyEntry k fun e => { e with clients := x :: e.clients })

/-- All clients closed and the accept task aborted. -/
def Finished (k : ListenerId) : Prop :=
  (L.entries k).aborted = true ∧ ∀ x ∈ (L.entries k).clients, x ∈ (L.entries k).closed

/-- Finished and out of the table. -/
def Gone (k : ListenerId) : Prop := k ∉ L.openListeners ∧ L.Finished k

instance (k : ListenerId) : Decidable (L.Finished k) :=
  inferInstanceAs (Decidable (_ ∧ ∀ x ∈ (L.entries k).clients, _))

instance (k : ListenerId) : Decidable (L.Gone k) := inferInstanceAs (Decidable (_ ∧ _))

end Listeners

namespace Call

/-- mirrors rest-api/src/session.rs:1197-1199 -/
def start (request : Request) : Call :=
  match IpAddr.fromStr request.ip with
  | some ip => ⟨request, .scan ip, [], []⟩
  | none => ⟨request, .returned badRequest, [], []⟩

/-- The scan, which meets the listeners in the order `found`.
mirrors rest-api/src/session.rs:1207-1220 -/
def scan (c : Call) (L : Listeners) (found : List ListenerId) : Option Call :=
  match c.pc with
  | .scan ip =>
    if found.Perm (L.openListeners.filter (selects c.request.protocol ip c.request.port)) then
      match found with
      | [] => some { c with pc := .returned notFound }
      | _ :: _ => some { c with pc := .removing found, scanned := found }
    else none
  | _ => none

/-- One step of the loop over the listeners found.
mirrors rest-api/src/session.rs:1222-1245 -/
def next (c : Call) (L : Listeners) : Option (Listeners × Call) :=
  match c.pc with
  | .removing [] => some (L, { c with pc := .returned noContent })
  | .removing (k :: todo) =>
    if k ∈ L.openListeners then
      some (L.remove k, { c with pc := .snapshot k todo, removed := k :: c.removed })
    else some (L, { c with pc := .returned notFound })
  | .snapshot k todo => some (L, { c with pc := .closing k (L.entries k).clients todo })
  | .closing k (x :: xs) todo => some (L.close k x, { c with pc := .closing k xs todo })
  | .closing k [] todo => some (L.abort k, { c with pc := .removing todo })
  | .scan _ | .returned _ => none

end Call

structure St where
  listeners : Listeners
  calls : List Call

inductive Label where
  | call (request : Request)
  | scan (c : Nat) (found : List ListenerId)
  | next (c : Nat)
  | register (k : ListenerId) (x : SessionId)

def step (s : St) : Label → Option St
  | .call request => some { s with calls := s.calls ++ [Call.start request] }
  | .scan c found => do
    let call ← s.calls[c]?
    let call' ← call.scan s.listeners found
    return { s with calls := s.calls.set c call' }
  | .next c => do
    let call ← s.calls[c]?
    let (listeners, call') ← call.next s.listeners
    return ⟨listeners, s.calls.set c call'⟩
  | .register k x => do
    let listeners ← s.listeners.register k x
    return { s with listeners := listeners }

/-- Any open listeners, with any clients, and no request yet. -/
def Init (s : St) : Prop := s.calls = []

def system : LTS St Label := .ofFn Init step

/-! ## What a step does -/

theorem step_cases {s s' : St} {l : Label} (h : step s l = some s') :
    (∃ request, l = .call request ∧ s' = { s with calls := s.calls ++ [Call.start request] }) ∨
    (∃ c found call call', l = .scan c found ∧ s.calls[c]? = some call ∧
      call.scan s.listeners found = some call' ∧ s' = { s with calls := s.calls.set c call' }) ∨
    (∃ c call listeners call', l = .next c ∧ s.calls[c]? = some call ∧
      call.next s.listeners = some (listeners, call') ∧ s' = ⟨listeners, s.calls.set c call'⟩) ∨
    (∃ k x listeners, l = .register k x ∧ s.listeners.register k x = some listeners ∧
      s' = { s with listeners := listeners }) := by
  cases l with
  | call request => exact .inl ⟨request, rfl, (Option.some.inj h).symm⟩
  | scan c found =>
    obtain ⟨call, hc, h⟩ := Option.bind_eq_some_iff.1 h
    obtain ⟨call', hs, h⟩ := Option.bind_eq_some_iff.1 h
    exact .inr (.inl ⟨c, found, call, call', rfl, hc, hs, (Option.some.inj h).symm⟩)
  | next c =>
    obtain ⟨call, hc, h⟩ := Option.bind_eq_some_iff.1 h
    obtain ⟨⟨listeners, call'⟩, hn, h⟩ := Option.bind_eq_some_iff.1 h
    exact .inr (.inr (.inl ⟨c, call, listeners, call', rfl, hc, hn, (Option.some.inj h).symm⟩))
  | register k x =>
    obtain ⟨listeners, hr, h⟩ := Option.bind_eq_some_iff.1 h
    exact .inr (.inr (.inr ⟨k, x, listeners, rfl, hr, (Option.some.inj h).symm⟩))

@[simp] theorem Listeners.modifyEntry_self (L : Listeners) (k : ListenerId) (f : Entry → Entry) :
    (L.modifyEntry k f).entries k = f (L.entries k) := if_pos rfl

theorem Listeners.modifyEntry_of_ne (L : Listeners) {k k' : ListenerId} (f : Entry → Entry)
    (h : k' ≠ k) : (L.modifyEntry k f).entries k' = L.entries k' := if_neg h

/-- What every step can do to the listeners: nothing is opened, un-closed or
un-aborted, and an aborted listener has no new clients. -/
structure Later (L L' : Listeners) : Prop where
  openListeners : ∀ k ∈ L'.openListeners, k ∈ L.openListeners
  closed : ∀ k, ∀ x ∈ (L.entries k).closed, x ∈ (L'.entries k).closed
  aborted : ∀ k, (L.entries k).aborted = true →
    (L'.entries k).aborted = true ∧ (L'.entries k).clients = (L.entries k).clients

/-- An entry that `Later` allows. -/
theorem later_modifyEntry {L : Listeners} {k : ListenerId} {f : Entry → Entry}
    (hc : ∀ x ∈ (L.entries k).closed, x ∈ (f (L.entries k)).closed)
    (ha : (L.entries k).aborted = true →
      (f (L.entries k)).aborted = true ∧ (f (L.entries k)).clients = (L.entries k).clients) :
    Later L (L.modifyEntry k f) := by
  refine ⟨fun _ h => h, fun k' x hx => ?_, fun k' h => ?_⟩
  · by_cases hk : k' = k
    · subst hk; rw [Listeners.modifyEntry_self]; exact hc x hx
    · rw [L.modifyEntry_of_ne f hk]; exact hx
  · by_cases hk : k' = k
    · subst hk; rw [Listeners.modifyEntry_self]; exact ha h
    · rw [L.modifyEntry_of_ne f hk]; exact ⟨h, rfl⟩

theorem later_refl (L : Listeners) : Later L L :=
  ⟨fun _ h => h, fun _ _ h => h, fun _ h => ⟨h, rfl⟩⟩

theorem later_register {L L' : Listeners} {k : ListenerId} {x : SessionId}
    (h : L.register k x = some L') : Later L L' := by
  unfold Listeners.register at h
  split at h
  · cases h
  · rename_i hn
    obtain rfl := Option.some.inj h
    exact later_modifyEntry (fun _ h => h) fun ha => absurd (.inl ha) hn

theorem clients_register_of_ne {L L' : Listeners} {k k' : ListenerId} {x : SessionId}
    (h : L.register k x = some L') (hk : k' ≠ k) : L'.entries k' = L.entries k' := by
  unfold Listeners.register at h
  split at h
  · cases h
  · obtain rfl := Option.some.inj h
    exact L.modifyEntry_of_ne _ hk

theorem clients_close (L : Listeners) (k : ListenerId) (x : SessionId) (k' : ListenerId) :
    ((L.close k x).entries k').clients = (L.entries k').clients := by
  by_cases hk : k' = k
  · subst hk; unfold Listeners.close; rw [Listeners.modifyEntry_self]
  · unfold Listeners.close; rw [L.modifyEntry_of_ne _ hk]

theorem clients_abort (L : Listeners) (k k' : ListenerId) :
    ((L.abort k).entries k').clients = (L.entries k').clients := by
  by_cases hk : k' = k
  · subst hk; unfold Listeners.abort; rw [Listeners.modifyEntry_self]
  · unfold Listeners.abort; rw [L.modifyEntry_of_ne _ hk]

/-- The loop's steps, one by one. -/
theorem next_cases {c c' : Call} {L L' : Listeners} (h : c.next L = some (L', c')) :
    (c.pc = .removing [] ∧ L' = L ∧ c' = { c with pc := .returned noContent }) ∨
    (∃ k todo, c.pc = .removing (k :: todo) ∧ k ∈ L.openListeners ∧ L' = L.remove k ∧
      c' = { c with pc := .snapshot k todo, removed := k :: c.removed }) ∨
    (∃ k todo, c.pc = .removing (k :: todo) ∧ k ∉ L.openListeners ∧ L' = L ∧
      c' = { c with pc := .returned notFound }) ∨
    (∃ k todo, c.pc = .snapshot k todo ∧ L' = L ∧
      c' = { c with pc := .closing k (L.entries k).clients todo }) ∨
    (∃ k x xs todo, c.pc = .closing k (x :: xs) todo ∧ L' = L.close k x ∧
      c' = { c with pc := .closing k xs todo }) ∨
    (∃ k todo, c.pc = .closing k [] todo ∧ L' = L.abort k ∧
      c' = { c with pc := .removing todo }) := by
  unfold Call.next at h
  split at h
  · rename_i hp; cases h; exact .inl ⟨hp, rfl, rfl⟩
  · rename_i k todo hp
    split at h
    · rename_i hk; cases h; exact .inr (.inl ⟨k, todo, hp, hk, rfl, rfl⟩)
    · rename_i hk; cases h; exact .inr (.inr (.inl ⟨k, todo, hp, hk, rfl, rfl⟩))
  · rename_i k todo hp; cases h; exact .inr (.inr (.inr (.inl ⟨k, todo, hp, rfl, rfl⟩)))
  · rename_i k x xs todo hp
    cases h; exact .inr (.inr (.inr (.inr (.inl ⟨k, x, xs, todo, hp, rfl, rfl⟩))))
  · rename_i k todo hp
    cases h; exact .inr (.inr (.inr (.inr (.inr ⟨k, todo, hp, rfl, rfl⟩))))
  · cases h
  · cases h

theorem later_next {c c' : Call} {L L' : Listeners} (h : c.next L = some (L', c')) :
    Later L L' := by
  rcases next_cases h with ⟨-, rfl, -⟩ | ⟨k, -, -, -, rfl, -⟩ | ⟨-, -, -, -, rfl, -⟩ |
    ⟨-, -, -, rfl, -⟩ | ⟨k, x, -, -, -, rfl, -⟩ | ⟨k, -, -, rfl, -⟩
  · exact later_refl _
  · exact ⟨fun _ h => List.mem_of_mem_erase h, fun _ _ h => h, fun _ h => ⟨h, rfl⟩⟩
  · exact later_refl _
  · exact later_refl _
  · exact later_modifyEntry (fun _ h => List.mem_cons_of_mem _ h) fun h => ⟨h, rfl⟩
  · exact later_modifyEntry (fun _ h => h) fun _ => ⟨rfl, rfl⟩

theorem clients_next {c c' : Call} {L L' : Listeners} (h : c.next L = some (L', c'))
    (k : ListenerId) : (L'.entries k).clients = (L.entries k).clients := by
  rcases next_cases h with ⟨-, rfl, -⟩ | ⟨k, -, -, -, rfl, -⟩ | ⟨-, -, -, -, rfl, -⟩ |
    ⟨-, -, -, rfl, -⟩ | ⟨k, x, -, -, -, rfl, -⟩ | ⟨k, -, -, rfl, -⟩
  · rfl
  · rfl
  · rfl
  · rfl
  · exact clients_close _ _ _ _
  · exact clients_abort _ _ _

/-! ## Invariants of each request -/

/-- `I` of every request and the shared listeners. -/
def PerCall (I : Listeners → Call → Prop) (s : St) : Prop := ∀ call ∈ s.calls, I s.listeners call

/-- A step keeps `I` of every request when starting, scanning and advancing
establish it of the one that moved, and a change of the listeners keeps it of
the others. -/
theorem PerCall.step {I : Listeners → Call → Prop} {s s' : St} {l : Label}
    (h : step s l = some s') (hi : PerCall I s)
    (hstart : ∀ request, I s.listeners (Call.start request))
    (hscan : ∀ call found call', I s.listeners call → call.scan s.listeners found = some call' →
      I s.listeners call')
    (hnext : ∀ c call L' call', l = .next c → s.calls[c]? = some call → I s.listeners call →
      call.next s.listeners = some (L', call') → I L' call')
    (hother : ∀ call ∈ s.calls, I s.listeners call → Later s.listeners s'.listeners →
      (∀ k, (∃ x, l = .register k x) ∨
        (s'.listeners.entries k).clients = (s.listeners.entries k).clients) →
      I s'.listeners call) :
    PerCall I s' := by
  rcases step_cases h with ⟨request, -, rfl⟩ | ⟨c, found, call, call', -, hc, hs, rfl⟩ |
    ⟨c, call, L', call', hl, hc, hn, rfl⟩ | ⟨k, x, L', hl, hr, rfl⟩
  · intro call hm
    simp only [List.mem_append, List.mem_singleton] at hm
    rcases hm with hm | hm
    · exact hi call hm
    · subst hm
      exact hstart request
  · intro call'' hm
    rcases List.mem_or_eq_of_mem_set hm with hm | rfl
    · exact hi call'' hm
    · exact hscan call found call'' (hi call (List.mem_of_getElem? hc)) hs
  · intro call'' hm
    rcases List.mem_or_eq_of_mem_set hm with hm | rfl
    · exact hother call'' hm (hi call'' hm) (later_next hn) fun k => .inr (clients_next hn k)
    · exact hnext c call L' call'' hl hc (hi call (List.mem_of_getElem? hc)) hn
  · intro call hm
    refine hother call hm (hi call hm) (later_register hr) fun k' => ?_
    by_cases hk : k' = k
    · exact .inl ⟨x, hk ▸ hl⟩
    · exact .inr (by rw [clients_register_of_ne hr hk])

theorem finished_later {L L' : Listeners} {k : ListenerId} (h : L.Finished k) (hl : Later L L') :
    L'.Finished k := by
  obtain ⟨ha, hc⟩ := h
  obtain ⟨ha', he⟩ := hl.aborted k ha
  exact ⟨ha', fun x hx => hl.closed k x (hc x (he ▸ hx))⟩

theorem gone_later {L L' : Listeners} {k : ListenerId} (h : L.Gone k) (hl : Later L L') :
    L'.Gone k :=
  ⟨fun hm => h.1 (hl.openListeners k hm), finished_later h.2 hl⟩

/-- While a request closes the clients of `k`, each of them is closed or still
to be closed. -/
def Covers (L : Listeners) (pc : Pc) : Prop :=
  ∀ k xs todo, pc = .closing k xs todo → ∀ x ∈ (L.entries k).clients,
    x ∈ (L.entries k).closed ∨ x ∈ xs

theorem covers_next {c c' : Call} {L L' : Listeners} (hcov : Covers L c.pc)
    (h : c.next L = some (L', c')) : Covers L' c'.pc := by
  rcases next_cases h with ⟨-, rfl, rfl⟩ | ⟨k, todo, -, -, rfl, rfl⟩ | ⟨k, todo, -, -, rfl, rfl⟩ |
    ⟨k, todo, -, rfl, rfl⟩ | ⟨k, x, xs, todo, hp, rfl, rfl⟩ | ⟨k, todo, -, rfl, rfl⟩
  · nofun
  · nofun
  · nofun
  · intro _ _ _ he x hx
    cases he
    exact .inr hx
  · intro _ _ _ he y hy
    cases he
    rw [clients_close] at hy
    unfold Listeners.close
    rw [Listeners.modifyEntry_self]
    rcases hcov k (x :: xs) todo hp y hy with hc | hm
    · exact .inl (List.mem_cons_of_mem _ hc)
    · simp only [List.mem_cons] at hm
      rcases hm with hm | hm
      · simp [hm]
      · exact .inr hm
  · nofun

/-- The last of the clients closed, the abort finishes the listener. -/
theorem finished_abort {L : Listeners} {k : ListenerId} {todo : List ListenerId}
    (hcov : Covers L (.closing k [] todo)) : (L.abort k).Finished k := by
  unfold Listeners.abort
  refine ⟨by rw [Listeners.modifyEntry_self], fun x hx => ?_⟩
  rw [Listeners.modifyEntry_self] at hx ⊢
  rcases hcov k [] todo rfl x hx with hc | hm
  · exact hc
  · exact absurd hm List.not_mem_nil

/-! ## Sessions of a removed listener -/

/-- No session is registered between the snapshot and the abort of its entry. -/
def NoLateRegistration (s : St) : Label → Prop
  | .register k _ => ∀ call ∈ s.calls, call.pc.closing? ≠ some k
  | _ => True

instance (s : St) (l : Label) : Decidable (NoLateRegistration s l) :=
  match l with
  | .register k _ => inferInstanceAs (Decidable (∀ call ∈ s.calls, call.pc.closing? ≠ some k))
  | .call _ | .scan _ _ | .next _ => inferInstanceAs (Decidable True)

structure RemovedClosed (L : Listeners) (c : Call) : Prop where
  removed : ∀ k ∈ c.removed, c.pc.current = some k ∨ L.Finished k
  covers : Covers L c.pc

theorem removedClosed_start (L : Listeners) (request : Request) :
    RemovedClosed L (Call.start request) := by
  unfold Call.start
  split <;> exact ⟨nofun, nofun⟩

theorem scan_cases {c c' : Call} {L : Listeners} {found : List ListenerId}
    (h : c.scan L found = some c') :
    ∃ ip, c.pc = .scan ip ∧
      found.Perm (L.openListeners.filter (selects c.request.protocol ip c.request.port)) ∧
      ((found = [] ∧ c' = { c with pc := .returned notFound }) ∨
        c' = { c with pc := .removing found, scanned := found }) := by
  unfold Call.scan at h
  split at h
  · rename_i ip hp
    split at h
    · rename_i hperm
      refine ⟨ip, hp, hperm, ?_⟩
      split at h
      · cases h; exact .inl ⟨rfl, rfl⟩
      · cases h; exact .inr rfl
    · cases h
  · cases h

theorem removedClosed_scan {c c' : Call} {L : Listeners} {found : List ListenerId}
    (hi : RemovedClosed L c) (h : c.scan L found = some c') : RemovedClosed L c' := by
  obtain ⟨ip, hp, -, ⟨-, rfl⟩ | rfl⟩ := scan_cases h
  · refine ⟨fun k hk => ?_, nofun⟩
    rcases hi.removed k hk with hc | hf
    · rw [hp] at hc; cases hc
    · exact .inr hf
  · refine ⟨fun k hk => ?_, nofun⟩
    rcases hi.removed k hk with hc | hf
    · rw [hp] at hc; cases hc
    · exact .inr hf

theorem removedClosed_next {c c' : Call} {L L' : Listeners} (hi : RemovedClosed L c)
    (h : c.next L = some (L', c')) : RemovedClosed L' c' := by
  have hl := later_next h
  refine ⟨fun k hk => ?_, covers_next hi.covers h⟩
  rcases next_cases h with ⟨hp, rfl, rfl⟩ | ⟨j, todo, hp, -, rfl, rfl⟩ | ⟨j, todo, hp, -, rfl, rfl⟩ |
    ⟨j, todo, hp, rfl, rfl⟩ | ⟨j, x, xs, todo, hp, rfl, rfl⟩ | ⟨j, todo, hp, rfl, rfl⟩
  · exact .inr ((hi.removed k hk).resolve_left (by rw [hp]; nofun))
  · rcases List.mem_cons.1 hk with rfl | hk
    · exact .inl rfl
    · exact .inr (finished_later ((hi.removed k hk).resolve_left (by rw [hp]; nofun)) hl)
  · exact .inr ((hi.removed k hk).resolve_left (by rw [hp]; nofun))
  · rcases hi.removed k hk with hc | hf
    · rw [hp] at hc; exact .inl hc
    · exact .inr hf
  · rcases hi.removed k hk with hc | hf
    · rw [hp] at hc; exact .inl hc
    · exact .inr (finished_later hf hl)
  · rcases hi.removed k hk with hc | hf
    · rw [hp] at hc
      cases hc
      exact .inr (finished_abort (hp ▸ hi.covers))
    · exact .inr (finished_later hf hl)

theorem covers_of_clients {L L' : Listeners} {pc : Pc} (h : Covers L pc) (hl : Later L L')
    (hc : ∀ k, pc.closing? = some k → (L'.entries k).clients = (L.entries k).clients) :
    Covers L' pc := by
  intro k xs todo he x hx
  subst he
  rw [hc k rfl] at hx
  rcases h k xs todo rfl x hx with hd | hm
  · exact .inl (hl.closed k x hd)
  · exact .inr hm

theorem removedClosed_inductive :
    (system.restrict NoLateRegistration).Inductive (PerCall RemovedClosed) where
  init s h0 call hm := by rw [show s.calls = [] from h0] at hm; cases hm
  step s l s' hi hs := by
    obtain ⟨hs, hC⟩ := hs
    refine PerCall.step hs hi (removedClosed_start _) (fun _ _ _ => removedClosed_scan)
      (fun _ _ _ _ _ _ => removedClosed_next) fun call hm h hl hc => ?_
    refine ⟨fun k hk => (h.removed k hk).imp_right (finished_later · hl), ?_⟩
    refine covers_of_clients h.covers hl fun k hk => (hc k).resolve_left ?_
    intro hreg
    obtain ⟨x, rfl⟩ := hreg
    exact hC call hm hk

/-- **No live session is left** under a listener that a request has removed once
the request has answered 204, in every run in which no session is registered
between the snapshot and the abort of its entry. -/
theorem no_live_session_left {s : St} {call : Call}
    (hr : (system.restrict NoLateRegistration).Reachable s) (hc : call ∈ s.calls)
    (hret : call.pc = .returned noContent) :
    ∀ k ∈ call.removed, ∀ x ∈ (s.listeners.entries k).clients,
      x ∈ (s.listeners.entries k).closed := by
  intro k hk
  have h := removedClosed_inductive.reachable s hr call hc
  rcases h.removed k hk with hcur | hf
  · rw [hret] at hcur; cases hcur
  · exact hf.2

def listener (port : UInt16) : ListenerId := ⟨.tcp, ⟨.v4 127 0 0 1, port⟩⟩

/-- Two open listeners, with `clients` at the first. -/
def twoOpen (clients : List SessionId) : St where
  listeners :=
    { openListeners := [listener 1, listener 2]
      nodup := by decide
      entries := fun k => ⟨if k = listener 1 then clients else [], [], false⟩ }
  calls := []

def closePort (port : UInt16) : Request := ⟨.tcp, "127.0.0.1", port⟩

/-- The session registered between the snapshot and the abort survives the 204. -/
theorem late_session_survives : ∃ (s : St) (call : Call), system.Reachable s ∧ call ∈ s.calls ∧
    call.pc = .returned noContent ∧ listener 1 ∈ call.removed ∧
    7 ∈ (s.listeners.entries (listener 1)).clients ∧
    7 ∉ (s.listeners.entries (listener 1)).closed := by
  refine ⟨_, _, LTS.reachable_of_exec (twoOpen []) [.call (closePort 1), .scan 0 [listener 1],
    .next 0, .next 0, .register (listener 1) 7, .next 0, .next 0] rfl rfl,
    List.mem_cons_self, rfl, ?_⟩
  decide

/-- One session before the request, one before its snapshot. -/
theorem sessions_before_snapshot_closed : ∃ (s : St) (call : Call), call.pc = .returned noContent ∧
    listener 1 ∈ call.removed ∧ (s.listeners.entries (listener 1)).clients = [5, 4] ∧
    ∀ k ∈ call.removed, ∀ x ∈ (s.listeners.entries k).clients,
      x ∈ (s.listeners.entries k).closed := by
  obtain ⟨s, call, hr, hc, hret, hrem, hcl⟩ : ∃ (s : St) (call : Call),
      (system.restrict NoLateRegistration).Reachable s ∧ call ∈ s.calls ∧
      call.pc = .returned noContent ∧ listener 1 ∈ call.removed ∧
      (s.listeners.entries (listener 1)).clients = [5, 4] :=
    ⟨_, _, LTS.restrict_reachable_of_exec (twoOpen [4])
      [.call (closePort 1), .scan 0 [listener 1], .next 0, .register (listener 1) 5, .next 0,
        .next 0, .next 0, .next 0, .next 0] rfl rfl, List.mem_cons_self, rfl, List.mem_cons_self,
      rfl⟩
  exact ⟨s, call, hret, hrem, hcl, no_live_session_left hr hc hret⟩

/-! ## Every listener scanned -/

def NotRegister (_ : St) : Label → Prop
  | .register _ _ => False
  | _ => True

instance (s : St) (l : Label) : Decidable (NotRegister s l) :=
  match l with
  | .register _ _ => inferInstanceAs (Decidable False)
  | .call _ | .scan _ _ | .next _ => inferInstanceAs (Decidable True)

/-- The requests alone, without the accept tasks. -/
def callsOnly : LTS St Label := system.restrict NotRegister

/-- The keys a request is about to remove. -/
def Pc.pending : Pc → List ListenerId
  | .removing todo => todo
  | _ => []

/-- Requests alone, and one that finds its next key gone has only closed
listeners left. -/
def Undisturbed (s : St) : Label → Prop
  | .next c => ∀ call ∈ s.calls[c]?, ∀ k ∈ call.pc.pending.head?,
      k ∈ s.listeners.openListeners ∨ ∀ k' ∈ call.pc.pending, s.listeners.Gone k'
  | .register _ _ => False
  | .call _ | .scan _ _ => True

instance (s : St) (l : Label) : Decidable (Undisturbed s l) :=
  match l with
  | .next c => inferInstanceAs (Decidable (∀ call ∈ s.calls[c]?, ∀ k ∈ call.pc.pending.head?, _))
  | .register _ _ => inferInstanceAs (Decidable False)
  | .call _ | .scan _ _ => inferInstanceAs (Decidable True)

/-- The listeners a request is about: its protocol, its ip and, unless that is 0,
its port. -/
structure Request.Names (r : Request) (k : ListenerId) : Prop where
  protocol : k.protocol = r.protocol
  ip : IpAddr.fromStr r.ip = some k.addr.ip
  port : r.port = 0 ∨ k.addr.port = r.port

theorem selects_iff {r : Request} {ip : IpAddr} (hip : IpAddr.fromStr r.ip = some ip)
    (k : ListenerId) : selects r.protocol ip r.port k = true ↔ r.Names k := by
  simp only [selects, Bool.and_eq_true, Bool.or_eq_true, beq_iff_eq]
  constructor
  · intro h
    obtain ⟨⟨hp, rfl⟩, hport⟩ := h
    exact ⟨hp.symm, hip, hport.symm⟩
  · intro h
    obtain ⟨hp, hi, hport⟩ := h
    rw [hip] at hi
    exact ⟨⟨hp.symm, (Option.some.inj hi).symm⟩, hport.symm⟩

/-- A request only works on listeners it is about. -/
structure Selected (c : Call) : Prop where
  ip : ∀ ip, c.pc = .scan ip → IpAddr.fromStr c.request.ip = some ip
  named : ∀ k ∈ c.scanned, c.request.Names k
  todo : ∀ k ∈ c.pc.todo, k ∈ c.scanned
  current : ∀ k, c.pc.current = some k → k ∈ c.scanned

theorem selected_start (request : Request) : Selected (Call.start request) := by
  unfold Call.start
  split
  · rename_i ip hip
    exact ⟨fun _ h => by cases h; exact hip, nofun, nofun, nofun⟩
  · exact ⟨nofun, nofun, nofun, nofun⟩

theorem mem_found_iff {c c' : Call} {L : Listeners} {found : List ListenerId} (hi : Selected c)
    (h : c.scan L found = some c') (k : ListenerId) :
    k ∈ found ↔ k ∈ L.openListeners ∧ c.request.Names k := by
  obtain ⟨ip, hp, hperm, -⟩ := scan_cases h
  rw [hperm.mem_iff, List.mem_filter, selects_iff (hi.ip ip hp)]

theorem selected_scan {c c' : Call} {L : Listeners} {found : List ListenerId} (hi : Selected c)
    (h : c.scan L found = some c') : Selected c' := by
  have hmem := mem_found_iff hi h
  obtain ⟨ip, -, -, ⟨-, rfl⟩ | rfl⟩ := scan_cases h
  · exact ⟨nofun, hi.named, nofun, nofun⟩
  · exact ⟨nofun, fun k hk => ((hmem k).1 hk).2, fun _ hk => hk, nofun⟩

theorem selected_next {c c' : Call} {L L' : Listeners} (hi : Selected c)
    (h : c.next L = some (L', c')) : Selected c' := by
  have h1 := hi.todo
  have h2 := hi.current
  rcases next_cases h with ⟨-, -, rfl⟩ | ⟨k, todo, hp, -, -, rfl⟩ | ⟨_, _, -, -, -, rfl⟩ |
    ⟨k, todo, hp, -, rfl⟩ | ⟨k, x, xs, todo, hp, -, rfl⟩ | ⟨k, todo, hp, -, rfl⟩
  · exact ⟨nofun, hi.named, nofun, nofun⟩
  · rw [hp] at h1
    refine ⟨nofun, hi.named, fun k hk => h1 k (List.mem_cons_of_mem _ hk), ?_⟩
    intro _ he
    cases he
    exact h1 k List.mem_cons_self
  · exact ⟨nofun, hi.named, nofun, nofun⟩
  · rw [hp] at h1 h2
    exact ⟨nofun, hi.named, h1, h2⟩
  · rw [hp] at h1 h2
    exact ⟨nofun, hi.named, h1, h2⟩
  · rw [hp] at h1
    exact ⟨nofun, hi.named, h1, nofun⟩

theorem selected_inductive : system.Inductive (PerCall fun _ => Selected) where
  init s h0 call hm := by rw [show s.calls = [] from h0] at hm; cases hm
  step s l s' hi hs := PerCall.step hs hi selected_start (fun _ _ _ => selected_scan)
    (fun _ _ _ _ _ _ => selected_next) fun _ _ h _ _ => h

/-- The listener is in the table as before, with the same entry. -/
def Untouched (L L' : Listeners) (k : ListenerId) : Prop :=
  (k ∈ L'.openListeners ↔ k ∈ L.openListeners) ∧ L'.entries k = L.entries k

theorem untouched_refl (L : Listeners) (k : ListenerId) : Untouched L L k := ⟨.rfl, rfl⟩

theorem untouched_next {c c' : Call} {L L' : Listeners} {k : ListenerId} (hi : Selected c)
    (h : c.next L = some (L', c')) (hk : ¬c.request.Names k) : Untouched L L' k := by
  have hne : ∀ j ∈ c.scanned, k ≠ j := fun j hj e => hk (e ▸ hi.named j hj)
  rcases next_cases h with ⟨-, rfl, -⟩ | ⟨j, todo, hp, -, rfl, -⟩ | ⟨-, -, -, -, rfl, -⟩ |
    ⟨-, -, -, rfl, -⟩ | ⟨j, x, xs, todo, hp, rfl, -⟩ | ⟨j, todo, hp, rfl, -⟩
  · exact untouched_refl _ _
  · have hj : j ∈ c.scanned := hi.todo j (by rw [hp]; exact List.mem_cons_self)
    exact ⟨List.mem_erase_of_ne (hne j hj), rfl⟩
  · exact untouched_refl _ _
  · exact untouched_refl _ _
  · have hj : j ∈ c.scanned := hi.current j (by rw [hp]; rfl)
    exact ⟨.rfl, L.modifyEntry_of_ne _ (hne j hj)⟩
  · have hj : j ∈ c.scanned := hi.current j (by rw [hp]; rfl)
    exact ⟨.rfl, L.modifyEntry_of_ne _ (hne j hj)⟩

/-- Where the keys of a request are: still to come, current, or gone. -/
structure Tracks (L : Listeners) (c : Call) : Prop where
  scanned : ∀ k ∈ c.scanned, k ∈ c.pc.todo ∨ c.pc.current = some k ∨ L.Gone k
  current : ∀ k, c.pc.current = some k → k ∉ L.openListeners
  covers : Covers L c.pc

theorem tracks_start (L : Listeners) (request : Request) : Tracks L (Call.start request) := by
  unfold Call.start
  split <;> exact ⟨nofun, nofun, nofun⟩

theorem tracks_scan {c c' : Call} {L : Listeners} {found : List ListenerId} (hi : Tracks L c)
    (h : c.scan L found = some c') : Tracks L c' := by
  obtain ⟨ip, hp, -, ⟨-, rfl⟩ | rfl⟩ := scan_cases h
  · refine ⟨fun k hk => ?_, nofun, nofun⟩
    have := hi.scanned k hk
    rw [hp] at this
    exact .inr (.inr ((this.resolve_left List.not_mem_nil).resolve_left nofun))
  · exact ⟨fun _ hk => .inl hk, nofun, nofun⟩

theorem tracks_next {c c' : Call} {L L' : Listeners} (hi : Tracks L c)
    (h : c.next L = some (L', c'))
    (hu : ∀ k todo, c.pc = .removing (k :: todo) →
      k ∈ L.openListeners ∨ ∀ k' ∈ k :: todo, L.Gone k') : Tracks L' c' := by
  have hl := later_next h
  have hcov := covers_next hi.covers h
  have h1 := hi.scanned
  have h2 := hi.current
  rcases next_cases h with ⟨hp, rfl, rfl⟩ | ⟨j, todo, hp, hj, rfl, rfl⟩ |
    ⟨j, todo, hp, hj, rfl, rfl⟩ | ⟨j, todo, hp, rfl, rfl⟩ | ⟨j, x, xs, todo, hp, rfl, rfl⟩ |
    ⟨j, todo, hp, rfl, rfl⟩ <;> rw [hp] at h1 h2
  · -- answered 204: nothing was left
    refine ⟨fun k hk => ?_, nofun, hcov⟩
    exact .inr (.inr (((h1 k hk).resolve_left List.not_mem_nil).resolve_left nofun))
  · -- the next key is taken out
    refine ⟨fun k hk => ?_, fun k hk => ?_, hcov⟩
    · rcases h1 k hk with hm | hc | hg
      · rcases List.mem_cons.1 hm with rfl | hm
        · exact .inr (.inl rfl)
        · exact .inl hm
      · cases hc
      · exact .inr (.inr (gone_later hg hl))
    · cases hk
      exact L.nodup.not_mem_erase
  · -- the next key is gone, and so are all after it
    refine ⟨fun k hk => ?_, nofun, hcov⟩
    rcases h1 k hk with hm | hc | hg
    · exact .inr (.inr ((hu j todo hp).resolve_left hj k hm))
    · cases hc
    · exact .inr (.inr hg)
  · -- the snapshot moves nothing
    exact ⟨h1, h2, hcov⟩
  · -- one client closed
    exact ⟨fun k hk => (h1 k hk).imp_right (.imp_right (gone_later · hl)), h2, hcov⟩
  · -- the abort: the current key is gone
    refine ⟨fun k hk => ?_, nofun, hcov⟩
    rcases h1 k hk with hm | hc | hg
    · exact .inl hm
    · cases hc
      exact .inr (.inr ⟨h2 j rfl, finished_abort (hp ▸ hi.covers)⟩)
    · exact .inr (.inr (gone_later hg hl))

theorem tracks_later {L L' : Listeners} {c : Call} (h : Tracks L c) (hl : Later L L')
    (hc : ∀ k, (L'.entries k).clients = (L.entries k).clients) : Tracks L' c where
  scanned k hk := (h.scanned k hk).imp_right (.imp_right (gone_later · hl))
  current k hk hm := h.current k hk (hl.openListeners k hm)
  covers := covers_of_clients h.covers hl fun k _ => hc k

theorem tracks_inductive : (system.restrict Undisturbed).Inductive (PerCall Tracks) where
  init s h0 call hm := by rw [show s.calls = [] from h0] at hm; cases hm
  step s l s' hi hs := by
    obtain ⟨hs, hC⟩ := hs
    refine PerCall.step hs hi (tracks_start _) (fun _ _ _ => tracks_scan) ?_ ?_
    · intro c call L' call' he hc h hn
      subst he
      refine tracks_next h hn fun k todo hp => ?_
      have hu := hC call hc k
      rw [hp] at hu
      exact hu rfl
    · intro call _ h hl hc
      refine tracks_later h hl fun k => (hc k).resolve_left ?_
      intro hreg
      obtain ⟨x, rfl⟩ := hreg
      exact hC

/-- The request in slot `c` is past its scan, which found `scanned`. -/
def Scanned (c : Nat) (request : Request) (scanned : List ListenerId) (s : St) : Prop :=
  ∃ call, s.calls[c]? = some call ∧ call.request = request ∧ call.scanned = scanned ∧
    ∀ ip, call.pc ≠ .scan ip

theorem next_keeps {c c' : Call} {L L' : Listeners} (h : c.next L = some (L', c')) :
    c'.request = c.request ∧ c'.scanned = c.scanned ∧ ∀ ip, c'.pc ≠ .scan ip := by
  rcases next_cases h with ⟨-, -, rfl⟩ | ⟨_, _, -, -, -, rfl⟩ | ⟨_, _, -, -, -, rfl⟩ |
    ⟨_, _, -, -, rfl⟩ | ⟨_, _, _, _, -, -, rfl⟩ | ⟨_, _, -, -, rfl⟩ <;>
  exact ⟨rfl, rfl, nofun⟩

theorem scanned_step {c : Nat} {request : Request} {scanned : List ListenerId} {s s' : St}
    {l : Label} (h : step s l = some s') (hi : Scanned c request scanned s) :
    Scanned c request scanned s' := by
  obtain ⟨call, hc, hr, hsc, hp⟩ := hi
  have hlt : c < s.calls.length := (List.getElem?_eq_some_iff.1 hc).1
  rcases step_cases h with ⟨_, -, rfl⟩ | ⟨d, found, call', call'', -, hd, hs, rfl⟩ |
    ⟨d, call', L', call'', -, hd, hn, rfl⟩ | ⟨_, _, L', -, -, rfl⟩
  · exact ⟨call, by rw [← hc]; exact List.getElem?_append_left hlt, hr, hsc, hp⟩
  · by_cases hcd : d = c
    · subst hcd
      rw [hc] at hd
      obtain rfl := Option.some.inj hd
      obtain ⟨ip, hip, -⟩ := scan_cases hs
      exact absurd hip (hp ip)
    · exact ⟨call, by rw [← hc]; exact List.getElem?_set_ne hcd, hr, hsc, hp⟩
  · by_cases hcd : d = c
    · subst hcd
      rw [hc] at hd
      obtain rfl := Option.some.inj hd
      obtain ⟨h1, h2, h3⟩ := next_keeps hn
      exact ⟨call'', List.getElem?_set_self hlt, h1.trans hr, h2.trans hsc, h3⟩
    · exact ⟨call, by rw [← hc]; exact List.getElem?_set_ne hcd, hr, hsc, hp⟩
  · exact ⟨call, hc, hr, hsc, hp⟩

/-- Right after its scan a request has all the open listeners it is about. -/
theorem scanned_scan {s s' : St} {c : Nat} {found : List ListenerId}
    (hi : PerCall (fun _ => Selected) s) (h : step s (.scan c found) = some s') :
    ∃ request scanned, Scanned c request scanned s' ∧
      ∀ k ∈ s.listeners.openListeners, request.Names k → k ∈ scanned := by
  rcases step_cases h with ⟨_, ⟨⟩, -⟩ | ⟨d, found', call, call', hl, hc, hs, rfl⟩ |
    ⟨_, _, _, _, ⟨⟩, -⟩ | ⟨_, _, _, ⟨⟩, -⟩
  cases hl
  have hlt : c < s.calls.length := (List.getElem?_eq_some_iff.1 hc).1
  have hmem := mem_found_iff (hi call (List.mem_of_getElem? hc)) hs
  refine ⟨call.request, call'.scanned, ⟨call', List.getElem?_set_self hlt, ?_, rfl, ?_⟩, ?_⟩ <;>
    obtain ⟨ip, -, -, ⟨rfl, rfl⟩ | rfl⟩ := scan_cases hs
  · rfl
  · rfl
  · nofun
  · nofun
  · exact fun k hk hn => absurd ((hmem k).2 ⟨hk, hn⟩) List.not_mem_nil
  · exact fun k hk hn => (hmem k).2 ⟨hk, hn⟩

/-- What a bulk close has to achieve by the time it answers in `s`, when its scan
ran in `s₁`: the listeners it is about are gone. Apart from that, no step of any
request touches a listener that the request is not about. -/
structure BulkCloseDone (s₁ s : St) (request : Request) : Prop where
  gone : ∀ k ∈ s₁.listeners.openListeners, request.Names k → s.listeners.Gone k
  frame : ∀ t l t' k, callsOnly.Reachable t → callsOnly.step t l t' →
    Untouched t.listeners t'.listeners k ∨
      ∃ c call, l = .next c ∧ t.calls[c]? = some call ∧ call.request.Names k

theorem untouched_step {t t' : St} {l : Label} (k : ListenerId) (ht : callsOnly.Reachable t)
    (hs : callsOnly.step t l t') :
    Untouched t.listeners t'.listeners k ∨
      ∃ c call, l = .next c ∧ t.calls[c]? = some call ∧ call.request.Names k := by
  obtain ⟨hs, hreg⟩ := hs
  rcases step_cases hs with ⟨_, -, rfl⟩ | ⟨_, _, _, _, -, -, -, rfl⟩ |
    ⟨c, call, L', call', rfl, hc, hn, rfl⟩ | ⟨j, x, _, rfl, -⟩
  · exact .inl (untouched_refl _ _)
  · exact .inl (untouched_refl _ _)
  · by_cases hk : call.request.Names k
    · exact .inr ⟨c, call, rfl, hc, hk⟩
    · have hi := selected_inductive.reachable t ht.of_restrict call (List.mem_of_getElem? hc)
      exact .inl (untouched_next hi hn hk)
  · exact hreg.elim

/-- **Bulk close completes** with whatever answer, in every run of requests in
which one that finds a key gone has only closed listeners left. -/
theorem bulk_close_completes {s₀ s₁ s₂ s : St} {ls ls' : List Label} {c : Nat}
    {found : List ListenerId} {call : Call} {response : Response} (h0 : Init s₀)
    (hr : (system.restrict Undisturbed).Run s₀ ls s₁)
    (hscan : step s₁ (.scan c found) = some s₂)
    (hr' : (system.restrict Undisturbed).Run s₂ ls' s)
    (hc : s.calls[c]? = some call) (hret : call.pc = .returned response) :
    BulkCloseDone s₁ s call.request := by
  refine ⟨fun k hk hn => ?_, fun t l t' k => untouched_step k⟩
  have hsel := selected_inductive.reachable s₁ ⟨s₀, ls, h0, hr.of_restrict⟩
  obtain ⟨request, scanned, hsc, hall⟩ := scanned_scan hsel hscan
  -- the request and what it scanned stay in its slot
  obtain ⟨call', hc', rfl, rfl, -⟩ := hr'.of_restrict.preserves
    (I := Scanned c request scanned) (fun _ _ _ hi hs => scanned_step hs hi) hsc
  rw [hc] at hc'
  obtain rfl := Option.some.inj hc'
  have ht : Tracks s.listeners call :=
    tracks_inductive.reachable s
      ⟨s₀, ls ++ .scan c found :: ls', h0, hr.append (.cons ⟨hscan, trivial⟩ hr')⟩
      call (List.mem_of_getElem? hc)
  have h := ht.scanned k (hall k hk hn)
  rw [hret] at h
  exact (h.resolve_left List.not_mem_nil).resolve_left nofun

/-- After both requests have come in. -/
def bothCalled : St := { twoOpen [] with calls := [.start (closePort 0), .start (closePort 1)] }

def bulkScanned : St :=
  { bothCalled with
    calls := [⟨closePort 0, .removing [listener 1, listener 2], [listener 1, listener 2], []⟩,
      .start (closePort 1)] }

/-- A bulk close (port 0) meets a request for port 1: the bulk close finds port 1
taken, answers 404, and port 2 stays open. -/
theorem taken_key_ends_bulk_close :
    callsOnly.Run (twoOpen []) [.call (closePort 0), .call (closePort 1)] bothCalled ∧
    step bothCalled (.scan 0 [listener 1, listener 2]) = some bulkScanned ∧
    ∃ (s : St) (call : Call), callsOnly.Run bulkScanned [.scan 1 [listener 1], .next 1, .next 0] s ∧
      s.calls[0]? = some call ∧ call.pc = .returned notFound ∧
      listener 2 ∈ s.listeners.openListeners ∧ ¬BulkCloseDone bothCalled s call.request := by
  refine ⟨LTS.restrict_run_of_exec rfl, rfl, ?_⟩
  obtain ⟨s, call, hr, hc, hret, hreq, hopen⟩ : ∃ (s : St) (call : Call),
      callsOnly.Run bulkScanned [.scan 1 [listener 1], .next 1, .next 0] s ∧
      s.calls[0]? = some call ∧ call.pc = .returned notFound ∧ call.request = closePort 0 ∧
      listener 2 ∈ s.listeners.openListeners :=
    ⟨_, _, LTS.restrict_run_of_exec rfl, rfl, rfl, rfl, List.mem_cons_self⟩
  have hn : call.request.Names (listener 2) := hreq ▸ ⟨rfl, rfl, .inl rfl⟩
  exact ⟨s, call, hr, hc, hret, hopen, fun h => (h.gone _ (by decide) hn).1 hopen⟩

/-- A bulk close next to a request for port 1 that has not scanned yet. -/
theorem lone_bulk_close_completes : ∃ s : St, s.listeners.openListeners = [] ∧
    BulkCloseDone bothCalled s (closePort 0) := by
  obtain ⟨s, call, hr, hc, hret, hreq, hopen⟩ : ∃ (s : St) (call : Call),
      (system.restrict Undisturbed).Run bulkScanned (List.replicate 7 (.next 0)) s ∧
      s.calls[0]? = some call ∧ call.pc = .returned noContent ∧ call.request = closePort 0 ∧
      s.listeners.openListeners = [] :=
    ⟨_, _, LTS.restrict_run_of_exec rfl, rfl, rfl, rfl, rfl⟩
  have h0 : Init (twoOpen []) := rfl
  have h1 : (system.restrict Undisturbed).Run (twoOpen [])
      [.call (closePort 0), .call (closePort 1)] bothCalled := LTS.restrict_run_of_exec rfl
  have hscan : step bothCalled (.scan 0 [listener 1, listener 2]) = some bulkScanned := rfl
  exact ⟨s, hopen, hreq ▸ bulk_close_completes h0 h1 hscan hr hc hret⟩

end Hoprd.RestApi.CloseClient
