import Hoprd.Core.Polling
import Hoprd.Localcluster.Summary
import Hoprd.RestApi.Channels

/-!
# Bringing the channel mesh up (`localcluster/src/client_helper.rs`, `main.rs`)

The orchestrator opens a channel between every two nodes through their REST APIs
(`open_full_mesh_channels`), or waits until strategies have done so, and then waits until
every node lists its channels as open (`wait_full_mesh_channels`). All of these are loops
that try again until a deadline (`Core.Polling`). Between two requests anything may happen
to the channels: an answer carries the node as it is when it answers.

* `isOutgoingChannelOpen_iff`: what the client makes of a listing is whether the answering
  node has an open channel to the address.
* `openFullMeshChannels_iff`: the requests of a call are rounds over the ordered pairs of
  nodes, each pair asked first and opened only if it is not open.
* `calls_end`: the calls make boundedly many requests and only a return stops them.
* `client_reads`: what the client reads of a channel is the status of the node's channel.
* `managed_mesh`: once channel management has succeeded, every node has had an open channel
  to every other one during its last round of questions.
-/
namespace Hoprd.Localcluster.Mesh

open Core Core.Polling RestApi.Channels
open Hoprd.Summary (ChannelManagement)

/-! ## The client -/

/-- How the REST API and its client write things: an address with its checksum, a status,
an error response, and `str::to_lowercase`. -/
structure Texts where
  checksum : Address → String
  status : ChannelStatus → String
  refused : RestApi.ApiErrorStatus → String
  toLowercase : String → String

/-- A written address is still told from others in lower case, and only an open channel is
written so. -/
structure Texts.Distinct (texts : Texts) : Prop where
  checksum : ∀ a b, texts.toLowercase (texts.checksum a) = texts.toLowercase (texts.checksum b) →
    a = b
  status : ∀ s, texts.status s = "Open" ↔ s = .open

/-- An answer to a listing: the node as it is when it answers, or the client's own error. -/
abbrev Answer := Except String Hopr

/-- mirrors localcluster/src/client_helper.rs:263-275 -/
def isOutgoingChannelOpen (texts : Texts) (destination : String) (answer : Answer) :
    Except String Bool :=
  match answer with
  | .error e => .error ("list_channels: " ++ e)
  | .ok hopr =>
    match (listChannels hopr ⟨false, false⟩).body with
    | .error status => .error ("list_channels: " ++ texts.refused status)
    | .ok resp =>
      .ok (resp.outgoing.any fun ch =>
        texts.toLowercase (texts.checksum ch.peerAddress) == texts.toLowercase destination &&
          texts.status ch.status == "Open")

/-- mirrors localcluster/src/client_helper.rs:308-317 -/
def outgoingChannelStatus (texts : Texts) (destination : String) (answer : Answer) :
    Except String (Option String) :=
  match answer with
  | .error e => .error e
  | .ok hopr =>
    match (listChannels hopr ⟨true, false⟩).body with
    | .error status => .error (texts.refused status)
    | .ok resp =>
      .ok ((resp.outgoing.find? fun ch =>
        texts.toLowercase (texts.checksum ch.peerAddress) == texts.toLowercase destination).map
          fun ch => texts.status ch.status)

/-! ## The nodes -/

/-- mirrors localcluster/src/client_helper.rs:407-414 -/
structure NodeProcess where
  id : Nat
  api : String
  address : Option String
  deriving DecidableEq, Repr

/-- A node, another one, the API of the first and the address of the second. -/
structure Pair where
  src : Nat
  dst : Nat
  api : String
  addr : String
  deriving DecidableEq, Repr

/-- mirrors localcluster/src/client_helper.rs:422-434, 625-637, 683-695 -/
def pairs (nodes : List NodeProcess) : List Pair :=
  nodes.flatMap fun src =>
    nodes.filterMap fun dst => do
      let srcAddr ← src.address
      let dstAddr ← dst.address
      if srcAddr = dstAddr then none
      else some { src := src.id, dst := dst.id, api := src.api, addr := dstAddr }

/-- The pairs as an error names them. -/
def named (left : List Pair) : String :=
  ", ".intercalate (left.map fun p => toString p.src ++ "→" ++ toString p.dst)

/-- What a loop over the pairs returns, its deadline passing with `what` and the pairs left. -/
def returned (what : String) : Result (List Pair) String → Except String Unit
  | .ok => .ok ()
  | .timeout left => .error (what ++ named left)
  | .error e => .error e

def unresolved (nodes : List NodeProcess) : Option NodeProcess :=
  nodes.find? fun n => n.address.isNone

def notResolved (node : NodeProcess) (before : String) : String :=
  "node " ++ toString node.id ++ " address not resolved before " ++ before ++
    " full-mesh channels"

/-! ## Opening -/

inductive Request where
  | asked (p : Pair) (answer : Answer)
  | opened (p : Pair) (amount : String) (answer : Except String Unit)

/-- Where a round over the pairs is. -/
inductive Opening where
  | visiting (todo missing : List Pair)
  | opening (p : Pair) (todo missing : List Pair)
  | rechecking (p : Pair) (todo missing : List Pair)
  | failed (e : String)

section
variable (texts : Texts) (nodes : List NodeProcess) (amount : String) (timeout : Duration)

/-- mirrors localcluster/src/client_helper.rs:697-707 -/
def Opening.step : Opening → Request → Option Opening
  | .visiting (p :: todo) missing, .asked p' answer =>
    if p' = p then
      match isOutgoingChannelOpen texts p.addr answer with
      | .ok true => some (.visiting todo missing)
      | .ok false => some (.opening p todo missing)
      | .error e => some (.failed e)
    else none
  | .opening p todo missing, .opened p' amount' answer =>
    if p' = p ∧ amount' = amount then
      match answer with
      | .ok () => some (.visiting todo missing)
      | .error _ => some (.rechecking p todo missing)
    else none
  | .rechecking p todo missing, .asked p' answer =>
    if p' = p then
      match isOutgoingChannelOpen texts p.addr answer with
      | .ok true => some (.visiting todo missing)
      | .ok false => some (.visiting todo (missing ++ [p]))
      | .error e => some (.failed e)
    else none
  | _, _ => none

def Opening.outcome : Opening → Option (Outcome (List Pair) String)
  | .visiting [] missing => some (if missing.isEmpty then .complete else .missing missing)
  | .failed e => some (.error e)
  | .visiting (_ :: _) _ | .opening .. | .rechecking .. => none

def openingAttempt (ps : List Pair) : Attempt Opening Request (List Pair) String where
  start := .visiting ps []
  step := Opening.step texts amount
  outcome := Opening.outcome

/-- mirrors localcluster/src/client_helper.rs:681-722 -/
def openingLoop : Loop Opening Request (List Pair) String where
  toAttempt := openingAttempt texts amount (pairs nodes)
  timeout := timeout
  pause := Duration.fromSecs 5

/-- A call that returned `r` with these events.
mirrors localcluster/src/client_helper.rs:669-723 -/
def OpenFullMeshChannels (es : List (Event Request)) (r : Except String Unit) : Prop :=
  match unresolved nodes with
  | some node => es = [] ∧ r = .error (notResolved node "opening")
  | none =>
    let loop := openingLoop texts nodes amount timeout
    ∃ t r', loop.system.Run (0, .trying loop.start) es (t, .returned r') ∧
      r = returned "timeout opening full-mesh channels: " r'

/-! ## Waiting -/

/-- mirrors localcluster/src/client_helper.rs:639-652 -/
def channelsGather : Gather Pair Answer where
  items := pairs nodes
  good p answer :=
    match isOutgoingChannelOpen texts p.addr answer with
    | .ok true => true
    | .ok false | .error _ => false

/-- mirrors localcluster/src/client_helper.rs:612-667 -/
def WaitFullMeshChannels (es : List (Event (Nat × Answer))) (r : Except String Unit) : Prop :=
  match unresolved nodes with
  | some node => es = [] ∧ r = .error (notResolved node "waiting for")
  | none =>
    let loop := (channelsGather texts nodes).loop String timeout (Duration.fromSecs 5)
    ∃ t r', loop.system.Run (0, .trying loop.start) es (t, .returned r') ∧
      r = returned "timeout waiting for full-mesh channels: " r'

/-- mirrors localcluster/src/client_helper.rs:436-449 -/
def reachableGather : Gather Pair (Except String Unit) where
  items := pairs nodes
  good _ answer := answer.toBool

/-- mirrors localcluster/src/client_helper.rs:416-464 -/
def WaitFullMeshReachable (es : List (Event (Nat × Except String Unit))) (r : Except String Unit) :
    Prop :=
  let loop := (reachableGather nodes).loop String timeout (Duration.fromSecs 2)
  ∃ t r', loop.system.Run (0, .trying loop.start) es (t, .returned r') ∧
    r = returned "timeout waiting for peer visibility: " r'

/-! ## A round of openings -/

/-- What the visit of one pair does, and what it leaves. -/
inductive Visited (p : Pair) : List Request → List Pair → Prop
  | open {a : Answer} (h : isOutgoingChannelOpen texts p.addr a = .ok true) :
      Visited p [.asked p a] []
  | accepted {a : Answer} (h : isOutgoingChannelOpen texts p.addr a = .ok false) :
      Visited p [.asked p a, .opened p amount (.ok ())] []
  | raced {a b : Answer} {e : String} (h : isOutgoingChannelOpen texts p.addr a = .ok false)
      (hb : isOutgoingChannelOpen texts p.addr b = .ok true) :
      Visited p [.asked p a, .opened p amount (.error e), .asked p b] []
  | refused {a b : Answer} {e : String} (h : isOutgoingChannelOpen texts p.addr a = .ok false)
      (hb : isOutgoingChannelOpen texts p.addr b = .ok false) :
      Visited p [.asked p a, .opened p amount (.error e), .asked p b] [p]

/-- A visit that ends the call: a listing failed. -/
inductive Broken (p : Pair) : List Request → String → Prop
  | asking {a : Answer} {e : String} (h : isOutgoingChannelOpen texts p.addr a = .error e) :
      Broken p [.asked p a] e
  | rechecking {a b : Answer} {e e' : String}
      (h : isOutgoingChannelOpen texts p.addr a = .ok false)
      (hb : isOutgoingChannelOpen texts p.addr b = .error e') :
      Broken p [.asked p a, .opened p amount (.error e), .asked p b] e'

/-- Visits of all pairs in turn. -/
inductive Tour : List Pair → List Request → List Pair → Prop
  | nil : Tour [] [] []
  | cons {p : Pair} {ps left left' : List Pair} {ls ls' : List Request}
      (hp : Visited texts amount p ls left) (hps : Tour ps ls' left') :
      Tour (p :: ps) (ls ++ ls') (left ++ left')

/-- A round over the pairs and what it came to. -/
inductive Round (ps : List Pair) : List Request → Outcome (List Pair) String → Prop
  | complete {ls : List Request} (h : Tour texts amount ps ls []) : Round ps ls .complete
  | missing {ls : List Request} {left : List Pair} (h : Tour texts amount ps ls left)
      (hleft : left ≠ []) : Round ps ls (.missing left)
  | broken {before after left : List Pair} {p : Pair} {ls ls' : List Request} {e : String}
      (hps : ps = before ++ p :: after) (h : Tour texts amount before ls left)
      (hp : Broken texts amount p ls' e) : Round ps (ls ++ ls') (.error e)

variable {texts nodes amount timeout}

theorem run_failed {ps : List Pair} {e : String} {ls : List Request} {o : Opening}
    (h : (openingAttempt texts amount ps).work.Run (.failed e) ls o) : ls = [] ∧ o = .failed e := by
  cases h with
  | nil => exact ⟨rfl, rfl⟩
  | cons hs _ => cases hs.1

/-- From a pair that is to be opened again, its answer decides. -/
theorem run_rechecking {ps todo missing : List Pair} {p : Pair} {ls : List Request} {o : Opening}
    {out : Outcome (List Pair) String}
    (h : (openingAttempt texts amount ps).work.Run (.rechecking p todo missing) ls o)
    (hout : o.outcome = some out) :
    ∃ b ls', ls = .asked p b :: ls' ∧
      ((isOutgoingChannelOpen texts p.addr b = .ok true ∧
          (openingAttempt texts amount ps).work.Run (.visiting todo missing) ls' o) ∨
       (isOutgoingChannelOpen texts p.addr b = .ok false ∧
          (openingAttempt texts amount ps).work.Run (.visiting todo (missing ++ [p])) ls' o) ∨
       ∃ e, isOutgoingChannelOpen texts p.addr b = .error e ∧ ls' = [] ∧ o = .failed e) := by
  cases h with
  | nil => cases hout
  | @cons _ next _ l ls hs hrun =>
    have hstep : Opening.step texts amount (.rechecking p todo missing) l = some next := hs.2
    cases l with
    | opened => cases hstep
    | asked p' b =>
      simp only [Opening.step, Option.ite_none_right_eq_some] at hstep
      obtain ⟨rfl, hstep⟩ := hstep
      refine ⟨b, ls, rfl, ?_⟩
      split at hstep
      · rename_i hb
        obtain rfl := Option.some.inj hstep
        exact .inl ⟨hb, hrun⟩
      · rename_i hb
        obtain rfl := Option.some.inj hstep
        exact .inr (.inl ⟨hb, hrun⟩)
      · rename_i e hb
        obtain rfl := Option.some.inj hstep
        obtain ⟨rfl, rfl⟩ := run_failed hrun
        exact .inr (.inr ⟨e, hb, rfl, rfl⟩)

/-- The visit of the next pair, or the failure that ends it. -/
theorem run_visit {ps todo missing : List Pair} {p : Pair} {ls : List Request} {o : Opening}
    {out : Outcome (List Pair) String}
    (h : (openingAttempt texts amount ps).work.Run (.visiting (p :: todo) missing) ls o)
    (hout : o.outcome = some out) :
    (∃ l₁ l₂ left, ls = l₁ ++ l₂ ∧ Visited texts amount p l₁ left ∧
      (openingAttempt texts amount ps).work.Run (.visiting todo (missing ++ left)) l₂ o) ∨
    ∃ e, Broken texts amount p ls e ∧ o = .failed e := by
  cases h with
  | nil => cases hout
  | @cons _ next _ l ls hs hrun =>
    have hstep : Opening.step texts amount (.visiting (p :: todo) missing) l = some next := hs.2
    cases l with
    | opened => cases hstep
    | asked p' a =>
      simp only [Opening.step, Option.ite_none_right_eq_some] at hstep
      obtain ⟨rfl, hstep⟩ := hstep
      split at hstep
      · rename_i ha
        obtain rfl := Option.some.inj hstep
        exact .inl ⟨[.asked p' a], ls, [], rfl, .open ha, by rwa [List.append_nil]⟩
      · rename_i ha
        obtain rfl := Option.some.inj hstep
        -- the pair is not open: its opening comes next
        cases hrun with
        | nil => cases hout
        | @cons _ next _ l ls hs hrun =>
          have hstep : Opening.step texts amount (.opening p' todo missing) l = some next := hs.2
          cases l with
          | asked => cases hstep
          | opened p'' amount' answer =>
            simp only [Opening.step, Option.ite_none_right_eq_some] at hstep
            obtain ⟨⟨rfl, rfl⟩, hstep⟩ := hstep
            cases answer with
            | ok u =>
              obtain rfl := Option.some.inj hstep
              exact .inl ⟨[.asked p'' a, .opened p'' amount' (.ok ())], ls, [], rfl, .accepted ha,
                by rwa [List.append_nil]⟩
            | error e =>
              obtain rfl := Option.some.inj hstep
              obtain ⟨b, ls', rfl, ⟨hb, hrun⟩ | ⟨hb, hrun⟩ | ⟨e', hb, rfl, rfl⟩⟩ :=
                run_rechecking hrun hout
              · exact .inl ⟨[.asked p'' a, .opened p'' amount' (.error e), .asked p'' b], ls', [],
                  rfl, .raced ha hb, by rwa [List.append_nil]⟩
              · exact .inl ⟨[.asked p'' a, .opened p'' amount' (.error e), .asked p'' b], ls',
                  [p''], rfl, .refused ha hb, hrun⟩
              · exact .inr ⟨e', .rechecking ha hb, rfl⟩
      · rename_i e ha
        obtain rfl := Option.some.inj hstep
        obtain ⟨rfl, rfl⟩ := run_failed hrun
        exact .inr ⟨e, .asking ha, rfl⟩

/-- All visits from some pair on. -/
theorem run_visits {ps todo missing : List Pair} {ls : List Request} {o : Opening}
    {out : Outcome (List Pair) String}
    (h : (openingAttempt texts amount ps).work.Run (.visiting todo missing) ls o)
    (hout : o.outcome = some out) :
    (∃ left, Tour texts amount todo ls left ∧ o = .visiting [] (missing ++ left)) ∨
    ∃ before p after left l₁ l₂ e, todo = before ++ p :: after ∧ ls = l₁ ++ l₂ ∧
      Tour texts amount before l₁ left ∧ Broken texts amount p l₂ e ∧ o = .failed e := by
  induction todo generalizing missing ls with
  | nil =>
    cases h with
    | nil => exact .inl ⟨[], .nil, by rw [List.append_nil]⟩
    | cons hs _ => cases hs.1
  | cons p todo ih =>
    rcases run_visit h hout with ⟨l₁, l₂, left, rfl, hvisit, hrun⟩ | ⟨e, hbroken, rfl⟩
    · rcases ih hrun with ⟨left', htour, rfl⟩ |
        ⟨before, q, after, left', l₃, l₄, e, rfl, rfl, htour, hbroken, rfl⟩
      · exact .inl ⟨left ++ left', .cons hvisit htour, by rw [List.append_assoc]⟩
      · exact .inr ⟨p :: before, q, after, left ++ left', l₁ ++ l₃, l₄, e, rfl,
          by rw [List.append_assoc], .cons hvisit htour, hbroken, rfl⟩
    · exact .inr ⟨[], p, todo, [], [], ls, e, rfl, rfl, .nil, hbroken, rfl⟩

theorem step_eq (ps : List Pair) :
    (openingAttempt texts amount ps).step = Opening.step texts amount := rfl

/-- A pair that is not open is opened next. -/
theorem opens_next {ps todo missing : List Pair} {p : Pair} {a : Answer}
    (h : isOutgoingChannelOpen texts p.addr a = .ok false) :
    (openingAttempt texts amount ps).work.step (.visiting (p :: todo) missing) (.asked p a)
      (.opening p todo missing) := by
  refine ⟨rfl, ?_⟩
  rw [step_eq, Opening.step, if_pos rfl, h]

theorem rechecks_next (ps todo missing : List Pair) (p : Pair) (e : String) :
    (openingAttempt texts amount ps).work.step (.opening p todo missing)
      (.opened p amount (.error e)) (.rechecking p todo missing) := by
  refine ⟨rfl, ?_⟩
  rw [step_eq, Opening.step, if_pos ⟨rfl, rfl⟩]

theorem visited_run (ps todo missing : List Pair) {left : List Pair} {p : Pair} {ls : List Request}
    (h : Visited texts amount p ls left) :
    (openingAttempt texts amount ps).work.Run (.visiting (p :: todo) missing) ls
      (.visiting todo (missing ++ left)) := by
  cases h with
  | @«open» a h =>
    rw [List.append_nil]
    refine .cons ⟨rfl, ?_⟩ (.nil _)
    rw [step_eq, Opening.step, if_pos rfl, h]
  | @accepted a h =>
    rw [List.append_nil]
    refine .cons (opens_next h) (.cons ⟨rfl, ?_⟩ (.nil _))
    rw [step_eq, Opening.step, if_pos ⟨rfl, rfl⟩]
  | @raced a b e h hb =>
    rw [List.append_nil]
    refine .cons (opens_next h)
      (.cons (rechecks_next ps todo missing p e) (.cons ⟨rfl, ?_⟩ (.nil _)))
    rw [step_eq, Opening.step, if_pos rfl, hb]
  | @refused a b e h hb =>
    refine .cons (opens_next h)
      (.cons (rechecks_next ps todo missing p e) (.cons ⟨rfl, ?_⟩ (.nil _)))
    rw [step_eq, Opening.step, if_pos rfl, hb]

theorem broken_run (ps : List Pair) {todo missing : List Pair} {p : Pair} {ls : List Request}
    {e : String} (h : Broken texts amount p ls e) :
    (openingAttempt texts amount ps).work.Run (.visiting (p :: todo) missing) ls (.failed e) := by
  cases h with
  | @asking a e h =>
    refine .cons ⟨rfl, ?_⟩ (.nil _)
    rw [step_eq, Opening.step, if_pos rfl, h]
  | @rechecking a b e e' h hb =>
    refine .cons (opens_next h)
      (.cons (rechecks_next ps todo missing p e) (.cons ⟨rfl, ?_⟩ (.nil _)))
    rw [step_eq, Opening.step, if_pos rfl, hb]

theorem tour_run (ps todo missing : List Pair) {visited left : List Pair} {ls : List Request}
    (h : Tour texts amount visited ls left) :
    (openingAttempt texts amount ps).work.Run (.visiting (visited ++ todo) missing) ls
      (.visiting todo (missing ++ left)) := by
  induction h generalizing missing with
  | nil =>
    rw [List.append_nil]
    exact .nil _
  | @cons p rest left left' ls ls' hp hps ih =>
    have hvisit := visited_run ps (rest ++ todo) missing hp
    have hrest := ih (missing ++ left)
    rw [List.append_assoc] at hrest
    exact hvisit.append hrest

/-- What an attempt does is a round. -/
theorem attempted_iff {ps : List Pair} {ls : List Request}
    {out : Outcome (List Pair) String} :
    (openingAttempt texts amount ps).Attempted ls out ↔ Round texts amount ps ls out := by
  constructor
  · rintro ⟨o, hrun, hout⟩
    rcases run_visits hrun hout with ⟨left, htour, rfl⟩ |
      ⟨before, p, after, left, l₁, l₂, e, hps, rfl, htour, hbroken, rfl⟩
    · obtain rfl := Option.some.inj hout
      rw [List.nil_append]
      cases left with
      | nil => exact .complete htour
      | cons q left => exact .missing htour (List.cons_ne_nil q left)
    · obtain rfl := Option.some.inj hout
      exact .broken hps htour hbroken
  · intro h
    have hwhole {ls : List Request} {left : List Pair} (htour : Tour texts amount ps ls left) :
        (openingAttempt texts amount ps).work.Run (.visiting ps []) ls (.visiting [] left) := by
      have hrun := tour_run ps [] [] htour
      rwa [List.append_nil, List.nil_append] at hrun
    cases h with
    | complete h => exact ⟨_, hwhole h, rfl⟩
    | @missing ls left h hleft =>
      refine ⟨_, hwhole h, ?_⟩
      cases left with
      | nil => exact absurd rfl hleft
      | cons q left => rfl
    | @broken before after left p l₁ l₂ e hps h hp =>
      refine ⟨.failed e, ?_, rfl⟩
      have hbefore := tour_run ps (p :: after) [] h
      rw [← hps] at hbefore
      exact hbefore.append (broken_run ps hp)

section
variable (texts nodes amount timeout)

/-- The calls that find every address resolved. -/
structure OpeningCall (rounds : List (List Request)) (last : List Request)
    (r : Except String Unit) : Prop where
  resolved : ∀ n ∈ nodes, n.address.isSome = true
  /-- a round is followed by another one only if it left something -/
  vain : ∀ ls ∈ rounds, ∃ left, left ≠ [] ∧ Tour texts amount (pairs nodes) ls left
  last : ∃ out, Round texts amount (pairs nodes) last out ∧
    r = returned "timeout opening full-mesh channels: " out.result
  intime : rounds.length * Duration.fromSecs 5 ≤ timeout + Duration.fromSecs 5

end

theorem unresolved_eq_none : unresolved nodes = none ↔ ∀ n ∈ nodes, n.address.isSome = true := by
  rw [unresolved, List.find?_eq_none]
  simp only [Bool.not_eq_true, Option.isNone_eq_false_iff]

/-- The requests that a round may still make. -/
def Opening.size : Opening → Nat
  | .visiting todo _ => 3 * todo.length
  | .opening _ todo _ => 3 * todo.length + 2
  | .rechecking _ todo _ => 3 * todo.length + 1
  | .failed _ => 0

theorem Opening.size_step {o o' : Opening} {l : Request}
    (h : Opening.step texts amount o l = some o') : o'.size < o.size := by
  unfold Opening.step at h
  split at h
  · simp only [Option.ite_none_right_eq_some] at h
    obtain ⟨-, h⟩ := h
    split at h
    all_goals
      obtain rfl := Option.some.inj h
      simp only [Opening.size, List.length_cons]
      omega
  · simp only [Option.ite_none_right_eq_some] at h
    obtain ⟨-, h⟩ := h
    split at h
    all_goals
      obtain rfl := Option.some.inj h
      simp only [Opening.size]
      omega
  · simp only [Option.ite_none_right_eq_some] at h
    obtain ⟨-, h⟩ := h
    split at h
    all_goals
      obtain rfl := Option.some.inj h
      simp only [Opening.size]
      omega
  · cases h

theorem Opening.goes_on {o : Opening} (h : o.outcome = none) :
    ∃ l o', Opening.step texts amount o l = some o' := by
  cases o with
  | visiting todo missing =>
    cases todo with
    | nil => cases h
    | cons p todo =>
      exact ⟨.asked p (.error ""), .failed _, by
        rw [Opening.step, if_pos rfl, isOutgoingChannelOpen]⟩
  | opening p todo missing =>
    exact ⟨.opened p amount (.ok ()), .visiting todo missing, by
      rw [Opening.step, if_pos ⟨rfl, rfl⟩]⟩
  | rechecking p todo missing =>
    exact ⟨.asked p (.error ""), .failed _, by
      rw [Opening.step, if_pos rfl, isOutgoingChannelOpen]⟩
  | failed e => cases h

variable (texts nodes amount timeout) in
/-- **The calls end**: however the nodes answer and whatever time passes, a call makes no more
requests than its deadline allows rounds, and nothing but its return stops it. -/
theorem calls_end :
    (openingLoop texts nodes amount timeout).Ends
      ((timeout / Duration.fromSecs 5 + 2) * (3 * (pairs nodes).length + 1)) ∧
    ((channelsGather texts nodes).loop String timeout (Duration.fromSecs 5)).Ends
      ((timeout / Duration.fromSecs 5 + 2) * ((pairs nodes).length + 1)) ∧
    ((reachableGather nodes).loop String timeout (Duration.fromSecs 2)).Ends
      ((timeout / Duration.fromSecs 2 + 2) * ((pairs nodes).length + 1)) := by
  have hpause : 0 < Duration.fromSecs 5 := by decide
  refine ⟨?_, ?_, ?_⟩
  · exact Loop.ends (openingLoop texts nodes amount timeout) Opening.size
      (fun _ _ _ h => Opening.size_step h) (fun _ h => Opening.goes_on h) hpause
  · exact (channelsGather texts nodes).loop_ends String timeout hpause (.error "")
  · exact (reachableGather nodes).loop_ends String timeout (by decide) (.error "")

/-! ## What a listing says -/

/-- The node has an open channel to `a`. -/
def HasOpen (hopr : Hopr) (a : Address) : Prop :=
  ∃ incoming outgoing, hopr.channelsTo hopr.nodeAddress = .ok incoming ∧
    hopr.channelsFrom hopr.nodeAddress = .ok outgoing ∧
    ∃ c ∈ outgoing, c.destination = a ∧ c.status = .open

/-- The client's question is answered by the node's own channels. -/
theorem isOutgoingChannelOpen_iff (h : texts.Distinct) {a : Address} {answer : Answer} :
    isOutgoingChannelOpen texts (texts.checksum a) answer = .ok true ↔
      ∃ hopr, answer = .ok hopr ∧ HasOpen hopr a := by
  cases answer with
  | error e =>
    constructor
    · exact nofun
    · rintro ⟨hopr, h, -⟩
      cases h
  | ok hopr =>
    simp only [isOutgoingChannelOpen, listChannels, HasOpen, Except.ok.injEq, exists_eq_left',
      Bool.false_eq_true, if_false, Bool.false_or]
    cases hopr.channelsTo hopr.nodeAddress with
    | error e =>
      constructor
      · exact nofun
      · rintro ⟨incoming, outgoing, hin, -⟩
        cases hin
    | ok incoming =>
      cases hopr.channelsFrom hopr.nodeAddress with
      | error e =>
        constructor
        · exact nofun
        · rintro ⟨incoming, outgoing, -, hout, -⟩
          cases hout
      | ok outgoing =>
        simp only [bind, Except.bind, pure, Except.pure, Except.ok.injEq, List.any_map,
          List.any_filter, List.any_eq_true, Function.comp, Bool.and_eq_true, beq_iff_eq,
          bne_iff_ne, h.status]
        constructor
        · rintro ⟨c, hc, -, hdest, hstatus⟩
          exact ⟨incoming, outgoing, rfl, rfl, c, hc, h.checksum _ _ hdest, hstatus⟩
        · rintro ⟨_, _, rfl, rfl, c, hc, rfl, hstatus⟩
          exact ⟨c, hc, by rw [hstatus]; exact nofun, rfl, hstatus⟩

/-- Over a store the open channel is the one to the address. -/
theorem hasOpen_iff {hopr : Hopr} {state : ChainState} (reads : Reads hopr state) {a : Address} :
    HasOpen hopr a ↔ ∃ c, state.channel hopr.nodeAddress a = some c ∧ c.status = .open := by
  obtain ⟨incoming, hincoming, -⟩ := reads.channelsTo
  obtain ⟨outgoing, houtgoing, hmem⟩ := reads.channelsFrom
  simp only [HasOpen, ChainState.channel_eq_some]
  constructor
  · rintro ⟨-, outgoing', -, hout, c, hc, hdest, hstatus⟩
    rw [houtgoing] at hout
    obtain rfl := Except.ok.inj hout
    obtain ⟨hc, hsource⟩ := (hmem c).1 hc
    exact ⟨c, ⟨hc, hsource, hdest⟩, hstatus⟩
  · rintro ⟨c, ⟨hc, hsource, hdest⟩, hstatus⟩
    exact ⟨incoming, outgoing, hincoming, houtgoing, c, (hmem c).2 ⟨hc, hsource⟩, hdest, hstatus⟩

/-- **What the client reads of a channel**: one question is answered `true` exactly if the
node's channel to the address is open, the other one with the status of that channel whatever
it is, and with none only if there never was one. -/
theorem client_reads (h : texts.Distinct) {hopr : Hopr} {state : ChainState}
    (reads : Reads hopr state) (a : Address) :
    (isOutgoingChannelOpen texts (texts.checksum a) (.ok hopr) = .ok true ↔
      outgoingChannelStatus texts (texts.checksum a) (.ok hopr) = .ok (some "Open")) ∧
    outgoingChannelStatus texts (texts.checksum a) (.ok hopr) =
      .ok ((state.channel hopr.nodeAddress a).map fun c => texts.status c.status) := by
  have hstatus : outgoingChannelStatus texts (texts.checksum a) (.ok hopr) =
      .ok ((state.channel hopr.nodeAddress a).map fun c => texts.status c.status) := by
    obtain ⟨incoming, hincoming, -⟩ := reads.channelsTo
    obtain ⟨outgoing, houtgoing, hmem⟩ := reads.channelsFrom
    have hsame : (fun c : ChannelEntry => texts.toLowercase (texts.checksum c.destination) ==
        texts.toLowercase (texts.checksum a)) = fun c => c.destination == a := by
      funext c
      rw [Bool.eq_iff_iff, beq_iff_eq, beq_iff_eq]
      exact ⟨h.checksum _ _, fun hdest => by rw [hdest]⟩
    have hfind : outgoing.find? (fun c => c.destination == a) =
        state.channel hopr.nodeAddress a := by
      cases hchannel : state.channel hopr.nodeAddress a with
      | none =>
        rw [List.find?_eq_none]
        intro c hc hdest
        obtain ⟨hmem', hsource⟩ := (hmem c).1 hc
        have hsome := (ChainState.channel_eq_some state).2 ⟨hmem', hsource, beq_iff_eq.1 hdest⟩
        rw [hchannel] at hsome
        cases hsome
      | some c =>
        obtain ⟨hc, hsource, hdest⟩ := (ChainState.channel_eq_some state).1 hchannel
        cases hfound : outgoing.find? (fun c => c.destination == a) with
        | none =>
          rw [List.find?_eq_none] at hfound
          exact absurd (beq_iff_eq.2 hdest) (hfound c ((hmem c).2 ⟨hc, hsource⟩))
        | some c' =>
          obtain ⟨hc', hsource'⟩ := (hmem c').1 (List.mem_of_find?_eq_some hfound)
          have hdest' : c'.destination = a :=
            beq_iff_eq.1 (List.find?_some (p := fun c : ChannelEntry => c.destination == a) hfound)
          have hsame := (ChainState.channel_eq_some state).2 ⟨hc', hsource', hdest'⟩
          rw [hchannel] at hsame
          exact hsame.symm
    simp only [outgoingChannelStatus, listChannels, hincoming, houtgoing, bind, Except.bind, pure,
      Except.pure, Bool.false_eq_true, if_false, Bool.true_or, List.filter_true, List.find?_map,
      Option.map_map]
    rw [← hfind, ← hsame]
    rfl
  refine ⟨?_, hstatus⟩
  rw [isOutgoingChannelOpen_iff h, hstatus]
  simp only [Except.ok.injEq, exists_eq_left', hasOpen_iff reads, Option.map_eq_some_iff, h.status]

/-! ## Channel management -/

/-- Every ordered pair of nodes at different addresses is there. -/
theorem mem_pairs {src dst : NodeProcess} {srcAddr dstAddr : String} (hsrc : src ∈ nodes)
    (hdst : dst ∈ nodes) (hsrcAddr : src.address = some srcAddr)
    (hdstAddr : dst.address = some dstAddr) (hne : srcAddr ≠ dstAddr) :
    ⟨src.id, dst.id, src.api, dstAddr⟩ ∈ pairs nodes := by
  rw [pairs, List.mem_flatMap]
  refine ⟨src, hsrc, List.mem_filterMap.2 ⟨dst, hdst, ?_⟩⟩
  simp only [hsrcAddr, hdstAddr, Option.bind_eq_bind, Option.bind_some, if_neg hne]

theorem gather_ok {I R : Type} {G : Gather I R} {rs : List R}
    (h : (Outcome.result (E := String) (G.decide rs)) = .ok) : G.left G.items rs = [] := by
  unfold Gather.decide at h
  split at h
  · rename_i hempty
    exact List.isEmpty_iff.1 hempty
  · cases h

/-- A wait that succeeded: in its last round every pair's own node had the channel open when it
answered. -/
theorem waited_mesh (h : texts.Distinct) {es : List (Event (Nat × Answer))}
    (hcall : WaitFullMeshChannels texts nodes timeout es (.ok ())) :
    (∀ n ∈ nodes, n.address.isSome = true) ∧
    ∃ (before : List (Event (Nat × Answer))) (last : List (Nat × Answer)),
      es = before ++ (last.map .did ++ [.returned]) ∧
      (last.map Prod.fst).Perm (List.range (pairs nodes).length) ∧
      ∀ (k : Nat) (p : Pair) (a : Address), (pairs nodes)[k]? = some p →
        p.addr = texts.checksum a → ∃ hopr, (k, .ok hopr) ∈ last ∧ HasOpen hopr a := by
  unfold WaitFullMeshChannels at hcall
  cases hres : unresolved nodes with
  | some node =>
    rw [hres] at hcall
    cases hcall.2
  | none =>
    rw [hres] at hcall
    obtain ⟨t, r', hrun, hr⟩ := hcall
    obtain ⟨rounds, last, rfl, -, ⟨rs, hlen, hperm, rfl⟩, -⟩ :=
      (Gather.loop_returns_iff _).1 ⟨t, hrun⟩
    have hok : (Outcome.result (E := String) ((channelsGather texts nodes).decide rs)) = .ok := by
      cases hresult : Outcome.result (E := String) ((channelsGather texts nodes).decide rs) with
      | ok => rfl
      | timeout left => rw [hresult] at hr; cases hr
      | error e => rw [hresult] at hr; cases hr
    have hgood := ((channelsGather texts nodes).left_eq_nil_iff hlen).1 (gather_ok hok)
    refine ⟨unresolved_eq_none.1 hres, rounds.flatMap Loop.round, last, rfl, ?_, ?_⟩
    · refine (hperm.map Prod.fst).trans ?_
      rw [Gather.events_fst, hlen]
      exact .refl _
    · intro k p a hk haddr
      obtain ⟨answer, hanswer, hgood⟩ := hgood k p hk
      simp only [channelsGather] at hgood
      split at hgood
      · rename_i htrue
        rw [haddr] at htrue
        obtain ⟨hopr, rfl, hopen⟩ := (isOutgoingChannelOpen_iff h).1 htrue
        exact ⟨hopr, hperm.mem_iff.2 (Gather.mem_events.2 hanswer), hopen⟩
      · cases hgood
      · cases hgood

end

/-- mirrors localcluster/src/main.rs:36 -/
def defaultWaitTimeout : Duration := Duration.fromSecs 120

/-- A request of channel management. -/
inductive Act where
  | opening (e : Event Request)
  | channels (e : Event (Nat × Answer))
  | reachable (e : Event (Nat × Except String Unit))

/-- A call, and after it another one if it succeeded. -/
def Then (first second : List Act → Except String Unit → Prop) (acts : List Act)
    (r : Except String Unit) : Prop :=
  (∃ e, first acts (.error e) ∧ r = .error e) ∨
  ∃ acts₁ acts₂, first acts₁ (.ok ()) ∧ second acts₂ r ∧ acts = acts₁ ++ acts₂

section
variable (texts : Texts) (nodes : List NodeProcess) (amount : String)

def opensMesh (acts : List Act) (r : Except String Unit) : Prop :=
  ∃ es, OpenFullMeshChannels texts nodes amount (defaultWaitTimeout * 4) es r ∧
    acts = es.map .opening

def waitsChannels (acts : List Act) (r : Except String Unit) : Prop :=
  ∃ es, WaitFullMeshChannels texts nodes (defaultWaitTimeout * 4) es r ∧ acts = es.map .channels

def waitsReachable (acts : List Act) (r : Except String Unit) : Prop :=
  ∃ es, WaitFullMeshReachable nodes defaultWaitTimeout es r ∧ acts = es.map .reachable

/-- mirrors localcluster/src/main.rs:322-360 -/
def ManageChannels (management : ChannelManagement) : List Act → Except String Unit → Prop :=
  match management with
  | .none => fun acts r => acts = [] ∧ r = .ok ()
  | .api => Then (opensMesh texts nodes amount) (waitsChannels texts nodes)
  | .strategy => Then (waitsReachable nodes) (waitsChannels texts nodes)
  | .both => Then (opensMesh texts nodes amount) (waitsChannels texts nodes)

end

theorem then_ok {first second : List Act → Except String Unit → Prop} {acts : List Act}
    (h : Then first second acts (.ok ())) :
    ∃ acts₁ acts₂, first acts₁ (.ok ()) ∧ second acts₂ (.ok ()) ∧ acts = acts₁ ++ acts₂ := by
  rcases h with ⟨e, -, h⟩ | h
  · cases h
  · exact h

/-- **What managed channels mean**: if channel management other than none succeeds, its last
requests asked every node once about each node at another address, in any order, and each of
them had its channel open when it answered. -/
theorem managed_mesh {texts : Texts} (h : texts.Distinct) {nodes : List NodeProcess}
    {amount : String} {management : ChannelManagement} (hmanagement : management ≠ .none)
    {acts : List Act} (hacts : ManageChannels texts nodes amount management acts (.ok ())) :
    ∃ (before : List Act) (last : List (Nat × Answer)),
      acts = before ++ ((last.map fun l => Act.channels (.did l)) ++ [.channels .returned]) ∧
      (last.map Prod.fst).Perm (List.range (pairs nodes).length) ∧
      ∀ src ∈ nodes, ∀ dst ∈ nodes, ∀ srcAddr a, src.address = some srcAddr →
        dst.address = some (texts.checksum a) → srcAddr ≠ texts.checksum a →
        ∃ k hopr, (pairs nodes)[k]? = some ⟨src.id, dst.id, src.api, texts.checksum a⟩ ∧
          (k, .ok hopr) ∈ last ∧ HasOpen hopr a := by
  have hwait : ∃ acts₁ acts₂, waitsChannels texts nodes acts₂ (.ok ()) ∧ acts = acts₁ ++ acts₂ := by
    cases management with
    | none => exact absurd rfl hmanagement
    | api =>
      obtain ⟨acts₁, acts₂, -, hsecond, rfl⟩ := then_ok hacts
      exact ⟨acts₁, acts₂, hsecond, rfl⟩
    | strategy =>
      obtain ⟨acts₁, acts₂, -, hsecond, rfl⟩ := then_ok hacts
      exact ⟨acts₁, acts₂, hsecond, rfl⟩
    | both =>
      obtain ⟨acts₁, acts₂, -, hsecond, rfl⟩ := then_ok hacts
      exact ⟨acts₁, acts₂, hsecond, rfl⟩
  obtain ⟨acts₁, _, ⟨es, hcall, rfl⟩, rfl⟩ := hwait
  obtain ⟨-, before, last, rfl, hperm, hall⟩ := waited_mesh h hcall
  refine ⟨acts₁ ++ before.map .channels, last, ?_, hperm, ?_⟩
  · simp only [List.map_append, List.map_map, List.map_cons, List.map_nil, List.append_assoc]
    rfl
  · intro src hsrc dst hdst srcAddr a hsrcAddr hdstAddr hne
    obtain ⟨k, hk⟩ := List.mem_iff_getElem?.1 (mem_pairs hsrc hdst hsrcAddr hdstAddr hne)
    obtain ⟨hopr, hlast, hopen⟩ := hall k _ a hk rfl
    exact ⟨k, hopr, hk, hlast, hopen⟩

/-! ## Two nodes -/

def hexDigit (x : BitVec 4) : Char :=
  if x.toNat < 10 then Char.ofNat (48 + x.toNat) else Char.ofNat (87 + x.toNat)

def hexText (a : Address) : List Char :=
  '0' :: 'x' :: (List.range 40).map fun i => hexDigit (a.extractLsb' (4 * (39 - i)) 4)

theorem hexDigit_lower (x : BitVec 4) : (hexDigit x).toLower = hexDigit x := by
  revert x
  decide

theorem hexDigit_inj (x y : BitVec 4) (h : hexDigit x = hexDigit y) : x = y := by
  revert x y
  decide

theorem hexText_inj {a b : Address} (h : hexText a = hexText b) : a = b := by
  have hdigits : ∀ i < 40, a.extractLsb' (4 * (39 - i)) 4 = b.extractLsb' (4 * (39 - i)) 4 := by
    intro i hi
    have hmap := (List.map_inj_left.1 (List.cons_eq_cons.1 (List.cons_eq_cons.1 h).2).2) i
      (List.mem_range.2 hi)
    exact hexDigit_inj _ _ hmap
  apply BitVec.eq_of_getLsbD_eq
  intro n hn
  have hdigit := hdigits (39 - n / 4) (by omega)
  have hbit := congrArg (fun x : BitVec 4 => x.getLsbD (n % 4)) hdigit
  have hplace : 4 * (39 - (39 - n / 4)) + n % 4 = n := by omega
  simpa only [BitVec.getLsbD_extractLsb', hplace, Nat.mod_lt n (Nat.succ_pos 3), decide_true,
    Bool.true_and] using hbit

/-- As the nodes write, but for the case of the digits. -/
def demoTexts : Texts where
  checksum a := String.ofList (hexText a)
  status
    | .closed => "Closed"
    | .open => "Open"
    | .pendingToClose _ => "PendingToClose"
  refused e := toString (repr e)
  toLowercase s := String.ofList (s.toList.map Char.toLower)

theorem demoTexts_distinct : demoTexts.Distinct where
  checksum a b h := by
    have hlower (a : Address) : (hexText a).map Char.toLower = hexText a := by
      rw [hexText, List.map_cons, List.map_cons, List.map_map]
      refine congrArg (fun s => '0' :: 'x' :: s) (List.map_congr_left fun i _ => ?_)
      exact hexDigit_lower _
    simp only [demoTexts, String.ofList_inj, String.toList_ofList, hlower] at h
    exact hexText_inj h
  status s := by
    cases s with
    | closed => decide
    | «open» => decide
    | pendingToClose t => simp [demoTexts]

/-- A node that only knows its channels. -/
def demoNode (me peer : Address) : Hopr :=
  { demoHopr with
    nodeAddress := me
    channelsTo := fun _ => .ok []
    channelsFrom := fun _ => .ok [⟨me, peer, 10, 0, .open, 1⟩] }

theorem demoNode_open (me peer : Address) : HasOpen (demoNode me peer) peer :=
  ⟨_, _, rfl, rfl, _, List.mem_singleton.2 rfl, rfl, rfl⟩

def demoNodes : List NodeProcess :=
  [⟨0, "http://127.0.0.1:3000", some (demoTexts.checksum 1)⟩,
   ⟨1, "http://127.0.0.1:3001", some (demoTexts.checksum 2)⟩]

theorem client_reads_pending :
    isOutgoingChannelOpen demoTexts (demoTexts.checksum 2) (.ok demoHopr) ≠ .ok true ∧
    outgoingChannelStatus demoTexts (demoTexts.checksum 2) (.ok demoHopr) =
      .ok (some "PendingToClose") := by
  have h := client_reads demoTexts_distinct demoHopr_reads 2
  have hstatus : outgoingChannelStatus demoTexts (demoTexts.checksum 2) (.ok demoHopr) =
      .ok (some "PendingToClose") := h.2
  refine ⟨?_, hstatus⟩
  rw [ne_eq, h.1, hstatus]
  decide

def demoPairs : List Pair :=
  [⟨0, 1, "http://127.0.0.1:3000", demoTexts.checksum 2⟩,
   ⟨1, 0, "http://127.0.0.1:3001", demoTexts.checksum 1⟩]

theorem demo_pairs : pairs demoNodes = demoPairs := by decide +kernel

/-- The second node answers first. -/
def demoAnswers : List (Nat × Answer) := [(1, .ok (demoNode 2 1)), (0, .ok (demoNode 1 2))]

/-- A first round in which every answer is good ends the call. -/
theorem loop_ok {I R : Type} {G : Gather I R} (timeout pause : Nat) (rs : List R)
    (last : List (Nat × R)) (hlen : rs.length = G.items.length)
    (hperm : last.Perm (Gather.events rs)) (hleft : G.left G.items rs = []) :
    ∃ t, (G.loop String timeout pause).system.Run (0, .trying (G.loop String timeout pause).start)
      (Loop.call [] last) (t, .returned .ok) := by
  refine (Gather.loop_returns_iff G).2 ⟨[], last, rfl, nofun, ⟨rs, hlen, hperm, ?_⟩, ?_⟩
  · rw [Gather.decide, hleft]
    rfl
  · rw [List.length_nil, Nat.zero_mul]
    exact Nat.zero_le _

theorem demo_reachable :
    waitsReachable demoNodes [.reachable (.did (0, .ok ())), .reachable (.did (1, .ok ())),
      .reachable .returned] (.ok ()) := by
  obtain ⟨t, hrun⟩ := loop_ok (G := reachableGather demoNodes) defaultWaitTimeout
    (Duration.fromSecs 2) [.ok (), .ok ()] [(0, .ok ()), (1, .ok ())]
    (congrArg List.length demo_pairs).symm (.refl _) (by
      show Gather.left _ (pairs demoNodes) _ = []
      rw [demo_pairs]
      rfl)
  exact ⟨_, ⟨t, .ok, hrun, rfl⟩, rfl⟩

theorem demo_waits :
    waitsChannels demoTexts demoNodes
      ((demoAnswers.map fun l => Act.channels (.did l)) ++ [.channels .returned]) (.ok ()) := by
  have hgood (me peer : Address) :
      isOutgoingChannelOpen demoTexts (demoTexts.checksum peer) (.ok (demoNode me peer)) =
        .ok true :=
    (isOutgoingChannelOpen_iff demoTexts_distinct).2 ⟨_, rfl, demoNode_open me peer⟩
  obtain ⟨t, hrun⟩ := loop_ok (G := channelsGather demoTexts demoNodes) (defaultWaitTimeout * 4)
    (Duration.fromSecs 5) [.ok (demoNode 1 2), .ok (demoNode 2 1)] demoAnswers
    (congrArg List.length demo_pairs).symm (.swap _ _ _) (by
      show Gather.left _ (pairs demoNodes) _ = []
      rw [demo_pairs]
      simp only [demoPairs, Gather.left, channelsGather, hgood, if_true])
  exact ⟨_, ⟨t, .ok, hrun, rfl⟩, rfl⟩

theorem demo_managed :
    ∃ (before : List Act) (last : List (Nat × Answer)),
      [.reachable (.did (0, .ok ())), .reachable (.did (1, .ok ())), .reachable .returned] ++
          ((demoAnswers.map fun l => Act.channels (.did l)) ++ [.channels .returned]) =
        before ++ ((last.map fun l => Act.channels (.did l)) ++ [.channels .returned]) ∧
      (last.map Prod.fst).Perm (List.range (pairs demoNodes).length) ∧
      ∀ src ∈ demoNodes, ∀ dst ∈ demoNodes, ∀ srcAddr a, src.address = some srcAddr →
        dst.address = some (demoTexts.checksum a) → srcAddr ≠ demoTexts.checksum a →
        ∃ k hopr, (pairs demoNodes)[k]? =
            some ⟨src.id, dst.id, src.api, demoTexts.checksum a⟩ ∧
          (k, .ok hopr) ∈ last ∧ HasOpen hopr a := by
  have hacts : ManageChannels demoTexts demoNodes "10 wxHOPR" .strategy _ (.ok ()) :=
    .inr ⟨_, _, demo_reachable, demo_waits, rfl⟩
  exact managed_mesh demoTexts_distinct (show ChannelManagement.strategy ≠ .none from nofun) hacts

end Hoprd.Localcluster.Mesh
