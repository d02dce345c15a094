import Hoprd.Core.LTS

/-!
# The cluster summary over a run (`localcluster/src/summary.rs`, `main.rs`)

The orchestrator holds one `ClusterSummary` behind a mutex and updates it through
the lifecycle; the control socket reads it at any moment the mutex is free. A
label of `step` is one critical section: a lifecycle update, an early error, or a
snapshot taken for a client. Checks of nodes complete in any order.

* `PhaseInv`: what the summary says in each phase of the orchestrator.
* `Truthful`: a running cluster has every node ready with its address and pid,
  the error is set exactly in the failed state, and no node is marked failed.
* `Forward`: no node has moved backwards.
* `snapshots_truthful`: every snapshot served is truthful, and each is forward of
  the ones served before it.
-/
namespace Hoprd.Summary

open Core

/-- mirrors localcluster/src/summary.rs:19-35 -/
inductive ClusterState where
  | notRunning | initializing | starting | running | shuttingDown | failed
  deriving DecidableEq, Repr

/-- mirrors localcluster/src/summary.rs:37-53 -/
inductive NodeState where
  | pending | spawned | started | ready | channelsOpen | failed
  deriving DecidableEq, Repr

/-- mirrors localcluster/src/summary.rs:73-96 -/
structure NodeSummary where
  id : Nat
  state : NodeState
  address : Option String
  apiUrl : String
  apiToken : Option String
  p2p : String
  latency : Option String
  nodeAdminUrl : String
  pid : Option UInt32
  deriving DecidableEq, Repr

/-- mirrors localcluster/src/summary.rs:98-109 -/
structure ExtraSummary where
  id : Nat
  address : String
  safeAddress : String
  moduleAddress : String
  keystorePath : String
  password : String
  deriving DecidableEq, Repr

/-- mirrors localcluster/src/summary.rs:55-71 -/
structure ClusterSummary where
  state : ClusterState
  pid : UInt32
  blokliUrl : Option String
  nodes : List NodeSummary
  extras : List ExtraSummary
  error : Option String
  deriving DecidableEq, Repr

/-- mirrors localcluster/src/cli.rs:287-294 -/
inductive ChannelManagement where
  | api | strategy | both | none
  deriving DecidableEq, Repr

def maxNumNodes : Nat := 10

/-- The arguments the summary and the lifecycle read. `parse_size` refuses a size
outside `1..=MAX_NUM_NODES`; `latency` is the relay base port with what
`describe_inbound` says of a node.
mirrors localcluster/src/cli.rs:9-20, 105-230 -/
structure Args where
  size : Nat
  size_pos : 1 ≤ size
  size_le : size ≤ maxNumNodes
  channelManagement : ChannelManagement
  apiHost : String
  apiPortBase : UInt16
  p2pHost : String
  p2pPortBase : UInt16
  apiToken : Option String
  latency : Option (UInt16 × (Nat → Option String))

/-- mirrors localcluster/src/summary.rs:318-324 -/
def advertisedHost (host : String) : String :=
  if host = "0.0.0.0" ∨ host = "auto" then "127.0.0.1" else host

def apiUrl (args : Args) (id : Nat) : String :=
  "http://" ++ advertisedHost args.apiHost ++ ":" ++ toString (args.apiPortBase.toNat + id)

def initialNode (args : Args) (id : Nat) : NodeSummary where
  id := id
  state := .pending
  address := none
  apiUrl := apiUrl args id
  apiToken := args.apiToken
  p2p :=
    let p2pPortBase := match args.latency with
      | some l => l.1.toNat
      | none => args.p2pPortBase.toNat
    advertisedHost args.p2pHost ++ ":" ++ toString (p2pPortBase + id)
  latency := args.latency.bind fun l => l.2 id
  nodeAdminUrl :=
    let url := "http://localhost:4677/node/info?apiEndpoint=" ++ apiUrl args id
    match args.apiToken with
    | some token => url ++ "&apiToken=" ++ token
    | none => url
  pid := none

/-- mirrors localcluster/src/summary.rs:111-160 -/
def ClusterSummary.initial (args : Args) (pid : UInt32) : ClusterSummary where
  state := .initializing
  pid := pid
  blokliUrl := none
  nodes := (List.range args.size).map (initialNode args)
  extras := []
  error := none

/-- mirrors localcluster/src/identity.rs:600-609 -/
structure GeneratedIdentity where
  id : Nat
  address : String
  safeAddress : String
  moduleAddress : String
  idFile : String
  password : String

/-- mirrors localcluster/src/summary.rs:174-187 -/
def ClusterSummary.setExtras (c : ClusterSummary) (extras : List GeneratedIdentity) :
    ClusterSummary :=
  { c with
    extras := extras.map fun e =>
      { id := e.id
        address := e.address
        safeAddress := e.safeAddress
        moduleAddress := e.moduleAddress
        keystorePath := e.idFile
        password := e.password } }

/-- An update through `node_mut(id)`: the first node with the id, if any.
mirrors localcluster/src/summary.rs:220-222 -/
def nodeMut (id : Nat) (f : NodeSummary → NodeSummary) : List NodeSummary → List NodeSummary
  | [] => []
  | n :: ns => if n.id = id then f n :: ns else n :: nodeMut id f ns

/-- A spawned hoprd, as far as the summary reads it. -/
structure NodeProcess where
  id : Nat
  pid : UInt32

def NodeSummary.spawn (pid : UInt32) (n : NodeSummary) : NodeSummary :=
  { n with pid := some pid, state := .spawned }

/-- mirrors localcluster/src/summary.rs:189-197 -/
def ClusterSummary.markSpawned (c : ClusterSummary) (nodes : List NodeProcess) : ClusterSummary :=
  { c with
    nodes := nodes.foldl (fun ns p => nodeMut p.id (NodeSummary.spawn p.pid) ns) c.nodes }

/-- mirrors localcluster/src/summary.rs:199-204 -/
def ClusterSummary.setNodeState (c : ClusterSummary) (id : Nat) (state : NodeState) :
    ClusterSummary :=
  { c with nodes := nodeMut id (fun n => { n with state := state }) c.nodes }

/-- mirrors localcluster/src/summary.rs:206-211 -/
def ClusterSummary.setAllNodeStates (c : ClusterSummary) (state : NodeState) : ClusterSummary :=
  { c with nodes := c.nodes.map fun n => { n with state := state } }

/-- mirrors localcluster/src/summary.rs:213-218 -/
def ClusterSummary.setNodeAddress (c : ClusterSummary) (id : Nat) (address : String) :
    ClusterSummary :=
  { c with nodes := nodeMut id (fun n => { n with address := some address }) c.nodes }

/-! ## The orchestrator -/

/-- Where `main` is. `waiting reached pending`: in `wait_nodes`, with the checks that
have not completed; `fetching ids`: the nodes whose address is still to be asked. -/
inductive Phase where
  | booting
  | chainKnown
  | generated
  | waiting (reached : NodeState) (pending : List Nat)
  | fetching (ids : List Nat)
  | channels
  | serving
  | ended
  deriving DecidableEq, Repr

structure St where
  summary : ClusterSummary
  phase : Phase
  served : List ClusterSummary

/-- `fail` is an error of whatever `main` awaits in that phase; `snapshot` a client of
the control socket. -/
inductive Label where
  | blokliUrl (url : String)
  | extras (extras : List GeneratedIdentity)
  | spawned (pids : Nat → UInt32)
  | checked (id : Nat)
  | waited
  | address (id : Nat) (address : String)
  | fetched
  | channelsDone
  | shutdown
  | fail (error : String)
  | snapshot

variable (args : Args)

/-- `for id in 0..num_nodes.clamp(1, MAX_NUM_NODES)`.
mirrors localcluster/src/client_helper.rs:537-617 -/
def startNodes (pids : Nat → UInt32) : List NodeProcess :=
  (List.range (min maxNumNodes (max 1 args.size))).map fun id => ⟨id, pids id⟩

/-- The ids `wait_nodes` and the address loop go through. -/
def nodeIds : List Nat := (startNodes args fun _ => 0).map NodeProcess.id

/-- One critical section of `main`, or of the control server.
mirrors localcluster/src/main.rs:148-401, 404-430 -/
def step (s : St) : Label → Option St
  | .blokliUrl url =>
    match s.phase with
    | .booting =>
      some { s with phase := .chainKnown, summary := { s.summary with blokliUrl := some url } }
    | _ => none
  | .extras extras =>
    match s.phase with
    | .chainKnown => some { s with phase := .generated, summary := s.summary.setExtras extras }
    | _ => none
  | .spawned pids =>
    match s.phase with
    | .generated =>
      some { s with
        phase := .waiting .started (nodeIds args)
        summary := { s.summary.markSpawned (startNodes args pids) with state := .starting } }
    | _ => none
  | .checked id =>
    match s.phase with
    | .waiting reached pending =>
      if id ∈ pending then
        some { s with
          phase := .waiting reached (pending.erase id)
          summary := s.summary.setNodeState id reached }
      else none
    | _ => none
  | .waited =>
    match s.phase with
    | .waiting .started [] => some { s with phase := .waiting .ready (nodeIds args) }
    | .waiting .ready [] => some { s with phase := .fetching (nodeIds args) }
    | _ => none
  | .address id address =>
    match s.phase with
    | .fetching (first :: ids) =>
      if id = first then
        some { s with phase := .fetching ids, summary := s.summary.setNodeAddress id address }
      else none
    | _ => none
  | .fetched =>
    match s.phase with
    | .fetching [] => some { s with phase := .channels }
    | _ => none
  | .channelsDone =>
    match s.phase with
    | .channels =>
      let summary :=
        if args.channelManagement = .none then s.summary
        else s.summary.setAllNodeStates .channelsOpen
      some { s with phase := .serving, summary := { summary with state := .running } }
    | _ => none
  | .shutdown =>
    match s.phase with
    | .serving =>
      some { s with phase := .ended, summary := { s.summary with state := .shuttingDown } }
    | _ => none
  | .fail error =>
    match s.phase with
    | .ended => none
    | _ =>
      some { s with
        phase := .ended
        summary := { s.summary with state := .failed, error := some error } }
  | .snapshot => some { s with served := s.served ++ [s.summary] }

def system : LTS St Label :=
  .ofFn (fun s => ∃ pid, s = ⟨.initial args pid, .booting, []⟩) (step args)

/-! ## Updates through `node_mut` -/

theorem ids_nodeMut {id : Nat} {f : NodeSummary → NodeSummary} (hf : ∀ n, (f n).id = n.id)
    (ns : List NodeSummary) : (nodeMut id f ns).map NodeSummary.id = ns.map NodeSummary.id := by
  induction ns with
  | nil => rfl
  | cons n ns ih =>
    unfold nodeMut
    by_cases hn : n.id = id
    · simp [hn, hf]
    · simp [hn, ih]

/-- With distinct ids, an update changes the node with the id and no other. -/
theorem mem_nodeMut {id : Nat} {f : NodeSummary → NodeSummary} {ns : List NodeSummary}
    (hnd : (ns.map NodeSummary.id).Nodup) {n' : NodeSummary} (h : n' ∈ nodeMut id f ns) :
    (n' ∈ ns ∧ n'.id ≠ id) ∨ ∃ n ∈ ns, n.id = id ∧ n' = f n := by
  induction ns with
  | nil => cases h
  | cons n ns ih =>
    simp only [List.map_cons, List.nodup_cons] at hnd
    unfold nodeMut at h
    by_cases hn : n.id = id
    · simp only [if_pos hn, List.mem_cons] at h
      cases h with
      | inl h => exact .inr ⟨n, List.mem_cons_self, hn, h⟩
      | inr h =>
        refine .inl ⟨List.mem_cons_of_mem _ h, ?_⟩
        intro hid
        have hmem : n'.id ∈ ns.map NodeSummary.id := List.mem_map_of_mem h
        rw [hid, ← hn] at hmem
        exact hnd.1 hmem
    · simp only [if_neg hn, List.mem_cons] at h
      cases h with
      | inl h => exact .inl ⟨h ▸ List.mem_cons_self, h ▸ hn⟩
      | inr h =>
        obtain ⟨hmem, hne⟩ | ⟨m, hm, hid, heq⟩ := ih hnd.2 h
        · exact .inl ⟨List.mem_cons_of_mem _ hmem, hne⟩
        · exact .inr ⟨m, List.mem_cons_of_mem _ hm, hid, heq⟩

/-- What an update keeps of every node, it keeps of the table. -/
theorem exists_nodeMut {R : NodeSummary → NodeSummary → Prop} (hrefl : ∀ n, R n n) {id : Nat}
    {f : NodeSummary → NodeSummary} {ns : List NodeSummary}
    (hf : ∀ n ∈ ns, n.id = id → R n (f n)) :
    ∀ n ∈ ns, ∃ n' ∈ nodeMut id f ns, R n n' := by
  induction ns with
  | nil => intro n hn; cases hn
  | cons m ns ih =>
    intro n hn
    unfold nodeMut
    by_cases hm : m.id = id
    · simp only [if_pos hm]
      cases hn with
      | head => exact ⟨f m, List.mem_cons_self, hf m List.mem_cons_self hm⟩
      | tail _ hn => exact ⟨n, List.mem_cons_of_mem _ hn, hrefl n⟩
    · simp only [if_neg hm]
      cases hn with
      | head => exact ⟨m, List.mem_cons_self, hrefl m⟩
      | tail _ hn =>
        obtain ⟨n', hn', hR⟩ := ih (fun k hk => hf k (List.mem_cons_of_mem _ hk)) n hn
        exact ⟨n', List.mem_cons_of_mem _ hn', hR⟩

theorem ids_setNodeState (c : ClusterSummary) (id : Nat) (state : NodeState) :
    (c.setNodeState id state).nodes.map NodeSummary.id = c.nodes.map NodeSummary.id := by
  unfold ClusterSummary.setNodeState
  apply ids_nodeMut
  intro n
  rfl

theorem ids_setNodeAddress (c : ClusterSummary) (id : Nat) (address : String) :
    (c.setNodeAddress id address).nodes.map NodeSummary.id = c.nodes.map NodeSummary.id := by
  unfold ClusterSummary.setNodeAddress
  apply ids_nodeMut
  intro n
  rfl

theorem ids_markSpawned (procs : List NodeProcess) (c : ClusterSummary) :
    (c.markSpawned procs).nodes.map NodeSummary.id = c.nodes.map NodeSummary.id := by
  unfold ClusterSummary.markSpawned
  simp only
  generalize c.nodes = ns
  induction procs generalizing ns with
  | nil => rfl
  | cons p procs ih =>
    rw [List.foldl_cons, ih, ids_nodeMut]
    intro n
    rfl

/-- After `mark_spawned`, a node with a process has its pid and is spawned. -/
theorem mem_markSpawned {procs : List NodeProcess} {c : ClusterSummary}
    (hnd : (c.nodes.map NodeSummary.id).Nodup) {n : NodeSummary}
    (h : n ∈ (c.markSpawned procs).nodes) (hid : n.id ∈ procs.map NodeProcess.id) :
    n.pid.isSome ∧ n.state = .spawned := by
  have key : ∀ (procs : List NodeProcess) (ns : List NodeSummary),
      (ns.map NodeSummary.id).Nodup →
      ∀ n ∈ procs.foldl (fun ns p => nodeMut p.id (NodeSummary.spawn p.pid) ns) ns,
      n ∈ ns ∧ n.id ∉ procs.map NodeProcess.id ∨ n.pid.isSome ∧ n.state = .spawned := by
    intro procs
    induction procs with
    | nil => intro ns _ n hn; exact .inl ⟨hn, by simp⟩
    | cons p procs ih =>
      intro ns hnd n hn
      rw [List.foldl_cons] at hn
      have hnd' : ((nodeMut p.id (NodeSummary.spawn p.pid) ns).map NodeSummary.id).Nodup := by
        rw [ids_nodeMut]
        · exact hnd
        · intro n
          rfl
      obtain ⟨hmem, hnot⟩ | hdone := ih _ hnd' n hn
      · obtain ⟨hmem, hne⟩ | ⟨m, -, -, heq⟩ := mem_nodeMut hnd hmem
        · refine .inl ⟨hmem, ?_⟩
          simp only [List.map_cons, List.mem_cons, not_or]
          exact ⟨hne, hnot⟩
        · subst heq
          exact .inr ⟨rfl, rfl⟩
      · exact .inr hdone
  obtain ⟨-, hnot⟩ | hdone := key procs c.nodes hnd n h
  · exact absurd hid hnot
  · exact hdone

/-! ## What is promised of a snapshot -/

/-- The place along `Pending, Spawned, Started, Ready, ChannelsOpen`; a failed node
is off the line. -/
def NodeState.rank : NodeState → Nat
  | .pending => 0
  | .spawned => 1
  | .started => 2
  | .ready => 3
  | .channelsOpen => 4
  | .failed => 5

structure Truthful (c : ClusterSummary) : Prop where
  running : c.state = .running → ∀ n ∈ c.nodes,
    (n.state = .ready ∨ n.state = .channelsOpen) ∧ n.address.isSome ∧ n.pid.isSome
  error_iff : c.error.isSome ↔ c.state = .failed
  onLine : ∀ n ∈ c.nodes, n.state ≠ .failed

/-- Every node of `c` is in `c'`, and not behind. -/
def Forward (c c' : ClusterSummary) : Prop :=
  ∀ n ∈ c.nodes, ∃ n' ∈ c'.nodes, n'.id = n.id ∧ n.state.rank ≤ n'.state.rank

theorem Forward.refl (c : ClusterSummary) : Forward c c := by
  intro n hn
  exact ⟨n, hn, rfl, Nat.le_refl _⟩

theorem Forward.of_nodes_eq {c c' : ClusterSummary} (h : c'.nodes = c.nodes) : Forward c c' := by
  intro n hn
  exact ⟨n, h ▸ hn, rfl, Nat.le_refl _⟩

theorem Forward.trans {a b c : ClusterSummary} (hab : Forward a b) (hbc : Forward b c) :
    Forward a c := by
  intro n hn
  obtain ⟨m, hm, hid, hle⟩ := hab n hn
  obtain ⟨k, hk, hid', hle'⟩ := hbc m hm
  exact ⟨k, hk, hid'.trans hid, Nat.le_trans hle hle'⟩

/-! ## What each phase says of the summary -/

/-- A node of the summary in each phase. -/
def NodeAt (n : NodeSummary) : Phase → Prop
  | .booting | .chainKnown | .generated => n.state = .pending
  | .waiting reached pending =>
    n.pid.isSome ∧
      ((reached = .started ∧ n.state = if n.id ∈ pending then .spawned else .started) ∨
        (reached = .ready ∧ n.state = if n.id ∈ pending then .started else .ready))
  | .fetching ids => n.pid.isSome ∧ n.state = .ready ∧ (n.id ∉ ids → n.address.isSome)
  | .channels => n.pid.isSome ∧ n.state = .ready ∧ n.address.isSome
  | .serving => n.pid.isSome ∧ (n.state = .ready ∨ n.state = .channelsOpen) ∧ n.address.isSome
  | .ended => n.state ≠ .failed

/-- The cluster's own fields in each phase. -/
def ClusterAt (c : ClusterSummary) : Phase → Prop
  | .booting | .chainKnown | .generated => c.state = .initializing ∧ c.error = none
  | .waiting _ pending => c.state = .starting ∧ c.error = none ∧ pending.Nodup
  | .fetching _ | .channels => c.state = .starting ∧ c.error = none
  | .serving => c.state = .running ∧ c.error = none
  | .ended => (c.state = .shuttingDown ∧ c.error = none) ∨ (c.state = .failed ∧ c.error.isSome)

structure PhaseInv (s : St) : Prop where
  ids : s.summary.nodes.map NodeSummary.id = List.range args.size
  nodes : ∀ n ∈ s.summary.nodes, NodeAt n s.phase
  cluster : ClusterAt s.summary s.phase

theorem nodeIds_eq : nodeIds args = List.range args.size := by
  have hpos := args.size_pos
  have hle := args.size_le
  have hsize : min maxNumNodes (max 1 args.size) = args.size := by
    unfold maxNumNodes at *
    omega
  unfold nodeIds startNodes
  rw [hsize, List.map_map]
  exact List.map_id _

theorem PhaseInv.nodup {s : St} (hi : PhaseInv args s) :
    (s.summary.nodes.map NodeSummary.id).Nodup := by
  rw [hi.ids]
  exact List.nodup_range

theorem PhaseInv.id_mem {s : St} (hi : PhaseInv args s) {n : NodeSummary}
    (hn : n ∈ s.summary.nodes) : n.id ∈ nodeIds args := by
  have hmem : n.id ∈ s.summary.nodes.map NodeSummary.id := List.mem_map_of_mem hn
  rw [nodeIds_eq, ← hi.ids]
  exact hmem

/-- No node is off the line in any phase. -/
theorem NodeAt.ne_failed {n : NodeSummary} {ph : Phase} (h : NodeAt n ph) : n.state ≠ .failed := by
  cases ph with
  | booting => intro hf; rw [show n.state = .pending from h] at hf; cases hf
  | chainKnown => intro hf; rw [show n.state = .pending from h] at hf; cases hf
  | generated => intro hf; rw [show n.state = .pending from h] at hf; cases hf
  | waiting reached pending =>
    obtain ⟨-, ⟨-, hst⟩ | ⟨-, hst⟩⟩ := h
    · rw [hst]
      split <;> simp
    · rw [hst]
      split <;> simp
  | fetching ids => rw [h.2.1]; simp
  | channels => rw [h.2.1]; simp
  | serving =>
    obtain ⟨-, hst | hst, -⟩ := h
    · rw [hst]; simp
    · rw [hst]; simp
  | ended => exact h

theorem PhaseInv.truthful {s : St} (hi : PhaseInv args s) : Truthful s.summary := by
  obtain ⟨-, hnodes, hcluster⟩ := hi
  have hline : ∀ n ∈ s.summary.nodes, n.state ≠ .failed := fun n hn => (hnodes n hn).ne_failed
  -- outside `serving` the state is not `running`
  have hstate : s.phase ≠ .serving → s.summary.state ≠ .running := by
    intro hph
    cases hp : s.phase with
    | serving => exact absurd hp hph
    | ended =>
      rw [hp] at hcluster
      obtain ⟨hst, -⟩ | ⟨hst, -⟩ := hcluster
      · rw [hst]; simp
      · rw [hst]; simp
    | _ => rw [hp] at hcluster; rw [hcluster.1]; simp
  refine ⟨?_, ?_, hline⟩
  · intro hrun n hn
    by_cases hph : s.phase = .serving
    · have hnode := hnodes n hn
      rw [hph] at hnode
      exact ⟨hnode.2.1, hnode.2.2, hnode.1⟩
    · exact absurd hrun (hstate hph)
  · cases hp : s.phase with
    | waiting reached pending => rw [hp] at hcluster; simp [hcluster.1, hcluster.2.1]
    | ended =>
      rw [hp] at hcluster
      obtain ⟨hst, he⟩ | ⟨hst, he⟩ := hcluster
      · simp [hst, he]
      · simp [hst, he]
    | _ => rw [hp] at hcluster; simp [hcluster.1, hcluster.2]

/-! ## The steps -/

/-- What one critical section does: the phase facts stay, no node moves back. -/
structure StepOk (s s' : St) : Prop where
  inv : PhaseInv args s'
  forward : Forward s.summary s'.summary

theorem blokliUrl_ok {s s' : St} {url : String} (hi : PhaseInv args s)
    (h : step args s (.blokliUrl url) = some s') : StepOk args s s' := by
  cases hp : s.phase <;> simp only [step, hp, Option.some.injEq, reduceCtorEq] at h
  subst h
  obtain ⟨hids, hnodes, hcluster⟩ := hi
  rw [hp] at hcluster
  refine ⟨⟨hids, ?_, hcluster⟩, Forward.of_nodes_eq rfl⟩
  intro n hn
  have hnode := hnodes n hn
  rw [hp] at hnode
  exact hnode

theorem extras_ok {s s' : St} {extras : List GeneratedIdentity} (hi : PhaseInv args s)
    (h : step args s (.extras extras) = some s') : StepOk args s s' := by
  cases hp : s.phase <;> simp only [step, hp, Option.some.injEq, reduceCtorEq] at h
  subst h
  obtain ⟨hids, hnodes, hcluster⟩ := hi
  rw [hp] at hcluster
  refine ⟨⟨hids, ?_, hcluster⟩, Forward.of_nodes_eq rfl⟩
  intro n hn
  have hnode := hnodes n hn
  rw [hp] at hnode
  exact hnode

theorem spawned_ok {s s' : St} {pids : Nat → UInt32} (hi : PhaseInv args s)
    (h : step args s (.spawned pids) = some s') : StepOk args s s' := by
  cases hp : s.phase <;> simp only [step, hp, Option.some.injEq, reduceCtorEq] at h
  subst h
  have hnd := hi.nodup
  have hmem := @PhaseInv.id_mem args s hi
  obtain ⟨hids, hnodes, hcluster⟩ := hi
  rw [hp] at hcluster
  have hids' : (s.summary.markSpawned (startNodes args pids)).nodes.map NodeSummary.id =
      List.range args.size := (ids_markSpawned _ _).trans hids
  have hprocs : (startNodes args pids).map NodeProcess.id = nodeIds args := by
    unfold nodeIds startNodes
    rw [List.map_map, List.map_map]
    rfl
  have hspawned : ∀ n ∈ (s.summary.markSpawned (startNodes args pids)).nodes,
      n.id ∈ nodeIds args ∧ n.pid.isSome ∧ n.state = .spawned := by
    intro n hn
    have hid : n.id ∈ nodeIds args := by
      rw [nodeIds_eq, ← hids']
      exact List.mem_map_of_mem hn
    exact ⟨hid, mem_markSpawned hnd hn (hprocs ▸ hid)⟩
  refine ⟨⟨hids', ?_, rfl, hcluster.2, ?_⟩, ?_⟩
  · intro n hn
    obtain ⟨hid, hpid, hst⟩ := hspawned n hn
    refine ⟨hpid, .inl ⟨rfl, ?_⟩⟩
    rw [if_pos hid]
    exact hst
  · rw [nodeIds_eq]
    exact List.nodup_range
  · intro n hn
    have hpending : n.state = .pending := by
      have hnode := hnodes n hn
      rw [hp] at hnode
      exact hnode
    have hid : n.id ∈ (s.summary.markSpawned (startNodes args pids)).nodes.map NodeSummary.id := by
      rw [hids', ← nodeIds_eq]
      exact hmem hn
    obtain ⟨n', hn', heq⟩ := List.mem_map.1 hid
    refine ⟨n', hn', heq, ?_⟩
    rw [hpending]
    exact Nat.zero_le _

/-- The rank a node has before its check completes. -/
theorem NodeAt.before {n : NodeSummary} {reached : NodeState} {pending : List Nat}
    (h : NodeAt n (.waiting reached pending)) (hid : n.id ∈ pending) :
    n.state.rank ≤ reached.rank := by
  obtain ⟨-, ⟨hr, hst⟩ | ⟨hr, hst⟩⟩ := h
  · rw [hst, hr, if_pos hid]
    decide
  · rw [hst, hr, if_pos hid]
    decide

/-- A completed check moves its node from the pending part to the reached one. -/
theorem checked_ok {s s' : St} {id : Nat} (hi : PhaseInv args s)
    (h : step args s (.checked id) = some s') : StepOk args s s' := by
  cases hp : s.phase <;> simp only [step, hp, reduceCtorEq] at h
  rename_i reached pending
  by_cases hid : id ∈ pending
  · simp only [if_pos hid, Option.some.injEq] at h
    subst h
    have hnd := hi.nodup
    obtain ⟨hids, hnodes, hcluster⟩ := hi
    rw [hp] at hnodes hcluster
    obtain ⟨hst, herr, hpend⟩ := hcluster
    refine ⟨⟨(ids_setNodeState _ _ _).trans hids, ?_, hst, herr, hpend.erase id⟩, ?_⟩
    · intro n hn
      obtain ⟨hmem, hne⟩ | ⟨m, hm, hmid, rfl⟩ := mem_nodeMut hnd hn
      · have hiff : n.id ∈ pending.erase id ↔ n.id ∈ pending := List.mem_erase_of_ne hne
        have hnode := hnodes n hmem
        simp only [NodeAt, hiff] at hnode ⊢
        exact hnode
      · have hnot : id ∉ pending.erase id := hpend.not_mem_erase
        obtain ⟨hpid, hm'⟩ := hnodes m hm
        refine ⟨hpid, ?_⟩
        simp only [hmid, if_neg hnot]
        obtain ⟨hr, -⟩ | ⟨hr, -⟩ := hm'
        · exact .inl ⟨hr, hr⟩
        · exact .inr ⟨hr, hr⟩
    · refine exists_nodeMut (R := fun n n' => n'.id = n.id ∧ n.state.rank ≤ n'.state.rank) ?_ ?_
      · intro n
        exact ⟨rfl, Nat.le_refl _⟩
      · intro n hn hnid
        exact ⟨rfl, (hnodes n hn).before (hnid ▸ hid)⟩
  · simp only [if_neg hid, reduceCtorEq] at h

theorem waited_ok {s s' : St} (hi : PhaseInv args s) (h : step args s .waited = some s') :
    StepOk args s s' := by
  have hmem := @PhaseInv.id_mem args s hi
  obtain ⟨hids, hnodes, hcluster⟩ := hi
  cases hp : s.phase <;> simp only [step, hp, reduceCtorEq] at h
  rename_i reached pending
  rw [hp] at hnodes hcluster
  obtain ⟨hst, herr, -⟩ := hcluster
  cases pending with
  | cons id pending => cases reached <;> simp at h
  | nil =>
    cases reached <;> simp only [Option.some.injEq, reduceCtorEq] at h
    · -- every node has started: wait for the same nodes to be ready
      subst h
      refine ⟨⟨hids, ?_, hst, herr, ?_⟩, Forward.of_nodes_eq rfl⟩
      · intro n hn
        obtain ⟨hpid, ⟨-, hnst⟩ | ⟨hr, -⟩⟩ := hnodes n hn
        · refine ⟨hpid, .inr ⟨rfl, ?_⟩⟩
          rw [if_pos (hmem hn), hnst]
          simp
        · cases hr
      · rw [nodeIds_eq]
        exact List.nodup_range
    · subst h
      refine ⟨⟨hids, ?_, hst, herr⟩, Forward.of_nodes_eq rfl⟩
      intro n hn
      obtain ⟨hpid, ⟨hr, -⟩ | ⟨-, hnst⟩⟩ := hnodes n hn
      · cases hr
      · refine ⟨hpid, ?_, fun hnot => absurd (hmem hn) hnot⟩
        rw [hnst]
        simp

theorem address_ok {s s' : St} {id : Nat} {address : String} (hi : PhaseInv args s)
    (h : step args s (.address id address) = some s') : StepOk args s s' := by
  have hnd := hi.nodup
  obtain ⟨hids, hnodes, hcluster⟩ := hi
  cases hp : s.phase <;> simp only [step, hp, reduceCtorEq] at h
  rename_i ids
  rw [hp] at hnodes hcluster
  cases ids with
  | nil => simp at h
  | cons first ids =>
    by_cases hid : id = first
    · simp only [if_pos hid, Option.some.injEq] at h
      subst h hid
      refine ⟨⟨(ids_setNodeAddress _ _ _).trans hids, ?_, hcluster⟩, ?_⟩
      · intro n hn
        obtain ⟨hmem, hne⟩ | ⟨m, hm, hmid, rfl⟩ := mem_nodeMut hnd hn
        · obtain ⟨hpid, hst, haddr⟩ := hnodes n hmem
          refine ⟨hpid, hst, ?_⟩
          intro hnot
          apply haddr
          simp only [List.mem_cons, not_or]
          exact ⟨hne, hnot⟩
        · obtain ⟨hpid, hst, -⟩ := hnodes m hm
          exact ⟨hpid, hst, fun _ => rfl⟩
      · refine exists_nodeMut (R := fun n n' => n'.id = n.id ∧ n.state.rank ≤ n'.state.rank) ?_ ?_
        · intro n
          exact ⟨rfl, Nat.le_refl _⟩
        · intro n _ _
          exact ⟨rfl, Nat.le_refl _⟩
    · simp only [if_neg hid, reduceCtorEq] at h

theorem fetched_ok {s s' : St} (hi : PhaseInv args s) (h : step args s .fetched = some s') :
    StepOk args s s' := by
  obtain ⟨hids, hnodes, hcluster⟩ := hi
  cases hp : s.phase <;> simp only [step, hp, reduceCtorEq] at h
  rename_i ids
  rw [hp] at hnodes hcluster
  cases ids with
  | cons first ids => simp at h
  | nil =>
    simp only [Option.some.injEq] at h
    subst h
    refine ⟨⟨hids, ?_, hcluster⟩, Forward.of_nodes_eq rfl⟩
    intro n hn
    obtain ⟨hpid, hst, haddr⟩ := hnodes n hn
    exact ⟨hpid, hst, haddr (by simp)⟩

theorem channelsDone_ok {s s' : St} (hi : PhaseInv args s)
    (h : step args s .channelsDone = some s') : StepOk args s s' := by
  obtain ⟨hids, hnodes, hcluster⟩ := hi
  cases hp : s.phase <;> simp only [step, hp, Option.some.injEq, reduceCtorEq] at h
  subst h
  rw [hp] at hnodes hcluster
  by_cases hmode : args.channelManagement = .none
  · simp only [if_pos hmode]
    refine ⟨⟨hids, ?_, rfl, hcluster.2⟩, Forward.of_nodes_eq rfl⟩
    intro n hn
    obtain ⟨hpid, hst, haddr⟩ := hnodes n hn
    exact ⟨hpid, .inl hst, haddr⟩
  · simp only [if_neg hmode]
    refine ⟨⟨?_, ?_, rfl, hcluster.2⟩, ?_⟩
    · rw [← hids]
      unfold ClusterSummary.setAllNodeStates
      rw [List.map_map]
      rfl
    · intro n hn
      obtain ⟨m, hm, rfl⟩ := List.mem_map.1 hn
      obtain ⟨hpid, -, haddr⟩ := hnodes m hm
      exact ⟨hpid, .inr rfl, haddr⟩
    · intro n hn
      refine ⟨{ n with state := .channelsOpen }, List.mem_map.2 ⟨n, hn, rfl⟩, rfl, ?_⟩
      rw [(hnodes n hn).2.1]
      exact (by decide : NodeState.ready.rank ≤ NodeState.channelsOpen.rank)

theorem shutdown_ok {s s' : St} (hi : PhaseInv args s) (h : step args s .shutdown = some s') :
    StepOk args s s' := by
  obtain ⟨hids, hnodes, hcluster⟩ := hi
  cases hp : s.phase <;> simp only [step, hp, Option.some.injEq, reduceCtorEq] at h
  subst h
  rw [hp] at hcluster
  exact ⟨⟨hids, fun n hn => (hnodes n hn).ne_failed, .inl ⟨rfl, hcluster.2⟩⟩,
    Forward.of_nodes_eq rfl⟩

/-- The error is recorded, and nothing else. -/
theorem fail_eq {s s' : St} {error : String} (h : step args s (.fail error) = some s') :
    s' = { s with
      phase := .ended, summary := { s.summary with state := .failed, error := some error } } := by
  cases hp : s.phase <;> simp only [step, hp, Option.some.injEq, reduceCtorEq] at h
  all_goals exact h.symm

theorem fail_ok {s s' : St} {error : String} (hi : PhaseInv args s)
    (h : step args s (.fail error) = some s') : StepOk args s s' := by
  obtain ⟨hids, hnodes, -⟩ := hi
  obtain rfl := fail_eq args h
  exact ⟨⟨hids, fun n hn => (hnodes n hn).ne_failed, .inr ⟨rfl, rfl⟩⟩, Forward.of_nodes_eq rfl⟩

theorem step_ok {s s' : St} {l : Label} (hi : PhaseInv args s) (h : step args s l = some s') :
    StepOk args s s' := by
  cases l with
  | blokliUrl url => exact blokliUrl_ok args hi h
  | extras extras => exact extras_ok args hi h
  | spawned pids => exact spawned_ok args hi h
  | checked id => exact checked_ok args hi h
  | waited => exact waited_ok args hi h
  | address id address => exact address_ok args hi h
  | fetched => exact fetched_ok args hi h
  | channelsDone => exact channelsDone_ok args hi h
  | shutdown => exact shutdown_ok args hi h
  | fail error => exact fail_ok args hi h
  | snapshot =>
    simp only [step, Option.some.injEq] at h
    subst h
    exact ⟨⟨hi.ids, hi.nodes, hi.cluster⟩, Forward.refl _⟩

/-! ## Every snapshot of every run -/

/-- The phase facts, and what was served so far: truthful, in order, and not ahead of
the summary. -/
structure Inv (s : St) : Prop where
  phase : PhaseInv args s
  truthful : ∀ c ∈ s.served, Truthful c ∧ c.nodes.map NodeSummary.id = List.range args.size
  behind : ∀ c ∈ s.served, Forward c s.summary
  ordered : s.served.Pairwise Forward

theorem step_served {s s' : St} {l : Label} (h : step args s l = some s') :
    s'.served = s.served ∨ (s'.served = s.served ++ [s.summary] ∧ s'.summary = s.summary) := by
  cases l with
  | snapshot =>
    simp only [step, Option.some.injEq] at h
    subst h
    exact .inr ⟨rfl, rfl⟩
  | _ =>
    simp only [step] at h
    repeat' split at h
    all_goals
      cases h <;> exact .inl rfl

theorem inv_step {s s' : St} {l : Label} (hi : Inv args s) (h : step args s l = some s') :
    Inv args s' := by
  obtain ⟨hphase, htruth, hbehind, hordered⟩ := hi
  obtain ⟨hphase', hfwd⟩ := step_ok args hphase h
  cases step_served args h with
  | inl heq =>
    refine ⟨hphase', ?_, ?_, ?_⟩
    · rw [heq]; exact htruth
    · intro c hc
      rw [heq] at hc
      exact (hbehind c hc).trans hfwd
    · rw [heq]; exact hordered
  | inr heq =>
    obtain ⟨hserved, hsum⟩ := heq
    refine ⟨hphase', ?_, ?_, ?_⟩
    · intro c hc
      rw [hserved, List.mem_append, List.mem_singleton] at hc
      cases hc with
      | inl hc => exact htruth c hc
      | inr hc => rw [hc]; exact ⟨hphase.truthful, hphase.ids⟩
    · intro c hc
      rw [hserved, List.mem_append, List.mem_singleton] at hc
      rw [hsum]
      cases hc with
      | inl hc => exact hbehind c hc
      | inr hc => rw [hc]; exact Forward.refl _
    · rw [hserved, List.pairwise_append]
      refine ⟨hordered, List.pairwise_singleton _ _, ?_⟩
      intro c hc d hd
      rw [List.mem_singleton.1 hd]
      exact hbehind c hc

theorem inv_inductive : (system args).Inductive (Inv args) where
  init s h := by
    obtain ⟨pid, rfl⟩ := h
    refine ⟨⟨?_, ?_, rfl, rfl⟩, ?_, ?_, List.Pairwise.nil⟩
    · unfold ClusterSummary.initial
      rw [List.map_map]
      exact List.map_id _
    · intro n hn
      obtain ⟨id, -, rfl⟩ := List.mem_map.1 hn
      rfl
    · intro c hc
      cases hc
    · intro c hc
      cases hc
  step _ _ _ hi h := inv_step args hi h

/-- **Served snapshots are truthful**, one entry for each node id, and no node moves
backwards from one snapshot to a later one, nor to the current summary. -/
theorem snapshots_truthful (s : St) (h : (system args).Reachable s) :
    (∀ c ∈ s.served, Truthful c ∧ c.nodes.map NodeSummary.id = List.range args.size ∧
      Forward c s.summary) ∧ s.served.Pairwise Forward := by
  obtain ⟨-, htruth, hbehind, hordered⟩ := (inv_inductive args).reachable s h
  refine ⟨?_, hordered⟩
  intro c hc
  exact ⟨(htruth c hc).1, (htruth c hc).2, hbehind c hc⟩

/-- A run of two nodes whose second becomes ready first, read while it is running. -/
def twoNodes : Args where
  size := 2
  size_pos := by decide
  size_le := by decide
  channelManagement := .api
  apiHost := "localhost"
  apiPortBase := 3000
  p2pHost := "auto"
  p2pPortBase := 9000
  apiToken := none
  latency := none

def twoNodesRun : List Label :=
  [.blokliUrl "http://chain:8080", .extras [], .spawned (fun id => UInt32.ofNat (100 + id)),
    .checked 1, .snapshot, .checked 0, .waited, .checked 1, .checked 0, .waited,
    .address 0 "0xa", .address 1 "0xb", .fetched, .channelsDone, .snapshot]

/-- The state `twoNodesRun` ends in. -/
def twoNodesEnd : St :=
  ((LTS.exec (step twoNodes) ⟨.initial twoNodes 1, .booting, []⟩ twoNodesRun).getD
    ⟨.initial twoNodes 1, .booting, []⟩)

theorem twoNodes_truthful :
    twoNodesEnd.summary.state = .running ∧
    (∀ c ∈ twoNodesEnd.served, Truthful c ∧ c.nodes.map NodeSummary.id = List.range twoNodes.size ∧
      Forward c twoNodesEnd.summary) ∧ twoNodesEnd.served.Pairwise Forward :=
  ⟨rfl, snapshots_truthful twoNodes twoNodesEnd
    (LTS.reachable_of_exec _ twoNodesRun ⟨1, rfl⟩ rfl)⟩

end Hoprd.Summary
