import Hoprd.Localcluster.Locks

/-!
# The hoprd processes of the launches (`localcluster/src/main.rs`, `client_helper.rs`)

A launch past its locks spawns its nodes one by one in `start_nodes`, each in a directory
`db_<id>` of the data directory, and keeps them in `Cleanup` once all are there. However it
returns, it kills first what `Cleanup` has. A child that nobody kills runs on: those of a
`start_nodes` that failed, and those of a launch that was killed.

`St` adds the processes to the launches of the locks. Other processes in these directories
are those of nobody's launch and not considered.

* `Owned`: every process is one that its launch, past its locks, is going to kill.
* `nodes_owned_iff`: it holds throughout a run, and no two processes ever share a node
  directory, exactly when no launch of the run is killed above a running process and no
  `start_nodes` fails above one (`Harmless`).
-/
namespace Hoprd.NodeProcesses

open Core
open Function (update update_self update_of_ne)
open Hoprd.Locks (FileSystem Proc PastFor)

/-- Where a launch past its locks is. `setup` is everything before `start_nodes`, in
`starting` the processes spawned so far are those of `start_nodes`, in `running` those of
`Cleanup`; `shutdown` has these left to kill.
mirrors localcluster/src/main.rs:38-57, 152-403 -/
inductive Stage where
  | setup
  | starting (numNodes : Nat) (pids : List Nat)
  | running (pids : List Nat)
  | shutdown (pids : List Nat)
  deriving DecidableEq, Repr

def Stage.pids : Stage → List Nat
  | .setup => []
  | .starting _ pids | .running pids | .shutdown pids => pids

/-- A running hoprd: the launch that spawned it, its node and the data directory. -/
structure Process where
  launch : Nat
  id : Nat
  dataDir : Locks.Path
  deriving DecidableEq, Repr

/-- `hoprds` has the processes that run; a process is named by how many were spawned
before it. -/
structure St (File : Type) where
  launches : Locks.St File
  stage : Nat → Stage
  hoprds : Nat → Option Process
  spawned : Nat

/-- `launch` is a step on the way past the locks. `fail` is the `?` of any step after
that, `stop` Ctrl-C or SIGTERM once the cluster runs, `kill` one `child.kill()` and
`child.wait()` of the shutdown; `killed` ends a launch at any point, and `died` is a hoprd
that ends by itself. -/
inductive Label where
  | launch (l : Locks.Label)
  | startNodes (i numNodes : Nat)
  | spawn (i : Nat)
  | started (i : Nat)
  | fail (i : Nat)
  | stop (i : Nat)
  | kill (i : Nat)
  | ended (i : Nat)
  | killed (i : Nat)
  | died (pid : Nat)

section Step

variable {File : Type}

def St.setStage (s : St File) (i : Nat) (stage : Stage) : St File :=
  { s with stage := update s.stage i stage }

/-- The launch that is past its locks, and its data directory. -/
def St.past (s : St File) (i : Nat) : Option (Proc × Locks.Path) :=
  match s.launches.procs i with
  | none => none
  | some p =>
    match p.phase with
    | .past d => some (p, d)
    | _ => none

/-- `cmd.spawn()` of `start_nodes`: the next node of launch `i`. -/
def St.spawn (s : St File) (i numNodes : Nat) (pids : List Nat) (d : Locks.Path) : St File :=
  { s with
    hoprds := update s.hoprds s.spawned (some ⟨i, pids.length, d⟩)
    spawned := s.spawned + 1
    stage := update s.stage i (.starting numNodes (pids ++ [s.spawned])) }

/-- `child.kill()`, `child.wait()` of the first process that is left. -/
def St.kill (s : St File) (i pid : Nat) (pids : List Nat) : St File :=
  { s.setStage i (.shutdown pids) with hoprds := update s.hoprds pid none }

/-- The launch is over, and the system takes its locks back. -/
def St.leave (s : St File) (i : Nat) (p : Proc) : St File :=
  { s.setStage i .setup with launches := s.launches.leave i p .ended }

/-- One step of a launch past its locks, over the data directory `d`.
mirrors localcluster/src/main.rs:38-57, 270-403, localcluster/src/client_helper.rs:537-609 -/
def pastStep (s : St File) (p : Proc) (d : Locks.Path) : Label → Option (St File)
  | .startNodes i numNodes =>
    match s.stage i with
    | .setup => some (s.setStage i (.starting numNodes []))
    | _ => none
  | .spawn i =>
    match s.stage i with
    | .starting numNodes pids =>
      if pids.length < numNodes then some (s.spawn i numNodes pids d) else none
    | _ => none
  | .started i =>
    match s.stage i with
    | .starting numNodes pids =>
      if pids.length < numNodes then none else some (s.setStage i (.running pids))
    | _ => none
  | .fail i =>
    match s.stage i with
    -- `Cleanup` has no nodes yet, and `start_nodes` drops its own
    | .setup | .starting _ _ => some (s.setStage i (.shutdown []))
    | .running pids => some (s.setStage i (.shutdown pids))
    | .shutdown _ => none
  | .stop i =>
    match s.stage i with
    | .running pids => some (s.setStage i (.shutdown pids))
    | _ => none
  | .kill i =>
    match s.stage i with
    | .shutdown (pid :: pids) => some (s.kill i pid pids)
    | _ => none
  | .ended i =>
    match s.stage i with
    | .shutdown [] => some (s.leave i p)
    | _ => none
  | .killed i => some (s.leave i p)
  | .launch _ | .died _ => none

/-- The launch that a label is a step of. -/
def Label.who : Label → Nat
  | .launch l => l.who
  | .startNodes i _ | .spawn i | .started i | .fail i | .stop i | .kill i | .ended i
  | .killed i => i
  | .died pid => pid

variable [DecidableEq File] (fs : FileSystem File)

def step (s : St File) : Label → Option (St File)
  | .launch l =>
    match s.past l.who with
    | some _ => none
    | none =>
      (Locks.step fs s.launches l).map fun launches => { s with launches := launches }
  | .died pid => some { s with hoprds := update s.hoprds pid none }
  | l => (s.past l.who).bind fun p => pastStep s p.1 p.2 l

def system : LTS (St File) Label :=
  .ofFn (fun s => s = ⟨⟨fun _ => none, .unlocked⟩, fun _ => .setup, fun _ => none, 0⟩) (step fs)

end Step

/-! ## Whose process it is -/

section Invariant

variable {File : Type}

/-- The launch of the process is past its locks for that directory, and has it among those it
is going to kill. -/
structure Owned (s : St File) : Prop where
  past : ∀ pid h, s.hoprds pid = some h → ∃ p, PastFor s.launches h.launch p h.dataDir
  kept : ∀ pid h, s.hoprds pid = some h → pid ∈ (s.stage h.launch).pids

/-- No two processes work in one `db_<id>`. -/
def Exclusive (s : St File) : Prop :=
  ∀ pid pid' h h', s.hoprds pid = some h → s.hoprds pid' = some h' →
    h.dataDir = h'.dataDir → h.id = h'.id → pid = pid'

/-- What the step does not leave behind: a running process of a launch that is killed, or of a
`start_nodes` that fails. -/
def Harmless (s : St File) : Label → Prop
  | .killed i => ∀ pid h, s.hoprds pid = some h → h.launch ≠ i
  | .fail i => ∀ numNodes pids, s.stage i = .starting numNodes pids →
      ∀ pid ∈ pids, s.hoprds pid = none
  | _ => True

/-- These are processes of launch `i`, of its nodes from `first` on. -/
def Listed (s : St File) (i first : Nat) (pids : List Nat) : Prop :=
  ∀ k pid, pids[k]? = some pid → pid < s.spawned ∧
    ∀ h, s.hoprds pid = some h → h.launch = i ∧ h.id = first + k

/-- The lists name processes of their launch in the order of their nodes, without those that
are killed already; a launch that is not past its locks has none. -/
structure Inv (fs : FileSystem File) (s : St File) : Prop where
  locks : Locks.Inv fs s.launches
  numbered : ∀ pid h, s.hoprds pid = some h → pid < s.spawned
  listed : ∀ i, ∃ first, Listed s i first (s.stage i).pids
  starting : ∀ i numNodes pids, s.stage i = .starting numNodes pids → Listed s i 0 pids
  past : ∀ i, s.stage i ≠ .setup → ∃ p d, PastFor s.launches i p d

theorem past_eq_some {s : St File} {i : Nat} {p : Proc} {d : Locks.Path} :
    s.past i = some (p, d) ↔ PastFor s.launches i p d := by
  unfold St.past PastFor
  cases hp : s.launches.procs i with
  | none => simp
  | some q =>
    obtain ⟨args, ph⟩ := q
    cases ph with
    | past e =>
      constructor
      · rintro ⟨⟩
        exact ⟨rfl, rfl⟩
      · rintro ⟨⟨⟩, ⟨⟩⟩
        rfl
    | _ =>
      constructor
      · rintro ⟨⟩
      · rintro ⟨⟨⟩, ⟨⟩⟩

variable {fs : FileSystem File} {s s' : St File} {i : Nat}

/-- Processes of the launches that the locks keep apart are apart, and those of one launch
are one for each node. -/
theorem Owned.exclusive (ho : Owned s) (hi : Inv fs s) : Exclusive s := by
  intro pid pid' h h' hpid hpid' hdir hid
  obtain ⟨p, hp⟩ := ho.past pid h hpid
  obtain ⟨q, hq⟩ := ho.past pid' h' hpid'
  rw [← hdir] at hq
  have hlaunch : h.launch = h'.launch := hi.locks.exclusive.data _ _ p q _ hp hq
  obtain ⟨k, hk⟩ := List.getElem?_of_mem (ho.kept pid h hpid)
  obtain ⟨k', hk'⟩ := List.getElem?_of_mem (ho.kept pid' h' hpid')
  rw [← hlaunch] at hk'
  obtain ⟨first, hlist⟩ := hi.listed h.launch
  have hidk := ((hlist k pid hk).2 h hpid).2
  have hidk' := ((hlist k' pid' hk').2 h' hpid').2
  have hkk : k' = k := by omega
  rw [hkk, hk] at hk'
  exact Option.some.inj hk'

/-! ## What a step keeps -/

/-- Processes can end, and others be spawned, without a word about these. -/
theorem Listed.of_hoprds {first : Nat} {pids : List Nat} (h : Listed s i first pids)
    (hle : s.spawned ≤ s'.spawned)
    (hsame : ∀ pid, pid < s.spawned → ∀ h, s'.hoprds pid = some h → s.hoprds pid = some h) :
    Listed s' i first pids := by
  intro k pid hk
  obtain ⟨hlt, hof⟩ := h k pid hk
  exact ⟨Nat.lt_of_lt_of_le hlt hle, fun p hp => hof p (hsame pid hlt p hp)⟩

theorem Listed.nil (s : St File) (i first : Nat) : Listed s i first [] := nofun

theorem Listed.tail {first pid : Nat} {pids : List Nat} (h : Listed s i first (pid :: pids)) :
    Listed s i (first + 1) pids := by
  intro k pid' hk
  obtain ⟨hlt, hof⟩ := h (k + 1) pid' hk
  refine ⟨hlt, fun p hp => ?_⟩
  obtain ⟨hlaunch, hid⟩ := hof p hp
  exact ⟨hlaunch, by omega⟩

/-- What a step of one launch has to keep, so that the invariant holds: the others are as they
were. -/
theorem Inv.of_launch (hi : Inv fs s) (hlocks : Locks.Inv fs s'.launches)
    (hle : s.spawned ≤ s'.spawned) (hnum : ∀ pid h, s'.hoprds pid = some h → pid < s'.spawned)
    (hsame : ∀ pid, pid < s.spawned → ∀ h, s'.hoprds pid = some h → s.hoprds pid = some h)
    (hstage : ∀ j, j ≠ i → s'.stage j = s.stage j)
    (hpast : ∀ j p d, j ≠ i → PastFor s.launches j p d → PastFor s'.launches j p d)
    (hlisted : ∃ first, Listed s' i first (s'.stage i).pids)
    (hstarting : ∀ numNodes pids, s'.stage i = .starting numNodes pids → Listed s' i 0 pids)
    (hself : s'.stage i ≠ .setup → ∃ p d, PastFor s'.launches i p d) : Inv fs s' where
  locks := hlocks
  numbered := hnum
  listed j := by
    by_cases hj : j = i
    · rw [hj]
      exact hlisted
    · rw [hstage j hj]
      obtain ⟨first, h⟩ := hi.listed j
      exact ⟨first, h.of_hoprds hle hsame⟩
  starting j numNodes pids hs := by
    by_cases hj : j = i
    · rw [hj] at hs ⊢
      exact hstarting numNodes pids hs
    · rw [hstage j hj] at hs
      exact (hi.starting j numNodes pids hs).of_hoprds hle hsame
  past j hs := by
    by_cases hj : j = i
    · rw [hj] at hs ⊢
      exact hself hs
    · rw [hstage j hj] at hs
      obtain ⟨p, d, h⟩ := hi.past j hs
      exact ⟨p, d, hpast j p d hj h⟩

/-- The launch moves on from one stage to another with processes that it had. -/
theorem inv_setStage (hi : Inv fs s) {p : Proc} {d : Locks.Path} (hp : PastFor s.launches i p d)
    {stage : Stage} (hlisted : ∃ first, Listed s i first stage.pids)
    (hstarting : ∀ numNodes pids, stage = .starting numNodes pids → Listed s i 0 pids) :
    Inv fs (s.setStage i stage) := by
  have hset : (s.setStage i stage).stage i = stage := update_self _ _ _
  refine hi.of_launch (i := i) hi.locks (Nat.le_refl _) hi.numbered (fun _ _ _ h => h)
    (fun j hj => update_of_ne hj _ _) (fun _ _ _ _ h => h) ?_ ?_ (fun _ => ⟨p, d, hp⟩)
  · rw [hset]
    exact hlisted
  · rw [hset]
    exact hstarting

theorem past_leave {L : Locks.St File} {p q : Proc} {d : Locks.Path} {j : Nat} :
    PastFor (L.leave i p .ended) j q d ↔ j ≠ i ∧ PastFor L j q d := by
  unfold PastFor
  by_cases hj : j = i
  · subst hj
    rw [Locks.leave_procs_self]
    constructor
    · rintro ⟨⟨⟩, ⟨⟩⟩
    · rintro ⟨hne, -⟩
      exact absurd rfl hne
  · rw [(Locks.leave_frame L i p .ended).procs j hj]
    exact ⟨fun h => ⟨hj, h⟩, fun h => h.2⟩

theorem inv_leave (hi : Inv fs s) (p : Proc) : Inv fs (s.leave i p) := by
  have hset : (s.leave i p).stage i = .setup := update_self _ _ _
  refine hi.of_launch (i := i) ?_ (Nat.le_refl _) hi.numbered (fun _ _ _ h => h)
    (fun j hj => update_of_ne hj _ _) (fun j q d hj h => past_leave.2 ⟨hj, h⟩) ?_ ?_ ?_
  · exact Locks.inv_of_frame fs hi.locks (Locks.leave_frame s.launches i p .ended)
      (Locks.leave_view fs s.launches i p .ended)
  · rw [hset]
    exact ⟨0, .nil _ _ _⟩
  · rw [hset]
    nofun
  · rw [hset]
    exact fun h => absurd rfl h

theorem inv_spawn (hi : Inv fs s) {p : Proc} {d : Locks.Path} (hp : PastFor s.launches i p d)
    {numNodes : Nat} {pids : List Nat} (hs : s.stage i = .starting numNodes pids) :
    Inv fs (s.spawn i numNodes pids d) := by
  have hset : (s.spawn i numNodes pids d).stage i = .starting numNodes (pids ++ [s.spawned]) :=
    update_self _ _ _
  have hold : ∀ pid, pid < s.spawned → ∀ h, (s.spawn i numNodes pids d).hoprds pid = some h →
      s.hoprds pid = some h := by
    intro pid hlt h hh
    exact (update_of_ne (Nat.ne_of_lt hlt) _ _).symm.trans hh
  have hlist : Listed (s.spawn i numNodes pids d) i 0 (pids ++ [s.spawned]) := by
    intro k pid hk
    rcases Nat.lt_or_ge k pids.length with hlt | hge
    · rw [List.getElem?_append_left hlt] at hk
      exact (hi.starting i numNodes pids hs).of_hoprds (Nat.le_succ _) hold k pid hk
    · -- the new one, of the next node
      rw [List.getElem?_append_right hge, List.getElem?_singleton] at hk
      split at hk
      · next hzero =>
        obtain rfl := Option.some.inj hk
        refine ⟨Nat.lt_succ_self _, fun h hh => ?_⟩
        have hnew : (s.spawn i numNodes pids d).hoprds s.spawned = some ⟨i, pids.length, d⟩ :=
          update_self _ _ _
        rw [hnew] at hh
        obtain rfl := Option.some.inj hh
        exact ⟨rfl, by show pids.length = 0 + k; omega⟩
      · cases hk
  refine hi.of_launch (i := i) hi.locks (Nat.le_succ _) ?_ hold
    (fun j hj => update_of_ne hj _ _) (fun _ _ _ _ h => h) ?_ ?_ (fun _ => ⟨p, d, hp⟩)
  · intro pid h hh
    by_cases hpid : pid = s.spawned
    · rw [hpid]
      exact Nat.lt_succ_self _
    · exact Nat.lt_succ_of_lt (hi.numbered pid h ((update_of_ne hpid _ _).symm.trans hh))
  · rw [hset]
    exact ⟨0, hlist⟩
  · rw [hset]
    rintro n l ⟨⟩
    exact hlist

theorem hoprds_gone {pid pid' : Nat} {h : Process}
    (hh : update s.hoprds pid none pid' = some h) : pid' ≠ pid ∧ s.hoprds pid' = some h := by
  by_cases hpid : pid' = pid
  · rw [hpid, update_self] at hh
    cases hh
  · rw [update_of_ne hpid] at hh
    exact ⟨hpid, hh⟩

theorem inv_kill (hi : Inv fs s) {p : Proc} {d : Locks.Path} (hp : PastFor s.launches i p d)
    {pid : Nat} {pids : List Nat} (hs : s.stage i = .shutdown (pid :: pids)) :
    Inv fs (s.kill i pid pids) := by
  have hset : (s.kill i pid pids).stage i = .shutdown pids := update_self _ _ _
  have hold : ∀ q, q < s.spawned → ∀ h, (s.kill i pid pids).hoprds q = some h →
      s.hoprds q = some h := fun q _ h hh => (hoprds_gone hh).2
  obtain ⟨first, hlist⟩ := hi.listed i
  rw [hs] at hlist
  refine hi.of_launch (i := i) hi.locks (Nat.le_refl _)
    (fun q h hh => hi.numbered q h (hoprds_gone hh).2) hold (fun j hj => update_of_ne hj _ _)
    (fun _ _ _ _ h => h) ?_ ?_ (fun _ => ⟨p, d, hp⟩)
  · rw [hset]
    exact ⟨first + 1, hlist.tail.of_hoprds (Nat.le_refl _) hold⟩
  · rw [hset]
    nofun

/-- What a launch past its locks can do. -/
theorem pastStep_cases {p : Proc} {d : Locks.Path} {l : Label}
    (h : pastStep s p d l = some s') :
    (∃ i numNodes, l = .startNodes i numNodes ∧ s.stage i = .setup ∧
        s' = s.setStage i (.starting numNodes [])) ∨
    (∃ i numNodes pids, l = .spawn i ∧ s.stage i = .starting numNodes pids ∧
        s' = s.spawn i numNodes pids d) ∨
    (∃ i numNodes pids, l = .started i ∧ s.stage i = .starting numNodes pids ∧
        s' = s.setStage i (.running pids)) ∨
    (∃ i, l = .fail i ∧ (s.stage i = .setup ∨ ∃ numNodes pids, s.stage i = .starting numNodes pids)
        ∧ s' = s.setStage i (.shutdown [])) ∨
    (∃ i pids, (l = .fail i ∨ l = .stop i) ∧ s.stage i = .running pids ∧
        s' = s.setStage i (.shutdown pids)) ∨
    (∃ i pid pids, l = .kill i ∧ s.stage i = .shutdown (pid :: pids) ∧ s' = s.kill i pid pids) ∨
    (∃ i, l = .ended i ∧ s.stage i = .shutdown [] ∧ s' = s.leave i p) ∨
    ∃ i, l = .killed i ∧ s' = s.leave i p := by
  cases l with
  | launch | died => cases h
  | startNodes i numNodes =>
    simp only [pastStep] at h
    split at h
    · next hs => exact .inl ⟨i, numNodes, rfl, hs, (Option.some.inj h).symm⟩
    · cases h
  | spawn i =>
    simp only [pastStep] at h
    split at h
    · next numNodes pids hs =>
      split at h
      · exact .inr (.inl ⟨i, numNodes, pids, rfl, hs, (Option.some.inj h).symm⟩)
      · cases h
    · cases h
  | started i =>
    simp only [pastStep] at h
    split at h
    · next numNodes pids hs =>
      split at h
      · cases h
      · exact .inr (.inr (.inl ⟨i, numNodes, pids, rfl, hs, (Option.some.inj h).symm⟩))
    · cases h
  | fail i =>
    simp only [pastStep] at h
    split at h
    · next hs =>
      exact .inr (.inr (.inr (.inl ⟨i, rfl, .inl hs, (Option.some.inj h).symm⟩)))
    · next numNodes pids hs =>
      exact .inr (.inr (.inr (.inl ⟨i, rfl, .inr ⟨_, _, hs⟩, (Option.some.inj h).symm⟩)))
    · next pids hs =>
      exact .inr (.inr (.inr (.inr (.inl ⟨i, pids, .inl rfl, hs, (Option.some.inj h).symm⟩))))
    · cases h
  | stop i =>
    simp only [pastStep] at h
    split at h
    · next pids hs =>
      exact .inr (.inr (.inr (.inr (.inl ⟨i, pids, .inr rfl, hs, (Option.some.inj h).symm⟩))))
    · cases h
  | kill i =>
    simp only [pastStep] at h
    split at h
    · next pid pids hs =>
      exact .inr (.inr (.inr (.inr (.inr (.inl
        ⟨i, pid, pids, rfl, hs, (Option.some.inj h).symm⟩)))))
    · cases h
  | ended i =>
    simp only [pastStep] at h
    split at h
    · next hs =>
      exact .inr (.inr (.inr (.inr (.inr (.inr (.inl ⟨i, rfl, hs, (Option.some.inj h).symm⟩))))))
    · cases h
  | killed i =>
    exact .inr (.inr (.inr (.inr (.inr (.inr (.inr ⟨i, rfl, (Option.some.inj h).symm⟩))))))

theorem inv_pastStep (hi : Inv fs s) {p : Proc} {d : Locks.Path} {l : Label}
    (hp : PastFor s.launches l.who p d) (h : pastStep s p d l = some s') : Inv fs s' := by
  rcases pastStep_cases h with ⟨i, n, rfl, hs, rfl⟩ | ⟨i, n, pids, rfl, hs, rfl⟩ |
    ⟨i, n, pids, rfl, hs, rfl⟩ | ⟨i, rfl, -, rfl⟩ | ⟨i, pids, hl, hs, rfl⟩ |
    ⟨i, pid, pids, rfl, hs, rfl⟩ | ⟨i, rfl, hs, rfl⟩ | ⟨i, rfl, rfl⟩
  · refine inv_setStage hi hp ⟨0, .nil _ _ _⟩ ?_
    rintro _ _ ⟨⟩
    exact .nil _ _ _
  · exact inv_spawn hi hp hs
  · exact inv_setStage hi hp ⟨0, hi.starting i n pids hs⟩ nofun
  · exact inv_setStage hi hp ⟨0, .nil _ _ _⟩ nofun
  · obtain ⟨first, hlist⟩ := hi.listed i
    rw [hs] at hlist
    have hwho : l.who = i := by rcases hl with rfl | rfl <;> rfl
    rw [hwho] at hp
    exact inv_setStage hi hp ⟨first, hlist⟩ nofun
  · exact inv_kill hi hp hs
  · exact inv_leave hi p
  · exact inv_leave hi p

/-! ## Which steps leave a process behind -/

theorem owned_setStage_iff (ho : Owned s) {i : Nat} {stage : Stage} :
    Owned (s.setStage i stage) ↔
      ∀ pid h, s.hoprds pid = some h → h.launch = i → pid ∈ stage.pids := by
  have hset : (s.setStage i stage).stage i = stage := update_self _ _ _
  constructor
  · intro h pid p hp hi
    have hkept := h.kept pid p hp
    rwa [hi, hset] at hkept
  · intro h
    refine ⟨ho.past, ?_⟩
    intro pid p hp
    by_cases hi : p.launch = i
    · rw [hi, hset]
      exact h pid p hp hi
    · rw [show (s.setStage i stage).stage p.launch = s.stage p.launch from update_of_ne hi _ _]
      exact ho.kept pid p hp

/-- A stage with all the processes of the one before leaves none behind. -/
theorem owned_setStage (ho : Owned s) {i : Nat} {stage : Stage}
    (h : ∀ pid ∈ (s.stage i).pids, pid ∈ stage.pids) : Owned (s.setStage i stage) := by
  refine (owned_setStage_iff ho).2 ?_
  intro pid p hp hi
  exact h pid (hi ▸ ho.kept pid p hp)

theorem owned_leave_iff (ho : Owned s) {i : Nat} (p : Proc) :
    Owned (s.leave i p) ↔ ∀ pid h, s.hoprds pid = some h → h.launch ≠ i := by
  constructor
  · intro h pid q hq
    obtain ⟨r, hr⟩ := h.past pid q hq
    exact (past_leave.1 hr).1
  · intro h
    refine ⟨?_, ?_⟩
    · intro pid q hq
      obtain ⟨r, hr⟩ := ho.past pid q hq
      exact ⟨r, past_leave.2 ⟨h pid q hq, hr⟩⟩
    · intro pid q hq
      rw [show (s.leave i p).stage q.launch = s.stage q.launch from
        update_of_ne (h pid q hq) _ _]
      exact ho.kept pid q hq

theorem owned_spawn (ho : Owned s) {i : Nat} {p : Proc} {d : Locks.Path}
    (hp : PastFor s.launches i p d) {numNodes : Nat} {pids : List Nat}
    (hs : s.stage i = .starting numNodes pids) : Owned (s.spawn i numNodes pids d) := by
  have hset : (s.spawn i numNodes pids d).stage i = .starting numNodes (pids ++ [s.spawned]) :=
    update_self _ _ _
  have hcases : ∀ pid h, (s.spawn i numNodes pids d).hoprds pid = some h →
      (pid = s.spawned ∧ h = ⟨i, pids.length, d⟩) ∨ s.hoprds pid = some h := by
    intro pid h hh
    by_cases hpid : pid = s.spawned
    · have hnew : (s.spawn i numNodes pids d).hoprds s.spawned = some ⟨i, pids.length, d⟩ :=
        update_self _ _ _
      rw [hpid, hnew] at hh
      exact .inl ⟨hpid, (Option.some.inj hh).symm⟩
    · exact .inr ((update_of_ne hpid _ _).symm.trans hh)
  refine ⟨?_, ?_⟩
  · intro pid h hh
    rcases hcases pid h hh with ⟨-, rfl⟩ | hold
    · exact ⟨p, hp⟩
    · exact ho.past pid h hold
  · intro pid h hh
    rcases hcases pid h hh with ⟨rfl, rfl⟩ | hold
    · rw [hset]
      exact List.mem_append_right _ (List.mem_singleton.2 rfl)
    · by_cases hl : h.launch = i
      · have hkept := ho.kept pid h hold
        rw [hl, hs] at hkept
        rw [hl, hset]
        exact List.mem_append_left _ hkept
      · rw [show (s.spawn i numNodes pids d).stage h.launch = s.stage h.launch from
          update_of_ne hl _ _]
        exact ho.kept pid h hold

theorem owned_kill (ho : Owned s) {i pid : Nat} {pids : List Nat}
    (hs : s.stage i = .shutdown (pid :: pids)) : Owned (s.kill i pid pids) := by
  refine ⟨fun q h hh => ho.past q h (hoprds_gone hh).2, ?_⟩
  intro q h hh
  obtain ⟨hne, hold⟩ := hoprds_gone hh
  have hkept := ho.kept q h hold
  by_cases hl : h.launch = i
  · rw [hl, hs] at hkept
    rw [hl, show (s.kill i pid pids).stage i = .shutdown pids from update_self _ _ _]
    exact (List.mem_cons.1 hkept).resolve_left hne
  · rw [show (s.kill i pid pids).stage h.launch = s.stage h.launch from update_of_ne hl _ _]
    exact hkept

theorem owned_pastStep_iff (hi : Inv fs s) (ho : Owned s) {p : Proc} {d : Locks.Path} {l : Label}
    (hp : PastFor s.launches l.who p d) (h : pastStep s p d l = some s') :
    Harmless s l ↔ Owned s' := by
  rcases pastStep_cases h with ⟨i, n, rfl, hs, rfl⟩ | ⟨i, n, pids, rfl, hs, rfl⟩ |
    ⟨i, n, pids, rfl, hs, rfl⟩ | ⟨i, rfl, hs, rfl⟩ | ⟨i, pids, hl, hs, rfl⟩ |
    ⟨i, pid, pids, rfl, hs, rfl⟩ | ⟨i, rfl, hs, rfl⟩ | ⟨i, rfl, rfl⟩
  · exact iff_of_true trivial (owned_setStage ho (by rw [hs]; exact fun _ h => h))
  · exact iff_of_true trivial (owned_spawn ho hp hs)
  · exact iff_of_true trivial (owned_setStage ho (by rw [hs]; exact fun _ h => h))
  · rw [owned_setStage_iff ho]
    constructor
    · intro hharm pid q hq hl
      have hkept := ho.kept pid q hq
      rw [hl] at hkept
      obtain hs | ⟨n, pids, hs⟩ := hs
      · rwa [hs] at hkept
      · rw [hs] at hkept
        rw [hharm n pids hs pid hkept] at hq
        cases hq
    · intro hnone n pids hs pid hpid
      -- a process on the list is one of this launch
      rw [Option.eq_none_iff_forall_not_mem]
      intro q hq
      obtain ⟨k, hk⟩ := List.getElem?_of_mem hpid
      have hlaunch := ((hi.starting i n pids hs k pid hk).2 q hq).1
      cases hnone pid q hq hlaunch
  · refine iff_of_true ?_ (owned_setStage ho (by rw [hs]; exact fun _ h => h))
    rcases hl with rfl | rfl
    · intro n pids hs'
      rw [hs] at hs'
      cases hs'
    · trivial
  · exact iff_of_true trivial (owned_kill ho hs)
  · refine iff_of_true trivial ((owned_leave_iff ho p).2 ?_)
    intro pid q hq hl
    have hkept := ho.kept pid q hq
    rw [hl, hs] at hkept
    cases hkept
  · exact (owned_leave_iff ho p).symm

end Invariant

section Runs

variable {File : Type} [DecidableEq File] {fs : FileSystem File} {s s' : St File}

theorem step_cases {l : Label} (h : step fs s l = some s') :
    (∃ m L, l = .launch m ∧ s.past m.who = none ∧ Locks.step fs s.launches m = some L ∧
        s' = { s with launches := L }) ∨
    (∃ pid, l = .died pid ∧ s' = { s with hoprds := update s.hoprds pid none }) ∨
    ∃ p d, PastFor s.launches l.who p d ∧ pastStep s p d l = some s' := by
  cases l with
  | launch m =>
    simp only [step] at h
    split at h
    · cases h
    · next hpast =>
      obtain ⟨L, hL, rfl⟩ := Option.map_eq_some_iff.1 h
      exact .inl ⟨m, L, rfl, hpast, hL, rfl⟩
  | died pid => exact .inr (.inl ⟨pid, rfl, (Option.some.inj h).symm⟩)
  | startNodes | spawn | started | fail | stop | kill | ended | killed =>
    obtain ⟨⟨p, d⟩, hp, hstep⟩ := Option.bind_eq_some_iff.1 h
    exact .inr (.inr ⟨p, d, past_eq_some.1 hp, hstep⟩)

/-- A launch on the way past its locks leaves those that are past alone. -/
theorem past_launch {L : Locks.St File} {m : Locks.Label} (hi : Locks.Inv fs s.launches)
    (hwho : s.past m.who = none) (h : Locks.step fs s.launches m = some L) {j : Nat} {p : Proc}
    {d : Locks.Path} (hp : PastFor s.launches j p d) : PastFor L j p d := by
  have hj : j ≠ m.who := by
    intro hj
    rw [← hj, past_eq_some.2 hp] at hwho
    cases hwho
  refine ⟨?_, hp.2⟩
  obtain ⟨i, args, rfl, -, rfl⟩ | ⟨q, hq, hstep⟩ := Locks.step_cases fs h
  · exact ((Locks.set_frame s.launches i _).procs j hj).trans hp.1
  · have hview := hi m.who
    rw [hq] at hview
    exact ((Locks.procStep_keeps fs hstep hview).1.procs j hj).trans hp.1

theorem inv_step (hi : Inv fs s) {l : Label} (h : step fs s l = some s') : Inv fs s' := by
  rcases step_cases h with ⟨m, L, rfl, hwho, hL, rfl⟩ | ⟨pid, rfl, rfl⟩ | ⟨p, d, hp, hstep⟩
  · refine ⟨Locks.inv_step fs hi.locks hL, hi.numbered, hi.listed, hi.starting, ?_⟩
    intro j hj
    obtain ⟨p, d, hp⟩ := hi.past j hj
    exact ⟨p, d, past_launch hi.locks hwho hL hp⟩
  · have hold : ∀ q, q < s.spawned → ∀ h, update s.hoprds pid none q = some h →
        s.hoprds q = some h := fun q _ h hh => (hoprds_gone hh).2
    refine ⟨hi.locks, fun q h hh => hi.numbered q h (hoprds_gone hh).2, ?_, ?_, hi.past⟩
    · intro j
      obtain ⟨first, hlist⟩ := hi.listed j
      exact ⟨first, hlist.of_hoprds (Nat.le_refl _) hold⟩
    · intro j n pids hs
      exact (hi.starting j n pids hs).of_hoprds (Nat.le_refl _) hold
  · exact inv_pastStep hi hp hstep

theorem inv_inductive (fs : FileSystem File) : (system fs).Inductive (Inv fs) where
  init s h := by
    subst h
    exact ⟨(Locks.inv_inductive fs).init _ rfl, nofun, fun _ => ⟨0, .nil _ _ _⟩, nofun,
      fun _ h => absurd rfl h⟩
  step _ _ _ hi h := inv_step hi h

/-! ## Whole runs -/

theorem owned_step_iff (hi : Inv fs s) (ho : Owned s) {l : Label} (h : step fs s l = some s') :
    Harmless s l ↔ Owned s' := by
  rcases step_cases h with ⟨m, L, rfl, hwho, hL, rfl⟩ | ⟨pid, rfl, rfl⟩ | ⟨p, d, hp, hstep⟩
  · refine iff_of_true trivial ⟨?_, ho.kept⟩
    intro pid q hq
    obtain ⟨p, hp⟩ := ho.past pid q hq
    exact ⟨p, past_launch hi.locks hwho hL hp⟩
  · exact iff_of_true trivial ⟨fun q h hh => ho.past q h (hoprds_gone hh).2,
      fun q h hh => ho.kept q h (hoprds_gone hh).2⟩
  · exact owned_pastStep_iff hi ho hp hstep

/-- **Nodes end with their launch.** Throughout a run every hoprd is one that its launch is
going to kill, and no two of them work in one `db_<id>`, exactly when each step of the run is
harmless: no launch is killed above a running node, and no `start_nodes` fails above one. -/
theorem nodes_owned_iff (fs : FileSystem File) {s₀ s : St File} {ls : List Label}
    (h₀ : (system fs).init s₀) :
    ((system fs).restrict Harmless).Run s₀ ls s ↔
      (system fs).Throughout (fun s => Owned s ∧ Exclusive s) s₀ ls s := by
  have hboth : ∀ t, (system fs).Reachable t → (Owned t ↔ Owned t ∧ Exclusive t) := by
    intro t ht
    have hi := (inv_inductive fs).reachable t ht
    exact ⟨fun ho => ⟨ho, ho.exclusive hi⟩, And.left⟩
  have hr := LTS.Reachable.init h₀
  have hstart : Owned s₀ ∧ Exclusive s₀ := by
    refine (hboth s₀ hr).1 ⟨?_, ?_⟩
    · rw [show s₀ = _ from h₀]
      nofun
    · rw [show s₀ = _ from h₀]
      nofun
  refine LTS.restrict_run_iff_throughout ?_ hr hstart
  intro t l t' ht hown h
  rw [← hboth t' (ht.step h)]
  exact owned_step_iff ((inv_inductive fs).reachable t ht) hown.1 h

end Runs

/-! ## Two launches over one directory -/

theorem resolve_plain (p : Locks.Path) : id (id p) = id p := rfl

/-- Every path is its own file. -/
def plain : FileSystem Locks.Path := .ofResolve id resolve_plain

/-- Launch `i` over `/d` gets past its locks. -/
def lockedLaunch (i : Nat) : List Label :=
  [.launch (.launch i ⟨"/d", none⟩), .launch (.resolve i), .launch (.lockControl i),
    .launch (.compare i), .launch (.lockData i)]

/-- A cluster of two nodes, stopped by Ctrl-C. -/
def stoppedRun : List Label :=
  lockedLaunch 0 ++ [.startNodes 0 2, .spawn 0, .spawn 0, .started 0, .died 1, .stop 0, .kill 0,
    .kill 0, .ended 0]

/-- The second node fails to start, and the cluster is started again. -/
def failedRun : List Label :=
  lockedLaunch 0 ++ [.startNodes 0 2, .spawn 0, .fail 0, .ended 0] ++
    lockedLaunch 1 ++ [.startNodes 1 2, .spawn 1]

def noLaunch : St Locks.Path := ⟨⟨fun _ => none, .unlocked⟩, fun _ => .setup, fun _ => none, 0⟩

theorem stopped_run_owned :
    ∃ s, (system plain).Throughout (fun s => Owned s ∧ Exclusive s) noLaunch stoppedRun s ∧
      s.spawned = 2 ∧ s.hoprds 0 = none := by
  obtain ⟨s, hs, hspawned, hgone⟩ : ∃ s, LTS.exec (step plain) noLaunch stoppedRun = some s ∧
      s.spawned = 2 ∧ s.hoprds 0 = none := ⟨_, rfl, rfl, rfl⟩
  have hrun : (system plain).Run noLaunch stoppedRun s := LTS.ofFn_run_iff.2 hs
  have hharmless : ∀ l ∈ stoppedRun, ∀ s : St Locks.Path, Harmless s l := by
    intro l hl s
    simp only [stoppedRun, lockedLaunch, List.cons_append, List.nil_append, List.mem_cons,
      List.not_mem_nil, or_false] at hl
    rcases hl with rfl | rfl | rfl | rfl | rfl | rfl | rfl | rfl | rfl | rfl | rfl | rfl | rfl |
      rfl <;> trivial
  exact ⟨s, (nodes_owned_iff plain rfl).1 (hrun.restrict hharmless), hspawned, hgone⟩

/-- The first node of the failed cluster still runs beside the first node of the next. -/
theorem failed_start_shares_directory :
    ∃ s, (system plain).Reachable s ∧ ¬ Exclusive s := by
  obtain ⟨s, hs, h0, h1⟩ : ∃ s, LTS.exec (step plain) noLaunch failedRun = some s ∧
      s.hoprds 0 = some ⟨0, 0, "/d"⟩ ∧ s.hoprds 1 = some ⟨1, 0, "/d"⟩ := ⟨_, rfl, rfl, rfl⟩
  refine ⟨s, LTS.reachable_of_exec noLaunch failedRun rfl hs, ?_⟩
  intro hex
  cases hex 0 1 _ _ h0 h1 rfl rfl

end Hoprd.NodeProcesses
