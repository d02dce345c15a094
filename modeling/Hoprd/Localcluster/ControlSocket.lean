import Hoprd.Localcluster.Locks

/-!
# The control socket (`localcluster/src/control.rs`)

A launch past its locks removes whatever is at `<control-base>.sock`, binds its own
socket there and answers every client with its summary; at its end it removes the file.
A launch that is killed leaves the file behind. `status` connects and takes a missing
file, or one nobody listens on, for `not_running`.

`St` adds the sockets to the launches of the locks. Paths are those of directory
entries: removing and binding do not follow a last link. Nothing but `ControlServer`
makes or removes the files.

* `Inv`: who serves at an entry made the file there, and no other launch past its locks
  names that entry.
* `status_truthful`: so in every run `status` is answered by the launch that serves
  there, if there is one, and else says `not_running`; and a launch is never kept from
  binding by what it finds.
-/
namespace Hoprd.ControlSocket

open Core
open Hoprd.Locks (FileSystem Args Proc Phase Exit PastFor pathFor)

/-- mirrors localcluster/src/control.rs:32-37 -/
def socketPath (controlBase : Locks.Path) : Locks.Path := controlBase ++ ".sock"

/-- The directory entry that a path names, if its directory is there. Bases whose
sockets are one entry have their lock files in one directory under one name. -/
structure Directory {File : Type} (fs : FileSystem File) (Entry : Type) where
  entryOf : Locks.Path → Option Entry
  same_lock : ∀ b b' e, entryOf (socketPath b) = some e → entryOf (socketPath b') = some e →
    fs.openFile (pathFor b) = fs.openFile (pathFor b')

/-- Where the `ControlServer` of a launch is. `stopped`: its accept loop has ended. -/
inductive Server where
  | idle
  | cleared
  | listening
  | stopped
  | dropped
  deriving DecidableEq, Repr

/-- `owner e` is the launch whose `bind` made the socket file at `e`. -/
structure St (File Entry : Type) where
  launches : Locks.St File
  server : Nat → Server
  owner : Entry → Option Nat

inductive Label where
  | launch (l : Locks.Label)
  | removeStale (i : Nat)
  | bind (i : Nat)
  | acceptFailed (i : Nat)
  | dropServer (i : Nat)

variable {File Entry : Type} {fs : FileSystem File} (dir : Directory fs Entry)

def St.setServer (s : St File Entry) (i : Nat) (v : Server) : St File Entry :=
  { s with server := fun j => if j = i then v else s.server j }

section Step

variable [DecidableEq Entry]

def St.setOwner (s : St File Entry) (e : Entry) (o : Option Nat) : St File Entry :=
  { s with owner := fun e' => if e' = e then o else s.owner e' }

/-- `remove_file`, its error ignored. -/
def St.removeFile (s : St File Entry) (base : Locks.Path) : St File Entry :=
  match dir.entryOf (socketPath base) with
  | none => s
  | some e => s.setOwner e none

/-- The error of `start` ends the launch. -/
def St.fail (s : St File Entry) (i : Nat) (p : Proc) : St File Entry :=
  { s with launches := s.launches.leave i p .failed }

/-- `UnixListener::bind` makes the file, and fails where there is one. -/
def bindStep (s : St File Entry) (i : Nat) (p : Proc) : St File Entry :=
  match dir.entryOf (socketPath p.args.base) with
  | none => s.fail i p
  | some e =>
    match s.owner e with
    | some _ => s.fail i p
    | none => (s.setOwner e (some i)).setServer i .listening

/-- One step of the server of a launch that is past its locks.
mirrors localcluster/src/control.rs:49-83 -/
def serverStep (s : St File Entry) (i : Nat) (p : Proc) : Label → Option (St File Entry)
  | .launch _ => none
  | .removeStale _ =>
    match s.server i with
    | .idle => some ((s.removeFile dir p.args.base).setServer i .cleared)
    | _ => none
  | .bind _ =>
    match s.server i with
    | .cleared => some (bindStep dir s i p)
    | _ => none
  | .acceptFailed _ =>
    match s.server i with
    | .listening => some (s.setServer i .stopped)
    | _ => none
  | .dropServer _ =>
    match s.server i with
    | .listening | .stopped => some ((s.removeFile dir p.args.base).setServer i .dropped)
    | _ => none

/-- The launch is past its locks. -/
def St.past (s : St File Entry) (i : Nat) : Option Proc :=
  match s.launches.procs i with
  | none => none
  | some p =>
    match p.phase with
    | .past _ => some p
    | _ => none

variable [DecidableEq File]

def step (s : St File Entry) (l : Label) : Option (St File Entry) :=
  match l with
  | .launch l => (Locks.step fs s.launches l).map fun launches => { s with launches := launches }
  | .removeStale i | .bind i | .acceptFailed i | .dropServer i =>
    (s.past i).bind fun p => serverStep dir s i p l

def system : LTS (St File Entry) Label :=
  .ofFn (fun s => s = ⟨⟨fun _ => none, .unlocked⟩, fun _ => .idle, fun _ => none⟩) (step dir)

end Step

/-! ## What `status` says -/

inductive Reply where
  | live (i : Nat)
  | notRunning
  deriving DecidableEq, Repr

def St.listens (s : St File Entry) (i : Nat) : Bool :=
  (s.past i).isSome && s.server i == .listening

/-- mirrors localcluster/src/control.rs:98-125 -/
def query (s : St File Entry) (path : Locks.Path) : Reply :=
  match dir.entryOf path with
  | none => .notRunning
  | some e =>
    match s.owner e with
    | none => .notRunning
    | some i => if s.listens i then .live i else .notRunning

/-- Launch `i`, past its locks, has its socket at `e`. -/
def At (s : St File Entry) (i : Nat) (e : Entry) : Prop :=
  ∃ p, s.past i = some p ∧ dir.entryOf (socketPath p.args.base) = some e

/-- Launch `i` serves at the entry that the path names. -/
def Serves (s : St File Entry) (i : Nat) (path : Locks.Path) : Prop :=
  s.server i = .listening ∧ ∃ e, dir.entryOf path = some e ∧ At dir s i e

/-! ## The locks, seen from the servers -/

/-- Before the locks are held. -/
def Waiting : Phase → Prop
  | .starting | .resolved _ | .controlLocked _ | .needsData _ => True
  | .past _ | .gone _ => False

/-- What a step of the launches can do to one: leave it, end it, or move it while it is
still waiting for its locks. -/
inductive Moved (L L' : Locks.St File) (i : Nat) : Prop
  | same (h : L'.procs i = L.procs i)
  | ended (p : Proc) (d : Locks.Path) (h : L.procs i = some p) (past : p.phase = .past d)
      (why : Exit)
      (h' : L'.procs i = some { p with phase := .gone why })
  | early (h : ∀ p, L.procs i = some p → Waiting p.phase)

theorem moved_leave {L : Locks.St File} {i : Nat} {p : Proc} {d : Locks.Path}
    (h : PastFor L i p d) (why : Exit) (j : Nat) : Moved L (L.leave i p why) j := by
  by_cases hj : j = i
  · subst hj
    exact .ended p d h.1 h.2 why (Locks.leave_procs_self L j p why)
  · exact .same ((Locks.leave_frame L i p why).procs j hj)

variable [DecidableEq File]

theorem moved_step {L L' : Locks.St File} {l : Locks.Label} (hi : Locks.Inv fs L)
    (h : Locks.step fs L l = some L') (i : Nat) : Moved L L' i := by
  obtain ⟨j, args, rfl, hnone, rfl⟩ | ⟨p, hp, hstep⟩ := Locks.step_cases fs h
  · by_cases hj : i = j
    · subst hj
      refine .early fun p hp => ?_
      rw [hnone] at hp
      cases hp
    · exact .same ((Locks.set_frame L j _).procs i hj)
  · by_cases hj : i = l.who
    · subst hj
      cases hph : p.phase with
      | past d =>
        obtain ⟨hph', -⟩ | ⟨_, hph', -⟩ | ⟨_, hph', -⟩ | ⟨_, hph', -⟩ | rfl :=
          Locks.procStep_cases fs hstep
        · rw [hph] at hph'; cases hph'
        · rw [hph] at hph'; cases hph'
        · rw [hph] at hph'; cases hph'
        · rw [hph] at hph'; cases hph'
        · exact moved_leave ⟨hp, hph⟩ _ _
      | gone why =>
        -- nothing moves a launch that is over
        cases l <;> simp [Locks.procStep, hph] at hstep
      | _ =>
        refine .early fun q hq => ?_
        rw [hp] at hq
        cases hq
        rw [hph]
        trivial
    · have hview := hi l.who
      rw [hp] at hview
      exact .same ((Locks.procStep_keeps fs hstep hview).1.procs i hj)

omit [DecidableEq File] in
theorem past_eq_some {s : St File Entry} {i : Nat} {p : Proc} :
    s.past i = some p ↔ ∃ d, PastFor s.launches i p d := by
  unfold St.past PastFor
  cases hp : s.launches.procs i with
  | none => simp
  | some q =>
    obtain ⟨args, ph⟩ := q
    cases ph with
    | past d =>
      constructor
      · rintro ⟨⟩
        exact ⟨d, rfl, rfl⟩
      · rintro ⟨-, ⟨⟩, -⟩
        rfl
    | _ =>
      constructor
      · rintro ⟨⟩
      · rintro ⟨d, ⟨⟩, hph⟩
        cases hph

/-! ## The invariant -/

/-- The locks hold as they should; a server is started by a launch past its locks; the
file of a launch is at the entry it names, and there while it listens; what it has
cleared away stays away. -/
structure Inv (s : St File Entry) : Prop where
  locks : Locks.Inv fs s.launches
  started : ∀ i, s.server i ≠ .idle → ∃ p, s.launches.procs i = some p ∧ ¬Waiting p.phase
  made : ∀ e i, s.owner e = some i → s.server i ≠ .idle ∧
    ∀ p, s.past i = some p → dir.entryOf (socketPath p.args.base) = some e
  listening : ∀ i e, s.server i = .listening → At dir s i e → s.owner e = some i
  cleared : ∀ i e, s.server i = .cleared → At dir s i e → s.owner e = none

section Inv

variable {dir} {s s' : St File Entry} {i : Nat} {p : Proc}

omit [DecidableEq File] in
/-- Two launches past their locks do not name one entry. -/
theorem Inv.at_unique (hi : Inv dir s) {i j : Nat} {e : Entry} (h : At dir s i e)
    (h' : At dir s j e) : i = j := by
  obtain ⟨p, hp, he⟩ := h
  obtain ⟨q, hq, he'⟩ := h'
  obtain ⟨d, hpast⟩ := past_eq_some.1 hp
  obtain ⟨d', hpast'⟩ := past_eq_some.1 hq
  exact hi.locks.exclusive.control i j p q d d' hpast hpast' (dir.same_lock _ _ e he he')

omit [DecidableEq File] in
/-- A step of the launches alone. -/
theorem Inv.launches (hi : Inv dir s) {L : Locks.St File} (hL : Locks.Inv fs L)
    (hmoved : ∀ i, Moved s.launches L i) : Inv dir { s with launches := L } := by
  -- a server that has been started was past its locks before, if it still is
  have hback : ∀ i p, s.server i ≠ .idle →
      ({ s with launches := L } : St File Entry).past i = some p → s.past i = some p := by
    intro i p hstarted hp
    obtain ⟨d, hproc, hph⟩ := past_eq_some.1 hp
    obtain ⟨q, hq, hover⟩ := hi.started i hstarted
    rcases hmoved i with hsame | ⟨_, _, _, _, _, hgone⟩ | hearly
    · rw [hsame] at hproc
      exact past_eq_some.2 ⟨d, hproc, hph⟩
    · have hproc' : L.procs i = some p := hproc
      rw [hgone] at hproc'
      cases hproc'
      cases hph
    · exact absurd (hearly q hq) hover
  have hat : ∀ i e, s.server i ≠ .idle → At dir { s with launches := L } i e → At dir s i e := by
    rintro i e hstarted ⟨p, hp, he⟩
    exact ⟨p, hback i p hstarted hp, he⟩
  refine ⟨hL, ?_, ?_, ?_, ?_⟩
  · intro i hstarted
    obtain ⟨q, hq, hover⟩ := hi.started i hstarted
    rcases hmoved i with hsame | ⟨p, d, _, _, why, hgone⟩ | hearly
    · exact ⟨q, hsame.trans hq, hover⟩
    · exact ⟨_, hgone, fun h => h⟩
    · exact absurd (hearly q hq) hover
  · intro e i howner
    obtain ⟨hstarted, hentry⟩ := hi.made e i howner
    exact ⟨hstarted, fun p hp => hentry p (hback i p hstarted hp)⟩
  · intro i e hserver h
    have hserver' : s.server i = .listening := hserver
    exact hi.listening i e hserver' (hat i e (by rw [hserver']; nofun) h)
  · intro i e hserver h
    have hserver' : s.server i = .cleared := hserver
    exact hi.cleared i e hserver' (hat i e (by rw [hserver']; nofun) h)

omit [DecidableEq File] in
/-- A step of the server of launch `i`, which touches its own entry only. -/
theorem Inv.serve (hi : Inv dir s) (hp : s.past i = some p) (hlaunches : s'.launches = s.launches)
    (hother : ∀ j, j ≠ i → s'.server j = s.server j) (hstarted : s'.server i ≠ .idle)
    (hfar : ∀ e, ¬At dir s i e → s'.owner e = s.owner e)
    (hnear : ∀ e, At dir s i e → ∀ j, s'.owner e = some j → j = i ∨ s.owner e = some j)
    (hlistening : s'.server i = .listening → ∀ e, At dir s i e → s'.owner e = some i)
    (hcleared : s'.server i = .cleared → ∀ e, At dir s i e → s'.owner e = none) : Inv dir s' := by
  have hpast : ∀ j, s'.past j = s.past j := by
    intro j
    unfold St.past
    rw [hlaunches]
  have hat : ∀ j e, At dir s' j e ↔ At dir s j e := by
    intro j e
    unfold At
    rw [hpast]
  have hstays : ∀ j, s.server j ≠ .idle → s'.server j ≠ .idle := by
    intro j hj
    by_cases hji : j = i
    · rw [hji]; exact hstarted
    · rw [hother j hji]; exact hj
  refine ⟨?_, ?_, ?_, ?_, ?_⟩
  · rw [hlaunches]
    exact hi.locks
  · intro j hj
    rw [hlaunches]
    by_cases hji : j = i
    · subst hji
      obtain ⟨d, hproc, hph⟩ := past_eq_some.1 hp
      refine ⟨p, hproc, ?_⟩
      rw [hph]
      exact fun h => h
    · rw [hother j hji] at hj
      exact hi.started j hj
  · intro e j howner
    have hold : ∀ k, s.owner e = some k → s'.server k ≠ .idle ∧
        ∀ q, s'.past k = some q → dir.entryOf (socketPath q.args.base) = some e := by
      intro k hk
      obtain ⟨hk', hentry⟩ := hi.made e k hk
      exact ⟨hstays k hk', fun q hq => hentry q (hpast k ▸ hq)⟩
    by_cases he : At dir s i e
    · rcases hnear e he j howner with rfl | hj
      · refine ⟨hstarted, fun q hq => ?_⟩
        obtain ⟨p', hp', hentry⟩ := he
        rw [hpast, hp'] at hq
        cases hq
        exact hentry
      · exact hold j hj
    · rw [hfar e he] at howner
      exact hold j howner
  · intro j e hj h
    rw [hat] at h
    by_cases hji : j = i
    · subst hji
      exact hlistening hj e h
    · rw [hother j hji] at hj
      rw [hfar e fun h' => hji (hi.at_unique h h')]
      exact hi.listening j e hj h
  · intro j e hj h
    rw [hat] at h
    by_cases hji : j = i
    · subst hji
      exact hcleared hj e h
    · rw [hother j hji] at hj
      rw [hfar e fun h' => hji (hi.at_unique h h')]
      exact hi.cleared j e hj h

end Inv

/-! ## Every run -/

section Steps

variable {dir} {s s' : St File Entry} {i : Nat} {p : Proc}

omit [DecidableEq File]

theorem at_iff (hp : s.past i = some p) {e : Entry} :
    At dir s i e ↔ dir.entryOf (socketPath p.args.base) = some e := by
  constructor
  · rintro ⟨q, hq, he⟩
    rw [hp] at hq
    cases hq
    exact he
  · exact fun he => ⟨p, hp, he⟩

theorem inv_accept (hi : Inv dir s) (hp : s.past i = some p) :
    Inv dir (s.setServer i .stopped) := by
  have hself : (s.setServer i .stopped).server i = .stopped := if_pos rfl
  refine hi.serve hp rfl (fun j hj => if_neg hj) ?_ (fun e _ => rfl) (fun e _ j hj => .inr hj)
    (fun h => ?_) (fun h => ?_)
  · rw [hself]
    nofun
  · rw [hself] at h
    cases h
  · rw [hself] at h
    cases h

theorem inv_fail (hi : Inv dir s) (hp : s.past i = some p) : Inv dir (s.fail i p) := by
  obtain ⟨d, hpast⟩ := past_eq_some.1 hp
  refine hi.launches ?_ (moved_leave hpast .failed)
  refine Locks.inv_of_frame fs hi.locks (Locks.leave_frame s.launches i p .failed) ?_
  exact Locks.leave_view fs s.launches i p .failed

variable [DecidableEq Entry]

theorem removeFile_owner (hp : s.past i = some p) (e : Entry) :
    (At dir s i e → (s.removeFile dir p.args.base).owner e = none) ∧
      (¬At dir s i e → (s.removeFile dir p.args.base).owner e = s.owner e) := by
  rw [at_iff hp]
  unfold St.removeFile
  cases hentry : dir.entryOf (socketPath p.args.base) with
  | none => exact ⟨nofun, fun _ => rfl⟩
  | some e' =>
    refine ⟨?_, fun he => if_neg fun h => he (congrArg some h.symm)⟩
    rintro ⟨⟩
    exact if_pos rfl

theorem removeFile_rest (dir : Directory fs Entry) (s : St File Entry) (base : Locks.Path) :
    (s.removeFile dir base).launches = s.launches ∧
      (s.removeFile dir base).server = s.server := by
  unfold St.removeFile
  split
  · exact ⟨rfl, rfl⟩
  · exact ⟨rfl, rfl⟩

/-- The file at the entry of a launch goes, and its server is no longer listening. -/
theorem inv_remove (hi : Inv dir s) (hp : s.past i = some p) {v : Server} (hidle : v ≠ .idle)
    (hv : v ≠ .listening) : Inv dir ((s.removeFile dir p.args.base).setServer i v) := by
  obtain ⟨hlaunches, hserver⟩ := removeFile_rest dir s p.args.base
  have hself : ((s.removeFile dir p.args.base).setServer i v).server i = v := if_pos rfl
  refine hi.serve hp hlaunches (fun j hj => ?_) ?_ (fun e he => ?_) (fun e he j hj => ?_)
    (fun h => ?_) (fun _ e he => ?_)
  · exact (if_neg hj).trans (congrFun hserver j)
  · rw [hself]
    exact hidle
  · exact (removeFile_owner hp e).2 he
  · rw [show ((s.removeFile dir p.args.base).setServer i v).owner e = none from
      (removeFile_owner hp e).1 he] at hj
    cases hj
  · rw [hself] at h
    exact absurd h hv
  · exact (removeFile_owner hp e).1 he

theorem inv_bind (hi : Inv dir s) (hp : s.past i = some p) : Inv dir (bindStep dir s i p) := by
  unfold bindStep
  cases hentry : dir.entryOf (socketPath p.args.base) with
  | none => exact inv_fail hi hp
  | some e =>
    dsimp only
    cases howner : s.owner e with
    | some j => exact inv_fail hi hp
    | none =>
      have hself : ((s.setOwner e (some i)).setServer i .listening).server i = .listening :=
        if_pos rfl
      have hown : ∀ e', At dir s i e' →
          ((s.setOwner e (some i)).setServer i .listening).owner e' = some i := by
        intro e' he'
        rw [at_iff hp, hentry] at he'
        cases he'
        exact if_pos rfl
      refine hi.serve hp rfl (fun j hj => if_neg hj) ?_ (fun e' he' => ?_) (fun e' he' j hj => ?_)
        (fun _ => hown) (fun h => ?_)
      · rw [hself]
        nofun
      · rw [at_iff hp, hentry] at he'
        exact if_neg fun h => he' (congrArg some h.symm)
      · rw [hown e' he'] at hj
        exact .inl (Option.some.inj hj).symm
      · rw [hself] at h
        cases h

theorem inv_server {l : Label} (hi : Inv dir s) (hp : s.past i = some p)
    (h : serverStep dir s i p l = some s') : Inv dir s' := by
  cases l with
  | launch l => cases h
  | removeStale _ =>
    cases hv : s.server i <;> simp only [serverStep, hv, Option.some.injEq, reduceCtorEq] at h
    subst h
    exact inv_remove hi hp (by nofun) (by nofun)
  | bind _ =>
    cases hv : s.server i <;> simp only [serverStep, hv, Option.some.injEq, reduceCtorEq] at h
    subst h
    exact inv_bind hi hp
  | acceptFailed _ =>
    cases hv : s.server i <;> simp only [serverStep, hv, Option.some.injEq, reduceCtorEq] at h
    subst h
    exact inv_accept hi hp
  | dropServer _ =>
    cases hv : s.server i <;> simp only [serverStep, hv, Option.some.injEq, reduceCtorEq] at h
    all_goals
      subst h
      exact inv_remove hi hp (by nofun) (by nofun)

end Steps

section Run

variable [DecidableEq Entry]

theorem inv_inductive : (system dir).Inductive (Inv dir) where
  init s h := by
    subst h
    exact ⟨(Locks.inv_inductive fs).init _ rfl, fun _ h => absurd rfl h, nofun, nofun, nofun⟩
  step s l s' hi h := by
    have hstep : step dir s l = some s' := h
    cases l with
    | launch l =>
      obtain ⟨L, hL, rfl⟩ := Option.map_eq_some_iff.1 hstep
      exact hi.launches (Locks.inv_step fs hi.locks hL) (moved_step hi.locks hL)
    | removeStale i | bind i | acceptFailed i | dropServer i =>
      obtain ⟨p, hp, hserver⟩ := Option.bind_eq_some_iff.1 hstep
      exact inv_server hi hp hserver

/-- `status` tells whether a launch serves at the path, and which one; and where a launch
is about to bind there is no file. -/
structure Truthful (s : St File Entry) : Prop where
  answered : ∀ path i, query dir s path = .live i ↔ Serves dir s i path
  clear : ∀ i p e, s.server i = .cleared → s.past i = some p →
    dir.entryOf (socketPath p.args.base) = some e → (bindStep dir s i p).server i = .listening

omit [DecidableEq File] in
theorem Inv.truthful {s : St File Entry} (hi : Inv dir s) : Truthful dir s where
  answered path i := by
    unfold query Serves
    cases hentry : dir.entryOf path with
    | none => simp
    | some e =>
      constructor
      · intro h
        cases howner : s.owner e with
        | none => simp [howner] at h
        | some j =>
          simp only [howner] at h
          split at h
          · next hlistens =>
            cases h
            unfold St.listens at hlistens
            rw [Bool.and_eq_true, Option.isSome_iff_exists, beq_iff_eq] at hlistens
            obtain ⟨⟨p, hp⟩, hserver⟩ := hlistens
            exact ⟨hserver, e, rfl, p, hp, (hi.made e i howner).2 p hp⟩
          · cases h
      · rintro ⟨hserver, _, ⟨⟩, hat⟩
        have howner := hi.listening i e hserver hat
        obtain ⟨p, hp, -⟩ := hat
        have hlistens : s.listens i = true := by
          unfold St.listens
          rw [hp, hserver]
          rfl
        simp only [howner, hlistens, if_true]
  clear i p e hserver hp hentry := by
    have howner := hi.cleared i e hserver ⟨p, hp, hentry⟩
    unfold bindStep
    rw [hentry]
    simp only [howner]
    exact if_pos rfl

/-- **Whatever launches come and go**, `status` is truthful. -/
theorem status_truthful (s : St File Entry) (hr : (system dir).Reachable s) : Truthful dir s :=
  ((inv_inductive dir).reachable s hr).truthful

end Run

/-! ## Two launches over one directory -/

def plain : FileSystem Locks.Path := .ofResolve id fun _ => rfl

theorem socketPath_inj {b b' : Locks.Path} (h : socketPath b = socketPath b') : b = b' := by
  have hlists := congrArg String.toList h
  unfold socketPath at hlists
  rw [String.toList_append, String.toList_append] at hlists
  exact String.toList_injective (List.append_cancel_right hlists)

def plainDir : Directory plain Locks.Path where
  entryOf := some
  same_lock b b' e h h' := by
    have hb : b = b' := socketPath_inj ((Option.some.inj h).trans (Option.some.inj h').symm)
    rw [hb]

/-- The second one is refused the lock, and leaves the socket of the first alone. -/
def rivals : List Label :=
  [.launch (.launch 0 ⟨"/d", none⟩), .launch (.resolve 0), .launch (.lockControl 0),
    .launch (.compare 0), .launch (.lockData 0), .removeStale 0, .bind 0,
    .launch (.launch 1 ⟨"/d", none⟩), .launch (.resolve 1), .launch (.lockControl 1)]

theorem first_launch_answers : ∃ s, (system plainDir).Reachable s ∧
    query plainDir s "/d/cluster.sock" = .live 0 ∧ Serves plainDir s 0 "/d/cluster.sock" := by
  obtain ⟨s, hs⟩ : ∃ s, LTS.exec (step plainDir)
      ⟨⟨fun _ => none, .unlocked⟩, fun _ => .idle, fun _ => none⟩ rivals = some s := ⟨_, rfl⟩
  have hr : (system plainDir).Reachable s := LTS.reachable_of_exec _ rivals rfl hs
  have hlive : query plainDir s "/d/cluster.sock" = .live 0 := by
    cases hs
    rfl
  exact ⟨s, hr, hlive, ((status_truthful plainDir s hr).answered _ 0).1 hlive⟩

end Hoprd.ControlSocket
