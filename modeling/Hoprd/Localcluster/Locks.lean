import Hoprd.Core.LTS
import Hoprd.Core.Flock

/-!
# The instance locks of localcluster (`localcluster/src/main.rs`, `lock.rs`)

Every launch locks `<control-base>.lock` and then, unless the canonical path of
that file is `data.lock` in the canonical data directory, `data.lock` as well.
`St` holds any number of launches, each at its own step, over the locks of the
operating system; a label says which launch moves.

* `Inv`: the lock table is exactly what the phases of the launches say.
* `Exclusive`: at most one launch is past locking for a data directory, and at
  most one for a control lock file. It holds in every run.
* `NeverSelfBlocked`: a launch is refused by another launch only. Only one side
  of the comparison is canonicalised, so a launch whose `data.lock` is itself a
  link to (or another name of) its control lock file asks for one file twice and
  is refused by its own lock (`SelfAliased`): `locks_exclude_iff`.

Paths resolve the same way throughout: lock files are not unlinked, links and
directories not replaced.
-/
namespace Hoprd.Locks

open Core

abbrev Path := String

/-- mirrors `Path::join` for a relative name -/
def join (dir : Path) (name : String) : Path :=
  if dir.toList.getLast? = some '/' then dir ++ name else dir ++ "/" ++ name

/-- What the locks use of the file system. Opening creates the file; `none` is an
I/O error. A path and its canonical form open the same file. -/
structure FileSystem (File : Type) where
  canonicalize : Path → Option Path
  openFile : Path → Option File
  open_canonicalize : ∀ p q, canonicalize p = some q → openFile p = openFile q

/-- The arguments that decide the lock files.
mirrors localcluster/src/cli.rs:105-141 -/
structure Args where
  dataDir : Path
  controlBase : Option Path

/-- mirrors localcluster/src/cli.rs:98-103 -/
def resolveControlBase (explicit : Option Path) (dataDir : Path) : Path :=
  match explicit with
  | some base => base
  | none => join dataDir "cluster"

def Args.base (args : Args) : Path := resolveControlBase args.controlBase args.dataDir

/-- mirrors localcluster/src/lock.rs:43-47 -/
def pathFor (controlBase : Path) : Path := controlBase ++ ".lock"

theorem pathFor_join (dir : Path) : pathFor (join dir "data") = join dir "data.lock" := by
  unfold pathFor join
  split
  · rw [String.append_assoc]; rfl
  · rw [String.append_assoc]; rfl

/-- Why a launch is over. `lockHeld` names the holder of the file it asked for. -/
inductive Exit where
  | lockHeld (holder : Nat)
  | failed
  | ended
  deriving DecidableEq, Repr

/-- Where a launch is. `d` is its canonical data directory.
mirrors localcluster/src/main.rs:118-146 -/
inductive Phase where
  | starting
  | resolved (d : Path)
  | controlLocked (d : Path)
  | needsData (d : Path)
  | past (d : Path)
  | gone (why : Exit)
  deriving DecidableEq, Repr

structure Proc where
  args : Args
  phase : Phase

structure St (File : Type) where
  procs : Nat → Option Proc
  locks : Locks File Nat

variable {File : Type} (fs : FileSystem File)

def St.set (s : St File) (i : Nat) (p : Proc) : St File :=
  { s with procs := fun j => if j = i then some p else s.procs j }

/-- The launch ends and the system takes its locks back. -/
def St.leave (s : St File) (i : Nat) (p : Proc) (why : Exit) : St File :=
  { s.set i { p with phase := .gone why } with locks := s.locks.releaseAll i }

/-- What follows `acquire(..)?`. -/
def St.afterAcquire (s : St File) (i : Nat) (p : Proc) (next : Phase) :
    Except Exit (Locks File Nat) → St File
  | .error why => s.leave i p why
  | .ok locks => { s.set i { p with phase := next } with locks := locks }

/-- `exit` is the end of a launch at any point: an error of another step, a
signal, a crash. -/
inductive Label where
  | launch (i : Nat) (args : Args)
  | resolve (i : Nat)
  | lockControl (i : Nat)
  | compare (i : Nat)
  | lockData (i : Nat)
  | exit (i : Nat)

/-- `fs::canonicalize(&data_dir)?`. -/
def resolveStep (s : St File) (i : Nat) (p : Proc) : St File :=
  match fs.canonicalize p.args.dataDir with
  | none => s.leave i p .failed
  | some d => s.set i { p with phase := .resolved d }

/-- The comparison that decides whether the second lock is needed. -/
def compareStep (s : St File) (i : Nat) (p : Proc) (d : Path) : St File :=
  match fs.canonicalize (pathFor p.args.base) with
  | none => s.leave i p .failed
  | some c =>
    if c = join d "data.lock" then s.set i { p with phase := .past d }
    else s.set i { p with phase := .needsData d }

section Step

variable [DecidableEq File]

/-- mirrors localcluster/src/lock.rs:49-105 -/
def acquire (locks : Locks File Nat) (i : Nat) (controlBase : Path) :
    Except Exit (Locks File Nat) :=
  match fs.openFile (pathFor controlBase) with
  | none => .error .failed
  | some f =>
    match locks.tryLock f i with
    | .error holder => .error (.lockHeld holder)
    | .ok locks' => .ok locks'

/-- One step of launch `i`, whose state is `p`.
mirrors localcluster/src/main.rs:118-146 -/
def procStep (s : St File) (i : Nat) (p : Proc) : Label → Option (St File)
  | .launch _ _ => none
  | .resolve _ =>
    match p.phase with
    | .starting => some (resolveStep fs s i p)
    | _ => none
  | .lockControl _ =>
    match p.phase with
    | .resolved d =>
      some (s.afterAcquire i p (.controlLocked d) (acquire fs s.locks i p.args.base))
    | _ => none
  | .compare _ =>
    match p.phase with
    | .controlLocked d => some (compareStep fs s i p d)
    | _ => none
  | .lockData _ =>
    match p.phase with
    | .needsData d => some (s.afterAcquire i p (.past d) (acquire fs s.locks i (join d "data")))
    | _ => none
  | .exit _ =>
    match p.phase with
    | .gone _ => none
    | _ => some (s.leave i p .ended)

def Label.who : Label → Nat
  | .launch i _ | .resolve i | .lockControl i | .compare i | .lockData i | .exit i => i

def step (s : St File) (l : Label) : Option (St File) :=
  match s.procs l.who, l with
  | none, .launch i args => some (s.set i ⟨args, .starting⟩)
  | some p, l => procStep fs s l.who p l
  | none, _ => none

def system : LTS (St File) Label :=
  .ofFn (fun s => s = ⟨fun _ => none, .unlocked⟩) (step fs)

end Step

/-! ## What a phase owns -/

/-- The files a launch in this phase has locked. -/
def owns (p : Option Proc) (f : File) : Prop :=
  match p with
  | none => False
  | some p =>
    match p.phase with
    | .starting | .resolved _ | .gone _ => False
    | .controlLocked _ | .needsData _ => fs.openFile (pathFor p.args.base) = some f
    | .past d =>
      fs.openFile (pathFor p.args.base) = some f ∨ fs.openFile (join d "data.lock") = some f

/-- What a phase says of the paths that were resolved before it. -/
def Resolved (args : Args) : Phase → Prop
  | .starting | .gone _ => True
  | .resolved d => fs.canonicalize args.dataDir = some d
  | .controlLocked d =>
    fs.canonicalize args.dataDir = some d ∧ ∃ f, fs.openFile (pathFor args.base) = some f
  | .needsData d =>
    fs.canonicalize args.dataDir = some d ∧ (∃ f, fs.openFile (pathFor args.base) = some f) ∧
      ∃ c, fs.canonicalize (pathFor args.base) = some c ∧ c ≠ join d "data.lock"
  | .past d =>
    fs.canonicalize args.dataDir = some d ∧ (∃ f, fs.openFile (pathFor args.base) = some f) ∧
      ∃ f, fs.openFile (join d "data.lock") = some f

/-- One launch and the locks it holds. -/
structure View (p : Option Proc) (held : File → Prop) : Prop where
  resolved : ∀ q, p = some q → Resolved fs q.args q.phase
  held_iff : ∀ f, held f ↔ owns fs p f

def Inv (s : St File) : Prop := ∀ i, View fs (s.procs i) (s.locks.Held i)

/-! ## What a step leaves alone -/

/-- The other launches and their locks are as before. -/
structure Frame (i : Nat) (s s' : St File) : Prop where
  procs : ∀ j, j ≠ i → s'.procs j = s.procs j
  held : ∀ j f, j ≠ i → (s'.locks.Held j f ↔ s.locks.Held j f)

theorem set_frame (s : St File) (i : Nat) (p : Proc) : Frame i s (s.set i p) where
  procs _ hj := if_neg hj
  held _ _ _ := Iff.rfl

theorem set_procs_self (s : St File) (i : Nat) (p : Proc) : (s.set i p).procs i = some p :=
  if_pos rfl

theorem leave_frame (s : St File) (i : Nat) (p : Proc) (why : Exit) :
    Frame i s (s.leave i p why) where
  procs _ hj := if_neg hj
  held _ f hj := Locks.held_releaseAll_other s.locks hj f

theorem leave_procs_self (s : St File) (i : Nat) (p : Proc) (why : Exit) :
    (s.leave i p why).procs i = some { p with phase := .gone why } :=
  if_pos rfl

theorem leave_view (s : St File) (i : Nat) (p : Proc) (why : Exit) :
    View fs ((s.leave i p why).procs i) ((s.leave i p why).locks.Held i) := by
  rw [leave_procs_self]
  refine ⟨?_, ?_⟩
  · intro q hq
    cases hq
    exact True.intro
  · intro f
    simp only [owns, iff_false]
    exact Locks.not_held_releaseAll_self s.locks i f

theorem resolveStep_keeps {s : St File} {i : Nat} {p : Proc} (hph : p.phase = .starting)
    (hview : View fs (some p) (s.locks.Held i)) :
    Frame i s (resolveStep fs s i p) ∧
      View fs ((resolveStep fs s i p).procs i) ((resolveStep fs s i p).locks.Held i) := by
  unfold resolveStep
  cases hd : fs.canonicalize p.args.dataDir with
  | none => exact ⟨leave_frame s i p _, leave_view fs s i p _⟩
  | some d =>
    refine ⟨set_frame s i _, ?_⟩
    simp only [set_procs_self]
    refine ⟨?_, ?_⟩
    · intro q hq
      cases hq
      exact hd
    · intro f
      have hf := hview.held_iff f
      simp only [owns, hph] at hf
      exact hf

/-- The comparison owns nothing new: when the canonical paths are equal the files
are one. -/
theorem compareStep_keeps {s : St File} {i : Nat} {p : Proc} {d : Path}
    (hph : p.phase = .controlLocked d) (hview : View fs (some p) (s.locks.Held i)) :
    Frame i s (compareStep fs s i p d) ∧
      View fs ((compareStep fs s i p d).procs i) ((compareStep fs s i p d).locks.Held i) := by
  have hres := hview.resolved p rfl
  rw [hph] at hres
  obtain ⟨hdir, f, hf⟩ := hres
  have howns := hview.held_iff
  simp only [owns, hph] at howns
  unfold compareStep
  cases hc : fs.canonicalize (pathFor p.args.base) with
  | none => exact ⟨leave_frame s i p _, leave_view fs s i p _⟩
  | some c =>
    simp only
    by_cases hcd : c = join d "data.lock"
    · -- one file under two names
      have hsame := fs.open_canonicalize _ _ hc
      rw [hcd] at hsame
      simp only [if_pos hcd]
      refine ⟨set_frame s i _, ?_⟩
      simp only [set_procs_self]
      refine ⟨?_, ?_⟩
      · intro q hq
        cases hq
        exact ⟨hdir, ⟨f, hf⟩, f, hsame ▸ hf⟩
      · intro g
        show s.locks.Held i g ↔ _ ∨ _
        rw [howns g, ← hsame, or_self]
    · simp only [if_neg hcd]
      refine ⟨set_frame s i _, ?_⟩
      simp only [set_procs_self]
      refine ⟨?_, howns⟩
      intro q hq
      cases hq
      exact ⟨hdir, ⟨f, hf⟩, c, hc, hcd⟩

theorem inv_of_frame {s s' : St File} {i : Nat} (hi : Inv fs s) (hframe : Frame i s s')
    (hview : View fs (s'.procs i) (s'.locks.Held i)) : Inv fs s' := by
  intro j
  by_cases hj : j = i
  · rw [hj]; exact hview
  · rw [hframe.procs j hj]
    exact ⟨(hi j).resolved, fun f => (hframe.held j f hj).trans ((hi j).held_iff f)⟩

/-! ## Exclusion -/

/-- Launch `i` is past locking for the data directory `d`. -/
def PastFor (s : St File) (i : Nat) (p : Proc) (d : Path) : Prop :=
  s.procs i = some p ∧ p.phase = .past d

/-- At most one launch past locking for a canonical data directory, and at most
one for a control lock file. -/
structure Exclusive (s : St File) : Prop where
  data : ∀ i j p q d, PastFor s i p d → PastFor s j q d → i = j
  control : ∀ i j p q d e, PastFor s i p d → PastFor s j q e →
    fs.openFile (pathFor p.args.base) = fs.openFile (pathFor q.args.base) → i = j
  dir : ∀ i p d, PastFor s i p d → fs.canonicalize p.args.dataDir = some d

/-- A launch past locking holds both files. -/
theorem held_of_past {s : St File} (hi : Inv fs s) {i : Nat} {p : Proc} {d : Path}
    (h : PastFor s i p d) {f : File}
    (hf : fs.openFile (pathFor p.args.base) = some f ∨
      fs.openFile (join d "data.lock") = some f) : s.locks.Held i f := by
  obtain ⟨hp, hph⟩ := h
  have hview := (hi i).held_iff f
  rw [hp] at hview
  simp only [owns, hph] at hview
  exact hview.2 hf

theorem resolved_of_past {s : St File} (hi : Inv fs s) {i : Nat} {p : Proc} {d : Path}
    (h : PastFor s i p d) : Resolved fs p.args (.past d) := by
  obtain ⟨hp, hph⟩ := h
  have hres := (hi i).resolved p hp
  rw [hph] at hres
  exact hres

theorem Inv.exclusive {s : St File} (hi : Inv fs s) : Exclusive fs s where
  data i j p q d hp hq := by
    obtain ⟨-, -, f, hf⟩ := resolved_of_past fs hi hp
    have hheld := held_of_past fs hi hp (.inr hf)
    have hheld' := held_of_past fs hi hq (.inr hf)
    exact hheld.unique hheld'
  control i j p q d e hp hq hsame := by
    obtain ⟨-, ⟨f, hf⟩, -⟩ := resolved_of_past fs hi hp
    have hheld := held_of_past fs hi hp (.inl hf)
    have hheld' := held_of_past fs hi hq (.inl (hsame ▸ hf))
    exact hheld.unique hheld'
  dir i p d hp := (resolved_of_past fs hi hp).1

/-! ## Every run -/

variable [DecidableEq File]

/-- A lock that was taken is on the file of the path, and new to the launch. -/
theorem acquire_ok {locks locks' : Locks File Nat} {i : Nat} {base : Path}
    (h : acquire fs locks i base = .ok locks') :
    ∃ f, fs.openFile (pathFor base) = some f ∧ locks.tryLock f i = .ok locks' := by
  unfold acquire at h
  cases hf : fs.openFile (pathFor base) with
  | none => simp [hf] at h
  | some f =>
    cases ht : locks.tryLock f i with
    | error a => simp [hf, ht] at h
    | ok t =>
      simp only [hf, ht] at h
      exact ⟨f, rfl, by rw [ht, Except.ok.inj h]⟩

/-- A refusal names who holds the file of the path. -/
theorem acquire_lockHeld {locks : Locks File Nat} {i a : Nat} {base : Path}
    (h : acquire fs locks i base = .error (.lockHeld a)) :
    ∃ f, fs.openFile (pathFor base) = some f ∧ locks.Held a f := by
  unfold acquire at h
  cases hf : fs.openFile (pathFor base) with
  | none => simp [hf] at h
  | some f =>
    cases ht : locks.tryLock f i with
    | ok t => simp [hf, ht] at h
    | error b =>
      have hb : b = a := by simpa [hf, ht] using h
      exact ⟨f, rfl, hb ▸ Locks.held_of_tryLock_error ht⟩

theorem afterAcquire_frame (s : St File) (i : Nat) (p : Proc) (next : Phase) (base : Path) :
    Frame i s (s.afterAcquire i p next (acquire fs s.locks i base)) := by
  cases h : acquire fs s.locks i base with
  | error why => exact leave_frame s i p why
  | ok locks =>
    obtain ⟨f, -, ht⟩ := acquire_ok fs h
    exact ⟨fun j hj => if_neg hj, fun j g hj => Locks.held_tryLock_other ht hj g⟩

/-- Taking the lock of `base` moves a launch to a phase that owns that file on top
of what it owned. -/
theorem afterAcquire_view {s : St File} {i : Nat} {p : Proc} {next : Phase} {base : Path}
    (hview : View fs (some p) (s.locks.Held i))
    (hnext : ∀ f, fs.openFile (pathFor base) = some f → Resolved fs p.args next)
    (howns : ∀ f, owns fs (some { p with phase := next }) f ↔
      fs.openFile (pathFor base) = some f ∨ owns fs (some p) f) :
    View fs ((s.afterAcquire i p next (acquire fs s.locks i base)).procs i)
      ((s.afterAcquire i p next (acquire fs s.locks i base)).locks.Held i) := by
  cases h : acquire fs s.locks i base with
  | error why => exact leave_view fs s i p why
  | ok locks =>
    obtain ⟨f, hf, ht⟩ := acquire_ok fs h
    have hprocs : (s.afterAcquire i p next (.ok locks)).procs i = some { p with phase := next } :=
      if_pos rfl
    rw [hprocs]
    refine ⟨?_, ?_⟩
    · intro q hq
      cases hq
      exact hnext f hf
    · intro g
      show locks.Held i g ↔ _
      rw [Locks.held_tryLock_self ht g, howns g, hview.held_iff g, hf]
      simp only [Option.some.injEq, eq_comm]

/-- What moves a launch, phase by phase. -/
theorem procStep_cases {s s' : St File} {i : Nat} {p : Proc} {l : Label}
    (h : procStep fs s i p l = some s') :
    (p.phase = .starting ∧ s' = resolveStep fs s i p) ∨
    (∃ d, p.phase = .resolved d ∧
      s' = s.afterAcquire i p (.controlLocked d) (acquire fs s.locks i p.args.base)) ∨
    (∃ d, p.phase = .controlLocked d ∧ s' = compareStep fs s i p d) ∨
    (∃ d, p.phase = .needsData d ∧
      s' = s.afterAcquire i p (.past d) (acquire fs s.locks i (join d "data"))) ∨
    s' = s.leave i p .ended := by
  cases l with
  | launch j args => cases h
  | resolve j =>
    cases hph : p.phase <;> simp only [procStep, hph, Option.some.injEq, reduceCtorEq] at h
    exact .inl ⟨rfl, h.symm⟩
  | lockControl j =>
    cases hph : p.phase <;> simp only [procStep, hph, Option.some.injEq, reduceCtorEq] at h
    exact .inr (.inl ⟨_, rfl, h.symm⟩)
  | compare j =>
    cases hph : p.phase <;> simp only [procStep, hph, Option.some.injEq, reduceCtorEq] at h
    exact .inr (.inr (.inl ⟨_, rfl, h.symm⟩))
  | lockData j =>
    cases hph : p.phase <;> simp only [procStep, hph, Option.some.injEq, reduceCtorEq] at h
    exact .inr (.inr (.inr (.inl ⟨_, rfl, h.symm⟩)))
  | exit j =>
    cases hph : p.phase <;> simp only [procStep, hph, Option.some.injEq, reduceCtorEq] at h
    all_goals exact .inr (.inr (.inr (.inr h.symm)))

theorem procStep_keeps {s s' : St File} {i : Nat} {p : Proc} {l : Label}
    (h : procStep fs s i p l = some s') (hview : View fs (some p) (s.locks.Held i)) :
    Frame i s s' ∧ View fs (s'.procs i) (s'.locks.Held i) := by
  have hres := hview.resolved p rfl
  obtain ⟨hph, rfl⟩ | ⟨d, hph, rfl⟩ | ⟨d, hph, rfl⟩ | ⟨d, hph, rfl⟩ | rfl := procStep_cases fs h
  · exact resolveStep_keeps fs hph hview
  · rw [hph] at hres
    refine ⟨afterAcquire_frame fs s i p _ _, afterAcquire_view fs hview ?_ ?_⟩
    · intro f hf
      exact ⟨hres, f, hf⟩
    · intro f
      simp only [owns, hph, or_false]
  · exact compareStep_keeps fs hph hview
  · rw [hph] at hres
    refine ⟨afterAcquire_frame fs s i p _ _, afterAcquire_view fs hview ?_ ?_⟩
    · intro f hf
      rw [pathFor_join] at hf
      exact ⟨hres.1, hres.2.1, f, hf⟩
    · intro f
      simp only [owns, hph, pathFor_join]
      exact or_comm
  · exact ⟨leave_frame s i p _, leave_view fs s i p _⟩

/-- A step either starts a launch or moves one. -/
theorem step_cases {s s' : St File} {l : Label} (h : step fs s l = some s') :
    (∃ i args, l = .launch i args ∧ s.procs i = none ∧ s' = s.set i ⟨args, .starting⟩) ∨
      ∃ p, s.procs l.who = some p ∧ procStep fs s l.who p l = some s' := by
  unfold step at h
  cases hp : s.procs l.who with
  | some p =>
    rw [hp] at h
    exact .inr ⟨p, rfl, h⟩
  | none =>
    rw [hp] at h
    cases l with
    | launch i args =>
      simp only [Option.some.injEq] at h
      exact .inl ⟨i, args, rfl, hp, h.symm⟩
    | resolve i => cases h
    | lockControl i => cases h
    | compare i => cases h
    | lockData i => cases h
    | exit i => cases h

theorem inv_step {s s' : St File} {l : Label} (hi : Inv fs s) (h : step fs s l = some s') :
    Inv fs s' := by
  obtain ⟨i, args, rfl, hnone, rfl⟩ | ⟨p, hp, hstep⟩ := step_cases fs h
  · refine inv_of_frame fs hi (set_frame s i _) ?_
    rw [set_procs_self]
    refine ⟨?_, ?_⟩
    · intro q hq
      cases hq
      exact True.intro
    · intro f
      have hf := (hi i).held_iff f
      rw [hnone] at hf
      exact hf
  · have hview := hi l.who
    rw [hp] at hview
    obtain ⟨hframe, hview'⟩ := procStep_keeps fs hstep hview
    exact inv_of_frame fs hi hframe hview'

theorem inv_inductive : (system fs).Inductive (Inv fs) where
  init s h := by
    subst h
    intro i
    refine ⟨?_, ?_⟩
    · intro q hq
      cases hq
    · intro f
      simp only [owns, iff_false]
      exact Locks.not_held_unlocked i f
  step _ _ _ hi h := inv_step fs hi h

/-! ## Refusals -/

/-- The launch was refused a lock it holds itself. -/
def SelfBlocked (i : Nat) (p : Proc) : Prop := p.phase = .gone (.lockHeld i)

def NeverSelfBlocked (s : St File) : Prop := ∀ i p, s.procs i = some p → ¬SelfBlocked i p

/-- `data.lock` of the data directory is the control lock file under a name that is
not its canonical one: a link to it, or another hard link. -/
def SelfAliased (args : Args) : Prop :=
  ∃ d c f, fs.canonicalize args.dataDir = some d ∧ fs.canonicalize (pathFor args.base) = some c ∧
    c ≠ join d "data.lock" ∧ fs.openFile (pathFor args.base) = some f ∧
    fs.openFile (join d "data.lock") = some f

omit [DecidableEq File] in
theorem set_proc {s : St File} {i : Nat} {p q : Proc} (h : (s.set i p).procs i = some q) :
    q = p := by
  rw [set_procs_self] at h
  exact (Option.some.inj h).symm

/-- A refused `acquire` is refused by whoever holds the file. -/
theorem afterAcquire_proc {s : St File} {i : Nat} {p q : Proc} {next : Phase} {base : Path}
    (h : (s.afterAcquire i p next (acquire fs s.locks i base)).procs i = some q) :
    q = { p with phase := next } ∨
      ∃ why, q = { p with phase := .gone why } ∧
        ∀ a, why = .lockHeld a → ∃ f, fs.openFile (pathFor base) = some f ∧ s.locks.Held a f := by
  cases ha : acquire fs s.locks i base with
  | ok locks =>
    rw [ha] at h
    exact .inl (set_proc h)
  | error why =>
    rw [ha] at h
    refine .inr ⟨why, set_proc h, ?_⟩
    intro a hwhy
    subst hwhy
    exact acquire_lockHeld fs ha

/-- A step keeps the arguments of the launch it moves, and blocks it by its own
lock only where `data.lock` is its control lock file. -/
theorem procStep_proc {s s' : St File} {i : Nat} {p q : Proc} {l : Label}
    (h : procStep fs s i p l = some s') (hview : View fs (some p) (s.locks.Held i))
    (hq : s'.procs i = some q) :
    q.args = p.args ∧ (SelfBlocked i q → SelfAliased fs p.args) := by
  have hres := hview.resolved p rfl
  have howns := hview.held_iff
  unfold SelfBlocked
  obtain ⟨hph, rfl⟩ | ⟨d, hph, rfl⟩ | ⟨d, hph, rfl⟩ | ⟨d, hph, rfl⟩ | rfl := procStep_cases fs h
  · unfold resolveStep at hq
    split at hq
    · cases set_proc hq
      simp
    · cases set_proc hq
      simp
  · obtain rfl | ⟨why, rfl, hwhy⟩ := afterAcquire_proc fs hq
    · simp
    · refine ⟨rfl, ?_⟩
      intro hself
      -- a launch that only resolved its paths holds nothing
      obtain ⟨f, -, hheld⟩ := hwhy i (Phase.gone.inj hself)
      have hf := (howns f).1 hheld
      simp only [owns, hph] at hf
  · unfold compareStep at hq
    split at hq
    · cases set_proc hq
      simp
    · split at hq <;> cases set_proc hq <;> simp
  · rw [hph] at hres
    obtain rfl | ⟨why, rfl, hwhy⟩ := afterAcquire_proc fs hq
    · simp
    · refine ⟨rfl, ?_⟩
      intro hself
      obtain ⟨f, hf, hheld⟩ := hwhy i (Phase.gone.inj hself)
      rw [pathFor_join] at hf
      -- all it holds is its control lock file
      have hctl := (howns f).1 hheld
      simp only [owns, hph] at hctl
      obtain ⟨hdir, -, c, hc, hne⟩ := hres
      exact ⟨_, c, f, hdir, hc, hne, hctl, hf⟩
  · cases set_proc hq
    simp

/-- The launches of a run have arguments in `A`. -/
def Launches (A : Args → Prop) (_ : St File) : Label → Prop
  | .launch _ args => A args
  | _ => True

/-- Every launch has arguments in `A` and was never blocked by itself. -/
structure Unblocked (A : Args → Prop) (s : St File) : Prop where
  inv : Inv fs s
  args : ∀ i p, s.procs i = some p → A p.args
  never : NeverSelfBlocked s

theorem unblocked_step {A : Args → Prop} (hA : ∀ args, A args → ¬SelfAliased fs args)
    {s s' : St File} {l : Label} (hs : Unblocked fs A s) (h : step fs s l = some s')
    (hl : Launches A s l) : Unblocked fs A s' := by
  obtain ⟨hinv, hargs, hnever⟩ := hs
  have hinv' := inv_step fs hinv h
  obtain ⟨i, args, rfl, hnone, rfl⟩ | ⟨p, hp, hstep⟩ := step_cases fs h
  · have hold : ∀ j q, (s.set i ⟨args, .starting⟩).procs j = some q →
        A q.args ∧ ¬SelfBlocked j q := by
      intro j q hq
      by_cases hj : j = i
      · subst hj
        cases set_proc hq
        exact ⟨hl, nofun⟩
      · rw [(set_frame s i _).procs j hj] at hq
        exact ⟨hargs j q hq, hnever j q hq⟩
    exact ⟨hinv', fun j q hq => (hold j q hq).1, fun j q hq => (hold j q hq).2⟩
  · have hview := hinv l.who
    rw [hp] at hview
    obtain ⟨hframe, -⟩ := procStep_keeps fs hstep hview
    have hold : ∀ j q, s'.procs j = some q → A q.args ∧ ¬SelfBlocked j q := by
      intro j q hq
      by_cases hj : j = l.who
      · subst hj
        obtain ⟨heq, hself⟩ := procStep_proc fs hstep hview hq
        have hAp := hargs _ p hp
        exact ⟨heq ▸ hAp, fun hb => hA _ hAp (hself hb)⟩
      · rw [hframe.procs j hj] at hq
        exact ⟨hargs j q hq, hnever j q hq⟩
    exact ⟨hinv', fun j q hq => (hold j q hq).1, fun j q hq => (hold j q hq).2⟩

theorem unblocked_inductive {A : Args → Prop} (hA : ∀ args, A args → ¬SelfAliased fs args) :
    ((system fs).restrict (Launches A)).Inductive (Unblocked fs A) where
  init s h := by
    have hinv := (inv_inductive fs).init s h
    subst h
    exact ⟨hinv, nofun, nofun⟩
  step _ _ _ hs h := unblocked_step fs hA hs h.1 h.2

/-- The state of a single launch. -/
def single (p : Proc) (locks : Locks File Nat) : St File :=
  ⟨fun j => if j = 0 then some p else none, locks⟩

/-- Launch 0 alone takes its control lock and is refused `data.lock`. -/
theorem selfAliased_blocked {args : Args} (h : SelfAliased fs args) :
    ∃ s, ((system fs).restrict (Launches (· = args))).Reachable s ∧ ¬NeverSelfBlocked s := by
  obtain ⟨d, c, f, hd, hc, hne, hctl, hdata⟩ := h
  let locks : Locks File Nat := ⟨fun g => if g = f then some 0 else none⟩
  have hset (p q : Proc) (t : Locks File Nat) : (single p t).set 0 q = single q t := by
    unfold single St.set
    simp only [St.mk.injEq, and_true]
    funext j
    split <;> rfl
  have h1 : step fs ⟨fun _ => none, .unlocked⟩ (.launch 0 args) =
      some (single ⟨args, .starting⟩ .unlocked) := rfl
  have h2 : step fs (single ⟨args, .starting⟩ .unlocked) (.resolve 0) =
      some (single ⟨args, .resolved d⟩ .unlocked) := by
    simp only [step, procStep, resolveStep, Label.who, single, if_true, hd]
    exact congrArg some (hset _ _ _)
  have hacq : acquire fs .unlocked 0 args.base = .ok locks := by
    simp only [acquire, hctl, Locks.tryLock, Locks.unlocked]
    rfl
  have h3 : step fs (single ⟨args, .resolved d⟩ .unlocked) (.lockControl 0) =
      some (single ⟨args, .controlLocked d⟩ locks) := by
    simp only [step, procStep, Label.who, single, if_true, hacq, St.afterAcquire, St.set]
    refine congrArg some ?_
    simp only [St.mk.injEq, and_true]
    funext j
    split <;> rfl
  have h4 : step fs (single ⟨args, .controlLocked d⟩ locks) (.compare 0) =
      some (single ⟨args, .needsData d⟩ locks) := by
    simp only [step, procStep, compareStep, Label.who, single, if_true, hc, if_neg hne]
    exact congrArg some (hset _ _ _)
  have hrefused : acquire fs locks 0 (join d "data") = .error (.lockHeld 0) := by
    have hheld : locks.Held 0 f := if_pos rfl
    simp only [acquire, pathFor_join, hdata, Locks.tryLock_of_held hheld]
  have h5 : step fs (single ⟨args, .needsData d⟩ locks) (.lockData 0) =
      some ((single ⟨args, .needsData d⟩ locks).leave 0 ⟨args, .needsData d⟩ (.lockHeld 0)) := by
    simp only [step, procStep, Label.who, single, if_true, hrefused, St.afterAcquire]
  refine ⟨_, ⟨_, _, rfl, .cons ⟨h1, rfl⟩ (.cons ⟨h2, trivial⟩ (.cons ⟨h3, trivial⟩
    (.cons ⟨h4, trivial⟩ (.cons ⟨h5, trivial⟩ (.nil _)))))⟩, ?_⟩
  intro hnever
  exact hnever 0 _ (leave_procs_self _ 0 _ _) rfl

/-- **Instance locks exclude**, and never block their own launch, in every run
whose launches all have arguments in `A`, exactly when no arguments in `A` make
`data.lock` another name of the control lock file. -/
theorem locks_exclude_iff (A : Args → Prop) :
    (∀ s, ((system fs).restrict (Launches A)).Reachable s →
      Exclusive fs s ∧ NeverSelfBlocked s) ↔ ∀ args, A args → ¬SelfAliased fs args := by
  constructor
  · intro h args hargs hself
    obtain ⟨s, hr, hblocked⟩ := selfAliased_blocked fs hself
    refine hblocked (h s (hr.restrict_mono ?_)).2
    intro t l hl
    cases l with
    | launch i a => exact (show a = args from hl) ▸ hargs
    | resolve i => trivial
    | lockControl i => trivial
    | compare i => trivial
    | lockData i => trivial
    | exit i => trivial
  · intro hA s hr
    have hs := (unblocked_inductive fs hA).reachable s hr
    exact ⟨hs.inv.exclusive, hs.never⟩

/-! ## A linked `data.lock` -/

/-- A file system without hard links: every path resolves to one canonical path,
which is the file. -/
def FileSystem.ofResolve (resolve : Path → Path) (h : ∀ p, resolve (resolve p) = resolve p) :
    FileSystem Path where
  canonicalize p := some (resolve p)
  openFile p := some (resolve p)
  open_canonicalize p q hq := by
    have hq := Option.some.inj hq
    rw [← hq, h]

/-- `/d/data.lock` is a symbolic link to `/x/c.lock`. -/
def linked : FileSystem Path :=
  .ofResolve (fun p => if p = "/d/data.lock" then "/x/c.lock" else p) (by
    intro p
    by_cases hp : p = "/d/data.lock"
    · simp [hp]
    · simp [hp])

/-- A launch over `/d` with control base `/x/c` and no rival is refused by itself. -/
theorem linked_blocks_itself :
    ¬∀ s, (system linked).Reachable s → Exclusive linked s ∧ NeverSelfBlocked s := by
  intro h
  have haliased : SelfAliased linked ⟨"/d", some "/x/c"⟩ :=
    ⟨"/d", "/x/c.lock", "/x/c.lock", by decide, by decide, by decide, by decide, by decide⟩
  obtain ⟨s, hr, hblocked⟩ := selfAliased_blocked linked haliased
  exact hblocked (h s hr.of_restrict).2

end Hoprd.Locks
