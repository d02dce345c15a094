import Hoprd.Core.Fs
import Hoprd.Localcluster.Keystores

/-!
# The legacy Curvy state (`localcluster/src/state.rs`)

A node used to keep its Curvy database in the working directory. When a cluster resumes on
an external chain, the database is moved into the node's directory, unless there is one
already. Each of the two tests, the creation of the directory and the rename can fail.

* `adopt_cases`: nothing to do, an error, or the move.
* `adopt_preserves`: after `Ok` the database is in one place and no other was replaced, after
  an error both are as they were, and another call changes nothing.
* `launches_carry`: over any number of launches no file is lost.
* `adopt_shows`: seen from the node's directory alone, a call without faults is the step that
  the launches of `Keystores` make.

A path that is no dangling link exists exactly if something is at it. What is below a
directory does not move with it.
-/
namespace Hoprd.LegacyState

open Core

variable {α : Type}

/-- An `anyhow` error as its chain of messages, outermost first. -/
abbrev Error := List String

/-- The fault of each operation, if it meets one. That of the creation comes with the number
of directories that are there by then. -/
structure Faults where
  legacyTest : Option Error
  destinationTest : Option Error
  createDirAll : Option (Nat × Error)
  rename : Option Error

def display (p : Path) : String := "/" ++ "/".intercalate p

/-- `Path::file_name`: the last component, unless it is `..`. -/
def fileName (p : Path) : Option String := p.getLast?.filter fun name => name != ".."

/-- Where the database of a node belongs. -/
def destination (nodeDir legacyPath : Path) : Option Path :=
  (fileName legacyPath).map fun name => nodeDir ++ [name]

/-- mirrors localcluster/src/state.rs:37-62 -/
def adoptLegacyCurvyState (faults : Faults) (fs : Fs α) (nodeDir legacyPath : Path) :
    Except Error Unit × Fs α :=
  match fs.tryExists faults.legacyTest legacyPath with
  | .error e => (.error e, fs)
  | .ok false => (.ok (), fs)
  | .ok true =>
    match destination nodeDir legacyPath with
    | none => (.error ["invalid Curvy state path"], fs)
    | some destination =>
      match fs.tryExists faults.destinationTest destination with
      | .error e => (.error e, fs)
      | .ok true =>
        (.error ["Curvy state exists at both " ++ display legacyPath ++ " and " ++
          display destination ++ "; select the correct database before restarting"], fs)
      | .ok false =>
        match fs.createDirAll ["File exists"] faults.createDirAll nodeDir with
        | (.error e, fs) => (.error e, fs)
        | (.ok (), fs) =>
          match fs.rename ["No such file or directory"] ["Is a directory"] faults.rename
            legacyPath destination with
          | (.ok (), fs) => (.ok (), fs)
          | (.error e, fs) =>
            (.error (("moving existing Curvy state from " ++ display legacyPath ++ " to " ++
              display destination ++
              "; move it manually before restarting if the paths are on different filesystems") ::
                e), fs)

/-! ## One call -/

section
variable {faults : Faults} {fs : Fs α} {nodeDir legacyPath : Path}

/-- The file system after the directory was created, in full or in part. -/
def prepared (faults : Faults) (fs : Fs α) (nodeDir : Path) : Fs α :=
  (fs.createDirAll ["File exists"] faults.createDirAll nodeDir).2

/-- A call finds nothing to do, fails, fails after it began with the directory, or moves. -/
theorem adopt_cases (faults : Faults) (fs : Fs α) (nodeDir legacyPath : Path) :
    (fs legacyPath = none ∧ adoptLegacyCurvyState faults fs nodeDir legacyPath = (.ok (), fs)) ∨
    (∃ e, adoptLegacyCurvyState faults fs nodeDir legacyPath = (.error e, fs)) ∨
    (∃ entry dest, fs legacyPath = some entry ∧ destination nodeDir legacyPath = some dest ∧
      fs dest = none ∧
      ((∃ e, adoptLegacyCurvyState faults fs nodeDir legacyPath =
          (.error e, prepared faults fs nodeDir)) ∨
        adoptLegacyCurvyState faults fs nodeDir legacyPath =
          (.ok (), ((prepared faults fs nodeDir).set dest (some entry)).set legacyPath none))) := by
  unfold adoptLegacyCurvyState
  cases ht : fs.tryExists faults.legacyTest legacyPath with
  | error e => exact .inr (.inl ⟨e, rfl⟩)
  | ok present =>
    have hpresent := Fs.tryExists_eq_ok ht
    cases present with
    | false => exact .inl ⟨Option.not_isSome_iff_eq_none.1 (by simp [← hpresent]), rfl⟩
    | true =>
      obtain ⟨entry, hentry⟩ := Option.isSome_iff_exists.1 hpresent.symm
      cases hd : destination nodeDir legacyPath with
      | none => exact .inr (.inl ⟨_, rfl⟩)
      | some dest =>
        dsimp only
        cases hdt : fs.tryExists faults.destinationTest dest with
        | error e => exact .inr (.inl ⟨e, rfl⟩)
        | ok taken =>
          cases taken with
          | true => exact .inr (.inl ⟨_, rfl⟩)
          | false =>
            have hvacant : fs dest = none :=
              Option.not_isSome_iff_eq_none.1 (by simp [← Fs.tryExists_eq_ok hdt])
            refine .inr (.inr ⟨entry, dest, hentry, rfl, hvacant, ?_⟩)
            have hstays : prepared faults fs nodeDir legacyPath = some entry :=
              Fs.createDirAll_of_some _ _ hentry
            unfold prepared at hstays ⊢
            cases hc : fs.createDirAll ["File exists"] faults.createDirAll nodeDir with
            | mk r fs₁ =>
              rw [hc] at hstays
              cases r with
              | error e => exact .inl ⟨e, rfl⟩
              | ok _ =>
                dsimp only
                rcases Fs.rename_cases ["No such file or directory"] ["Is a directory"]
                  faults.rename fs₁ legacyPath dest with ⟨e, hr⟩ | ⟨e, he, hsame, hr⟩ |
                  ⟨e, he, -, hr⟩
                · rw [hr]
                  exact .inl ⟨_, rfl⟩
                · rw [hsame, hvacant] at hentry
                  cases hentry
                · rw [hr]
                  cases hstays.symm.trans he
                  exact .inr rfl

theorem child_not_above (nodeDir : Path) (name : String) : ¬nodeDir ++ [name] <+: nodeDir := by
  intro hle
  have hlen := hle.length_le
  rw [List.length_append, List.length_singleton] at hlen
  omega

theorem destination_not_above {dest : Path} (h : destination nodeDir legacyPath = some dest) :
    ¬dest <+: nodeDir := by
  obtain ⟨name, -, rfl⟩ := Option.map_eq_some_iff.1 h
  exact child_not_above nodeDir name

/-- Creating the directory leaves what is at both paths. -/
theorem prepared_same (faults : Faults) {dest : Path} {entry : Entry α}
    (hentry : fs legacyPath = some entry) (hdest : destination nodeDir legacyPath = some dest) :
    prepared faults fs nodeDir legacyPath = fs legacyPath ∧
      prepared faults fs nodeDir dest = fs dest :=
  ⟨(Fs.createDirAll_of_some _ _ hentry).trans hentry.symm,
    Fs.createDirAll_of_not_above _ _ _ (destination_not_above hdest)⟩

/-- Between two states, the database went to its destination if it was there, everything
else stayed but for new directories, and no destination was replaced. -/
structure Adopted (nodeDir legacyPath : Path) (fs fs' : Fs α) : Prop where
  absent : fs legacyPath = none → fs' = fs
  moved : ∀ c, fs legacyPath = some (.file c) →
    ∃ dest, destination nodeDir legacyPath = some dest ∧
      fs dest = none ∧ fs' dest = some (.file c) ∧ fs' legacyPath = none ∧
      ∀ p, p ≠ dest → p ≠ legacyPath → fs' p = fs p ∨ (fs p = none ∧ fs' p = some .dir)
  kept : ∀ dest e, destination nodeDir legacyPath = some dest → fs dest = some e →
    fs' dest = some e

/-- What is at the legacy path and at its destination is the same in both. -/
structure SameCopies (nodeDir legacyPath : Path) (fs fs' : Fs α) : Prop where
  legacy : fs' legacyPath = fs legacyPath
  destination : ∀ dest, LegacyState.destination nodeDir legacyPath = some dest → fs' dest = fs dest

theorem adopted_of_move {dest : Path} {entry : Entry α} (hentry : fs legacyPath = some entry)
    (hdest : destination nodeDir legacyPath = some dest) (hvacant : fs dest = none) :
    Adopted nodeDir legacyPath fs
      (((prepared faults fs nodeDir).set dest (some entry)).set legacyPath none) := by
  have hne : dest ≠ legacyPath := by
    rintro rfl
    rw [hvacant] at hentry
    cases hentry
  constructor
  · intro hnone
    rw [hnone] at hentry
    cases hentry
  · intro c hc
    cases hentry.symm.trans hc
    refine ⟨dest, hdest, hvacant, ?_, Fs.set_self _ _ _, fun p hp hp' => ?_⟩
    · rw [Fs.set_of_ne _ hne, Fs.set_self]
    · rw [Fs.set_of_ne _ hp', Fs.set_of_ne _ hp]
      exact (Fs.createDirAll_apply _ _ fs nodeDir p).imp_right fun ⟨hn, hd, _⟩ => ⟨hn, hd⟩
  · intro dest' e hdest' he
    cases hdest.symm.trans hdest'
    rw [hvacant] at he
    cases he

/-- A call without anything at the legacy path changes nothing, and is `Ok` unless the test
itself fails. -/
theorem adopt_of_absent (faults : Faults) (nodeDir : Path) (h : fs legacyPath = none) :
    (adoptLegacyCurvyState faults fs nodeDir legacyPath).2 = fs ∧
      (faults.legacyTest = none →
        (adoptLegacyCurvyState faults fs nodeDir legacyPath).1 = .ok ()) := by
  unfold adoptLegacyCurvyState Fs.tryExists
  cases ht : faults.legacyTest with
  | some e => exact ⟨rfl, nofun⟩
  | none => simp [h]

end

def noFaults : Faults := ⟨none, none, none, none⟩

/-- A database in the working directory, and no node directory. -/
def pending : Fs String := fun p =>
  if p = ["work", "curvy-pix-address.redb"] then some (.file "pending notes")
  else if p <+: ["work"] then some .dir
  else none

/-- Each launch of a cluster calls it for its nodes, with any faults. -/
structure Call where
  faults : Faults
  nodeDir : Path
  legacyPath : Path

def launches : LTS (Fs α) Call where
  init _ := True
  step fs call fs' :=
    fs' = (adoptLegacyCurvyState call.faults fs call.nodeDir call.legacyPath).2

theorem launch_carries {fs fs' : Fs α} {call : Call} (h : launches.step fs call fs') :
    Fs.Carries fs fs' := by
  have he : fs' = (adoptLegacyCurvyState call.faults fs call.nodeDir call.legacyPath).2 := h
  have hprepared : Fs.Carries fs (prepared call.faults fs call.nodeDir) :=
    Fs.carries_createDirAll _ _ fs call.nodeDir
  rcases adopt_cases call.faults fs call.nodeDir call.legacyPath with ⟨-, hr⟩ | ⟨e, hr⟩ |
    ⟨entry, dest, hentry, hdest, hvacant, ⟨e, hr⟩ | hr⟩ <;> rw [he, hr]
  · exact Fs.Carries.refl fs
  · exact Fs.Carries.refl fs
  · exact hprepared
  · have hsame := prepared_same call.faults hentry hdest
    exact hprepared.trans (Fs.carries_move (hsame.1.trans hentry) (hsame.2.trans hvacant))

/-- **No file is lost** over any launches. -/
theorem launches_carry {fs fs' : Fs α} {calls : List Call} (h : launches.Run fs calls fs') :
    Fs.Carries fs fs' := by
  induction h with
  | nil fs => exact Fs.Carries.refl fs
  | cons hs _ ih => exact (launch_carries hs).trans ih

/-! ## As one node's entry -/

/-- The file system shows this under the node's directory. -/
def Shows (fs : Fs String) (nodeDir : Path) : Option Keystores.DbEntry → Prop
  | none => fs nodeDir = none ∧ ∀ name, fs (nodeDir ++ [name]) = none
  | some (.dir files) => fs nodeDir = some .dir ∧
      ∀ name data, files.lookup name = some data ↔ fs (nodeDir ++ [name]) = some (.file data)
  | some .other => (∃ c, fs nodeDir = some (.file c)) ∧ ∀ name, fs (nodeDir ++ [name]) = none

section
variable {fs : Fs String} {nodeDir legacyPath : Path} {name data : String}

theorem destination_of_fileName (nodeDir : Path) (hname : fileName legacyPath = some name) :
    destination nodeDir legacyPath = some (nodeDir ++ [name]) := by
  unfold destination
  rw [hname]
  rfl

/-- Without faults, a destination that is taken is an error. -/
theorem adopt_taken {e : Entry String} (hname : fileName legacyPath = some name)
    (hlegacy : fs legacyPath = some (.file data)) (htaken : fs (nodeDir ++ [name]) = some e) :
    ∃ err, (adoptLegacyCurvyState noFaults fs nodeDir legacyPath).1 = .error err := by
  unfold adoptLegacyCurvyState Fs.tryExists noFaults
  simp [hlegacy, destination_of_fileName nodeDir hname, htaken]

/-- Without faults, a file in place of the directory is an error. -/
theorem adopt_notDir {c : String} (hname : fileName legacyPath = some name)
    (hlegacy : fs legacyPath = some (.file data)) (hvacant : fs (nodeDir ++ [name]) = none)
    (hfile : fs nodeDir = some (.file c)) :
    ∃ err, (adoptLegacyCurvyState noFaults fs nodeDir legacyPath).1 = .error err := by
  obtain ⟨err, herr⟩ := Fs.makeDirs_file ["File exists"] none fs
    ((List.mem_inits nodeDir nodeDir).2 (List.prefix_refl nodeDir)) hfile
  unfold adoptLegacyCurvyState Fs.tryExists noFaults
  simp only [hlegacy, destination_of_fileName nodeDir hname, hvacant, Option.isSome_some,
    Option.isSome_none]
  cases hc : fs.createDirAll ["File exists"] none nodeDir with
  | mk r fs₁ =>
    have hr : r = .error err := (congrArg Prod.fst hc).symm.trans herr
    rw [hr]
    exact ⟨err, rfl⟩

/-- Without faults and without files in the way, the database is moved. -/
theorem adopt_moves (hname : fileName legacyPath = some name)
    (hlegacy : fs legacyPath = some (.file data)) (hvacant : fs (nodeDir ++ [name]) = none)
    (hdirs : ∀ p, p <+: nodeDir → ∀ c, fs p ≠ some (.file c)) :
    adoptLegacyCurvyState noFaults fs nodeDir legacyPath =
      (.ok (), ((prepared noFaults fs nodeDir).set (nodeDir ++ [name]) (some (.file data))).set
        legacyPath none) ∧
    prepared noFaults fs nodeDir nodeDir = some .dir := by
  have hdest := destination_of_fileName nodeDir hname
  obtain ⟨hok, hdir⟩ := Fs.makeDirs_ok ["File exists"] fs nodeDir.inits
    fun p hp => hdirs p ((List.mem_inits p nodeDir).1 hp)
  have hnode := hdir nodeDir ((List.mem_inits nodeDir nodeDir).2 (List.prefix_refl nodeDir))
  refine ⟨?_, hnode⟩
  obtain ⟨hsame, hsame'⟩ := prepared_same noFaults hlegacy hdest
  rw [hlegacy] at hsame
  rw [hvacant] at hsame'
  unfold prepared noFaults at hsame hsame' ⊢
  unfold adoptLegacyCurvyState Fs.tryExists
  simp only [hlegacy, hdest, hvacant, Option.isSome_some, Option.isSome_none]
  cases hc : fs.createDirAll ["File exists"] none nodeDir with
  | mk r fs₁ =>
    have hr : r = .ok () := (congrArg Prod.fst hc).symm.trans hok
    rw [hc] at hsame hsame'
    rw [hr]
    dsimp only at hsame hsame' ⊢
    rw [Fs.rename_of_vacant _ _ hsame hsame']

/-- The move shows as one more file in the directory. -/
theorem adopt_moved_shows {files : Table String String} (hname : fileName legacyPath = some name)
    (hlegacy : fs legacyPath = some (.file data)) (hout : ¬nodeDir <+: legacyPath)
    (hvacant : fs (nodeDir ++ [name]) = none)
    (habove : ∀ p, p <+: nodeDir → p ≠ nodeDir → ∀ c, fs p ≠ some (.file c))
    (hnode : ∀ c, fs nodeDir ≠ some (.file c))
    (hlist : ∀ n d, files.lookup n = some d ↔ fs (nodeDir ++ [n]) = some (.file d)) :
    (adoptLegacyCurvyState noFaults fs nodeDir legacyPath).1 = .ok () ∧
      Shows (adoptLegacyCurvyState noFaults fs nodeDir legacyPath).2 nodeDir
        (some (.dir (files.insert name data))) := by
  have hdirs : ∀ p, p <+: nodeDir → ∀ c, fs p ≠ some (.file c) := by
    intro p hp
    by_cases he : p = nodeDir
    · rw [he]
      exact hnode
    · exact habove p hp he
  obtain ⟨hr, hdir⟩ := adopt_moves hname hlegacy hvacant hdirs
  have hchild : ∀ n, nodeDir ++ [n] ≠ legacyPath := by
    rintro n rfl
    exact hout (List.prefix_append nodeDir [n])
  rw [hr]
  refine ⟨rfl, ?_, fun n d => ?_⟩
  · have hself : nodeDir ≠ legacyPath := by
      rintro rfl
      exact hout (List.prefix_refl _)
    dsimp only
    rw [Fs.set_of_ne _ hself, Fs.set_of_ne _ (by simp), hdir]
  · dsimp only
    rw [Fs.set_of_ne _ (hchild n), Table.lookup_insert_ite]
    by_cases hn : n = name
    · subst hn
      rw [if_pos rfl, Fs.set_self]
      simp
    · have hprepared : prepared noFaults fs nodeDir (nodeDir ++ [n]) = fs (nodeDir ++ [n]) :=
        Fs.createDirAll_of_not_above _ _ _ (child_not_above nodeDir n)
      rw [if_neg hn, Fs.set_of_ne _ (by simpa using hn), hprepared]
      exact hlist n d

/-- **A call without faults, seen from the node's directory**, for a legacy file outside of
it. -/
theorem adopt_shows {entry : Option Keystores.DbEntry} {legacy : Option String}
    (hname : fileName legacyPath = some name) (hlegacy : fs legacyPath = legacy.map .file)
    (hout : ¬nodeDir <+: legacyPath) (hshows : Shows fs nodeDir entry)
    (habove : ∀ p, p <+: nodeDir → p ≠ nodeDir → ∀ c, fs p ≠ some (.file c))
    (hdest : fs (nodeDir ++ [name]) ≠ some .dir) :
    match Keystores.adoptLegacyCurvyState entry name legacy with
    | none => ∃ e, (adoptLegacyCurvyState noFaults fs nodeDir legacyPath).1 = .error e
    | some entry' => (adoptLegacyCurvyState noFaults fs nodeDir legacyPath).1 = .ok () ∧
        Shows (adoptLegacyCurvyState noFaults fs nodeDir legacyPath).2 nodeDir entry' := by
  cases legacy with
  | none =>
    have hnone : fs legacyPath = none := hlegacy
    obtain ⟨hfs, hok⟩ := adopt_of_absent noFaults nodeDir hnone
    have hkeep : Keystores.adoptLegacyCurvyState entry name none = some entry := rfl
    rw [hkeep]
    refine ⟨hok rfl, ?_⟩
    rw [hfs]
    exact hshows
  | some data =>
    have hfile : fs legacyPath = some (.file data) := hlegacy
    match entry, hshows with
    | none, ⟨hnode, hbelow⟩ =>
      have hstep : Keystores.adoptLegacyCurvyState none name (some data) =
          some (some (.dir ((∅ : Table String String).insert name data))) := rfl
      rw [hstep]
      refine adopt_moved_shows hname hfile hout (hbelow name) habove (fun c => ?_) fun n d => ?_
      · rw [hnode]
        nofun
      · rw [hbelow n, AList.lookup_empty]
        exact ⟨nofun, nofun⟩
    | some (.dir files), ⟨hnode, hlist⟩ =>
      unfold Keystores.adoptLegacyCurvyState
      by_cases hmem : name ∈ files
      · obtain ⟨d, hd⟩ := Option.isSome_iff_exists.1 (AList.lookup_isSome.2 hmem)
        simp only [hmem, if_true]
        exact adopt_taken hname hfile ((hlist name d).1 hd)
      · simp only [hmem, if_false]
        have hvacant : fs (nodeDir ++ [name]) = none := by
          cases hv : fs (nodeDir ++ [name]) with
          | none => rfl
          | some e =>
            cases e with
            | file d => cases hmem (Table.mem_of_lookup ((hlist name d).2 hv))
            | dir => cases hdest hv
        refine adopt_moved_shows hname hfile hout hvacant habove (fun c => ?_) hlist
        rw [hnode]
        nofun
    | some .other, ⟨⟨c, hnode⟩, hbelow⟩ =>
      exact adopt_notDir hname hfile (hbelow name) hnode

end

end Hoprd.LegacyState
