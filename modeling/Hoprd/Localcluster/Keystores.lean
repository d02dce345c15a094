import Hoprd.Core.LTS
import Hoprd.Core.Table

/-!
# Keystores and node databases across launches (`localcluster/src/identity.rs`, `state.rs`)

A data directory holds `node_id_<i>.id` and `db_<i>`. A launch, on a managed chain
or on an external one, prepares the databases, loads or writes the keystores, adopts
an old database and starts the nodes; it can end at any step. Launches over one
directory follow each other (the data lock), and between their steps the nodes and
the operator may write.

* `ExternalSafe`: a launch on an external chain leaves every keystore and every file
  of every database as it is, and fails on a keystore it cannot read.
* `Kept`: the keystore of node `i` still holds the keys an external launch saved.
  A launch on a managed chain writes its own keys over it; the keystores are kept
  exactly as long as every such write repeats the saved keys (`Harmless`):
  `keystores_kept`.
-/
namespace Hoprd.Keystores

open Core (LTS Table)
open Function (update update_self update_of_ne)

/-- The keystore format of `hopr-lib`. A file holds one set of keys, under one
password. -/
structure Format (HoprKeys Content : Type) where
  writeEthKeystore : HoprKeys → String → Nat → Content
  readEthKeystore : Content → String → Option HoprKeys
  read_write : ∀ k pw salt, readEthKeystore (writeEthKeystore k pw salt) pw = some k
  read_unique : ∀ c pw pw' k k', readEthKeystore c pw = some k → readEthKeystore c pw' = some k' →
    k = k'

/-- `db_<i>`: a directory with its files, or something else under the name. -/
inductive DbEntry where
  | dir (files : Table String String)
  | other

/-- The arguments of a launch that decide what it does to the directory.
mirrors localcluster/src/cli.rs:105-230 -/
structure Args where
  chainUrl : Option String
  size : Nat
  identityPassword : String
  frozenIdentities : Bool

/-- mirrors localcluster/src/identity.rs:548-578 -/
structure GenerationConfig where
  numNodes : Nat
  identityPassword : String
  randomIdentities : Bool
  reuseIdentities : Bool

/-- mirrors localcluster/src/main.rs:201-224 -/
def generationConfig (args : Args) : GenerationConfig where
  numNodes := args.size
  identityPassword := args.identityPassword
  randomIdentities := !args.frozenIdentities
  reuseIdentities := args.chainUrl.isSome

def maxNumNodes : Nat := 10

/-- `num_nodes.clamp(1, NODE_SECRETS.len())`. -/
def effectiveNumNodes (config : GenerationConfig) : Nat := min maxNumNodes (max 1 config.numNodes)

section Model

variable {HoprKeys Content : Type} (fmt : Format HoprKeys Content)

/-- What `hopr-lib` and the built-in secrets give: the frozen keys of a node and the
address of a set of keys. -/
structure KeyTable (HoprKeys : Type) where
  frozenHoprKeys : Nat → HoprKeys
  address : HoprKeys → String

variable (table : KeyTable HoprKeys)

/-- The keys made for a node without a keystore to reuse; `draw` is the random set. -/
def newKeys (config : GenerationConfig) (id : Nat) (draw : HoprKeys) : HoprKeys :=
  if config.randomIdentities then draw else table.frozenHoprKeys id

/-- The keys of a node and its keystore afterwards; `none` is an error.
mirrors localcluster/src/identity.rs:723-741 -/
def nodeKeys (config : GenerationConfig) (id : Nat) (file : Option Content) (draw : HoprKeys)
    (salt : Nat) : Option (HoprKeys × Content) :=
  match config.reuseIdentities, file with
  | true, some c => (fmt.readEthKeystore c config.identityPassword).map fun keys => (keys, c)
  | _, _ =>
    let keys := newKeys table config id draw
    some (keys, fmt.writeEthKeystore keys config.identityPassword salt)

/-- mirrors localcluster/src/state.rs:37-64 -/
def adoptLegacyCurvyState (entry : Option DbEntry) (name : String) (legacy : Option String) :
    Option (Option DbEntry) :=
  match legacy, entry with
  | none, entry => some entry
  | some data, none => some (some (.dir ((∅ : Table String String).insert name data)))
  | some data, some (.dir files) =>
    if name ∈ files then none else some (some (.dir (files.insert name data)))
  | some _, some .other => none

/-- `create_dir_all(db_<id>/node_db)`; directories are not listed in `files`. -/
def createDirAll : Option DbEntry → Option DbEntry
  | none => some (.dir ∅)
  | some (.dir files) => some (.dir files)
  | some .other => none

/-- Where a launch is. `clearing` is in `prepare_node_state`, `generating` before
`node_keys(id)`, `adopting` after it, `starting` in `start_nodes`. -/
inductive Phase (HoprKeys : Type) where
  | idle
  | clearing (args : Args) (id : Nat)
  | generating (args : Args) (id : Nat)
  | adopting (args : Args) (id : Nat) (keys : HoprKeys)
  | starting (args : Args) (id : Nat)
  | running (args : Args)

/-- `saved i` remembers the keys an external launch wrote for node `i`, until someone
other than a launch replaces the file. -/
structure St (HoprKeys Content : Type) where
  keystores : Nat → Option Content
  dbs : Nat → Option DbEntry
  saved : Nat → Option HoprKeys
  phase : Phase HoprKeys

/-- `edit` and `writeDb` are someone else writing: the operator, a running node. -/
inductive Label (HoprKeys Content : Type) where
  | launch (args : Args)
  | clear
  | keys (draw : HoprKeys) (salt : Nat)
  | adopt (legacy : Option String)
  | generated
  | start
  | exit
  | edit (i : Nat) (c : Option Content)
  | writeDb (i : Nat) (entry : Option DbEntry)

/-- Node `id` has its keys, and its keystore is `c`. -/
def St.withKeys (s : St HoprKeys Content) (args : Args) (id : Nat) (keys : HoprKeys)
    (c : Content) : St HoprKeys Content :=
  { s with
    keystores := update s.keystores id (some c)
    saved :=
      if args.chainUrl.isSome ∧ (s.keystores id).isNone then update s.saved id (some keys)
      else s.saved
    phase := .adopting args id keys }

/-- mirrors localcluster/src/main.rs:152-224, localcluster/src/state.rs:7-35 -/
def step (s : St HoprKeys Content) : Label HoprKeys Content → Option (St HoprKeys Content)
  | .launch args =>
    match s.phase with
    | .idle => some { s with phase := .clearing args 0 }
    | _ => none
  | .clear =>
    match s.phase with
    | .clearing args id =>
      if args.chainUrl.isSome then some { s with phase := .generating args 0 }
      else if id < maxNumNodes then
        some { s with dbs := update s.dbs id none, phase := .clearing args (id + 1) }
      else some { s with phase := .generating args 0 }
    | _ => none
  | .keys draw salt =>
    match s.phase with
    | .generating args id =>
      if id < effectiveNumNodes (generationConfig args) then
        match nodeKeys fmt table (generationConfig args) id (s.keystores id) draw salt with
        | none => some { s with phase := .idle }
        | some (keys, c) => some (s.withKeys args id keys c)
      else none
    | _ => none
  | .adopt legacy =>
    match s.phase with
    | .adopting args id keys =>
      if args.chainUrl.isSome then
        match adoptLegacyCurvyState (s.dbs id) ("curvy-pix-" ++ table.address keys ++ ".redb")
            legacy with
        | none => some { s with phase := .idle }
        | some entry =>
          some { s with dbs := update s.dbs id entry, phase := .generating args (id + 1) }
      else some { s with phase := .generating args (id + 1) }
    | _ => none
  | .generated =>
    match s.phase with
    | .generating args id =>
      if id < effectiveNumNodes (generationConfig args) then none
      else some { s with phase := .starting args 0 }
    | _ => none
  | .start =>
    match s.phase with
    | .starting args id =>
      if id < effectiveNumNodes (generationConfig args) then
        match createDirAll (s.dbs id) with
        | none => some { s with phase := .idle }
        | some entry =>
          some { s with dbs := update s.dbs id (some entry), phase := .starting args (id + 1) }
      else some { s with phase := .running args }
    | _ => none
  | .exit =>
    match s.phase with
    | .idle => none
    | _ => some { s with phase := .idle }
  | .edit i c =>
    some { s with keystores := update s.keystores i c, saved := update s.saved i none }
  | .writeDb i entry => some { s with dbs := update s.dbs i entry }

/-- Any directory, with no keystore yet saved by a launch. -/
def system : LTS (St HoprKeys Content) (Label HoprKeys Content) :=
  .ofFn (fun s => (∀ i, s.saved i = none) ∧ s.phase = .idle) (step fmt table)

/-! ## Launches on an external chain -/

/-- The arguments of the launch in progress. -/
def Phase.args : Phase HoprKeys → Option Args
  | .idle => none
  | .clearing args _ | .generating args _ | .adopting args _ _ | .starting args _
  | .running args => some args

def External (s : St HoprKeys Content) : Prop :=
  ∃ args, s.phase.args = some args ∧ args.chainUrl.isSome

def Label.ofLaunch : Label HoprKeys Content → Bool
  | .edit .. | .writeDb .. => false
  | _ => true

/-- Nothing that was under the name is gone or changed. -/
def Grows (entry entry' : Option DbEntry) : Prop :=
  match entry with
  | none => True
  | some .other => entry' = some .other
  | some (.dir files) => ∃ files', entry' = some (.dir files') ∧
      ∀ name data, files.lookup name = some data → files'.lookup name = some data

theorem Grows.refl (entry : Option DbEntry) : Grows entry entry := by
  unfold Grows
  split
  · trivial
  · rfl
  · exact ⟨_, rfl, fun _ _ h => h⟩

theorem adopt_grows {entry entry' : Option DbEntry} {name : String} {legacy : Option String}
    (h : adoptLegacyCurvyState entry name legacy = some entry') : Grows entry entry' := by
  unfold adoptLegacyCurvyState at h
  split at h
  · cases h
    exact Grows.refl _
  · trivial
  · rename_i data files
    by_cases hmem : name ∈ files
    · simp [hmem] at h
    · simp only [if_neg hmem, Option.some.injEq] at h
      subst h
      refine ⟨_, rfl, ?_⟩
      intro name' data' hl
      -- the adopted file has a new name
      have hne : name' ≠ name := by
        intro heq
        rw [heq] at hl
        exact hmem (Table.mem_of_lookup hl)
      rw [Table.lookup_insert_ite, if_neg hne]
      exact hl
  · cases h

theorem createDirAll_grows {entry : Option DbEntry} {entry' : DbEntry}
    (h : createDirAll entry = some entry') : Grows entry (some entry') := by
  unfold createDirAll at h
  split at h
  · trivial
  · cases h
    exact Grows.refl _
  · cases h

theorem grows_update {dbs : Nat → Option DbEntry} {i : Nat} {entry : Option DbEntry}
    (h : Grows (dbs i) entry) (j : Nat) : Grows (dbs j) (update dbs i entry j) := by
  by_cases hj : j = i
  · subst hj
    rw [update_self]
    exact h
  · rw [update_of_ne hj]
    exact Grows.refl _

/-- What a launch leaves alone when it goes from `s` to `s'`. -/
structure Untouched (s s' : St HoprKeys Content) : Prop where
  keystores : ∀ i c, s.keystores i = some c → s'.keystores i = some c
  dbs : ∀ i, Grows (s.dbs i) (s'.dbs i)

theorem Untouched.of_phase (s : St HoprKeys Content) (ph : Phase HoprKeys) :
    Untouched s { s with phase := ph } :=
  ⟨fun _ _ h => h, fun _ => Grows.refl _⟩

theorem nodeKeys_managed {config : GenerationConfig} (h : config.reuseIdentities = false) (id : Nat)
    (file : Option Content) (draw : HoprKeys) (salt : Nat) :
    nodeKeys fmt table config id file draw salt =
      some (newKeys table config id draw, fmt.writeEthKeystore (newKeys table config id draw)
        config.identityPassword salt) := by
  unfold nodeKeys
  rw [h]

theorem nodeKeys_absent (config : GenerationConfig) (id : Nat) (draw : HoprKeys) (salt : Nat) :
    nodeKeys fmt table config id none draw salt =
      some (newKeys table config id draw, fmt.writeEthKeystore (newKeys table config id draw)
        config.identityPassword salt) := by
  unfold nodeKeys
  cases config.reuseIdentities <;> rfl

/-- Reusing identities, an existing keystore is read with the password or refused. -/
theorem nodeKeys_reuse {config : GenerationConfig} (h : config.reuseIdentities = true) (id : Nat)
    (c : Content) (draw : HoprKeys) (salt : Nat) :
    nodeKeys fmt table config id (some c) draw salt =
      (fmt.readEthKeystore c config.identityPassword).map fun keys => (keys, c) := by
  unfold nodeKeys
  rw [h]

/-- The step of a keystore: its node has keys, or the launch ends. -/
theorem keys_cases {s s' : St HoprKeys Content} {draw : HoprKeys} {salt : Nat}
    (h : step fmt table s (.keys draw salt) = some s') :
    ∃ args id, s.phase = .generating args id ∧ id < effectiveNumNodes (generationConfig args) ∧
      ((nodeKeys fmt table (generationConfig args) id (s.keystores id) draw salt = none ∧
          s' = { s with phase := .idle }) ∨
        ∃ keys c, nodeKeys fmt table (generationConfig args) id (s.keystores id) draw salt =
          some (keys, c) ∧ s' = s.withKeys args id keys c) := by
  cases hph : s.phase <;> simp only [step, hph, reduceCtorEq] at h
  rename_i args id
  by_cases hid : id < effectiveNumNodes (generationConfig args)
  · refine ⟨args, id, rfl, hid, ?_⟩
    simp only [if_pos hid] at h
    split at h
    · next hnone => exact .inl ⟨hnone, (Option.some.inj h).symm⟩
    · next keys c hkeys => exact .inr ⟨keys, c, hkeys, (Option.some.inj h).symm⟩
  · simp only [if_neg hid, reduceCtorEq] at h

theorem keys_untouched {s s' : St HoprKeys Content} {draw : HoprKeys} {salt : Nat}
    (hext : External s) (h : step fmt table s (.keys draw salt) = some s') : Untouched s s' := by
  obtain ⟨args, id, hph, -, ⟨-, rfl⟩ | ⟨keys, c, hkeys, rfl⟩⟩ := keys_cases fmt table h
  · exact Untouched.of_phase s _
  · refine ⟨?_, fun _ => Grows.refl _⟩
    intro i c' hi
    by_cases hii : i = id
    · subst hii
      obtain ⟨args', hargs, hurl⟩ := hext
      rw [hph] at hargs
      obtain rfl := Option.some.inj hargs
      have hreuse : (generationConfig args).reuseIdentities = true := hurl
      -- the keystore exists, so it was read and stays
      rw [hi, nodeKeys_reuse fmt table hreuse, Option.map_eq_some_iff] at hkeys
      obtain ⟨k, -, hk⟩ := hkeys
      have hc : c' = c := congrArg Prod.snd hk
      show update s.keystores i (some c) i = some c'
      rw [update_self, hc]
    · show update s.keystores id (some c) i = some c'
      rw [update_of_ne hii]
      exact hi

/-- An external launch's step leaves keystores and database files as they are. -/
theorem external_untouched {s s' : St HoprKeys Content} {l : Label HoprKeys Content}
    (hext : External s) (hl : l.ofLaunch = true) (h : step fmt table s l = some s') :
    Untouched s s' := by
  have ⟨args, hargs, hurl⟩ := hext
  cases l with
  | launch a => cases hph : s.phase <;> simp only [hph, Phase.args, reduceCtorEq] at hargs <;>
      simp only [step, hph, reduceCtorEq] at h
  | clear =>
    cases hph : s.phase <;> simp only [step, hph, reduceCtorEq] at h
    simp only [hph, Phase.args, Option.some.injEq] at hargs
    subst hargs
    simp only [if_pos hurl, Option.some.injEq] at h
    subst h
    exact Untouched.of_phase s _
  | keys draw salt => exact keys_untouched fmt table hext h
  | adopt legacy =>
    cases hph : s.phase <;> simp only [step, hph, reduceCtorEq] at h
    simp only [hph, Phase.args, Option.some.injEq] at hargs
    subst hargs
    simp only [if_pos hurl] at h
    split at h
    · cases h
      exact Untouched.of_phase s _
    · rename_i entry hadopt
      cases h
      exact ⟨fun _ _ hi => hi, grows_update (adopt_grows hadopt)⟩
  | generated =>
    cases hph : s.phase <;> simp only [step, hph, reduceCtorEq] at h
    split at h
    · cases h
    · cases h
      exact Untouched.of_phase s _
  | start =>
    cases hph : s.phase <;> simp only [step, hph, reduceCtorEq] at h
    split at h
    · split at h
      · cases h
        exact Untouched.of_phase s _
      · rename_i entry hdir
        cases h
        exact ⟨fun _ _ hi => hi, grows_update (createDirAll_grows hdir)⟩
    · cases h
      exact Untouched.of_phase s _
  | exit =>
    simp only [step] at h
    split at h
    · cases h
    · cases h
      exact Untouched.of_phase s _
  | edit i c => cases hl
  | writeDb i entry => cases hl

/-- A launch on an external chain, at any step: nothing that exists is replaced, and a
keystore that cannot be read ends the launch. -/
structure ExternalSafe (s : St HoprKeys Content) : Prop where
  untouched : ∀ l s', External s → l.ofLaunch = true → step fmt table s l = some s' →
    Untouched s s'
  unreadable : ∀ args id c draw salt s', s.phase = .generating args id → args.chainUrl.isSome →
    s.keystores id = some c → fmt.readEthKeystore c args.identityPassword = none →
    step fmt table s (.keys draw salt) = some s' → s' = { s with phase := .idle }

theorem externalSafe (s : St HoprKeys Content) : ExternalSafe fmt table s where
  untouched _ _ hext hl h := external_untouched fmt table hext hl h
  unreadable args id c draw salt s' hph hurl hc hread h := by
    have hreuse : (generationConfig args).reuseIdentities = true := hurl
    have hnone :
        nodeKeys fmt table (generationConfig args) id (s.keystores id) draw salt = none := by
      rw [hc, nodeKeys_reuse fmt table hreuse]
      simp only [Option.map_eq_none_iff]
      exact hread
    obtain ⟨args', id', hph', -, ⟨-, rfl⟩ | ⟨keys, c', hkeys, -⟩⟩ := keys_cases fmt table h
    · rfl
    · rw [hph] at hph'
      cases hph'
      rw [hnone] at hkeys
      cases hkeys

/-! ## The saved keys -/

/-- The keystore of every node still holds the keys an external launch saved. -/
def Kept (s : St HoprKeys Content) : Prop :=
  ∀ i k, s.saved i = some k → ∃ c pw, s.keystores i = some c ∧ fmt.readEthKeystore c pw = some k

/-- The step is not one of a managed launch that makes keys other than the saved ones. -/
def Harmless (s : St HoprKeys Content) : Label HoprKeys Content → Prop
  | .keys draw _ =>
    ∀ args id k, s.phase = .generating args id → id < effectiveNumNodes (generationConfig args) →
      args.chainUrl = none → s.saved id = some k →
      newKeys table (generationConfig args) id draw = k
  | _ => True

theorem Kept.of_eq {s s' : St HoprKeys Content} (hk : Kept fmt s)
    (hf : s'.keystores = s.keystores) (hs : s'.saved = s.saved) : Kept fmt s' := by
  unfold Kept
  rw [hf, hs]
  exact hk

/-- An external launch keeps what is saved and adds what it writes. -/
theorem withKeys_external {s : St HoprKeys Content} (hk : Kept fmt s) {args : Args} {id : Nat}
    {keys draw : HoprKeys} {salt : Nat} {c : Content} (hurl : args.chainUrl.isSome)
    (h : nodeKeys fmt table (generationConfig args) id (s.keystores id) draw salt =
      some (keys, c)) :
    Kept fmt (s.withKeys args id keys c) := by
  have hreuse : (generationConfig args).reuseIdentities = true := hurl
  cases hfile : s.keystores id with
  | some c' =>
    -- read, not written
    rw [hfile, nodeKeys_reuse fmt table hreuse, Option.map_eq_some_iff] at h
    obtain ⟨k, -, hkc⟩ := h
    have hc : c' = c := congrArg Prod.snd hkc
    intro i k' hsaved
    have hsaved : s.saved i = some k' := by
      simpa only [St.withKeys, hfile, Option.isNone_some, Bool.false_eq_true, and_false,
        if_false] using hsaved
    obtain ⟨d, pw, hd, hread⟩ := hk i k' hsaved
    refine ⟨d, pw, ?_, hread⟩
    show update s.keystores id (some c) i = some d
    by_cases hi : i = id
    · subst hi
      rw [update_self, ← hc, ← hfile]
      exact hd
    · rw [update_of_ne hi]
      exact hd
  | none =>
    rw [hfile, nodeKeys_absent] at h
    simp only [Option.some.injEq, Prod.mk.injEq] at h
    obtain ⟨hkeys, hc⟩ := h
    intro i k' hsaved
    have hsaved : update s.saved id (some keys) i = some k' := by
      simpa only [St.withKeys, hfile, Option.isNone_none, hurl, and_self, if_true] using hsaved
    show ∃ d pw, update s.keystores id (some c) i = some d ∧ _
    by_cases hi : i = id
    · subst hi
      rw [update_self] at hsaved
      have hk' := Option.some.inj hsaved
      refine ⟨c, (generationConfig args).identityPassword, update_self _ _ _, ?_⟩
      rw [← hc, ← hk', ← hkeys]
      exact fmt.read_write _ _ _
    · rw [update_of_ne hi] at hsaved ⊢
      exact hk i k' hsaved

/-- A managed launch writes its own keys: what is saved is kept exactly when they are
the saved ones. -/
theorem withKeys_managed_iff {s : St HoprKeys Content} (hk : Kept fmt s) {args : Args} {id : Nat}
    {draw : HoprKeys} {salt : Nat} (hurl : args.chainUrl = none) :
    Kept fmt (s.withKeys args id (newKeys table (generationConfig args) id draw)
        (fmt.writeEthKeystore (newKeys table (generationConfig args) id draw)
          (generationConfig args).identityPassword salt)) ↔
      ∀ k, s.saved id = some k → newKeys table (generationConfig args) id draw = k := by
  generalize newKeys table (generationConfig args) id draw = keys
  generalize (generationConfig args).identityPassword = pw
  have hsaved_eq :
      (s.withKeys args id keys (fmt.writeEthKeystore keys pw salt)).saved = s.saved := by
    simp only [St.withKeys, hurl, Option.isSome_none, Bool.false_eq_true, false_and, if_false]
  have hown : update s.keystores id (some (fmt.writeEthKeystore keys pw salt)) id =
      some (fmt.writeEthKeystore keys pw salt) := update_self _ _ _
  constructor
  · intro h k hsaved
    obtain ⟨c, pw', hc, hread⟩ := h id k (hsaved_eq ▸ hsaved)
    have hc : update s.keystores id (some (fmt.writeEthKeystore keys pw salt)) id = some c := hc
    rw [hown] at hc
    rw [← Option.some.inj hc] at hread
    exact fmt.read_unique _ _ _ _ _ (fmt.read_write keys pw salt) hread
  · intro h i k hsaved
    rw [hsaved_eq] at hsaved
    show ∃ c pw', update s.keystores id (some (fmt.writeEthKeystore keys pw salt)) i = some c ∧ _
    by_cases hi : i = id
    · subst hi
      refine ⟨_, pw, hown, ?_⟩
      rw [fmt.read_write, h k hsaved]
    · rw [update_of_ne hi]
      exact hk i k hsaved

theorem harmless_keys_iff {s : St HoprKeys Content} {args : Args} {id : Nat}
    (hph : s.phase = .generating args id) (hid : id < effectiveNumNodes (generationConfig args))
    (draw : HoprKeys) (salt : Nat) :
    Harmless table s (.keys draw salt) ↔
      (args.chainUrl = none → ∀ k, s.saved id = some k →
        newKeys table (generationConfig args) id draw = k) := by
  constructor
  · intro hh hurl k hsaved
    exact hh args id k hph hid hurl hsaved
  · intro hh a j k hpha _ hurl hsaved
    rw [hph] at hpha
    cases hpha
    exact hh hurl k hsaved

theorem keys_kept_iff {s s' : St HoprKeys Content} (hk : Kept fmt s) {draw : HoprKeys} {salt : Nat}
    (h : step fmt table s (.keys draw salt) = some s') :
    Kept fmt s' ↔ Harmless table s (.keys draw salt) := by
  obtain ⟨args, id, hph, hid, hkeys⟩ := keys_cases fmt table h
  rw [harmless_keys_iff table hph hid]
  cases hurl : args.chainUrl with
  | some url =>
    have hsome : args.chainUrl.isSome := by rw [hurl]; rfl
    have hkept : Kept fmt s' := by
      obtain ⟨-, rfl⟩ | ⟨keys, c, hkeys, rfl⟩ := hkeys
      · exact hk.of_eq fmt rfl rfl
      · exact withKeys_external fmt table hk hsome hkeys
    simp only [hkept, reduceCtorEq, false_implies]
  | none =>
    have hreuse : (generationConfig args).reuseIdentities = false := by
      unfold generationConfig
      simp only [hurl, Option.isSome_none]
    rw [nodeKeys_managed fmt table hreuse] at hkeys
    obtain ⟨hnone, -⟩ | ⟨keys, c, hmade, rfl⟩ := hkeys
    · cases hnone
    · cases hmade
      rw [withKeys_managed_iff fmt table hk hurl]
      simp only [true_implies]

/-- A step other than `keys` keeps what is saved. -/
theorem other_kept {s s' : St HoprKeys Content} (hk : Kept fmt s) {l : Label HoprKeys Content}
    (hl : ∀ draw salt, l ≠ .keys draw salt) (h : step fmt table s l = some s') : Kept fmt s' := by
  cases l with
  | keys draw salt => exact absurd rfl (hl draw salt)
  | edit i c =>
    simp only [step, Option.some.injEq] at h
    subst h
    intro j k hsaved
    show ∃ d pw, update s.keystores i c j = some d ∧ _
    have hsaved : update s.saved i none j = some k := hsaved
    by_cases hj : j = i
    · subst hj
      rw [update_self] at hsaved
      cases hsaved
    · rw [update_of_ne hj] at hsaved ⊢
      exact hk j k hsaved
  | _ =>
    simp only [step] at h
    repeat' split at h
    all_goals
      cases h <;> exact hk.of_eq fmt rfl rfl

/-- From a state whose saved keystores are kept, a step keeps them exactly when it is
harmless. -/
theorem kept_step_iff {s s' : St HoprKeys Content} (hk : Kept fmt s) {l : Label HoprKeys Content}
    (h : step fmt table s l = some s') : Kept fmt s' ↔ Harmless table s l := by
  cases l with
  | keys draw salt => exact keys_kept_iff fmt table hk h
  | _ => exact ⟨fun _ => trivial, fun _ => other_kept fmt table hk (fun _ _ he => by cases he) h⟩

theorem kept_inductive : ((system fmt table).restrict (Harmless table)).Inductive (Kept fmt) where
  init s h := by
    intro i k hsaved
    rw [h.1 i] at hsaved
    cases hsaved
  step _ _ _ hk h := (kept_step_iff fmt table hk h.1).2 h.2

/-- **Saved keystores are kept** in every run whose steps are all harmless, and the
first step that is not replaces one; launches on an external chain replace nothing in
any run. -/
theorem keystores_kept :
    (∀ s, ((system fmt table).restrict (Harmless table)).Reachable s →
      Kept fmt s ∧ ∀ l s', step fmt table s l = some s' → ¬Harmless table s l → ¬Kept fmt s') ∧
    ∀ s, (system fmt table).Reachable s → ExternalSafe fmt table s := by
  refine ⟨?_, fun s _ => externalSafe fmt table s⟩
  intro s hr
  have hk := (kept_inductive fmt table).reachable s hr
  refine ⟨hk, ?_⟩
  intro l s' h hharm hk'
  exact hharm ((kept_step_iff fmt table hk h).1 hk')

end Model

/-! ## A managed launch after an external one -/

/-- Keys are numbers; a keystore is its keys under its password. -/
def plainFormat : Format Nat (Nat × String) where
  writeEthKeystore k pw _ := (k, pw)
  readEthKeystore c pw := if c.2 = pw then some c.1 else none
  read_write k pw _ := if_pos rfl
  read_unique c pw pw' k k' h h' := by
    split at h <;> cases h
    split at h' <;> cases h'
    rfl

def plainTable : KeyTable Nat where
  frozenHoprKeys id := id
  address keys := toString keys

def externalArgs : Args := ⟨some "http://chain:8080", 1, "password", false⟩

def managedArgs : Args := ⟨none, 1, "password", false⟩

def emptyDir : St Nat (Nat × String) := ⟨fun _ => none, fun _ => none, fun _ => none, .idle⟩

/-- An external launch saves keys 7 for node 0 and ends; a managed launch follows and
draws keys 8. -/
def replacingRun : List (Label Nat (Nat × String)) :=
  [.launch externalArgs, .clear, .keys 7 0, .exit, .launch managedArgs] ++
    List.replicate 11 .clear ++ [.keys 8 0]

/-- The managed launch replaces the keystore the external launch saved. -/
theorem managed_launch_replaces :
    ¬∀ s, (system plainFormat plainTable).Reachable s →
      Kept plainFormat s ∧ ExternalSafe plainFormat plainTable s := by
  intro h
  obtain ⟨s, hs⟩ : ∃ s, LTS.exec (step plainFormat plainTable) emptyDir replacingRun = some s ∧
      s.saved 0 = some 7 ∧ s.keystores 0 = some (8, "password") := ⟨_, rfl, rfl, rfl⟩
  obtain ⟨hexec, hsaved, hfile⟩ := hs
  have hr : (system plainFormat plainTable).Reachable s :=
    LTS.reachable_of_exec emptyDir replacingRun ⟨fun _ => rfl, rfl⟩ hexec
  obtain ⟨c, pw, hc, hread⟩ := (h s hr).1 0 7 hsaved
  rw [hfile] at hc
  cases hc
  simp [plainFormat] at hread

end Hoprd.Keystores
