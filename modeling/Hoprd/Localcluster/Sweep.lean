import Hoprd.Core.JsonTree
import Hoprd.Localcluster.Keystores

/-!
# Emptying a kept cluster (`localcluster/src/sweep.rs`)

Launches on an external chain fill a directory: `node_id_<i>.id` before anything is funded,
then the Safe of the node, then `hoprd_cfg_<i>.yaml` with its addresses. Each can end at any
step, in the middle of a file too. A sweep reads the directory, node after node, and moves
what each Safe holds to one address: the keys of the node sign, the Safe pays. The two may
run at the same time, and nobody else writes the directory.

**The chain (`Chain.Documented`, a hypothesis about it and its connectors).**
* An owner that has a Safe keeps it.
* `withdraw` moves the amount from the Safe of the module to the recipient, and nothing else.

Every other transaction, those of a launch included, does to the balances what it likes.

**Files (`ConfigFormat`).** A configuration is written from its beginning on, and a beginning
of it gives no address but those that the whole gives.

* `DirInv`: the nodes of the directory are the first ones, all but perhaps the last with a
  configuration, and a configuration names the Safe of the keys next to it.
* `launchStep_ok`: launches keep this, and leave a sweep its Safes (`Quiet`).
-/
namespace Hoprd.SweepSafes

open Core
open Hoprd.Keystores (Format KeyTable Args generationConfig effectiveNumNodes maxNumNodes nodeKeys)
open Function (update update_self update_of_ne)

/-- A Safe and the module through which its owner spends. -/
structure SafeModule (Address : Type) where
  safeAddress : Address
  moduleAddress : Address

/-- mirrors localcluster/src/sweep.rs:29-36 -/
structure KeptNode (Address : Type) where
  id : Nat
  safe : Address
  module : Address

/-- `noConfig i`: `node_id_<i>.id` exists but `hoprd_cfg_<i>.yaml` does not. -/
inductive KeptError where
  | noConfig (id : Nat)
  | parsing (id : Nat)
  | missing (id : Nat) (key : String)
  | address (id : Nat) (key : String)
  | noNodes
  deriving DecidableEq, Repr

/-- The parsed value at `hopr.safe_module.<key>`. -/
def safeModulePath (key : String) : List Json.Step := [.key "hopr", .key "safe_module", .key key]

/-- YAML, addresses and their texts. A node's configuration is written from its Safe and
`Rest`, all the other settings; `beginning n` is what is there of it after `n` bytes. -/
structure ConfigFormat (Address Yaml Rest : Type) where
  toYaml : Rest → SafeModule Address → Yaml
  beginning : Nat → Yaml → Yaml
  fromYaml : Yaml → Option Json
  display : Address → String
  fromStr : String → Option Address
  fromStr_display : ∀ a, fromStr (display a) = some a
  fromYaml_toYaml : ∀ rest safe, ∃ value, fromYaml (toYaml rest safe) = some value ∧
    Json.valueAt (safeModulePath "safe_address") value = some (.str (display safe.safeAddress)) ∧
    Json.valueAt (safeModulePath "module_address") value =
      some (.str (display safe.moduleAddress))
  fromYaml_beginning : ∀ n rest safe value, fromYaml (beginning n (toYaml rest safe)) = some value →
    ∀ text a, fromStr text = some a →
      (Json.valueAt (safeModulePath "safe_address") value = some (.str text) →
        a = safe.safeAddress) ∧
      (Json.valueAt (safeModulePath "module_address") value = some (.str text) →
        a = safe.moduleAddress)

/-- The chain and the connectors to it: the Safe that is known for an owner, by the text of its
address, and the wxHOPR of every address. `withdraw` is that of a connector with the keys of an
owner and a module, `others` any transaction that is not a sweep's. -/
structure Chain (Address : Type) where
  State : Type
  Tx : Type
  safes : State → String → Option (SafeModule Address)
  hopr : State → Address → Nat
  others : State → Tx → Option State
  withdraw : State → String → Address → Address → Nat → Option State

/-- `amount` goes from `a` to `b`. -/
def paid {Address : Type} [DecidableEq Address] (hopr : Address → Nat) (a b : Address)
    (amount : Nat) : Address → Nat :=
  let rest := update hopr a (hopr a - amount)
  update rest b (rest b + amount)

/-- See the header. -/
structure Chain.Documented {Address : Type} [DecidableEq Address] (chain : Chain Address) :
    Prop where
  others_safes : ∀ {st st' tx owner safe}, chain.others st tx = some st' →
    chain.safes st owner = some safe → chain.safes st' owner = some safe
  withdraw_safes : ∀ {st st' signer module recipient amount owner safe},
    chain.withdraw st signer module recipient amount = some st' →
    chain.safes st owner = some safe → chain.safes st' owner = some safe
  withdraw_pays : ∀ {st st' owner recipient amount safe}, chain.safes st owner = some safe →
    chain.withdraw st owner safe.moduleAddress recipient amount = some st' →
    amount ≤ chain.hopr st safe.safeAddress ∧
      chain.hopr st' = paid (chain.hopr st) safe.safeAddress recipient amount

section Model

variable {HoprKeys Content Address Yaml Rest : Type}

/-- mirrors localcluster/src/sweep.rs:57-68 -/
def parseKey (cfg : ConfigFormat Address Yaml Rest) (id : Nat) (value : Json) (key : String) :
    Except KeptError Address :=
  match Json.valueAt (safeModulePath key) value with
  | some (.str s) =>
    match cfg.fromStr s with
    | some a => .ok a
    | none => .error (.address id key)
  | _ => .error (.missing id key)

/-- One turn of the loop over the ids; `none` skips the id.
mirrors localcluster/src/sweep.rs:41-75 -/
def keptNode (cfg : ConfigFormat Address Yaml Rest) (id : Nat) (keystore : Option Content)
    (config : Option Yaml) : Except KeptError (Option (KeptNode Address)) :=
  match keystore, config with
  | none, _ => .ok none
  | some _, none => .error (.noConfig id)
  | some _, some yaml =>
    match cfg.fromYaml yaml with
    | none => .error (.parsing id)
    | some value => do
      let safe ← parseKey cfg id value "safe_address"
      let module ← parseKey cfg id value "module_address"
      pure (some ⟨id, safe, module⟩)

/-- The ids a sweep looks at.
mirrors localcluster/src/sweep.rs:41 -/
def numSweptIds : Nat := 16

structure Dir (Content Yaml : Type) where
  keystores : Nat → Option Content
  configs : Nat → Option Yaml

/-- Where `generate` is: before `node_keys(id)`, after it, once the Safe is there, and while
the configuration is being written. -/
inductive LaunchPhase (HoprKeys Address Rest : Type) where
  | idle
  | node (args : Args) (id : Nat)
  | keyed (args : Args) (id : Nat) (keys : HoprKeys)
  | housed (args : Args) (id : Nat) (keys : HoprKeys) (safe : SafeModule Address)
  | writing (args : Args) (id : Nat) (keys : HoprKeys) (safe : SafeModule Address) (rest : Rest)

inductive SweepError where
  | kept (e : KeptError)
  | keystore (id : Nat)
  | connector (id : Nat)
  | submitting (id : Nat)
  | confirming (id : Nat)
  deriving DecidableEq, Repr

/-- A node, the Safe its configuration names, and an amount. -/
abbrev Line (Address : Type) := Nat × Address × Nat

/-- `moved` is the report so far. In `withdrawing` the balance of the Safe of `node` has been
read and is not nothing. -/
inductive SweepPhase (Address : Type) where
  | reading (id : Nat) (nodes : List (KeptNode Address))
  | sweeping (past rest : List (KeptNode Address)) (moved : List (Line Address))
  | withdrawing (past : List (KeptNode Address)) (node : KeptNode Address) (owner : String)
      (balance : Nat) (rest : List (KeptNode Address)) (moved : List (Line Address))
  | finished (nodes : List (KeptNode Address)) (moved : List (Line Address))
  | failed (e : SweepError) (moved : List (Line Address))

/-- Beside what the sweep holds: the nodes whose keystore was there when it began, the
directory as it was at its last look, the balances it has read that were not nothing, the
withdrawals that the chain has executed, and one that it may still execute. -/
structure Sweep (Content Address Yaml : Type) where
  recipient : Address
  password : String
  held : Nat → Bool
  seen : Dir Content Yaml
  found : List (Line Address)
  sent : List (Line Address)
  pending : Option (KeptNode Address × String × Nat)
  phase : SweepPhase Address

/-- `fresh a` is what has come to `a` since a sweep last read its balance. -/
structure St (HoprKeys Content Yaml Rest : Type) {Address : Type} (chain : Chain Address) where
  dir : Dir Content Yaml
  ledger : chain.State
  launch : LaunchPhase HoprKeys Address Rest
  sweep : Option (Sweep Content Address Yaml)
  fresh : Address → Nat

/-- `cutKeys` is the write of a keystore that ends too early, `beginConfig` and `writeConfig`
leave the beginning of a configuration. A withdrawal that fails may be executed all the same,
then or later (`lands`). -/
inductive Label (HoprKeys Content Address Rest Tx : Type) where
  | launch (args : Args)
  | keys (draw : HoprKeys) (salt : Nat)
  | cutKeys (c : Content)
  | safe
  | beginConfig (rest : Rest)
  | writeConfig (n : Nat)
  | configure
  | exit
  | transaction (tx : Tx)
  | sweep (recipient : Address) (password : String)
  | read
  | visit
  | withdraw
  | withdrawFails (submitted : Bool)
  | lands
  | noConnector

section Steps

variable [DecidableEq Address] (chain : Chain Address)
  (fmt : Format HoprKeys Content) (table : KeyTable HoprKeys)
  (cfg : ConfigFormat Address Yaml Rest)

variable {chain} in
def St.writeKeystore (s : St HoprKeys Content Yaml Rest chain) (id : Nat) (c : Content) :
    St HoprKeys Content Yaml Rest chain :=
  { s with dir := { s.dir with keystores := update s.dir.keystores id (some c) } }

variable {chain} in
def St.writeConfig (s : St HoprKeys Content Yaml Rest chain) (id : Nat) (yaml : Yaml) :
    St HoprKeys Content Yaml Rest chain :=
  { s with dir := { s.dir with configs := update s.dir.configs id (some yaml) } }

variable {chain} in
/-- The launch on the external chain; `none` where the label does not apply. Its transactions
are labels of their own.
mirrors localcluster/src/identity.rs:998-1261 -/
def launchStep (s : St HoprKeys Content Yaml Rest chain) :
    Label HoprKeys Content Address Rest chain.Tx → Option (St HoprKeys Content Yaml Rest chain)
  | .launch args =>
    match s.launch with
    | .idle => if args.chainUrl.isSome then some { s with launch := .node args 0 } else none
    | _ => none
  | .keys draw salt =>
    match s.launch with
    | .node args id =>
      if id < effectiveNumNodes (generationConfig args) then
        match nodeKeys fmt table (generationConfig args) id (s.dir.keystores id) draw salt with
        | none => some { s with launch := .idle }
        | some (keys, c) => some { s.writeKeystore id c with launch := .keyed args id keys }
      else none
    | _ => none
  | .cutKeys c =>
    match s.launch with
    | .node args id =>
      if id < effectiveNumNodes (generationConfig args) ∧ (s.dir.keystores id).isNone then
        some { s.writeKeystore id c with launch := .idle }
      else none
    | _ => none
  | .safe =>
    match s.launch with
    | .keyed args id keys =>
      (chain.safes s.ledger (table.address keys)).map fun safe =>
        { s with launch := .housed args id keys safe }
    | _ => none
  | .beginConfig rest =>
    match s.launch with
    | .housed args id keys safe =>
      some { s.writeConfig id (cfg.beginning 0 (cfg.toYaml rest safe)) with
        launch := .writing args id keys safe rest }
    | _ => none
  | .writeConfig n =>
    match s.launch with
    | .writing _ id _ safe rest => some (s.writeConfig id (cfg.beginning n (cfg.toYaml rest safe)))
    | _ => none
  | .configure =>
    match s.launch with
    | .writing args id _ safe rest =>
      some { s.writeConfig id (cfg.toYaml rest safe) with launch := .node args (id + 1) }
    | _ => none
  | .exit =>
    match s.launch with
    | .idle => none
    | _ => some { s with launch := .idle }
  | _ => none

variable {chain} in
/-- The sweep goes on in another phase. -/
def St.sweepOn (s : St HoprKeys Content Yaml Rest chain) (sw : Sweep Content Address Yaml)
    (phase : SweepPhase Address) : St HoprKeys Content Yaml Rest chain :=
  { s with sweep := some { sw with phase := phase } }

variable {chain} in
/-- The chain executes a withdrawal of the sweep. -/
def St.executed (s : St HoprKeys Content Yaml Rest chain) (sw : Sweep Content Address Yaml)
    (node : KeptNode Address) (balance : Nat) (ledger : chain.State) (phase : SweepPhase Address) :
    St HoprKeys Content Yaml Rest chain :=
  { s with
    ledger := ledger
    fresh := update s.fresh sw.recipient (s.fresh sw.recipient + balance)
    sweep := some { sw with
      sent := sw.sent ++ [(node.id, node.safe, balance)]
      pending := none
      phase := phase } }

variable {chain} in
/-- One step of the sweep; `none` where the label does not apply.
mirrors localcluster/src/sweep.rs:38-131 -/
def sweepStep (s : St HoprKeys Content Yaml Rest chain) (sw : Sweep Content Address Yaml) :
    Label HoprKeys Content Address Rest chain.Tx → Option (St HoprKeys Content Yaml Rest chain)
  | .read =>
    match sw.phase with
    | .reading id nodes =>
      let sw := { sw with seen := s.dir }
      if id < numSweptIds then
        match keptNode cfg id (s.dir.keystores id) (s.dir.configs id) with
        | .error e => some (s.sweepOn sw (.failed (.kept e) []))
        | .ok node => some (s.sweepOn sw (.reading (id + 1) (nodes ++ node.toList)))
      else if nodes = [] then some (s.sweepOn sw (.failed (.kept .noNodes) []))
      else some (s.sweepOn sw (.sweeping [] nodes []))
    | _ => none
  | .visit =>
    match sw.phase with
    | .sweeping past [] moved => some (s.sweepOn sw (.finished past moved))
    | .sweeping past (node :: rest) moved =>
      match (s.dir.keystores node.id).bind (fmt.readEthKeystore · sw.password) with
      | none => some (s.sweepOn sw (.failed (.keystore node.id) moved))
      | some keys =>
        let s := { s with fresh := update s.fresh node.safe 0 }
        let balance := chain.hopr s.ledger node.safe
        if balance = 0 then some (s.sweepOn sw (.sweeping (past ++ [node]) rest moved))
        else
          some (s.sweepOn { sw with found := sw.found ++ [(node.id, node.safe, balance)] }
            (.withdrawing past node (table.address keys) balance rest moved))
    | _ => none
  | .withdraw =>
    match sw.phase with
    | .withdrawing past node owner balance rest moved =>
      (chain.withdraw s.ledger owner node.module sw.recipient balance).map fun ledger =>
        s.executed sw node balance ledger
          (.sweeping (past ++ [node]) rest (moved ++ [(node.id, node.safe, balance)]))
    | _ => none
  | .withdrawFails submitted =>
    match sw.phase with
    | .withdrawing _ node owner balance _ moved =>
      let e := if submitted then SweepError.confirming node.id else .submitting node.id
      some (s.sweepOn { sw with pending := some (node, owner, balance) } (.failed e moved))
    | _ => none
  | .lands =>
    match sw.pending with
    | some (node, owner, balance) =>
      (chain.withdraw s.ledger owner node.module sw.recipient balance).map fun ledger =>
        s.executed sw node balance ledger sw.phase
    | none => none
  | .noConnector =>
    match sw.phase with
    | .sweeping _ (node :: _) moved => some (s.sweepOn sw (.failed (.connector node.id) moved))
    | _ => none
  | _ => none

/-- No sweep, or one that is over. -/
def noSweep : Option (Sweep Content Address Yaml) → Bool
  | none => true
  | some sw =>
    match sw.phase with
    | .finished .. | .failed .. => true
    | _ => false

variable {chain} in
/-- What a sweep begins with. -/
def newSweep (s : St HoprKeys Content Yaml Rest chain) (recipient : Address) (password : String) :
    Sweep Content Address Yaml where
  recipient := recipient
  password := password
  held i := (s.dir.keystores i).isSome
  seen := s.dir
  found := []
  sent := []
  pending := none
  phase := .reading 0 []

variable {chain} in
/-- What comes in with a transaction is fresh. -/
def St.after (s : St HoprKeys Content Yaml Rest chain) (ledger : chain.State) :
    St HoprKeys Content Yaml Rest chain :=
  { s with
    ledger := ledger
    fresh := fun a => s.fresh a + (chain.hopr ledger a - chain.hopr s.ledger a) }

variable {chain} in
def step (s : St HoprKeys Content Yaml Rest chain) :
    Label HoprKeys Content Address Rest chain.Tx → Option (St HoprKeys Content Yaml Rest chain)
  | .transaction tx => (chain.others s.ledger tx).map s.after
  | .sweep recipient password =>
    if noSweep s.sweep then some { s with sweep := some (newSweep s recipient password) } else none
  | .read => s.sweep.bind fun sw => sweepStep fmt table cfg s sw .read
  | .visit => s.sweep.bind fun sw => sweepStep fmt table cfg s sw .visit
  | .withdraw => s.sweep.bind fun sw => sweepStep fmt table cfg s sw .withdraw
  | .withdrawFails submitted =>
    s.sweep.bind fun sw => sweepStep fmt table cfg s sw (.withdrawFails submitted)
  | .lands => s.sweep.bind fun sw => sweepStep fmt table cfg s sw .lands
  | .noConnector => s.sweep.bind fun sw => sweepStep fmt table cfg s sw .noConnector
  | l => launchStep fmt table cfg s l

/-- An empty directory on any chain, before the first launch. -/
def system : LTS (St HoprKeys Content Yaml Rest chain)
    (Label HoprKeys Content Address Rest chain.Tx) :=
  .ofFn (fun s => (∀ i, s.dir.keystores i = none) ∧ (∀ i, s.dir.configs i = none) ∧
    s.launch = .idle ∧ s.sweep = none) (step fmt table cfg)

end Steps

/-! ## The directory -/

variable {chain : Chain Address} (fmt : Format HoprKeys Content) (table : KeyTable HoprKeys)
  (cfg : ConfigFormat Address Yaml Rest)

/-- The file holds these keys. -/
def Holds (dir : Dir Content Yaml) (i : Nat) (keys : HoprKeys) : Prop :=
  ∃ c password, dir.keystores i = some c ∧ fmt.readEthKeystore c password = some keys

/-- The keystore of node `i` holds keys for which the chain has this Safe. -/
def Owns (s : St HoprKeys Content Yaml Rest chain) (i : Nat) (safe : SafeModule Address) : Prop :=
  ∃ keys, Holds fmt s.dir i keys ∧ chain.safes s.ledger (table.address keys) = some safe

/-- The nodes before `id` have their configurations. -/
def Configured (dir : Dir Content Yaml) (id : Nat) : Prop := ∀ j, j < id → (dir.configs j).isSome

def LaunchInv (s : St HoprKeys Content Yaml Rest chain) :
    LaunchPhase HoprKeys Address Rest → Prop
  | .idle => True
  | .node args id => args.chainUrl.isSome ∧ Configured s.dir id
  | .keyed args id keys => args.chainUrl.isSome ∧ Configured s.dir id ∧ Holds fmt s.dir id keys
  | .housed args id keys safe | .writing args id keys safe _ =>
    args.chainUrl.isSome ∧ Configured s.dir id ∧ Holds fmt s.dir id keys ∧
      chain.safes s.ledger (table.address keys) = some safe

/-- `n` nodes have a keystore, all or all but the last of them a configuration. -/
structure Counts (dir : Dir Content Yaml) (n m : Nat) : Prop where
  keystores : ∀ i, (dir.keystores i).isSome ↔ i < n
  configs : ∀ i, (dir.configs i).isSome ↔ i < m
  le : m ≤ n
  last : n ≤ m + 1
  max : n ≤ maxNumNodes

/-- The file is the configuration for this Safe, or a beginning of it. -/
def Written (yaml : Yaml) (safe : SafeModule Address) : Prop :=
  ∃ rest, yaml = cfg.toYaml rest safe ∨ ∃ n, yaml = cfg.beginning n (cfg.toYaml rest safe)

structure DirInv (s : St HoprKeys Content Yaml Rest chain) : Prop where
  counts : ∃ n m, Counts s.dir n m
  named : ∀ i yaml, s.dir.configs i = some yaml →
    ∃ safe, Written cfg yaml safe ∧ Owns fmt table s i safe
  launch : LaunchInv fmt table s s.launch

/-- What is there stays: keystores, configurations (which may be written again) and Safes. -/
structure Grown (s s' : St HoprKeys Content Yaml Rest chain) : Prop where
  keystores : ∀ i c, s.dir.keystores i = some c → s'.dir.keystores i = some c
  configs : ∀ i, (s.dir.configs i).isSome → (s'.dir.configs i).isSome
  safes : ∀ owner safe, chain.safes s.ledger owner = some safe →
    chain.safes s'.ledger owner = some safe

variable {fmt table cfg} {s s' : St HoprKeys Content Yaml Rest chain}

theorem Grown.of_same (hd : s'.dir = s.dir) (hl : s'.ledger = s.ledger) : Grown s s' := by
  refine ⟨?_, ?_, ?_⟩
  · rw [hd]
    exact fun _ _ h => h
  · rw [hd]
    exact fun _ h => h
  · rw [hl]
    exact fun _ _ h => h

theorem Grown.holds (hg : Grown s s') {i : Nat} {keys : HoprKeys} (h : Holds fmt s.dir i keys) :
    Holds fmt s'.dir i keys := by
  obtain ⟨c, password, hc, hread⟩ := h
  exact ⟨c, password, hg.keystores i c hc, hread⟩

theorem Grown.owns (hg : Grown s s') {i : Nat} {safe : SafeModule Address}
    (h : Owns fmt table s i safe) : Owns fmt table s' i safe := by
  obtain ⟨keys, hkeys, hsafe⟩ := h
  exact ⟨keys, hg.holds hkeys, hg.safes _ _ hsafe⟩

theorem Grown.configured (hg : Grown s s') {id : Nat} (h : Configured s.dir id) :
    Configured s'.dir id :=
  fun j hj => hg.configs j (h j hj)

theorem Holds.unique {dir : Dir Content Yaml} {i : Nat} {keys keys' : HoprKeys}
    (h : Holds fmt dir i keys) (h' : Holds fmt dir i keys') : keys = keys' := by
  obtain ⟨c, password, hc, hread⟩ := h
  obtain ⟨c', password', hc', hread'⟩ := h'
  rw [hc] at hc'
  obtain rfl := Option.some.inj hc'
  exact fmt.read_unique c password password' keys keys' hread hread'

/-- Keys lead to one Safe. -/
theorem Owns.unique {i : Nat} {safe safe' : SafeModule Address} (h : Owns fmt table s i safe)
    (h' : Owns fmt table s i safe') : safe = safe' := by
  obtain ⟨keys, hkeys, hsafe⟩ := h
  obtain ⟨keys', hkeys', hsafe'⟩ := h'
  obtain rfl := hkeys.unique hkeys'
  rw [hsafe] at hsafe'
  exact Option.some.inj hsafe'

/-- What the configurations and the launch say stays true when they are the same and
everything else has grown. -/
theorem DirInv.of_grown (hi : DirInv fmt table cfg s) (hg : Grown s s') (hd : s'.dir = s.dir)
    (hl : LaunchInv fmt table s' s'.launch) : DirInv fmt table cfg s' := by
  refine ⟨?_, ?_, hl⟩
  · rw [hd]
    exact hi.counts
  · intro i yaml hyaml
    rw [hd] at hyaml
    obtain ⟨safe, hwritten, howns⟩ := hi.named i yaml hyaml
    exact ⟨safe, hwritten, hg.owns howns⟩

theorem launchInv_grown (hg : Grown s s') {phase : LaunchPhase HoprKeys Address Rest}
    (h : LaunchInv fmt table s phase) : LaunchInv fmt table s' phase := by
  cases phase with
  | idle => trivial
  | node args id => exact ⟨h.1, hg.configured h.2⟩
  | keyed args id keys =>
    obtain ⟨hurl, hcfg, hkeys⟩ := h
    exact ⟨hurl, hg.configured hcfg, hg.holds hkeys⟩
  | housed args id keys safe | writing args id keys safe rest =>
    obtain ⟨hurl, hcfg, hkeys, hsafe⟩ := h
    exact ⟨hurl, hg.configured hcfg, hg.holds hkeys, hg.safes _ _ hsafe⟩

/-- The directory has grown, every address has at most what it had and what came in, and no
sweep took a step. -/
structure Quiet (s s' : St HoprKeys Content Yaml Rest chain) : Prop extends Grown s s' where
  covered : ∀ a d, chain.hopr s.ledger a ≤ d + s.fresh a →
    chain.hopr s'.ledger a ≤ d + s'.fresh a
  sweep : s'.sweep = s.sweep

theorem Quiet.of_chain (hg : Grown s s') (hl : s'.ledger = s.ledger) (hf : s'.fresh = s.fresh)
    (hs : s'.sweep = s.sweep) : Quiet s s' where
  toGrown := hg
  covered a d h := by
    rw [hl, hf]
    exact h
  sweep := hs

/-! ## Steps of launches and of others -/

/-- A launch on an external chain reads the keystore that is there, and writes one only where
there is none. -/
theorem nodeKeys_external {args : Args} (hurl : args.chainUrl.isSome) {id salt : Nat}
    {file : Option Content} {draw keys : HoprKeys} {c : Content}
    (h : nodeKeys fmt table (generationConfig args) id file draw salt = some (keys, c)) :
    (∃ password, fmt.readEthKeystore c password = some keys) ∧ ∀ d, file = some d → d = c := by
  have hreuse : (generationConfig args).reuseIdentities = true := hurl
  cases file with
  | some d =>
    rw [Keystores.nodeKeys_reuse fmt table hreuse, Option.map_eq_some_iff] at h
    obtain ⟨k, hread, hkc⟩ := h
    obtain ⟨rfl, rfl⟩ := Prod.mk.injEq .. ▸ hkc
    exact ⟨⟨_, hread⟩, fun _ he => (Option.some.inj he).symm⟩
  | none =>
    rw [Keystores.nodeKeys_absent, Option.some.injEq, Prod.mk.injEq] at h
    obtain ⟨rfl, rfl⟩ := h
    exact ⟨⟨_, fmt.read_write _ _ _⟩, nofun⟩

/-- A node with all those before it configured is one of those there, or the next one. -/
theorem Counts.le_of_configured {dir : Dir Content Yaml} {n m id : Nat} (hn : Counts dir n m)
    (h : Configured dir id) : id ≤ m := by
  rcases Nat.eq_zero_or_pos id with hzero | hpos
  · omega
  · have hlast := (hn.configs (id - 1)).1 (h (id - 1) (by omega))
    omega

/-- A keystore is written, for a node there or the next one after nodes that are all
configured. -/
theorem writeKeystore_ok (hi : DirInv fmt table cfg s) {args : Args} {id : Nat}
    (hph : s.launch = .node args id) (hid : id < effectiveNumNodes (generationConfig args))
    {c : Content} (hsame : ∀ d, s.dir.keystores id = some d → d = c)
    {phase : LaunchPhase HoprKeys Address Rest}
    (hphase : LaunchInv fmt table (s.writeKeystore id c) phase) :
    DirInv fmt table cfg { s.writeKeystore id c with launch := phase } ∧
      Quiet s { s.writeKeystore id c with launch := phase } := by
  have hbefore := hi.launch
  rw [hph] at hbefore
  have hg : Grown s { s.writeKeystore id c with launch := phase } := by
    refine ⟨?_, fun _ h => h, fun _ _ h => h⟩
    intro i d hd
    show update s.dir.keystores id (some c) i = some d
    by_cases hi : i = id
    · subst hi
      rw [update_self, hsame d hd]
    · rw [update_of_ne hi]
      exact hd
  refine ⟨⟨?_, ?_, ?_⟩, .of_chain hg rfl rfl rfl⟩
  · obtain ⟨n, m, hn⟩ := hi.counts
    have hm := hn.le_of_configured hbefore.2
    have hmax : id < maxNumNodes := by
      have hmin : effectiveNumNodes (generationConfig args) ≤ maxNumNodes := Nat.min_le_left _ _
      omega
    have hle := hn.le
    have hlast := hn.last
    have hcount := hn.max
    refine ⟨max n (id + 1), m, ?_, hn.configs, by omega, by omega, by omega⟩
    intro i
    show (update s.dir.keystores id (some c) i).isSome ↔ _
    by_cases hi : i = id
    · subst hi
      rw [update_self]
      exact iff_of_true rfl (by omega)
    · rw [update_of_ne hi, hn.keystores]
      omega
  · intro i yaml hyaml
    obtain ⟨safe, hwritten, howns⟩ := hi.named i yaml hyaml
    exact ⟨safe, hwritten, hg.owns howns⟩
  · exact launchInv_grown (.of_same rfl rfl) hphase

/-- A configuration is written, whole or the beginning of it. -/
theorem writeConfig_ok (hi : DirInv fmt table cfg s) {id : Nat} {keys : HoprKeys}
    {safe : SafeModule Address} (hcfg : Configured s.dir id) (hkeys : Holds fmt s.dir id keys)
    (hsafe : chain.safes s.ledger (table.address keys) = some safe) {yaml : Yaml}
    (hyaml : Written cfg yaml safe) {phase : LaunchPhase HoprKeys Address Rest}
    (hphase : LaunchInv fmt table (s.writeConfig id yaml) phase) :
    DirInv fmt table cfg { s.writeConfig id yaml with launch := phase } ∧
      Quiet s { s.writeConfig id yaml with launch := phase } := by
  have hthere : ∀ i, (update s.dir.configs id (some yaml) i).isSome ↔
      i = id ∨ (s.dir.configs i).isSome := by
    intro i
    by_cases hi : i = id
    · subst hi
      rw [update_self]
      simp
    · rw [update_of_ne hi]
      simp [hi]
  have hg : Grown s { s.writeConfig id yaml with launch := phase } :=
    ⟨fun _ _ h => h, fun i h => (hthere i).2 (.inr h), fun _ _ h => h⟩
  refine ⟨⟨?_, ?_, ?_⟩, .of_chain hg rfl rfl rfl⟩
  · obtain ⟨n, m, hn⟩ := hi.counts
    have hkey : id < n := by
      obtain ⟨c, -, hc, -⟩ := hkeys
      exact (hn.keystores id).1 (by rw [hc]; rfl)
    have hm := hn.le_of_configured hcfg
    have hle := hn.le
    have hlast := hn.last
    refine ⟨n, max m (id + 1), hn.keystores, ?_, by omega, by omega, hn.max⟩
    intro i
    refine (hthere i).trans ?_
    rw [hn.configs]
    omega
  · intro i file hfile
    have hfile : update s.dir.configs id (some yaml) i = some file := hfile
    by_cases hid : i = id
    · subst hid
      rw [update_self] at hfile
      obtain rfl := Option.some.inj hfile
      exact ⟨safe, hyaml, hg.owns ⟨keys, hkeys, hsafe⟩⟩
    · rw [update_of_ne hid] at hfile
      obtain ⟨safe', hwritten, howns⟩ := hi.named i file hfile
      exact ⟨safe', hwritten, hg.owns howns⟩
  · exact launchInv_grown (.of_same rfl rfl) hphase

theorem configured_writeConfig {id n : Nat} {yaml : Yaml} (hcfg : Configured s.dir id)
    (hn : n ≤ id + 1) : Configured (s.writeConfig id yaml).dir n := by
  intro j hj
  show (update s.dir.configs id (some yaml) j).isSome
  by_cases hid : j = id
  · rw [hid, update_self]
    rfl
  · rw [update_of_ne hid]
    exact hcfg j (by omega)

/-- A transaction adds to what is fresh all that comes in. -/
theorem quiet_after {ledger : chain.State}
    (hsafes : ∀ owner safe, chain.safes s.ledger owner = some safe →
      chain.safes ledger owner = some safe) : Quiet s (s.after ledger) where
  keystores _ _ h := h
  configs _ h := h
  safes := hsafes
  covered a d h := by
    show chain.hopr ledger a ≤ d + (s.fresh a + (chain.hopr ledger a - chain.hopr s.ledger a))
    omega
  sweep := rfl

theorem launchStep_ok (hi : DirInv fmt table cfg s)
    {l : Label HoprKeys Content Address Rest chain.Tx}
    (h : launchStep fmt table cfg s l = some s') : DirInv fmt table cfg s' ∧ Quiet s s' := by
  -- a launch that only moves on
  have hmoves : ∀ phase, LaunchInv fmt table s phase →
      DirInv fmt table cfg { s with launch := phase } ∧ Quiet s { s with launch := phase } := by
    intro phase hphase
    have hg : Grown s { s with launch := phase } := .of_same rfl rfl
    exact ⟨hi.of_grown hg rfl (launchInv_grown hg hphase), .of_chain hg rfl rfl rfl⟩
  have hphase := hi.launch
  cases l with
  | launch args =>
    simp only [launchStep] at h
    split at h
    · split at h
      · next hurl =>
        obtain rfl := Option.some.inj h
        exact hmoves _ ⟨hurl, fun _ hj => absurd hj (Nat.not_lt_zero _)⟩
      · cases h
    · cases h
  | keys draw salt =>
    simp only [launchStep] at h
    split at h
    · next args id hph =>
      rw [hph] at hphase
      split at h
      · next hid =>
        split at h
        · obtain rfl := Option.some.inj h
          exact hmoves .idle trivial
        · next keys c hkeys =>
          obtain rfl := Option.some.inj h
          obtain ⟨⟨password, hread⟩, hsame⟩ := nodeKeys_external hphase.1 hkeys
          refine writeKeystore_ok hi hph hid hsame ⟨hphase.1, hphase.2, c, password, ?_, hread⟩
          exact update_self _ _ _
      · cases h
    · cases h
  | cutKeys c =>
    simp only [launchStep] at h
    split at h
    · next args id hph =>
      split at h
      · next hwrites =>
        obtain rfl := Option.some.inj h
        refine writeKeystore_ok hi hph hwrites.1 ?_ trivial
        intro d hd
        have hnone := hwrites.2
        rw [hd] at hnone
        cases hnone
      · cases h
    · cases h
  | safe =>
    simp only [launchStep] at h
    split at h
    · next args id keys hph =>
      rw [hph] at hphase
      obtain ⟨safe, hsafe, rfl⟩ := Option.map_eq_some_iff.1 h
      exact hmoves _ ⟨hphase.1, hphase.2.1, hphase.2.2, hsafe⟩
    · cases h
  | beginConfig rest =>
    simp only [launchStep] at h
    split at h
    · next args id keys safe hph =>
      rw [hph] at hphase
      obtain ⟨hurl, hcfg, hkeys, hsafe⟩ := hphase
      obtain rfl := Option.some.inj h
      exact writeConfig_ok hi hcfg hkeys hsafe ⟨rest, .inr ⟨0, rfl⟩⟩
        ⟨hurl, configured_writeConfig hcfg (by omega), hkeys, hsafe⟩
    · cases h
  | writeConfig n =>
    simp only [launchStep] at h
    split at h
    · next args id keys safe rest hph =>
      rw [hph] at hphase
      obtain ⟨hurl, hcfg, hkeys, hsafe⟩ := hphase
      obtain rfl := Option.some.inj h
      refine writeConfig_ok hi hcfg hkeys hsafe ⟨rest, .inr ⟨n, rfl⟩⟩ ?_
      rw [hph]
      exact ⟨hurl, configured_writeConfig hcfg (by omega), hkeys, hsafe⟩
    · cases h
  | configure =>
    simp only [launchStep] at h
    split at h
    · next args id keys safe rest hph =>
      rw [hph] at hphase
      obtain ⟨hurl, hcfg, hkeys, hsafe⟩ := hphase
      obtain rfl := Option.some.inj h
      exact writeConfig_ok hi hcfg hkeys hsafe ⟨rest, .inl rfl⟩
        ⟨hurl, configured_writeConfig hcfg (Nat.le_refl _)⟩
    · cases h
  | exit =>
    simp only [launchStep] at h
    split at h
    · cases h
    · obtain rfl := Option.some.inj h
      exact hmoves .idle trivial
  | transaction | sweep | read | visit | withdraw | withdrawFails | lands | noConnector => cases h

end Model

end Hoprd.SweepSafes
