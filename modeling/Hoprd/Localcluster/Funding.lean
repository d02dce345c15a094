import Hoprd.Core.Except
import Hoprd.Core.LTS
import Mathlib.Logic.Function.Basic

/-!
# Funding nodes and Safes (`localcluster/src/identity.rs`, `generate`)

For each node, and each extra identity, `generate` brings the account to its xDai
target, deploys the Safe if there is none (the account brought to the wxHOPR target
`T` before, `T` moved into the Safe by the deployment), and with PIX brings a node's
Safe to its target. Every top-up reads the chain, checks the deployer and transfers
the difference. A run can be interrupted after any transaction and started again;
`sentToAccount` and `sentToSafe` add up what the deployer has sent over all runs.

* `Books`: after any number of interrupted runs, each of the two is nothing or
  exactly what the initial balances called for.
* `funding_exact`: after a completed run both are what was called for, and with PIX
  the Safe is at its target or above; a deployer that cannot pay a top-up ends the
  run with nothing sent.

Reads see every confirmed transaction, nobody else moves these funds, and a Safe
holds nothing before it is deployed. Fees are paid in xDai (`fees`).
-/
namespace Hoprd.Funding

open Core
open Function (update update_self update_of_ne)

/-- A cluster node, or an extra identity. -/
inductive Identity where
  | node (id : Nat)
  | extra (id : Nat)
  deriving DecidableEq, Repr

structure Purse where
  hopr : Nat
  native : Nat
  deriving DecidableEq, Repr

/-- The balances `generate` reads; `safe` is the balance of a deployed Safe. -/
structure Chain where
  deployer : Purse
  account : Identity → Purse
  safe : Identity → Option Nat

/-- The chain, and the wxHOPR the deployer has sent so far. -/
structure Ledger extends Chain where
  sentToAccount : Identity → Nat
  sentToSafe : Identity → Nat

/-- What the funding reads of the configuration and the environment. `pix` is the
`safe_deposit_float` of the PIX settings, `floatNodeIds` the nodes that get it.
mirrors localcluster/src/identity.rs:548-578, 857-895 -/
structure Config where
  initialTokenBalance : Nat
  initialNativeBalance : Nat
  pix : Option Nat
  floatNodeIds : Option (List Nat)

def maxNumNodes : Nat := 10
def maxExtraIdentities : Nat := 5

/-- mirrors localcluster/src/identity.rs:886-895 -/
def Config.pixSafeTargetFor (cfg : Config) (id : Nat) : Nat :=
  match cfg.floatNodeIds with
  | none => cfg.initialTokenBalance + cfg.pix.getD 0
  | some ids =>
    if id ∈ ids then cfg.initialTokenBalance + cfg.pix.getD 0 else cfg.initialTokenBalance

/-- The identities of a run, in order.
mirrors localcluster/src/identity.rs:903, 998, 1263-1275 -/
def identities (numNodes numExtras : Nat) : List Identity :=
  (List.range (min maxNumNodes (max 1 numNodes))).map .node ++
    (List.range (min numExtras maxExtraIdentities)).map .extra

/-- `Account {} must have at least {top_up}.`, and a deployment that the account cannot
cover. -/
inductive RunError where
  | mustHaveAtLeast (topUp : Nat)
  | deployFailed
  deriving DecidableEq, Repr

/-- The amount to transfer to bring `balance` to `target`.
mirrors localcluster/src/identity.rs:1037-1056, 1066-1086, 1141-1156 -/
def topUp (target balance deployer : Nat) : Except RunError Nat :=
  if balance < target then
    if deployer < target - balance then .error (.mustHaveAtLeast (target - balance))
    else .ok (target - balance)
  else .ok 0

/-- `withdraw` of wxHOPR by the deployer to the account of `id`. -/
def Ledger.payAccount (l : Ledger) (id : Identity) (amount : Nat) : Ledger :=
  { l with
    deployer := { l.deployer with hopr := l.deployer.hopr - amount }
    account := update l.account id
      { l.account id with hopr := (l.account id).hopr + amount }
    sentToAccount := update l.sentToAccount id (l.sentToAccount id + amount) }

/-- `withdraw` of wxHOPR by the deployer to the Safe of `id`, which holds `balance`. -/
def Ledger.paySafe (l : Ledger) (id : Identity) (balance amount : Nat) : Ledger :=
  { l with
    deployer := { l.deployer with hopr := l.deployer.hopr - amount }
    safe := update l.safe id (some (balance + amount))
    sentToSafe := update l.sentToSafe id (l.sentToSafe id + amount) }

/-- `withdraw` of xDai by the deployer to the account of `id`. -/
def Ledger.payNative (l : Ledger) (id : Identity) (amount : Nat) : Ledger :=
  { l with
    deployer := { l.deployer with native := l.deployer.native - amount }
    account := update l.account id
      { l.account id with native := (l.account id).native + amount } }

/-- `deploy_safe(T)`: `T` moves from the account into the new Safe. -/
def Ledger.deploySafe (l : Ledger) (id : Identity) (stake : Nat) : Ledger :=
  { l with
    account := update l.account id
      { l.account id with hopr := (l.account id).hopr - stake }
    safe := update l.safe id (some stake) }

/-- Gas: xDai of the deployer and of one account. -/
def Ledger.burn (l : Ledger) (id : Identity) (deployer account : Nat) : Ledger :=
  { l with
    deployer := { l.deployer with native := l.deployer.native - deployer }
    account := update l.account id
      { l.account id with native := (l.account id).native - account } }

/-- The stages of one identity, in order. -/
inductive Stage where
  | native | lookup | token | deploy | scope | pix | announce
  deriving DecidableEq, Repr

/-- `at numNodes numExtras visited id stage rest`: at this stage of `id`, in a run over
`identities numNodes numExtras`. -/
inductive Phase where
  | idle
  | provisioning (numNodes numExtras : Nat) (visited : List Identity) (id : Identity)
      (stage : Stage) (rest : List Identity)
  | completed (numNodes numExtras : Nat)
  | failed (e : RunError)
  deriving DecidableEq, Repr

structure St where
  ledger : Ledger
  phase : Phase

/-- `interrupt` is the end of a run for any other reason than a top-up. -/
inductive Label where
  | start (numNodes numExtras : Nat)
  | advance
  | interrupt
  | fees (id : Identity) (deployer account : Nat)

/-- The first stage of the next identity, or the end of the run. -/
def nextIdentity (numNodes numExtras : Nat) (visited : List Identity) (id : Identity) :
    List Identity → Phase
  | [] => .completed numNodes numExtras
  | j :: rest => .provisioning numNodes numExtras (visited ++ [id]) j .native rest

variable (cfg : Config)

/-- What the PIX top-up of an identity asks for: nothing with PIX off or for an extra
identity. -/
def safeTarget : Identity → Nat
  | .node id => if cfg.pix.isSome then cfg.pixSafeTargetFor id else 0
  | .extra _ => 0

/-- One stage of one identity: the ledger and the stage that follows, `none` after the
last.
mirrors localcluster/src/identity.rs:1033-1168, 1291-1420 -/
def stageStep (l : Ledger) (id : Identity) : Stage → Except RunError (Ledger × Option Stage)
  | .native => do
    let amount ← topUp cfg.initialNativeBalance (l.account id).native l.deployer.native
    pure (l.payNative id amount, some .lookup)
  | .lookup => pure (l, some (if (l.safe id).isSome then .scope else .token))
  | .token => do
    let amount ← topUp cfg.initialTokenBalance (l.account id).hopr l.deployer.hopr
    pure (l.payAccount id amount, some .deploy)
  | .deploy =>
    if (l.account id).hopr < cfg.initialTokenBalance then .error .deployFailed
    else pure (l.deploySafe id cfg.initialTokenBalance, some .scope)
  | .scope => pure (l, some .pix)
  | .pix =>
    -- the Safe found or deployed above
    match l.safe id with
    | none => .error .deployFailed
    | some balance => do
      let amount ← topUp (safeTarget cfg id) balance l.deployer.hopr
      pure (l.paySafe id balance amount, some .announce)
  | .announce => pure (l, none)

/-- mirrors localcluster/src/identity.rs:998-1420 -/
def step (s : St) : Label → Option St
  | .start numNodes numExtras =>
    match s.phase with
    | .provisioning .. => none
    | _ =>
      match identities numNodes numExtras with
      | [] => some { s with phase := .completed numNodes numExtras }
      | id :: rest =>
        some { s with phase := .provisioning numNodes numExtras [] id .native rest }
  | .advance =>
    match s.phase with
    | .provisioning numNodes numExtras visited id stage rest =>
      match stageStep cfg s.ledger id stage with
      | .error e => some { s with phase := .failed e }
      | .ok (l, some stage') =>
        some ⟨l, .provisioning numNodes numExtras visited id stage' rest⟩
      | .ok (l, none) => some ⟨l, nextIdentity numNodes numExtras visited id rest⟩
    | _ => none
  | .interrupt =>
    match s.phase with
    | .provisioning .. => some { s with phase := .idle }
    | _ => none
  | .fees id deployer account => some { s with ledger := s.ledger.burn id deployer account }

/-- Runs from the balances `c₀`, before anything was sent. -/
def system (c₀ : Chain) : LTS St Label :=
  .ofFn (fun s => s = ⟨{ c₀ with sentToAccount := fun _ => 0, sentToSafe := fun _ => 0 }, .idle⟩)
    (step cfg)

/-! ## One top-up -/

theorem topUp_ok {target balance deployer amount : Nat}
    (h : topUp target balance deployer = .ok amount) :
    amount = target - balance ∧ amount ≤ deployer := by
  unfold topUp at h
  by_cases hlt : balance < target
  · simp only [if_pos hlt] at h
    by_cases hd : deployer < target - balance
    · simp [hd] at h
    · simp only [if_neg hd, Except.ok.injEq] at h
      omega
  · simp only [if_neg hlt, Except.ok.injEq] at h
    omega

theorem topUp_short {target balance deployer : Nat} (h : deployer < target - balance) :
    topUp target balance deployer = .error (.mustHaveAtLeast (target - balance)) := by
  unfold topUp
  have hlt : balance < target := by omega
  simp [hlt, h]

/-! ## What the initial balances call for -/

/-- The shortfall of the account to `T`, if the Safe did not exist. -/
def accountDue (c₀ : Chain) (id : Identity) : Nat :=
  match c₀.safe id with
  | some _ => 0
  | none => cfg.initialTokenBalance - (c₀.account id).hopr

/-- What the Safe holds before any top-up of its own. -/
def safeBase (c₀ : Chain) (id : Identity) : Nat :=
  (c₀.safe id).getD cfg.initialTokenBalance

/-- The shortfall of the Safe to its PIX target. -/
def safeDue (c₀ : Chain) (id : Identity) : Nat := safeTarget cfg id - safeBase cfg c₀ id

/-- What an identity has been sent, against what it was due. -/
structure Books (c₀ : Chain) (l : Ledger) (id : Identity) : Prop where
  account : l.sentToAccount id = 0 ∨ l.sentToAccount id = accountDue cfg c₀ id
  safe : l.sentToSafe id = 0 ∨ l.sentToSafe id = safeDue cfg c₀ id
  absent : l.safe id = none → c₀.safe id = none ∧ l.sentToSafe id = 0 ∧
    (l.account id).hopr = (c₀.account id).hopr + l.sentToAccount id
  present : ∀ b, l.safe id = some b → l.sentToAccount id = accountDue cfg c₀ id ∧
    b = safeBase cfg c₀ id + l.sentToSafe id

/-- The Safe is deployed and holds its target. -/
def Settled (l : Ledger) (id : Identity) : Prop :=
  ∃ b, l.safe id = some b ∧ safeTarget cfg id ≤ b

/-- What the earlier stages of a run have established. -/
def StageInv (l : Ledger) (id : Identity) : Stage → Prop
  | .native | .lookup => True
  | .token => l.safe id = none
  | .deploy => l.safe id = none ∧ cfg.initialTokenBalance ≤ (l.account id).hopr
  | .scope | .pix => (l.safe id).isSome
  | .announce => Settled cfg l id

/-- A settled identity was sent all it was due. -/
theorem Books.of_settled {c₀ : Chain} {l : Ledger} {id : Identity} (hb : Books cfg c₀ l id)
    (hs : Settled cfg l id) :
    l.sentToAccount id = accountDue cfg c₀ id ∧ l.sentToSafe id = safeDue cfg c₀ id := by
  obtain ⟨b, hsafe, htarget⟩ := hs
  obtain ⟨hacc, hbal⟩ := hb.present b hsafe
  refine ⟨hacc, ?_⟩
  have hdue := hb.safe
  unfold safeDue at hdue ⊢
  omega

/-- The same wxHOPR in the account and the Safe, and the same sums sent. -/
structure Same (l l' : Ledger) (id : Identity) : Prop where
  account : (l'.account id).hopr = (l.account id).hopr
  safe : l'.safe id = l.safe id
  sentToAccount : l'.sentToAccount id = l.sentToAccount id
  sentToSafe : l'.sentToSafe id = l.sentToSafe id

theorem Same.refl (l : Ledger) (id : Identity) : Same l l id := ⟨rfl, rfl, rfl, rfl⟩

theorem Same.books {c₀ : Chain} {l l' : Ledger} {id : Identity} (h : Same l l' id)
    (hb : Books cfg c₀ l id) : Books cfg c₀ l' id := by
  obtain ⟨ha, hs, hta, hts⟩ := h
  obtain ⟨h1, h2, h3, h4⟩ := hb
  refine ⟨?_, ?_, ?_, ?_⟩
  · rw [hta]; exact h1
  · rw [hts]; exact h2
  · rw [hs, ha, hta, hts]; exact h3
  · rw [hs, hta, hts]; exact h4

theorem Same.settled {l l' : Ledger} {id : Identity} (h : Same l l' id)
    (hs : Settled cfg l id) : Settled cfg l' id := by
  unfold Settled
  rw [h.safe]
  exact hs

theorem Same.stageInv {l l' : Ledger} {id : Identity} (h : Same l l' id) {stage : Stage}
    (hs : StageInv cfg l id stage) : StageInv cfg l' id stage := by
  cases stage with
  | native => trivial
  | lookup => trivial
  | token => exact h.safe.trans hs
  | deploy => exact ⟨h.safe.trans hs.1, h.account ▸ hs.2⟩
  | scope => exact (congrArg Option.isSome h.safe).trans hs
  | pix => exact (congrArg Option.isSome h.safe).trans hs
  | announce => exact h.settled cfg hs

/-! ## What a transfer changes -/

theorem payAccount_other (l : Ledger) {id j : Identity} (amount : Nat) (h : j ≠ id) :
    Same l (l.payAccount id amount) j := by
  refine ⟨?_, rfl, ?_, rfl⟩
  · show (update l.account id _ j).hopr = _
    rw [update_of_ne h]
  · exact update_of_ne h _ _

theorem paySafe_other (l : Ledger) {id j : Identity} (balance amount : Nat) (h : j ≠ id) :
    Same l (l.paySafe id balance amount) j := by
  refine ⟨rfl, ?_, rfl, ?_⟩
  · exact update_of_ne h _ _
  · exact update_of_ne h _ _

theorem deploySafe_other (l : Ledger) {id j : Identity} (stake : Nat) (h : j ≠ id) :
    Same l (l.deploySafe id stake) j := by
  refine ⟨?_, ?_, rfl, rfl⟩
  · show (update l.account id _ j).hopr = _
    rw [update_of_ne h]
  · exact update_of_ne h _ _

/-- Moving xDai moves no wxHOPR. -/
theorem payNative_same (l : Ledger) (id j : Identity) (amount : Nat) :
    Same l (l.payNative id amount) j := by
  refine ⟨?_, rfl, rfl, rfl⟩
  show (update l.account id _ j).hopr = _
  by_cases h : j = id
  · subst h
    rw [update_self]
  · rw [update_of_ne h]

theorem burn_same (l : Ledger) (id j : Identity) (deployer account : Nat) :
    Same l (l.burn id deployer account) j := by
  refine ⟨?_, rfl, rfl, rfl⟩
  show (update l.account id _ j).hopr = _
  by_cases h : j = id
  · subst h
    rw [update_self]
  · rw [update_of_ne h]

/-! ## One stage -/

/-- What a stage leaves: the books of its identity, every other identity, what the
next stage relies on. -/
structure StageOk (c₀ : Chain) (l l' : Ledger) (id : Identity) (next : Option Stage) : Prop where
  books : Books cfg c₀ l' id
  other : ∀ j, j ≠ id → Same l l' j
  settled : Settled cfg l id → Settled cfg l' id
  stage : ∀ stage', next = some stage' → StageInv cfg l' id stage'
  done : next = none → Settled cfg l' id

theorem StageOk.of_same {c₀ : Chain} {l l' : Ledger} {id : Identity} {stage : Stage}
    (hb : Books cfg c₀ l id) (h : ∀ j, Same l l' j) (hs : StageInv cfg l' id stage) :
    StageOk cfg c₀ l l' id (some stage) where
  books := (h id).books cfg hb
  other j _ := h j
  settled hset := (h id).settled cfg hset
  stage _ he := Option.some.inj he ▸ hs
  done he := by cases he

/-- The token top-up happens before the deployment, to an account that still has all
it was sent. -/
theorem token_ok {c₀ : Chain} {l : Ledger} {id : Identity} {amount : Nat}
    (hb : Books cfg c₀ l id) (hs : StageInv cfg l id .token)
    (h : topUp cfg.initialTokenBalance (l.account id).hopr l.deployer.hopr = .ok amount) :
    StageOk cfg c₀ l (l.payAccount id amount) id (some .deploy) := by
  obtain ⟨hamount, -⟩ := topUp_ok h
  have hnone : l.safe id = none := hs
  obtain ⟨h0, hsent, hacc⟩ := hb.absent hnone
  have hsent' : (l.payAccount id amount).sentToAccount id = l.sentToAccount id + amount :=
    update_self _ _ _
  have hacc' : ((l.payAccount id amount).account id).hopr = (l.account id).hopr + amount := by
    show (update l.account id _ id).hopr = _
    rw [update_self]
  have hdue : accountDue cfg c₀ id = cfg.initialTokenBalance - (c₀.account id).hopr := by
    unfold accountDue
    rw [h0]
  have hbooks := hb.account
  rw [hdue] at hbooks
  refine ⟨⟨?_, hb.safe, ?_, ?_⟩, fun j hj => payAccount_other l amount hj,
    fun hset => hset, ?_, nofun⟩
  · rw [hsent', hdue]
    omega
  · intro _
    refine ⟨h0, hsent, ?_⟩
    rw [hsent', hacc']
    omega
  · intro b hsome
    rw [show l.safe id = some b from hsome] at hnone
    cases hnone
  · intro stage' he
    cases he
    refine ⟨hnone, ?_⟩
    rw [hacc']
    omega

theorem deploy_ok {c₀ : Chain} {l : Ledger} {id : Identity} (hb : Books cfg c₀ l id)
    (hs : StageInv cfg l id .deploy) :
    StageOk cfg c₀ l (l.deploySafe id cfg.initialTokenBalance) id (some .scope) := by
  obtain ⟨hnone, hstake⟩ := hs
  obtain ⟨h0, hsent, hacc⟩ := hb.absent hnone
  have hsafe : (l.deploySafe id cfg.initialTokenBalance).safe id = some cfg.initialTokenBalance :=
    update_self _ _ _
  have hbase : safeBase cfg c₀ id = cfg.initialTokenBalance := by
    unfold safeBase
    rw [h0]
    rfl
  have hdue : accountDue cfg c₀ id = cfg.initialTokenBalance - (c₀.account id).hopr := by
    unfold accountDue
    rw [h0]
  have hbooks := hb.account
  refine ⟨⟨hbooks, hb.safe, ?_, ?_⟩, fun j hj => deploySafe_other l _ hj, ?_, ?_, nofun⟩
  · intro habsent
    rw [hsafe] at habsent
    cases habsent
  · intro b hb'
    rw [hsafe] at hb'
    have hb' := Option.some.inj hb'
    show l.sentToAccount id = _ ∧ b = _ + l.sentToSafe id
    rw [hdue] at hbooks ⊢
    rw [hbase]
    omega
  · intro hset
    obtain ⟨b, hb', -⟩ := hset
    rw [hnone] at hb'
    cases hb'
  · intro stage' he
    cases he
    show ((l.deploySafe id cfg.initialTokenBalance).safe id).isSome
    rw [hsafe]
    rfl

theorem pix_ok {c₀ : Chain} {l : Ledger} {id : Identity} {balance amount : Nat}
    (hb : Books cfg c₀ l id) (hsafe : l.safe id = some balance)
    (h : topUp (safeTarget cfg id) balance l.deployer.hopr = .ok amount) :
    StageOk cfg c₀ l (l.paySafe id balance amount) id (some .announce) := by
  obtain ⟨hamount, -⟩ := topUp_ok h
  obtain ⟨hacc, hbal⟩ := hb.present balance hsafe
  have hsafe' : (l.paySafe id balance amount).safe id = some (balance + amount) := update_self _ _ _
  have hsent' : (l.paySafe id balance amount).sentToSafe id = l.sentToSafe id + amount :=
    update_self _ _ _
  have hset : Settled cfg (l.paySafe id balance amount) id := by
    refine ⟨balance + amount, hsafe', ?_⟩
    omega
  have hbooks := hb.safe
  refine ⟨⟨hb.account, ?_, ?_, ?_⟩, fun j hj => paySafe_other l _ _ hj, fun _ => hset, ?_, nofun⟩
  · unfold safeDue at hbooks ⊢
    rw [hsent']
    omega
  · intro habsent
    rw [hsafe'] at habsent
    cases habsent
  · intro b hb'
    rw [hsafe'] at hb'
    have hb' := Option.some.inj hb'
    refine ⟨hacc, ?_⟩
    rw [hsent']
    omega
  · intro stage' he
    cases he
    exact hset

theorem stageStep_ok {c₀ : Chain} {l l' : Ledger} {id : Identity} {stage : Stage}
    {next : Option Stage} (hb : Books cfg c₀ l id) (hs : StageInv cfg l id stage)
    (h : stageStep cfg l id stage = .ok (l', next)) : StageOk cfg c₀ l l' id next := by
  cases stage with
  | native =>
    obtain ⟨amount, -, h⟩ := bind_ok h
    cases pure_ok h
    exact .of_same cfg hb (fun j => payNative_same l id j amount) trivial
  | lookup =>
    cases pure_ok h
    refine .of_same cfg hb (fun j => Same.refl l j) ?_
    cases hsafe : l.safe id with
    | none => exact hsafe
    | some b => exact congrArg Option.isSome hsafe
  | token =>
    obtain ⟨amount, hamount, h⟩ := bind_ok h
    cases pure_ok h
    exact token_ok cfg hb hs hamount
  | deploy =>
    have hstake : ¬(l.account id).hopr < cfg.initialTokenBalance := by
      have hle := hs.2
      omega
    simp only [stageStep, if_neg hstake] at h
    cases pure_ok h
    exact deploy_ok cfg hb hs
  | scope =>
    cases pure_ok h
    exact .of_same cfg hb (fun j => Same.refl l j) hs
  | pix =>
    cases hsafe : l.safe id with
    | none =>
      have hsome : (l.safe id).isSome := hs
      rw [hsafe] at hsome
      cases hsome
    | some balance =>
      simp only [stageStep, hsafe] at h
      obtain ⟨amount, hamount, h⟩ := bind_ok h
      cases pure_ok h
      exact pix_ok cfg hb hsafe hamount
  | announce =>
    cases pure_ok h
    exact ⟨hb, fun j _ => Same.refl l j, fun hset => hset, nofun, fun _ => hs⟩

/-! ## Every run -/

/-- What a phase says of the ledger. -/
def PhaseInv (l : Ledger) : Phase → Prop
  | .idle | .failed _ => True
  | .provisioning numNodes numExtras visited id stage rest =>
    visited ++ id :: rest = identities numNodes numExtras ∧
      (∀ j ∈ visited, Settled cfg l j) ∧ StageInv cfg l id stage
  | .completed numNodes numExtras => ∀ j ∈ identities numNodes numExtras, Settled cfg l j

structure Inv (c₀ : Chain) (s : St) : Prop where
  books : ∀ id, Books cfg c₀ s.ledger id
  phase : PhaseInv cfg s.ledger s.phase

theorem nextIdentity_inv {l : Ledger} {numNodes numExtras : Nat} {visited rest : List Identity}
    {id : Identity} (hall : visited ++ id :: rest = identities numNodes numExtras)
    (hvisited : ∀ j ∈ visited, Settled cfg l j) (hid : Settled cfg l id) :
    PhaseInv cfg l (nextIdentity numNodes numExtras visited id rest) := by
  have hvisited' : ∀ j ∈ visited ++ [id], Settled cfg l j := by
    intro j hj
    rw [List.mem_append, List.mem_singleton] at hj
    cases hj with
    | inl hj => exact hvisited j hj
    | inr hj => rw [hj]; exact hid
  cases rest with
  | nil =>
    show ∀ j ∈ identities numNodes numExtras, Settled cfg l j
    rw [← hall]
    exact hvisited'
  | cons k rest =>
    refine ⟨?_, hvisited', trivial⟩
    rw [← hall, List.append_assoc]
    rfl

theorem advance_inv {c₀ : Chain} {s s' : St} (hi : Inv cfg c₀ s)
    (h : step cfg s .advance = some s') : Inv cfg c₀ s' := by
  obtain ⟨hbooks, hphase⟩ := hi
  cases hp : s.phase <;> simp only [step, hp, reduceCtorEq] at h
  rename_i numNodes numExtras visited id stage rest
  rw [hp] at hphase
  obtain ⟨hall, hvisited, hstage⟩ := hphase
  cases hst : stageStep cfg s.ledger id stage with
  | error e =>
    simp only [hst, Option.some.injEq] at h
    subst h
    exact ⟨hbooks, trivial⟩
  | ok r =>
    obtain ⟨l', next⟩ := r
    obtain ⟨hb', hother, hset, hnext, hdone⟩ := stageStep_ok cfg (hbooks id) hstage hst
    have hbooks' : ∀ j, Books cfg c₀ l' j := by
      intro j
      by_cases hj : j = id
      · rw [hj]; exact hb'
      · exact (hother j hj).books cfg (hbooks j)
    have hvisited' : ∀ j ∈ visited, Settled cfg l' j := by
      intro j hj
      by_cases hji : j = id
      · rw [hji] at hj ⊢
        exact hset (hvisited id hj)
      · exact (hother j hji).settled cfg (hvisited j hj)
    cases next with
    | some stage' =>
      simp only [hst, Option.some.injEq] at h
      subst h
      exact ⟨hbooks', hall, hvisited', hnext stage' rfl⟩
    | none =>
      simp only [hst, Option.some.injEq] at h
      subst h
      exact ⟨hbooks', nextIdentity_inv cfg hall hvisited' (hdone rfl)⟩

theorem start_inv {c₀ : Chain} {s s' : St} {numNodes numExtras : Nat} (hi : Inv cfg c₀ s)
    (h : step cfg s (.start numNodes numExtras) = some s') : Inv cfg c₀ s' := by
  have hstarted : s'.ledger = s.ledger ∧ PhaseInv cfg s.ledger s'.phase := by
    simp only [step] at h
    split at h
    · cases h
    · split at h
      · rename_i hids
        cases h
        refine ⟨rfl, ?_⟩
        intro j hj
        rw [hids] at hj
        cases hj
      · rename_i id rest hids
        cases h
        refine ⟨rfl, hids.symm, ?_, trivial⟩
        intro j hj
        cases hj
  obtain ⟨hl, hphase⟩ := hstarted
  refine ⟨?_, ?_⟩
  · rw [hl]; exact hi.books
  · rw [hl]; exact hphase

theorem fees_inv {c₀ : Chain} {s : St} (hi : Inv cfg c₀ s) (id : Identity)
    (deployer account : Nat) :
    Inv cfg c₀ { s with ledger := s.ledger.burn id deployer account } := by
  have hsame := fun j => burn_same s.ledger id j deployer account
  obtain ⟨hbooks, hphase⟩ := hi
  refine ⟨fun j => (hsame j).books cfg (hbooks j), ?_⟩
  show PhaseInv cfg (s.ledger.burn id deployer account) s.phase
  cases hp : s.phase with
  | idle => trivial
  | failed e => trivial
  | completed numNodes numExtras =>
    rw [hp] at hphase
    exact fun j hj => (hsame j).settled cfg (hphase j hj)
  | provisioning numNodes numExtras visited id' stage rest =>
    rw [hp] at hphase
    obtain ⟨hall, hvisited, hstage⟩ := hphase
    exact ⟨hall, fun j hj => (hsame j).settled cfg (hvisited j hj), (hsame id').stageInv cfg hstage⟩

theorem inv_inductive (c₀ : Chain) : (system cfg c₀).Inductive (Inv cfg c₀) where
  init s h := by
    subst h
    refine ⟨?_, trivial⟩
    intro id
    refine ⟨.inl rfl, .inl rfl, fun h0 => ⟨h0, rfl, rfl⟩, ?_⟩
    intro b hb
    have hb : c₀.safe id = some b := hb
    simp [accountDue, safeBase, hb]
  step s l s' hi h := by
    have h : step cfg s l = some s' := h
    cases l with
    | start numNodes numExtras => exact start_inv cfg hi h
    | advance => exact advance_inv cfg hi h
    | interrupt =>
      simp only [step] at h
      split at h
      · cases h
        exact ⟨hi.books, trivial⟩
      · cases h
    | fees id deployer account =>
      simp only [step, Option.some.injEq] at h
      subst h
      exact fees_inv cfg hi id deployer account

/-! ## Completed runs, and a deployer that cannot pay -/

/-- What the top-up of a stage asks for. -/
def needed (l : Ledger) (id : Identity) : Stage → Nat
  | .native => cfg.initialNativeBalance - (l.account id).native
  | .token => cfg.initialTokenBalance - (l.account id).hopr
  | .pix => safeTarget cfg id - (l.safe id).getD 0
  | _ => 0

/-- What the deployer has of the token a stage tops up. -/
def available (l : Ledger) : Stage → Nat
  | .native => l.deployer.native
  | _ => l.deployer.hopr

theorem stageStep_short {l : Ledger} {id : Identity} {stage : Stage}
    (hs : StageInv cfg l id stage) (h : available l stage < needed cfg l id stage) :
    stageStep cfg l id stage = .error (.mustHaveAtLeast (needed cfg l id stage)) := by
  cases stage with
  | native =>
    have hshort := topUp_short (show l.deployer.native < cfg.initialNativeBalance - _ from h)
    simp only [stageStep, hshort]
    rfl
  | token =>
    have hshort := topUp_short (show l.deployer.hopr < cfg.initialTokenBalance - _ from h)
    simp only [stageStep, hshort]
    rfl
  | pix =>
    cases hsafe : l.safe id with
    | none =>
      have hsome : (l.safe id).isSome := hs
      rw [hsafe] at hsome
      cases hsome
    | some balance =>
      simp only [needed, hsafe, Option.getD_some] at h ⊢
      have hshort := topUp_short (show l.deployer.hopr < safeTarget cfg id - balance from h)
      simp only [stageStep, hsafe, hshort]
      rfl
  | lookup => exact absurd h (Nat.not_lt_zero _)
  | deploy => exact absurd h (Nat.not_lt_zero _)
  | scope => exact absurd h (Nat.not_lt_zero _)
  | announce => exact absurd h (Nat.not_lt_zero _)

/-- Every identity of the last run was sent exactly what the initial balances called
for, and its Safe holds its target. -/
structure Funded (c₀ : Chain) (l : Ledger) (id : Identity) : Prop where
  sent : l.sentToAccount id + l.sentToSafe id = accountDue cfg c₀ id + safeDue cfg c₀ id
  target : ∃ b, l.safe id = some b ∧ safeTarget cfg id ≤ b

/-- The deployer cannot pay the top-up of the current stage: the run ends with the
error, and nothing has moved. -/
def ShortFails (s : St) : Prop :=
  ∀ numNodes numExtras visited id stage rest,
    s.phase = .provisioning numNodes numExtras visited id stage rest →
    available s.ledger stage < needed cfg s.ledger id stage →
    step cfg s .advance =
      some { s with phase := .failed (.mustHaveAtLeast (needed cfg s.ledger id stage)) }

/-- **Interrupted funding is never doubled**: whatever runs came before, after a
completed run each of its identities is funded exactly; at any moment nothing is sent
beyond what is due, and a top-up the deployer cannot pay is refused before it is sent. -/
theorem funding_exact (c₀ : Chain) (s : St) (h : (system cfg c₀).Reachable s) :
    (∀ numNodes numExtras, s.phase = .completed numNodes numExtras →
      ∀ id ∈ identities numNodes numExtras, Funded cfg c₀ s.ledger id) ∧
    (∀ id, s.ledger.sentToAccount id ≤ accountDue cfg c₀ id ∧
      s.ledger.sentToSafe id ≤ safeDue cfg c₀ id) ∧
    ShortFails cfg s := by
  obtain ⟨hbooks, hphase⟩ := (inv_inductive cfg c₀).reachable s h
  refine ⟨?_, ?_, ?_⟩
  · intro numNodes numExtras hc id hid
    rw [hc] at hphase
    have hset := hphase id hid
    obtain ⟨hacc, hsafe⟩ := (hbooks id).of_settled cfg hset
    exact ⟨by rw [hacc, hsafe], hset⟩
  · intro id
    have hacc := (hbooks id).account
    have hsafe := (hbooks id).safe
    omega
  · intro numNodes numExtras visited id stage rest hp hshort
    rw [hp] at hphase
    have hst := stageStep_short cfg hphase.2.2 hshort
    simp only [step, hp, hst]

/-- Two nodes and a float of 5 for node 0; node 1 has a Safe. The first run is
interrupted after the deployment of node 0. -/
def demoConfig : Config := ⟨10, 1, some 5, some [0]⟩

def demoChain : Chain where
  deployer := ⟨100, 50⟩
  account id := if id = .node 0 then ⟨3, 0⟩ else ⟨0, 0⟩
  safe id := if id = .node 1 then some 4 else none

def demoRun : List Label :=
  .start 2 0 :: List.replicate 4 .advance ++ [.interrupt, .start 2 0] ++ List.replicate 10 .advance

def demoStart : St :=
  ⟨{ demoChain with sentToAccount := fun _ => 0, sentToSafe := fun _ => 0 }, .idle⟩

def demoEnd : St := (LTS.exec (step demoConfig) demoStart demoRun).getD demoStart

theorem demo_funding_exact :
    demoEnd.phase = .completed 2 0 ∧ Funded demoConfig demoChain demoEnd.ledger (.node 0) ∧
      demoEnd.ledger.sentToAccount (.node 0) = 7 ∧ demoEnd.ledger.sentToSafe (.node 0) = 5 ∧
      demoEnd.ledger.sentToSafe (.node 1) = 6 := by
  have hr : (system demoConfig demoChain).Reachable demoEnd :=
    LTS.reachable_of_exec demoStart demoRun rfl rfl
  exact ⟨rfl, (funding_exact demoConfig demoChain demoEnd hr).1 2 0 rfl (.node 0) (by decide),
    rfl, rfl, rfl⟩

end Hoprd.Funding
