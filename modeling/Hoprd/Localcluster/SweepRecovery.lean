import Hoprd.Localcluster.Sweep

/-!
# What a sweep recovers (`localcluster/src/sweep.rs`)

* `SweepInv`: every Safe the sweep has passed holds no more than came in since.
* `sweep_recovers`: so a sweep that finishes has emptied the Safe of every node the directory
  held, and reports exactly the balances that it found and moved. It refuses a directory
  before it moves anything, and only one without nodes, or whose last node has no
  configuration yet, or with half a configuration. The only withdrawal it may have made
  without reporting it is the one that failed.
-/
namespace Hoprd.SweepSafes

open Core
open Hoprd.Keystores (Format KeyTable maxNumNodes)
open Function (update update_self update_of_ne)

section Model

variable {HoprKeys Content Address Yaml Rest : Type} {chain : Chain Address}
  {fmt : Format HoprKeys Content} {table : KeyTable HoprKeys}
  {cfg : ConfigFormat Address Yaml Rest} {s s' : St HoprKeys Content Yaml Rest chain}

/-! ## What a sweep knows -/

variable (fmt table)

/-- The node is one of the directory, with its configuration, and its Safe is that of its
keys. -/
def Known (s : St HoprKeys Content Yaml Rest chain) (node : KeptNode Address) : Prop :=
  (s.dir.configs node.id).isSome ∧
    ∃ safe, Owns fmt table s node.id safe ∧ node.safe = safe.safeAddress ∧
      node.module = safe.moduleAddress

/-- The address has no more than came in since a sweep read its balance. -/
def Emptied (s : St HoprKeys Content Yaml Rest chain) (a : Address) : Prop :=
  chain.hopr s.ledger a ≤ s.fresh a

/-- The nodes are known, and are all that the directory held. -/
def Whole (s : St HoprKeys Content Yaml Rest chain) (sw : Sweep Content Address Yaml)
    (nodes : List (KeptNode Address)) : Prop :=
  (∀ node ∈ nodes, Known fmt table s node) ∧
    ∀ i, sw.held i = true → ∃ node ∈ nodes, node.id = i

/-- The node is the last one of the directory, and has no configuration yet. -/
structure Unfinished (dir : Dir Content Yaml) (i : Nat) : Prop where
  keystore : (dir.keystores i).isSome
  config : dir.configs i = none
  before : Configured dir i
  last : ∀ j, i < j → dir.keystores j = none

variable (cfg) in
/-- The configuration is the beginning of one, and not a whole one. -/
def HalfWritten (yaml : Yaml) : Prop :=
  (∃ n rest safe, yaml = cfg.beginning n (cfg.toYaml rest safe)) ∧
    ∀ rest safe, yaml ≠ cfg.toYaml rest safe

/-- The node whose file the error is about, if it is about the content of one. -/
def KeptError.content? : KeptError → Option Nat
  | .parsing id | .missing id _ | .address id _ => some id
  | .noConfig _ | .noNodes => none

variable (cfg) in
/-- The directory, as the sweep saw it, is refused: it held nothing, its last node has no
configuration, or one is half written. -/
inductive Refused (sw : Sweep Content Address Yaml) : KeptError → Prop
  | noNodes (h : ∀ i, sw.held i = false) : Refused sw .noNodes
  | noConfig {i : Nat} (h : Unfinished sw.seen i) : Refused sw (.noConfig i)
  | content {e : KeptError} {i : Nat} {yaml : Yaml} (he : e.content? = some i)
      (hyaml : sw.seen.configs i = some yaml) (h : HalfWritten cfg yaml) : Refused sw e

/-- The sweep failed at the withdrawal from node `i`, of the whole balance that it had found in
the Safe. That may be executed or not. -/
def Unsettled (s : St HoprKeys Content Yaml Rest chain) (sw : Sweep Content Address Yaml) (i : Nat)
    (moved : List (Line Address)) : Prop :=
  ∃ safe balance, Owns fmt table s i safe ∧
    sw.found = moved ++ [(i, safe.safeAddress, balance)] ∧
    (sw.sent = moved ∨ sw.sent = sw.found)

/-- The withdrawal that may still be executed is the one of node `i`. -/
def Awaits (sw : Sweep Content Address Yaml) (i : Nat) (moved : List (Line Address)) : Prop :=
  ∀ node owner balance, sw.pending = some (node, owner, balance) →
    node.id = i ∧ sw.sent = moved ∧ sw.found = moved ++ [(node.id, node.safe, balance)]

variable (cfg) in
def PhaseInv (s : St HoprKeys Content Yaml Rest chain) (sw : Sweep Content Address Yaml) :
    SweepPhase Address → Prop
  | .reading id nodes => sw.sent = [] ∧ sw.found = [] ∧ sw.pending = none ∧
      (∀ node ∈ nodes, Known fmt table s node) ∧
      ∀ i, i < id → sw.held i = true → ∃ node ∈ nodes, node.id = i
  | .sweeping past rest moved => Whole fmt table s sw (past ++ rest) ∧
      sw.sent = moved ∧ sw.found = moved ∧ sw.pending = none ∧ ∀ node ∈ past, Emptied s node.safe
  | .withdrawing past node owner balance rest moved =>
      Whole fmt table s sw (past ++ node :: rest) ∧ sw.sent = moved ∧
      sw.found = moved ++ [(node.id, node.safe, balance)] ∧ sw.pending = none ∧
      (∀ n ∈ past, n.safe ≠ node.safe → Emptied s n.safe) ∧
      chain.hopr s.ledger node.safe ≤ balance + s.fresh node.safe ∧
      ∃ safe, chain.safes s.ledger owner = some safe ∧ node.safe = safe.safeAddress ∧
        node.module = safe.moduleAddress
  | .finished nodes moved => Whole fmt table s sw nodes ∧
      sw.sent = moved ∧ sw.found = moved ∧ sw.pending = none ∧ ∀ node ∈ nodes, Emptied s node.safe
  | .failed (.kept e) _ => sw.sent = [] ∧ sw.pending = none ∧ Refused cfg sw e
  | .failed (.keystore _) moved | .failed (.connector _) moved =>
      sw.sent = moved ∧ sw.found = moved ∧ sw.pending = none
  | .failed (.submitting i) moved | .failed (.confirming i) moved =>
      Unsettled fmt table s sw i moved ∧ Awaits sw i moved

variable (cfg) in
structure SweepInv (s : St HoprKeys Content Yaml Rest chain) (sw : Sweep Content Address Yaml) :
    Prop where
  held : ∀ i, sw.held i = true → (s.dir.keystores i).isSome
  phase : PhaseInv fmt table cfg s sw sw.phase

variable {fmt table} {sw : Sweep Content Address Yaml}

theorem Grown.isSome (hg : Grown s s') {i : Nat} (h : (s.dir.keystores i).isSome) :
    (s'.dir.keystores i).isSome := by
  obtain ⟨c, hc⟩ := Option.isSome_iff_exists.1 h
  rw [hg.keystores i c hc]
  rfl

theorem Grown.known (hg : Grown s s') {node : KeptNode Address} (h : Known fmt table s node) :
    Known fmt table s' node := by
  obtain ⟨hconfig, safe, howns, hnode⟩ := h
  exact ⟨hg.configs _ hconfig, safe, hg.owns howns, hnode⟩

theorem Grown.whole (hg : Grown s s') {nodes : List (KeptNode Address)}
    (h : Whole fmt table s sw nodes) : Whole fmt table s' sw nodes :=
  ⟨fun node hnode => hg.known (h.1 node hnode), h.2⟩

theorem Grown.unsettled (hg : Grown s s') {i : Nat} {moved : List (Line Address)}
    (h : Unsettled fmt table s sw i moved) : Unsettled fmt table s' sw i moved := by
  obtain ⟨safe, balance, howns, hfound, hsent⟩ := h
  exact ⟨safe, balance, hg.owns howns, hfound, hsent⟩

theorem Quiet.emptied (hq : Quiet s s') {a : Address} (h : Emptied s a) : Emptied s' a := by
  have hzero := hq.covered a 0
  rw [Nat.zero_add, Nat.zero_add] at hzero
  exact hzero h

theorem Quiet.phase (hq : Quiet s s') {phase : SweepPhase Address}
    (h : PhaseInv fmt table cfg s sw phase) : PhaseInv fmt table cfg s' sw phase := by
  have hg := hq.toGrown
  cases phase with
  | reading id nodes =>
    obtain ⟨hsent, hfound, hpending, hknown, hheld⟩ := h
    exact ⟨hsent, hfound, hpending, fun node hnode => hg.known (hknown node hnode), hheld⟩
  | sweeping past rest moved =>
    obtain ⟨hwhole, hsent, hfound, hpending, hempty⟩ := h
    exact ⟨hg.whole hwhole, hsent, hfound, hpending, fun n hn => hq.emptied (hempty n hn)⟩
  | withdrawing past node owner balance rest moved =>
    obtain ⟨hwhole, hsent, hfound, hpending, hpast, hnode, safe, hsafe, heq⟩ := h
    exact ⟨hg.whole hwhole, hsent, hfound, hpending,
      fun n hn hne => hq.emptied (hpast n hn hne), hq.covered _ _ hnode, safe,
      hg.safes _ _ hsafe, heq⟩
  | finished nodes moved =>
    obtain ⟨hwhole, hsent, hfound, hpending, hempty⟩ := h
    exact ⟨hg.whole hwhole, hsent, hfound, hpending, fun n hn => hq.emptied (hempty n hn)⟩
  | failed e moved =>
    cases e with
    | kept e => exact h
    | keystore | connector => exact h
    | submitting i | confirming i => exact ⟨hg.unsettled h.1, h.2⟩

theorem Quiet.sweepInv (hq : Quiet s s') (h : SweepInv fmt table cfg s sw) :
    SweepInv fmt table cfg s' sw :=
  ⟨fun i hi => hq.toGrown.isSome (h.held i hi), hq.phase h.phase⟩

/-! ## Reading the directory -/

theorem parseKey_ok {id : Nat} {value : Json} {key : String} {a : Address}
    (h : parseKey cfg id value key = .ok a) :
    ∃ text, Json.valueAt (safeModulePath key) value = some (.str text) ∧
      cfg.fromStr text = some a := by
  unfold parseKey at h
  split at h
  · next text htext =>
    split at h
    · next a' ha =>
      injection h with h
      exact ⟨text, htext, h ▸ ha⟩
    · cases h
  · cases h

theorem parseKey_error {id : Nat} {value : Json} {key : String} {e : KeptError}
    (h : parseKey cfg id value key = .error e) : e.content? = some id := by
  unfold parseKey at h
  split at h
  · split at h
    · cases h
    · injection h with h
      rw [← h]
      rfl
  · injection h with h
    rw [← h]
    rfl

/-- The configuration that `generate` wrote is read for what it was written from. -/
theorem keptNode_toYaml (cfg : ConfigFormat Address Yaml Rest) (id : Nat) (c : Content)
    (rest : Rest) (safe : SafeModule Address) :
    keptNode cfg id (some c) (some (cfg.toYaml rest safe)) =
      .ok (some ⟨id, safe.safeAddress, safe.moduleAddress⟩) := by
  obtain ⟨value, hvalue, hsafe, hmodule⟩ := cfg.fromYaml_toYaml rest safe
  have hkeys : parseKey cfg id value "safe_address" = .ok safe.safeAddress ∧
      parseKey cfg id value "module_address" = .ok safe.moduleAddress := by
    unfold parseKey
    rw [hsafe, hmodule]
    simp only [cfg.fromStr_display, and_self]
  unfold keptNode
  simp only [hvalue, hkeys.1, hkeys.2]
  rfl

/-- The beginning of a configuration is not taken for another one. -/
theorem keptNode_beginning (cfg : ConfigFormat Address Yaml Rest) (id n : Nat) (c : Content)
    (rest : Rest) (safe : SafeModule Address) :
    keptNode cfg id (some c) (some (cfg.beginning n (cfg.toYaml rest safe))) =
        .ok (some ⟨id, safe.safeAddress, safe.moduleAddress⟩) ∨
      ∃ e, e.content? = some id ∧
        keptNode cfg id (some c) (some (cfg.beginning n (cfg.toYaml rest safe))) = .error e := by
  unfold keptNode
  cases hvalue : cfg.fromYaml (cfg.beginning n (cfg.toYaml rest safe)) with
  | none =>
    refine .inr ⟨.parsing id, rfl, ?_⟩
    simp only [hvalue]
  | some value =>
    have hlaw := cfg.fromYaml_beginning n rest safe value hvalue
    cases hsafe : parseKey cfg id value "safe_address" with
    | error e =>
      refine .inr ⟨e, parseKey_error hsafe, ?_⟩
      simp only [hvalue, hsafe]
      rfl
    | ok a =>
      cases hmodule : parseKey cfg id value "module_address" with
      | error e =>
        refine .inr ⟨e, parseKey_error hmodule, ?_⟩
        simp only [hvalue, hsafe, hmodule]
        rfl
      | ok b =>
        obtain ⟨text, htext, ha⟩ := parseKey_ok hsafe
        obtain ⟨text', htext', hb⟩ := parseKey_ok hmodule
        obtain rfl := (hlaw text a ha).1 htext
        obtain rfl := (hlaw text' b hb).2 htext'
        refine .inl ?_
        simp only [hvalue, hsafe, hmodule]
        rfl

/-- What one id of a launched directory gives: nothing without a keystore, a refusal without a
configuration or with half of one, else its node. -/
theorem keptNode_cases (hi : DirInv fmt table cfg s) (id : Nat) :
    (s.dir.keystores id = none ∧
        keptNode cfg id (s.dir.keystores id) (s.dir.configs id) = .ok none) ∨
      (Unfinished s.dir id ∧
        keptNode cfg id (s.dir.keystores id) (s.dir.configs id) = .error (.noConfig id)) ∨
      (∃ e yaml, e.content? = some id ∧ s.dir.configs id = some yaml ∧ HalfWritten cfg yaml ∧
        keptNode cfg id (s.dir.keystores id) (s.dir.configs id) = .error e) ∨
      ∃ node, node.id = id ∧ Known fmt table s node ∧
        keptNode cfg id (s.dir.keystores id) (s.dir.configs id) = .ok (some node) := by
  cases hkey : s.dir.keystores id with
  | none => exact .inl ⟨rfl, rfl⟩
  | some c =>
    refine .inr ?_
    cases hconfig : s.dir.configs id with
    | none =>
      refine .inl ⟨⟨by rw [hkey]; rfl, hconfig, ?_, ?_⟩, rfl⟩
      · -- only the last node can be without
        obtain ⟨n, m, hn⟩ := hi.counts
        have hid : id < n := (hn.keystores id).1 (by rw [hkey]; rfl)
        intro j hj
        have hlast := hn.last
        exact (hn.configs j).2 (by omega)
      · obtain ⟨n, m, hn⟩ := hi.counts
        have hid : ¬ id < m := by
          intro hlt
          have hsome := (hn.configs id).2 hlt
          rw [hconfig] at hsome
          cases hsome
        intro j hj
        have hlast := hn.last
        have hnone : ¬ (s.dir.keystores j).isSome := fun hsome => by
          have hlt := (hn.keystores j).1 hsome
          omega
        simpa using hnone
    | some yaml =>
      refine .inr ?_
      obtain ⟨safe, ⟨rest, hyaml⟩, howns⟩ := hi.named id yaml hconfig
      have hknown : Known fmt table s ⟨id, safe.safeAddress, safe.moduleAddress⟩ :=
        ⟨by rw [hconfig]; rfl, safe, howns, rfl, rfl⟩
      rcases hyaml with rfl | ⟨n, rfl⟩
      · exact .inr ⟨_, rfl, hknown, keptNode_toYaml cfg ..⟩
      · rcases keptNode_beginning cfg id n c rest safe with hread | ⟨e, he, herr⟩
        · exact .inr ⟨_, rfl, hknown, hread⟩
        · refine .inl ⟨e, _, he, rfl, ⟨⟨n, rest, safe, rfl⟩, ?_⟩, herr⟩
          intro rest' safe' heq
          rw [heq, keptNode_toYaml] at herr
          cases herr

/-- A sweep changes nothing of the directory, and no owner loses its Safe. -/
structure SameDir (s s' : St HoprKeys Content Yaml Rest chain) : Prop where
  dir : s'.dir = s.dir
  launch : s'.launch = s.launch
  safes : ∀ owner safe, chain.safes s.ledger owner = some safe →
    chain.safes s'.ledger owner = some safe

theorem SameDir.grown (h : SameDir s s') : Grown s s' where
  keystores i c hc := by rwa [h.dir]
  configs i hsome := by rwa [h.dir]
  safes := h.safes

theorem SameDir.of_ledger (hd : s'.dir = s.dir) (hl : s'.launch = s.launch)
    (hs : s'.ledger = s.ledger) : SameDir s s' where
  dir := hd
  launch := hl
  safes _ _ h := by rwa [hs]

variable (fmt table cfg) in
structure Inv (s : St HoprKeys Content Yaml Rest chain) : Prop where
  dir : DirInv fmt table cfg s
  sweep : ∀ sw, s.sweep = some sw → SweepInv fmt table cfg s sw

theorem inv_quiet (hi : Inv fmt table cfg s) (hdir : DirInv fmt table cfg s') (hq : Quiet s s') :
    Inv fmt table cfg s' := by
  refine ⟨hdir, ?_⟩
  intro sw hsome
  rw [hq.sweep] at hsome
  exact hq.sweepInv (hi.sweep sw hsome)

theorem inv_launch (hi : Inv fmt table cfg s) (l : Label HoprKeys Content Address Rest chain.Tx)
    (h : launchStep fmt table cfg s l = some s') : Inv fmt table cfg s' := by
  obtain ⟨hdir, hq⟩ := launchStep_ok hi.dir h
  exact inv_quiet hi hdir hq

variable (fmt table) in
/-- What a sweep that finishes has done for the nodes that the directory held. -/
structure Recovered (s : St HoprKeys Content Yaml Rest chain) (sw : Sweep Content Address Yaml)
    (moved : List (Line Address)) : Prop where
  configured : ∀ i, sw.held i = true → (s.dir.configs i).isSome
  emptied : ∀ i safe, sw.held i = true → Owns fmt table s i safe → Emptied s safe.safeAddress
  found : sw.found = moved
  sent : sw.sent = moved
  settled : sw.pending = none

variable (fmt table cfg) in
/-- What is so wherever a sweep is over. -/
structure Outcome (s : St HoprKeys Content Yaml Rest chain) (sw : Sweep Content Address Yaml) :
    Prop where
  finished : ∀ nodes moved, sw.phase = .finished nodes moved → Recovered fmt table s sw moved
  refused : ∀ e moved, sw.phase = .failed (.kept e) moved →
    sw.sent = [] ∧ sw.pending = none ∧ Refused cfg sw e
  stopped : ∀ e moved i, sw.phase = .failed e moved → e = .keystore i ∨ e = .connector i →
    sw.sent = moved ∧ sw.pending = none
  unsettled : ∀ e moved i, sw.phase = .failed e moved → e = .submitting i ∨ e = .confirming i →
    Unsettled fmt table s sw i moved

/-- A step of the sweep leaves the directory and the launch, and establishes its invariant. -/
def Swept (fmt : Format HoprKeys Content) (table : KeyTable HoprKeys)
    (cfg : ConfigFormat Address Yaml Rest) (s : St HoprKeys Content Yaml Rest chain)
    (sw : Sweep Content Address Yaml) (s' : St HoprKeys Content Yaml Rest chain) : Prop :=
  SameDir s s' ∧ ∃ sw', s'.sweep = some sw' ∧ sw'.held = sw.held ∧
    PhaseInv fmt table cfg s' sw' sw'.phase

/-! ## Steps of a sweep -/

variable [DecidableEq Address]

/-- What an address has after a payment, no more than it had and got. -/
theorem paid_le {hopr fresh : Address → Nat} (a b : Address) (amount : Nat) {x : Address} {d : Nat}
    (h : hopr x ≤ d + fresh x) :
    paid hopr a b amount x ≤ d + update fresh b (fresh b + amount) x := by
  have hrest : update hopr a (hopr a - amount) x ≤ hopr x := by
    by_cases hx : x = a
    · rw [hx, update_self]
      exact Nat.sub_le _ _
    · rw [update_of_ne hx]
  unfold paid
  by_cases hx : x = b
  · subst hx
    rw [update_self, update_self]
    omega
  · rw [update_of_ne hx, update_of_ne hx]
    omega

/-- What is left of a Safe after its balance went to the recipient came in since. -/
theorem paid_emptied {hopr fresh : Address → Nat} {a b : Address} {balance : Nat}
    (hle : balance ≤ hopr a) (h : hopr a ≤ balance + fresh a) :
    paid hopr a b balance a ≤ update fresh b (fresh b + balance) a := by
  unfold paid
  by_cases hb : a = b
  · subst hb
    rw [update_self, update_self, update_self]
    omega
  · rw [update_of_ne hb, update_of_ne hb, update_self]
    omega

theorem read_ok (hi : DirInv fmt table cfg s) (hsw : SweepInv fmt table cfg s sw)
    (h : sweepStep fmt table cfg s sw .read = some s') : Swept fmt table cfg s sw s' := by
  have hphase := hsw.phase
  simp only [sweepStep] at h
  split at h
  · next id nodes hph =>
    rw [hph] at hphase
    obtain ⟨hsent, hfound, hpending, hknown, hheld⟩ := hphase
    by_cases hid : id < numSweptIds
    · rw [if_pos hid] at h
      rcases keptNode_cases hi id with ⟨hkey, hk⟩ | ⟨hlast, hk⟩ | ⟨e, yaml, he, hyaml, hhalf, hk⟩ |
        ⟨node, rfl, hnode, hk⟩
      · rw [hk] at h
        obtain rfl := Option.some.inj h
        refine ⟨.of_ledger rfl rfl rfl, _, rfl, rfl, hsent, hfound, hpending, ?_, ?_⟩
        · intro node hnode
          exact hknown node (by simpa using hnode)
        · intro i hlt hi'
          rcases Nat.lt_succ_iff_lt_or_eq.1 hlt with hlt | rfl
          · simpa using hheld i hlt hi'
          · have hsome := hsw.held i hi'
            rw [hkey] at hsome
            cases hsome
      · rw [hk] at h
        obtain rfl := Option.some.inj h
        exact ⟨.of_ledger rfl rfl rfl, _, rfl, rfl, hsent, hpending, .noConfig hlast⟩
      · rw [hk] at h
        obtain rfl := Option.some.inj h
        exact ⟨.of_ledger rfl rfl rfl, _, rfl, rfl, hsent, hpending, .content he hyaml hhalf⟩
      · rw [hk] at h
        obtain rfl := Option.some.inj h
        refine ⟨.of_ledger rfl rfl rfl, _, rfl, rfl, hsent, hfound, hpending, ?_, ?_⟩
        · intro n hn
          rcases List.mem_append.1 hn with hn | hn
          · exact hknown n hn
          · rw [Option.toList_some, List.mem_singleton] at hn
            exact hn ▸ hnode
        · intro i hlt hi'
          rcases Nat.lt_succ_iff_lt_or_eq.1 hlt with hlt | heq
          · obtain ⟨n, hn, hni⟩ := hheld i hlt hi'
            exact ⟨n, List.mem_append_left _ hn, hni⟩
          · exact ⟨node, List.mem_append_right _ (List.mem_singleton.2 rfl), heq.symm⟩
    · rw [if_neg hid] at h
      -- no launch made a node that the sweep does not look at
      have hall : ∀ i, sw.held i = true → ∃ node ∈ nodes, node.id = i := by
        intro i hi'
        obtain ⟨n, m, hn⟩ := hi.counts
        have hlt := (hn.keystores i).1 (hsw.held i hi')
        have hmax := hn.max
        have hten : maxNumNodes = 10 := rfl
        have hsixteen : numSweptIds = 16 := rfl
        exact hheld i (by omega) hi'
      split at h
      · next hnil =>
        obtain rfl := Option.some.inj h
        refine ⟨.of_ledger rfl rfl rfl, _, rfl, rfl, hsent, hpending, .noNodes ?_⟩
        intro i
        rw [Bool.eq_false_iff]
        intro hi'
        obtain ⟨node, hnode, -⟩ := hall i hi'
        rw [hnil] at hnode
        cases hnode
      · obtain rfl := Option.some.inj h
        exact ⟨.of_ledger rfl rfl rfl, _, rfl, rfl, ⟨hknown, hall⟩, hsent, hfound, hpending, nofun⟩
  · cases h

theorem visit_ok (hsw : SweepInv fmt table cfg s sw)
    (h : sweepStep fmt table cfg s sw .visit = some s') : Swept fmt table cfg s sw s' := by
  have hphase := hsw.phase
  simp only [sweepStep] at h
  split at h
  · next past moved hph =>
    rw [hph] at hphase
    obtain ⟨hwhole, hrest⟩ := hphase
    obtain rfl := Option.some.inj h
    rw [List.append_nil] at hwhole
    exact ⟨.of_ledger rfl rfl rfl, _, rfl, rfl, hwhole, hrest⟩
  · next past node rest moved hph =>
    rw [hph] at hphase
    obtain ⟨hwhole, hsent, hfound, hpending, hpast⟩ := hphase
    -- only what came to this Safe is forgotten
    have hother : ∀ n ∈ past, n.safe ≠ node.safe →
        chain.hopr s.ledger n.safe ≤ update s.fresh node.safe 0 n.safe := by
      intro n hn hne
      rw [update_of_ne hne]
      exact hpast n hn
    split at h
    · obtain rfl := Option.some.inj h
      exact ⟨.of_ledger rfl rfl rfl, _, rfl, rfl, hsent, hfound, hpending⟩
    · next keys hkeys =>
      obtain ⟨c, hc, hread⟩ := Option.bind_eq_some_iff.1 hkeys
      have hholds : Holds fmt s.dir node.id keys := ⟨c, sw.password, hc, hread⟩
      obtain ⟨-, safe, ⟨keys', hholds', hsafe⟩, hnode⟩ :=
        hwhole.1 node (List.mem_append_right _ List.mem_cons_self)
      obtain rfl := hholds.unique hholds'
      split at h
      · next hzero =>
        obtain rfl := Option.some.inj h
        refine ⟨.of_ledger rfl rfl rfl, _, rfl, rfl, ?_, hsent, hfound, hpending, ?_⟩
        · rw [List.append_assoc]
          exact hwhole
        · intro n hn
          show chain.hopr s.ledger n.safe ≤ update s.fresh node.safe 0 n.safe
          by_cases hne : n.safe = node.safe
          · rw [hne, hzero]
            exact Nat.zero_le _
          · rcases List.mem_append.1 hn with hn | hn
            · exact hother n hn hne
            · exact absurd (congrArg KeptNode.safe (List.mem_singleton.1 hn)) hne
      · obtain rfl := Option.some.inj h
        refine ⟨.of_ledger rfl rfl rfl, _, rfl, rfl, hwhole, hsent, ?_, hpending, hother, ?_, safe,
          hsafe, hnode⟩
        · exact congrArg (· ++ _) hfound
        · exact Nat.le_add_right _ _
  · cases h

theorem withdraw_ok (hchain : chain.Documented) (hsw : SweepInv fmt table cfg s sw)
    (h : sweepStep fmt table cfg s sw .withdraw = some s') : Swept fmt table cfg s sw s' := by
  have hphase := hsw.phase
  simp only [sweepStep] at h
  split at h
  · next past node owner balance rest moved hph =>
    rw [hph] at hphase
    obtain ⟨hwhole, hsent, hfound, hpending, hpast, hnode, safe, hsafe, heq, hmodule⟩ := hphase
    obtain ⟨ledger, hpays, rfl⟩ := Option.map_eq_some_iff.1 h
    have hgrown : SameDir s (s.executed sw node balance ledger
        (.sweeping (past ++ [node]) rest (moved ++ [(node.id, node.safe, balance)]))) :=
      ⟨rfl, rfl, fun _ _ hsafe => hchain.withdraw_safes hpays hsafe⟩
    rw [hmodule] at hpays
    obtain ⟨hle, hhopr⟩ := hchain.withdraw_pays hsafe hpays
    rw [← heq] at hle hhopr
    refine ⟨hgrown, _, rfl, rfl, ?_, ?_, hfound, rfl, ?_⟩
    · rw [List.append_assoc]
      exact hgrown.grown.whole hwhole
    · exact congrArg (· ++ _) hsent
    · intro n hn
      show chain.hopr ledger n.safe ≤
        update s.fresh sw.recipient (s.fresh sw.recipient + balance) n.safe
      rw [hhopr]
      by_cases hne : n.safe = node.safe
      · rw [hne]
        exact paid_emptied hle hnode
      · rcases List.mem_append.1 hn with hn | hn
        · have hempty : chain.hopr s.ledger n.safe ≤ 0 + s.fresh n.safe := by
            rw [Nat.zero_add]
            exact hpast n hn hne
          have hpaid := paid_le node.safe sw.recipient balance hempty
          rwa [Nat.zero_add] at hpaid
        · exact absurd (congrArg KeptNode.safe (List.mem_singleton.1 hn)) hne
  · cases h

theorem withdrawFails_ok (hsw : SweepInv fmt table cfg s sw) {submitted : Bool}
    (h : sweepStep fmt table cfg s sw (.withdrawFails submitted) = some s') :
    Swept fmt table cfg s sw s' := by
  have hphase := hsw.phase
  simp only [sweepStep] at h
  split at h
  · next past node owner balance rest moved hph =>
    rw [hph] at hphase
    obtain ⟨hwhole, hsent, hfound, -⟩ := hphase
    obtain ⟨-, safe, howns, hsafe, -⟩ :=
      hwhole.1 node (List.mem_append_right _ List.mem_cons_self)
    obtain rfl := Option.some.inj h
    have hunsettled : Unsettled fmt table s sw node.id moved :=
      ⟨safe, balance, howns, hsafe ▸ hfound, .inl hsent⟩
    have hawaits : Awaits { sw with pending := some (node, owner, balance) } node.id moved := by
      intro n o b hn
      cases hn
      exact ⟨rfl, hsent, hfound⟩
    refine ⟨.of_ledger rfl rfl rfl, _, rfl, rfl, ?_⟩
    cases submitted with
    | true => exact ⟨hunsettled, hawaits⟩
    | false => exact ⟨hunsettled, hawaits⟩
  · cases h

/-- The withdrawal that failed is executed. -/
theorem unsettled_executed {node : KeptNode Address} {owner : String} {balance i : Nat}
    {moved : List (Line Address)} {ledger : chain.State} {phase : SweepPhase Address}
    (hp : sw.pending = some (node, owner, balance))
    (hg : Grown s (s.executed sw node balance ledger phase))
    (h : Unsettled fmt table s sw i moved) (ha : Awaits sw i moved) :
    Unsettled fmt table (s.executed sw node balance ledger phase)
        { sw with
          sent := sw.sent ++ [(node.id, node.safe, balance)]
          pending := none
          phase := phase } i moved ∧
      Awaits
        { sw with
          sent := sw.sent ++ [(node.id, node.safe, balance)]
          pending := none
          phase := phase } i moved := by
  obtain ⟨rfl, hsent, hfound⟩ := ha node owner balance hp
  obtain ⟨safe, amount, howns, hline, -⟩ := h
  refine ⟨⟨safe, amount, hg.owns howns, hline, .inr ?_⟩, nofun⟩
  show sw.sent ++ _ = sw.found
  rw [hsent, hfound]

theorem lands_ok (hchain : chain.Documented) (hsw : SweepInv fmt table cfg s sw)
    (h : sweepStep fmt table cfg s sw .lands = some s') : Swept fmt table cfg s sw s' := by
  have hphase := hsw.phase
  simp only [sweepStep] at h
  split at h
  · next node owner balance hp =>
    obtain ⟨ledger, hpays, rfl⟩ := Option.map_eq_some_iff.1 h
    have hgrown : SameDir s (s.executed sw node balance ledger sw.phase) :=
      ⟨rfl, rfl, fun _ _ hsafe => hchain.withdraw_safes hpays hsafe⟩
    have hnone : sw.pending ≠ none := by
      rw [hp]
      exact nofun
    refine ⟨hgrown, _, rfl, rfl, ?_⟩
    show PhaseInv fmt table cfg _ _ sw.phase
    -- something is pending only where a withdrawal failed
    cases hph : sw.phase with
    | reading =>
      rw [hph] at hphase
      exact absurd hphase.2.2.1 hnone
    | sweeping | withdrawing | finished =>
      rw [hph] at hphase
      exact absurd hphase.2.2.2.1 hnone
    | failed e moved =>
      rw [hph] at hphase
      cases e with
      | kept e => exact absurd hphase.2.1 hnone
      | keystore | connector => exact absurd hphase.2.2 hnone
      | submitting i | confirming i =>
        have hexec := unsettled_executed hp hgrown.grown hphase.1 hphase.2
        rw [hph] at hexec
        exact hexec
  · cases h

theorem noConnector_ok (hsw : SweepInv fmt table cfg s sw)
    (h : sweepStep fmt table cfg s sw .noConnector = some s') : Swept fmt table cfg s sw s' := by
  have hphase := hsw.phase
  simp only [sweepStep] at h
  split at h
  · next past node rest moved hph =>
    rw [hph] at hphase
    obtain ⟨-, hsent, hfound, hpending, -⟩ := hphase
    obtain rfl := Option.some.inj h
    exact ⟨.of_ledger rfl rfl rfl, _, rfl, rfl, hsent, hfound, hpending⟩
  · cases h

theorem sweepStep_ok (hchain : chain.Documented) (hi : DirInv fmt table cfg s)
    (hsw : SweepInv fmt table cfg s sw) {l : Label HoprKeys Content Address Rest chain.Tx}
    (h : sweepStep fmt table cfg s sw l = some s') : Swept fmt table cfg s sw s' := by
  cases l with
  | read => exact read_ok hi hsw h
  | visit => exact visit_ok hsw h
  | withdraw => exact withdraw_ok hchain hsw h
  | withdrawFails submitted => exact withdrawFails_ok hsw h
  | lands => exact lands_ok hchain hsw h
  | noConnector => exact noConnector_ok hsw h
  | launch | keys | cutKeys | safe | beginConfig | writeConfig | configure | exit | transaction
    | sweep => cases h

/-! ## Whole runs -/

theorem inv_sweep (hchain : chain.Documented) (hi : Inv fmt table cfg s)
    {l : Label HoprKeys Content Address Rest chain.Tx}
    (h : (s.sweep.bind fun sw => sweepStep fmt table cfg s sw l) = some s') :
    Inv fmt table cfg s' := by
  obtain ⟨sw, hsome, hstep⟩ := Option.bind_eq_some_iff.1 h
  have hsw := hi.sweep sw hsome
  obtain ⟨hdir, sw', hsome', hheld, hphase⟩ := sweepStep_ok hchain hi.dir hsw hstep
  refine ⟨hi.dir.of_grown hdir.grown hdir.dir ?_, ?_⟩
  · rw [hdir.launch]
    exact launchInv_grown hdir.grown hi.dir.launch
  · intro t ht
    rw [hsome'] at ht
    obtain rfl := Option.some.inj ht
    refine ⟨?_, hphase⟩
    rw [hheld]
    exact fun i hi' => hdir.grown.isSome (hsw.held i hi')

theorem inv_step (hchain : chain.Documented) (hi : Inv fmt table cfg s)
    {l : Label HoprKeys Content Address Rest chain.Tx}
    (h : step fmt table cfg s l = some s') : Inv fmt table cfg s' := by
  cases l with
  | transaction tx =>
    simp only [step] at h
    obtain ⟨ledger, htx, rfl⟩ := Option.map_eq_some_iff.1 h
    have hq := quiet_after fun _ _ hsafe => hchain.others_safes htx hsafe
    exact inv_quiet hi (hi.dir.of_grown hq.toGrown rfl (launchInv_grown hq.toGrown hi.dir.launch))
      hq
  | sweep recipient password =>
    simp only [step] at h
    split at h
    · obtain rfl := Option.some.inj h
      have hg : Grown s { s with sweep := some (newSweep s recipient password) } :=
        .of_same rfl rfl
      refine ⟨hi.dir.of_grown hg rfl (launchInv_grown hg hi.dir.launch), ?_⟩
      intro sw hsome
      obtain rfl := Option.some.inj hsome
      exact ⟨fun i h => h, rfl, rfl, rfl, fun _ h => absurd h List.not_mem_nil,
        fun i hlt => absurd hlt (Nat.not_lt_zero i)⟩
    · cases h
  | read | visit | withdraw | withdrawFails | lands | noConnector => exact inv_sweep hchain hi h
  | launch args => exact inv_launch hi (.launch args) h
  | keys draw salt => exact inv_launch hi (.keys draw salt) h
  | cutKeys c => exact inv_launch hi (.cutKeys c) h
  | safe => exact inv_launch hi .safe h
  | beginConfig rest => exact inv_launch hi (.beginConfig rest) h
  | writeConfig n => exact inv_launch hi (.writeConfig n) h
  | configure => exact inv_launch hi .configure h
  | exit => exact inv_launch hi .exit h

variable (fmt table cfg) in
theorem inv_inductive (hchain : chain.Documented) :
    (system chain fmt table cfg).Inductive (Inv fmt table cfg) where
  init s h := by
    obtain ⟨hkeys, hconfigs, hlaunch, hsweep⟩ := h
    refine ⟨⟨⟨0, 0, ?_, ?_, Nat.le_refl _, Nat.zero_le _, Nat.zero_le _⟩, ?_, ?_⟩, ?_⟩
    · intro i
      rw [hkeys]
      simp
    · intro i
      rw [hconfigs]
      simp
    · intro i yaml hyaml
      rw [hconfigs] at hyaml
      cases hyaml
    · rw [hlaunch]
      trivial
    · intro sw hsome
      rw [hsweep] at hsome
      cases hsome
  step _ _ _ hi h := inv_step hchain hi h

variable (fmt table cfg) in
/-- **Kept clusters are emptied.** After any launches on the external chain, cut short or not,
and whatever others do meanwhile: a sweep that finishes leaves in the Safe of every node no
more than came in since it read the balance, and reports exactly what it found and moved. A
directory is refused before anything moves, and only because it held no node, its last node
has no configuration yet, or one is half written. A sweep that fails later has moved what it
counted; if it fails at a withdrawal, that one may be executed beside. -/
theorem sweep_recovers (hchain : chain.Documented) {s : St HoprKeys Content Yaml Rest chain}
    {sw : Sweep Content Address Yaml} (hr : (system chain fmt table cfg).Reachable s)
    (hsome : s.sweep = some sw) : Outcome fmt table cfg s sw := by
  have hsw := ((inv_inductive fmt table cfg hchain).reachable s hr).sweep sw hsome
  have hphase := hsw.phase
  refine ⟨?_, ?_, ?_, ?_⟩
  · intro nodes moved hph
    rw [hph] at hphase
    obtain ⟨⟨hknown, hall⟩, hsent, hfound, hpending, hempty⟩ := hphase
    refine ⟨?_, ?_, hfound, hsent, hpending⟩
    · intro i hi
      obtain ⟨node, hnode, rfl⟩ := hall i hi
      exact (hknown node hnode).1
    · intro i safe hi howns
      obtain ⟨node, hnode, rfl⟩ := hall i hi
      obtain ⟨-, safe', howns', heq, -⟩ := hknown node hnode
      rw [howns.unique howns', ← heq]
      exact hempty node hnode
  · intro e moved hph
    rw [hph] at hphase
    exact hphase
  · rintro e moved i hph (rfl | rfl)
    · rw [hph] at hphase
      exact ⟨hphase.1, hphase.2.2⟩
    · rw [hph] at hphase
      exact ⟨hphase.1, hphase.2.2⟩
  · rintro e moved i hph (rfl | rfl)
    · rw [hph] at hphase
      exact hphase.1
    · rw [hph] at hphase
      exact hphase.1

end Model

/-! ## A cluster of one node -/

/-- Addresses are their texts; a configuration is written entry after entry. -/
def plainConfig : ConfigFormat String (List (String × Json)) Unit where
  toYaml _ safe :=
    [("safe_address", .str safe.safeAddress), ("module_address", .str safe.moduleAddress)]
  beginning n entries := entries.take n
  fromYaml entries := some (.obj [("hopr", .obj [("safe_module", .obj entries)])])
  display := id
  fromStr := some
  fromStr_display _ := rfl
  fromYaml_toYaml _ _ := ⟨_, rfl, rfl, rfl⟩
  fromYaml_beginning n rest safe value h text a ha := by
    obtain rfl := Option.some.inj h
    obtain rfl := Option.some.inj ha
    match n with
    | 0 => exact ⟨nofun, nofun⟩
    | 1 => exact ⟨fun h => (Json.str.inj (Option.some.inj h)).symm, nofun⟩
    | n + 2 =>
      exact ⟨fun h => (Json.str.inj (Option.some.inj h)).symm,
        fun h => (Json.str.inj (Option.some.inj h)).symm⟩

structure Ledger where
  safes : String → Option (SafeModule String)
  hopr : String → Nat

inductive Transaction where
  | deploy (owner : String) (safe : SafeModule String) (stake : Nat)
  | transfer (a b : String) (amount : Nat)

def plainChain : Chain String where
  State := Ledger
  Tx := Transaction
  safes := Ledger.safes
  hopr := Ledger.hopr
  others ledger
    | .deploy owner safe stake =>
      match ledger.safes owner with
      | some _ => none
      | none =>
        some ⟨update ledger.safes owner (some safe),
          update ledger.hopr safe.safeAddress (ledger.hopr safe.safeAddress + stake)⟩
    | .transfer a b amount =>
      if amount ≤ ledger.hopr a then some { ledger with hopr := paid ledger.hopr a b amount }
      else none
  withdraw ledger owner module recipient amount :=
    match ledger.safes owner with
    | some safe =>
      if safe.moduleAddress = module ∧ amount ≤ ledger.hopr safe.safeAddress then
        some { ledger with hopr := paid ledger.hopr safe.safeAddress recipient amount }
      else none
    | none => none

theorem plainChain_documented : plainChain.Documented where
  others_safes {ledger ledger' tx owner safe} h hsafe := by
    cases tx with
    | deploy signer deployed stake =>
      simp only [plainChain] at h hsafe ⊢
      split at h
      · cases h
      · next hnew =>
        obtain rfl := Option.some.inj h
        have hne : owner ≠ signer := by
          rintro rfl
          rw [hnew] at hsafe
          cases hsafe
        exact (update_of_ne hne _ _).trans hsafe
    | transfer a b amount =>
      simp only [plainChain] at h hsafe ⊢
      split at h
      · obtain rfl := Option.some.inj h
        exact hsafe
      · cases h
  withdraw_safes {ledger ledger' signer module recipient amount owner safe} h hsafe := by
    simp only [plainChain] at h hsafe ⊢
    split at h
    · split at h
      · obtain rfl := Option.some.inj h
        exact hsafe
      · cases h
    · cases h
  withdraw_pays {ledger ledger' owner recipient amount safe} hsafe h := by
    simp only [plainChain] at h hsafe ⊢
    rw [hsafe] at h
    dsimp only at h
    split at h
    · next hpays =>
      obtain rfl := Option.some.inj h
      exact ⟨hpays.2, rfl⟩
    · cases h

abbrev PlainSt := St Nat (Nat × String) (List (String × Json)) Unit plainChain

abbrev PlainLabel := Label Nat (Nat × String) String Unit Transaction

def emptyDir : PlainSt where
  dir := ⟨fun _ => none, fun _ => none⟩
  ledger := ⟨fun _ => none, fun _ => 0⟩
  launch := .idle
  sweep := none
  fresh := fun _ => 0

/-- A launch gets a Safe for its node and 100 in it, and ends while it writes the
configuration. A sweep refuses the directory. -/
def cutRun : List PlainLabel :=
  [.launch Keystores.externalArgs, .keys 7 0, .transaction (.deploy "7" ⟨"safe", "module"⟩ 100),
    .safe, .beginConfig (), .writeConfig 1, .exit, .sweep "me" "password", .read]

/-- The next launch reads the keystore and writes the configuration again, 7 more come in, and
a sweep moves them all. -/
def secondRun : List PlainLabel :=
  [.launch Keystores.externalArgs, .keys 8 1, .safe, .beginConfig (), .configure, .exit,
    .transaction (.deploy "funds" ⟨"purse", "purse"⟩ 9), .transaction (.transfer "purse" "safe" 7),
    .sweep "me" "password"] ++
  List.replicate 17 .read ++ [.visit, .withdraw, .visit]

/-- After the cut nothing is moved, then all 107 are at the recipient and none in the Safe. -/
theorem one_node_recovered :
    (∃ (s : PlainSt) (sw : _) (e : KeptError), s.sweep = some sw ∧
      sw.phase = .failed (.kept e) [] ∧ e = .missing 0 "module_address" ∧
      Outcome Keystores.plainFormat Keystores.plainTable plainConfig s sw) ∧
    ∃ (s : PlainSt) (sw : _) (nodes : _) (moved : _), s.sweep = some sw ∧
      sw.phase = .finished nodes moved ∧ sw.held 0 = true ∧ moved = [(0, "safe", 107)] ∧
      plainChain.hopr s.ledger "me" = 107 ∧ plainChain.hopr s.ledger "safe" = 0 ∧
      Outcome Keystores.plainFormat Keystores.plainTable plainConfig s sw := by
  obtain ⟨s₁, hs₁⟩ : ∃ s, LTS.exec (step Keystores.plainFormat Keystores.plainTable plainConfig)
      emptyDir cutRun = some s := ⟨_, rfl⟩
  have hr₁ : (system plainChain Keystores.plainFormat Keystores.plainTable
      plainConfig).Reachable s₁ :=
    LTS.reachable_of_exec emptyDir cutRun ⟨fun _ => rfl, fun _ => rfl, rfl, rfl⟩ hs₁
  obtain ⟨s₂, hs₂⟩ : ∃ s, LTS.exec (step Keystores.plainFormat Keystores.plainTable plainConfig)
      emptyDir (cutRun ++ secondRun) = some s := ⟨_, rfl⟩
  have hr₂ : (system plainChain Keystores.plainFormat Keystores.plainTable
      plainConfig).Reachable s₂ :=
    LTS.reachable_of_exec emptyDir (cutRun ++ secondRun) ⟨fun _ => rfl, fun _ => rfl, rfl, rfl⟩ hs₂
  cases hs₁
  cases hs₂
  exact ⟨⟨_, _, _, rfl, rfl, rfl, sweep_recovers _ _ _ plainChain_documented hr₁ rfl⟩,
    _, _, _, _, rfl, rfl, rfl, rfl, rfl, rfl,
    sweep_recovers _ _ _ plainChain_documented hr₂ rfl⟩

end Hoprd.SweepSafes
