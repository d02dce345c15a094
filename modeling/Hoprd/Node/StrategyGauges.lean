import Hoprd.Node.BuildStrategies

/-!
# The enabled-strategies gauges (`hoprd/src/strategy.rs`)

`build_strategies` seeds the gauges once and the recursion sets those of what it built.
`BuiltIn` says which stanzas are built, each with the group that directly contains it.

* `mem_builtIn`: the walk's list of stanzas is the relation.
* `buildGroup_gives`: a successful walk gives one part of the result for each of them, in
  order, and sets exactly their gauges.
* `enabled_strategies_faithful`: so the gauges tell what was built, whatever they were
  before, and each strategy has the interval of its own group.
-/
namespace Hoprd.Strategy

section
variable {T : LeafTypes}

def StrategyKind.isLeaf : StrategyKind T → Bool
  | .multi _ | .passive => false
  | _ => true

/-- The stanza `k`, directly in `group`, is built in a walk of the first group: a leaf of a
group the walk enters, or a group that it enters. -/
inductive BuiltIn : Bool → MultiStrategyConfig T → MultiStrategyConfig T → StrategyKind T → Prop
  | leaf {allowRecursive : Bool} {cfg : MultiStrategyConfig T} {k : StrategyKind T}
      (hk : k ∈ cfg.strategies) (hleaf : k.isLeaf = true) : BuiltIn allowRecursive cfg cfg k
  | entered {cfg sub : MultiStrategyConfig T} (h : .multi sub ∈ cfg.strategies) :
      BuiltIn true cfg cfg (.multi sub)
  | inside {cfg sub group : MultiStrategyConfig T} {k : StrategyKind T}
      (h : .multi sub ∈ cfg.strategies) (hk : BuiltIn false sub group k) : BuiltIn true cfg group k

/-! ## The stanzas of a walk, in order -/

mutual

def StrategyKind.built (allowRecursive : Bool) (group : MultiStrategyConfig T) :
    StrategyKind T → List (MultiStrategyConfig T × StrategyKind T)
  | .multi cfg => if allowRecursive then (group, .multi cfg) :: cfg.builtIn false else []
  | .passive => []
  | k => [(group, k)]

def MultiStrategyConfig.builtIn (allowRecursive : Bool) :
    MultiStrategyConfig T → List (MultiStrategyConfig T × StrategyKind T)
  | ⟨flag, interval, strategies⟩ => builtOf allowRecursive ⟨flag, interval, strategies⟩ strategies

def builtOf (allowRecursive : Bool) (group : MultiStrategyConfig T) :
    List (StrategyKind T) → List (MultiStrategyConfig T × StrategyKind T)
  | [] => []
  | k :: ks => k.built allowRecursive group ++ builtOf allowRecursive group ks

end

theorem builtIn_eq (a : Bool) (cfg : MultiStrategyConfig T) :
    cfg.builtIn a = builtOf a cfg cfg.strategies := by
  cases cfg
  rw [MultiStrategyConfig.builtIn]

theorem mem_builtOf {a : Bool} {group : MultiStrategyConfig T} {ks : List (StrategyKind T)}
    {x : MultiStrategyConfig T × StrategyKind T} :
    x ∈ builtOf a group ks ↔ ∃ k ∈ ks, x ∈ k.built a group := by
  induction ks with
  | nil => simp [builtOf]
  | cons k ks ih => simp [builtOf, ih]

theorem mem_builtStanza {a : Bool} {group : MultiStrategyConfig T} {k : StrategyKind T}
    {x : MultiStrategyConfig T × StrategyKind T} :
    x ∈ k.built a group ↔ (k.isLeaf = true ∧ x = (group, k)) ∨
      ∃ sub, k = .multi sub ∧ a = true ∧ (x = (group, k) ∨ x ∈ sub.builtIn false) := by
  cases k with
  | multi sub => cases a <;> simp [StrategyKind.built, StrategyKind.isLeaf]
  | _ => simp [StrategyKind.built, StrategyKind.isLeaf]

/-- Below a group that was entered, only leaves are built. -/
theorem mem_builtIn_false {cfg group : MultiStrategyConfig T} {k : StrategyKind T} :
    (group, k) ∈ cfg.builtIn false ↔ BuiltIn false cfg group k := by
  rw [builtIn_eq, mem_builtOf]
  constructor
  · rintro ⟨k', hk', hmem⟩
    rcases mem_builtStanza.1 hmem with ⟨hleaf, he⟩ | ⟨-, -, ha, -⟩
    · cases he
      exact .leaf hk' hleaf
    · cases ha
  · rintro ⟨hk, hleaf⟩
    exact ⟨k, hk, mem_builtStanza.2 (.inl ⟨hleaf, rfl⟩)⟩

theorem mem_builtIn {a : Bool} {cfg group : MultiStrategyConfig T} {k : StrategyKind T} :
    (group, k) ∈ cfg.builtIn a ↔ BuiltIn a cfg group k := by
  rw [builtIn_eq, mem_builtOf]
  constructor
  · rintro ⟨k', hk', hmem⟩
    rcases mem_builtStanza.1 hmem with ⟨hleaf, he⟩ | ⟨sub, rfl, rfl, he | hsub⟩
    · cases he
      exact .leaf hk' hleaf
    · cases he
      exact .entered hk'
    · exact .inside hk' (mem_builtIn_false.1 hsub)
  · intro h
    cases h with
    | leaf hk hleaf => exact ⟨k, hk, mem_builtStanza.2 (.inl ⟨hleaf, rfl⟩)⟩
    | entered hsub => exact ⟨_, hsub, mem_builtStanza.2 (.inr ⟨_, rfl, rfl, .inl rfl⟩)⟩
    | inside hsub hk =>
      exact ⟨_, hsub, mem_builtStanza.2 (.inr ⟨_, rfl, rfl, .inr (mem_builtIn_false.2 hk)⟩)⟩

end

/-! ## What the walk gives -/

/-- The gauges of these kinds are set. -/
def Gauges.setAll (g : Gauges) (names : List String) : Gauges :=
  names.foldl (fun g name => g.set name 1) g

theorem Gauges.setAll_append (g : Gauges) (names names' : List String) :
    g.setAll (names ++ names') = (g.setAll names).setAll names' := List.foldl_append

theorem Gauges.setAll_apply (g : Gauges) (names : List String) (n : String) :
    g.setAll names n = if n ∈ names then 1 else g n := by
  induction names generalizing g with
  | nil => rfl
  | cons name names ih =>
    have hcons : g.setAll (name :: names) = (g.set name 1).setAll names := rfl
    rw [hcons, ih]
    by_cases hmem : n ∈ names
    · rw [if_pos hmem, if_pos (List.mem_cons_of_mem _ hmem)]
    · rw [if_neg hmem]
      simp only [Gauges.set, List.mem_cons, hmem, or_false]

/-- In any order. -/
theorem Gauges.set_setAll (g : Gauges) (name : String) (names : List String) :
    (g.setAll names).set name 1 = g.setAll (name :: names) := by
  funext n
  rw [Gauges.setAll_apply, Gauges.set, Gauges.setAll_apply]
  by_cases hn : n = name
  · simp [hn]
  · simp [hn]

section
variable {T : LeafTypes} {S E : Type} (B : Builders T S E)

mutual

/-- The strategies and groups in a built tree, below its root. -/
def Built.parts : Built S → List (Built S)
  | .strategy _ => []
  | .multi bs => partsOf bs

def partsOf : List (Built S) → List (Built S)
  | [] => []
  | b :: bs => b :: (b.parts ++ partsOf bs)

end

theorem partsOf_append (bs cs : List (Built S)) :
    partsOf (bs ++ cs) = partsOf bs ++ partsOf cs := by
  induction bs with
  | nil => simp [partsOf]
  | cons b bs ih => simp [partsOf, ih]

/-- `b` is what was built from the stanza `x.2` of the group `x.1`: a strategy by its builder,
with the group's interval, or a group. -/
def Gives (x : MultiStrategyConfig T × StrategyKind T) (b : Built S) : Prop :=
  match x.2 with
  | .multi _ => ∃ bs, b = .multi bs
  | k => ∃ s, b = .strategy s ∧ BuiltFrom B (x.1.executionInterval, k) s

/-- A successful part of the walk from the gauges `g`: a part of the result for each of the
stanzas, and their gauges set. -/
def WalkGives (stanzas : List (MultiStrategyConfig T × StrategyKind T)) (g : Gauges)
    (r : BuildResult S E) : Prop :=
  ∀ bs g', r = (.ok bs, g') → List.Forall₂ (Gives B) stanzas (partsOf bs) ∧
    g' = g.setAll (stanzas.map fun x => x.2.name)

theorem pushBuilt_gives {group : MultiStrategyConfig T} {k : StrategyKind T} {r : Except E S}
    (hleaf : k.isLeaf = true)
    (h : buildLeaf B group.executionInterval k = some (r.mapError .strategy)) (g : Gauges) :
    WalkGives B [(group, k)] g (pushBuilt k.name r g) := by
  intro bs g' hr
  cases r with
  | error e => cases hr
  | ok s =>
    cases hr
    refine ⟨.cons ?_ .nil, rfl⟩
    cases k with
    | multi | passive => cases hleaf
    | _ => exact ⟨s, rfl, h⟩

mutual

theorem buildStanza_gives : ∀ (k : StrategyKind T) (a : Bool) (group : MultiStrategyConfig T)
    (g : Gauges), WalkGives B (k.built a group) g (buildStanza B a group.executionInterval k g)
  | .autoRedeeming _, _, _, g | .autoFunding _, _, _, g | .closureFinalizer _, _, _, g
  | .channelLifecycle _, _, _, g => by
    simp only [StrategyKind.built, buildStanza]
    exact pushBuilt_gives B rfl rfl g
  | .pix cfg, _, group, g => by
    simp only [StrategyKind.built, buildStanza]
    split
    · rename_i hp
      exact pushBuilt_gives B (k := .pix cfg) rfl (by simp [buildLeaf, hp]) g
    · exact fun _ _ hr => nomatch hr
  | .multi cfg, true, group, g => by
    simp only [StrategyKind.built, buildStanza, if_true]
    intro bs g' hr
    split at hr
    · cases hr
    · rename_i built g₁ he
      cases hr
      obtain ⟨⟨bs, rfl, hparts⟩, hg⟩ := buildGroup_gives cfg false g _ _ he
      refine ⟨?_, ?_⟩
      · simp only [partsOf, List.append_nil]
        exact .cons ⟨bs, rfl⟩ hparts
      · rw [hg]
        exact Gauges.set_setAll g "multi" _
  | .multi _, false, _, _ => by
    simp only [StrategyKind.built, buildStanza, Bool.false_eq_true, if_false]
    intro bs g' hr
    cases hr
    exact ⟨.nil, rfl⟩
  | .passive, _, _, _ => by
    simp only [StrategyKind.built, buildStanza]
    intro bs g' hr
    cases hr
    exact ⟨.nil, rfl⟩

theorem buildGroup_gives : ∀ (cfg : MultiStrategyConfig T) (a : Bool) (g : Gauges)
    (t : Built S) (g' : Gauges), buildGroup B a cfg g = (.ok t, g') →
      (∃ bs, t = .multi bs ∧ List.Forall₂ (Gives B) (cfg.builtIn a) t.parts) ∧
        g' = g.setAll ((cfg.builtIn a).map fun x => x.2.name)
  | ⟨flag, ivl, ks⟩, a, g, t, g', h => by
    have hloop := buildLoop_gives ks a ⟨flag, ivl, ks⟩ g
    simp only [buildGroup] at h
    split at h
    · cases h
    · rename_i built g₁ he
      cases h
      obtain ⟨hparts, hg⟩ := hloop _ _ he
      rw [MultiStrategyConfig.builtIn]
      exact ⟨⟨built, rfl, by rw [Built.parts]; exact hparts⟩, hg⟩

theorem buildLoop_gives : ∀ (ks : List (StrategyKind T)) (a : Bool)
    (group : MultiStrategyConfig T) (g : Gauges),
    WalkGives B (builtOf a group ks) g (buildLoop B a group.executionInterval ks g)
  | [], _, _, _ => by
    simp only [builtOf, buildLoop]
    intro bs g' hr
    cases hr
    exact ⟨.nil, rfl⟩
  | k :: ks, a, group, g => by
    have hstanza := buildStanza_gives k a group g
    simp only [builtOf, buildLoop]
    intro bs g' hr
    split at hr
    · cases hr
    · rename_i built g₁ he
      split at hr
      · cases hr
      · rename_i rest g₂ he'
        cases hr
        obtain ⟨hparts, hg⟩ := hstanza _ _ he
        obtain ⟨hparts', hg'⟩ := buildLoop_gives ks a group g₁ _ _ he'
        rw [partsOf_append, List.map_append, Gauges.setAll_append, ← hg]
        exact ⟨List.rel_append hparts hparts', hg'⟩

end

/-! ## After `build_strategies` -/

/-- The gauges say which kinds were built, and each built stanza has its part of the result,
a strategy being given the interval of the group that directly contains it. -/
structure Faithful (cfg : MultiStrategyConfig T) (t : Built S) (g : Gauges) : Prop where
  enabled : ∀ group k, BuiltIn cfg.allowRecursive cfg group k → g k.name = 1
  disabled : ∀ name ∈ variants,
    (∀ group k, BuiltIn cfg.allowRecursive cfg group k → k.name ≠ name) → g name = 0
  parts : ∃ stanzas : List (MultiStrategyConfig T × StrategyKind T),
    (∀ group k, (group, k) ∈ stanzas ↔ BuiltIn cfg.allowRecursive cfg group k) ∧
      List.Forall₂ (Gives B) stanzas t.parts

theorem seeded_apply (g : Gauges) {name : String} (h : name ∈ variants) :
    variants.foldl (fun g name => g.set name 0) g name = 0 := by
  simp only [variants, List.mem_cons, List.not_mem_nil, or_false] at h
  rcases h with rfl | rfl | rfl | rfl | rfl | rfl | rfl <;> rfl

/-- **The gauges are faithful**, whatever they were before. -/
theorem enabled_strategies_faithful {cfg : MultiStrategyConfig T} {g g' : Gauges} {t : Built S}
    (h : buildStrategies B cfg g = (.ok t, g')) : Faithful B cfg t g' := by
  obtain ⟨⟨-, -, hparts⟩, hg⟩ := buildGroup_gives B cfg cfg.allowRecursive _ t g' h
  have hnames : ∀ name, name ∈ ((cfg.builtIn cfg.allowRecursive).map fun x => x.2.name) ↔
      ∃ group k, BuiltIn cfg.allowRecursive cfg group k ∧ k.name = name := by
    intro name
    simp only [List.mem_map, Prod.exists, mem_builtIn]
  refine ⟨fun group k hk => ?_, fun name hname hnone => ?_, _, fun _ _ => mem_builtIn, hparts⟩
  · rw [hg, Gauges.setAll_apply, if_pos ((hnames _).2 ⟨group, k, hk, rfl⟩)]
  · have hnot : name ∉ ((cfg.builtIn cfg.allowRecursive).map fun x => x.2.name) := by
      intro hmem
      obtain ⟨group, k, hk, he⟩ := (hnames name).1 hmem
      exact hnone group k hk he
    rw [hg, Gauges.setAll_apply, if_neg hnot]
    exact seeded_apply g hname

end

/-- Builders that note the interval they are given. -/
def noteInterval : Builders unitLeaves (String × Duration) Unit where
  autoRedeeming _ interval := .ok ("auto_redeeming", interval)
  autoFunding _ interval := .ok ("auto_funding", interval)
  closureFinalizer _ interval := .ok ("closure_finalizer", interval)
  channelLifecycle _ := .ok ("channel_lifecycle", 0)
  pix _ := .ok ("pix", 0)
  pixBuilt := true

/-- The same kind on two levels, and one below a group that is skipped. -/
def twoLevels : MultiStrategyConfig unitLeaves :=
  ⟨true, Duration.fromSecs 60, [.autoRedeeming (), .passive, .multi ⟨true, Duration.fromSecs 15,
    [.autoRedeeming (), .multi ⟨true, Duration.fromSecs 20, [.autoFunding ()]⟩]⟩]⟩

theorem twoLevels_faithful :
    (buildStrategies noteInterval twoLevels fun _ => 5).1 =
      .ok (.multi [.strategy ("auto_redeeming", Duration.fromSecs 60),
        .multi [.strategy ("auto_redeeming", Duration.fromSecs 15)]]) ∧
    (variants.filter fun name => (buildStrategies noteInterval twoLevels fun _ => 5).2 name == 1) =
      ["auto_redeeming", "multi"] ∧
    Faithful noteInterval twoLevels
      (.multi [.strategy ("auto_redeeming", Duration.fromSecs 60),
        .multi [.strategy ("auto_redeeming", Duration.fromSecs 15)]])
      (buildStrategies noteInterval twoLevels fun _ => 5).2 :=
  ⟨rfl, by decide, enabled_strategies_faithful noteInterval rfl⟩

end Hoprd.Strategy
