import Mathlib.Data.List.Induction
import Mathlib.Data.List.Pairwise

/-!
# Routing tables with layers

A route answers one method on the paths of one pattern. A layer stands before the routes
that are there when it is added: it answers a request itself or forwards it.

**Libraries (`Library.Documented`, a hypothesis about one).** Routers are put together from
routes as long as no two of them clash, a nested router gets the path without the prefix, and
a request is served by the route with the most specific pattern, behind its layers.
`Library.Documented.ran_iff` says when a request gets through to a handler.

`Tree` is such a library (`Tree.documented`): it goes down the path segment by segment and
tries a literal before a parameter, as a radix tree does; what it ends in is the most
specific pattern (`mem_search`), whatever the order of the routes.
-/
namespace Core.Routing

/-! ## Patterns -/

inductive Segment where
  | literal (text : String)
  | param (name : String)
  deriving DecidableEq, Repr

abbrev Pattern := List Segment

/-- A parameter takes anything but nothing. -/
def Segment.accepts : Segment → String → Bool
  | .literal text, s => text == s
  | .param _, s => s != ""

def accepts : Pattern → List String → Bool
  | [], [] => true
  | p :: ps, s :: path => p.accepts s && accepts ps path
  | [], _ :: _ => false
  | _ :: _, [] => false

/-- A literal stands first where the patterns differ in kind for the first time. -/
def before : Pattern → Pattern → Bool
  | .literal _ :: _, .param _ :: _ => true
  | .literal _ :: p, .literal _ :: q => before p q
  | .param _ :: p, .param _ :: q => before p q
  | .param _ :: _, .literal _ :: _ => false
  | [], _ => false
  | _ :: _, [] => false

/-- A pattern without the names of its parameters, which the paths it accepts do not
depend on. -/
def shape (p : Pattern) : List (Option String) :=
  p.map fun
    | .literal text => some text
    | .param _ => none

/-- Two patterns of one path of which neither comes before the other. -/
theorem shape_eq_of_accepts {path : List String} {p q : Pattern} (hp : accepts p path = true)
    (hq : accepts q path = true) (hpq : before p q = false) (hqp : before q p = false) :
    shape p = shape q := by
  induction path generalizing p q with
  | nil =>
    match p, q, hp, hq with
    | [], [], _, _ => rfl
  | cons s path ih =>
    match p, q with
    | [], _ => cases hp
    | _ :: _, [] => cases hq
    | .literal t :: p, .literal u :: q =>
      rw [accepts, Bool.and_eq_true, Segment.accepts, beq_iff_eq] at hp hq
      have hsame : t = u := hp.1.trans hq.1.symm
      have htail : shape p = shape q := ih hp.2 hq.2 hpq hqp
      rw [shape, shape, List.map_cons, List.map_cons, hsame]
      exact congrArg _ htail
    | .param _ :: p, .param _ :: q =>
      rw [accepts, Bool.and_eq_true] at hp hq
      have htail : shape p = shape q := ih hp.2 hq.2 hpq hqp
      rw [shape, shape, List.map_cons, List.map_cons]
      exact congrArg _ htail
    | .literal _ :: _, .param _ :: _ => cases hpq
    | .param _ :: _, .literal _ :: _ => cases hqp

/-! ## The search -/

variable {R : Type}

/-- What is left of an entry after a literal segment. -/
def afterLiteral (s : String) : Pattern × R → Option (Pattern × R)
  | (.literal t :: p, r) => if t = s then some (p, r) else none
  | (.param _ :: _, _) => none
  | ([], _) => none

/-- What is left of an entry after a parameter. -/
def afterParam (s : String) : Pattern × R → Option (Pattern × R)
  | (.param _ :: p, r) => if s = "" then none else some (p, r)
  | (.literal _ :: _, _) => none
  | ([], _) => none

/-- What ends where the path does. -/
def ended : Pattern × R → Option R
  | ([], r) => some r
  | (_ :: _, _) => none

/-- The entries that the path leads to, a literal tried before a parameter. -/
def search : List String → List (Pattern × R) → List R
  | [], entries => entries.filterMap ended
  | s :: path, entries =>
    match search path (entries.filterMap (afterLiteral s)) with
    | [] => search path (entries.filterMap (afterParam s))
    | found => found

theorem afterLiteral_eq_some {s : String} {e : Pattern × R} {p : Pattern} {r : R} :
    afterLiteral s e = some (p, r) ↔ e = (.literal s :: p, r) := by
  match e with
  | ([], r') => simp [afterLiteral]
  | (.param n :: p', r') => simp [afterLiteral]
  | (.literal t :: p', r') =>
    by_cases ht : t = s
    · simp [afterLiteral, ht]
    · simp [afterLiteral, ht]

theorem afterParam_eq_some {s : String} {e : Pattern × R} {p : Pattern} {r : R} :
    afterParam s e = some (p, r) ↔ s ≠ "" ∧ ∃ name, e = (.param name :: p, r) := by
  match e with
  | ([], r') => simp [afterParam]
  | (.literal t :: p', r') => simp [afterParam]
  | (.param n :: p', r') =>
    by_cases hs : s = ""
    · simp [afterParam, hs]
    · simp [afterParam, hs]

theorem ended_eq_some {e : Pattern × R} {r : R} : ended e = some r ↔ e = ([], r) := by
  match e with
  | ([], r') => simp [ended]
  | (_ :: _, r') => simp [ended]

section
variable {entries : List (Pattern × R)} {s : String} {path : List String} {p : Pattern} {r : R}

theorem mem_afterLiteral :
    (p, r) ∈ entries.filterMap (afterLiteral s) ↔ (.literal s :: p, r) ∈ entries := by
  simp only [List.mem_filterMap, afterLiteral_eq_some]
  constructor
  · rintro ⟨e, he, rfl⟩
    exact he
  · exact fun h => ⟨_, h, rfl⟩

theorem mem_afterParam :
    (p, r) ∈ entries.filterMap (afterParam s) ↔
      s ≠ "" ∧ ∃ name, (.param name :: p, r) ∈ entries := by
  simp only [List.mem_filterMap, afterParam_eq_some]
  constructor
  · rintro ⟨e, he, hs, name, rfl⟩
    exact ⟨hs, name, he⟩
  · rintro ⟨hs, name, h⟩
    exact ⟨_, h, hs, name, rfl⟩

/-- The entry stands where the search of the path ends. -/
def Reached (entries : List (Pattern × R)) (path : List String) (r : R) : Prop :=
  ∃ p, (p, r) ∈ entries ∧ accepts p path = true ∧
    ∀ e ∈ entries, accepts e.1 path = true → before e.1 p = false

end

theorem search_eq_nil {path : List String} {entries : List (Pattern × R)} :
    search path entries = [] ↔ ∀ e ∈ entries, accepts e.1 path = false := by
  induction path generalizing entries with
  | nil =>
    rw [search, List.filterMap_eq_nil_iff]
    refine forall₂_congr fun e _ => ?_
    match e with
    | ([], r) => simp [ended, accepts]
    | (_ :: _, r) => simp [ended, accepts]
  | cons s path ih =>
    have hsplit : search (s :: path) entries = [] ↔
        search path (entries.filterMap (afterLiteral s)) = [] ∧
          search path (entries.filterMap (afterParam s)) = [] := by
      rw [search]
      cases search path (entries.filterMap (afterLiteral s)) with
      | nil => simp
      | cons r found => simp
    rw [hsplit, ih, ih]
    constructor
    · rintro ⟨hliteral, hparam⟩ ⟨p, r⟩ he
      match p with
      | [] => rfl
      | .literal t :: p =>
        by_cases ht : t = s
        · subst ht
          rw [accepts, hliteral (p, r) (mem_afterLiteral.mpr he), Bool.and_false]
        · simp [accepts, Segment.accepts, ht]
      | .param name :: p =>
        by_cases hs : s = ""
        · simp [accepts, Segment.accepts, hs]
        · rw [accepts, hparam (p, r) (mem_afterParam.mpr ⟨hs, name, he⟩), Bool.and_false]
    · intro h
      refine ⟨fun e he => ?_, fun e he => ?_⟩
      · have haccepts := h _ (mem_afterLiteral (p := e.1) (r := e.2) |>.mp he)
        simpa [accepts, Segment.accepts] using haccepts
      · obtain ⟨hs, name, hmem⟩ := mem_afterParam (p := e.1) (r := e.2) |>.mp he
        have haccepts := h _ hmem
        simpa [accepts, Segment.accepts, hs] using haccepts

/-- **The most specific pattern**, whatever the order of the entries. -/
theorem mem_search {path : List String} {entries : List (Pattern × R)} {r : R} :
    r ∈ search path entries ↔ Reached entries path r := by
  induction path generalizing entries with
  | nil =>
    rw [search, List.mem_filterMap]
    constructor
    · rintro ⟨e, he, hended⟩
      rw [ended_eq_some] at hended
      subst hended
      refine ⟨[], he, rfl, fun e _ haccepts => ?_⟩
      match e.1, haccepts with
      | [], _ => rfl
    · rintro ⟨p, hp, haccepts, -⟩
      match p, haccepts with
      | [], _ => exact ⟨_, hp, rfl⟩
  | cons s path ih =>
    by_cases hnil : search path (entries.filterMap (afterLiteral s)) = []
    · -- no literal leads on: the parameters are tried
      have hnone := search_eq_nil.mp hnil
      have hno : ∀ t p r', (.literal t :: p, r') ∈ entries →
          accepts (.literal t :: p) (s :: path) = false := by
        intro t p r' he
        by_cases ht : t = s
        · subst ht
          rw [accepts, hnone (p, r') (mem_afterLiteral.mpr he), Bool.and_false]
        · simp [accepts, Segment.accepts, ht]
      have hsearch : search (s :: path) entries =
          search path (entries.filterMap (afterParam s)) := by
        rw [search, hnil]
      rw [hsearch, ih]
      constructor
      · rintro ⟨p, hp, haccepts, hfirst⟩
        obtain ⟨hs, name, hmem⟩ := mem_afterParam.mp hp
        refine ⟨.param name :: p, hmem, ?_, ?_⟩
        · simpa [accepts, Segment.accepts, hs] using haccepts
        · rintro ⟨q, r'⟩ he hq
          match q with
          | [] => rfl
          | .literal t :: q =>
            rw [hno t q r' he] at hq
            cases hq
          | .param name' :: q =>
            rw [accepts, Bool.and_eq_true] at hq
            exact hfirst (q, r') (mem_afterParam.mpr ⟨hs, name', he⟩) hq.2
      · rintro ⟨p, hp, haccepts, hfirst⟩
        match p with
        | [] => cases haccepts
        | .literal t :: p =>
          rw [hno t p r hp] at haccepts
          cases haccepts
        | .param name :: p =>
          rw [accepts, Bool.and_eq_true] at haccepts
          have hs : s ≠ "" := by simpa [Segment.accepts] using haccepts.1
          refine ⟨p, mem_afterParam.mpr ⟨hs, name, hp⟩, haccepts.2, ?_⟩
          rintro ⟨q, r'⟩ he hq
          obtain ⟨-, name', hmem⟩ := mem_afterParam.mp he
          refine hfirst _ hmem ?_
          simpa [accepts, Segment.accepts, hs] using hq
    · -- some literal leads on, and comes before every parameter
      have hsearch : search (s :: path) entries =
          search path (entries.filterMap (afterLiteral s)) := by
        rw [search]
        split
        · next h => exact absurd h hnil
        · rfl
      have hsome : ∃ q r', (.literal s :: q, r') ∈ entries ∧ accepts q path = true := by
        rw [search_eq_nil, not_forall] at hnil
        obtain ⟨⟨q, r'⟩, hq⟩ := hnil
        rw [Classical.not_imp, Bool.not_eq_false] at hq
        exact ⟨q, r', mem_afterLiteral.mp hq.1, hq.2⟩
      rw [hsearch, ih]
      constructor
      · rintro ⟨p, hp, haccepts, hfirst⟩
        refine ⟨.literal s :: p, mem_afterLiteral.mp hp, ?_, ?_⟩
        · simpa [accepts, Segment.accepts] using haccepts
        · rintro ⟨q, r'⟩ he hq
          match q with
          | [] => rfl
          | .param _ :: q => rfl
          | .literal t :: q =>
            rw [accepts, Bool.and_eq_true, Segment.accepts, beq_iff_eq] at hq
            obtain ⟨rfl, hq⟩ := hq
            exact hfirst (q, r') (mem_afterLiteral.mpr he) hq
      · rintro ⟨p, hp, haccepts, hfirst⟩
        match p with
        | [] => cases haccepts
        | .param name :: p =>
          obtain ⟨q, r', he, hq⟩ := hsome
          have hbefore := hfirst _ he (by simpa [accepts, Segment.accepts] using hq)
          cases hbefore
        | .literal t :: p =>
          rw [accepts, Bool.and_eq_true, Segment.accepts, beq_iff_eq] at haccepts
          obtain ⟨rfl, haccepts⟩ := haccepts
          refine ⟨p, mem_afterLiteral.mpr hp, haccepts, ?_⟩
          rintro ⟨q, r'⟩ he hq
          refine hfirst _ (mem_afterLiteral.mp he) ?_
          simpa [accepts, Segment.accepts] using hq

/-! ## Layers -/

/-- What stands before a handler: it answers a request, or forwards it and may change the
answer. -/
structure Layer (Q A : Type) where
  answers : Q → Option A
  forward : Q → Q
  after : Q → A → A

variable {Q A H : Type}

/-- A service answers a request; beside the answer stand the handlers that have run. -/
def Layer.wrap (l : Layer Q A) (service : Q → A × List H) (q : Q) : A × List H :=
  match l.answers q with
  | some a => (a, [])
  | none =>
    let (a, ran) := service (l.forward q)
    (l.after q a, ran)

/-- The first layer is the outermost one. -/
def through (layers : List (Layer Q A)) (service : Q → A × List H) : Q → A × List H :=
  layers.foldr Layer.wrap service

/-- No layer answers the request. -/
def passes : List (Layer Q A) → Q → Prop
  | [], _ => True
  | l :: layers, q => l.answers q = none ∧ passes layers (l.forward q)

/-- The request as it comes out of the layers. -/
def forwarded (layers : List (Layer Q A)) (q : Q) : Q := layers.foldl (fun q l => l.forward q) q

theorem passes_append {layers layers' : List (Layer Q A)} {q : Q} :
    passes (layers ++ layers') q ↔ passes layers q ∧ passes layers' (forwarded layers q) := by
  induction layers generalizing q with
  | nil => simp [passes, forwarded]
  | cons l layers ih =>
    rw [List.cons_append, passes, passes, ih, and_assoc]
    rfl

theorem ran_through {layers : List (Layer Q A)} {service : Q → A × List H} {q : Q} {h : H} :
    h ∈ (through layers service q).2 ↔
      passes layers q ∧ h ∈ (service (forwarded layers q)).2 := by
  induction layers generalizing q with
  | nil => simp [passes, forwarded, through]
  | cons l layers ih =>
    show h ∈ (l.wrap (through layers service) q).2 ↔ _
    unfold Layer.wrap passes
    cases hanswers : l.answers q with
    | some a => simp
    | none =>
      simp only [true_and]
      exact ih

/-! ## Routers -/

inductive Method where
  | get | head | post | delete | options
  | other (name : String)
  deriving DecidableEq, Repr

structure Route (Q A H : Type) where
  pattern : Pattern
  method : Method
  /-- The first layer is the outermost one. -/
  layers : List (Layer Q A)
  handler : H

def Route.key (r : Route Q A H) : Pattern × Method := (r.pattern, r.method)

/-- No router has both: the patterns differ in the names of parameters alone, or one method
is given twice for a pattern. -/
def Clash (r s : Pattern × Method) : Prop := shape r.1 = shape s.1 ∧ (r.1 = s.1 → r.2 = s.2)

instance (r s : Pattern × Method) : Decidable (Clash r s) := inferInstanceAs (Decidable (_ ∧ _))

theorem Clash.symm {r s : Pattern × Method} (h : Clash r s) : Clash s r :=
  ⟨h.1.symm, fun hsame => (h.2 hsame.symm).symm⟩

theorem clash_under {pre : Pattern} {r s : Pattern × Method} :
    Clash (pre ++ r.1, r.2) (pre ++ s.1, s.2) ↔ Clash r s := by
  simp [Clash, shape]

/-- No two of them clash. -/
def Apart (keys : List (Pattern × Method)) : Prop := keys.Pairwise fun r s => ¬ Clash r s

instance (keys : List (Pattern × Method)) : Decidable (Apart keys) :=
  inferInstanceAs (Decidable (keys.Pairwise _))

theorem apart_under (pre : Pattern) {keys : List (Pattern × Method)} :
    Apart (keys.map fun r => (pre ++ r.1, r.2)) ↔ Apart keys := by
  simp only [Apart, List.pairwise_map, clash_under]

/-- `r` answers the method; routes of `GET` answer `HEAD` too. -/
def Route.Answers (r : Route Q A H) (m : Method) : Prop :=
  r.method = m ∨ m = .head ∧ r.method = .get

/-- The route is the one for the request: its pattern is the most specific one. -/
structure Chosen (routes : List (Route Q A H)) (m : Method) (path : List String)
    (r : Route Q A H) : Prop where
  mem : r ∈ routes
  accepts : accepts r.pattern path = true
  answers : r.Answers m
  first : ∀ s ∈ routes, Routing.accepts s.pattern path = true → before s.pattern r.pattern = false

/-! ## Libraries of routers -/

/-- What a router reads of a request, and the request without the first segments of its path. -/
structure View (Q : Type) where
  method : Q → Method
  path : Q → List String
  drop : Nat → Q → Q

/-- What stands before the routes of a nested router. -/
def View.strip (view : View Q) (pre : Pattern) : Layer Q A where
  answers _ := none
  forward := view.drop pre.length
  after _ a := a

/-- A library of routers, each known by its routes; `none` where it refuses to build one. What
serves a request for a handler is up to its user. -/
structure Library (Q A H : Type) where
  Router : Type
  routes : Router → List (Route Q A H)
  new : Router
  route : Router → Pattern → Method → H → Option Router
  merge : Router → Router → Option Router
  nest : Router → Pattern → Router → Option Router
  layer : Router → Layer Q A → Router
  serve : Router → (H → Q → A × List H) → Q → A × List H

namespace Library

def keys (lib : Library Q A H) (router : lib.Router) : List (Pattern × Method) :=
  (lib.routes router).map Route.key

/-- Routes given one after the other. -/
def routeAll (lib : Library Q A H) (router : lib.Router) (rs : List (Pattern × Method × H)) :
    Option lib.Router :=
  rs.foldlM (fun router r => lib.route router r.1 r.2.1 r.2.2) router

/-- See the header. -/
structure Documented (lib : Library Q A H) (view : View Q) : Prop where
  new : lib.routes lib.new = []
  route : ∀ router pattern method h, Apart (lib.keys router ++ [(pattern, method)]) →
    ∃ all, lib.route router pattern method h = some all ∧
      lib.routes all = lib.routes router ++ [⟨pattern, method, [], h⟩]
  merge : ∀ router other, Apart (lib.keys router ++ lib.keys other) →
    ∃ both, lib.merge router other = some both ∧
      lib.routes both = lib.routes router ++ lib.routes other
  nest : ∀ router pre nested,
    Apart (lib.keys router ++ (lib.keys nested).map fun r => (pre ++ r.1, r.2)) →
    ∃ both, lib.nest router pre nested = some both ∧
      lib.routes both = lib.routes router ++ (lib.routes nested).map fun r =>
        { r with pattern := pre ++ r.pattern, layers := view.strip pre :: r.layers }
  layer : ∀ router l, lib.routes (lib.layer router l) =
    (lib.routes router).map fun r => { r with layers := l :: r.layers }
  chosen : ∀ router service q r, (∀ r ∈ lib.routes router, r.method ≠ .head) →
    Chosen (lib.routes router) (view.method q) (view.path q) r →
    lib.serve router service q = through r.layers (service r.handler) q
  missing : ∀ router service q,
    (∀ r, ¬ Chosen (lib.routes router) (view.method q) (view.path q) r) →
    (lib.serve router service q).2 = []

variable {lib : Library Q A H} {view : View Q}

theorem keys_of_routes {router : lib.Router} {rs ss : List (Route Q A H)}
    (h : lib.routes router = rs ++ ss) :
    lib.keys router = rs.map Route.key ++ ss.map Route.key := by
  rw [keys, h, List.map_append]

theorem Documented.keys_layer (doc : lib.Documented view) (router : lib.Router) (l : Layer Q A) :
    lib.keys (lib.layer router l) = lib.keys router := by
  rw [keys, doc.layer, List.map_map]
  rfl

theorem Documented.exists_routeAll (doc : lib.Documented view) (router : lib.Router)
    {rs : List (Pattern × Method × H)}
    (h : Apart (lib.keys router ++ rs.map fun r => (r.1, r.2.1))) :
    ∃ all, lib.routeAll router rs = some all ∧
      lib.routes all = lib.routes router ++ rs.map fun r => ⟨r.1, r.2.1, [], r.2.2⟩ := by
  induction rs generalizing router with
  | nil => exact ⟨router, rfl, (List.append_nil _).symm⟩
  | cons r rs ih =>
    rw [List.map_cons, List.append_cons] at h
    obtain ⟨both, hboth, hroutes⟩ :=
      doc.route router r.1 r.2.1 r.2.2 (List.pairwise_append.mp h).1
    rw [← show lib.keys both = lib.keys router ++ [(r.1, r.2.1)] from keys_of_routes hroutes] at h
    obtain ⟨all, hall, hrest⟩ := ih both h
    refine ⟨all, ?_, ?_⟩
    · unfold routeAll at hall ⊢
      rw [List.foldlM_cons, hboth]
      exact hall
    · rw [hrest, hroutes, List.map_cons, List.append_assoc]
      rfl

theorem Documented.exists_new (doc : lib.Documented view) {rs : List (Pattern × Method × H)}
    (h : Apart (rs.map fun r => (r.1, r.2.1))) :
    ∃ all, lib.routeAll lib.new rs = some all ∧
      lib.routes all = rs.map fun r => ⟨r.1, r.2.1, [], r.2.2⟩ := by
  have hkeys : lib.keys lib.new = [] := by
    rw [keys, doc.new]
    rfl
  have hapart : Apart (lib.keys lib.new ++ rs.map fun r => (r.1, r.2.1)) := by rwa [hkeys]
  obtain ⟨all, hall, hroutes⟩ := doc.exists_routeAll lib.new hapart
  exact ⟨all, hall, by rw [hroutes, doc.new, List.nil_append]⟩

/-- **What runs**: what serves the handler of the route for the request, if no layer answers. -/
theorem Documented.ran_iff (doc : lib.Documented view) {router : lib.Router}
    {service : H → Q → A × List H} {q : Q} {h : H}
    (hhead : ∀ r ∈ lib.routes router, r.method ≠ .head) :
    h ∈ (lib.serve router service q).2 ↔
      ∃ r, Chosen (lib.routes router) (view.method q) (view.path q) r ∧ passes r.layers q ∧
        h ∈ (service r.handler (forwarded r.layers q)).2 := by
  constructor
  · intro hran
    by_cases hr : ∃ r, Chosen (lib.routes router) (view.method q) (view.path q) r
    · obtain ⟨r, hr⟩ := hr
      rw [doc.chosen router service q r hhead hr, ran_through] at hran
      exact ⟨r, hr, hran⟩
    · rw [doc.missing router service q fun r h => hr ⟨r, h⟩] at hran
      cases hran
  · rintro ⟨r, hr, hran⟩
    rw [doc.chosen router service q r hhead hr, ran_through]
    exact hran

end Library

/-! ## A radix tree -/

structure Tree (Q A H : Type) where
  routes : List (Route Q A H)
  apart : Apart (routes.map Route.key)

namespace Tree

variable {view : View Q} {missing : Q → A}

def new : Tree Q A H := ⟨[], .nil⟩

/-- Routes that clash are refused. -/
def add (tree : Tree Q A H) (routes : List (Route Q A H)) : Option (Tree Q A H) :=
  if h : Apart (tree.routes.map Route.key ++ routes.map Route.key) then
    some ⟨tree.routes ++ routes, by rw [List.map_append]; exact h⟩
  else none

/-- The layer stands before the routes there are. -/
def layer (tree : Tree Q A H) (l : Layer Q A) : Tree Q A H where
  routes := tree.routes.map fun r => { r with layers := l :: r.layers }
  apart := by
    rw [List.map_map]
    exact tree.apart

/-- The route of a request, of those that its path leads to. -/
def answering (m : Method) (routes : List (Route Q A H)) : Option (Route Q A H) :=
  match routes.find? fun r => r.method = m with
  | some r => some r
  | none => if m = .head then routes.find? fun r => r.method = .get else none

def dispatch (tree : Tree Q A H) (m : Method) (path : List String) : Option (Route Q A H) :=
  answering m (search path (tree.routes.map fun r => (r.pattern, r)))

theorem mem_found {tree : Tree Q A H} {path : List String} {r : Route Q A H} :
    r ∈ search path (tree.routes.map fun r => (r.pattern, r)) ↔
      r ∈ tree.routes ∧ accepts r.pattern path = true ∧
        ∀ s ∈ tree.routes, accepts s.pattern path = true →
          before s.pattern r.pattern = false := by
  rw [mem_search]
  constructor
  · rintro ⟨p, hmem, haccepts, hfirst⟩
    obtain ⟨s, hs, heq⟩ := List.mem_map.mp hmem
    cases heq
    exact ⟨hs, haccepts, fun t ht => hfirst _ (List.mem_map_of_mem ht)⟩
  · rintro ⟨hr, haccepts, hfirst⟩
    refine ⟨r.pattern, List.mem_map_of_mem hr, haccepts, fun e he => ?_⟩
    obtain ⟨s, hs, rfl⟩ := List.mem_map.mp he
    exact hfirst s hs

theorem eq_of_clash {tree : Tree Q A H} {r s : Route Q A H} (hr : r ∈ tree.routes)
    (hs : s ∈ tree.routes) (h : Clash r.key s.key) : r = s := by
  by_contra hne
  have hsymm : Std.Symm fun r s : Route Q A H => ¬ Clash r.key s.key :=
    ⟨fun _ _ h h' => h h'.symm⟩
  exact (List.pairwise_map.mp tree.apart).forall hr hs hne h

theorem answering_eq_some {m : Method} {routes : List (Route Q A H)} {r : Route Q A H}
    (h : answering m routes = some r) : r ∈ routes ∧ r.Answers m := by
  unfold answering at h
  split at h
  · next s hfind =>
    cases h
    exact ⟨List.mem_of_find?_eq_some hfind, .inl (by simpa using List.find?_some hfind)⟩
  · split at h
    · next hm =>
      exact ⟨List.mem_of_find?_eq_some h, .inr ⟨hm, by simpa using List.find?_some h⟩⟩
    · cases h

theorem answering_isSome {m : Method} {routes : List (Route Q A H)} {r : Route Q A H}
    (hr : r ∈ routes) (h : r.Answers m) : ∃ s, answering m routes = some s := by
  unfold answering
  split
  · next s _ => exact ⟨s, rfl⟩
  · next hnone =>
    rcases h with h | ⟨rfl, h⟩
    · have hno := List.find?_eq_none.mp hnone r hr
      simp [h] at hno
    · rw [if_pos rfl]
      cases hget : routes.find? fun r => r.method = .get with
      | some s => exact ⟨s, rfl⟩
      | none =>
        have hno := List.find?_eq_none.mp hget r hr
        simp [h] at hno

/-- **One route at most**, by its pattern and method. -/
theorem dispatch_eq_some_iff {tree : Tree Q A H} {m : Method} {path : List String}
    {r : Route Q A H} (hhead : ∀ r ∈ tree.routes, r.method ≠ .head) :
    tree.dispatch m path = some r ↔ Chosen tree.routes m path r := by
  have hchosen : ∀ {s}, tree.dispatch m path = some s → Chosen tree.routes m path s := by
    intro s hs
    obtain ⟨hmem, hanswers⟩ := answering_eq_some hs
    obtain ⟨htree, haccepts, hfirst⟩ := mem_found.mp hmem
    exact ⟨htree, haccepts, hanswers, hfirst⟩
  refine ⟨hchosen, fun h => ?_⟩
  obtain ⟨s, hs⟩ := answering_isSome (mem_found.mpr ⟨h.mem, h.accepts, h.first⟩) h.answers
  have hother := hchosen hs
  have hmethod : s.method = r.method := by
    rcases hother.answers with hm | ⟨hm, hget⟩
    · rcases h.answers with hm' | ⟨hm', -⟩
      · exact hm.trans hm'.symm
      · exact absurd (hm.trans hm') (hhead s hother.mem)
    · rcases h.answers with hm' | ⟨-, hget'⟩
      · exact absurd (hm'.trans hm) (hhead r h.mem)
      · exact hget.trans hget'.symm
  have hshape : shape s.pattern = shape r.pattern :=
    shape_eq_of_accepts hother.accepts h.accepts (h.first s hother.mem hother.accepts)
      (hother.first r h.mem h.accepts)
  obtain rfl : s = r := eq_of_clash hother.mem h.mem ⟨hshape, fun _ => hmethod⟩
  exact hs

/-- What answers a request: what serves the handler, behind the layers, or `missing` where there
is no route for it. -/
def serve (view : View Q) (missing : Q → A) (tree : Tree Q A H) (service : H → Q → A × List H)
    (q : Q) : A × List H :=
  match tree.dispatch (view.method q) (view.path q) with
  | some r => through r.layers (service r.handler) q
  | none => (missing q, [])

def library (view : View Q) (missing : Q → A) : Library Q A H where
  Router := Tree Q A H
  routes := Tree.routes
  new := new
  route tree pattern method h := tree.add [⟨pattern, method, [], h⟩]
  merge tree other := tree.add other.routes
  nest tree pre nested := tree.add (nested.routes.map fun r =>
    { r with pattern := pre ++ r.pattern, layers := view.strip pre :: r.layers })
  layer := layer
  serve := serve view missing

theorem exists_add (tree : Tree Q A H) {routes : List (Route Q A H)}
    (h : Apart (tree.routes.map Route.key ++ routes.map Route.key)) :
    ∃ all, tree.add routes = some all ∧ all.routes = tree.routes ++ routes := by
  unfold add
  rw [dif_pos h]
  exact ⟨_, rfl, rfl⟩

theorem documented (view : View Q) (missing : Q → A) :
    (library (H := H) view missing).Documented view where
  new := rfl
  route tree _ _ _ h := tree.exists_add h
  merge tree other h := tree.exists_add h
  nest tree pre nested h := by
    refine tree.exists_add ?_
    rw [List.map_map]
    rw [Library.keys, Library.keys, List.map_map] at h
    exact h
  layer _ _ := rfl
  chosen tree service q r hhead hr := by
    have hdispatch := (dispatch_eq_some_iff hhead).mpr hr
    show serve view missing tree service q = _
    unfold serve
    rw [hdispatch]
  missing tree service q hnone := by
    show (serve view missing tree service q).2 = []
    unfold serve
    split
    · next r hdispatch =>
      obtain ⟨hmem, hanswers⟩ := answering_eq_some hdispatch
      obtain ⟨htree, haccepts, hfirst⟩ := mem_found.mp hmem
      exact absurd ⟨htree, haccepts, hanswers, hfirst⟩ (hnone r)
    · rfl

end Tree

end Core.Routing
