import Hoprd.Core.LTS
import Mathlib.Data.List.Perm.Basic
import Mathlib.Data.List.Nodup
import Mathlib.Data.List.ReduceOption

/-!
# Loops that try again until a deadline

`Loop` makes an attempt, returns if it left nothing to do or broke, and otherwise reads
the clock: past the deadline it gives up with what the attempt left, else it sleeps and
tries again. What an attempt does is a parameter (`Attempt`), and it takes as long as it
likes.

* `returns_iff`: the events of a call that returns are rounds that left something, at most
  so many as the deadline lets begin, and a last one that decides what is returned.
* `ends`: whatever the attempts do, every run is finite and only a return ends it.
* `Gather` is the attempt that sends one request for each item at once and waits for all
  answers; `gather_iff`: they come in any order, and what is left are the items whose own
  answer is not good.
-/
namespace Core.Polling

/-- What an attempt came to. -/
inductive Outcome (M E : Type) where
  | complete
  | missing (left : M)
  | error (e : E)
  deriving DecidableEq, Repr

/-- What the loop returns. -/
inductive Result (M E : Type) where
  | ok
  | timeout (left : M)
  | error (e : E)
  deriving DecidableEq, Repr

/-- What is returned if the clock has run out. -/
def Outcome.result {M E : Type} : Outcome M E → Result M E
  | .complete => .ok
  | .missing left => .timeout left
  | .error e => .error e

structure Attempt (A L M E : Type) where
  start : A
  step : A → L → Option A
  outcome : A → Option (Outcome M E)

namespace Attempt

variable {A L M E : Type} (T : Attempt A L M E)

/-- The attempt on its own: it goes on until it has an outcome. -/
def work : LTS A L where
  init a := a = T.start
  step a l a' := T.outcome a = none ∧ T.step a l = some a'

/-- An attempt that does `ls` comes to `o`. -/
def Attempted (ls : List L) (o : Outcome M E) : Prop :=
  ∃ a, T.work.Run T.start ls a ∧ T.outcome a = some o

end Attempt

inductive Event (L : Type) where
  | did (l : L)
  | slept
  | returned
  deriving DecidableEq, Repr

/-- Whether another round begins. -/
def Event.begins {L : Type} : Event L → Bool
  | .slept => true
  | .did _ | .returned => false

structure Loop (A L M E : Type) extends Attempt A L M E where
  timeout : Nat
  pause : Nat

inductive Stage (A M E : Type) where
  | trying (a : A)
  | returned (r : Result M E)

namespace Loop

variable {A L M E : Type} (P : Loop A L M E)

/-- The state is the time since the loop began and where it is. -/
inductive Step : Nat × Stage A M E → Event L → Nat × Stage A M E → Prop
  | did {t t' : Nat} {a a' : A} {l : L} (hnone : P.outcome a = none) (hstep : P.step a l = some a')
      (ht : t ≤ t') : Step (t, .trying a) (.did l) (t', .trying a')
  | slept {t read t' : Nat} {a : A} {left : M} (ho : P.outcome a = some (.missing left))
      (hread : t ≤ read) (htime : read ≤ P.timeout) (ht : read + P.pause ≤ t') :
      Step (t, .trying a) .slept (t', .trying P.start)
  | timeout {t read : Nat} {a : A} {left : M} (ho : P.outcome a = some (.missing left))
      (hread : t ≤ read) (htime : P.timeout < read) :
      Step (t, .trying a) .returned (read, .returned (.timeout left))
  | ok {t t' : Nat} {a : A} (ho : P.outcome a = some .complete) (ht : t ≤ t') :
      Step (t, .trying a) .returned (t', .returned .ok)
  | error {t t' : Nat} {a : A} {e : E} (ho : P.outcome a = some (.error e)) (ht : t ≤ t') :
      Step (t, .trying a) .returned (t', .returned (.error e))

def system : LTS (Nat × Stage A M E) (Event L) where
  init s := s = (0, .trying P.start)
  step := P.Step

/-- The events of a round that is followed by another one. -/
def round (ls : List L) : List (Event L) := ls.map .did ++ [.slept]

/-- The events of a call: the rounds it made in vain and its last one. -/
def call (rounds : List (List L)) (last : List L) : List (Event L) :=
  rounds.flatMap round ++ (last.map .did ++ [.returned])

/-- A call that made `rounds` in vain and returned `r` after `last`. -/
structure Returns (rounds : List (List L)) (last : List L) (r : Result M E) : Prop where
  vain : ∀ ls ∈ rounds, ∃ left, P.Attempted ls (.missing left)
  last : ∃ o, P.Attempted last o ∧ o.result = r
  /-- the last of the rounds in vain began before the deadline -/
  intime : rounds.length * P.pause ≤ P.timeout + P.pause

/-! ## One round -/

/-- Where an attempt ends, the loop gets to with the same events, in no time if it likes. -/
theorem work_run {a a' : A} {ls : List L} (h : P.work.Run a ls a') (t : Nat) :
    P.system.Run (t, .trying a) (ls.map .did) (t, .trying a') := by
  induction h with
  | nil => exact .nil _
  | cons hs _ ih => exact .cons (.did hs.1 hs.2 (Nat.le_refl t)) ih

/-- After a return nothing happens. -/
theorem returned_run {t : Nat} {r : Result M E} {es : List (Event L)} {s : Nat × Stage A M E}
    (h : P.system.Run (t, .returned r) es s) : es = [] ∧ s = (t, .returned r) := by
  cases h with
  | nil => exact ⟨rfl, rfl⟩
  | cons hs _ => nomatch hs

/-- A run from an attempt is still in it, or has gone through the rest of it and on. -/
theorem run_cases {t : Nat} {a : A} {es : List (Event L)} {s : Nat × Stage A M E}
    (h : P.system.Run (t, .trying a) es s) :
    (∃ ls t' a', P.work.Run a ls a' ∧ es = ls.map .did ∧ s = (t', .trying a') ∧ t ≤ t') ∨
    (∃ ls a' read t' left es', P.work.Run a ls a' ∧ P.outcome a' = some (.missing left) ∧
      es = round ls ++ es' ∧ t ≤ read ∧ read ≤ P.timeout ∧ read + P.pause ≤ t' ∧
      P.system.Run (t', .trying P.start) es' s) ∨
    ∃ ls a' t' o, P.work.Run a ls a' ∧ P.outcome a' = some o ∧
      es = ls.map .did ++ [.returned] ∧ s = (t', .returned o.result) := by
  generalize hfrom : (t, Stage.trying a) = from' at h
  induction h generalizing t a with
  | nil => exact .inl ⟨[], t, a, .nil a, rfl, hfrom.symm, Nat.le_refl t⟩
  | @cons s₀ s₁ s₂ e es hs hrun ih =>
    subst hfrom
    cases hs with
    | @did _ t₁ _ a₁ l hnone hstep ht =>
      have hwork : P.work.step a l a₁ := ⟨hnone, hstep⟩
      rcases ih rfl with ⟨ls, t', a', hw, hes, hs', ht'⟩ |
        ⟨ls, a', read, t', left, es', hw, ho, hes, hread, htime, ht', hrest⟩ |
        ⟨ls, a', t', o, hw, ho, hes, hs'⟩
      · exact .inl ⟨l :: ls, t', a', .cons hwork hw, by rw [hes, List.map_cons], hs',
          Nat.le_trans ht ht'⟩
      · refine .inr (.inl ⟨l :: ls, a', read, t', left, es', .cons hwork hw, ho, ?_,
          Nat.le_trans ht hread, htime, ht', hrest⟩)
        rw [hes]
        rfl
      · refine .inr (.inr ⟨l :: ls, a', t', o, .cons hwork hw, ho, ?_, hs'⟩)
        rw [hes]
        rfl
    | @slept _ read t' _ left ho hread htime ht =>
      exact .inr (.inl ⟨[], a, read, t', left, es, .nil a, ho, rfl, hread, htime, ht, hrun⟩)
    | @timeout _ read _ left ho hread htime =>
      obtain ⟨rfl, rfl⟩ := P.returned_run hrun
      exact .inr (.inr ⟨[], a, read, .missing left, .nil a, ho, rfl, rfl⟩)
    | @ok _ t' _ ho ht =>
      obtain ⟨rfl, rfl⟩ := P.returned_run hrun
      exact .inr (.inr ⟨[], a, t', .complete, .nil a, ho, rfl, rfl⟩)
    | @error _ t' _ e ho ht =>
      obtain ⟨rfl, rfl⟩ := P.returned_run hrun
      exact .inr (.inr ⟨[], a, t', .error e, .nil a, ho, rfl, rfl⟩)

/-! ## All rounds -/

/-- How many more rounds may begin after time `t`. -/
def More (t n : Nat) : Prop := n = 0 ∨ t + n * P.pause ≤ P.timeout + P.pause

theorem more_succ {t read t' n : Nat} (hread : t ≤ read) (htime : read ≤ P.timeout)
    (ht : read + P.pause ≤ t') (h : P.More t' n) : P.More t (n + 1) := by
  right
  rcases h with rfl | h
  · rw [Nat.zero_add, Nat.one_mul]
    exact Nat.add_le_add_right (Nat.le_trans hread htime) _
  · calc t + (n + 1) * P.pause = (t + P.pause) + n * P.pause := by rw [Nat.succ_mul]; omega
      _ ≤ t' + n * P.pause := Nat.add_le_add_right (by omega) _
      _ ≤ P.timeout + P.pause := h

/-- What a run that ended made of its events. -/
theorem returns_of_run (n : Nat) {t t' : Nat} {es : List (Event L)} {r : Result M E}
    (hn : es.length ≤ n) (h : P.system.Run (t, .trying P.start) es (t', .returned r)) :
    ∃ rounds last o, es = call rounds last ∧
      (∀ ls ∈ rounds, ∃ left, P.Attempted ls (.missing left)) ∧
      P.Attempted last o ∧ o.result = r ∧ P.More t rounds.length := by
  induction n generalizing t es with
  | zero =>
    obtain rfl := List.length_eq_zero_iff.1 (Nat.le_zero.1 hn)
    cases h
  | succ n ih =>
    rcases P.run_cases h with ⟨_, _, _, _, _, hs, _⟩ |
      ⟨ls, a', read, t₁, left, es', hw, ho, hes, hread, htime, ht, hrest⟩ |
      ⟨ls, a', t₁, o, hw, ho, hes, hs⟩
    · cases hs
    · have hlen : es'.length ≤ n := by
        have hlength := congrArg List.length hes
        simp only [round, List.length_append, List.length_map, List.length_singleton] at hlength
        omega
      obtain ⟨rounds, last, o, hes', hvain, hlast, hr, hmore⟩ := ih hlen hrest
      refine ⟨ls :: rounds, last, o, ?_, ?_, hlast, hr, P.more_succ hread htime ht hmore⟩
      · rw [hes, hes']
        simp only [call, List.flatMap_cons, List.append_assoc]
      · intro ls' hmem
        rcases List.mem_cons.1 hmem with rfl | hmem
        · exact ⟨left, a', hw, ho⟩
        · exact hvain ls' hmem
    · obtain ⟨rfl, rfl⟩ : t' = t₁ ∧ r = o.result := by
        injection hs with htime hstage
        injection hstage with hr
        exact ⟨htime, hr⟩
      exact ⟨[], ls, o, hes, nofun, ⟨a', hw, ho⟩, rfl, .inl rfl⟩

/-- Rounds in vain one after the other, each right after the sleep before it. -/
theorem run_rounds {t : Nat} {rounds : List (List L)}
    (hvain : ∀ ls ∈ rounds, ∃ left, P.Attempted ls (.missing left))
    (h : P.More t rounds.length) :
    P.system.Run (t, .trying P.start) (rounds.flatMap round)
      (t + rounds.length * P.pause, .trying P.start) := by
  induction rounds generalizing t with
  | nil =>
    rw [List.length_nil, Nat.zero_mul]
    exact .nil _
  | cons ls rounds ih =>
    obtain ⟨left, a, hw, ho⟩ := hvain ls (List.mem_cons_self ..)
    have hbound : t + (rounds.length + 1) * P.pause ≤ P.timeout + P.pause := by
      rcases h with h | h
      · cases h
      · exact h
    rw [Nat.succ_mul] at hbound
    have hsleep : P.system.step (t, .trying a) .slept (t + P.pause, .trying P.start) :=
      .slept ho (Nat.le_refl t) (by omega) (Nat.le_refl _)
    have hround := (P.work_run hw t).snoc hsleep
    have hrest := ih (t := t + P.pause) (fun ls' hmem => hvain ls' (List.mem_cons_of_mem _ hmem))
      (.inr (by omega))
    have hend : t + P.pause + rounds.length * P.pause =
        t + (ls :: rounds).length * P.pause := by
      rw [List.length_cons, Nat.succ_mul]
      omega
    rw [hend] at hrest
    exact hround.append hrest

/-- **What a call does**: it returns `r` with the events of some rounds in vain and a last
round that decides `r`, and every such sequence of events can happen. -/
theorem returns_iff (es : List (Event L)) (r : Result M E) :
    (∃ t, P.system.Run (0, .trying P.start) es (t, .returned r)) ↔
      ∃ rounds last, es = call rounds last ∧ P.Returns rounds last r := by
  constructor
  · rintro ⟨t, h⟩
    obtain ⟨rounds, last, o, hes, hvain, hlast, hr, hmore⟩ :=
      P.returns_of_run es.length (Nat.le_refl _) h
    refine ⟨rounds, last, hes, hvain, ⟨o, hlast, hr⟩, ?_⟩
    rcases hmore with hzero | hmore
    · rw [hzero, Nat.zero_mul]
      exact Nat.zero_le _
    · rwa [Nat.zero_add] at hmore
  · rintro ⟨rounds, last, rfl, hvain, ⟨o, ⟨a, hw, ho⟩, rfl⟩, htime⟩
    have hrounds := P.run_rounds hvain (t := 0) (.inr (by rwa [Nat.zero_add]))
    have hlast := P.work_run hw (0 + rounds.length * P.pause)
    have hreturn : ∃ t, P.system.step (0 + rounds.length * P.pause, .trying a) .returned
        (t, .returned o.result) := by
      cases o with
      | complete => exact ⟨_, .ok ho (Nat.le_refl _)⟩
      | missing left =>
        exact ⟨max (0 + rounds.length * P.pause) (P.timeout + 1),
          .timeout ho (Nat.le_max_left _ _) (Nat.le_max_right _ _)⟩
      | error e => exact ⟨_, .error ho (Nat.le_refl _)⟩
    obtain ⟨t, hreturn⟩ := hreturn
    exact ⟨t, hrounds.append (hlast.snoc hreturn)⟩

/-- The rounds begun so far: each took a sleep, and none began after the deadline. -/
structure Begun (past : List (Event L)) (s : Nat × Stage A M E) : Prop where
  slept : past.countP Event.begins * P.pause ≤ s.1
  intime : past.countP Event.begins * P.pause ≤ P.timeout + P.pause

theorem begun_step (past : List (Event L)) (s : Nat × Stage A M E) (e : Event L)
    (s' : Nat × Stage A M E) (h : P.Begun past s) (hs : P.system.step s e s') :
    P.Begun (past ++ [e]) s' := by
  obtain ⟨hslept, hintime⟩ := h
  have hsame : e.begins = false → (past ++ [e]).countP Event.begins = past.countP Event.begins := by
    intro he
    rw [List.countP_append, List.countP_singleton, he]
    rfl
  cases hs with
  | did _ _ ht =>
    rw [← hsame rfl] at hslept hintime
    exact ⟨Nat.le_trans hslept ht, hintime⟩
  | slept _ hread htime ht =>
    have hmore : (past ++ [Event.slept]).countP Event.begins = past.countP Event.begins + 1 := by
      rw [List.countP_append, List.countP_singleton]
      rfl
    dsimp only at hslept
    constructor
    · rw [hmore, Nat.succ_mul]
      dsimp only
      omega
    · rw [hmore, Nat.succ_mul]
      omega
  | timeout _ hread htime =>
    rw [← hsame rfl] at hslept hintime
    exact ⟨Nat.le_trans hslept hread, hintime⟩
  | ok _ ht =>
    rw [← hsame rfl] at hslept hintime
    exact ⟨Nat.le_trans hslept ht, hintime⟩
  | error _ ht =>
    rw [← hsame rfl] at hslept hintime
    exact ⟨Nat.le_trans hslept ht, hintime⟩

/-- No run, returned or not, sleeps more often than the deadline allows. -/
theorem slept_bounded {es : List (Event L)} {s : Nat × Stage A M E}
    (h : P.system.Run (0, .trying P.start) es s) :
    es.countP Event.begins * P.pause ≤ P.timeout + P.pause := by
  have hzero : P.Begun [] (0, .trying P.start) :=
    ⟨by simp only [List.countP_nil, Nat.zero_mul, Nat.le_refl],
      by simp only [List.countP_nil, Nat.zero_mul, Nat.zero_le]⟩
  exact (LTS.Run.history P.begun_step hzero h).intime

/-! ## Every call ends -/

/-- What is left to do in this round. -/
def Stage.todo (size : A → Nat) : Stage A M E → Nat
  | .trying a => size a + 1
  | .returned _ => 0

/-- If the steps of an attempt use it up, a run is no longer than its rounds. -/
theorem length_le (size : A → Nat)
    (hsize : ∀ a l a', P.step a l = some a' → size a' < size a)
    {es : List (Event L)} {s : Nat × Stage A M E}
    (h : P.system.Run (0, .trying P.start) es s) :
    es.length ≤ (es.countP Event.begins + 1) * (size P.start + 1) := by
  have hinv : ([] ++ es).length + Stage.todo size s.2 ≤
      (([] ++ es).countP Event.begins + 1) * (size P.start + 1) := by
    refine LTS.Run.history
      (I := fun past s => past.length + Stage.todo size s.2 ≤
        (past.countP Event.begins + 1) * (size P.start + 1)) ?_ ?_ h
    · intro past s e s' hs hstep
      rw [List.length_append, List.countP_append, List.countP_singleton, List.length_singleton]
      cases hstep with
      | @did _ _ a a' l _ hstep _ =>
        have hless := hsize a l a' hstep
        simp only [Stage.todo, Event.begins, Bool.false_eq_true, if_false, Nat.add_zero] at hs ⊢
        omega
      | slept =>
        simp only [Stage.todo, Event.begins, if_true] at hs ⊢
        rw [Nat.succ_mul (past.countP Event.begins + 1)]
        omega
      | timeout =>
        simp only [Stage.todo, Event.begins, Bool.false_eq_true, if_false, Nat.add_zero] at hs ⊢
        omega
      | ok =>
        simp only [Stage.todo, Event.begins, Bool.false_eq_true, if_false, Nat.add_zero] at hs ⊢
        omega
      | error =>
        simp only [Stage.todo, Event.begins, Bool.false_eq_true, if_false, Nat.add_zero] at hs ⊢
        omega
    · simp only [List.length_nil, List.countP_nil, Stage.todo, Nat.zero_add, Nat.one_mul,
        Nat.le_refl]
  exact Nat.le_trans (Nat.le_add_right _ _) hinv

/-- Every run is finite, and only a return ends it. -/
structure Ends (bound : Nat) : Prop where
  bounded : ∀ es s, P.system.Run (0, .trying P.start) es s → es.length ≤ bound
  goes_on : ∀ t a, ∃ e s, P.system.step (t, .trying a) e s

/-- **Loops that try again end**: if an attempt without an outcome can take a step, and its
steps use it up, whatever they are, then so does the loop. -/
theorem ends (size : A → Nat) (hsize : ∀ a l a', P.step a l = some a' → size a' < size a)
    (hgo : ∀ a, P.outcome a = none → ∃ l a', P.step a l = some a') (hpause : 0 < P.pause) :
    P.Ends ((P.timeout / P.pause + 2) * (size P.start + 1)) where
  bounded es s h := by
    refine Nat.le_trans (P.length_le size hsize h) (Nat.mul_le_mul_right _ (Nat.succ_le_succ ?_))
    have hcount := P.slept_bounded h
    have hdiv : es.countP Event.begins ≤ (P.timeout + P.pause) / P.pause :=
      (Nat.le_div_iff_mul_le hpause).2 hcount
    rwa [Nat.add_div_right _ hpause] at hdiv
  goes_on t a := by
    cases ho : P.outcome a with
    | none =>
      obtain ⟨l, a', hstep⟩ := hgo a ho
      exact ⟨_, _, .did ho hstep (Nat.le_refl t)⟩
    | some o =>
      cases o with
      | complete => exact ⟨_, _, .ok ho (Nat.le_refl t)⟩
      | missing left =>
        exact ⟨_, _, .timeout ho (Nat.le_max_left t (P.timeout + 1)) (Nat.le_max_right _ _)⟩
      | error e => exact ⟨_, _, .error ho (Nat.le_refl t)⟩

end Loop

/-! ## All requests at once -/

/-- One request for each item, sent together; its answer may be good. -/
structure Gather (I R : Type) where
  items : List I
  good : I → R → Bool

namespace Gather

variable {I R : Type} (G : Gather I R)

/-- The items whose own answer is not good, in their order. -/
def left : List I → List R → List I
  | i :: items, r :: rs => if G.good i r then left items rs else i :: left items rs
  | [], _ | _, [] => []

/-- What the answers to all requests come to. -/
def decide {E : Type} (rs : List R) : Outcome (List I) E :=
  if (G.left G.items rs).isEmpty then .complete else .missing (G.left G.items rs)

/-- The answers so far, in the order of the items; the `k`-th request is answered by `r`
with the event `(k, r)`. -/
def attempt (E : Type) : Attempt (List (Option R)) (Nat × R) (List I) E where
  start := List.replicate G.items.length none
  step answers l :=
    match answers[l.1]? with
    | some none => some (answers.set l.1 (some l.2))
    | some (some _) | none => none
  outcome answers :=
    if answers.all Option.isSome then some (G.decide answers.reduceOption) else none

theorem step_iff {E : Type} {answers answers' : List (Option R)} {k : Nat} {r : R} :
    (G.attempt E).step answers (k, r) = some answers' ↔
      answers[k]? = some none ∧ answers' = answers.set k (some r) := by
  simp only [attempt]
  split
  · rename_i h
    rw [h]
    constructor
    · intro h'
      exact ⟨rfl, (Option.some.inj h').symm⟩
    · rintro ⟨-, rfl⟩
      rfl
  · rename_i h
    rw [h]
    simp only [reduceCtorEq, Option.some.injEq, false_and]
  · rename_i h
    rw [h]
    simp only [reduceCtorEq, false_and]

theorem outcome_iff {E : Type} {answers : List (Option R)} {o : Outcome (List I) E} :
    (G.attempt E).outcome answers = some o ↔ ∃ rs, answers = rs.map some ∧ o = G.decide rs := by
  simp only [attempt, Option.ite_none_right_eq_some, Option.some.injEq]
  constructor
  · rintro ⟨hall, rfl⟩
    refine ⟨answers.reduceOption, ?_, rfl⟩
    induction answers with
    | nil => rfl
    | cons answer answers ih =>
      rw [List.all_cons, Bool.and_eq_true] at hall
      obtain ⟨r, rfl⟩ := Option.isSome_iff_exists.1 hall.1
      rw [List.reduceOption_cons_of_some, List.map_cons, ← ih hall.2]
  · rintro ⟨rs, rfl, rfl⟩
    constructor
    · rw [List.all_map, List.all_eq_true]
      exact fun _ _ => rfl
    · have hread : (rs.map some).reduceOption = rs :=
        (List.filterMap_map).trans List.filterMap_some
      rw [hread]

/-- The answers are those of the events so far, no request has two. -/
structure Filled (past : List (Nat × R)) (answers : List (Option R)) : Prop where
  length : answers.length = G.items.length
  once : (past.map Prod.fst).Nodup
  mem_iff : ∀ k r, answers[k]? = some (some r) ↔ (k, r) ∈ past

theorem filled_start : G.Filled [] (List.replicate G.items.length none) where
  length := List.length_replicate
  once := List.nodup_nil
  mem_iff k r := by
    rw [List.getElem?_replicate]
    constructor
    · intro h
      split at h
      · cases h
      · cases h
    · exact nofun

theorem filled_step {past : List (Nat × R)} {answers : List (Option R)} {k : Nat} {r : R}
    (h : G.Filled past answers) (hk : answers[k]? = some none) :
    G.Filled (past ++ [(k, r)]) (answers.set k (some r)) where
  length := by rw [List.length_set, h.length]
  once := by
    rw [List.map_append, List.nodup_append]
    refine ⟨h.once, List.nodup_singleton k, ?_⟩
    intro j hj j' hj' heq
    obtain ⟨⟨j, r'⟩, hmem, rfl⟩ := List.mem_map.1 hj
    obtain rfl : j' = k := List.mem_singleton.1 hj'
    obtain rfl : j = j' := heq
    rw [(h.mem_iff j r').2 hmem] at hk
    cases hk
  mem_iff j r' := by
    obtain ⟨hlt, -⟩ := List.getElem?_eq_some_iff.1 hk
    rw [List.getElem?_set, List.mem_append, List.mem_singleton, ← h.mem_iff]
    by_cases hj : k = j
    · subst hj
      rw [if_pos rfl, if_pos hlt, hk]
      simp only [Option.some.injEq, reduceCtorEq, false_or, Prod.mk.injEq, true_and]
      exact eq_comm
    · rw [if_neg hj]
      simp only [Prod.mk.injEq, Ne.symm hj, false_and, or_false]

theorem filled_run {E : Type} {ls : List (Nat × R)} {answers : List (Option R)}
    (h : (G.attempt E).work.Run (List.replicate G.items.length none) ls answers) :
    G.Filled ls answers := by
  have hrun : G.Filled ([] ++ ls) answers := by
    refine LTS.Run.history (I := G.Filled) ?_ G.filled_start h
    rintro past s ⟨k, r⟩ s' hs ⟨-, hstep⟩
    obtain ⟨hk, rfl⟩ := G.step_iff.1 hstep
    exact G.filled_step hs hk
  exact hrun

/-- The events that answer the requests by `rs`, in the order of the items. -/
def events (rs : List R) : List (Nat × R) := rs.mapIdx Prod.mk

theorem mem_events {rs : List R} {k : Nat} {r : R} : (k, r) ∈ events rs ↔ rs[k]? = some r := by
  rw [events, List.mem_mapIdx]
  constructor
  · rintro ⟨i, hi, h⟩
    obtain ⟨rfl, rfl⟩ := Prod.mk.inj h
    exact List.getElem?_eq_getElem hi
  · intro h
    obtain ⟨hi, rfl⟩ := List.getElem?_eq_some_iff.1 h
    exact ⟨k, hi, rfl⟩

theorem events_fst (rs : List R) : (events rs).map Prod.fst = List.range rs.length := by
  apply List.ext_getElem?
  intro k
  simp only [events, List.getElem?_map, List.getElem?_mapIdx]
  by_cases hk : k < rs.length
  · rw [List.getElem?_eq_getElem hk, List.getElem?_range hk]
    rfl
  · rw [List.getElem?_eq_none (Nat.not_lt.1 hk), List.getElem?_eq_none]
    · rfl
    · rw [List.length_range]
      exact Nat.not_lt.1 hk

theorem once_events (rs : List R) : ((events rs).map Prod.fst).Nodup := by
  rw [events_fst]
  exact List.nodup_range

/-- Once all requests are answered the events are the answers in some order. -/
theorem filled_perm {ls : List (Nat × R)} {rs : List R} (h : G.Filled ls (rs.map some)) :
    ls.Perm (events rs) := by
  rw [List.perm_ext_iff_of_nodup h.once.of_map (once_events rs).of_map]
  rintro ⟨k, r⟩
  rw [← h.mem_iff, mem_events, List.getElem?_map]
  cases rs[k]? with
  | none => simp only [Option.map_none, reduceCtorEq]
  | some r' => simp only [Option.map_some, Option.some.injEq]

theorem filled_unique {past : List (Nat × R)} {answers answers' : List (Option R)}
    (h : G.Filled past answers) (h' : G.Filled past answers') : answers = answers' := by
  have hlen : answers.length = answers'.length := h.length.trans h'.length.symm
  apply List.ext_getElem hlen
  intro k hk hk'
  have hiff (r : R) : answers[k] = some r ↔ answers'[k] = some r := by
    have hboth := (h.mem_iff k r).trans (h'.mem_iff k r).symm
    rwa [List.getElem?_eq_getElem hk, List.getElem?_eq_getElem hk', Option.some.injEq,
      Option.some.injEq] at hboth
  exact Option.ext hiff

/-- The answers may come in any order. -/
theorem run_of_perm (E : Type) {rs : List R} {past ls : List (Nat × R)}
    {answers : List (Option R)} (h : G.Filled past answers) (hlen : rs.length = G.items.length)
    (hperm : (past ++ ls).Perm (events rs)) :
    (G.attempt E).work.Run answers ls (rs.map some) := by
  induction ls generalizing past answers with
  | nil =>
    rw [List.append_nil] at hperm
    have hfull : G.Filled past (rs.map some) := by
      refine ⟨by rw [List.length_map, hlen], h.once, ?_⟩
      intro k r
      rw [hperm.mem_iff, mem_events, List.getElem?_map]
      cases rs[k]? with
      | none => simp only [Option.map_none, reduceCtorEq]
      | some r' => simp only [Option.map_some, Option.some.injEq]
    rw [G.filled_unique h hfull]
    exact .nil _
  | cons l ls ih =>
    obtain ⟨k, r⟩ := l
    have hmem : (k, r) ∈ events rs :=
      hperm.mem_iff.1 (List.mem_append_right _ (List.mem_cons_self ..))
    obtain ⟨hlt, -⟩ := List.getElem?_eq_some_iff.1 (mem_events.1 hmem)
    have hk : k < answers.length := by rw [h.length, ← hlen]; exact hlt
    have honce := ((hperm.map Prod.fst).nodup_iff).2 (once_events rs)
    have hnone : answers[k]? = some none := by
      rw [List.getElem?_eq_getElem hk]
      cases ha : answers[k] with
      | none => rfl
      | some r' =>
        have hpast : (k, r') ∈ past :=
          (h.mem_iff k r').1 (by rw [List.getElem?_eq_getElem hk, ha])
        rw [List.map_append, List.nodup_append] at honce
        exact absurd rfl (honce.2.2 k (List.mem_map_of_mem hpast) k
          (List.mem_map_of_mem (f := Prod.fst) (List.mem_cons_self ..)))
    have hout : (G.attempt E).outcome answers = none := by
      cases ho : (G.attempt E).outcome answers with
      | none => rfl
      | some o =>
        obtain ⟨rs', rfl, -⟩ := G.outcome_iff.1 ho
        rw [List.getElem?_map] at hnone
        cases hr : rs'[k]? with
        | none => rw [hr] at hnone; cases hnone
        | some r' => rw [hr] at hnone; cases hnone
    refine .cons ⟨hout, G.step_iff.2 ⟨hnone, rfl⟩⟩ (ih (G.filled_step h hnone) ?_)
    rwa [List.append_assoc]

/-- **What such an attempt does**: every request is answered once, in any order, and what is
left are the items whose own answer is not good. -/
theorem gather_iff {E : Type} {ls : List (Nat × R)} {o : Outcome (List I) E} :
    (G.attempt E).Attempted ls o ↔
      ∃ rs, rs.length = G.items.length ∧ ls.Perm (events rs) ∧ o = G.decide rs := by
  constructor
  · rintro ⟨answers, hrun, hout⟩
    obtain ⟨rs, rfl, rfl⟩ := G.outcome_iff.1 hout
    have hfilled := G.filled_run hrun
    refine ⟨rs, ?_, G.filled_perm hfilled, rfl⟩
    rw [← hfilled.length, List.length_map]
  · rintro ⟨rs, hlen, hperm, rfl⟩
    exact ⟨rs.map some, G.run_of_perm E G.filled_start hlen hperm, G.outcome_iff.2 ⟨rs, rfl, rfl⟩⟩

/-- Nothing is left exactly if every answer is good. -/
theorem left_eq_nil_iff {items : List I} {rs : List R} (hlen : rs.length = items.length) :
    G.left items rs = [] ↔
      ∀ (k : Nat) (i : I), items[k]? = some i → ∃ r : R, rs[k]? = some r ∧ G.good i r = true := by
  induction items generalizing rs with
  | nil =>
    obtain rfl := List.length_eq_zero_iff.1 hlen
    exact iff_of_true rfl fun k i h => by rw [List.getElem?_nil] at h; cases h
  | cons i items ih =>
    cases rs with
    | nil => cases hlen
    | cons r rs =>
      have htail := ih (Nat.succ.inj hlen : rs.length = items.length)
      rw [left]
      constructor
      · intro h k j hk
        split at h
        · rename_i hgood
          cases k with
          | zero =>
            obtain rfl : i = j := Option.some.inj hk
            exact ⟨r, rfl, hgood⟩
          | succ k => exact htail.1 h k j hk
        · cases h
      · intro h
        obtain ⟨r', hr, hgood⟩ := h 0 i rfl
        obtain rfl : r = r' := Option.some.inj hr
        rw [if_pos hgood]
        exact htail.2 fun k j hk => h (k + 1) j hk

/-! ## Waiting for all answers to be good -/

def loop (E : Type) (timeout pause : Nat) : Loop (List (Option R)) (Nat × R) (List I) E where
  toAttempt := G.attempt E
  timeout := timeout
  pause := pause

/-- A call that gathers until nothing is left. -/
theorem loop_returns_iff {E : Type} {timeout pause : Nat} {es : List (Event (Nat × R))}
    {r : Result (List I) E} :
    (∃ t, (G.loop E timeout pause).system.Run
        (0, .trying (G.loop E timeout pause).start) es (t, .returned r)) ↔
      ∃ rounds last, es = Loop.call rounds last ∧
        (∀ ls ∈ rounds, ∃ rs, rs.length = G.items.length ∧ ls.Perm (events rs) ∧
          G.left G.items rs ≠ []) ∧
        (∃ rs, rs.length = G.items.length ∧ last.Perm (events rs) ∧
          r = (G.decide rs).result) ∧
        rounds.length * pause ≤ timeout + pause := by
  rw [Loop.returns_iff]
  have hvain (ls : List (Nat × R)) :
      (∃ left, (G.attempt E).Attempted ls (.missing left)) ↔
        ∃ rs, rs.length = G.items.length ∧ ls.Perm (events rs) ∧
          G.left G.items rs ≠ [] := by
    constructor
    · rintro ⟨left, h⟩
      obtain ⟨rs, hlen, hperm, ho⟩ := G.gather_iff.1 h
      refine ⟨rs, hlen, hperm, ?_⟩
      intro hnil
      rw [decide, hnil] at ho
      cases ho
    · rintro ⟨rs, hlen, hperm, hne⟩
      refine ⟨G.left G.items rs, G.gather_iff.2 ⟨rs, hlen, hperm, ?_⟩⟩
      rw [decide, if_neg]
      rwa [List.isEmpty_iff]
  have hlast (ls : List (Nat × R)) :
      (∃ o, (G.attempt E).Attempted ls o ∧ o.result = r) ↔
        ∃ rs, rs.length = G.items.length ∧ ls.Perm (events rs) ∧
          r = (G.decide rs).result := by
    constructor
    · rintro ⟨o, h, rfl⟩
      obtain ⟨rs, hlen, hperm, rfl⟩ := G.gather_iff.1 h
      exact ⟨rs, hlen, hperm, rfl⟩
    · rintro ⟨rs, hlen, hperm, rfl⟩
      exact ⟨_, G.gather_iff.2 ⟨rs, hlen, hperm, rfl⟩, rfl⟩
  constructor
  · rintro ⟨rounds, last, hes, h⟩
    exact ⟨rounds, last, hes, fun ls hls => (hvain ls).1 (h.vain ls hls), (hlast last).1 h.last,
      h.intime⟩
  · rintro ⟨rounds, last, hes, h, hl, htime⟩
    exact ⟨rounds, last, hes, fun ls hls => (hvain ls).2 (h ls hls), (hlast last).2 hl, htime⟩

/-- The requests without an answer. -/
def unanswered (answers : List (Option R)) : Nat := answers.countP fun answer => answer.isNone

theorem unanswered_set {answers : List (Option R)} {k : Nat} {r : R}
    (hk : answers[k]? = some none) :
    unanswered (answers.set k (some r)) < unanswered answers := by
  induction answers generalizing k with
  | nil => cases hk
  | cons answer answers ih =>
    cases k with
    | zero =>
      obtain rfl := Option.some.inj hk
      rw [List.set_cons_zero, unanswered, unanswered, List.countP_cons, List.countP_cons]
      exact Nat.lt_succ_self _
    | succ k =>
      rw [List.set_cons_succ, unanswered, unanswered, List.countP_cons, List.countP_cons]
      exact Nat.add_lt_add_right (ih hk) _

/-- A loop that gathers ends, whatever the answers are, provided there is an answer. -/
theorem loop_ends (E : Type) (timeout : Nat) {pause : Nat} (hpause : 0 < pause) (answer : R) :
    (G.loop E timeout pause).Ends ((timeout / pause + 2) * (G.items.length + 1)) := by
  have hends := Loop.ends (G.loop E timeout pause) unanswered ?_ ?_ hpause
  · have hstart : unanswered (G.loop E timeout pause).start = G.items.length := by
      show (List.replicate G.items.length (none : Option R)).countP _ = _
      rw [List.countP_replicate]
      rfl
    rwa [hstart] at hends
  · rintro a ⟨k, r⟩ a' hstep
    obtain ⟨hk, rfl⟩ := G.step_iff.1 hstep
    exact unanswered_set hk
  · intro a hnone
    have hall : ¬ a.all Option.isSome = true := by
      intro hall
      simp only [loop, attempt, hall, if_true, reduceCtorEq] at hnone
    rw [List.all_eq_true, not_forall] at hall
    obtain ⟨o, ho⟩ := hall
    obtain ⟨hmem, hsome⟩ := Classical.not_imp.1 ho
    obtain rfl : o = none := by
      cases o with
      | none => rfl
      | some r => exact absurd rfl hsome
    obtain ⟨k, hk⟩ := List.mem_iff_getElem?.1 hmem
    exact ⟨(k, answer), _, G.step_iff.2 ⟨hk, rfl⟩⟩

end Gather

end Core.Polling
