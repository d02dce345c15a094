import Mathlib.Data.Option.Basic

/-!
# Labelled transition systems

A system is a set of initial states and a step relation labelled with what
happened (`LTS`). `Run` is a finite run with its labels, `Reachable` the states
some run from an initial state ends in.

* `Inductive.reachable`: an invariant that holds initially and is kept by every
  step holds of every reachable state.
* `Run.preserves`: what every step keeps, every run keeps; `Run.history` also of the
  labels so far.
* `Reachable.mono`: a system with more steps reaches more states.
* `restrict C` keeps the steps that satisfy `C`; a property of every run whose
  steps all satisfy `C` is a property of its reachable states, and those are
  reachable in the whole system (`Reachable.of_restrict`). Where `C` decides whether a
  step keeps `P`, its runs are those that satisfy `P` throughout.
* `exec` runs a step function on a list of labels; `ofFn_run_iff` says it
  computes exactly the runs.
-/
namespace Core

structure LTS (S L : Type) where
  init : S → Prop
  step : S → L → S → Prop

namespace LTS

variable {S L : Type}

inductive Run (M : LTS S L) : S → List L → S → Prop
  | nil (s : S) : Run M s [] s
  | cons {s t u : S} {l : L} {ls : List L} : M.step s l t → Run M t ls u → Run M s (l :: ls) u

def Reachable (M : LTS S L) (s : S) : Prop := ∃ s₀ ls, M.init s₀ ∧ M.Run s₀ ls s

theorem Run.append {M : LTS S L} {a b c : S} {ls ls' : List L} (h : M.Run a ls b)
    (h' : M.Run b ls' c) : M.Run a (ls ++ ls') c := by
  induction h with
  | nil => exact h'
  | cons hs _ ih => exact .cons hs (ih h')

theorem Run.snoc {M : LTS S L} {a b c : S} {ls : List L} {l : L} (h : M.Run a ls b)
    (hs : M.step b l c) : M.Run a (ls ++ [l]) c := h.append (.cons hs (.nil c))

theorem Reachable.init {M : LTS S L} {s : S} (h : M.init s) : M.Reachable s := ⟨s, [], h, .nil s⟩

theorem Reachable.step {M : LTS S L} {s s' : S} {l : L} (h : M.Reachable s)
    (hs : M.step s l s') : M.Reachable s' := by
  obtain ⟨s₀, ls, h0, hr⟩ := h
  exact ⟨s₀, ls ++ [l], h0, hr.snoc hs⟩

theorem Run.preserves {M : LTS S L} {I : S → Prop} (h : ∀ s l s', I s → M.step s l s' → I s')
    {s s' : S} {ls : List L} (hi : I s) (hr : M.Run s ls s') : I s' := by
  induction hr with
  | nil => exact hi
  | cons hs _ ih => exact ih (h _ _ _ hi hs)

/-- What every step keeps of a state and the labels that led to it, every run keeps. -/
theorem Run.history {M : LTS S L} {I : List L → S → Prop}
    (h : ∀ past s l s', I past s → M.step s l s' → I (past ++ [l]) s') {past ls : List L} {s s' : S}
    (hi : I past s) (hr : M.Run s ls s') : I (past ++ ls) s' := by
  induction hr generalizing past with
  | nil => rwa [List.append_nil]
  | @cons s t u l ls hs _ ih =>
    have hnext := ih (h past s l t hi hs)
    rwa [List.append_assoc] at hnext

/-- `I` holds initially and every step keeps it. -/
structure Inductive (M : LTS S L) (I : S → Prop) : Prop where
  init : ∀ s, M.init s → I s
  step : ∀ s l s', I s → M.step s l s' → I s'

theorem Inductive.reachable {M : LTS S L} {I : S → Prop} (h : M.Inductive I) (s : S)
    (hr : M.Reachable s) : I s := by
  obtain ⟨s₀, ls, h0, hrun⟩ := hr
  exact hrun.preserves h.step (h.init s₀ h0)

/-! ## Restricted runs -/

/-- The runs all of whose steps satisfy `C`. -/
def restrict (M : LTS S L) (C : S → L → Prop) : LTS S L where
  init := M.init
  step s l s' := M.step s l s' ∧ C s l

/-- A system with at least the steps of another has at least its runs. -/
theorem Run.mono {M N : LTS S L} {s s' : S} {ls : List L} (h : M.Run s ls s')
    (hstep : ∀ s l s', M.step s l s' → N.step s l s') : N.Run s ls s' := by
  induction h with
  | nil => exact .nil _
  | cons hs _ ih => exact .cons (hstep _ _ _ hs) ih

theorem Reachable.mono {M N : LTS S L} {s : S} (h : M.Reachable s)
    (hinit : ∀ s, M.init s → N.init s) (hstep : ∀ s l s', M.step s l s' → N.step s l s') :
    N.Reachable s := by
  obtain ⟨s₀, ls, h0, hr⟩ := h
  exact ⟨s₀, ls, hinit s₀ h0, hr.mono hstep⟩

theorem Run.of_restrict {M : LTS S L} {C : S → L → Prop} {s s' : S} {ls : List L}
    (h : (M.restrict C).Run s ls s') : M.Run s ls s' :=
  h.mono fun _ _ _ hs => hs.1

theorem Reachable.of_restrict {M : LTS S L} {C : S → L → Prop} {s : S}
    (h : (M.restrict C).Reachable s) : M.Reachable s :=
  h.mono (fun _ h0 => h0) fun _ _ _ hs => hs.1

theorem Reachable.restrict_mono {M : LTS S L} {C D : S → L → Prop} {s : S}
    (h : (M.restrict C).Reachable s) (hCD : ∀ s l, C s l → D s l) : (M.restrict D).Reachable s :=
  h.mono (fun _ h0 => h0) fun s l _ hs => ⟨hs.1, hCD s l hs.2⟩

/-- A run with labels that always satisfy `C`. -/
theorem Run.restrict {M : LTS S L} {C : S → L → Prop} {s s' : S} {ls : List L}
    (h : M.Run s ls s') (hC : ∀ l ∈ ls, ∀ s, C s l) : (M.restrict C).Run s ls s' := by
  induction h with
  | nil => exact .nil _
  | cons hs _ ih =>
    exact .cons ⟨hs, hC _ List.mem_cons_self _⟩ (ih fun l hl => hC l (List.mem_cons_of_mem _ hl))

/-- A run in all of whose states `P` holds. -/
def Throughout (M : LTS S L) (P : S → Prop) (s : S) (ls : List L) (s' : S) : Prop :=
  (M.restrict fun s _ => P s).Run s ls s' ∧ P s'

/-- If the steps that keep `P` are those that satisfy `C`, the runs that keep it are. -/
theorem restrict_run_iff_throughout {M : LTS S L} {C : S → L → Prop} {P : S → Prop}
    (hstep : ∀ s l s', M.Reachable s → P s → M.step s l s' → (C s l ↔ P s'))
    {s s' : S} {ls : List L} (hr : M.Reachable s) (h : P s) :
    (M.restrict C).Run s ls s' ↔ M.Throughout P s ls s' := by
  constructor
  · intro hrun
    induction hrun with
    | nil => exact ⟨.nil _, h⟩
    | cons hs _ ih =>
      have hnext := ih (hr.step hs.1) ((hstep _ _ _ hr h hs.1).1 hs.2)
      exact ⟨.cons ⟨hs.1, h⟩ hnext.1, hnext.2⟩
  · rintro ⟨hrun, hlast⟩
    induction hrun with
    | nil => exact .nil _
    | @cons s t u l ls hs hrun ih =>
      have hnext : P t := by
        cases hrun with
        | nil => exact hlast
        | cons hs' _ => exact hs'.2
      exact .cons ⟨hs.1, (hstep _ _ _ hr h hs.1).2 hnext⟩ (ih (hr.step hs.1) hnext hlast)

/-! ## Step functions -/

/-- The system of a step function; `none` means the label is not enabled. -/
def ofFn (init : S → Prop) (f : S → L → Option S) : LTS S L where
  init := init
  step s l s' := f s l = some s'

def exec (f : S → L → Option S) : S → List L → Option S
  | s, [] => some s
  | s, l :: ls => (f s l).bind fun s' => exec f s' ls

theorem ofFn_run_iff {init : S → Prop} {f : S → L → Option S} {s s' : S} {ls : List L} :
    (ofFn init f).Run s ls s' ↔ exec f s ls = some s' := by
  constructor
  · intro h
    induction h with
    | nil => rfl
    | cons hs _ ih =>
      simp only [exec]
      rw [show f _ _ = some _ from hs]
      exact ih
  · intro h
    induction ls generalizing s with
    | nil =>
      simp only [exec, Option.some.injEq] at h
      subst h; exact .nil _
    | cons l ls ih =>
      simp only [exec, Option.bind_eq_some_iff] at h
      obtain ⟨t, ht, h'⟩ := h
      exact .cons ht (ih h')

theorem reachable_of_exec {init : S → Prop} {f : S → L → Option S} {s : S} (s₀ : S) (ls : List L)
    (h0 : init s₀) (h : exec f s₀ ls = some s) : (ofFn init f).Reachable s :=
  ⟨s₀, ls, h0, ofFn_run_iff.2 h⟩

/-- A step function that also asks for `C`. -/
def guarded (f : S → L → Option S) (C : S → L → Prop) [∀ s l, Decidable (C s l)] (s : S) (l : L) :
    Option S :=
  if C s l then f s l else none

theorem restrict_run_of_exec {init : S → Prop} {f : S → L → Option S} {C : S → L → Prop}
    [∀ s l, Decidable (C s l)] {s s' : S} {ls : List L}
    (h : exec (guarded f C) s ls = some s') : ((ofFn init f).restrict C).Run s ls s' := by
  have hr : (ofFn init (guarded f C)).Run s ls s' := ofFn_run_iff.2 h
  clear h
  induction hr with
  | nil => exact .nil _
  | cons hs _ ih =>
    have hg : guarded f C _ _ = some _ := hs
    unfold guarded at hg
    split at hg
    · rename_i hC; exact .cons ⟨hg, hC⟩ ih
    · cases hg

theorem restrict_reachable_of_exec {init : S → Prop} {f : S → L → Option S} {C : S → L → Prop}
    [∀ s l, Decidable (C s l)] {s : S} (s₀ : S) (ls : List L) (h0 : init s₀)
    (h : exec (guarded f C) s₀ ls = some s) : ((ofFn init f).restrict C).Reachable s :=
  ⟨s₀, ls, h0, restrict_run_of_exec h⟩

end LTS

end Core
