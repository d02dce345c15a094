import Hoprd.Core.JsonSchema

/-!
# Places in a JSON value

A place is a list of steps, keys of objects and indices of arrays; `valueAt` follows it.
`Everywhere` says something of every object at any place, and is known from the value
and its children: `everywhere_obj`, `everywhere_arr`. A `Value` repeats no key in any of
its objects. `Same` is equality of values as JSON has it, objects without their order.
-/
namespace Core

open IndexMap

namespace Json

inductive Step where
  | key (k : String)
  | item (i : Nat)
  deriving DecidableEq

def isLeaf : Json → Bool
  | arr _ | obj _ => false
  | _ => true

/-- The part of a value under one step. -/
def child : Step → Json → Option Json
  | .key k, obj fs => get? k fs
  | .item i, arr xs => xs[i]?
  | _, _ => none

def valueAt : List Step → Json → Option Json
  | [], x => some x
  | s :: p, x => (child s x).bind (valueAt p)

theorem valueAt_append (p q : List Step) (x : Json) :
    valueAt (p ++ q) x = (valueAt p x).bind (valueAt q) := by
  induction p generalizing x with
  | nil => rfl
  | cons s p ih =>
    cases hchild : child s x with
    | none => simp [valueAt, hchild]
    | some y => simp [valueAt, hchild, ih]

theorem valueAt_snoc (p : List Step) (s : Step) (x : Json) :
    valueAt (p ++ [s]) x = (valueAt p x).bind (child s) := by
  rw [valueAt_append]
  cases valueAt p x with
  | none => rfl
  | some y =>
    cases hchild : child s y with
    | none => simp [valueAt, hchild]
    | some z => simp [valueAt, hchild]

/-! ## Every object of a value -/

def Everywhere (q : List (String × Json) → Prop) (x : Json) : Prop :=
  ∀ p fs, valueAt p x = some (obj fs) → q fs

section
variable {q : List (String × Json) → Prop}

theorem Everywhere.child {x y : Json} {s : Step} (h : Everywhere q x)
    (hchild : Json.child s x = some y) : Everywhere q y := by
  intro p fs hp
  apply h (s :: p)
  simpa [valueAt, hchild] using hp

theorem everywhere_of_children {x : Json} (hself : ∀ fs, x = obj fs → q fs)
    (h : ∀ s y, child s x = some y → Everywhere q y) : Everywhere q x := by
  intro p fs hp
  cases p with
  | nil => exact hself fs (Option.some.inj hp)
  | cons s p =>
    obtain ⟨y, hchild, hy⟩ := Option.bind_eq_some_iff.mp hp
    exact h s y hchild p fs hy

theorem everywhere_obj {fs : List (String × Json)} :
    Everywhere q (obj fs) ↔ q fs ∧ ∀ k x, get? k fs = some x → Everywhere q x := by
  constructor
  · intro h
    exact ⟨h [] fs rfl, fun k x hx => h.child (s := .key k) hx⟩
  · rintro ⟨hself, hvalues⟩
    apply everywhere_of_children
    · rintro _ ⟨⟩
      exact hself
    · intro s y hchild
      cases s with
      | key k => exact hvalues k y hchild
      | item i => cases hchild

theorem everywhere_arr {xs : List Json} :
    Everywhere q (arr xs) ↔ ∀ x ∈ xs, Everywhere q x := by
  constructor
  · intro h x hx
    obtain ⟨i, hi⟩ := List.mem_iff_getElem?.mp hx
    exact h.child (s := .item i) hi
  · intro h
    apply everywhere_of_children
    · rintro _ ⟨⟩
    · intro s y hchild
      cases s with
      | key k => cases hchild
      | item i => exact h y (List.mem_of_getElem? hchild)

theorem everywhere_leaf {x : Json} (h : x.isLeaf = true) : Everywhere q x := by
  apply everywhere_of_children
  · rintro fs rfl
    cases h
  · intro s y hchild
    cases x with
    | arr | obj => cases h
    | null | bool | num | str => cases s <;> cases hchild

end

/-! ## Values without repeated keys -/

/-- No object repeats a key. -/
abbrev Proper (x : Json) : Prop := Everywhere Distinct x

theorem Proper.of_mem {fs : List (String × Json)} {e : String × Json} (h : Proper (obj fs))
    (he : e ∈ fs) : Proper e.2 := by
  obtain ⟨hdistinct, hvalues⟩ := everywhere_obj.mp h
  exact hvalues e.1 e.2 ((get?_eq_some hdistinct).mpr he)

theorem proper_obj {fs : List (String × Json)} (hdistinct : Distinct fs)
    (h : ∀ e ∈ fs, Proper e.2) : Proper (obj fs) :=
  everywhere_obj.mpr ⟨hdistinct, fun _ _ hx => h _ (mem_of_get? hx)⟩

mutual

/-- `Proper`, computed. -/
def isProper : Json → Bool
  | .arr xs => isProperItems xs
  | .obj fs => decide (fs.map Prod.fst).Nodup && isProperFields fs
  | _ => true
termination_by structural x => x

def isProperItems : List Json → Bool
  | [] => true
  | x :: xs => isProper x && isProperItems xs
termination_by structural xs => xs

def isProperFields : List (String × Json) → Bool
  | [] => true
  | (_, x) :: fs => isProper x && isProperFields fs
termination_by structural fs => fs

end

mutual

theorem proper_of_isProper : ∀ {x : Json}, isProper x = true → Proper x
  | .arr xs, h => everywhere_arr.mpr (proper_of_isProperItems h)
  | .obj fs, h => by
    rw [isProper, Bool.and_eq_true, decide_eq_true_iff] at h
    exact proper_obj h.1 (proper_of_isProperFields h.2)
  | .null, _ | .bool _, _ | .num _, _ | .str _, _ => everywhere_leaf rfl

theorem proper_of_isProperItems :
    ∀ {xs : List Json}, isProperItems xs = true → ∀ x ∈ xs, Proper x
  | y :: ys, h, x, hx => by
    rw [isProperItems, Bool.and_eq_true] at h
    rcases List.mem_cons.mp hx with hy | hx
    · rw [hy]
      exact proper_of_isProper h.1
    · exact proper_of_isProperItems h.2 x hx

theorem proper_of_isProperFields :
    ∀ {fs : List (String × Json)}, isProperFields fs = true → ∀ e ∈ fs, Proper e.2
  | (_, _) :: fs, h, e, he => by
    rw [isProperFields, Bool.and_eq_true] at h
    rcases List.mem_cons.mp he with hx | he
    · rw [hx]
      exact proper_of_isProper h.1
    · exact proper_of_isProperFields h.2 e he

end

structure Value where
  json : Json
  proper : Proper json

/-! ## Equality -/

/-- Objects are equal with the same keys and equal values, in whatever order. -/
inductive Same : Json → Json → Prop
  | null : Same null null
  | bool (b : Bool) : Same (bool b) (bool b)
  | num (q : Rat) : Same (num q) (num q)
  | str (s : String) : Same (str s) (str s)
  | arr {xs ys : List Json} (length : xs.length = ys.length)
      (items : ∀ (i : Nat) (x y : Json), xs[i]? = some x → ys[i]? = some y → Same x y) :
      Same (arr xs) (arr ys)
  | obj {fs gs : List (String × Json)} (keys : ∀ k, (get? k fs).isSome = (get? k gs).isSome)
      (values : ∀ k x y, get? k fs = some x → get? k gs = some y → Same x y) :
      Same (obj fs) (obj gs)

/-! ## Size -/

mutual

/-- How many values there are in a value. -/
def size : Json → Nat
  | .arr xs => 1 + sizeItems xs
  | .obj fs => 1 + sizeFields fs
  | _ => 1
termination_by structural x => x

def sizeItems : List Json → Nat
  | [] => 0
  | x :: xs => size x + sizeItems xs
termination_by structural xs => xs

def sizeFields : List (String × Json) → Nat
  | [] => 0
  | (_, x) :: fs => size x + sizeFields fs
termination_by structural fs => fs

end

theorem size_mem_items {x : Json} {xs : List Json} (h : x ∈ xs) : size x ≤ sizeItems xs := by
  induction xs with
  | nil => cases h
  | cons y xs ih =>
    unfold sizeItems
    rcases List.mem_cons.mp h with rfl | h
    · omega
    · have := ih h
      omega

theorem size_mem_fields {e : String × Json} {fs : List (String × Json)} (h : e ∈ fs) :
    size e.2 ≤ sizeFields fs := by
  induction fs with
  | nil => cases h
  | cons f fs ih =>
    unfold sizeFields
    rcases List.mem_cons.mp h with rfl | h
    · omega
    · have := ih h
      omega

end Json

end Core
