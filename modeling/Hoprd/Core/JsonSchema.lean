import Mathlib.Data.Rat.Defs
import Hoprd.Core.IndexMap

/-!
# JSON values, and schemas as OpenAPI 3.1 and 3.0 read them

`accepts` is the meaning of a schema made of `type`, `oneOf`, `anyOf`, `properties`,
`items` and `nullable`; other keywords say nothing. In 3.1 `type` is a name or a list of
names and `nullable` says nothing; in 3.0 `type` is one name, and `nullable: true` adds
`null` to what the schema accepts.

* `keywords_iff`: an object accepts what each of its keywords accepts.
* `count_congr`, `count_filter`, `props_congr`: what the keywords over several schemas
  depend on.
-/
namespace Core

inductive Json where
  | null
  | bool (b : Bool)
  | num (q : Rat)
  | str (s : String)
  | arr (xs : List Json)
  | obj (fields : List (String × Json))

namespace Json

def isNull : Json → Bool
  | null => true
  | _ => false

theorem isNull_iff {v : Json} : v.isNull = true ↔ v = null := by
  cases v <;> simp [isNull]

end Json

namespace JsonSchema

open Json IndexMap

abbrev Fields := List (String × Json)

inductive Reading where
  | v30
  | v31
  deriving DecidableEq

/-- The values of a type, by its name. -/
def typeAccepts : String → Json → Bool
  | "null", .null => true
  | "boolean", .bool _ => true
  | "integer", .num q => q.den == 1
  | "number", .num _ => true
  | "string", .str _ => true
  | "array", .arr _ => true
  | "object", .obj _ => true
  | _, _ => false

/-- One of the names of a `type` list. -/
def nameAccepts (v : Json) : Json → Bool
  | .str t => typeAccepts t v
  | _ => false

/-- `nullable: true`. -/
def nullable (fs : Fields) : Bool :=
  match get? "nullable" fs with
  | some (.bool b) => b
  | _ => false

/-- Added by `nullable`. -/
def marked (r : Reading) (fs : Fields) (v : Json) : Bool :=
  r == .v30 && v.isNull && nullable fs

mutual

/-- The schema accepts the value. -/
def accepts (r : Reading) : Json → Json → Bool
  | .obj fs, v => keywords r fs v || marked r fs v
  | _, _ => false
termination_by structural schema => schema

def keywords (r : Reading) : Fields → Json → Bool
  | [], _ => true
  | (k, x) :: fs, v => keyword r k x v && keywords r fs v
termination_by structural fs => fs

def keyword (r : Reading) (k : String) : Json → Json → Bool
  | .str t, v => k != "type" || typeAccepts t v
  | .arr xs, v =>
    if k = "type" then r == .v31 && xs.any (nameAccepts v)
    else if k = "oneOf" then count r xs v == 1
    else if k = "anyOf" then 0 < count r xs v
    else true
  | .obj ps, v =>
    if k = "properties" then props r ps v
    else if k = "items" then
      match v with
      | .arr ws => ws.all fun w => keywords r ps w || marked r ps w
      | _ => true
    else true
  | _, _ => true
termination_by structural x => x

/-- How many of the schemas accept the value. -/
def count (r : Reading) : List Json → Json → Nat
  | [], _ => 0
  | x :: xs, v => (accepts r x v).toNat + count r xs v
termination_by structural xs => xs

def props (r : Reading) : Fields → Json → Bool
  | [], _ => true
  | (k, x) :: ps, v =>
    (match v with
      | .obj ws => ws.all fun e => e.1 != k || accepts r x e.2
      | _ => true) && props r ps v
termination_by structural ps => ps

end

section
-- what each case of the mutual definition says, for the lemmas that read it back
attribute [local simp] accepts keywords keyword

theorem keywords_iff {r : Reading} {fs : Fields} {v : Json} :
    keywords r fs v = true ↔ ∀ e ∈ fs, keyword r e.1 e.2 v = true := by
  induction fs with
  | nil => simp
  | cons e fs ih => simp [ih]

theorem accepts_obj (r : Reading) (fs : Fields) (v : Json) :
    accepts r (.obj fs) v = (keywords r fs v || marked r fs v) := by
  rw [accepts]

theorem accepts_v31 (fs : Fields) (v : Json) :
    accepts .v31 (.obj fs) v = keywords .v31 fs v := by
  simp [marked]

/-- `nullable` by itself says nothing. -/
theorem keyword_nullable (r : Reading) (x v : Json) : keyword r "nullable" x v = true := by
  cases x <;> simp

theorem keyword_type_str (r : Reading) (t : String) (v : Json) :
    keyword r "type" (.str t) v = typeAccepts t v := by
  simp

theorem keyword_type_arr (ts : List Json) (v : Json) :
    keyword .v31 "type" (.arr ts) v = ts.any (nameAccepts v) := by
  simp

theorem keyword_oneOf (r : Reading) (xs : List Json) (v : Json) :
    keyword r "oneOf" (.arr xs) v = (count r xs v == 1) := by
  simp

theorem keyword_anyOf (r : Reading) (xs : List Json) (v : Json) :
    keyword r "anyOf" (.arr xs) v = decide (0 < count r xs v) := by
  simp

/-- A schema that only names a type. -/
theorem accepts_type (r : Reading) (t : String) (v : Json) :
    accepts r (.obj [("type", .str t)]) v = typeAccepts t v := by
  simp [marked, nullable, get?]

end

theorem typeAccepts_null {t : String} : typeAccepts t .null = true ↔ t = "null" := by
  constructor
  · intro h
    unfold typeAccepts at h
    split at h <;> simp_all
  · rintro rfl
    rfl

/-! ## One keyword and the others -/

/-- The keywords but one accept the value. -/
def KeywordsBut (k : String) (r : Reading) (fs : Fields) (v : Json) : Prop :=
  ∀ e ∈ fs, e.1 ≠ k → keyword r e.1 e.2 v = true

section
variable {r : Reading} {fs : Fields} {k : String} {v : Json}

theorem keywords_get {x : Json} (h : Distinct fs) (hget : get? k fs = some x) :
    keywords r fs v = true ↔ keyword r k x v = true ∧ KeywordsBut k r fs v := by
  rw [keywords_iff]
  constructor
  · intro hall
    exact ⟨hall _ (mem_of_get? hget), fun e he _ => hall e he⟩
  · rintro ⟨hk, hbut⟩ e he
    by_cases hkey : e.1 = k
    · have hsame : e.2 = x := by
        have hmem : get? k fs = some e.2 := (get?_eq_some h).mpr (hkey ▸ he)
        exact Option.some.inj (hmem.symm.trans hget)
      rw [hkey, hsame]
      exact hk
    · exact hbut e he hkey

theorem keywords_insert {x : Json} (h : Distinct fs) :
    keywords r (insert k x fs) v = true ↔ keyword r k x v = true ∧ KeywordsBut k r fs v := by
  rw [keywords_iff]
  constructor
  · intro hall
    exact ⟨hall _ ((mem_insert h).mpr (.inl rfl)),
      fun e he hne => hall e ((mem_insert h).mpr (.inr ⟨he, hne⟩))⟩
  · rintro ⟨hk, hbut⟩ e he
    rcases (mem_insert h).mp he with rfl | ⟨he, hne⟩
    · exact hk
    · exact hbut e he hne

theorem keywords_swapRemove (h : Distinct fs) :
    keywords r (swapRemove k fs) v = true ↔ KeywordsBut k r fs v := by
  rw [keywords_iff]
  constructor
  · exact fun hall e he hne => hall e ((mem_swapRemove h).mpr ⟨he, hne⟩)
  · intro hbut e he
    obtain ⟨he, hne⟩ := (mem_swapRemove h).mp he
    exact hbut e he hne

theorem keywordsBut_swapRemove (h : Distinct fs) :
    KeywordsBut k r (swapRemove k fs) v ↔ KeywordsBut k r fs v := by
  constructor
  · exact fun hbut e he hne => hbut e ((mem_swapRemove h).mpr ⟨he, hne⟩) hne
  · exact fun hbut e he hne => hbut e (of_mem_swapRemove he) hne

/-- `nullable` is no constraint. -/
theorem keywordsBut_nullable : KeywordsBut "nullable" r fs v ↔ keywords r fs v = true := by
  rw [keywords_iff]
  constructor
  · intro hbut e he
    by_cases hkey : e.1 = "nullable"
    · rw [hkey]
      exact keyword_nullable r e.2 v
    · exact hbut e he hkey
  · exact fun hall e he _ => hall e he

theorem keywords_insert_nullable {x : Json} (h : Distinct fs) :
    keywords r (insert "nullable" x fs) v = true ↔ keywords r fs v = true := by
  rw [keywords_insert h, keywordsBut_nullable]
  simp [keyword_nullable]

theorem keywords_orInsert_nullable {x : Json} (h : Distinct fs) :
    keywords r (orInsert "nullable" x fs) v = true ↔ keywords r fs v = true := by
  unfold orInsert
  cases get? "nullable" fs with
  | some _ => exact Iff.rfl
  | none => exact keywords_insert_nullable h

end

/-! ## Several schemas -/

theorem count_congr {r r' : Reading} {f : Json → Json} {xs : List Json} {v : Json}
    (h : ∀ x ∈ xs, accepts r' (f x) v = accepts r x v) :
    count r' (xs.map f) v = count r xs v := by
  induction xs with
  | nil => rfl
  | cons x xs ih =>
    have hx := h x List.mem_cons_self
    have hxs := ih fun y hy => h y (List.mem_cons_of_mem _ hy)
    simp only [List.map_cons, count, hx, hxs]

/-- Schemas that reject the value do not count. -/
theorem count_filter {r : Reading} {p : Json → Bool} {xs : List Json} {v : Json}
    (h : ∀ x ∈ xs, p x = false → accepts r x v = false) :
    count r (xs.filter p) v = count r xs v := by
  induction xs with
  | nil => rfl
  | cons x xs ih =>
    have hxs := ih fun y hy => h y (List.mem_cons_of_mem _ hy)
    cases hp : p x with
    | true => simp only [List.filter_cons_of_pos hp, count, hxs]
    | false =>
      have hx := h x List.mem_cons_self hp
      rw [List.filter_cons_of_neg (by simp [hp])]
      simp [count, hx, hxs]

theorem count_pos {r : Reading} {xs : List Json} {v : Json} :
    0 < count r xs v ↔ ∃ x ∈ xs, accepts r x v = true := by
  induction xs with
  | nil => simp [count]
  | cons x xs ih =>
    cases hx : accepts r x v with
    | true =>
      simp only [count, hx, Bool.toNat_true, List.mem_cons, exists_eq_or_imp, true_or, iff_true]
      omega
    | false => simp [count, hx, ih]

/-- At most one of the schemas accepts the value, if no two do. -/
theorem count_le_one_iff {r : Reading} {xs : List Json} {v : Json} :
    count r xs v ≤ 1 ↔
      xs.Pairwise fun x y => ¬ (accepts r x v = true ∧ accepts r y v = true) := by
  induction xs with
  | nil => simp [count]
  | cons x xs ih =>
    rw [List.pairwise_cons, ← ih]
    cases hacc : accepts r x v with
    | false => simp [count, hacc]
    | true =>
      have hpos : 0 < count r xs v ↔ _ := count_pos
      simp only [count, hacc, Bool.toNat_true, true_and]
      constructor
      · intro hle
        refine ⟨fun y hy hyacc => ?_, by omega⟩
        have := hpos.mpr ⟨y, hy, hyacc⟩
        omega
      · rintro ⟨hnone, -⟩
        have hzero : ¬ 0 < count r xs v := by
          rw [hpos]
          rintro ⟨y, hy, hyacc⟩
          exact hnone y hy hyacc
        omega

theorem props_congr {r r' : Reading} {f : Json → Json} {ps : Fields} {v : Json}
    (h : ∀ e ∈ ps, ∀ w, accepts r' (f e.2) w = accepts r e.2 w) :
    props r' (ps.map fun e => (e.1, f e.2)) v = props r ps v := by
  induction ps with
  | nil => rfl
  | cons e ps ih =>
    have he := h e List.mem_cons_self
    have hps := ih fun x hx => h x (List.mem_cons_of_mem _ hx)
    simp only [List.map_cons, props, he, hps]

end JsonSchema

end Core
