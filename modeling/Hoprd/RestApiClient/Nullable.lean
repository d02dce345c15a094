import Hoprd.Core.JsonSchema

/-!
# Nullable types of the API document (`rest-api-client/build.rs`)

The client generator reads OpenAPI 3.0, the document is 3.1: `normalize_nullable_types`
rewrites every object of the document, wherever it stands. A `type` list becomes one
name or a `oneOf`; null variants of `oneOf` and `anyOf` become `nullable`, and a variant
left alone is merged into the object (`normalizeNode`). Then the values are rewritten.

The recursion ends because the values of a rewritten object weigh less than the object
(`rank_normalizeNode`), although a step may nest what it finds one level deeper.
-/
namespace Hoprd.RestApiClient

open Core Core.Json Core.JsonSchema Core.IndexMap

/-! ## The rewriting -/

/-- mirrors rest-api-client/build.rs:192-194 -/
def isNullSchema : Json → Bool
  | .obj [(k, .str s)] => k == "type" && s == "null"
  | _ => false

/-- A name of a `type` list other than `null`. -/
def typeName : Json → Option String
  | .str s => if s = "null" then none else some s
  | _ => none

def isNullName : Json → Bool
  | .str s => s == "null"
  | _ => false

/-- The names left of a `type` list.
mirrors rest-api-client/build.rs:70-86 -/
def setTypes (collected : List String) (map : Fields) : Fields :=
  match collected with
  | [] => swapRemove "type" map
  | [t] => insert "type" (.str t) map
  | collected =>
    insert "oneOf" (.arr (collected.map fun t => .obj [("type", .str t)])) (swapRemove "type" map)

/-- mirrors rest-api-client/build.rs:56-92 -/
def normalizeType (map : Fields) : Fields :=
  match get? "type" map with
  | some (.arr types) =>
    let map := setTypes (types.filterMap typeName) map
    if types.any isNullName then orInsert "nullable" (.bool true) map else map
  | _ => map

/-- The variants left when the null ones are dropped; one left alone is merged.
mirrors rest-api-client/build.rs:105-118 -/
def setVariants (key : String) (nonNull : List Json) (map : Fields) : Fields :=
  match nonNull with
  | [] => map
  | [.obj inner] => insertAll inner map
  | [_] => map
  | nonNull => insert key (.arr nonNull) map

/-- One of `oneOf`, `anyOf`. What is there is taken out and, if it is a list, put back.
mirrors rest-api-client/build.rs:95-124 -/
def normalizeVariants (key : String) (map : Fields) : Fields :=
  match get? key map with
  | none => map
  | some (.arr variants) =>
    let map := swapRemove key map
    if variants.any isNullSchema then
      insert "nullable" (.bool true)
        (setVariants key (variants.filter fun v => !isNullSchema v) map)
    else insert key (.arr variants) map
  | some _ => swapRemove key map

/-- What is done to an object before its values.
mirrors rest-api-client/build.rs:55-124 -/
def normalizeNode (map : Fields) : Fields :=
  normalizeVariants "anyOf" (normalizeVariants "oneOf" (normalizeType map))

/-! ## Where the entries come from -/

section
variable {map : Fields} {e : String × Json}

theorem of_mem_setTypes {names : List String} (h : e ∈ setTypes names map) :
    (e ∈ map ∧ (Distinct map → e.1 ≠ "type")) ∨ (∃ t, e = ("type", .str t)) ∨
      e = ("oneOf", .arr (names.map fun t => .obj [("type", .str t)])) := by
  have hrest : e ∈ swapRemove "type" map → e ∈ map ∧ (Distinct map → e.1 ≠ "type") :=
    fun he => ⟨of_mem_swapRemove he, fun hdistinct => ((mem_swapRemove hdistinct).mp he).2⟩
  unfold setTypes at h
  split at h
  · exact .inl (hrest h)
  · next t =>
    rcases of_mem_insert h with rfl | hmap
    · exact .inr (.inl ⟨t, rfl⟩)
    · by_cases hstr : e = ("type", .str t)
      · exact .inr (.inl ⟨t, hstr⟩)
      · refine .inl ⟨hmap, fun hdistinct => ?_⟩
        rcases (mem_insert hdistinct).mp h with heq | ⟨-, hne⟩
        · exact absurd heq hstr
        · exact hne
  · rcases of_mem_insert h with rfl | he
    · exact .inr (.inr rfl)
    · exact .inl (hrest he)

theorem of_mem_normalizeType (h : e ∈ normalizeType map) :
    (e ∈ map ∧ (Distinct map → ∀ types, e ≠ ("type", .arr types))) ∨
      ∃ types, get? "type" map = some (.arr types) ∧
        ((∃ t, e = ("type", .str t)) ∨ e = ("nullable", .bool true) ∨
          e = ("oneOf",
            .arr ((types.filterMap typeName).map fun t => .obj [("type", .str t)]))) := by
  unfold normalizeType at h
  split at h
  · next types htype =>
    have hset : e ∈ setTypes (types.filterMap typeName) map ∨ e = ("nullable", .bool true) := by
      dsimp only at h
      split at h
      · exact (of_mem_orInsert h).symm
      · exact .inl h
    rcases hset with hset | hmark
    · rcases of_mem_setTypes hset with ⟨hmap, hne⟩ | hstr | hone
      · refine .inl ⟨hmap, fun hdistinct types' heq => hne hdistinct ?_⟩
        rw [heq]
      · exact .inr ⟨types, htype, .inl hstr⟩
      · exact .inr ⟨types, htype, .inr (.inr hone)⟩
    · exact .inr ⟨types, htype, .inr (.inl hmark)⟩
  · next hnot =>
    refine .inl ⟨h, fun hdistinct types heq => hnot types ?_⟩
    rw [heq] at h
    exact (get?_eq_some hdistinct).mpr h

theorem of_mem_setVariants {key : String} {nonNull : List Json}
    (h : e ∈ setVariants key nonNull map) :
    e ∈ map ∨ (∃ inner, nonNull = [.obj inner] ∧ e ∈ inner) ∨ e = (key, .arr nonNull) := by
  unfold setVariants at h
  split at h
  · exact .inl h
  · next inner =>
    rcases of_mem_insertAll h with hinner | hmap
    · exact .inr (.inl ⟨inner, rfl, hinner⟩)
    · exact .inl hmap
  · exact .inl h
  · rcases of_mem_insert h with hkey | hmap
    · exact .inr (.inr hkey)
    · exact .inl hmap

theorem of_mem_normalizeVariants {key : String} (h : e ∈ normalizeVariants key map) :
    e ∈ map ∨ ∃ variants, get? key map = some (.arr variants) ∧
      ((variants.any isNullSchema = true ∧
          ∃ inner, variants.filter (fun v => !isNullSchema v) = [.obj inner] ∧ e ∈ inner) ∨
        e = ("nullable", .bool true) ∨
        e = (key, .arr (variants.filter fun v => !isNullSchema v)) ∨ e = (key, .arr variants)) := by
  unfold normalizeVariants at h
  split at h
  · exact .inl h
  · next variants hget =>
    dsimp only at h
    split at h
    · next hnull =>
      rcases of_mem_insert h with hmark | h
      · exact .inr ⟨variants, hget, .inr (.inl hmark)⟩
      · rcases of_mem_setVariants h with hmap | hinner | hkey
        · exact .inl (of_mem_swapRemove hmap)
        · exact .inr ⟨variants, hget, .inl ⟨hnull, hinner⟩⟩
        · exact .inr ⟨variants, hget, .inr (.inr (.inl hkey))⟩
    · rcases of_mem_insert h with hkey | hmap
      · exact .inr ⟨variants, hget, .inr (.inr (.inr hkey))⟩
      · exact .inl (of_mem_swapRemove hmap)
  · exact .inl (of_mem_swapRemove h)

end

/-! ## Termination -/

mutual

/-- The rewriting makes values smaller in this measure: a name in a list weighs more
than the schema it becomes. -/
def rank : Json → Nat
  | .arr xs => 1 + rankElems xs
  | .obj fs => 1 + rankFields fs
  | _ => 1
termination_by structural x => x

def rankElems : List Json → Nat
  | [] => 0
  | x :: xs => (match x with | .str _ => 3 | _ => rank x) + rankElems xs
termination_by structural xs => xs

def rankFields : Fields → Nat
  | [] => 0
  | (_, x) :: fs => rank x + rankFields fs
termination_by structural fs => fs

end

theorem rank_mem_elems {x : Json} {xs : List Json} (h : x ∈ xs) : rank x ≤ rankElems xs := by
  induction xs with
  | nil => cases h
  | cons y xs ih =>
    unfold rankElems
    rcases List.mem_cons.mp h with rfl | h
    · cases x <;> simp [rank]
      all_goals omega
    · have := ih h
      omega

theorem rank_mem_fields {e : String × Json} {fs : Fields} (h : e ∈ fs) :
    rank e.2 ≤ rankFields fs := by
  induction fs with
  | nil => cases h
  | cons f fs ih =>
    unfold rankFields
    rcases List.mem_cons.mp h with rfl | h
    · omega
    · have := ih h
      omega

theorem rankElems_filter (p : Json → Bool) (xs : List Json) :
    rankElems (xs.filter p) ≤ rankElems xs := by
  induction xs with
  | nil => simp
  | cons x xs ih =>
    by_cases hp : p x = true
    · rw [List.filter_cons_of_pos hp]
      simp only [rankElems]
      omega
    · rw [List.filter_cons_of_neg hp]
      simp only [rankElems]
      omega

/-- The `oneOf` made of a `type` list ranks no higher than the list. -/
theorem rank_typeNames (types : List Json) :
    rankElems ((types.filterMap typeName).map fun t => Json.obj [("type", .str t)]) ≤
      rankElems types := by
  induction types with
  | nil => simp [rankElems]
  | cons x types ih =>
    cases hx : typeName x with
    | none =>
      rw [List.filterMap_cons_none hx]
      simp only [rankElems]
      omega
    | some t =>
      rw [List.filterMap_cons_some hx]
      cases x with
      | str s =>
        simp only [List.map_cons, rankElems, rank, rankFields]
        omega
      | null | bool | num | arr | obj => cases hx

/-- Every value ranks below `b`. -/
def Below (b : Nat) (fs : Fields) : Prop := ∀ e ∈ fs, rank e.2 < b

section
variable {b : Nat} {fs : Fields}

theorem below_normalizeType (h : Below b fs) : Below b (normalizeType fs) := by
  intro e he
  rcases of_mem_normalizeType he with ⟨hmem, -⟩ | ⟨types, htype, ⟨t, rfl⟩ | rfl | rfl⟩
  · exact h e hmem
  all_goals
    have hlist : rank (.arr types) < b := h _ (mem_of_get? htype)
    have hnames := rank_typeNames types
    simp only [rank] at *
    omega

theorem below_normalizeVariants {key : String} (h : Below b fs) :
    Below b (normalizeVariants key fs) := by
  intro e he
  rcases of_mem_normalizeVariants he with hmem | ⟨variants, hget, hnew⟩
  · exact h e hmem
  · have hlist : rank (.arr variants) < b := h _ (mem_of_get? hget)
    have hfilter := rankElems_filter (fun v => !isNullSchema v) variants
    simp only [rank] at hlist
    rcases hnew with ⟨-, inner, hinner, he⟩ | rfl | rfl | rfl
    · have hvalue := rank_mem_fields he
      rw [hinner] at hfilter
      simp only [rankElems, rank] at hfilter
      omega
    all_goals
      simp only [rank]
      omega

end

theorem rank_normalizeNode {fs : Fields} {e : String × Json} (h : e ∈ normalizeNode fs) :
    rank e.2 < rank (.obj fs) := by
  have hbelow : Below (rank (.obj fs)) fs := by
    intro e he
    have := rank_mem_fields he
    simp only [rank]
    omega
  exact below_normalizeVariants (below_normalizeVariants (below_normalizeType hbelow)) e h

/-- mirrors rest-api-client/build.rs:48-132 -/
def normalizeNullableTypes : Json → Json
  | .arr items => .arr (items.map normalizeNullableTypes)
  | .obj map =>
    .obj ((normalizeNode map).attach.map fun e => (e.val.1, normalizeNullableTypes e.val.2))
  | value => value
termination_by value => rank value
decreasing_by
  · have := rank_mem_elems ‹_ ∈ items›
    simp only [rank]
    omega
  · exact rank_normalizeNode e.property

@[simp]
theorem normalize_arr (items : List Json) :
    normalizeNullableTypes (.arr items) = .arr (items.map normalizeNullableTypes) := by
  rw [normalizeNullableTypes]

@[simp]
theorem normalize_obj (map : Fields) :
    normalizeNullableTypes (.obj map) =
      .obj ((normalizeNode map).map fun e => (e.1, normalizeNullableTypes e.2)) := by
  rw [normalizeNullableTypes]
  congr 1
  conv_rhs => rw [← List.attach_map_subtype_val (normalizeNode map), List.map_map]
  rfl

@[simp]
theorem normalize_null : normalizeNullableTypes .null = .null := by
  rw [normalizeNullableTypes]
  all_goals simp

@[simp]
theorem normalize_bool (b : Bool) : normalizeNullableTypes (.bool b) = .bool b := by
  rw [normalizeNullableTypes]
  all_goals simp

@[simp]
theorem normalize_num (q : Rat) : normalizeNullableTypes (.num q) = .num q := by
  rw [normalizeNullableTypes]
  all_goals simp

@[simp]
theorem normalize_str (t : String) : normalizeNullableTypes (.str t) = .str t := by
  rw [normalizeNullableTypes]
  all_goals simp

end Hoprd.RestApiClient
