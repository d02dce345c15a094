import Hoprd.RestApiClient.Nullable

/-!
# What the nullable rewriting does to the meaning of a schema

The rewriting of one object goes through three steps; `nodeAccepts` is what the object
accepts between them, when its own `nullable` already counts but its schemas are still
those of 3.1. Each step keeps it under a condition on the object the step is given:
`TypeOk`, then `VariantsOk` for `oneOf` and for `anyOf`. `Clean` asks for them, and for
a `nullable` of the document to say nothing new, at every object the rewriting reaches.

* `normalize_keeps_meaning`: a `Clean` schema accepts under 3.1 what its rewriting
  accepts under 3.0.
* `typeOk_of_nodeAccepts`: for an object with a `type` list alone, `TypeOk` is exact.
* `property_named_oneOf_is_dropped`: a property map is rewritten like a schema, and
  loses a property of that name.
-/
namespace Hoprd.RestApiClient

open Core Core.Json Core.JsonSchema Core.IndexMap

/-- What an object accepts between the steps. -/
def nodeAccepts (fs : Fields) (v : Json) : Bool :=
  keywords .v31 fs v || (v.isNull && nullable fs)

/-! ## Conditions -/

/-- No value has both types. -/
def Exclusive (t t' : String) : Prop := ∀ v, ¬ (typeAccepts t v = true ∧ typeAccepts t' v = true)

/-- A `type` list names a type other than `null`; several exclude each other and find
no `oneOf` they would overwrite; with `null` among them, the object accepts `null`
unless `nullable: false` is kept. -/
def TypeOk (fs : Fields) : Prop :=
  ∀ types, get? "type" fs = some (.arr types) →
    types.filterMap typeName ≠ [] ∧
    (2 ≤ (types.filterMap typeName).length →
      get? "oneOf" fs = none ∧ (types.filterMap typeName).Pairwise Exclusive) ∧
    (types.any isNullName = true →
      (keywords .v31 fs .null = true ↔ nullable (orInsert "nullable" (.bool true) fs) = true))

/-- `type` is not a list. -/
def Settled (fs : Fields) : Prop := ∀ types, get? "type" fs ≠ some (.arr types)

/-- Some variant is left; one left alone is an object whose keywords overwrite nothing,
and its `type` is not a list. -/
def LeftOk (key : String) (nonNull : List Json) (fs : Fields) : Prop :=
  match nonNull with
  | [] => False
  | [.obj inner] => Distinct inner ∧ Settled inner ∧
      ∀ e ∈ inner, ∀ e' ∈ fs, e'.1 ≠ key → e'.1 = e.1 → e.1 = "nullable" ∨ e.2 = e'.2
  | [_] => False
  | _ => True

/-- If null variants are dropped, the object accepts `null`. -/
def VariantsOk (key : String) (fs : Fields) : Prop :=
  ∀ variants, get? key fs = some (.arr variants) → variants.any isNullSchema = true →
    nodeAccepts fs .null = true ∧ LeftOk key (variants.filter fun v => !isNullSchema v) fs

/-- A property map that is not taken for a schema with something to rewrite. -/
def PropertiesOk (ps : Fields) : Prop :=
  get? "oneOf" ps = none ∧ get? "anyOf" ps = none ∧ Settled ps

/-- The schemas under a keyword. -/
inductive Child : String → Json → Json → Prop
  | oneOf {xs : List Json} {x : Json} (h : x ∈ xs) : Child "oneOf" (.arr xs) x
  | anyOf {xs : List Json} {x : Json} (h : x ∈ xs) : Child "anyOf" (.arr xs) x
  | items (fs : Fields) : Child "items" (.obj fs) (.obj fs)
  | property {ps : Fields} {e : String × Json} (h : e ∈ ps) : Child "properties" (.obj ps) e.2

theorem Child.key {k : String} {x y : Json} (h : Child k x y) :
    k = "oneOf" ∨ k = "anyOf" ∨ k = "items" ∨ k = "properties" := by
  cases h <;> simp

/-- No step of the rewriting goes wrong, at this object or below it. -/
inductive Clean : Json → Prop
  | node {fs : Fields} (distinct : Distinct fs)
      (nullable : nullable fs = true → keywords .v31 fs .null = true)
      (type : TypeOk fs)
      (oneOf : VariantsOk "oneOf" (normalizeType fs))
      (anyOf : VariantsOk "anyOf" (normalizeVariants "oneOf" (normalizeType fs)))
      (properties : ∀ ps, ("properties", .obj ps) ∈ normalizeNode fs → PropertiesOk ps)
      (children : ∀ e ∈ normalizeNode fs, ∀ x, Child e.1 e.2 x → Clean x) :
      Clean (.obj fs)

/-! ## The step of `type` -/

theorem nameAccepts_typeName {x v : Json} :
    nameAccepts v x = true ↔
      (isNullName x = true ∧ v.isNull = true) ∨
        ∃ t, typeName x = some t ∧ typeAccepts t v = true := by
  cases x with
  | str s =>
    by_cases hs : s = "null"
    · subst hs
      simp only [nameAccepts, isNullName, typeName, beq_self_eq_true, true_and, if_true]
      cases v <;> simp [typeAccepts, isNull]
    · simp [nameAccepts, isNullName, typeName, hs]
  | null | bool | num | arr | obj => simp [nameAccepts, isNullName, typeName]

/-- A `type` list accepts what one of its names accepts. -/
theorem any_nameAccepts {types : List Json} {v : Json} :
    types.any (nameAccepts v) = true ↔
      (types.any isNullName = true ∧ v.isNull = true) ∨
        ∃ t ∈ types.filterMap typeName, typeAccepts t v = true := by
  simp only [List.any_eq_true, nameAccepts_typeName, List.mem_filterMap]
  constructor
  · rintro ⟨x, hx, ⟨hnull, hv⟩ | ⟨t, ht, hacc⟩⟩
    · exact .inl ⟨⟨x, hx, hnull⟩, hv⟩
    · exact .inr ⟨t, ⟨x, hx, ht⟩, hacc⟩
  · rintro (⟨⟨x, hx, hnull⟩, hv⟩ | ⟨t, ⟨x, hx, ht⟩, hacc⟩)
    · exact ⟨x, hx, .inl ⟨hnull, hv⟩⟩
    · exact ⟨x, hx, .inr ⟨t, ht, hacc⟩⟩

theorem typeName_ne_null {types : List Json} {t : String} (h : t ∈ types.filterMap typeName) :
    t ≠ "null" := by
  obtain ⟨x, -, hx⟩ := List.mem_filterMap.mp h
  cases x with
  | str s =>
    by_cases hs : s = "null"
    · simp [typeName, hs] at hx
    · simp only [typeName, if_neg hs, Option.some.injEq] at hx
      rwa [← hx]
  | null | bool | num | arr | obj => cases hx

/-- What a `type` list becomes if it names several types. -/
def typeVariants (names : List String) : List Json := names.map fun t => .obj [("type", .str t)]

theorem count_typeVariants_pos {names : List String} {v : Json} :
    0 < count .v31 (typeVariants names) v ↔ ∃ t ∈ names, typeAccepts t v = true := by
  rw [count_pos]
  simp only [typeVariants, List.mem_map, exists_exists_and_eq_and, accepts_type]

theorem pairwise_exclusive_iff {names : List String} :
    names.Pairwise Exclusive ↔ ∀ v, count .v31 (typeVariants names) v ≤ 1 := by
  simp only [count_le_one_iff, typeVariants, List.pairwise_map, accepts_type]
  induction names with
  | nil => simp
  | cons t names ih =>
    simp only [List.pairwise_cons, ih, forall_and]
    constructor
    · rintro ⟨hhead, htail⟩
      exact ⟨fun v t' ht' => hhead t' ht' v, htail⟩
    · rintro ⟨hhead, htail⟩
      exact ⟨fun t' ht' v => hhead v t' ht', htail⟩

/-- Exclusive types as variants of a `oneOf`. -/
theorem keyword_oneOf_types {names : List String} (h : names.Pairwise Exclusive) (v : Json) :
    keyword .v31 "oneOf" (.arr (typeVariants names)) v = true ↔
      ∃ t ∈ names, typeAccepts t v = true := by
  have hle := pairwise_exclusive_iff.mp h v
  rw [keyword_oneOf, beq_iff_eq, ← count_typeVariants_pos]
  omega

theorem setTypes_several {names : List String} (h : 2 ≤ names.length) (fs : Fields) :
    setTypes names fs =
      IndexMap.insert "oneOf" (.arr (typeVariants names)) (swapRemove "type" fs) := by
  rcases names with _ | ⟨a, _ | ⟨b, rest⟩⟩
  · cases h
  · exact absurd h (by simp)
  · rfl

theorem keywords_setTypes {fs : Fields} {types : List Json} (h : Distinct fs)
    (htype : get? "type" fs = some (.arr types)) (hok : TypeOk fs) (v : Json) :
    keywords .v31 (setTypes (types.filterMap typeName) fs) v = true ↔
      (∃ t ∈ types.filterMap typeName, typeAccepts t v = true) ∧ KeywordsBut "type" .v31 fs v := by
  obtain ⟨hne, hseveral, -⟩ := hok types htype
  rcases hnames : types.filterMap typeName with _ | ⟨t, _ | ⟨t', rest⟩⟩
  · exact (hne hnames).elim
  · simp only [setTypes]
    rw [keywords_insert h, keyword_type_str]
    simp
  · rw [hnames] at hseveral
    obtain ⟨habsent, hexclusive⟩ := hseveral (by simp)
    rw [get?_eq_none] at habsent
    have hbut : KeywordsBut "oneOf" .v31 (swapRemove "type" fs) v ↔
        KeywordsBut "type" .v31 fs v := by
      constructor
      · exact fun hall e he hkey => hall e ((mem_swapRemove h).mpr ⟨he, hkey⟩) (habsent e he)
      · intro hall e he _
        obtain ⟨he, hkey⟩ := (mem_swapRemove h).mp he
        exact hall e he hkey
    rw [setTypes_several (by simp), keywords_insert (distinct_swapRemove h),
      keyword_oneOf_types hexclusive, hbut]

theorem distinct_setTypes {names : List String} {fs : Fields} (h : Distinct fs) :
    Distinct (setTypes names fs) := by
  unfold setTypes
  split
  · exact distinct_swapRemove h
  · exact distinct_insert h
  · exact distinct_insert (distinct_swapRemove h)

theorem distinct_normalizeType {fs : Fields} (h : Distinct fs) : Distinct (normalizeType fs) := by
  unfold normalizeType
  split
  · dsimp only
    split
    · exact distinct_orInsert (distinct_setTypes h)
    · exact distinct_setTypes h
  · exact h

/-- The keys the step of `type` writes. -/
theorem get?_setTypes {names : List String} {fs : Fields} (h : Distinct fs) {k : String}
    (htype : "type" ≠ k) (honeOf : "oneOf" ≠ k) : get? k (setTypes names fs) = get? k fs := by
  unfold setTypes
  split
  · rw [get?_swapRemove h, if_neg htype]
  · rw [get?_insert, if_neg htype]
  · rw [get?_insert, if_neg honeOf, get?_swapRemove h, if_neg htype]

theorem nullable_orInsert_setTypes {names : List String} {fs : Fields} (h : Distinct fs)
    (x : Json) : nullable (orInsert "nullable" x (setTypes names fs)) =
      nullable (orInsert "nullable" x fs) := by
  unfold nullable
  rw [get?_orInsert, get?_orInsert, get?_setTypes h (by decide) (by decide)]

/-- `null` in the result is there by `nullable` only. -/
theorem no_null_name {types : List Json} :
    ¬ ∃ t ∈ types.filterMap typeName, typeAccepts t .null = true := by
  rintro ⟨t, ht, hacc⟩
  exact typeName_ne_null ht (typeAccepts_null.mp hacc)

theorem nodeAccepts_normalizeType {fs : Fields} (h : Distinct fs)
    (hnullable : nullable fs = true → keywords .v31 fs .null = true) (hok : TypeOk fs) (v : Json) :
    nodeAccepts (normalizeType fs) v = nodeAccepts fs v := by
  unfold normalizeType
  split
  · next types htype =>
    have hset := keywords_setTypes h htype hok v
    have hraw := keywords_get (r := .v31) (v := v) h htype
    rw [keyword_type_arr, any_nameAccepts] at hraw
    rw [Bool.eq_iff_iff]
    dsimp only
    by_cases hv : v = .null
    · subst hv
      have hnone : ¬ keywords .v31 (setTypes (types.filterMap typeName) fs) .null = true := by
        rw [hset]
        exact fun hboth => no_null_name hboth.1
      cases hname : types.any isNullName with
      | true =>
        have hiff := (hok types htype).2.2 hname
        rw [if_pos rfl]
        simp only [nodeAccepts, Bool.or_eq_true, Bool.and_eq_true, isNull, true_and,
          keywords_orInsert_nullable (distinct_setTypes h), nullable_orInsert_setTypes h, hnone,
          Bool.false_eq_true, false_or, ← hiff]
        exact ⟨.inl, fun hor => hor.elim id hnullable⟩
      | false =>
        have hnoneRaw : ¬ keywords .v31 fs .null = true := by
          rw [hraw, hname]
          rintro ⟨⟨hfalse, -⟩ | hsome, -⟩
          · cases hfalse
          · exact no_null_name hsome
        have hsame : nullable (setTypes (types.filterMap typeName) fs) = nullable fs := by
          unfold nullable
          rw [get?_setTypes h (by decide) (by decide)]
        rw [if_neg (by simp)]
        simp only [nodeAccepts, hsame, Bool.or_eq_true, hnone, hnoneRaw]
    · have hnull : v.isNull = false := by
        rw [Bool.eq_false_iff, ne_eq, isNull_iff]
        exact hv
      have hkeywords : keywords .v31 (setTypes (types.filterMap typeName) fs) v = true ↔
          keywords .v31 fs v = true := by
        rw [hset, hraw, hnull]
        simp
      split
      · simp only [nodeAccepts, hnull, Bool.false_and, Bool.or_false,
          keywords_orInsert_nullable (distinct_setTypes h), hkeywords]
      · simp only [nodeAccepts, hnull, Bool.false_and, Bool.or_false, hkeywords]
  · rfl

/-- A `type` list alone. -/
def typeList (types : List Json) : Fields := [("type", .arr types)]

theorem distinct_typeList (types : List Json) : Distinct (typeList types) := by
  simp [typeList, Distinct]

theorem keywords_typeList (types : List Json) (v : Json) :
    keywords .v31 (typeList types) v = types.any (nameAccepts v) := by
  simp [typeList, keywords, keyword_type_arr]

theorem nodeAccepts_typeList {types : List Json} {v : Json} (hv : v.isNull = false) :
    nodeAccepts (normalizeType (typeList types)) v =
      keywords .v31 (setTypes (types.filterMap typeName) (typeList types)) v := by
  have hget : get? "type" (typeList types) = some (.arr types) := rfl
  unfold normalizeType
  rw [hget]
  dsimp only
  split
  · rw [nodeAccepts, hv, Bool.false_and, Bool.or_false, Bool.eq_iff_iff,
      keywords_orInsert_nullable (distinct_setTypes (distinct_typeList types))]
  · rw [nodeAccepts, hv, Bool.false_and, Bool.or_false]

/-- Types whose `oneOf` accepts what one of them accepts exclude each other. -/
theorem exclusive_of_keyword_oneOf {names : List String} (hnames : ∀ t ∈ names, t ≠ "null")
    (h : ∀ v : Json, v.isNull = false → (∃ t ∈ names, typeAccepts t v = true) →
      keyword .v31 "oneOf" (.arr (typeVariants names)) v = true) : names.Pairwise Exclusive := by
  rw [pairwise_exclusive_iff]
  intro v
  by_contra hmany
  have hpos : 0 < count .v31 (typeVariants names) v := by omega
  rw [count_typeVariants_pos] at hpos
  have hnull : v.isNull = false := by
    rw [Bool.eq_false_iff, ne_eq, isNull_iff]
    rintro rfl
    obtain ⟨t, ht, hacc⟩ := hpos
    exact hnames t ht (typeAccepts_null.mp hacc)
  have hone := h v hnull hpos
  rw [keyword_oneOf, beq_iff_eq] at hone
  omega

/-- Of an object with a `type` list alone, the step of `type` keeps the meaning only if the
list is fine. -/
theorem typeOk_of_nodeAccepts {types : List Json}
    (hkeeps : ∀ v, nodeAccepts (normalizeType (typeList types)) v =
      keywords .v31 (typeList types) v) : TypeOk (typeList types) := by
  have hset : ∀ v : Json, v.isNull = false →
      (keywords .v31 (setTypes (types.filterMap typeName) (typeList types)) v = true ↔
        ∃ t ∈ types.filterMap typeName, typeAccepts t v = true) := by
    intro v hv
    rw [← nodeAccepts_typeList hv, hkeeps, keywords_typeList, any_nameAccepts]
    simp [hv]
  intro types' hget
  obtain rfl : types = types' := by simpa [typeList, get?] using hget
  refine ⟨?_, ?_, ?_⟩
  · intro hnil
    -- the keyword is removed, and everything accepted
    have hall := hset (.bool true) rfl
    rw [hnil] at hall
    simp [setTypes, typeList, swapRemove, keywords] at hall
  · intro hseveral
    refine ⟨rfl, exclusive_of_keyword_oneOf (fun t => typeName_ne_null) ?_⟩
    intro v hv hsome
    have hone := (hset v hv).mpr hsome
    rw [setTypes_several hseveral, keywords_iff] at hone
    exact hone _ List.mem_cons_self
  · intro hname
    have hnull : keywords .v31 (typeList types) .null = true := by
      rw [keywords_typeList, any_nameAccepts]
      exact .inl ⟨hname, rfl⟩
    exact ⟨fun _ => rfl, fun _ => hnull⟩

/-! ## The step of `oneOf` and `anyOf` -/

theorem isNullSchema_accepts {x v : Json} (h : isNullSchema x = true) :
    accepts .v31 x v = v.isNull := by
  unfold isNullSchema at h
  split at h
  · next k s =>
    simp only [Bool.and_eq_true, beq_iff_eq] at h
    obtain ⟨rfl, rfl⟩ := h
    rw [accepts_type]
    cases v <;> rfl
  · cases h

/-- The two keywords that count variants. -/
def CountsVariants (key : String) : Prop := key = "oneOf" ∨ key = "anyOf"

theorem CountsVariants.ne_nullable {key : String} (h : CountsVariants key) : key ≠ "nullable" := by
  rcases h with rfl | rfl
  · decide
  · decide

theorem CountsVariants.ne_type {key : String} (h : CountsVariants key) : key ≠ "type" := by
  rcases h with rfl | rfl
  · decide
  · decide

theorem keyword_congr_count {key : String} (hkey : CountsVariants key) {r r' : Reading}
    {xs ys : List Json} {v : Json} (h : count r xs v = count r' ys v) :
    keyword r key (.arr xs) v = keyword r' key (.arr ys) v := by
  rcases hkey with rfl | rfl
  · rw [keyword_oneOf, keyword_oneOf, h]
  · rw [keyword_anyOf, keyword_anyOf, h]

theorem keyword_single {key : String} (hkey : CountsVariants key) (r : Reading) (x v : Json) :
    keyword r key (.arr [x]) v = accepts r x v := by
  rcases hkey with rfl | rfl
  · rw [keyword_oneOf]
    cases hx : accepts r x v <;> simp [count, hx]
  · rw [keyword_anyOf]
    cases hx : accepts r x v <;> simp [count, hx]

theorem keywords_setVariants {key : String} {nonNull : List Json} {fs : Fields}
    (hkey : CountsVariants key) (h : Distinct fs) (hok : LeftOk key nonNull fs) (v : Json) :
    keywords .v31 (setVariants key nonNull (swapRemove key fs)) v = true ↔
      keyword .v31 key (.arr nonNull) v = true ∧ KeywordsBut key .v31 fs v := by
  have hrest := distinct_swapRemove (k := key) h
  unfold setVariants
  split
  · exact hok.elim
  · next inner =>
    obtain ⟨hinner, -, hover⟩ := hok
    rw [keyword_single hkey, accepts_v31, keywords_iff, keywords_iff]
    constructor
    · intro hall
      refine ⟨fun e he => hall e ((mem_insertAll hinner hrest).mpr (.inl he)), ?_⟩
      intro e he hne
      by_cases hin : ∃ o ∈ inner, o.1 = e.1
      · obtain ⟨o, ho, hsame⟩ := hin
        have hvalue := hall o ((mem_insertAll hinner hrest).mpr (.inl ho))
        rcases hover o ho e he hne hsame.symm with hmark | heq
        · rw [← hsame, hmark]
          exact keyword_nullable _ _ _
        · rw [← hsame, ← heq]
          exact hvalue
      · have hmem : e ∈ insertAll inner (swapRemove key fs) := by
          rw [mem_insertAll hinner hrest, mem_swapRemove h]
          exact .inr ⟨⟨he, hne⟩, fun o ho hsame => hin ⟨o, ho, hsame⟩⟩
        exact hall e hmem
    · rintro ⟨hinside, hbut⟩ e he
      rcases of_mem_insertAll he with he | he
      · exact hinside e he
      · obtain ⟨he, hne⟩ := (mem_swapRemove h).mp he
        exact hbut e he hne
  · next x hobj =>
    cases x with
    | obj inner => exact (hobj inner rfl).elim
    | null | bool | num | str | arr => exact hok.elim
  · rw [keywords_insert hrest, keywordsBut_swapRemove h]

theorem distinct_setVariants {key : String} {nonNull : List Json} {fs : Fields} (h : Distinct fs) :
    Distinct (setVariants key nonNull fs) := by
  unfold setVariants
  split
  · exact h
  · exact distinct_insertAll h
  · exact h
  · exact distinct_insert h

theorem distinct_normalizeVariants {key : String} {fs : Fields} (h : Distinct fs) :
    Distinct (normalizeVariants key fs) := by
  unfold normalizeVariants
  split
  · exact h
  · dsimp only
    split
    · exact distinct_insert (distinct_setVariants (distinct_swapRemove h))
    · exact distinct_insert (distinct_swapRemove h)
  · exact distinct_swapRemove h

/-- What is not a list of variants is no constraint. -/
theorem keyword_not_list {key : String} (hkey : CountsVariants key) {x : Json}
    (hx : ∀ xs, x ≠ .arr xs) (r : Reading) (v : Json) : keyword r key x v = true := by
  cases x with
  | arr xs => exact (hx xs rfl).elim
  | null | bool | num => simp [keyword]
  | str t => simp [keyword, hkey.ne_type]
  | obj ps =>
    rcases hkey with rfl | rfl
    · simp [keyword]
    · simp [keyword]

theorem nodeAccepts_normalizeVariants {key : String} (hkey : CountsVariants key) {fs : Fields}
    (h : Distinct fs) (hok : VariantsOk key fs) (v : Json) :
    nodeAccepts (normalizeVariants key fs) v = nodeAccepts fs v := by
  have hrest := distinct_swapRemove (k := key) h
  have hsame : nullable (swapRemove key fs) = nullable fs := by
    unfold nullable
    rw [get?_swapRemove h, if_neg hkey.ne_nullable]
  unfold normalizeVariants
  rw [Bool.eq_iff_iff]
  split
  · exact Iff.rfl
  · next variants hget =>
    dsimp only
    split
    · next hnull =>
      obtain ⟨haccepts, hleft⟩ := hok variants hget hnull
      have hdistinct :
          Distinct (setVariants key (variants.filter fun v => !isNullSchema v)
            (swapRemove key fs)) := distinct_setVariants hrest
      by_cases hv : v = .null
      · subst hv
        rw [haccepts]
        simp [nodeAccepts, nullable, get?_insert, isNull]
      · have hisNull : v.isNull = false := by
          rw [Bool.eq_false_iff, ne_eq, isNull_iff]
          exact hv
        have hcount : count .v31 (variants.filter fun v => !isNullSchema v) v =
            count .v31 variants v := by
          apply count_filter
          intro x _ hx
          rw [isNullSchema_accepts (by simpa using hx), hisNull]
        simp only [nodeAccepts, hisNull, Bool.false_and, Bool.or_false]
        rw [keywords_insert_nullable hdistinct, keywords_setVariants hkey h hleft,
          keywords_get h hget, keyword_congr_count hkey hcount]
    · have hback : keywords .v31 (insert key (.arr variants) (swapRemove key fs)) v = true ↔
          keywords .v31 fs v = true := by
        rw [keywords_insert hrest, keywordsBut_swapRemove h, keywords_get h hget]
      have hmark : nullable (insert key (.arr variants) (swapRemove key fs)) = nullable fs := by
        rw [← hsame]
        unfold nullable
        rw [get?_insert, if_neg hkey.ne_nullable]
      simp only [nodeAccepts, Bool.or_eq_true, hback, hmark]
  · next x hx hget =>
    have hdropped : keywords .v31 (swapRemove key fs) v = true ↔ keywords .v31 fs v = true := by
      rw [keywords_swapRemove h, keywords_get h hget, keyword_not_list hkey]
      · simp
      · rintro xs rfl
        exact hx xs rfl
    simp only [nodeAccepts, Bool.or_eq_true, hdropped, hsame]

/-! ## No `type` list is left -/

/-- `Settled`, whatever the keys. -/
def NoTypeList (fs : Fields) : Prop := ∀ types, ("type", Json.arr types) ∉ fs

theorem noTypeList_normalizeType {fs : Fields} (h : Distinct fs) :
    NoTypeList (normalizeType fs) := by
  intro types hmem
  rcases of_mem_normalizeType hmem with ⟨-, hne⟩ | ⟨_, -, ⟨t, heq⟩ | heq | heq⟩
  · exact hne h types rfl
  · cases heq
  · exact absurd (Prod.mk.inj heq).1 (by decide)
  · exact absurd (Prod.mk.inj heq).1 (by decide)

theorem noTypeList_normalizeVariants {key : String} (hkey : CountsVariants key) {fs : Fields}
    (hok : VariantsOk key fs) (h : NoTypeList fs) : NoTypeList (normalizeVariants key fs) := by
  intro types hmem
  rcases of_mem_normalizeVariants hmem with
    hmem | ⟨variants, hget, ⟨hnull, inner, hinner, hmem⟩ | heq | heq | heq⟩
  · exact h types hmem
  · obtain ⟨-, hleft⟩ := hok variants hget hnull
    rw [hinner] at hleft
    obtain ⟨hdistinct, hsettled, -⟩ := hleft
    exact hsettled types ((get?_eq_some hdistinct).mpr hmem)
  · exact absurd (Prod.mk.inj heq).1 (by decide)
  · exact hkey.ne_type (Prod.mk.inj heq).1.symm
  · exact hkey.ne_type (Prod.mk.inj heq).1.symm

/-! ## The values -/

/-- A property map goes through the steps as it is. -/
theorem normalizeNode_properties {ps : Fields} (h : PropertiesOk ps) : normalizeNode ps = ps := by
  obtain ⟨hone, hany, hsettled⟩ := h
  have htype : normalizeType ps = ps := by
    unfold normalizeType
    split
    · next types hget => exact (hsettled types hget).elim
    · rfl
  unfold normalizeNode
  rw [htype]
  simp only [normalizeVariants, hone, hany]

section
variable {k : String} {x : Json}

/-- A keyword whose schemas keep their meaning keeps its own. -/
theorem keyword_normalize (htype : k = "type" → ∀ types, x ≠ .arr types)
    (hprops : k = "properties" → ∀ ps, x = .obj ps → PropertiesOk ps)
    (ih : ∀ y, Child k x y → ∀ v, accepts .v30 (normalizeNullableTypes y) v = accepts .v31 y v)
    (v : Json) : keyword .v30 k (normalizeNullableTypes x) v = keyword .v31 k x v := by
  cases x with
  | null | bool b | num q | str t => simp [keyword]
  | arr xs =>
    rw [normalize_arr]
    by_cases hone : k = "oneOf"
    · subst hone
      exact keyword_congr_count (.inl rfl) (count_congr fun y hy => ih y (.oneOf hy) v)
    · by_cases hany : k = "anyOf"
      · subst hany
        exact keyword_congr_count (.inr rfl) (count_congr fun y hy => ih y (.anyOf hy) v)
      · have hnot : k ≠ "type" := fun hk => htype hk xs rfl
        simp only [keyword, if_neg hone, if_neg hany, if_neg hnot]
  | obj ps =>
    by_cases hp : k = "properties"
    · subst hp
      rw [normalize_obj, normalizeNode_properties (hprops rfl ps rfl)]
      simp only [keyword, if_true]
      exact props_congr fun e he w => ih e.2 (.property he) w
    · by_cases hi : k = "items"
      · subst hi
        have hself := ih (.obj ps) (.items ps)
        rw [normalize_obj] at hself ⊢
        simp only [accepts_obj] at hself
        simp only [keyword, if_neg hp, if_true, hself]
      · rw [normalize_obj]
        simp only [keyword, if_neg hp, if_neg hi]

end

theorem nullable_normalize (fs : Fields) :
    nullable (fs.map fun e => (e.1, normalizeNullableTypes e.2)) = nullable fs := by
  unfold nullable
  rw [get?_map]
  cases get? "nullable" fs with
  | none => rfl
  | some x =>
    cases x with
    | null | bool b | num q | str t | arr xs | obj ps => simp

/-- After the steps: the values are rewritten one by one. -/
theorem accepts_normalize_values {fs : Fields} (htype : NoTypeList fs)
    (hprops : ∀ ps, ("properties", .obj ps) ∈ fs → PropertiesOk ps)
    (ih : ∀ e ∈ fs, ∀ x, Child e.1 e.2 x →
      ∀ v, accepts .v30 (normalizeNullableTypes x) v = accepts .v31 x v) (v : Json) :
    accepts .v30 (.obj (fs.map fun e => (e.1, normalizeNullableTypes e.2))) v =
      nodeAccepts fs v := by
  have hkeyword : ∀ e ∈ fs,
      keyword .v30 e.1 (normalizeNullableTypes e.2) v = keyword .v31 e.1 e.2 v := by
    rintro ⟨k, x⟩ he
    refine keyword_normalize ?_ ?_ (ih (k, x) he) v
    · rintro rfl types rfl
      exact htype types he
    · rintro rfl ps rfl
      exact hprops ps he
  have hkeywords : keywords .v30 (fs.map fun e => (e.1, normalizeNullableTypes e.2)) v =
      keywords .v31 fs v := by
    rw [Bool.eq_iff_iff, keywords_iff, keywords_iff, List.forall_mem_map]
    exact forall₂_congr fun e he => by rw [hkeyword e he]
  rw [accepts_obj, hkeywords, marked, nullable_normalize]
  simp [nodeAccepts]

/-- **The rewriting keeps the meaning of a clean schema.** It accepts under 3.1 exactly
what its rewriting accepts under 3.0. -/
theorem normalize_keeps_meaning {schema : Json} (h : Clean schema) (v : Json) :
    accepts .v30 (normalizeNullableTypes schema) v = accepts .v31 schema v := by
  induction h generalizing v with
  | @node fs distinct hnullable htype honeOf hanyOf hprops _ ih =>
    have hdistinct := distinct_normalizeType distinct
    have hdistinct' : Distinct (normalizeVariants "oneOf" (normalizeType fs)) :=
      distinct_normalizeVariants hdistinct
    have hlist : NoTypeList (normalizeNode fs) :=
      noTypeList_normalizeVariants (.inr rfl) hanyOf
        (noTypeList_normalizeVariants (.inl rfl) honeOf (noTypeList_normalizeType distinct))
    rw [normalize_obj, accepts_normalize_values hlist hprops ih, normalizeNode,
      nodeAccepts_normalizeVariants (.inr rfl) hdistinct' hanyOf,
      nodeAccepts_normalizeVariants (.inl rfl) hdistinct honeOf,
      nodeAccepts_normalizeType distinct hnullable htype, accepts_v31]
    -- `nullable` of the document adds no value
    rw [nodeAccepts, Bool.eq_iff_iff, Bool.or_eq_true, Bool.and_eq_true, isNull_iff]
    constructor
    · rintro (hall | ⟨rfl, hmark⟩)
      · exact hall
      · exact hnullable hmark
    · exact .inl

/-- `{"type": [t, "null"]}`, what the document says of an optional field. -/
def optionalType (t : String) : Fields := [("type", .arr [.str t, .str "null"])]

theorem normalizeType_optionalType {t : String} (h : t ≠ "null") :
    normalizeType (optionalType t) = [("type", .str t), ("nullable", .bool true)] := by
  simp [optionalType, normalizeType, get?, typeName, h, setTypes, IndexMap.insert, isNullName,
    orInsert]

theorem clean_optionalType {t : String} (h : t ≠ "null") : Clean (.obj (optionalType t)) := by
  have htype := normalizeType_optionalType h
  have hnode : normalizeNode (optionalType t) = [("type", .str t), ("nullable", .bool true)] := by
    rw [normalizeNode, htype]
    rfl
  refine .node (by simp [optionalType, Distinct]) (by intro hmark; cases hmark) ?_ ?_ ?_ ?_ ?_
  · intro types htypes
    obtain rfl : [Json.str t, .str "null"] = types := by simpa [optionalType, get?] using htypes
    simp [optionalType, typeName, h, orInsert, get?, IndexMap.insert, nullable, keywords, keyword,
      nameAccepts, typeAccepts]
  · rw [htype]
    intro variants hget
    cases hget
  · rw [htype]
    intro variants hget
    cases hget
  · rw [hnode]
    intro ps hps
    simp at hps
  · rw [hnode]
    intro e he x hx
    simp only [List.mem_cons, List.not_mem_nil, or_false] at he
    rcases he with rfl | rfl
    · exact absurd hx.key (by simp)
    · exact absurd hx.key (by simp)

theorem optional_string_keeps_meaning :
    accepts .v30 (normalizeNullableTypes (.obj (optionalType "string"))) .null =
      accepts .v31 (.obj (optionalType "string")) .null :=
  normalize_keeps_meaning (clean_optionalType (by decide)) .null

/-- What stands under `oneOf` or `anyOf` and is no list is gone: in a map of properties,
the property of that name. -/
theorem ne_of_mem_normalizeVariants {key : String} {fs : Fields} {x : Json} (h : Distinct fs)
    (hget : get? key fs = some x) (hx : ∀ xs, x ≠ .arr xs) {e : String × Json}
    (he : e ∈ normalizeVariants key fs) : e.1 ≠ key := by
  unfold normalizeVariants at he
  split at he
  · next hnone =>
    rw [hnone] at hget
    cases hget
  · next variants hlist =>
    rw [hlist] at hget
    exact (hx variants (Option.some.inj hget).symm).elim
  · exact ((mem_swapRemove h).mp he).2

/-- A property `oneOf`, of type `t`. -/
def oneOfProperty (t : String) : Json :=
  .obj [("type", .str "object"), ("properties", .obj [("oneOf", .obj [("type", .str t)])])]

theorem normalize_oneOfProperty (t : String) :
    normalizeNullableTypes (oneOfProperty t) =
      .obj [("type", .str "object"), ("properties", .obj [])] := by
  have hnode : normalizeNode [("type", .str "object"),
      ("properties", .obj [("oneOf", .obj [("type", .str t)])])] =
      [("type", .str "object"), ("properties", .obj [("oneOf", .obj [("type", .str t)])])] := by
    rfl
  have hprops : normalizeNode [("oneOf", .obj [("type", .str t)])] = [] := rfl
  rw [oneOfProperty, normalize_obj, hnode]
  simp only [List.map_cons, List.map_nil, normalize_str, normalize_obj, hprops]

/-- The map of properties loses the one named `oneOf`, and with it what it asks for. -/
theorem property_named_oneOf_is_dropped :
    accepts .v31 (oneOfProperty "string") (.obj [("oneOf", .num 5)]) = false ∧
      accepts .v30 (normalizeNullableTypes (oneOfProperty "string")) (.obj [("oneOf", .num 5)]) =
        true := by
  rw [normalize_oneOfProperty]
  decide

end Hoprd.RestApiClient
