import Hoprd.Core.JsonTree
import Hoprd.RestApiClient.NullableMeaning

/-!
# Where the nullable rewriting ends

One pass should leave no `type` list and no null variant anywhere, and nothing for a
second pass to do (`NormalForm`). A variant left alone is merged after the steps of
`type`, and for `anyOf` also of `oneOf`, have run: what it brings under these keys is
not looked at again. `MergesOk` says that it brings nothing of the kind, in terms of the
object the steps are given, and `Stable` asks for it wherever the rewriting goes.

* `normal_form_iff`: the pass ends in a normal form exactly for the `Stable` values.
* `merged_type_list_is_left`: a value that is not.
-/
namespace Hoprd.RestApiClient

open Core Core.Json Core.JsonSchema Core.IndexMap

/-! ## The normal form -/

/-- No null variant stands under the keyword. -/
def Keeps (key : String) (fs : Fields) : Prop :=
  ∀ xs, get? key fs = some (.arr xs) → xs.any isNullSchema = false

/-- No `type` list, no null schema among variants. -/
structure Normal (fs : Fields) : Prop where
  type : ∀ types, get? "type" fs ≠ some (.arr types)
  oneOf : Keeps "oneOf" fs
  anyOf : Keeps "anyOf" fs

structure NormalForm (x : Json) : Prop where
  everywhere : Everywhere Normal (normalizeNullableTypes x)
  again : Same (normalizeNullableTypes (normalizeNullableTypes x)) (normalizeNullableTypes x)

/-! ## The condition -/

/-- A variant left alone, which is merged. -/
def alone : List Json → Option Fields
  | [.obj inner] => some inner
  | _ => none

/-- Variants that are not left alone. -/
def several : List Json → Option Json
  | [] => none
  | [_] => none
  | nonNull => some (.arr nonNull)

/-- The variant merged, of what stands under `oneOf` or `anyOf`. -/
def leftAlone : Option Json → Option Fields
  | some (.arr variants) =>
    if variants.any isNullSchema then alone (variants.filter fun v => !isNullSchema v) else none
  | _ => none

/-- What stays under `oneOf` or `anyOf`. -/
def stays : Option Json → Option Json
  | some (.arr variants) =>
    if variants.any isNullSchema then several (variants.filter fun v => !isNullSchema v)
    else some (.arr variants)
  | _ => none

/-- `oneOf` when its step comes: several names of a `type` list have replaced it. -/
def oneOfValue (fs : Fields) : Option Json :=
  match get? "type" fs with
  | some (.arr types) =>
    let names := types.filterMap typeName
    if 2 ≤ names.length then some (.arr (names.map fun t => .obj [("type", .str t)]))
    else get? "oneOf" fs
  | _ => get? "oneOf" fs

/-- The variant merged first. -/
def first (fs : Fields) : Option Fields := leftAlone (oneOfValue fs)

/-- `anyOf` when its step comes: the variant merged first may have replaced it. -/
def anyOfValue (fs : Fields) : Option Json :=
  ((first fs).bind (get? "anyOf")).or (get? "anyOf" fs)

/-- The variant merged last. -/
def last (fs : Fields) : Option Fields := leftAlone (anyOfValue fs)

/-- What the merged variants bring under a key. -/
def merged (fs : Fields) (k : String) : Option Json :=
  ((last fs).bind (get? k)).or ((first fs).bind (get? k))

/-- Nothing but a null type is left of the object: its other keys are dropped, since
they are no lists of variants. -/
structure LooksNull (fs : Fields) : Prop where
  type : get? "type" fs = some (.str "null")
  others : ∀ k x, get? k fs = some x → k ≠ "type" →
    (k = "oneOf" ∨ k = "anyOf") ∧ ∀ xs, x ≠ .arr xs

/-- Absent, or a list without null schemas, also when these are rewritten. -/
def Fine : Option Json → Prop
  | none => True
  | some (.arr xs) => ∀ fs, .obj fs ∈ xs → ¬ LooksNull fs
  | some _ => False

/-- What the merged variants bring, and what stays of the object's own, needs no step
that has already run. -/
structure MergesOk (fs : Fields) : Prop where
  type : ∀ types, merged fs "type" ≠ some (.arr types)
  oneOf : Fine ((merged fs "oneOf").or (stays (oneOfValue fs)))
  anyOf : Fine (((last fs).bind (get? "anyOf")).or (stays (anyOfValue fs)))

/-- `MergesOk` at every object the rewriting reaches. -/
inductive Stable : Json → Prop
  | leaf {x : Json} (h : x.isLeaf = true) : Stable x
  | arr {items : List Json} (h : ∀ x ∈ items, Stable x) : Stable (.arr items)
  | obj {fs : Fields} (merges : MergesOk fs) (values : ∀ e ∈ normalizeNode fs, Stable e.2) :
      Stable (.obj fs)

/-! ## What the steps leave under a key -/

section
variable {fs : Fields} {key k : String}

theorem get?_setVariants {nonNull : List Json} (hfree : get? key fs = none)
    (hproper : ∀ inner, nonNull = [.obj inner] → Distinct inner) :
    get? k (setVariants key nonNull fs) =
      ((alone nonNull).bind (get? k)).or (if key = k then several nonNull else get? k fs) := by
  have hnone : (if key = k then none else get? k fs) = get? k fs := by
    split
    · next hkey => rw [← hkey, hfree]
    · rfl
  unfold setVariants
  split
  · simp [alone, several, hnone]
  · next inner =>
    rw [get?_insertAll_of_distinct (hproper inner rfl)]
    simp [alone, several, hnone]
  · next x hnot =>
    have halone : alone [x] = none := by
      unfold alone
      split
      · next inner heq => exact (hnot inner (List.cons.inj heq).1).elim
      · rfl
    simp [halone, several, hnone]
  · next hnil hobj hone =>
    have halone : alone nonNull = none := by
      unfold alone
      split
      · next inner => exact (hobj inner rfl).elim
      · rfl
    have hseveral : several nonNull = some (.arr nonNull) := by
      unfold several
      split
      · exact (hnil rfl).elim
      · next x => exact (hone x rfl).elim
      · rfl
    rw [halone, hseveral, get?_insert]
    rfl

/-- Then a list stays, and what is no list goes. -/
theorem get?_normalizeVariants_keep (h : Distinct fs) (hnull : Keeps key fs) :
    get? k (normalizeVariants key fs) =
      if key = k then stays (get? key fs) else get? k fs := by
  unfold normalizeVariants
  split
  · next hnone =>
    by_cases hk : key = k
    · rw [if_pos hk, ← hk, hnone]
      rfl
    · rw [if_neg hk]
  · next xs hlist =>
    have hany := hnull xs hlist
    simp only [hlist, hany, Bool.false_eq_true, if_false, stays, get?_insert, get?_swapRemove h]
    by_cases hk : key = k
    · simp [hk]
    · simp [hk]
  · next x hother hlist =>
    rw [get?_swapRemove h]
    by_cases hk : key = k
    · rw [if_pos hk, if_pos hk, hlist]
      cases x with
      | arr xs => exact (hother xs rfl).elim
      | null | bool | num | str | obj => rfl
    · rw [if_neg hk, if_neg hk]

theorem mem_of_left_alone {variants : List Json} {x : Json}
    (h : variants.filter (fun v => !isNullSchema v) = [x]) : x ∈ variants := by
  have hx : x ∈ variants.filter fun v => !isNullSchema v := by
    rw [h]
    exact List.mem_singleton.mpr rfl
  exact List.mem_of_mem_filter hx

theorem get?_normalizeVariants (h : Proper (.obj fs)) (hk : k ≠ "nullable") :
    get? k (normalizeVariants key fs) =
      ((leftAlone (get? key fs)).bind (get? k)).or
        (if key = k then stays (get? key fs) else get? k fs) := by
  have hdistinct := (everywhere_obj.mp h).1
  by_cases hnull : ∃ xs, get? key fs = some (.arr xs) ∧ xs.any isNullSchema = true
  · obtain ⟨xs, hlist, hany⟩ := hnull
    have hleft : get? key (swapRemove key fs) = none := by
      rw [get?_swapRemove hdistinct, if_pos rfl]
    have hproper : ∀ inner, xs.filter (fun v => !isNullSchema v) = [.obj inner] →
        Distinct inner := by
      intro inner hinner
      have hmem := mem_of_left_alone hinner
      have hxs := everywhere_arr.mp ((everywhere_obj.mp h).2 key _ hlist)
      exact (everywhere_obj.mp (hxs _ hmem)).1
    have hnull : "nullable" ≠ k := hk.symm
    simp only [normalizeVariants, hlist, hany, if_true, leftAlone, stays]
    rw [get?_insert, if_neg hnull, get?_setVariants hleft hproper, get?_swapRemove hdistinct]
    by_cases hkey : key = k
    · simp [hkey]
    · simp [hkey]
  · have hkeep : Keeps key fs := by
      intro xs hlist
      cases hany : xs.any isNullSchema with
      | false => rfl
      | true => exact (hnull ⟨xs, hlist, hany⟩).elim
    have hnone : leftAlone (get? key fs) = none := by
      unfold leftAlone
      split
      · next xs hlist => simp [hkeep xs hlist]
      · rfl
    rw [get?_normalizeVariants_keep hdistinct hkeep, hnone]
    rfl

theorem get?_normalizeType (h : Distinct fs) (htype : k ≠ "type") (honeOf : k ≠ "oneOf")
    (hnullable : k ≠ "nullable") : get? k (normalizeType fs) = get? k fs := by
  unfold normalizeType
  split
  · have hset : ∀ names, get? k (setTypes names fs) = get? k fs :=
      fun names => get?_setTypes h htype.symm honeOf.symm
    dsimp only
    split
    · rw [get?_orInsert, if_neg hnullable.symm, hset]
    · exact hset _
  · rfl

theorem get?_oneOf_setTypes (h : Distinct fs) (names : List String) :
    get? "oneOf" (setTypes names fs) =
      if 2 ≤ names.length then some (.arr (names.map fun t => .obj [("type", .str t)]))
      else get? "oneOf" fs := by
  match names with
  | [] => simp [setTypes, get?_swapRemove h]
  | [t] => simp [setTypes, get?_insert]
  | t :: t' :: names => simp [setTypes, get?_insert]

theorem normalizeType_of_no_list (htype : ∀ types, get? "type" fs ≠ some (.arr types)) :
    normalizeType fs = fs := by
  unfold normalizeType
  split
  · next types hlist => exact (htype types hlist).elim
  · rfl

theorem get?_oneOf_normalizeType (h : Distinct fs) :
    get? "oneOf" (normalizeType fs) = oneOfValue fs := by
  by_cases hlist : ∃ types, get? "type" fs = some (.arr types)
  · obtain ⟨types, htype⟩ := hlist
    have hset := get?_oneOf_setTypes h (types.filterMap typeName)
    simp only [normalizeType, oneOfValue, htype]
    by_cases hnull : types.any isNullName = true
    · rw [if_pos hnull, get?_orInsert, if_neg (by decide), hset]
    · rw [if_neg hnull, hset]
  · rw [normalizeType_of_no_list fun types htype => hlist ⟨types, htype⟩]
    unfold oneOfValue
    split
    · next types htype => exact (hlist ⟨types, htype⟩).elim
    · rfl

theorem get?_type_normalizeType (h : Distinct fs) (types : List Json) :
    get? "type" (normalizeType fs) ≠ some (.arr types) :=
  fun htype => noTypeList_normalizeType h types (mem_of_get? htype)

/-! ## The intermediate objects -/

theorem proper_types (names : List String) :
    Proper (.arr (names.map fun t => .obj [("type", .str t)])) := by
  refine everywhere_arr.mpr fun x hx => ?_
  obtain ⟨t, -, rfl⟩ := List.mem_map.mp hx
  apply proper_obj (by simp [Distinct])
  intro e he
  rw [List.mem_singleton.mp he]
  exact everywhere_leaf rfl

theorem proper_normalizeType (h : Proper (.obj fs)) : Proper (.obj (normalizeType fs)) := by
  apply proper_obj (distinct_normalizeType (everywhere_obj.mp h).1)
  intro e he
  rcases of_mem_normalizeType he with ⟨hmem, -⟩ | ⟨types, -, ⟨t, rfl⟩ | rfl | rfl⟩
  · exact h.of_mem hmem
  · exact everywhere_leaf rfl
  · exact everywhere_leaf rfl
  · exact proper_types _

theorem proper_normalizeVariants (h : Proper (.obj fs)) :
    Proper (.obj (normalizeVariants key fs)) := by
  apply proper_obj (distinct_normalizeVariants (everywhere_obj.mp h).1)
  intro e he
  rcases of_mem_normalizeVariants he with hmem | ⟨variants, hget, hnew⟩
  · exact h.of_mem hmem
  · have hvariants := everywhere_arr.mp ((everywhere_obj.mp h).2 key _ hget)
    rcases hnew with ⟨-, inner, hinner, he⟩ | rfl | rfl | rfl
    · exact Proper.of_mem (hvariants _ (mem_of_left_alone hinner)) he
    · exact everywhere_leaf rfl
    · exact everywhere_arr.mpr fun x hx => hvariants x (List.mem_of_mem_filter hx)
    · exact everywhere_arr.mpr hvariants

theorem proper_normalizeNode (h : Proper (.obj fs)) : Proper (.obj (normalizeNode fs)) :=
  proper_normalizeVariants (proper_normalizeVariants (proper_normalizeType h))

/-! ## What the object has in the end -/

/-- Before the step of `anyOf`. -/
theorem get?_normalizeVariants_oneOf (h : Proper (.obj fs)) (hk : k ≠ "nullable") :
    get? k (normalizeVariants "oneOf" (normalizeType fs)) =
      ((first fs).bind (get? k)).or
        (if "oneOf" = k then stays (oneOfValue fs) else get? k (normalizeType fs)) := by
  rw [get?_normalizeVariants (proper_normalizeType h) hk,
    get?_oneOf_normalizeType (everywhere_obj.mp h).1]
  rfl

theorem get?_anyOf_normalizeVariants_oneOf (h : Proper (.obj fs)) :
    get? "anyOf" (normalizeVariants "oneOf" (normalizeType fs)) = anyOfValue fs := by
  rw [get?_normalizeVariants_oneOf h (by decide), if_neg (by decide),
    get?_normalizeType (everywhere_obj.mp h).1 (by decide) (by decide) (by decide)]
  rfl

theorem get?_normalizeNode (h : Proper (.obj fs)) (hk : k ≠ "nullable") :
    get? k (normalizeNode fs) =
      ((last fs).bind (get? k)).or
        (if "anyOf" = k then stays (anyOfValue fs)
        else ((first fs).bind (get? k)).or
          (if "oneOf" = k then stays (oneOfValue fs) else get? k (normalizeType fs))) := by
  rw [normalizeNode, get?_normalizeVariants (proper_normalizeVariants (proper_normalizeType h)) hk,
    get?_anyOf_normalizeVariants_oneOf h, get?_normalizeVariants_oneOf h hk]
  rfl

theorem get?_type_normalizeNode (h : Proper (.obj fs)) (types : List Json) :
    get? "type" (normalizeNode fs) = some (.arr types) ↔
      merged fs "type" = some (.arr types) := by
  have hown := get?_type_normalizeType (everywhere_obj.mp h).1 types
  rw [get?_normalizeNode h (by decide), if_neg (by decide), if_neg (by decide), ← Option.or_assoc]
  cases hmerged : merged fs "type" with
  | none =>
    unfold merged at hmerged
    rw [hmerged]
    simpa using hown
  | some x =>
    unfold merged at hmerged
    rw [hmerged]
    simp

theorem get?_oneOf_normalizeNode (h : Proper (.obj fs)) :
    get? "oneOf" (normalizeNode fs) = (merged fs "oneOf").or (stays (oneOfValue fs)) := by
  rw [get?_normalizeNode h (by decide), if_neg (by decide), if_pos rfl, ← Option.or_assoc]
  rfl

theorem get?_anyOf_normalizeNode (h : Proper (.obj fs)) :
    get? "anyOf" (normalizeNode fs) =
      ((last fs).bind (get? "anyOf")).or (stays (anyOfValue fs)) := by
  rw [get?_normalizeNode h (by decide), if_pos rfl]

end

/-! ## What becomes a null schema -/

theorem isNullSchema_iff {x : Json} :
    isNullSchema x = true ↔ x = .obj [("type", .str "null")] := by
  constructor
  · intro h
    unfold isNullSchema at h
    split at h
    · next k s =>
      obtain ⟨hk, hs⟩ : k = "type" ∧ s = "null" := by simpa using h
      rw [hk, hs]
    · cases h
  · rintro rfl
    rfl

theorem get?_type_setTypes {names : List String} {fs : Fields} (h : Distinct fs) {s : String}
    (hs : get? "type" (setTypes names fs) = some (.str s)) : s ∈ names := by
  match names with
  | [] => simp [setTypes, get?_swapRemove h] at hs
  | [t] =>
    have hts : t = s := by simpa [setTypes, get?_insert] using hs
    simp [hts]
  | t :: t' :: names => simp [setTypes, get?_insert, get?_swapRemove h] at hs

theorem null_notMem_typeNames (types : List Json) : "null" ∉ types.filterMap typeName := by
  intro h
  obtain ⟨x, -, hx⟩ := List.mem_filterMap.mp h
  unfold typeName at hx
  split at hx
  · next s =>
    by_cases hs : s = "null"
    · simp [hs] at hx
    · simp [hs] at hx
  · cases hx

/-- A `type` list never becomes the null type. -/
theorem normalizeType_of_null {fs : Fields} (h : Distinct fs)
    (hnull : get? "type" (normalizeType fs) = some (.str "null")) : normalizeType fs = fs := by
  unfold normalizeType at hnull ⊢
  split
  · next types htype =>
    have hset : get? "type" (setTypes (types.filterMap typeName) fs) = some (.str "null") := by
      simp only [htype] at hnull
      split at hnull
      · rwa [get?_orInsert, if_neg (by decide)] at hnull
      · exact hnull
    exact (null_notMem_typeNames types (get?_type_setTypes h hset)).elim
  · rfl

section
variable {fs : Fields} {key : String}

/-- Dropped null variants leave a mark. -/
theorem keeps_of_nullable (h : get? "nullable" (normalizeVariants key fs) = none) :
    Keeps key fs := by
  intro xs hlist
  cases hany : xs.any isNullSchema with
  | false => rfl
  | true =>
    simp only [normalizeVariants, hlist, hany, if_true, get?_insert] at h
    cases h

theorem stays_of_not_list {x : Option Json} (h : ∀ xs, x ≠ some (.arr xs)) : stays x = none := by
  unfold stays
  split
  · next xs => exact (h xs rfl).elim
  · rfl

theorem not_list_of_stays {x : Option Json}
    (hnull : ∀ xs, x = some (.arr xs) → xs.any isNullSchema = false) (h : stays x = none)
    (xs : List Json) : x ≠ some (.arr xs) := by
  rintro rfl
  simp [stays, hnull xs rfl] at h

/-- Without null variants, the steps take out what is no list, and nothing else. -/
theorem get?_normalizeNode_keep (h : Distinct fs) (hone : Keeps "oneOf" (normalizeType fs))
    (hany : Keeps "anyOf" (normalizeType fs)) (k : String) :
    get? k (normalizeNode fs) =
      if "anyOf" = k then stays (get? "anyOf" (normalizeType fs))
      else if "oneOf" = k then stays (get? "oneOf" (normalizeType fs))
      else get? k (normalizeType fs) := by
  have htype := distinct_normalizeType h
  have hfrom : get? "anyOf" (normalizeVariants "oneOf" (normalizeType fs)) =
      get? "anyOf" (normalizeType fs) := by
    rw [get?_normalizeVariants_keep htype hone, if_neg (by decide)]
  unfold normalizeNode
  rw [get?_normalizeVariants_keep (distinct_normalizeVariants htype)
    fun xs hxs => hany xs (hfrom ▸ hxs), hfrom, get?_normalizeVariants_keep htype hone]

theorem keeps_of_normalizeNode (h : Distinct fs)
    (hmark : get? "nullable" (normalizeNode fs) = none) :
    Keeps "oneOf" (normalizeType fs) ∧ Keeps "anyOf" (normalizeType fs) := by
  have htype := distinct_normalizeType h
  have hany := keeps_of_nullable hmark
  have hmark' : get? "nullable" (normalizeVariants "oneOf" (normalizeType fs)) = none := by
    unfold normalizeNode at hmark
    rwa [get?_normalizeVariants_keep (distinct_normalizeVariants htype) hany,
      if_neg (by decide)] at hmark
  have hone : Keeps "oneOf" (normalizeType fs) := keeps_of_nullable hmark'
  refine ⟨hone, fun xs hxs => hany xs ?_⟩
  rw [get?_normalizeVariants_keep htype hone, if_neg (by decide), hxs]

theorem looksNull_of_normalizeNode (h : Distinct fs)
    (hget : ∀ k, get? k (normalizeNode fs) = if "type" = k then some (.str "null") else none) :
    LooksNull fs := by
  obtain ⟨hone, hany⟩ := keeps_of_normalizeNode h (hget "nullable")
  have hlook := fun k => (get?_normalizeNode_keep h hone hany k).symm.trans (hget k)
  have hfs : normalizeType fs = fs := normalizeType_of_null h (hlook "type")
  rw [hfs] at hone hany hlook
  refine ⟨hlook "type", fun k x hx hk => ?_⟩
  by_cases hanyOf : k = "anyOf"
  · refine ⟨.inr hanyOf, fun xs hxs => not_list_of_stays hany (hlook "anyOf") xs ?_⟩
    rw [← hanyOf, hx, hxs]
  · by_cases honeOf : k = "oneOf"
    · refine ⟨.inl honeOf, fun xs hxs => not_list_of_stays hone (hlook "oneOf") xs ?_⟩
      rw [← honeOf, hx, hxs]
    · -- any other key would still be there
      have hgone := hlook k
      rw [if_neg (Ne.symm hanyOf), if_neg (Ne.symm honeOf), if_neg hk.symm, hx] at hgone
      cases hgone

theorem get?_normalizeNode_of_looksNull (h : Distinct fs) (hnull : LooksNull fs) (k : String) :
    get? k (normalizeNode fs) = if "type" = k then some (.str "null") else none := by
  have hlist : ∀ key, key ≠ "type" → ∀ xs, get? key fs ≠ some (.arr xs) :=
    fun key hkey xs hxs => (hnull.others key _ hxs hkey).2 xs rfl
  have hfs : normalizeType fs = fs := by
    unfold normalizeType
    rw [hnull.type]
  have hkeeps : ∀ key, key ≠ "type" → Keeps key (normalizeType fs) := by
    intro key hkey xs hxs
    exact (hlist key hkey xs (hfs ▸ hxs)).elim
  rw [get?_normalizeNode_keep h (hkeeps "oneOf" (by decide)) (hkeeps "anyOf" (by decide)), hfs,
    stays_of_not_list (hlist "anyOf" (by decide)), stays_of_not_list (hlist "oneOf" (by decide))]
  by_cases htype : "type" = k
  · subst htype
    exact hnull.type
  · rw [if_neg htype]
    cases hx : get? k fs with
    | none => simp
    | some x =>
      rcases (hnull.others k x hx (Ne.symm htype)).1 with rfl | rfl
      · rfl
      · rfl

theorem normalizeNode_null_iff (h : Proper (.obj fs)) :
    normalizeNode fs = [("type", .str "null")] ↔ LooksNull fs := by
  have hdistinct := (everywhere_obj.mp h).1
  rw [eq_singleton_iff (everywhere_obj.mp (proper_normalizeNode h)).1]
  constructor
  · exact looksNull_of_normalizeNode hdistinct
  · exact get?_normalizeNode_of_looksNull hdistinct

end

/-! ## Values rewritten -/

theorem normalize_leaf {x : Json} (h : x.isLeaf = true) : normalizeNullableTypes x = x := by
  cases x with
  | null | bool b | num q | str t => simp
  | arr | obj => cases h

theorem normalize_eq_arr {x : Json} {ys : List Json} :
    normalizeNullableTypes x = .arr ys ↔
      ∃ xs, x = .arr xs ∧ xs.map normalizeNullableTypes = ys := by
  cases x with
  | null | bool b | num q | str t | arr xs | obj fs => simp

theorem normalize_eq_str {x : Json} {t : String} :
    normalizeNullableTypes x = .str t ↔ x = .str t := by
  cases x with
  | null | bool b | num q | str t | arr xs | obj fs => simp

theorem isNullSchema_normalize {x : Json} (h : Proper x) :
    isNullSchema (normalizeNullableTypes x) = true ↔ ∃ fs, x = .obj fs ∧ LooksNull fs := by
  by_cases hobj : ∃ fs, x = .obj fs
  · obtain ⟨fs, rfl⟩ := hobj
    rw [isNullSchema_iff, normalize_obj]
    have hmap : ∀ gs : Fields,
        gs.map (fun e => (e.1, normalizeNullableTypes e.2)) = [("type", .str "null")] ↔
          gs = [("type", .str "null")] := by
      intro gs
      match gs with
      | [] => simp
      | [e] => simp [Prod.ext_iff, normalize_eq_str]
      | e :: e' :: gs => simp
    simp only [Json.obj.injEq, hmap, exists_eq_left', normalizeNode_null_iff h]
  · have hnot : isNullSchema (normalizeNullableTypes x) ≠ true := by
      rw [Ne, isNullSchema_iff]
      cases x with
      | null | bool b | num q | str t | arr xs => simp
      | obj fs => exact (hobj ⟨fs, rfl⟩).elim
    constructor
    · exact fun hnull => (hnot hnull).elim
    · rintro ⟨fs, rfl, -⟩
      exact (hobj ⟨fs, rfl⟩).elim

/-! ## The second pass at one object -/

/-- Absent, or a list without null schemas. -/
def NoNull : Option Json → Prop
  | none => True
  | some (.arr xs) => xs.any isNullSchema = false
  | some _ => False

/-- The steps do nothing to the object. -/
structure Final (gs : Fields) : Prop where
  type : ∀ types, get? "type" gs ≠ some (.arr types)
  oneOf : NoNull (get? "oneOf" gs)
  anyOf : NoNull (get? "anyOf" gs)

theorem noNull_iff {x : Option Json} :
    NoNull x ↔ (∀ xs, x = some (.arr xs) → xs.any isNullSchema = false) ∧ stays x = x := by
  constructor
  · intro h
    match x with
    | none => exact ⟨nofun, rfl⟩
    | some (.arr xs) =>
      have hany : xs.any isNullSchema = false := h
      refine ⟨fun ys hys => ?_, by simp [stays, hany]⟩
      cases hys
      exact hany
    | some .null | some (.bool b) | some (.num q) | some (.str t) | some (.obj fs) => exact h.elim
  · rintro ⟨hany, hstays⟩
    match x with
    | none => trivial
    | some (.arr xs) => exact hany xs rfl
    | some .null | some (.bool b) | some (.num q) | some (.str t) | some (.obj fs) => cases hstays

section
variable {fs gs : Fields}

theorem Normal.get?_normalizeNode (hnormal : Normal gs) (h : Distinct gs) (k : String) :
    get? k (normalizeNode gs) =
      if "anyOf" = k then stays (get? "anyOf" gs)
      else if "oneOf" = k then stays (get? "oneOf" gs)
      else get? k gs := by
  have hsame := normalizeType_of_no_list hnormal.type
  have hget := get?_normalizeNode_keep h (hsame.symm ▸ hnormal.oneOf) (hsame.symm ▸ hnormal.anyOf) k
  rwa [hsame] at hget

theorem Final.normal (h : Final gs) : Normal gs :=
  ⟨h.type, (noNull_iff.mp h.oneOf).1, (noNull_iff.mp h.anyOf).1⟩

theorem Final.get?_normalizeNode (hfinal : Final gs) (h : Distinct gs) (k : String) :
    get? k (normalizeNode gs) = get? k gs := by
  rw [hfinal.normal.get?_normalizeNode h, (noNull_iff.mp hfinal.oneOf).2,
    (noNull_iff.mp hfinal.anyOf).2]
  split
  · next hk => rw [hk]
  · split
    · next hk => rw [hk]
    · rfl

/-- If no key goes, none had anything but a list to lose. -/
theorem final_of_keys (hnormal : Normal gs) (h : Distinct gs)
    (hkeys : ∀ k, (get? k (normalizeNode gs)).isSome = (get? k gs).isSome) : Final gs := by
  have hlist : ∀ x : Option Json, (∀ xs, x = some (.arr xs) → xs.any isNullSchema = false) →
      (stays x).isSome = x.isSome → NoNull x := by
    intro x hany hsome
    refine noNull_iff.mpr ⟨hany, ?_⟩
    match x with
    | none => rfl
    | some (.arr xs) => simp [stays, hany xs rfl]
    | some .null | some (.bool b) | some (.num q) | some (.str t) | some (.obj fs) => cases hsome
  have hget := hnormal.get?_normalizeNode h
  refine ⟨hnormal.type, hlist _ hnormal.oneOf ?_, hlist _ hnormal.anyOf ?_⟩
  · have := hkeys "oneOf"
    rwa [hget, if_neg (by decide), if_pos rfl] at this
  · have := hkeys "anyOf"
    rwa [hget, if_pos rfl] at this

theorem noNull_map {x : Option Json} (h : ∀ y, x = some y → Proper y) :
    NoNull (x.map normalizeNullableTypes) ↔ Fine x := by
  match x with
  | none => exact Iff.rfl
  | some (.arr xs) =>
    have hxs := everywhere_arr.mp (h _ rfl)
    simp only [Option.map_some, normalize_arr, NoNull, Fine, List.any_map, List.any_eq_false,
      Function.comp_apply]
    constructor
    · intro hnone fs hfs hnull
      exact hnone _ hfs ((isNullSchema_normalize (hxs _ hfs)).mpr ⟨fs, rfl, hnull⟩)
    · intro hfine y hy hnull
      obtain ⟨fs, rfl, hlooks⟩ := (isNullSchema_normalize (hxs _ hy)).mp hnull
      exact hfine fs hy hlooks
  | some .null | some (.bool b) | some (.num q) | some (.str t) | some (.obj fs) =>
    simp [NoNull, Fine]

/-- The second pass finds nothing to do at an object exactly if the merges brought
nothing under the keys of the steps. -/
theorem final_iff (h : Proper (.obj fs)) :
    Final ((normalizeNode fs).map fun e => (e.1, normalizeNullableTypes e.2)) ↔ MergesOk fs := by
  have hvalues := (everywhere_obj.mp (proper_normalizeNode h)).2
  have hfine := fun k => noNull_map (hvalues k)
  have htype : (∀ types, (get? "type" (normalizeNode fs)).map normalizeNullableTypes ≠
      some (.arr types)) ↔ ∀ types, merged fs "type" ≠ some (.arr types) := by
    simp only [ne_eq, ← get?_type_normalizeNode h, Option.map_eq_some_iff, normalize_eq_arr]
    constructor
    · intro hno types hlist
      exact hno _ ⟨_, hlist, types, rfl, rfl⟩
    · rintro hno types ⟨x, hget, xs, rfl, -⟩
      exact hno xs hget
  constructor
  · rintro ⟨hlist, hone, hany⟩
    simp only [get?_map, hfine] at hlist hone hany
    rw [get?_oneOf_normalizeNode h] at hone
    rw [get?_anyOf_normalizeNode h] at hany
    exact ⟨htype.mp hlist, hone, hany⟩
  · rintro ⟨hlist, hone, hany⟩
    rw [← get?_oneOf_normalizeNode h] at hone
    rw [← get?_anyOf_normalizeNode h] at hany
    refine ⟨?_, ?_, ?_⟩
    · simp only [get?_map]
      exact htype.mpr hlist
    · rw [get?_map]
      exact (hfine "oneOf").mpr hone
    · rw [get?_map]
      exact (hfine "anyOf").mpr hany

end

/-! ## The normal form, by the structure of the value -/

theorem normalForm_leaf {x : Json} (h : x.isLeaf = true) : NormalForm x := by
  have hsame := normalize_leaf h
  refine ⟨?_, ?_⟩
  · rw [hsame]
    exact everywhere_leaf h
  · rw [hsame, hsame]
    cases x with
    | null => exact .null
    | bool b => exact .bool b
    | num q => exact .num q
    | str t => exact .str t
    | arr | obj => cases h

theorem normalForm_arr {items : List Json} :
    NormalForm (.arr items) ↔ ∀ x ∈ items, NormalForm x := by
  constructor
  · rintro ⟨heverywhere, hagain⟩ x hx
    rw [normalize_arr] at heverywhere hagain
    rw [normalize_arr] at hagain
    refine ⟨everywhere_arr.mp heverywhere _ (List.mem_map_of_mem hx), ?_⟩
    obtain ⟨i, hi⟩ := List.mem_iff_getElem?.mp hx
    cases hagain with
    | arr _ hitems => exact hitems i _ _ (by simp [hi]) (by simp [hi])
  · intro h
    refine ⟨?_, ?_⟩
    · rw [normalize_arr]
      refine everywhere_arr.mpr fun y hy => ?_
      obtain ⟨x, hx, rfl⟩ := List.mem_map.mp hy
      exact (h x hx).everywhere
    · rw [normalize_arr, normalize_arr]
      refine .arr (by simp) fun i y z hy hz => ?_
      rw [List.getElem?_map, hz] at hy
      rw [List.getElem?_map] at hz
      obtain ⟨x, hx, rfl⟩ := Option.map_eq_some_iff.mp hz
      cases hy
      exact (h x (List.mem_of_getElem? hx)).again

theorem normalForm_obj {fs : Fields} (h : Proper (.obj fs)) :
    NormalForm (.obj fs) ↔ MergesOk fs ∧ ∀ e ∈ normalizeNode fs, NormalForm e.2 := by
  have hdistinct := (everywhere_obj.mp (proper_normalizeNode h)).1
  have hmapped := hdistinct.map_values normalizeNullableTypes
  rw [← final_iff h]
  constructor
  · rintro ⟨heverywhere, hagain⟩
    rw [normalize_obj] at heverywhere hagain
    rw [normalize_obj] at hagain
    obtain ⟨hnormal, hchildren⟩ := everywhere_obj.mp heverywhere
    cases hagain with
    | obj hkeys hsame =>
      have hfinal := final_of_keys hnormal hmapped fun k => by
        simpa only [get?_map, Option.isSome_map] using hkeys k
      refine ⟨hfinal, fun e he => ?_⟩
      have hvalue := (get?_eq_some hdistinct).mpr he
      refine ⟨hchildren e.1 _ (by rw [get?_map, hvalue]; rfl), ?_⟩
      apply hsame e.1
      · rw [get?_map, hfinal.get?_normalizeNode hmapped, get?_map, hvalue]
        rfl
      · rw [get?_map, hvalue]
        rfl
  · rintro ⟨hfinal, hvalues⟩
    have hvalue : ∀ k x, get? k (normalizeNode fs) = some x → NormalForm x :=
      fun k x hx => hvalues _ (mem_of_get? hx)
    refine ⟨?_, ?_⟩
    · rw [normalize_obj]
      refine everywhere_obj.mpr ⟨hfinal.normal, fun k y hy => ?_⟩
      rw [get?_map] at hy
      obtain ⟨x, hx, rfl⟩ := Option.map_eq_some_iff.mp hy
      exact (hvalue k x hx).everywhere
    · rw [normalize_obj, normalize_obj]
      refine .obj (fun k => ?_) fun k y z hy hz => ?_
      · rw [get?_map, hfinal.get?_normalizeNode hmapped, Option.isSome_map]
      · rw [get?_map, hfinal.get?_normalizeNode hmapped, hz] at hy
        rw [get?_map] at hz
        obtain ⟨x, hx, rfl⟩ := Option.map_eq_some_iff.mp hz
        cases hy
        exact (hvalue k x hx).again

/-- Induction along the rewriting. -/
theorem rewrite_induction {motive : Json → Prop}
    (leaf : ∀ x : Json, x.isLeaf = true → motive x)
    (arr : ∀ items, (∀ x ∈ items, motive x) → motive (.arr items))
    (obj : ∀ fs, (∀ e ∈ normalizeNode fs, motive e.2) → motive (.obj fs)) (x : Json) :
    motive x := by
  induction hrank : rank x using Nat.strong_induction_on generalizing x with
  | _ n ih =>
    subst hrank
    cases x with
    | null | bool | num | str => exact leaf _ rfl
    | arr items =>
      refine arr items fun x hx => ih _ ?_ x rfl
      have := rank_mem_elems hx
      simp only [rank]
      omega
    | obj fs => exact obj fs fun e he => ih _ (rank_normalizeNode he) e.2 rfl

/-- **Exactly the stable values have a normal form.** -/
theorem normal_form_iff (v : Value) : NormalForm v.json ↔ Stable v.json := by
  obtain ⟨x, hproper⟩ := v
  show NormalForm x ↔ Stable x
  induction x using rewrite_induction with
  | leaf x hleaf => exact ⟨fun _ => .leaf hleaf, fun _ => normalForm_leaf hleaf⟩
  | arr items ih =>
    have hitems := everywhere_arr.mp hproper
    rw [normalForm_arr]
    constructor
    · exact fun h => .arr fun x hx => (ih x hx (hitems x hx)).mp (h x hx)
    · rintro (hleaf | hstable)
      · cases hleaf
      · exact fun x hx => (ih x hx (hitems x hx)).mpr (hstable x hx)
  | obj fs ih =>
    have hvalues : ∀ e ∈ normalizeNode fs, Proper e.2 :=
      fun e he => (proper_normalizeNode hproper).of_mem he
    rw [normalForm_obj hproper]
    constructor
    · rintro ⟨hmerges, h⟩
      exact .obj hmerges fun e he => (ih e he (hvalues e he)).mp (h e he)
    · rintro (hleaf | - | ⟨hmerges, hstable⟩)
      · cases hleaf
      · exact ⟨hmerges, fun e he => (ih e he (hvalues e he)).mpr (hstable e he)⟩

/-- A null variant beside one with a `type` list, which is merged after the step of
`type`. -/
def mergedTypeList : Json :=
  .obj [("oneOf", .arr [.obj [("type", .str "null")],
    .obj [("type", .arr [.str "string", .str "integer"])]])]

theorem normalize_mergedTypeList :
    normalizeNullableTypes mergedTypeList =
      .obj [("type", .arr [.str "string", .str "integer"]), ("nullable", .bool true)] := by
  have hnode : normalizeNode [("oneOf", .arr [.obj [("type", .str "null")],
      .obj [("type", .arr [.str "string", .str "integer"])]])] =
      [("type", .arr [.str "string", .str "integer"]), ("nullable", .bool true)] := by
    rfl
  rw [mergedTypeList, normalize_obj, hnode]
  simp

/-- Its `type` list is in the result. -/
theorem merged_type_list_is_left : ¬ ∀ v : Value, NormalForm v.json := by
  intro h
  have hform : NormalForm mergedTypeList := h ⟨mergedTypeList, proper_of_isProper (by decide)⟩
  have hnormal := hform.everywhere [] _ (congrArg some normalize_mergedTypeList)
  exact hnormal.type _ rfl

end Hoprd.RestApiClient
