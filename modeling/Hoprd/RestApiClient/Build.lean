import Hoprd.RestApiClient.NullableNormalForm
import Hoprd.RestApiClient.ResponsesForm

/-!
# What the generator is given (`rest-api-client/build.rs`)

The build names the document version 3.0.3, rewrites what is nullable, reduces the
responses and hands the result to the client generator. The third step goes through
what the second left: it drops responses and media types and keeps the rest, so it brings
back nothing that the second has rewritten.

* `done_normalizeResponseContent`: where the steps of the nullable rewriting find nothing
  to do, they find nothing after the reduction either.
* `generated_is_final`: so what the generator is given has no `type` list and no null
  variant, one response where one was to be left, and neither pass would change it, if
  the nullable rewriting is stable for the document.
-/
namespace Hoprd.RestApiClient.Build

open Core Core.Json Core.JsonSchema Core.IndexMap
open Hoprd.RestApiClient.Responses

/-! ## The steps of the build -/

/-- mirrors rest-api-client/build.rs:42-47 -/
def normalizeOpenapiVersion : Json → Json
  | .obj map => .obj (swapRemove "jsonSchemaDialect" (insert "openapi" (.str "3.0.3") map))
  | value => value

/-- The document with what is nullable rewritten. -/
def rewritten (document : Json) : Json :=
  normalizeNullableTypes (normalizeOpenapiVersion document)

/-- mirrors rest-api-client/build.rs:12-22 -/
def generatorInput (document : Json) : Json := normalizeResponseContent (rewritten document)

theorem proper_normalizeOpenapiVersion {x : Json} (h : Proper x) :
    Proper (normalizeOpenapiVersion x) := by
  cases x with
  | obj map =>
    obtain ⟨hdistinct, hvalues⟩ := everywhere_obj.mp h
    have hinsert := distinct_insert (k := "openapi") (v := Json.str "3.0.3") hdistinct
    refine everywhere_obj.mpr ⟨distinct_swapRemove hinsert, fun k y hy => ?_⟩
    rw [get?_swapRemove hinsert] at hy
    split at hy
    · cases hy
    · rw [get?_insert] at hy
      split at hy
      · cases hy
        exact everywhere_leaf rfl
      · exact hvalues k y hy
  | null | bool | num | str | arr => exact h

/-! ## Objects that the nullable rewriting leaves alone -/

/-- What the steps look at in a value under `type`, `oneOf` or `anyOf`: whether it is a
list, and of null schemas. -/
def nulls : Json → Option Bool
  | .arr xs => some (xs.any isNullSchema)
  | _ => none

/-- The steps find nothing to do at the object. -/
structure Done (fs : Fields) : Prop where
  distinct : Distinct fs
  final : Final fs

theorem nulls_eq_none {x : Json} : nulls x = none ↔ ∀ xs, x ≠ .arr xs := by
  cases x with
  | arr xs => simp [nulls]
  | null | bool | num | str | obj => simp [nulls]

theorem noNull_iff_nulls {o : Option Json} :
    NoNull o ↔ ∀ x, o = some x → nulls x = some false := by
  match o with
  | none => simp [NoNull]
  | some (.arr xs) => simp [NoNull, nulls]
  | some .null | some (.bool b) | some (.num q) | some (.str t) | some (.obj fs) =>
    simp [NoNull, nulls]

section
variable {fs gs : Fields}

/-- An object that keeps some of the entries of another, with values that look alike. -/
theorem Done.of_alike (h : Done fs) (hdistinct : Distinct gs)
    (halike : ∀ k y, get? k gs = some y → ∃ x, get? k fs = some x ∧ nulls y = nulls x) :
    Done gs where
  distinct := hdistinct
  final := by
    refine ⟨fun types htypes => ?_, ?_, ?_⟩
    · obtain ⟨x, hx, hsame⟩ := halike "type" _ htypes
      have hnone := nulls_eq_none.mpr fun xs hxs => h.final.type xs (hx.trans (congrArg some hxs))
      rw [hnone] at hsame
      exact nulls_eq_none.mp hsame types rfl
    · refine noNull_iff_nulls.mpr fun y hy => ?_
      obtain ⟨x, hx, hsame⟩ := halike "oneOf" y hy
      exact hsame.trans (noNull_iff_nulls.mp h.final.oneOf x hx)
    · refine noNull_iff_nulls.mpr fun y hy => ?_
      obtain ⟨x, hx, hsame⟩ := halike "anyOf" y hy
      exact hsame.trans (noNull_iff_nulls.mp h.final.anyOf x hx)

theorem everywhere_done_of_alike (h : Everywhere Done (.obj fs)) (hdistinct : Distinct gs)
    (halike : ∀ k y, get? k gs = some y →
      ∃ x, get? k fs = some x ∧ nulls y = nulls x ∧ Everywhere Done y) :
    Everywhere Done (.obj gs) := by
  refine everywhere_obj.mpr ⟨?_, fun k y hy => ?_⟩
  · refine (everywhere_obj.mp h).1.of_alike hdistinct fun k y hy => ?_
    obtain ⟨x, hx, hsame, -⟩ := halike k y hy
    exact ⟨x, hx, hsame⟩
  · obtain ⟨-, -, -, hdone⟩ := halike k y hy
    exact hdone

end

/-! ## The reduction keeps them alone -/

theorem nulls_onObject (f : Fields → Fields) (x : Json) : nulls (onObject f x) = nulls x := by
  cases x with
  | obj fs => rfl
  | null | bool | num | str | arr => rfl

theorem isNullSchema_of_length {fs : Fields} (h : fs.length ≠ 1) :
    isNullSchema (.obj fs) = false := by
  match fs with
  | [] => rfl
  | [_] => exact absurd rfl h
  | (k, v) :: _ :: _ => cases v <;> rfl

/-- The reduction makes no null schema and loses none. -/
theorem isNullSchema_normalizeResponseContent (x : Json) :
    isNullSchema (normalizeResponseContent x) = isNullSchema x := by
  cases x with
  | arr items => rw [Responses.normalize_arr]; rfl
  | null | bool | num | str => rw [Responses.normalize_leaf rfl]
  | obj fs =>
    match fs with
    | [(k, x)] =>
      rw [normalize_single]
      by_cases hk : k = "type"
      · subst hk
        rw [enter_of_ne (by decide)]
        cases x with
        | obj gs => rw [Responses.normalize_obj]; rfl
        | arr items => rw [Responses.normalize_arr]; rfl
        | null | bool | num | str => rw [Responses.normalize_leaf rfl]
      · have hno : ∀ y, isNullSchema (.obj [(k, y)]) = false := by
          intro y
          cases y <;> simp [isNullSchema, hk]
        rw [hno, hno]
    | [] | _ :: _ :: _ =>
      rw [Responses.normalize_obj, isNullSchema_of_length, isNullSchema_of_length]
      · simp
      · rw [← List.length_map (f := Prod.fst), keys_normalize]
        simp

theorem nulls_normalizeResponseContent (x : Json) :
    nulls (normalizeResponseContent x) = nulls x := by
  cases x with
  | arr items =>
    rw [Responses.normalize_arr, nulls, nulls, List.any_map]
    congr 2
    exact funext isNullSchema_normalizeResponseContent
  | obj fs => rw [Responses.normalize_obj]; rfl
  | null | bool | num | str => rw [Responses.normalize_leaf rfl]

theorem done_keepMediaType {x : Json} (h : Everywhere Done x) :
    Everywhere Done (onObject keepMediaType x) := by
  cases x with
  | obj content =>
    refine everywhere_done_of_alike h ?_ fun k y hy => ?_
    · have hlength := keepMediaType_length content
      unfold Distinct
      match keepMediaType content, hlength with
      | [], _ => exact .nil
      | [e], _ => simp
    · have hget := get?_of_keepMediaType hy
      exact ⟨y, hget, rfl, (everywhere_obj.mp h).2 k y hget⟩
  | null | bool | num | str | arr => exact h

theorem done_keepResponse {x : Json} (h : Everywhere Done x) :
    Everywhere Done (keepResponse x) := by
  cases x with
  | obj fs =>
    obtain ⟨hself, hvalues⟩ := everywhere_obj.mp h
    refine everywhere_done_of_alike h ?_ fun k y hy => ?_
    · unfold Distinct
      rw [keys_modifyAt]
      exact hself.distinct
    · rw [get?_modifyAt] at hy
      split at hy
      · obtain ⟨x, hx, rfl⟩ := Option.map_eq_some_iff.mp hy
        exact ⟨x, hx, nulls_onObject _ x, done_keepMediaType (hvalues k x hx)⟩
      · exact ⟨y, hy, rfl, hvalues k y hy⟩
  | null | bool | num | str | arr => exact h

theorem done_keepOne {x : Json} (h : Everywhere Done x) : Everywhere Done (onObject keepOne x) := by
  cases x with
  | obj rs =>
    cases hkeep : keepKey rs with
    | none => rwa [onObject, keepOne_of_none hkeep]
    | some keep =>
      obtain ⟨kept, hget⟩ := get?_keepKey hkeep
      have hkept := done_keepResponse ((everywhere_obj.mp h).2 keep kept hget)
      rw [onObject, keepOne_of_some hkeep hget]
      refine everywhere_done_of_alike h (by simp [Distinct]) fun k y hy => ?_
      unfold get? at hy
      split at hy
      · next hk =>
        cases hy
        subst hk
        exact ⟨kept, hget, nulls_onObject _ kept, hkept⟩
      · cases hy
  | null | bool | num | str | arr => exact h

theorem done_enter {s : Step} {x : Json} (h : Everywhere Done x) : Everywhere Done (enter s x) := by
  unfold enter
  split
  · exact done_keepOne h
  · exact h

theorem nulls_enter (s : Step) (x : Json) : nulls (enter s x) = nulls x := by
  unfold enter
  split
  · exact nulls_onObject _ x
  · rfl

theorem done_normalizeResponseContent (x : Json) (h : Everywhere Done x) :
    Everywhere Done (normalizeResponseContent x) := by
  induction hsize : size x using Nat.strong_induction_on generalizing x with
  | _ n ih =>
    subst hsize
    cases x with
    | null | bool | num | str => rwa [Responses.normalize_leaf rfl]
    | arr items =>
      rw [Responses.normalize_arr]
      refine everywhere_arr.mpr fun y hy => ?_
      obtain ⟨x, hx, rfl⟩ := List.mem_map.mp hy
      refine ih _ ?_ x (everywhere_arr.mp h x hx) rfl
      have := size_mem_items hx
      simp only [size]
      omega
    | obj fs =>
      rw [Responses.normalize_obj]
      refine everywhere_done_of_alike h ?_ fun k y hy => ?_
      · unfold Distinct
        rw [keys_normalize]
        exact (everywhere_obj.mp h).1.distinct
      · rw [get?_map] at hy
        obtain ⟨z, hz, rfl⟩ := Option.map_eq_some_iff.mp hy
        have hsmall := size_reduceMap (mem_of_get? hz)
        rw [get?_reduceMap] at hz
        obtain ⟨x, hx, rfl⟩ := Option.map_eq_some_iff.mp hz
        refine ⟨x, hx, ?_, ?_⟩
        · rw [nulls_normalizeResponseContent, nulls_enter]
        · exact ih _ hsmall _ (done_enter ((everywhere_obj.mp h).2 k x hx)) rfl

/-! ## Where nothing is to be done -/

/-- The pass leaves such a value as it is. -/
theorem normalizeNullableTypes_done (x : Json) (h : Everywhere Done x) :
    Same (normalizeNullableTypes x) x := by
  induction x using rewrite_induction with
  | leaf x hleaf =>
    rw [normalize_leaf hleaf]
    cases x with
    | null => exact .null
    | bool b => exact .bool b
    | num q => exact .num q
    | str t => exact .str t
    | arr | obj => cases hleaf
  | arr items ih =>
    rw [normalize_arr]
    refine .arr (List.length_map _) fun i y z hy hz => ?_
    rw [List.getElem?_map, hz] at hy
    cases hy
    have hmem := List.mem_of_getElem? hz
    exact ih z hmem (everywhere_arr.mp h z hmem)
  | obj fs ih =>
    obtain ⟨⟨hdistinct, hfinal⟩, hvalues⟩ := everywhere_obj.mp h
    have hget := hfinal.get?_normalizeNode hdistinct
    rw [normalize_obj]
    refine .obj (fun k => ?_) fun k y z hy hz => ?_
    · rw [get?_map, hget, Option.isSome_map]
    · rw [get?_map, hget, hz] at hy
      cases hy
      exact ih (k, z) (mem_of_get? ((hget k).trans hz)) (hvalues k z hz)

/-- A stable document is left with nothing to do. -/
theorem done_of_stable {x : Json} (h : Proper x) (hstable : Stable x) :
    Everywhere Done (normalizeNullableTypes x) := by
  induction x using rewrite_induction with
  | leaf x hleaf =>
    rw [normalize_leaf hleaf]
    exact everywhere_leaf hleaf
  | arr items ih =>
    rcases hstable with hleaf | hitems
    · cases hleaf
    · rw [normalize_arr]
      refine everywhere_arr.mpr fun y hy => ?_
      obtain ⟨x, hx, rfl⟩ := List.mem_map.mp hy
      exact ih x hx (everywhere_arr.mp h x hx) (hitems x hx)
  | obj fs ih =>
    rcases hstable with hleaf | - | ⟨hmerges, hvalues⟩
    · cases hleaf
    · have hproper := proper_normalizeNode h
      rw [normalize_obj]
      refine everywhere_obj.mpr ⟨⟨?_, (final_iff h).mpr hmerges⟩, fun k y hy => ?_⟩
      · exact (everywhere_obj.mp hproper).1.map_values normalizeNullableTypes
      · rw [get?_map] at hy
        obtain ⟨x, hx, rfl⟩ := Option.map_eq_some_iff.mp hy
        have hmem := mem_of_get? hx
        exact ih (k, x) hmem (hproper.of_mem hmem) (hvalues (k, x) hmem)

/-! ## The result of the build -/

/-- What is asked of what the generator is given. -/
structure Generated (document : Json) : Prop where
  normal : Everywhere Normal (generatorInput document)
  rewrites_nothing : Same (normalizeNullableTypes (generatorInput document))
    (generatorInput document)
  reduces_nothing : normalizeResponseContent (generatorInput document) = generatorInput document

/-- **Both forms at once**: the reduction undoes nothing of the rewriting. -/
theorem generated_is_final (document : Value)
    (h : Stable (normalizeOpenapiVersion document.json)) : Generated document.json := by
  have hrewritten : Everywhere Done (rewritten document.json) :=
    done_of_stable (proper_normalizeOpenapiVersion document.proper) h
  have hdone : Everywhere Done (generatorInput document.json) :=
    done_normalizeResponseContent _ hrewritten
  exact ⟨fun p fs hp => (hdone p fs hp).final.normal, normalizeNullableTypes_done _ hdone,
    normalize_again _⟩

/-- An object without variants, and with one name in its `type` list at most. -/
theorem mergesOk_plain {fs : Fields} (hone : oneOfValue fs = none) (hany : get? "anyOf" fs = none) :
    MergesOk fs := by
  have hfirst : first fs = none := by rw [first, hone]; rfl
  have hvalue : anyOfValue fs = none := by rw [anyOfValue, hfirst, hany]; rfl
  have hlast : last fs = none := by rw [last, hvalue]; rfl
  have hmerged : ∀ k, merged fs k = none := fun k => by rw [merged, hfirst, hlast]; rfl
  refine ⟨fun types h => ?_, ?_, ?_⟩
  · rw [hmerged] at h
    cases h
  · rw [hmerged, hone]
    exact trivial
  · rw [hlast, hvalue]
    exact trivial

theorem stable_plain {fs : Fields} (htype : get? "type" fs = none) (hone : get? "oneOf" fs = none)
    (hany : get? "anyOf" fs = none) (h : ∀ e ∈ fs, Stable e.2) : Stable (.obj fs) := by
  have hnode : normalizeNode fs = fs := by
    have htypes : normalizeType fs = fs := by simp only [normalizeType, htype]
    have hones : normalizeVariants "oneOf" fs = fs := by simp only [normalizeVariants, hone]
    have hanys : normalizeVariants "anyOf" fs = fs := by simp only [normalizeVariants, hany]
    rw [normalizeNode, htypes, hones, hanys]
  refine .obj (mergesOk_plain ?_ hany) fun e he => ?_
  · rw [oneOfValue, htype]
    exact hone
  · rw [hnode] at he
    exact h e he

/-- Two responses, the first of them a string or null. -/
def twoResponses : Json :=
  .obj [("openapi", .str "3.1.0"), ("responses", .obj [
    ("200", .obj [("content", .obj [("application/json",
      .obj [("type", .arr [.str "string", .str "null"])])])]),
    ("404", .obj [])])]

theorem twoResponses_is_final : Generated twoResponses := by
  refine generated_is_final ⟨twoResponses, proper_of_isProper (by decide)⟩ ?_
  have hschema : Stable (.obj [("type", .arr [.str "string", .str "null"])]) := by
    refine .obj (mergesOk_plain rfl rfl) fun e he => ?_
    have hnode : normalizeNode [("type", .arr [.str "string", .str "null"])] =
        [("type", .str "string"), ("nullable", .bool true)] := by rfl
    rw [hnode] at he
    simp only [List.mem_cons, List.not_mem_nil, or_false] at he
    rcases he with rfl | rfl
    · exact .leaf rfl
    · exact .leaf rfl
  have hempty : Stable (.obj []) := stable_plain rfl rfl rfl fun e he => nomatch he
  have hone : ∀ k x, k ∉ ["type", "oneOf", "anyOf"] → Stable x → Stable (.obj [(k, x)]) := by
    intro k x hk h
    simp only [List.mem_cons, List.not_mem_nil, or_false, not_or] at hk
    obtain ⟨htype, hone, hany⟩ := hk
    refine stable_plain (if_neg htype) (if_neg hone) (if_neg hany) fun e he => ?_
    rw [List.mem_singleton.mp he]
    exact h
  have hcontent := hone "content" _ (by decide) (hone "application/json" _ (by decide) hschema)
  show Stable (.obj [("openapi", .str "3.0.3"), ("responses", _)])
  refine stable_plain rfl rfl rfl fun e he => ?_
  simp only [List.mem_cons, List.not_mem_nil, or_false] at he
  rcases he with rfl | rfl
  · exact .leaf rfl
  · refine stable_plain rfl rfl rfl fun e he => ?_
    simp only [List.mem_cons, List.not_mem_nil, or_false] at he
    rcases he with rfl | rfl
    · exact hcontent
    · exact hempty

end Hoprd.RestApiClient.Build
