import Hoprd.RestApiClient.Responses

/-!
# What the reduction of responses leaves

`ReducedForm`: each responses object of the result comes from one at the same place. If
some response had content, one is left, the one of `Chosen`, with one media type
(`OneMedia`); else all are left. Outside, nothing changes, and a second pass changes
nothing at all.

A responses object may stand under the key `responses` in another one, and then it is
also a response there. If it is the one kept, one of its entries is its content, which
is cut down before the object is reduced itself: it may lose the content it was kept
for. `Doubled` are the places of these objects.

* `responses_reduced`: `ReducedForm` of every value, but at the doubled places.
* `kept_response_loses_content`: a response at such a place.
-/
namespace Hoprd.RestApiClient.Responses

open Core Core.Json Core.JsonSchema Core.IndexMap

/-! ## What is left -/

/-- The first preferred response with content, else the first with content. -/
inductive Chosen (rs : Fields) (keep : String) (kept : Json) : Prop
  | preferred (before after : List String) (split : preferred = before ++ keep :: after)
      (passed : ∀ key ∈ before, responseHasContent (get? key rs) = false)
      (found : get? keep rs = some kept) (content : responseHasContent (some kept) = true)
  | first (passed : ∀ key ∈ preferred, responseHasContent (get? key rs) = false)
      (before after : Fields) (split : rs = before ++ (keep, kept) :: after)
      (passed' : ∀ e ∈ before, responseHasContent (some e.2) = false)
      (content : responseHasContent (some kept) = true)

/-- JSON if it was there, else the media type that came first; what it says is
rewritten in turn. -/
inductive OneMedia (content : Fields) : Json → Prop
  | json {x : Json} (found : get? "application/json" content = some x) :
      OneMedia content (.obj [("application/json", normalizeResponseContent x)])
  | first {m : String} {x : Json} {rest : Fields} (absent : get? "application/json" content = none)
      (split : content = (m, x) :: rest) :
      OneMedia content (.obj [(m, normalizeResponseContent (enter (.key m) x))])

/-- The content of a response is left with one media type. -/
def KeepsMedia (kept kept' : Json) : Prop :=
  ∃ respObj content respObj' media, kept = .obj respObj ∧
    get? "content" respObj = some (.obj content) ∧ kept' = .obj respObj' ∧
    get? "content" respObj' = some media ∧ OneMedia content media

def HasContent (rs : Fields) : Prop := ∃ e ∈ rs, responseHasContent (some e.2) = true

/-- The responses `rs` at `p` become `ys`. -/
structure Reduced (exempt : List Step → Prop) (p : List Step) (rs ys : Fields) : Prop where
  one : HasContent rs → ¬ exempt p → ∃ keep kept kept', Chosen rs keep kept ∧
    ys = [(keep, kept')] ∧ (¬ exempt (p ++ [.key keep]) → KeepsMedia kept kept')
  all : ¬ HasContent rs → ys.map Prod.fst = rs.map Prod.fst

/-- A value without what its parts say. -/
inductive Outline where
  | null
  | bool (b : Bool)
  | num (q : Rat)
  | str (s : String)
  | arr (length : Nat)
  | obj (keys : List String)
  deriving DecidableEq

def outline : Json → Outline
  | .null => .null
  | .bool b => .bool b
  | .num q => .num q
  | .str s => .str s
  | .arr xs => .arr xs.length
  | .obj fs => .obj (fs.map Prod.fst)

structure ReducedForm (exempt : List Step → Prop) (x : Json) : Prop where
  responses : ∀ p ys,
    valueAt (p ++ [responsesStep]) (normalizeResponseContent x) = some (.obj ys) →
    ∃ rs, valueAt (p ++ [responsesStep]) x = some (.obj rs) ∧
      Reduced exempt (p ++ [responsesStep]) rs ys
  outside : ∀ p, Outside p x →
    (valueAt p (normalizeResponseContent x)).map outline = (valueAt p x).map outline
  again : normalizeResponseContent (normalizeResponseContent x) = normalizeResponseContent x

/-- At `p` stands a response that is kept under the key `responses`, and that has
responses with content itself. -/
def KeptResponses (x : Json) (p : List Step) : Prop :=
  ∃ q rs inner, p = q ++ [responsesStep, responsesStep] ∧
    valueAt (q ++ [responsesStep]) x = some (.obj rs) ∧ keepKey rs = some "responses" ∧
    valueAt p x = some (.obj inner) ∧ HasContent inner

/-- Such a place, or one that is reached from it by the key `responses` alone. -/
def Doubled (x : Json) (p : List Step) : Prop :=
  ∃ q n, p = q ++ List.replicate n responsesStep ∧ KeptResponses x q

/-! ## The response kept, and its content -/

theorem not_hasContent {rs : Fields} : ¬ HasContent rs ↔ keepKey rs = none := by
  rw [keepKey_eq_none]
  simp [HasContent]

theorem chosen_of_keepKey {rs : Fields} {keep : String} (hdistinct : Distinct rs)
    (h : keepKey rs = some keep) : ∃ kept, get? keep rs = some kept ∧ Chosen rs keep kept := by
  rcases keepKey_cases h with hfind | ⟨hnone, kept, hfind⟩
  · obtain ⟨kept, hget⟩ := get?_keepKey h
    obtain ⟨hcontent, before, after, hsplit, hbefore⟩ := List.find?_eq_some_iff_append.mp hfind
    rw [hget] at hcontent
    exact ⟨kept, hget, .preferred before after hsplit (by simpa using hbefore) hget hcontent⟩
  · have hmem := List.mem_of_find?_eq_some hfind
    obtain ⟨hcontent, before, after, hsplit, hbefore⟩ := List.find?_eq_some_iff_append.mp hfind
    rw [List.find?_eq_none] at hnone
    exact ⟨kept, (get?_eq_some hdistinct).mpr hmem,
      .first (by simpa using hnone) before after hsplit (by simpa using hbefore) hcontent⟩

theorem Chosen.content {rs : Fields} {keep : String} {kept : Json} (h : Chosen rs keep kept) :
    responseHasContent (some kept) = true := by
  cases h with
  | preferred _ _ _ _ _ content => exact content
  | first _ _ _ _ _ content => exact content

theorem responseHasContent_iff {x : Json} :
    responseHasContent (some x) = true ↔ ∃ respObj e content, x = .obj respObj ∧
      get? "content" respObj = some (.obj (e :: content)) := by
  constructor
  · intro h
    unfold responseHasContent at h
    split at h
    · next respObj heq =>
      cases heq
      split at h
      · next content hget =>
        cases content with
        | nil => cases h
        | cons e content => exact ⟨respObj, e, content, rfl, hget⟩
      · cases h
    · cases h
  · rintro ⟨respObj, e, content, rfl, hget⟩
    simp [responseHasContent, hget]

theorem get?_of_keepMediaType {content : Fields} {k : String} {x : Json}
    (h : get? k (keepMediaType content) = some x) : get? k content = some x := by
  unfold keepMediaType at h
  split at h
  · split at h
    · next jsonValue hjson =>
      unfold get? at h
      split at h
      · next hk =>
        cases h
        rw [← hk, hjson]
      · cases h
    · cases content with
      | nil => exact h
      | cons e content =>
        rw [List.take_succ_cons, List.take_zero] at h
        unfold get? at h ⊢
        split at h
        · next hk => rw [if_pos hk, h]
        · cases h
  · exact h

theorem keepMediaType_cons (e : String × Json) (content : Fields) :
    keepMediaType (e :: content) =
      match get? "application/json" (e :: content) with
      | some jsonValue => [("application/json", jsonValue)]
      | none => [e] := by
  unfold keepMediaType
  split
  · rfl
  · next hlength =>
    have hnil : content = [] := by
      rw [List.length_cons] at hlength
      exact List.length_eq_zero_iff.mp (by omega)
    subst hnil
    by_cases hk : e.1 = "application/json"
    · simp [get?, ← hk]
    · simp [get?, hk]

theorem normalize_single (m : String) (x : Json) :
    normalizeResponseContent (.obj [(m, x)]) =
      .obj [(m, normalizeResponseContent (enter (.key m) x))] := by
  rw [normalize_obj, reduceMap]
  unfold modifyAt
  by_cases hm : m = "responses"
  · simp [hm, enter, responsesStep]
  · simp [hm, enter, responsesStep, modifyAt]

theorem oneMedia_keepMediaType (e : String × Json) (content : Fields) :
    OneMedia (e :: content)
      (normalizeResponseContent (.obj (keepMediaType (e :: content)))) := by
  obtain ⟨m, x⟩ := e
  rw [keepMediaType_cons]
  cases hget : get? "application/json" ((m, x) :: content) with
  | some jsonValue =>
    simp only [normalize_single]
    exact .json hget
  | none =>
    simp only [normalize_single]
    exact .first hget rfl

/-- Content is not made by cutting it down. -/
theorem hasContent_of_cut {x : Json}
    (h : responseHasContent (some (onObject keepMediaType x)) = true) :
    responseHasContent (some x) = true := by
  cases x with
  | obj fs =>
    obtain ⟨respObj, e, content, heq, hget⟩ := responseHasContent_iff.mp h
    cases heq
    exact responseHasContent_iff.mpr ⟨fs, e, content, rfl, get?_of_keepMediaType hget⟩
  | null | bool | num | str | arr => exact h

theorem keepKey_cut {fs : Fields} (h : keepKey fs = none) :
    keepKey (modifyAt "content" (onObject keepMediaType) fs) = none := by
  rw [keepKey_eq_none] at *
  intro e he
  rcases of_mem_modifyAt he with he | ⟨x, hx, rfl⟩
  · exact h e he
  · have hnone : responseHasContent (some x) = false := h _ hx
    rw [Bool.eq_false_iff] at hnone ⊢
    exact fun hcontent => hnone (hasContent_of_cut hcontent)

/-! ## What the rewriting meets -/

/-- No response of the value has content, if it is an object. -/
def Plain (x : Json) : Prop := ∀ rs, x = .obj rs → ¬ HasContent rs

/-- What becomes of a value before the rewriting goes into it: it is a response that is
kept, or the content of one, or both. -/
inductive Handled (x : Json) : Json → Prop
  | same : Handled x x
  | content : Handled x (onObject keepMediaType x)
  | response : Handled x (keepResponse x)
  | both : Handled x (keepResponse (onObject keepMediaType x))

section
variable {s : Step} {x y : Json}

theorem child_of_cut (h : child s (onObject keepMediaType x) = some y) : child s x = some y := by
  cases x with
  | obj fs =>
    cases s with
    | key k => exact get?_of_keepMediaType h
    | item i => cases h
  | null | bool | num | str | arr => exact h

theorem child_keepResponse (h : child s (keepResponse x) = some y) :
    ∃ z, child s x = some z ∧ (y = z ∨ s ≠ responsesStep ∧ y = onObject keepMediaType z) := by
  cases x with
  | obj fs =>
    cases s with
    | key k =>
      have hget : get? k (modifyAt "content" (onObject keepMediaType) fs) = some y := h
      rw [get?_modifyAt] at hget
      split at hget
      · next hk =>
        obtain ⟨z, hz, rfl⟩ := Option.map_eq_some_iff.mp hget
        refine ⟨z, hz, .inr ⟨?_, rfl⟩⟩
        rw [← hk]
        decide
      · exact ⟨y, hget, .inl rfl⟩
    | item i => cases h
  | null | bool | num | str | arr => exact ⟨y, h, .inl rfl⟩

theorem child_handled {z : Json} (hz : Handled x z) (h : child s z = some y) :
    ∃ w, child s x = some w ∧ (y = w ∨ s ≠ responsesStep ∧ y = onObject keepMediaType w) := by
  cases hz with
  | same => exact ⟨y, h, .inl rfl⟩
  | content => exact ⟨y, child_of_cut h, .inl rfl⟩
  | response => exact child_keepResponse h
  | both =>
    obtain ⟨w, hw, hy⟩ := child_keepResponse h
    exact ⟨w, child_of_cut hw, hy⟩

/-- Of a responses object that is reduced, the response kept is met. -/
theorem child_keepOne (h : child s (onObject keepOne x) = some y) :
    child s x = some y ∨ ∃ rs keep z, x = .obj rs ∧ keepKey rs = some keep ∧ s = .key keep ∧
      get? keep rs = some z ∧ y = keepResponse z := by
  cases x with
  | obj rs =>
    cases hkeep : keepKey rs with
    | none =>
      rw [onObject, keepOne_of_none hkeep] at h
      exact .inl h
    | some keep =>
      obtain ⟨z, hz⟩ := get?_keepKey hkeep
      rw [onObject, keepOne_of_some hkeep hz] at h
      cases s with
      | item i => cases h
      | key k =>
        have hget : get? k [(keep, keepResponse z)] = some y := h
        unfold get? at hget
        split at hget
        · next hk =>
          cases hget
          exact .inr ⟨rs, keep, z, rfl, hkeep, congrArg Step.key hk.symm, hz, rfl⟩
        · cases hget
  | null | bool | num | str | arr => exact .inl h

theorem plain_keepResponse (h : Plain x) : Plain (keepResponse x) := by
  cases x with
  | obj fs =>
    rintro _ ⟨⟩
    exact not_hasContent.mpr (keepKey_cut (not_hasContent.mp (h fs rfl)))
  | null | bool | num | str | arr => exact h

end

/-! ## Places and the values met there -/

theorem follow_snoc (p : List Step) (s : Step) (x : Json) :
    follow (p ++ [s]) x = (follow p x).bind fun y => (child s y).map (enter s) := by
  induction p generalizing x with
  | nil =>
    cases hchild : child s x with
    | none => simp [follow, hchild]
    | some y => simp [follow, hchild]
  | cons t p ih =>
    cases hchild : child t x with
    | none => simp [follow, hchild]
    | some y => simp [follow, hchild, ih]

/-- A response that may be kept under `responses`: it is there for its own sake, or has
no responses with content, or stands at a doubled place. -/
def Met (document : Json) (p : List Step) (x y : Json) : Prop :=
  y = x ∨ y = keepResponse x ∧ (Plain x ∨ Doubled document p)

/-- What the rewriting finds, and what was there. -/
inductive Found (document : Json) (p : List Step) (x : Json) : Json → Prop
  | handled {y : Json} (h : Handled x y) : Found document p x y
  | reduced {q : List Step} {y : Json} (place : p = q ++ [responsesStep])
      (h : Met document p x y) : Found document p x (onObject keepOne y)

section
variable {document : Json} {p : List Step} {s : Step} {x y z : Json}

theorem Doubled.snoc (h : Doubled document p) : Doubled document (p ++ [responsesStep]) := by
  obtain ⟨q, n, rfl, hq⟩ := h
  exact ⟨q, n + 1, by rw [List.replicate_succ', List.append_assoc], hq⟩

/-- The response that a responses object keeps under `responses`. -/
theorem plain_or_doubled {q : List Step} {rs : Fields} (hplace : p = q ++ [responsesStep])
    (hx : valueAt p document = some (.obj rs)) (hkeep : keepKey rs = some "responses")
    (hz : get? "responses" rs = some z) :
    Plain z ∨ Doubled document (p ++ [responsesStep]) := by
  by_cases hplain : Plain z
  · exact .inl hplain
  · obtain ⟨inner, rfl, hinner⟩ : ∃ inner, z = .obj inner ∧ HasContent inner := by
      simpa [Plain] using hplain
    refine .inr ⟨p ++ [responsesStep], 0, by simp, q, rs, inner, by simp [hplace], ?_, hkeep, ?_,
      hinner⟩
    · rw [← hplace]
      exact hx
    · rw [valueAt_snoc, hx]
      exact hz

/-- One step further down. -/
theorem child_found (hfound : Found document p x z) (hx : valueAt p document = some x)
    (h : child s z = some y) :
    ∃ w, child s x = some w ∧ Handled w y ∧
      (s = responsesStep → Met document (p ++ [s]) w y) := by
  cases hfound with
  | handled hz =>
    obtain ⟨w, hw, rfl | ⟨hs, rfl⟩⟩ := child_handled hz h
    · exact ⟨y, hw, .same, fun _ => .inl rfl⟩
    · exact ⟨w, hw, .content, fun heq => (hs heq).elim⟩
  | @reduced q z' hplace hmet =>
    rcases child_keepOne h with hchild | ⟨rs, keep, z, rfl, hkeep, rfl, hget, rfl⟩
    · -- nothing was taken out
      rcases hmet with rfl | ⟨rfl, -⟩
      · exact ⟨y, hchild, .same, fun _ => .inl rfl⟩
      · obtain ⟨w, hw, rfl | ⟨hs, rfl⟩⟩ := child_keepResponse hchild
        · exact ⟨y, hw, .same, fun _ => .inl rfl⟩
        · exact ⟨w, hw, .content, fun heq => (hs heq).elim⟩
    · rcases hmet with rfl | ⟨hcut, hplain⟩
      · refine ⟨z, hget, .response, fun hs => ?_⟩
        obtain rfl : keep = "responses" := Step.key.inj hs
        exact .inr ⟨rfl, plain_or_doubled hplace hx hkeep hget⟩
      · -- a kept response that still has responses with content
        have hdoubled : Doubled document p := by
          refine hplain.resolve_left fun hno => ?_
          have := plain_keepResponse hno rs hcut.symm
          rw [not_hasContent, hkeep] at this
          cases this
        have hchild : child (.key keep) (keepResponse x) = some z := by
          rw [← hcut]
          exact hget
        obtain ⟨w, hw, rfl | ⟨hs, rfl⟩⟩ := child_keepResponse hchild
        · refine ⟨z, hw, .response, fun hs => .inr ⟨rfl, .inr ?_⟩⟩
          rw [hs]
          exact hdoubled.snoc
        · exact ⟨w, hw, .both, fun heq => (hs heq).elim⟩

theorem found_of_follow (h : follow p document = some z) :
    ∃ x, valueAt p document = some x ∧ Found document p x z := by
  induction p using List.reverseRecOn generalizing z with
  | nil =>
    cases h
    exact ⟨document, rfl, .handled .same⟩
  | append_singleton p s ih =>
    rw [follow_snoc] at h
    obtain ⟨z', hz', hlast⟩ := Option.bind_eq_some_iff.mp h
    obtain ⟨y, hy, rfl⟩ := Option.map_eq_some_iff.mp hlast
    obtain ⟨x, hx, hfound⟩ := ih hz'
    obtain ⟨w, hw, hhandled, hmet⟩ := child_found hfound hx hy
    refine ⟨w, by rw [valueAt_snoc, hx]; exact hw, ?_⟩
    unfold enter
    split
    · next hs => exact .reduced (by rw [hs]) (hmet hs)
    · exact .handled hhandled

end

/-! ## Responses objects of the result -/

theorem normalize_eq_obj {x : Json} {ys : Fields} (h : normalizeResponseContent x = .obj ys) :
    ∃ fs, x = .obj fs ∧
      (reduceMap fs).map (fun e => (e.1, normalizeResponseContent e.2)) = ys := by
  cases x with
  | obj fs =>
    rw [normalize_obj] at h
    exact ⟨fs, rfl, Json.obj.inj h⟩
  | arr items =>
    rw [normalize_arr] at h
    cases h
  | null | bool | num | str =>
    rw [normalize_leaf rfl] at h
    cases h

theorem keepsMedia_keepResponse {kept : Json} (h : responseHasContent (some kept) = true) :
    KeepsMedia kept (normalizeResponseContent (keepResponse kept)) := by
  obtain ⟨respObj, e, content, rfl, hget⟩ := responseHasContent_iff.mp h
  refine ⟨respObj, e :: content, _, _, rfl, hget, normalize_obj _, ?_,
    oneMedia_keepMediaType e content⟩
  rw [get?_map, get?_reduceMap, get?_modifyAt, if_pos rfl, hget]
  simp only [Option.map_some, enter_of_ne (k := "content") (by decide)]
  rfl

section
variable {document : Json} {p : List Step} {rs ys : Fields} {y : Json}

/-- Away from doubled places, the reduction meets what was there. -/
theorem Met.eq (h : Met document p (.obj rs) y) (hcontent : HasContent rs)
    (hplace : ¬ Doubled document p) : y = .obj rs := by
  rcases h with rfl | ⟨-, hplain | hdoubled⟩
  · rfl
  · exact (hplain rs rfl hcontent).elim
  · exact (hplace hdoubled).elim

theorem reduced_one (hdistinct : Distinct rs) (hrs : valueAt p document = some (.obj rs))
    (hlast : ∃ q, p = q ++ [responsesStep]) (hcontent : HasContent rs)
    (h : normalizeResponseContent (.obj (keepOne rs)) = .obj ys) :
    ∃ keep kept kept', Chosen rs keep kept ∧ ys = [(keep, kept')] ∧
      (¬ Doubled document (p ++ [.key keep]) → KeepsMedia kept kept') := by
  obtain ⟨keep, hkeep⟩ : ∃ keep, keepKey rs = some keep := by
    cases hkey : keepKey rs with
    | none => exact (not_hasContent.mpr hkey hcontent).elim
    | some keep => exact ⟨keep, rfl⟩
  obtain ⟨kept, hget, hchosen⟩ := chosen_of_keepKey hdistinct hkeep
  rw [keepOne_of_some hkeep hget, normalize_single] at h
  refine ⟨keep, kept, _, hchosen, (Json.obj.inj h).symm, fun hplace => ?_⟩
  have henter : enter (.key keep) (keepResponse kept) = keepResponse kept := by
    unfold enter
    split
    · next hs =>
      -- a response under `responses`: nothing more is taken out of it
      obtain rfl : keep = "responses" := Step.key.inj hs
      obtain ⟨q, rfl⟩ := hlast
      have hplain := (plain_or_doubled rfl hrs hkeep hget).resolve_right hplace
      have hcut := plain_keepResponse hplain
      cases hfields : keepResponse kept with
      | obj fs => rw [onObject, keepOne_of_none (not_hasContent.mp (hcut fs hfields))]
      | null | bool | num | str | arr => rfl
    · rfl
  rw [henter]
  exact keepsMedia_keepResponse hchosen.content

theorem reduced_all (hmet : Met document p (.obj rs) y) (hcontent : ¬ HasContent rs)
    (h : normalizeResponseContent (onObject keepOne y) = .obj ys) :
    ys.map Prod.fst = rs.map Prod.fst := by
  have hplain : Plain (.obj rs) := by
    rintro _ ⟨⟩
    exact hcontent
  obtain ⟨rs', rfl, hkeys, hplain'⟩ : ∃ rs', y = .obj rs' ∧
      rs'.map Prod.fst = rs.map Prod.fst ∧ Plain (.obj rs') := by
    rcases hmet with rfl | ⟨rfl, -⟩
    · exact ⟨rs, rfl, rfl, hplain⟩
    · exact ⟨_, rfl, keys_modifyAt _ _ rs, plain_keepResponse hplain⟩
  rw [onObject, keepOne_of_none (not_hasContent.mp (hplain' rs' rfl)), normalize_obj] at h
  rw [← Json.obj.inj h, keys_normalize, hkeys]

/-- A responses object of the result, and the one it comes from. -/
theorem reduced_at (v : Value)
    (h : valueAt (p ++ [responsesStep]) (normalizeResponseContent v.json) = some (.obj ys)) :
    ∃ rs, valueAt (p ++ [responsesStep]) v.json = some (.obj rs) ∧
      Reduced (Doubled v.json) (p ++ [responsesStep]) rs ys := by
  rw [valueAt_normalize, follow_snoc] at h
  obtain ⟨z, hz, hnormal⟩ := Option.map_eq_some_iff.mp h
  obtain ⟨z', hz', hlast⟩ := Option.bind_eq_some_iff.mp hz
  obtain ⟨y, hy, rfl⟩ := Option.map_eq_some_iff.mp hlast
  obtain ⟨x, hx, hfound⟩ := found_of_follow hz'
  obtain ⟨w, hw, -, hmet⟩ := child_found hfound hx hy
  have hmet := hmet rfl
  have hplace : valueAt (p ++ [responsesStep]) v.json = some w := by
    rw [valueAt_snoc, hx]
    exact hw
  obtain ⟨rs, rfl⟩ : ∃ rs, w = .obj rs := by
    obtain ⟨fs, hfs, -⟩ := normalize_eq_obj hnormal
    rcases hmet with rfl | ⟨rfl, -⟩
    · cases y with
      | obj rs => exact ⟨rs, rfl⟩
      | null | bool | num | str | arr => cases hfs
    · cases w with
      | obj rs => exact ⟨rs, rfl⟩
      | null | bool | num | str | arr => cases hfs
  refine ⟨rs, hplace, fun hcontent hno => ?_, fun hcontent => reduced_all hmet hcontent hnormal⟩
  have hsame := hmet.eq hcontent hno
  subst hsame
  exact reduced_one (v.proper _ rs hplace) hplace ⟨p, rfl⟩ hcontent hnormal

end

/-! ## Outside -/

theorem outline_normalize (x : Json) : outline (normalizeResponseContent x) = outline x := by
  cases x with
  | obj fs => rw [normalize_obj, outline, outline, keys_normalize]
  | arr items => rw [normalize_arr, outline, outline, List.length_map]
  | null | bool | num | str => rw [normalize_leaf rfl]

theorem outline_outside {p : List Step} {x : Json} (h : Outside p x) :
    (valueAt p (normalizeResponseContent x)).map outline = (valueAt p x).map outline := by
  rw [normalize_outside h, Option.map_map]
  exact congrArg (fun f => (valueAt p x).map f) (funext outline_normalize)

/-! ## A second pass -/

/-- At most one media type, if the value is read as a response. -/
def Narrow (x : Json) : Prop :=
  ∀ fs content, x = .obj fs → get? "content" fs = some (.obj content) → content.length ≤ 1

theorem keepMediaType_length (content : Fields) : (keepMediaType content).length ≤ 1 := by
  cases content with
  | nil => simp [keepMediaType]
  | cons e content =>
    rw [keepMediaType_cons]
    split
    · exact Nat.le_refl 1
    · exact Nat.le_refl 1

theorem keepResponse_of_narrow {x : Json} (h : Narrow x) : keepResponse x = x := by
  cases x with
  | obj fs =>
    have hsame : modifyAt "content" (onObject keepMediaType) fs = fs := by
      refine modifyAt_eq_self fun y hy => ?_
      cases y with
      | obj content =>
        have hlength := h fs content rfl hy
        rw [onObject, keepMediaType, if_neg (by omega)]
      | null | bool | num | str | arr => rfl
    rw [keepResponse, onObject, hsame]
  | null | bool | num | str | arr => rfl

theorem narrow_keepResponse (x : Json) : Narrow (keepResponse x) := by
  intro fs content hfs hget
  cases x with
  | obj respObj =>
    cases hfs
    rw [get?_modifyAt, if_pos rfl] at hget
    obtain ⟨y, -, hy⟩ := Option.map_eq_some_iff.mp hget
    cases y with
    | obj content' =>
      cases hy
      exact keepMediaType_length content'
    | null | bool | num | str | arr => cases hy
  | null | bool | num | str | arr => cases hfs

/-- The content of what is left, as a response, was there before, under the same media
types. -/
theorem content_of_keepOne {x : Json} {fs content : Fields} (hfs : onObject keepOne x = .obj fs)
    (hget : get? "content" fs = some (.obj content)) :
    ∃ rs content', x = .obj rs ∧ get? "content" rs = some (.obj content') ∧
      content'.map Prod.fst = content.map Prod.fst := by
  have hchild : child (.key "content") (onObject keepOne x) = some (.obj content) := by
    rw [hfs]
    exact hget
  rcases child_keepOne hchild with hsame | ⟨rs, keep, z, rfl, -, hkey, hz, hcut⟩
  · cases x with
    | obj rs => exact ⟨rs, content, rfl, hsame, rfl⟩
    | null | bool | num | str | arr => cases hsame
  · -- the response kept is the content itself
    obtain rfl : keep = "content" := (Step.key.inj hkey).symm
    cases z with
    | obj content' =>
      cases hcut
      exact ⟨rs, content', rfl, hz, (keys_modifyAt _ _ _).symm⟩
    | null | bool | num | str | arr => cases hcut

theorem content_of_normalize {x : Json} {fs content : Fields}
    (hfs : normalizeResponseContent x = .obj fs)
    (hget : get? "content" fs = some (.obj content)) :
    ∃ rs content', x = .obj rs ∧ get? "content" rs = some (.obj content') ∧
      content'.map Prod.fst = content.map Prod.fst := by
  obtain ⟨rs, rfl, rfl⟩ := normalize_eq_obj hfs
  rw [get?_map, get?_reduceMap] at hget
  obtain ⟨y, hy, hcontent⟩ := Option.map_eq_some_iff.mp hget
  obtain ⟨y, hy', rfl⟩ := Option.map_eq_some_iff.mp hy
  rw [enter_of_ne (by decide)] at hcontent
  obtain ⟨content', rfl, rfl⟩ := normalize_eq_obj hcontent
  exact ⟨rs, content', rfl, hy', (keys_normalize _).symm⟩

theorem length_eq_of_keys {fs fs' : Fields} (h : fs'.map Prod.fst = fs.map Prod.fst) :
    fs'.length = fs.length := by
  simpa using congrArg List.length h

theorem narrow_keepOne {x : Json} (h : Narrow x) : Narrow (onObject keepOne x) := by
  intro fs content hfs hget
  obtain ⟨rs, content', hrs, hget', hkeys⟩ := content_of_keepOne hfs hget
  rw [← length_eq_of_keys hkeys]
  exact h rs content' hrs hget'

theorem narrow_enter {s : Step} {x : Json} (h : Narrow x) : Narrow (enter s x) := by
  unfold enter
  split
  · exact narrow_keepOne h
  · exact h

theorem narrow_normalize {x : Json} (h : Narrow x) : Narrow (normalizeResponseContent x) := by
  intro fs content hfs hget
  obtain ⟨rs, content', hrs, hget', hkeys⟩ := content_of_normalize hfs hget
  rw [← length_eq_of_keys hkeys]
  exact h rs content' hrs hget'

theorem keepOne_single {k : String} {x : Json} (h : Narrow x) : keepOne [(k, x)] = [(k, x)] := by
  cases hkeep : keepKey [(k, x)] with
  | none => exact keepOne_of_none hkeep
  | some keep =>
    obtain ⟨kept, hkept⟩ := get?_keepKey hkeep
    rw [keepOne_of_some hkeep hkept]
    unfold get? at hkept
    split at hkept
    · next hk =>
      cases hkept
      rw [keepResponse_of_narrow h, ← hk]
    · cases hkept

theorem responseHasContent_of_keys {rs content content' : Fields} {e : String × Json}
    (hget : get? "content" rs = some (.obj content'))
    (hkeys : content'.map Prod.fst = (e :: content).map Prod.fst) :
    responseHasContent (some (.obj rs)) = true := by
  have hnil : content' ≠ [] := by
    rintro rfl
    cases hkeys
  obtain ⟨e', rest, rfl⟩ := List.exists_cons_of_ne_nil hnil
  exact responseHasContent_iff.mpr ⟨rs, e', rest, rfl, hget⟩

/-- Neither the reduction nor the rewriting gives content to a response. -/
theorem hasContent_of_normalize {s : Step} {x : Json}
    (h : responseHasContent (some (normalizeResponseContent (enter s x))) = true) :
    responseHasContent (some x) = true := by
  obtain ⟨fs, e, content, hfs, hget⟩ := responseHasContent_iff.mp h
  obtain ⟨rs, content', hrs, hget', hkeys⟩ := content_of_normalize hfs hget
  unfold enter at hrs
  split at hrs
  · obtain ⟨rs', content'', rfl, hget'', hkeys'⟩ := content_of_keepOne hrs hget'
    exact responseHasContent_of_keys hget'' (hkeys'.trans hkeys)
  · rw [hrs]
    exact responseHasContent_of_keys hget' hkeys

/-- Reduced responses are not reduced again. -/
theorem keepOne_normalize (x : Json) :
    onObject keepOne (normalizeResponseContent (onObject keepOne x)) =
      normalizeResponseContent (onObject keepOne x) := by
  cases x with
  | obj rs =>
    rw [onObject]
    cases hkeep : keepKey rs with
    | none =>
      rw [keepOne_of_none hkeep, normalize_obj, onObject, keepOne_of_none]
      rw [keepKey_eq_none] at *
      intro e he
      obtain ⟨e', he', rfl⟩ := List.mem_map.mp he
      rw [Bool.eq_false_iff]
      intro hcontent
      rcases of_mem_modifyAt he' with he' | ⟨x, hx, rfl⟩
      · have hback := hasContent_of_normalize (s := .item 0) hcontent
        rw [hkeep e' he'] at hback
        cases hback
      · have hback := hasContent_of_normalize (s := responsesStep) hcontent
        rw [hkeep _ hx] at hback
        cases hback
    | some keep =>
      obtain ⟨kept, hkept⟩ := get?_keepKey hkeep
      rw [keepOne_of_some hkeep hkept, normalize_single, onObject,
        keepOne_single (narrow_normalize (narrow_enter (narrow_keepResponse kept)))]
  | arr items =>
    simp only [onObject, normalize_arr]
  | null | bool | num | str =>
    simp only [onObject]
    rw [normalize_leaf rfl]

/-- **A second pass changes nothing.** -/
theorem normalize_again (x : Json) :
    normalizeResponseContent (normalizeResponseContent x) = normalizeResponseContent x := by
  induction hsize : size x using Nat.strong_induction_on generalizing x with
  | _ n ih =>
    subst hsize
    cases x with
    | null | bool | num | str =>
      have hleaf : ∀ x : Json, x.isLeaf = true →
          normalizeResponseContent (normalizeResponseContent x) = normalizeResponseContent x := by
        intro x h
        rw [normalize_leaf h, normalize_leaf h]
      exact hleaf _ rfl
    | arr items =>
      rw [normalize_arr, normalize_arr, List.map_map]
      congr 1
      refine List.map_congr_left fun x hx => ih _ ?_ x rfl
      have := size_mem_items hx
      simp only [size]
      omega
    | obj fs =>
      have hreduced : reduceMap ((reduceMap fs).map fun e => (e.1, normalizeResponseContent e.2)) =
          (reduceMap fs).map fun e => (e.1, normalizeResponseContent e.2) := by
        refine modifyAt_eq_self fun y hy => ?_
        rw [get?_map, get?_reduceMap, Option.map_map] at hy
        obtain ⟨x, -, rfl⟩ := Option.map_eq_some_iff.mp hy
        exact keepOne_normalize x
      rw [normalize_obj, normalize_obj, hreduced, List.map_map]
      congr 1
      refine List.map_congr_left fun e he => ?_
      exact Prod.ext rfl (ih _ (size_reduceMap he) e.2 rfl)

/-- **What the reduction leaves.** -/
theorem responses_reduced (v : Value) : ReducedForm (Doubled v.json) v.json where
  responses _ _ h := reduced_at v h
  outside _ h := outline_outside h
  again := normalize_again v.json

/-- The response kept under `responses` is an object with two entries, its content and a
response with content. -/
def doubledDocument : Json :=
  .obj [("responses", .obj [("responses", .obj [
    ("content", .obj [("application/json", .obj [])]),
    ("200", .obj [("content", .obj [("application/json", .obj [])])])])])]

theorem normalize_doubledDocument :
    normalizeResponseContent doubledDocument =
      .obj [("responses", .obj [("responses", .obj [
        ("200", .obj [("content", .obj [("application/json", .obj [])])])])])] := by
  have hempty : normalizeResponseContent (.obj []) = .obj [] := normalize_obj []
  have henter : enter (.key "responses") (.obj [("responses", .obj [
      ("content", .obj [("application/json", .obj [])]),
      ("200", .obj [("content", .obj [("application/json", .obj [])])])])]) =
      .obj [("responses", .obj [("content", .obj [("application/json", .obj [])]),
        ("200", .obj [("content", .obj [("application/json", .obj [])])])])] := by
    rfl
  have henter' : enter (.key "responses") (.obj [
      ("content", .obj [("application/json", .obj [])]),
      ("200", .obj [("content", .obj [("application/json", .obj [])])])]) =
      .obj [("200", .obj [("content", .obj [("application/json", .obj [])])])] := by
    rfl
  rw [doubledDocument, normalize_single, henter, normalize_single, henter', normalize_single,
    enter_of_ne (by decide), normalize_single, enter_of_ne (by decide), normalize_single,
    enter_of_ne (by decide), hempty]

theorem kept_response_loses_content : ¬ ∀ v : Value, ReducedForm (fun _ => False) v.json := by
  intro h
  have hform : ReducedForm (fun _ => False) doubledDocument :=
    h ⟨doubledDocument, proper_of_isProper (by decide)⟩
  obtain ⟨rs, hrs, hreduced⟩ := hform.responses [] _ (by rw [normalize_doubledDocument]; rfl)
  cases hrs
  obtain ⟨keep, kept, kept', -, hys, hmedia⟩ := hreduced.one ⟨_, List.mem_cons_self, rfl⟩ id
  obtain ⟨-, -, respObj', media, -, -, hobj, hget, -⟩ := hmedia id
  cases hys
  cases hobj
  cases hget

end Hoprd.RestApiClient.Responses
