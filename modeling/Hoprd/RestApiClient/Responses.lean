import Hoprd.Core.JsonTree

/-!
# One response for each operation (`rest-api-client/build.rs`)

The client generator takes one response with a body for an operation, the document has
several. `normalize_response_content` goes through the document and leaves one response
of each responses object in which some response has content, and one media type of its
content; then it goes on in what is left. Objects are found by their key alone:
whatever stands under `responses` is taken for the responses of an operation.

* `normalize_outside`: at a place outside the reduced responses, the value is the one
  that was there, rewritten in turn.
* `success_kept_iff`: an operation that documents a success keeps one exactly when no
  response has content, or a preferred one has, or the first that has is a success.
-/
namespace Hoprd.RestApiClient.Responses

open Core Core.Json Core.JsonSchema Core.IndexMap

/-! ## The rewriting -/

/-- mirrors rest-api-client/build.rs:196-204 -/
def responseHasContent : Option Json → Bool
  | some (.obj respObj) =>
    match get? "content" respObj with
    | some (.obj content) => !content.isEmpty
    | _ => false
  | _ => false

/-- mirrors rest-api-client/build.rs:143 -/
def preferred : List String := ["200", "201", "202", "204", "206", "207"]

/-- mirrors rest-api-client/build.rs:143-160 -/
def keepKey (responses : Fields) : Option String :=
  match preferred.find? fun key => responseHasContent (get? key responses) with
  | some key => some key
  | none => (responses.find? fun e => responseHasContent (some e.2)).map Prod.fst

/-- Of several media types, JSON if it is there, else the first.
mirrors rest-api-client/build.rs:167-178 -/
def keepMediaType (content : Fields) : Fields :=
  if 1 < content.length then
    match get? "application/json" content with
    | some jsonValue => [("application/json", jsonValue)]
    | none => content.take 1
  else content

/-- A change to an object; other values stay. -/
def onObject (f : Fields → Fields) : Json → Json
  | .obj map => .obj (f map)
  | value => value

/-- mirrors rest-api-client/build.rs:165-178 -/
def keepResponse : Json → Json := onObject (modifyAt "content" (onObject keepMediaType))

/-- mirrors rest-api-client/build.rs:143-181 -/
def keepOne (responses : Fields) : Fields :=
  match keepKey responses with
  | none => responses
  | some keep =>
    match get? keep responses with
    | none => responses
    | some kept => [(keep, keepResponse kept)]

/-- What is done to an object before its values.
mirrors rest-api-client/build.rs:142-182 -/
def reduceMap (map : Fields) : Fields := modifyAt "responses" (onObject keepOne) map

/-! ## Termination -/

theorem sizeFields_modifyAt {k : String} {f : Json → Json} (h : ∀ x, size (f x) ≤ size x)
    (fs : Fields) : sizeFields (modifyAt k f fs) ≤ sizeFields fs := by
  induction fs with
  | nil => exact Nat.le_refl _
  | cons e fs ih =>
    have he := h e.2
    unfold modifyAt
    split
    · simp only [sizeFields]
      omega
    · simp only [sizeFields]
      omega

theorem size_onObject {f : Fields → Fields} (h : ∀ fs, sizeFields (f fs) ≤ sizeFields fs)
    (x : Json) : size (onObject f x) ≤ size x := by
  cases x with
  | obj fs =>
    have := h fs
    simp only [onObject, size]
    omega
  | null | bool | num | str | arr => exact Nat.le_refl _

theorem sizeFields_keepMediaType (fs : Fields) : sizeFields (keepMediaType fs) ≤ sizeFields fs := by
  unfold keepMediaType
  split
  · split
    · next x hget =>
      have := size_mem_fields (mem_of_get? hget)
      simp only [sizeFields]
      omega
    · cases fs with
      | nil => exact Nat.le_refl _
      | cons e fs =>
        simp only [List.take_succ_cons, List.take_zero, sizeFields]
        omega
  · exact Nat.le_refl _

theorem size_keepResponse (x : Json) : size (keepResponse x) ≤ size x :=
  size_onObject (sizeFields_modifyAt (size_onObject sizeFields_keepMediaType)) x

theorem sizeFields_keepOne (fs : Fields) : sizeFields (keepOne fs) ≤ sizeFields fs := by
  unfold keepOne
  split
  · exact Nat.le_refl _
  · split
    · exact Nat.le_refl _
    · next kept hget =>
      have hkept := size_keepResponse kept
      have hmem : size kept ≤ sizeFields fs := size_mem_fields (mem_of_get? hget)
      simp only [sizeFields]
      omega

theorem size_reduceMap {fs : Fields} {e : String × Json} (h : e ∈ reduceMap fs) :
    size e.2 < size (.obj fs) := by
  have hmem := size_mem_fields h
  have hreduce : sizeFields (reduceMap fs) ≤ sizeFields fs :=
    sizeFields_modifyAt (size_onObject sizeFields_keepOne) fs
  simp only [size]
  omega

/-- mirrors rest-api-client/build.rs:134-190 -/
def normalizeResponseContent : Json → Json
  | .arr items => .arr (items.map normalizeResponseContent)
  | .obj map =>
    .obj ((reduceMap map).attach.map fun e => (e.val.1, normalizeResponseContent e.val.2))
  | value => value
termination_by value => size value
decreasing_by
  · have := size_mem_items ‹_ ∈ items›
    simp only [size]
    omega
  · exact size_reduceMap e.property

theorem normalize_arr (items : List Json) :
    normalizeResponseContent (.arr items) = .arr (items.map normalizeResponseContent) := by
  rw [normalizeResponseContent]

theorem normalize_obj (map : Fields) :
    normalizeResponseContent (.obj map) =
      .obj ((reduceMap map).map fun e => (e.1, normalizeResponseContent e.2)) := by
  rw [normalizeResponseContent]
  congr 1
  conv_rhs => rw [← List.attach_map_subtype_val (reduceMap map), List.map_map]
  rfl

theorem normalize_leaf {x : Json} (h : x.isLeaf = true) : normalizeResponseContent x = x := by
  cases x with
  | arr | obj => cases h
  | null | bool | num | str =>
    rw [normalizeResponseContent]
    all_goals simp

/-! ## The response kept -/

theorem keepKey_eq_none {rs : Fields} :
    keepKey rs = none ↔ ∀ e ∈ rs, responseHasContent (some e.2) = false := by
  constructor
  · intro h e he
    unfold keepKey at h
    split at h
    · cases h
    · rw [Option.map_eq_none_iff, List.find?_eq_none] at h
      simpa using h e he
  · intro h
    have hget : ∀ key, responseHasContent (get? key rs) = false := by
      intro key
      cases hkey : get? key rs with
      | none => rfl
      | some x => exact h _ (mem_of_get? hkey)
    have hpreferred : preferred.find? (fun key => responseHasContent (get? key rs)) = none := by
      rw [List.find?_eq_none]
      simp [hget]
    have hrest : rs.find? (fun e => responseHasContent (some e.2)) = none := by
      rw [List.find?_eq_none]
      intro e he
      simp [h e he]
    rw [keepKey, hpreferred, hrest]
    rfl

/-- The key comes from one of the two searches. -/
theorem keepKey_cases {rs : Fields} {keep : String} (h : keepKey rs = some keep) :
    preferred.find? (fun key => responseHasContent (get? key rs)) = some keep ∨
    (preferred.find? (fun key => responseHasContent (get? key rs)) = none ∧
      ∃ kept, rs.find? (fun e => responseHasContent (some e.2)) = some (keep, kept)) := by
  unfold keepKey at h
  split at h
  · next key hfind => exact .inl (h ▸ hfind)
  · next hnone =>
    obtain ⟨e, hfind, rfl⟩ := Option.map_eq_some_iff.mp h
    exact .inr ⟨hnone, e.2, hfind⟩

theorem keepOne_of_none {rs : Fields} (h : keepKey rs = none) : keepOne rs = rs := by
  rw [keepOne, h]

/-- The key is one of the responses. -/
theorem get?_keepKey {rs : Fields} {keep : String} (h : keepKey rs = some keep) :
    ∃ kept, get? keep rs = some kept := by
  cases hkey : get? keep rs with
  | some kept => exact ⟨kept, rfl⟩
  | none =>
    rcases keepKey_cases h with hfind | ⟨-, kept, hfind⟩
    · have hcontent := List.find?_some hfind
      simp [hkey, responseHasContent] at hcontent
    · exact (get?_eq_none.mp hkey _ (List.mem_of_find?_eq_some hfind) rfl).elim

theorem keepOne_of_some {rs : Fields} {keep : String} {kept : Json}
    (h : keepKey rs = some keep) (hget : get? keep rs = some kept) :
    keepOne rs = [(keep, keepResponse kept)] := by
  rw [keepOne, h]
  simp only [hget]

/-! ## The rewriting along a place -/

/-- From an operation to its responses. -/
def responsesStep : Step := .key "responses"

/-- What is done to a value before the rewriting goes into it. -/
def enter (s : Step) (x : Json) : Json :=
  if s = responsesStep then onObject keepOne x else x

theorem enter_of_ne {k : String} (h : k ≠ "responses") (x : Json) : enter (.key k) x = x := by
  have hne : Step.key k ≠ responsesStep := fun hk => h (Step.key.inj hk)
  rw [enter, if_neg hne]

/-- What the rewriting finds at a place when it gets there. -/
def follow : List Step → Json → Option Json
  | [], x => some x
  | s :: p, x => (child s x).bind fun y => follow p (enter s y)

theorem get?_reduceMap (k : String) (fs : Fields) :
    get? k (reduceMap fs) = (get? k fs).map (enter (.key k)) := by
  rw [reduceMap, get?_modifyAt]
  by_cases hk : "responses" = k
  · subst hk
    rfl
  · have henter : enter (.key k) = id := funext (enter_of_ne (Ne.symm hk))
    rw [if_neg hk, henter, Option.map_id]
    rfl

theorem child_normalize (s : Step) (x : Json) :
    child s (normalizeResponseContent x) =
      (child s x).map fun y => normalizeResponseContent (enter s y) := by
  cases x with
  | null | bool | num | str =>
    rw [normalize_leaf rfl]
    cases s <;> rfl
  | arr items =>
    rw [normalize_arr]
    cases s with
    | key k => rfl
    | item i =>
      have hne : Step.item i ≠ responsesStep := fun h => by cases h
      simp only [child, List.getElem?_map, enter, if_neg hne]
  | obj fs =>
    rw [normalize_obj]
    cases s with
    | key k => simp only [child, get?_map, get?_reduceMap, Option.map_map, Function.comp_def]
    | item i => rfl

theorem valueAt_normalize (p : List Step) (x : Json) :
    valueAt p (normalizeResponseContent x) = (follow p x).map normalizeResponseContent := by
  induction p generalizing x with
  | nil => rfl
  | cons s p ih =>
    rw [valueAt, follow, child_normalize]
    cases child s x with
    | none => rfl
    | some y => exact ih (enter s y)

/-! ## Outside the reduced responses -/

/-- No responses object with content stands on the way. -/
def Outside (p : List Step) (x : Json) : Prop :=
  ∀ q rs, q ++ [responsesStep] <+: p → valueAt (q ++ [responsesStep]) x = some (.obj rs) →
    ∀ e ∈ rs, responseHasContent (some e.2) = false

theorem Outside.child {s : Step} {p : List Step} {x y : Json} (h : Outside (s :: p) x)
    (hchild : Json.child s x = some y) : Outside p y := by
  intro q rs hq hrs
  apply h (s :: q) rs
  · simpa using hq
  · simpa [valueAt, hchild] using hrs

theorem enter_of_outside {s : Step} {p : List Step} {x y : Json} (h : Outside (s :: p) x)
    (hchild : Json.child s x = some y) : enter s y = y := by
  unfold enter
  split
  · next hs =>
    cases y with
    | obj rs =>
      have hnone := h [] rs (by simp [hs]) (by simp [valueAt, ← hs, hchild])
      rw [onObject, keepOne_of_none (keepKey_eq_none.mpr hnone)]
    | null | bool | num | str | arr => rfl
  · rfl

theorem follow_outside {p : List Step} {x : Json} (h : Outside p x) : follow p x = valueAt p x := by
  induction p generalizing x with
  | nil => rfl
  | cons s p ih =>
    cases hchild : child s x with
    | none => simp [follow, valueAt, hchild]
    | some y => simp [follow, valueAt, hchild, enter_of_outside h hchild, ih (h.child hchild)]

/-- At a place outside, the value that was there is rewritten. -/
theorem normalize_outside {p : List Step} {x : Json} (h : Outside p x) :
    valueAt p (normalizeResponseContent x) = (valueAt p x).map normalizeResponseContent := by
  rw [valueAt_normalize, follow_outside h]

theorem keys_normalize (fs : Fields) :
    ((reduceMap fs).map fun e => (e.1, normalizeResponseContent e.2)).map Prod.fst =
      fs.map Prod.fst := by
  rw [List.map_map, reduceMap]
  exact keys_modifyAt "responses" (onObject keepOne) fs

/-! ## Operations -/

/-- An object with responses, not inside the responses of another. -/
structure Operation (document : Json) where
  place : List Step
  responses : Fields
  outside : Outside place document
  found : valueAt (place ++ [responsesStep]) document = some (.obj responses)

/-- A 2xx status, or the range of them. -/
def isSuccess (status : String) : Bool :=
  match status.toList with
  | ['2', a, b] => (a.isDigit && b.isDigit) || (a == 'X' && b == 'X')
  | _ => false

def documentsSuccess (responses : Fields) : Bool := responses.any fun e => isSuccess e.1

/-- The operation documents a success after the rewriting. -/
def KeepsSuccess {document : Json} (op : Operation document) : Prop :=
  ∃ responses,
    valueAt (op.place ++ [responsesStep]) (normalizeResponseContent document) =
      some (.obj responses) ∧
    documentsSuccess responses = true

/-- No response has content, or a preferred one has, or the first that has is a success. -/
def SuccessFirst (responses : Fields) : Prop :=
  (∀ e ∈ responses, responseHasContent (some e.2) = false) ∨
  (∃ key ∈ preferred, responseHasContent (get? key responses) = true) ∨
  ∃ e, responses.find? (fun e => responseHasContent (some e.2)) = some e ∧ isSuccess e.1 = true

theorem documentsSuccess_keys {fs gs : Fields} (h : fs.map Prod.fst = gs.map Prod.fst) :
    documentsSuccess fs = documentsSuccess gs := by
  have hkeys : ∀ fs : Fields, documentsSuccess fs = (fs.map Prod.fst).any isSuccess :=
    fun fs => by rw [List.any_map]; rfl
  rw [hkeys, hkeys, h]

theorem isSuccess_preferred : ∀ key ∈ preferred, isSuccess key = true := by
  decide

/-- The responses of an operation, after the rewriting. -/
theorem valueAt_responses {document : Json} (op : Operation document) :
    valueAt (op.place ++ [responsesStep]) (normalizeResponseContent document) =
      some (normalizeResponseContent (.obj (keepOne op.responses))) := by
  have hfound := op.found
  rw [valueAt_snoc] at hfound
  obtain ⟨x, hx, hchild⟩ := Option.bind_eq_some_iff.mp hfound
  rw [valueAt_snoc, normalize_outside op.outside, hx]
  simp only [Option.map_some, Option.bind_some]
  rw [child_normalize, hchild]
  rfl

theorem keepsSuccess_iff {document : Json} (op : Operation document) :
    KeepsSuccess op ↔ documentsSuccess (keepOne op.responses) = true := by
  have hkeys := documentsSuccess_keys (keys_normalize (keepOne op.responses))
  unfold KeepsSuccess
  rw [valueAt_responses op, normalize_obj]
  constructor
  · rintro ⟨responses, heq, hsuccess⟩
    cases heq
    rwa [hkeys] at hsuccess
  · intro hsuccess
    exact ⟨_, rfl, hkeys.trans hsuccess⟩

/-- **When an operation keeps its success.** -/
theorem success_kept_iff {document : Json} (op : Operation document)
    (h : documentsSuccess op.responses = true) :
    KeepsSuccess op ↔ SuccessFirst op.responses := by
  rw [keepsSuccess_iff]
  cases hkeep : keepKey op.responses with
  | none =>
    rw [keepOne_of_none hkeep, h]
    exact iff_of_true rfl (.inl (keepKey_eq_none.mp hkeep))
  | some keep =>
    obtain ⟨kept, hget⟩ := get?_keepKey hkeep
    have hsingle : documentsSuccess (keepOne op.responses) = isSuccess keep := by
      rw [keepOne_of_some hkeep hget]
      simp [documentsSuccess]
    rw [hsingle]
    rcases keepKey_cases hkeep with hfind | ⟨hnone, kept', hfind⟩
    · have hmem := List.mem_of_find?_eq_some hfind
      have hcontent := List.find?_some hfind
      exact iff_of_true (isSuccess_preferred keep hmem) (.inr (.inl ⟨keep, hmem, hcontent⟩))
    · constructor
      · exact fun hsuccess => .inr (.inr ⟨_, hfind, hsuccess⟩)
      · rintro (hno | ⟨key, hmem, hkey⟩ | ⟨e, hfirst, hsuccess⟩)
        · rw [keepKey_eq_none.mpr hno] at hkeep
          cases hkeep
        · exact (List.find?_eq_none.mp hnone key hmem hkey).elim
        · rw [hfind] at hfirst
          obtain rfl := Option.some.inj hfirst
          exact hsuccess

/-- The responses of `POST /session/config/{id}`: a success without a body, errors
with one. -/
def sessionConfigResponses : Fields :=
  [("204", .obj [("description", .str "Successfully updated the configuration")]),
    ("400", .obj [("description", .str "Invalid configuration."),
      ("content", .obj [("application/json", .obj [])])])]

def sessionConfigDocument : Json :=
  .obj [("paths", .obj [("/session/config", .obj [("post",
    .obj [("responses", .obj sessionConfigResponses)])])])]

def sessionConfigOperation : Operation sessionConfigDocument where
  place := [.key "paths", .key "/session/config", .key "post"]
  responses := sessionConfigResponses
  outside := by
    intro q rs hq
    have hno : responsesStep ∉ [Step.key "paths", .key "/session/config", .key "post"] := by
      decide
    exact (hno (hq.subset (by simp))).elim
  found := rfl

theorem session_config_keeps_error : ¬ ∀ (document : Json) (op : Operation document),
    documentsSuccess op.responses = true → KeepsSuccess op := by
  intro h
  have hkeeps := h _ sessionConfigOperation (by decide)
  rw [keepsSuccess_iff] at hkeeps
  exact absurd hkeeps (by decide)

/-- With a body for the success, it is the one kept. -/
def okDocument : Json :=
  .obj [("paths", .obj [("/session", .obj [("get", .obj [("responses",
    .obj [("404", .obj [("content", .obj [("application/json", .obj [])])]),
      ("200", .obj [("content", .obj [("application/json", .obj [])])])])])])])]

def okOperation : Operation okDocument where
  place := [.key "paths", .key "/session", .key "get"]
  responses := [("404", .obj [("content", .obj [("application/json", .obj [])])]),
    ("200", .obj [("content", .obj [("application/json", .obj [])])])]
  outside := by
    intro q rs hq
    have hno : responsesStep ∉ [Step.key "paths", .key "/session", .key "get"] := by
      decide
    exact (hno (hq.subset (by simp))).elim
  found := rfl

theorem ok_kept : KeepsSuccess okOperation ↔ SuccessFirst okOperation.responses :=
  success_kept_iff okOperation (by decide)

end Hoprd.RestApiClient.Responses
