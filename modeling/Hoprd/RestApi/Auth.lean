import Hoprd.Core.Split
import Hoprd.Node.Cli
import Hoprd.RestApi.Error

/-!
# Authentication of API requests (`rest-api/src/middleware/auth.rs`)

`authenticate` is the middleware: with a token configured it looks for a header
that presents it, `Authorization: Bearer <token>` or `X-Auth-Token: <token>`.
The value it compares with is `api.auth` of the node's configuration, which
`serve_api` hands to the router unchanged, so what a request needs is decided by
`tryFrom` and this function together.

* `authenticate_token_iff`: a token forwards exactly the requests presenting it.
* `disable_wins_iff`: the flag that disables authentication wins over the file,
  but over a token only when there is none: the token is applied after it.

Header values are those of the `http` crate; `toStr` is its conversion to text.
-/
namespace Hoprd.RestApi

open Core (splitOnce splitOnce_eq_some_iff)
open Config (Auth CliArgs CliEnv HoprdConfig LibTypes applyAuth loadConfig tryFrom tryFrom_ok)

/-- Names in the lower case that the `http` crate keeps them in, repeated names
as repeated entries. -/
abbrev HeaderMap (V : Type) := List (String × V)

inductive Response where
  /-- On to the next middleware or the handler. -/
  | next
  | error (status : ApiErrorStatus)
  deriving DecidableEq, Repr

variable {V : Type} (toStr : V → Option String)

/-- The header presents the expected token.
mirrors rest-api/src/middleware/auth.rs:31-42 -/
def headerAuthorizes (expectedToken : String) (header : String × V) : Bool :=
  match toStr header.2 with
  | none => false
  | some value =>
    if header.1 = "authorization" then
      match splitOnce ' ' value.toList with
      | some (scheme, token) =>
        eqIgnoreAsciiCase (String.ofList scheme) "bearer" && String.ofList token == expectedToken
      | none => false
    else if header.1 = "x-auth-token" then value == expectedToken
    else false

/-- mirrors rest-api/src/middleware/auth.rs:16-50 -/
def authenticate (auth : Auth) (headers : HeaderMap V) : Response :=
  let isAuthorized := match auth with
    | .token expectedToken => headers.any (headerAuthorizes toStr expectedToken)
    | .none => true
  if !isAuthorized then .error .unauthorized else .next

/-! ## Which requests are forwarded -/

/-- The two ways to present a token, the scheme in any letter case. -/
inductive Presents (token : String) : String × V → Prop where
  | bearer (v : V) (scheme : String) (h : toStr v = some (scheme ++ " " ++ token))
      (hs : eqIgnoreAsciiCase scheme "bearer" = true) : Presents token ("authorization", v)
  | xAuthToken (v : V) (h : toStr v = some token) : Presents token ("x-auth-token", v)

theorem space_notMem_of_bearer {scheme : String} (h : eqIgnoreAsciiCase scheme "bearer" = true) :
    ' ' ∉ scheme.toList := by
  intro hm
  have h' := List.mem_map_of_mem (f := Char.toLower) hm
  rw [eq_of_beq h] at h'
  exact absurd h' (by decide)

theorem headerAuthorizes_iff (token : String) (header : String × V) :
    headerAuthorizes toStr token header = true ↔ Presents toStr token header := by
  obtain ⟨name, v⟩ := header
  constructor
  · intro h
    unfold headerAuthorizes at h
    split at h
    · cases h
    rename_i value hv
    split at h
    · rename_i hn
      obtain rfl : name = "authorization" := hn
      split at h
      · rename_i scheme tok hs
        rw [Bool.and_eq_true, beq_iff_eq] at h
        obtain ⟨hb, rfl⟩ := h
        have he : value = String.ofList scheme ++ " " ++ String.ofList tok :=
          String.toList_inj.1 (by simp [(splitOnce_eq_some_iff.1 hs).1])
        exact .bearer v (String.ofList scheme) (he ▸ hv) hb
      · cases h
    · split at h
      · rename_i hn
        obtain rfl : name = "x-auth-token" := hn
        rw [beq_iff_eq] at h
        exact .xAuthToken v (h ▸ hv)
      · cases h
  · intro h
    cases h with
    | bearer _ scheme hv hs =>
      have hsplit : splitOnce ' ' (scheme.toList ++ ' ' :: token.toList) =
          some (scheme.toList, token.toList) :=
        splitOnce_eq_some_iff.2 ⟨rfl, space_notMem_of_bearer hs⟩
      simp [headerAuthorizes, hv, hsplit, hs]
    | xAuthToken _ hv => simp [headerAuthorizes, hv]

theorem authenticate_none (headers : HeaderMap V) : authenticate toStr .none headers = .next := rfl

/-- A token forwards exactly the requests that present it. -/
theorem authenticate_token_iff (token : String) (headers : HeaderMap V) :
    authenticate toStr (.token token) headers = .next ↔
      ∃ header ∈ headers, Presents toStr token header := by
  have h : authenticate toStr (.token token) headers = .next ↔
      headers.any (headerAuthorizes toStr token) = true := by
    show (if (!headers.any (headerAuthorizes toStr token)) = true then _ else _) = _ ↔ _
    cases headers.any (headerAuthorizes toStr token) with
    | true => exact ⟨fun _ => rfl, fun _ => rfl⟩
    | false => exact ⟨nofun, nofun⟩
  rw [h, List.any_eq_true]
  simp only [headerAuthorizes_iff]

/-! ## From the options to the decision -/

section
variable {L : LibTypes} {T : Strategy.LeafTypes} (env : CliEnv L T)

theorem tryFrom_auth {args : CliArgs} {base cfg : HoprdConfig L T}
    (hbase : loadConfig env args = .ok base) (h : tryFrom env args = .ok cfg) :
    cfg.api.auth = applyAuth args base.api.auth := by
  obtain ⟨p, -, rfl⟩ := tryFrom_ok env hbase h
  rfl

/-- Authentication follows the options: switched off when the flag is given,
otherwise a supplied token is the one that is asked for. -/
structure DisableWins (args : CliArgs) (auth : Auth) : Prop where
  disabled : 0 < args.disableApiAuthentication →
    auth = .none ∧ ∀ headers, authenticate toStr auth headers = .next
  enabled : args.disableApiAuthentication = 0 → ∀ token, args.apiToken = some token →
    ∀ headers, authenticate toStr auth headers = .next ↔
      ∃ header ∈ headers, Presents toStr token header

theorem disableWins_applyAuth_iff (args : CliArgs) (auth : Auth) :
    DisableWins toStr args (applyAuth args auth) ↔
      args.disableApiAuthentication = 0 ∨ args.apiToken = none := by
  cases htoken : args.apiToken with
  | some token =>
    have ha : applyAuth args auth = .token token := by simp [applyAuth, htoken]
    rw [ha]
    constructor
    · intro h
      by_cases h0 : args.disableApiAuthentication = 0
      · exact .inl h0
      · cases (h.disabled (UInt8.pos_iff_ne_zero.2 h0)).1
    · intro h
      rcases h with h0 | h0
      · refine ⟨fun hlt => ?_, fun _ t ht headers => ?_⟩
        · rw [h0] at hlt; exact absurd hlt (by decide)
        · rw [htoken] at ht
          obtain rfl := Option.some.inj ht
          exact authenticate_token_iff toStr token headers
      · cases h0
  | none =>
    refine ⟨fun _ => .inr rfl, fun _ => ⟨fun hlt => ?_, fun _ t ht => ?_⟩⟩
    · have ha : applyAuth args auth = .none := by
        by_cases hn : auth = .none <;> simp [applyAuth, htoken, hlt, hn]
      rw [ha]
      exact ⟨rfl, authenticate_none toStr⟩
    · rw [htoken] at ht; cases ht

/-- **Disabling wins** for a successful run exactly when the flag is absent or no
token is supplied with it. -/
theorem disable_wins_iff (args : CliArgs) (cfg : HoprdConfig L T)
    (h : tryFrom env args = .ok cfg) :
    DisableWins toStr args cfg.api.auth ↔
      args.disableApiAuthentication = 0 ∨ args.apiToken = none := by
  obtain ⟨base, hbase, -⟩ := Core.bind_ok h
  rw [tryFrom_auth env hbase h]
  exact disableWins_applyAuth_iff toStr args base.api.auth

end

/-! ## The flag together with a token -/

open Config (noArgs plainEnv plainConfig)

def disableWithToken : CliArgs :=
  { noArgs with disableApiAuthentication := 1, apiToken := some "correct-horse" }

/-- The flag is given, and a request without headers is turned away. -/
theorem token_overrides_disable :
    ∃ cfg, tryFrom (plainEnv (plainConfig .none 3001)) disableWithToken = .ok cfg ∧
      cfg.api.auth = .token "correct-horse" ∧
      authenticate some cfg.api.auth [] = .error .unauthorized ∧
      ¬DisableWins some disableWithToken cfg.api.auth :=
  ⟨_, rfl, rfl, rfl, fun h => nomatch (h.disabled (by decide)).1⟩

/-- The flag alone, over a file with a token. -/
def disableAlone : CliArgs :=
  { noArgs with
    disableApiAuthentication := 1
    configurationFilePath := some "hoprd.cfg.yaml" }

theorem disable_alone_wins :
    DisableWins some disableAlone Auth.none ↔
      disableAlone.disableApiAuthentication = 0 ∨ disableAlone.apiToken = none :=
  disable_wins_iff some (plainEnv (plainConfig (.token "correct-horse") 3001)) disableAlone
    (plainConfig .none 3001) rfl

end Hoprd.RestApi
