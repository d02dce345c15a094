import Hoprd.Core.Routing
import Hoprd.RestApi.Auth

/-!
# The router of the REST API (`rest-api/src/lib.rs`, `build_api`)

The checks, the metrics and the API proper are three routers, each with its own layers,
put together into one. Routers are those of a library, `axum`, of which `handler_runs_iff`
assumes what `Library.Documented` says. The layers of other packages are `Passing`: one
answers a request itself, or forwards it with the headers as `authenticate` reads them. A
handler is called with what its extractors take from the request; what they refuse, and the
answer then, is the library's (`rejection`).

* `buildApi_routes`: no two routes clash, and the routes are those of the operations that
  are documented, each with its layers.
* `handler_runs_iff`: a handler runs exactly for the requests that call its operation in
  the document of this configuration, that are authorised where the document says so, that
  no layer in front answers and no extractor of the handler refuses.

The pages that show the document (`/swagger-ui`, `/scalar`, `/api-docs`) are routers of
other packages and left out.
-/
namespace Hoprd.RestApi.Routes

open Core.Routing
open Config (Auth)

/-! ## The document -/

inductive Handler where
  | startedz | readyz | healthyz | eligiblez | metrics
  | addresses | balances | withdraw
  | showPeerInfo | pingPeer
  | listChannels | openChannel | showChannel | closeChannel | fundChannel
  | redeemTickets | showTicketStatistics
  | price | probability | connected | announced | graph
  | version | configuration | info | status
  | sessionConfig | adjustSession | createClient | createClientExplicitPath | listClients
  | closeClient
  deriving DecidableEq, Repr

/-- mirrors rest-api/src/lib.rs:59-60 -/
def BASE_PATH : Pattern := [.literal "api", .literal "v4"]

structure Operation where
  method : Method
  path : Pattern
  /-- A token is asked for. -/
  security : Bool

/-- A path of one segment that is documented without security. -/
def check (name : String) : Operation := ⟨.get, [.literal name], false⟩

/-- A path below `BASE_PATH`, documented with the two ways to present a token. -/
def secured (method : Method) (path : Pattern) : Operation := ⟨method, BASE_PATH ++ path, true⟩

/-- What the attribute `utoipa::path` of the handler says. -/
def operation : Handler → Operation
  | .startedz => check "startedz"
  | .readyz => check "readyz"
  | .healthyz => check "healthyz"
  | .eligiblez => check "eligiblez"
  | .metrics => ⟨.get, [.literal "metrics"], true⟩
  | .addresses => secured .get [.literal "account", .literal "addresses"]
  | .balances => secured .get [.literal "account", .literal "balances"]
  | .withdraw => secured .post [.literal "account", .literal "withdraw"]
  | .showPeerInfo => secured .get [.literal "peers", .param "address"]
  | .pingPeer => secured .post [.literal "peers", .param "address", .literal "ping"]
  | .listChannels => secured .get [.literal "channels"]
  | .openChannel => secured .post [.literal "channels"]
  | .showChannel => secured .get [.literal "channels", .param "address"]
  | .closeChannel => secured .delete [.literal "channels", .param "address"]
  | .fundChannel => secured .post [.literal "channels", .param "address", .literal "fund"]
  | .redeemTickets => secured .post [.literal "tickets", .literal "redeem"]
  | .showTicketStatistics => secured .get [.literal "tickets", .literal "statistics"]
  | .price => secured .get [.literal "network", .literal "price"]
  | .probability => secured .get [.literal "network", .literal "probability"]
  | .connected => secured .get [.literal "network", .literal "connected"]
  | .announced => secured .get [.literal "network", .literal "announced"]
  | .graph => secured .get [.literal "network", .literal "graph"]
  | .version => secured .get [.literal "node", .literal "version"]
  | .configuration => secured .get [.literal "node", .literal "configuration"]
  | .info => secured .get [.literal "node", .literal "info"]
  | .status => secured .get [.literal "node", .literal "status"]
  | .sessionConfig => secured .get [.literal "session", .literal "config", .param "id"]
  | .adjustSession => secured .post [.literal "session", .literal "config", .param "id"]
  | .createClient => secured .post [.literal "session", .param "protocol"]
  | .createClientExplicitPath =>
    secured .post [.literal "session", .param "protocol", .literal "explicit-path"]
  | .listClients => secured .get [.literal "session", .param "protocol"]
  | .closeClient =>
    secured .delete [.literal "session", .param "protocol", .param "ip", .param "port"]

/-- mirrors rest-api/src/lib.rs:119-192 -/
def baseApiDoc : List Handler :=
  [.addresses, .balances, .withdraw, .closeChannel, .fundChannel, .listChannels, .openChannel,
    .showChannel, .eligiblez, .healthyz, .readyz, .startedz, .price, .probability, .connected,
    .announced, .graph, .configuration, .info, .status, .version, .pingPeer, .showPeerInfo,
    .metrics, .createClient, .listClients, .adjustSession, .sessionConfig, .closeClient,
    .redeemTickets, .showTicketStatistics]

/-- mirrors rest-api/src/lib.rs:200-222 -/
def openapi (enabled : Bool) : List Handler :=
  if enabled then baseApiDoc ++ [.createClientExplicitPath] else baseApiDoc

/-! ## The layers -/

variable {V A : Type} (toStr : V → Option String)

/-- The path is the one that is still to be routed. -/
structure Request (V : Type) where
  method : Method
  path : List String
  query : String
  headers : HeaderMap V
  body : List UInt8

def requestView : View (Request V) where
  method := Request.method
  path := Request.path
  drop n q := { q with path := q.path.drop n }

/-- The headers as `authenticate` reads them. -/
def seen (headers : HeaderMap V) : List (String × Option String) :=
  headers.map fun header => (header.1, toStr header.2)

/-- A layer that forwards what `authenticate` reads as it came. -/
structure Passing (A : Type) extends Layer (Request V) A where
  keeps : ∀ q, seen toStr (forward q).headers = seen toStr q.headers

/-- The layers of `tower_http`, with what `build_api` gives them. -/
structure Layers (A : Type) where
  trace : Passing toStr A
  corsGet : Passing toStr A
  cors : Passing toStr A
  compression : Passing toStr A
  acceptText : Passing toStr A
  acceptJson : Passing toStr A
  sensitive : Passing toStr A

/-- The request is counted when its answer is known, and is forwarded as it is.
mirrors rest-api/src/middleware/prometheus.rs:37-75 -/
def record : Passing toStr A where
  answers _ := none
  forward q := q
  after _ a := a
  keeps _ := rfl

/-- Nested routes are given the path without the prefix. -/
def strip (pre : Pattern) : Passing toStr A where
  toLayer := requestView.strip pre
  keeps _ := rfl

/-- The middleware that checks the token, `reply` being `into_response` of a status.
mirrors rest-api/src/middleware/auth.rs:16-50 -/
def authLayer (reply : ApiErrorStatus → A) (auth : Auth) : Layer (Request V) A where
  answers q :=
    match authenticate toStr auth q.headers with
    | .next => none
    | .error s => some (reply s)
  forward q := q
  after _ a := a

variable {toStr} (layers : Layers toStr A)

/-- What is common to the metrics and the API: the outermost layer first.
mirrors rest-api/src/lib.rs:381-397, 450-471 -/
def serviceBuilder (cors accept : Passing toStr A) : List (Passing toStr A) :=
  [layers.trace, cors, record toStr, layers.compression, accept, layers.sensitive]

/-- The layers in front of the check of the token. -/
def front : Handler → List (Passing toStr A)
  | .startedz | .readyz | .healthyz | .eligiblez => [layers.corsGet]
  | .metrics => serviceBuilder layers layers.corsGet layers.acceptText
  | _ => strip toStr BASE_PATH :: serviceBuilder layers layers.cors layers.acceptJson

/-! ## The handlers -/

/-- An argument of a handler that is taken from the request. -/
inductive Extractor where
  | path | query | json
  deriving DecidableEq, Repr

/-- The arguments of each handler but its `State`. -/
def extractors : Handler → List Extractor
  | .withdraw | .openChannel | .redeemTickets => [.json]
  | .showPeerInfo | .pingPeer | .sessionConfig | .listClients | .closeClient => [.path]
  | .listChannels | .showTicketStatistics | .graph => [.query]
  | .showChannel | .closeChannel => [.path, .query]
  | .fundChannel | .adjustSession | .createClient | .createClientExplicitPath => [.path, .json]
  | .startedz | .readyz | .healthyz | .eligiblez | .metrics | .addresses | .balances | .price
  | .probability | .connected | .announced | .version | .configuration | .info | .status => []

/-- What serves a request for a handler: the answer of the first extractor that refuses it, or
the handler, with its answer `run`. -/
def service (rejection : Handler → Extractor → Request V → Option A) (run : Handler → Request V → A)
    (h : Handler) (q : Request V) : A × List Handler :=
  match (extractors h).findSome? fun e => rejection h e q with
  | some a => (a, [])
  | none => (run h q, [h])

theorem mem_service {rejection : Handler → Extractor → Request V → Option A}
    {run : Handler → Request V → A} {g h : Handler} {q : Request V} :
    g ∈ (service rejection run h q).2 ↔ h = g ∧ ∀ e ∈ extractors h, rejection h e q = none := by
  unfold service
  split
  · next a hsome =>
    refine ⟨nofun, fun hg => ?_⟩
    rw [List.findSome?_eq_none_iff.mpr hg.2] at hsome
    cases hsome
  · next hnone =>
    rw [List.mem_singleton]
    exact ⟨fun hg => ⟨hg.symm, List.findSome?_eq_none_iff.mp hnone⟩, fun hg => hg.1.symm⟩

/-! ## The router -/

variable (axum : Library (Request V) A Handler)

/-- The layers of a service builder, which stand before what the router had. -/
def withLayers (added : List (Passing toStr A)) (router : axum.Router) : axum.Router :=
  added.foldr (fun l router => axum.layer router l.toLayer) router

/-- mirrors rest-api/src/lib.rs:476-488 -/
def explicitPathRouter (enabled : Bool) : Option axum.Router :=
  if enabled then
    axum.route axum.new [.literal "session", .param "protocol", .literal "explicit-path"] .post
      .createClientExplicitPath
  else some axum.new

/-- mirrors rest-api/src/lib.rs:354-357 -/
def checks : List (Pattern × Method × Handler) :=
  [([.literal "startedz"], .get, .startedz),
    ([.literal "readyz"], .get, .readyz),
    ([.literal "healthyz"], .get, .healthyz),
    ([.literal "eligiblez"], .get, .eligiblez)]

/-- mirrors rest-api/src/lib.rs:403-436 -/
def beforeExplicitPath : List (Pattern × Method × Handler) :=
  [([.literal "account", .literal "addresses"], .get, .addresses),
    ([.literal "account", .literal "balances"], .get, .balances),
    ([.literal "account", .literal "withdraw"], .post, .withdraw),
    ([.literal "peers", .param "address"], .get, .showPeerInfo),
    ([.literal "channels"], .get, .listChannels),
    ([.literal "channels"], .post, .openChannel),
    ([.literal "channels", .param "address"], .get, .showChannel),
    ([.literal "channels", .param "address"], .delete, .closeChannel),
    ([.literal "channels", .param "address", .literal "fund"], .post, .fundChannel),
    ([.literal "tickets", .literal "redeem"], .post, .redeemTickets),
    ([.literal "tickets", .literal "statistics"], .get, .showTicketStatistics),
    ([.literal "network", .literal "price"], .get, .price),
    ([.literal "network", .literal "probability"], .get, .probability),
    ([.literal "network", .literal "connected"], .get, .connected),
    ([.literal "network", .literal "announced"], .get, .announced),
    ([.literal "network", .literal "graph"], .get, .graph),
    ([.literal "node", .literal "version"], .get, .version),
    ([.literal "node", .literal "configuration"], .get, .configuration),
    ([.literal "node", .literal "info"], .get, .info),
    ([.literal "node", .literal "status"], .get, .status),
    ([.literal "peers", .param "address", .literal "ping"], .post, .pingPeer),
    ([.literal "session", .literal "config", .param "id"], .get, .sessionConfig),
    ([.literal "session", .literal "config", .param "id"], .post, .adjustSession),
    ([.literal "session", .param "protocol"], .post, .createClient)]

/-- mirrors rest-api/src/lib.rs:438-442 -/
def afterExplicitPath : List (Pattern × Method × Handler) :=
  [([.literal "session", .param "protocol"], .get, .listClients),
    ([.literal "session", .param "protocol", .param "ip", .param "port"], .delete, .closeClient)]

/-- mirrors rest-api/src/lib.rs:376-399 -/
def metricsRouter (reply : ApiErrorStatus → A) (auth : Auth) : Option axum.Router := do
  let router ← axum.route axum.new [.literal "metrics"] .get .metrics
  return withLayers axum (serviceBuilder layers layers.corsGet layers.acceptText)
    (axum.layer router (authLayer toStr reply auth))

/-- mirrors rest-api/src/lib.rs:346-474 -/
def buildApi (reply : ApiErrorStatus → A) (auth : Auth) (enabled : Bool) : Option axum.Router := do
  let check ← axum.routeAll axum.new checks
  let metrics ← metricsRouter layers axum reply auth
  let api ← axum.routeAll axum.new beforeExplicitPath
  let explicit ← explicitPathRouter axum enabled
  let api ← axum.merge api explicit
  let api ← axum.routeAll api afterExplicitPath
  let router ← axum.merge axum.new (withLayers axum [layers.corsGet] check)
  let router ← axum.merge router metrics
  axum.nest router BASE_PATH
    (withLayers axum (serviceBuilder layers layers.cors layers.acceptJson)
      (axum.layer api (authLayer toStr reply auth)))

/-! ## The routes -/

def explicitPath (enabled : Bool) : List (Pattern × Method × Handler) :=
  if enabled then
    [([.literal "session", .param "protocol", .literal "explicit-path"], .post,
      .createClientExplicitPath)]
  else []

/-- The routes below `BASE_PATH`. -/
def apiRoutes (enabled : Bool) : List (Pattern × Method × Handler) :=
  beforeExplicitPath ++ explicitPath enabled ++ afterExplicitPath

/-- The operations in the order of their routes. -/
def served (enabled : Bool) : List Handler :=
  (checks.map fun r => r.2.2) ++ .metrics :: (apiRoutes enabled).map fun r => r.2.2

def routeOf (reply : ApiErrorStatus → A) (auth : Auth) (h : Handler) :
    Route (Request V) A Handler where
  pattern := (operation h).path
  method := (operation h).method
  layers := (front layers h).map Passing.toLayer ++
    if (operation h).security then [authLayer toStr reply auth] else []
  handler := h

def documented (h : Handler) : Pattern × Method := ((operation h).path, (operation h).method)

/-- A route of the source is documented for its handler. -/
theorem documented_served (enabled : Bool) :
    (served enabled).map documented =
      (checks.map fun r => (r.1, r.2.1)) ++ ([.literal "metrics"], .get) ::
        ((apiRoutes enabled).map fun r => (r.1, r.2.1)).map fun r => (BASE_PATH ++ r.1, r.2) := by
  cases enabled with
  | true => rfl
  | false => rfl

theorem served_apart (enabled : Bool) : Apart ((served enabled).map documented) := by
  cases enabled with
  | true => decide +kernel
  | false => decide +kernel

theorem served_perm (enabled : Bool) : (served enabled).Perm (openapi enabled) := by
  cases enabled with
  | true => decide
  | false => decide

theorem keys_of_plain {axum : Library (Request V) A Handler} {router : axum.Router}
    {rs : List (Pattern × Method × Handler)}
    (h : axum.routes router = rs.map fun r => ⟨r.1, r.2.1, [], r.2.2⟩) :
    axum.keys router = rs.map fun r => (r.1, r.2.1) := by
  rw [Library.keys, h, List.map_map]
  rfl

section
variable {axum} (haxum : axum.Documented requestView)
include haxum

theorem routes_withLayers (added : List (Passing toStr A)) (router : axum.Router) :
    axum.routes (withLayers axum added router) = (axum.routes router).map fun r =>
      { r with layers := added.map Passing.toLayer ++ r.layers } := by
  induction added with
  | nil => exact (List.map_id _).symm
  | cons l added ih =>
    show axum.routes (axum.layer (withLayers axum added router) l.toLayer) = _
    rw [haxum.layer, ih, List.map_map]
    rfl

theorem keys_withLayers (added : List (Passing toStr A)) (router : axum.Router) :
    axum.keys (withLayers axum added router) = axum.keys router := by
  rw [Library.keys, Library.keys, routes_withLayers haxum, List.map_map]
  rfl

theorem exists_explicitPathRouter (enabled : Bool) :
    ∃ router, explicitPathRouter axum enabled = some router ∧
      axum.routes router = (explicitPath enabled).map fun r => ⟨r.1, r.2.1, [], r.2.2⟩ := by
  cases enabled with
  | false => exact ⟨axum.new, rfl, haxum.new⟩
  | true =>
    have hapart : Apart ((explicitPath true).map fun r => (r.1, r.2.1)) :=
      List.pairwise_singleton _ _
    obtain ⟨router, hrouter, hroutes⟩ := haxum.exists_new hapart
    refine ⟨router, ?_, hroutes⟩
    rw [← hrouter]
    simp [explicitPathRouter, explicitPath, Library.routeAll]

theorem exists_metricsRouter (reply : ApiErrorStatus → A) (auth : Auth) :
    ∃ router, metricsRouter layers axum reply auth = some router ∧
      axum.routes router = [routeOf layers reply auth .metrics] := by
  have hkeys : axum.keys axum.new = [] := by
    rw [Library.keys, haxum.new]
    rfl
  obtain ⟨router, hrouter, hroutes⟩ := haxum.route axum.new [.literal "metrics"] .get .metrics
    (by rw [hkeys]; exact List.pairwise_singleton _ _)
  refine ⟨withLayers axum (serviceBuilder layers layers.corsGet layers.acceptText)
    (axum.layer router (authLayer toStr reply auth)), ?_, ?_⟩
  · rw [metricsRouter, hrouter]
    rfl
  · rw [routes_withLayers haxum, haxum.layer, hroutes, haxum.new]
    rfl

/-- No two routes clash, and each has the layers of its router. -/
theorem buildApi_routes (reply : ApiErrorStatus → A) (auth : Auth) (enabled : Bool) :
    ∃ router, buildApi layers axum reply auth enabled = some router ∧
      axum.routes router = (served enabled).map (routeOf layers reply auth) := by
  have hserved := served_apart enabled
  rw [documented_served, List.append_cons] at hserved
  obtain ⟨hchecks, hapi, -⟩ := List.pairwise_append.mp hserved
  have hall := (apart_under BASE_PATH).mp hapi
  rw [apiRoutes, List.map_append, List.map_append] at hall
  have hbefore := (List.pairwise_append.mp hall).1
  -- the routes of each router, without layers
  obtain ⟨check, hcheck, hcheckRoutes⟩ := haxum.exists_new (List.pairwise_append.mp hchecks).1
  obtain ⟨metrics, hmetrics, hmetricsRoutes⟩ := exists_metricsRouter layers haxum reply auth
  obtain ⟨api₁, hadd₁, hroutes₁⟩ := haxum.exists_new (List.pairwise_append.mp hbefore).1
  obtain ⟨explicit, hexplicit, hexplicitRoutes⟩ := exists_explicitPathRouter haxum enabled
  have hkeys₁ := keys_of_plain hroutes₁
  have hkeysExplicit := keys_of_plain hexplicitRoutes
  obtain ⟨api₂, hadd₂, hroutes₂⟩ := haxum.merge api₁ explicit
    (by rwa [hkeys₁, hkeysExplicit])
  have hkeys₂ : axum.keys api₂ = (beforeExplicitPath.map fun r => (r.1, r.2.1)) ++
      (explicitPath enabled).map fun r => (r.1, r.2.1) := by
    rw [Library.keys_of_routes hroutes₂, ← Library.keys, ← Library.keys, hkeys₁, hkeysExplicit]
  obtain ⟨api, hadd, hroutes⟩ := haxum.exists_routeAll api₂ (by rwa [hkeys₂])
  have happ : axum.routes api = (apiRoutes enabled).map fun r => ⟨r.1, r.2.1, [], r.2.2⟩ := by
    rw [hroutes, hroutes₂, hroutes₁, hexplicitRoutes, apiRoutes, List.map_append, List.map_append]
  -- and all of them together
  have hnew : axum.keys axum.new = [] := by
    rw [Library.keys, haxum.new]
    rfl
  obtain ⟨first, hfirst, hfirstRoutes⟩ := haxum.merge axum.new
    (withLayers axum [layers.corsGet] check)
    (by rw [hnew, keys_withLayers haxum, keys_of_plain hcheckRoutes]
        exact (List.pairwise_append.mp hchecks).1)
  have hfirstKeys : axum.keys first = checks.map fun r => (r.1, r.2.1) := by
    rw [Library.keys_of_routes hfirstRoutes, ← Library.keys, ← Library.keys, hnew,
      keys_withLayers haxum, keys_of_plain hcheckRoutes]
    rfl
  obtain ⟨second, hsecond, hsecondRoutes⟩ := haxum.merge first metrics
    (by rw [hfirstKeys, Library.keys, hmetricsRoutes]; exact hchecks)
  have hsecondKeys : axum.keys second =
      (checks.map fun r => (r.1, r.2.1)) ++ [([.literal "metrics"], .get)] := by
    rw [Library.keys_of_routes hsecondRoutes, ← Library.keys, hfirstKeys, hmetricsRoutes]
    rfl
  obtain ⟨router, hrouter, hrouterRoutes⟩ := haxum.nest second BASE_PATH
    (withLayers axum (serviceBuilder layers layers.cors layers.acceptJson)
      (axum.layer api (authLayer toStr reply auth)))
    (by rw [hsecondKeys, keys_withLayers haxum, haxum.keys_layer, keys_of_plain happ]
        exact hserved)
  refine ⟨router, ?_, ?_⟩
  · unfold buildApi
    simp only [hcheck, hmetrics, hadd₁, hexplicit, hadd₂, hadd, hfirst, hsecond, hrouter,
      Option.bind_eq_bind, Option.bind_some]
  · rw [hrouterRoutes, hsecondRoutes, hfirstRoutes, haxum.new, routes_withLayers haxum,
      hcheckRoutes, hmetricsRoutes, routes_withLayers haxum, haxum.layer, happ]
    cases enabled with
    | true => rfl
    | false => rfl

end

/-! ## What runs -/

/-- The request calls the operation of `h` in the document: its path is the most specific one
for the request. -/
structure Calls (enabled : Bool) (q : Request V) (h : Handler) : Prop where
  listed : h ∈ openapi enabled
  path : accepts (operation h).path q.path = true
  method : (operation h).method = q.method ∨ q.method = .head ∧ (operation h).method = .get
  first : ∀ g ∈ openapi enabled, accepts (operation g).path q.path = true →
    before (operation g).path (operation h).path = false

theorem headerAuthorizes_seen (token : String) (header : String × V) :
    headerAuthorizes toStr token header =
      headerAuthorizes id token (header.1, toStr header.2) := by
  simp [headerAuthorizes]

/-- Only what is seen of the headers counts. -/
theorem authenticate_seen (auth : Auth) (headers : HeaderMap V) :
    authenticate toStr auth headers = authenticate id auth (seen toStr headers) := by
  cases auth with
  | none => rfl
  | token token =>
    have hsame : headerAuthorizes toStr token =
        headerAuthorizes id token ∘ fun header => (header.1, toStr header.2) :=
      funext (headerAuthorizes_seen token)
    simp only [authenticate, seen, List.any_map, hsame]

theorem forwarded_keeps (added : List (Passing toStr A)) (q : Request V) :
    seen toStr (forwarded (added.map Passing.toLayer) q).headers = seen toStr q.headers := by
  induction added generalizing q with
  | nil => rfl
  | cons l added ih => exact (ih _).trans (l.keeps q)

/-- The check of the token is the last of the layers, and lets through what it would let
through at the beginning. -/
theorem passes_routeOf {reply : ApiErrorStatus → A} {auth : Auth} {h : Handler} {q : Request V} :
    passes (routeOf layers reply auth h).layers q ↔
      passes ((front layers h).map Passing.toLayer) q ∧
        ((operation h).security = true → authenticate toStr auth q.headers = .next) := by
  rw [routeOf, passes_append]
  refine and_congr_right fun _ => ?_
  cases (operation h).security with
  | false => simp [passes]
  | true =>
    have hsame : authenticate toStr auth
        (forwarded ((front layers h).map Passing.toLayer) q).headers =
          authenticate toStr auth q.headers := by
      rw [authenticate_seen, forwarded_keeps, ← authenticate_seen]
    simp only [if_true, passes, authLayer, hsame, and_true, true_implies]
    cases authenticate toStr auth q.headers with
    | next => simp
    | error s => simp

/-- The check of the token forwards a request as it is. -/
theorem forwarded_routeOf {reply : ApiErrorStatus → A} {auth : Auth} {h : Handler}
    {q : Request V} :
    forwarded (routeOf layers reply auth h).layers q =
      forwarded ((front layers h).map Passing.toLayer) q := by
  unfold forwarded routeOf
  rw [List.foldl_append]
  cases (operation h).security with
  | false => rfl
  | true => rfl

variable {axum} in
/-- **What runs for a request.** -/
theorem handler_runs_iff (haxum : axum.Documented requestView) (reply : ApiErrorStatus → A)
    (auth : Auth) (enabled : Bool) :
    ∃ router, buildApi layers axum reply auth enabled = some router ∧
      ∀ rejection run q h, h ∈ (axum.serve router (service rejection run) q).2 ↔
        Calls enabled q h ∧ passes ((front layers h).map Passing.toLayer) q ∧
          ((operation h).security = true → authenticate toStr auth q.headers = .next) ∧
          ∀ e ∈ extractors h,
            rejection h e (forwarded ((front layers h).map Passing.toLayer) q) = none := by
  obtain ⟨router, hrouter, hroutes⟩ := buildApi_routes layers haxum reply auth enabled
  refine ⟨router, hrouter, fun rejection run q h => ?_⟩
  have hmem : ∀ r, r ∈ axum.routes router ↔
      ∃ g ∈ openapi enabled, routeOf layers reply auth g = r := by
    intro r
    rw [hroutes, List.mem_map]
    simp only [(served_perm enabled).mem_iff]
  have hhead : ∀ r ∈ axum.routes router, r.method ≠ .head := by
    intro r hr
    obtain ⟨g, -, rfl⟩ := (hmem r).mp hr
    cases g <;> nofun
  rw [haxum.ran_iff hhead]
  simp only [mem_service]
  constructor
  · rintro ⟨r, hchosen, hpasses, rfl, haccepts⟩
    obtain ⟨g, hlisted, rfl⟩ := (hmem r).mp hchosen.mem
    obtain ⟨hfront, hauth⟩ := (passes_routeOf layers).mp hpasses
    rw [forwarded_routeOf] at haccepts
    refine ⟨⟨hlisted, hchosen.accepts, hchosen.answers, fun g' hg' => ?_⟩, hfront, hauth, haccepts⟩
    exact hchosen.first _ ((hmem _).mpr ⟨g', hg', rfl⟩)
  · rintro ⟨hcalls, hfront, hauth, haccepts⟩
    refine ⟨routeOf layers reply auth h, ⟨(hmem _).mpr ⟨h, hcalls.listed, rfl⟩, hcalls.path,
      hcalls.method, fun s hs => ?_⟩, (passes_routeOf layers).mpr ⟨hfront, hauth⟩, rfl, ?_⟩
    · obtain ⟨g, hlisted, rfl⟩ := (hmem s).mp hs
      exact hcalls.first g hlisted
    · rw [forwarded_routeOf]
      exact haccepts

/-! ## A withdrawal -/

/-- A layer that forwards every request and answer. -/
def plainLayer : Passing some Nat := ⟨⟨fun _ => none, id, fun _ a => a⟩, fun _ => rfl⟩

/-- Preflight requests are answered. -/
def corsLayer : Passing some Nat :=
  ⟨⟨fun q => if q.method = .options then some 200 else none, id, fun _ a => a⟩, fun _ => rfl⟩

/-- The answer has to be one that the request accepts, if it says what it accepts. -/
def acceptLayer (mime : String) : Passing some Nat where
  answers q :=
    let accepted := q.headers.filter fun header => header.1 == "accept"
    if accepted = [] ∨ ("accept", "*/*") ∈ accepted ∨ ("accept", mime) ∈ accepted then none
    else some 406
  forward := id
  after _ a := a
  keeps _ := rfl

def plainLayers : Layers some Nat where
  trace := plainLayer
  corsGet := corsLayer
  cors := corsLayer
  compression := plainLayer
  acceptText := acceptLayer "text/plain"
  acceptJson := acceptLayer "application/json"
  sensitive := plainLayer

def asciiBytes (text : String) : List UInt8 := text.toList.map fun c => c.toNat.toUInt8

def withdrawBody : String :=
  "\x7b\"amount\":\"1 wxHOPR\",\"address\":\"0xb4ce7e6e36ac8b01a974725d5ba730af2b156fbe\"\x7d"

/-- A body has to be marked as JSON, and be the one of a withdrawal. -/
def plainRejection (_ : Handler) (e : Extractor) (q : Request String) : Option Nat :=
  match e with
  | .path | .query => none
  | .json =>
    if ("content-type", "application/json") ∉ q.headers then some 415
    else if q.body = asciiBytes withdrawBody then none
    else some 400

def withdrawal (body : String) : Request String where
  method := .post
  path := ["api", "v4", "account", "withdraw"]
  query := ""
  headers := [("x-auth-token", "secret"), ("content-type", "application/json")]
  body := asciiBytes body

/-- The request with the token and a body runs the handler, with half the body it does not. -/
theorem withdrawal_runs : ∃ router : Tree (Request String) Nat Handler,
    buildApi plainLayers (Tree.library requestView fun _ => 404) (fun _ => 401) (.token "secret")
        false = some router ∧
      .withdraw ∈ (router.serve requestView (fun _ => 404) (service plainRejection fun _ _ => 200)
        (withdrawal withdrawBody)).2 ∧
      .withdraw ∉ (router.serve requestView (fun _ => 404) (service plainRejection fun _ _ => 200)
        (withdrawal "\x7b\"amount\":")).2 := by
  have hcalls : ∀ body, Calls false (withdrawal body) .withdraw := by
    intro body
    refine ⟨by decide, rfl, .inl rfl, ?_⟩
    show ∀ g ∈ openapi false,
      accepts (operation g).path ["api", "v4", "account", "withdraw"] = true →
        before (operation g).path (operation .withdraw).path = false
    decide +kernel
  obtain ⟨router, hrouter, hruns⟩ := handler_runs_iff plainLayers
    (Tree.documented requestView fun _ => 404) (fun _ => 401) (.token "secret") false
  refine ⟨router, hrouter, ?_, ?_⟩
  · refine (hruns plainRejection (fun _ _ => 200) (withdrawal withdrawBody) .withdraw).2
      ⟨hcalls _, ⟨rfl, rfl, rfl, rfl, rfl, rfl, rfl, trivial⟩, fun _ => rfl, ?_⟩
    intro e he
    obtain rfl := List.mem_singleton.1 he
    decide
  · intro hran
    have haccepts := ((hruns plainRejection (fun _ _ => 200) (withdrawal "\x7b\"amount\":")
      .withdraw).1 hran).2.2.2 .json (List.mem_singleton.2 rfl)
    revert haccepts
    decide

end Hoprd.RestApi.Routes
