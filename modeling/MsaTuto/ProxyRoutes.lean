import Mathlib.Data.List.Sort
import MsaTuto.MessageQueue
import MsaTuto.Text

/-! The gateway's route table and the lookup of a route: `routes/*.routes.ts`,
`path-matcher.util.ts`, `gateway.service.ts`. -/
namespace MsaTuto
open Js

/-- The last two fields are those the lookup adds to a route whose methods do not fit. -/
structure ProxyRouteConfig where
  path : String
  methods : List String
  targetUrl : Option String
  requireAuth : Bool
  roles : List Role := []
  permissions : List String := []
  useMessageQueue : Bool := false
  rabbitmq : Option RabbitmqRoute := none
  methodNotAllowed : Bool := false
  allowedMethods : List String := []

abbrev Env := String → Option String

/-- `process.env[name] || otherwise`. -/
def Env.orElse (env : Env) (name : String) (otherwise : Option String) : Option String :=
  match env name with
  | some value => if value ≠ "" then some value else otherwise
  | none => otherwise

section Table
variable (env : Env)

def authServiceUrl : Option String :=
  env.orElse "AUTH_SERVICE_URL" (some "http://auth-service:4000")

def gameEventServiceUrl : Option String :=
  env.orElse "GAME_EVENT_SERVICE_URL" (some "http://game-event-service:5000")

def authRoutes : List ProxyRouteConfig :=
  [{ path := "auth/register", methods := ["POST"], targetUrl := authServiceUrl env,
     requireAuth := false },
   { path := "auth/login", methods := ["POST"], targetUrl := authServiceUrl env,
     requireAuth := false },
   { path := "auth/refresh", methods := ["POST"], targetUrl := authServiceUrl env,
     requireAuth := true },
   { path := "auth/logout", methods := ["POST"], targetUrl := authServiceUrl env,
     requireAuth := true }]

def gameEventRoutes : List ProxyRouteConfig :=
  [{ path := "event-requests/available-events", methods := [],
     targetUrl := gameEventServiceUrl env, requireAuth := true, roles := [.USER] },
   { path := "event-requests/rewards", methods := [],
     targetUrl := env "GAME_EVENT_SERVICE_URL", requireAuth := true, roles := [.USER],
     useMessageQueue := true, rabbitmq := some rewardsRabbitmq },
   { path := "event-requests/eligibility/:eventId", methods := [],
     targetUrl := gameEventServiceUrl env, requireAuth := true, roles := [.USER] },
   { path := "event-requests/reward-requests/history", methods := [],
     targetUrl := gameEventServiceUrl env, requireAuth := true, roles := [.USER] },
   { path := "event-requests/reward-requests/history/all", methods := [],
     targetUrl := gameEventServiceUrl env, requireAuth := true,
     roles := [.OPERATOR, .AUDITOR, .ADMIN] },
   { path := "events", methods := ["POST", "GET"], targetUrl := gameEventServiceUrl env,
     requireAuth := true, roles := [.OPERATOR, .ADMIN] },
   { path := "events/:id", methods := ["GET"], targetUrl := gameEventServiceUrl env,
     requireAuth := true },
   { path := "events/:id", methods := ["PUT"], targetUrl := gameEventServiceUrl env,
     requireAuth := true, roles := [.OPERATOR, .ADMIN] },
   { path := "events/active", methods := ["GET"], targetUrl := gameEventServiceUrl env,
     requireAuth := true },
   { path := "rewards", methods := ["GET"], targetUrl := gameEventServiceUrl env,
     requireAuth := true },
   { path := "rewards", methods := ["POST"], targetUrl := gameEventServiceUrl env,
     requireAuth := true, roles := [.OPERATOR, .ADMIN] },
   { path := "rewards/:id", methods := ["GET"], targetUrl := gameEventServiceUrl env,
     requireAuth := true },
   { path := "rewards/event/:eventId", methods := ["GET"],
     targetUrl := gameEventServiceUrl env, requireAuth := true }]

def userRoutes : List ProxyRouteConfig :=
  [{ path := "users", methods := ["GET"], targetUrl := authServiceUrl env,
     requireAuth := true, roles := [.ADMIN, .AUDITOR] },
   { path := "users/:id/roles", methods := ["POST"], targetUrl := authServiceUrl env,
     requireAuth := true, roles := [.ADMIN] },
   { path := "users/:id/roles/:role", methods := ["DELETE"], targetUrl := authServiceUrl env,
     requireAuth := true, roles := [.ADMIN] }]

def allRoutes : List ProxyRouteConfig := authRoutes env ++ gameEventRoutes env ++ userRoutes env

end Table

def startsWith (s start : String) : Bool := start.toList.isPrefixOf s.toList

/-- `s.startsWith('/') ? s.substring(1) : s`. -/
def dropSlash (s : String) : String :=
  if startsWith s "/" then String.ofList (s.toList.drop 1) else s

def segments (s : String) : List (List Char) := s.toList.splitOn '/'

/-- The `:name` in a segment of a pattern, with what stands before it. -/
def paramOf (segment : List Char) : Option (List Char × String) :=
  match (segment.dropWhile (· ≠ ':')).drop 1 with
  | [] => none
  | name => some (segment.takeWhile (· ≠ ':'), String.ofList name)

abbrev Params := List (String × String)

def matchSegment (pattern segment : List Char) : Option Params :=
  match paramOf pattern with
  | some (before, name) =>
    if before.isPrefixOf segment ∧ before.length < segment.length then
      some [(name, String.ofList (segment.drop before.length))]
    else none
  | none => if pattern = segment then some [] else none

def matchSegments : List (List Char) → List (List Char) → Option Params
  | [], [] => some []
  | pattern :: patterns, segment :: rest =>
    (matchSegment pattern segment).bind fun params =>
      (matchSegments patterns rest).map (params ++ ·)
  | _, _ => none

/-- `path-matcher.util.ts`: the regular expression of a pattern, taken segment by segment.
A `([^\/]+)` cannot cross a slash, and no pattern has another metacharacter. -/
def matchPath (pattern path : String) : Option Params :=
  matchSegments (segments pattern) (segments path)

namespace GatewayService

/-- `ConfigService.get` reads `config`. -/
def resolveTargetUrl (config : Env) (route : ProxyRouteConfig) : Option String :=
  let serviceName := String.ofList (route.path.toList.takeWhile (· ≠ '/'))
  config.orElse (toUpperCase serviceName ++ "_SERVICE_URL") route.targetUrl

/-- `sort((a, b) => b.path.length - a.path.length)`, which is stable. -/
def sortByPathLength (routes : List ProxyRouteConfig) : List ProxyRouteConfig :=
  routes.insertionSort fun a b => utf16Length b.path ≤ utf16Length a.path

def setupRoutes (env config : Env) : List ProxyRouteConfig :=
  sortByPathLength ((allRoutes env).map fun route =>
    { route with targetUrl := resolveTargetUrl config route })

structure RouteResult where
  routeConfig : ProxyRouteConfig
  matchedPattern : String

def isMethodMatch (method : String) (route : ProxyRouteConfig) : Bool :=
  decide (route.methods = [] ∨ toUpperCase method ∈ route.methods.map toUpperCase)

def exactly (path : String) (route : ProxyRouteConfig) : Bool := route.path = path

def byPattern (path : String) (route : ProxyRouteConfig) : Bool :=
  (matchPath route.path path).isSome

def byPrefix (path : String) (route : ProxyRouteConfig) : Bool := startsWith path route.path

/-- The flag by which the lookup says that only the path fits. -/
def notAllowed (route : ProxyRouteConfig) (pathMatches : List ProxyRouteConfig) :
    ProxyRouteConfig :=
  { route with
    methodNotAllowed := true
    allowedMethods := pathMatches.flatMap ProxyRouteConfig.methods }

section Lookup
variable (routes : List ProxyRouteConfig) (path method : String)

/-- The three attempts that look at the method. -/
def allowingRoute : Option ProxyRouteConfig :=
  match routes.filter fun r => exactly path r && isMethodMatch method r with
  | r :: _ => some r
  | [] =>
    match routes.find? fun r => isMethodMatch method r && byPattern path r with
    | some r => some r
    | none => (sortByPathLength
        (routes.filter fun r => byPrefix path r && isMethodMatch method r)).head?

def pathMatches : List ProxyRouteConfig :=
  routes.filter fun r => exactly path r || byPattern path r

def getRouteConfigForPath : Option RouteResult :=
  match allowingRoute routes (dropSlash path) method with
  | some r => some ⟨r, r.path⟩
  | none =>
    match pathMatches routes (dropSlash path) with
    | r :: rest => some ⟨notAllowed r (r :: rest), r.path⟩
    | [] => none

end Lookup

/-- One of the three ways in which a path can reach a route. -/
def Reaches (path : String) (route : ProxyRouteConfig) : Prop :=
  exactly path route = true ∨ byPattern path route = true ∨ byPrefix path route = true

instance (path : String) (route : ProxyRouteConfig) : Decidable (Reaches path route) :=
  inferInstanceAs (Decidable (_ ∨ _ ∨ _))

theorem mem_sortByPathLength {routes : List ProxyRouteConfig} {r : ProxyRouteConfig} :
    r ∈ sortByPathLength routes ↔ r ∈ routes :=
  (List.perm_insertionSort _ routes).mem_iff

theorem mem_setupRoutes {env config : Env} {r : ProxyRouteConfig} :
    r ∈ setupRoutes env config ↔
      ∃ r₀ ∈ allRoutes env, { r₀ with targetUrl := resolveTargetUrl config r₀ } = r := by
  rw [setupRoutes, mem_sortByPathLength, List.mem_map]

def withTarget (targetUrl : Option String) (route : ProxyRouteConfig) : ProxyRouteConfig :=
  { route with targetUrl := targetUrl }

theorem allRoutes_withTarget (env env' : Env) :
    (allRoutes env).map (withTarget none) = (allRoutes env').map (withTarget none) := rfl

/-- The environment decides only on the targets: what holds of the table without one, and
does not depend on a target, holds of every route that is set up. -/
theorem forall_setupRoutes {P : ProxyRouteConfig → Prop}
    (hP : ∀ url r, P (withTarget url r) ↔ P r) (h : ∀ r ∈ allRoutes (fun _ => none), P r)
    (env config : Env) : ∀ r ∈ setupRoutes env config, P r := by
  intro r hr
  obtain ⟨r₀, hr₀, rfl⟩ := mem_setupRoutes.mp hr
  have hmem : withTarget none r₀ ∈ (allRoutes fun _ => none).map (withTarget none) := by
    rw [allRoutes_withTarget (fun _ => none) env]
    exact List.mem_map_of_mem hr₀
  obtain ⟨r₁, hr₁, heq⟩ := List.mem_map.mp hmem
  have h₁ := (hP none r₁).mpr (h r₁ hr₁)
  rw [heq] at h₁
  exact (hP _ r₀).mpr ((hP none r₀).mp h₁)

variable {routes : List ProxyRouteConfig} {path method : String}

theorem allowingRoute_some {r : ProxyRouteConfig} (h : allowingRoute routes path method = some r) :
    r ∈ routes ∧ isMethodMatch method r = true ∧ Reaches path r := by
  unfold allowingRoute at h
  split at h
  next r' rest hexact =>
    cases h
    have hr : r ∈ r :: rest := List.mem_cons_self
    rw [← hexact, List.mem_filter, Bool.and_eq_true] at hr
    exact ⟨hr.1, hr.2.2, .inl hr.2.1⟩
  next =>
    split at h
    next r' hpattern =>
      cases h
      have hr := List.find?_some hpattern
      rw [Bool.and_eq_true] at hr
      exact ⟨List.mem_of_find?_eq_some hpattern, hr.1, .inr (.inl hr.2)⟩
    next =>
      have hr := List.mem_of_mem_head? h
      rw [mem_sortByPathLength, List.mem_filter, Bool.and_eq_true] at hr
      exact ⟨hr.1, hr.2.2, .inr (.inr hr.2.1)⟩

theorem allowingRoute_none
    (h : ∀ r ∈ routes, isMethodMatch method r = true → ¬Reaches path r) :
    allowingRoute routes path method = none := by
  cases hr : allowingRoute routes path method with
  | none => rfl
  | some r =>
    obtain ⟨hmem, hmethod, hreach⟩ := allowingRoute_some hr
    exact absurd hreach (h r hmem hmethod)

theorem mem_pathMatches {r : ProxyRouteConfig} :
    r ∈ pathMatches routes path ↔
      r ∈ routes ∧ (exactly path r = true ∨ byPattern path r = true) := by
  rw [pathMatches, List.mem_filter, Bool.or_eq_true]

/-- What the lookup answers is a route of the table that the path reaches, with the flag
of a method that does not fit or without it. -/
theorem getRouteConfigForPath_some {found : RouteResult}
    (h : getRouteConfigForPath routes path method = some found) :
    ∃ r ∈ routes, Reaches (dropSlash path) r ∧ found.matchedPattern = r.path ∧
      (found.routeConfig = r ∨ ∃ rest, found.routeConfig = notAllowed r rest) := by
  unfold getRouteConfigForPath at h
  split at h
  next r hr =>
    cases h
    obtain ⟨hmem, -, hreach⟩ := allowingRoute_some hr
    exact ⟨r, hmem, hreach, rfl, .inl rfl⟩
  next =>
    split at h
    next r rest hr =>
      cases h
      have hmem : r ∈ pathMatches routes (dropSlash path) := by
        rw [hr]
        exact List.mem_cons_self
      obtain ⟨hmem, hmatch⟩ := mem_pathMatches.mp hmem
      exact ⟨r, hmem, hmatch.imp_right .inl, rfl, .inr ⟨_, rfl⟩⟩
    next => cases h

/-- With no route that allows the method, the first route that the path fits is answered. -/
theorem getRouteConfigForPath_notAllowed
    (hnone : ∀ r ∈ routes, isMethodMatch method r = true → ¬Reaches (dropSlash path) r)
    {r : ProxyRouteConfig} {rest : List ProxyRouteConfig}
    (hmatch : pathMatches routes (dropSlash path) = r :: rest) :
    getRouteConfigForPath routes path method = some ⟨notAllowed r (r :: rest), r.path⟩ := by
  rw [getRouteConfigForPath, allowingRoute_none hnone, hmatch]

end GatewayService
end MsaTuto
