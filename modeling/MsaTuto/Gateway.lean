import MsaTuto.Authentication
import MsaTuto.ProxyRoutes

/-! The gateway in front of the servers: `jwt-auth.guard.ts`, `gateway.controller.ts` and
the request `proxy.service.ts` sends. -/
namespace MsaTuto
open Js

/-- What passport makes of the request: the user of a valid token, or the reason why not. -/
abbrev Passport := Except (Option String) JwtUserDto

def publicPaths : List String :=
  ["/auth/login", "/auth/register", "/auth/refresh-token", "/health", "/health/liveness",
    "/health/readiness", "/api-docs"]

def unauthenticated (info : Option String) : Failure :=
  match info with
  | some message =>
    if message ≠ "" then .http .unauthorized s!"Authentication failed: {message}"
    else .http .unauthorized "Authentication required"
  | none => .http .unauthorized "Authentication required"

/-- `JwtAuthGuard.canActivate`, with the `req.user` it leaves. No handler of the gateway's
controller is marked public, and the `RolesGuard` after it finds no roles to require. -/
def canActivate (path : String) (passport : Passport) : Except Failure (Option JwtUserDto) :=
  if path ∈ publicPaths then .ok none
  else
    match passport with
    | .ok user => .ok (some user)
    | .error info => .error (unauthenticated info)

/-- `(req.user as any)?.roles || []`. -/
def userRoles (user : Option JwtUserDto) : List Role := (user.bind JwtUserDto.roles).getD []

namespace RolesService

def getRolePermissions : Role → List String
  | .ADMIN => ["all"]
  | .OPERATOR => ["create_event", "create_reward", "read_reward"]
  | .AUDITOR => ["read_reward"]
  | .USER => ["request_reward"]

def validateRolePermission (role : Role) (permission : String) : Bool :=
  decide (permission ∈ getRolePermissions role ∨ "all" ∈ getRolePermissions role)

end RolesService

structure ProxyCall where
  method : String
  url : String
  headers : Fields
  data : Value
  params : Value

inductive Outcome where
  | next
  | refused (status : Nat) (message : String)
  | failed (failure : Failure)
  | published (packet : Packet)
  | proxied (call : ProxyCall)

def Outcome.forwarded : Outcome → Bool
  | .published _ | .proxied _ => true
  | _ => false

def Outcome.url : Outcome → Option String
  | .proxied call => some call.url
  | _ => none

theorem proxied_of_url {outcome : Outcome} {url : String} (h : outcome.url = some url) :
    ∃ call, outcome = .proxied call ∧ call.url = url := by
  cases outcome with
  | proxied call => exact ⟨call, rfl, Option.some.inj h⟩
  | _ => cases h

namespace ProxyService

def endsWithSlash (s : String) : Bool := s.toList.getLast? = some '/'

def createTargetUrl (targetBaseUrl path : String) : String :=
  let result := if endsWithSlash targetBaseUrl then targetBaseUrl else targetBaseUrl ++ "/"
  result ++ dropSlash path

/-- A token without its scheme is given one. -/
def withBearer (headers : Fields) : Fields :=
  match headers.lookup "authorization" with
  | some (.str value) =>
    if value ≠ "" ∧ startsWith value "Bearer " = false then
      setField headers "authorization" (some (.str ("Bearer " ++ value)))
    else headers
  | _ => headers

/-- `Object.keys(body || {}).length > 0`. -/
def hasKeys : Value → Bool
  | some (.obj fs) => decide (fs ≠ [])
  | some (.arr xs) => !xs.isEmpty
  | some (.str s) => decide (s ≠ "")
  | _ => false

def proxyRequest (req : HttpRequest) (targetUrl : Option String) : Outcome :=
  match targetUrl with
  | none => .failed typeError
  | some base => .proxied {
      method := req.method.toLower
      url := createTargetUrl base req.path
      headers := withBearer (extractRelevantHeaders req)
      data := if hasKeys req.body then req.body else none
      params := req.query }

end ProxyService

namespace GatewayController
open GatewayService ProxyService

def hasRole (route : ProxyRouteConfig) (user : Option JwtUserDto) : Bool :=
  decide (∃ role ∈ route.roles, role ∈ userRoles user)

def hasPermission (route : ProxyRouteConfig) (user : Option JwtUserDto) : Bool :=
  decide (∃ role ∈ userRoles user, role.value = "admin" ∨
    ∃ permission ∈ route.permissions, RolesService.validateRolePermission role permission = true)

/-- The refusals that come before the request is passed on. -/
def refusal (route : ProxyRouteConfig) (user : Option JwtUserDto) : Option Outcome :=
  if route.requireAuth ∧ user = none then some (.refused 401 "Unauthorized")
  else if route.roles ≠ [] ∧ hasRole route user = false then
    some (.refused 403 "Forbidden: Insufficient permissions")
  else if route.permissions ≠ [] ∧ hasPermission route user = false then
    some (.refused 403 "Forbidden: Insufficient permissions")
  else none

def withParams (req : HttpRequest) (params : Params) : HttpRequest :=
  { req with params := spread req.params (params.map fun p => (p.1, some (.str p.2))) }

def messageRoute (route : ProxyRouteConfig) : Option RabbitmqRoute :=
  if route.useMessageQueue then route.rabbitmq else none

def passOn (route : ProxyRouteConfig) (req : HttpRequest) (user : Option JwtUserDto)
    (uuid timestamp : String) : Outcome :=
  match messageRoute route with
  | some rabbitmq => .published (MsaTuto.handleMessageQueueRequest
      { req with user := user.map JwtUserDto.json } rabbitmq uuid timestamp)
  | none => proxyRequest req route.targetUrl

def underRoute (found : RouteResult) (path : String) (req : HttpRequest)
    (user : Option JwtUserDto) (uuid timestamp : String) : Outcome :=
  match refusal found.routeConfig user with
  | some outcome => outcome
  | none => passOn found.routeConfig
      (withParams req ((matchPath found.matchedPattern path).getD [])) user uuid timestamp

/-- `req.path.substring(1)`. -/
def routePath (path : String) : String := String.ofList (path.toList.drop 1)

def handleRequest (routes : List ProxyRouteConfig) (req : HttpRequest)
    (user : Option JwtUserDto) (uuid timestamp : String) : Outcome :=
  if startsWith req.path "/health" then .next
  else
    match getRouteConfigForPath routes (routePath req.path) req.method with
    | none => .refused 404 "Route not found"
    | some found => underRoute found (routePath req.path) req user uuid timestamp

/-- The guard, then the handler. -/
def gateway (routes : List ProxyRouteConfig) (req : HttpRequest) (passport : Passport)
    (uuid timestamp : String) : Outcome :=
  match canActivate req.path passport with
  | .error f => .failed f
  | .ok user => handleRequest routes req user uuid timestamp

end GatewayController
end MsaTuto
