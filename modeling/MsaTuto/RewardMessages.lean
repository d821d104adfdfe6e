import MsaTuto.EventUpdate
import MsaTuto.GatewayAccess
import MsaTuto.RewardConsumer

/-! From an HTTP request at the gateway to the arguments of `createEventRewardRequest` at the
game-event server. -/
namespace MsaTuto
open Js GatewayService GatewayController

/-- A request at the gateway: what passport makes of it, and what is drawn while it is handled. -/
structure Arrival where
  req : HttpRequest
  passport : Passport
  uuid : String
  timestamp : String

namespace Arrival

/-- The message that the gateway publishes for the request, if it publishes one. -/
def message (routes : List ProxyRouteConfig) (a : Arrival) : Option Packet :=
  match gateway routes a.req a.passport a.uuid a.timestamp with
  | .published packet => some packet
  | _ => none

/-- A field of the body as the handler reads it. -/
def bodyField (a : Arrival) (name : String) : Value := (ownFields a.req.body).lookup name

end Arrival

/-- The handler's arguments as the service takes them. A `userId` that is no text is refused at
the save as an empty one is. -/
def rewardCall (args : CreateArgs) : RewardCall Value where
  userId := (EventController.textOf args.userId).getD ""
  eventId := args.eventId
  metadata := args.metadata

section Table
variable (env config : Env)

theorem messageRoutes_guarded : ∀ r ∈ setupRoutes env config, ∀ q, messageRoute r = some q →
    r.requireAuth = true ∧ r.roles = [.USER] ∧ q = rewardsRabbitmq := by
  refine forall_setupRoutes (fun _ _ => Iff.rfl) ?_ env config
  simp [allRoutes, authRoutes, gameEventRoutes, userRoutes, messageRoute]

/-- The checks of a message route, flagged or not, let through authenticated callers with the role
`USER` and nobody else. -/
theorem refusal_messageRoute {found : RouteResult} {r : ProxyRouteConfig}
    {user : Option JwtUserDto} {q : RabbitmqRoute} (hmem : r ∈ setupRoutes env config)
    (hr : found.routeConfig = r ∨ ∃ rest, found.routeConfig = notAllowed r rest)
    (hq : messageRoute found.routeConfig = some q) (hnone : refusal found.routeConfig user = none) :
    q = rewardsRabbitmq ∧ ∃ u, user = some u ∧ Role.USER ∈ userRoles user := by
  have hroute : messageRoute r = some q := by
    obtain h | ⟨rest, h⟩ := hr
    · rwa [h] at hq
    · rwa [h] at hq
  obtain ⟨hauth, hroles, rfl⟩ := messageRoutes_guarded env config r hmem q hroute
  refine ⟨rfl, ?_⟩
  rw [refusal_found hr] at hnone
  cases user with
  | none =>
    rw [refusal_of_requireAuth hauth] at hnone
    cases hnone
  | some u =>
    refine ⟨u, rfl, ?_⟩
    by_contra hno
    simp [refusal, hauth, hroles, hasRole, hno] at hnone

/-- What is published is the request of an authenticated user, with that user beside the body. -/
theorem published_cases {req : HttpRequest} {passport : Passport} {uuid timestamp : String}
    {packet : Packet}
    (h : gateway (setupRoutes env config) req passport uuid timestamp = .published packet) :
    ∃ user params, passport = .ok user ∧ Role.USER ∈ userRoles (some user) ∧
      packet = MsaTuto.handleMessageQueueRequest
        { withParams req params with user := some user.json } rewardsRabbitmq uuid timestamp := by
  unfold gateway at h
  split at h
  · cases h
  next user hguard =>
    have hforwarded :
        (handleRequest (setupRoutes env config) req user uuid timestamp).forwarded = true := by
      rw [h]
      rfl
    obtain ⟨-, found, hfound, hnone, hpass⟩ := passedOn_of_forwarded hforwarded
    obtain ⟨r, hmem, -, -, hr⟩ := getRouteConfigForPath_some hfound
    rw [hpass] at h
    unfold passOn at h
    split at h
    next q hq =>
      obtain ⟨rfl, u, rfl, hrole⟩ := refusal_messageRoute env config hmem hr hq hnone
      have hpassport : passport = .ok u := by
        unfold canActivate at hguard
        split at hguard
        · cases hguard
        · cases passport with
          | error info => cases hguard
          | ok user =>
            cases hguard
            rfl
      cases h
      exact ⟨u, _, hpassport, hrole, rfl⟩
    next =>
      unfold ProxyService.proxyRequest at h
      split at h
      · cases h
      · cases h

end Table

theorem lookup_json_userId (user : JwtUserDto) :
    (ownFields (some user.json)).lookup "userId" = user.userId.map .str :=
  lookup_spread_set [] [] [("email", _), ("roles", _)] "userId" _ (by simp)

/-- The handler takes the caller from beside the body and the rest from the body. -/
theorem createRewardRequest_body (req : HttpRequest) (route : RabbitmqRoute)
    (uuid timestamp : String) (user : JwtUserDto) (huser : req.user = some user.json) :
    createRewardRequest (MsaTuto.handleMessageQueueRequest req route uuid timestamp).payload =
      readDto (user.userId.map .str) (ownFields req.body) := by
  have hget := fun k h => payload_get req route uuid timestamp (k := k) h
  simp only [createRewardRequest, hget "user" (by decide), hget "body" (by decide),
    messageData_user, messageData_body, huser]
  rw [← lookup_json_userId]
  rfl

/-- The call asks for what the HTTP request asks for: in the name of the authenticated user,
whatever the body says of a user, and for the event that the body names. -/
structure AsksFor (a : Arrival) (call : RewardCall Value) : Prop where
  user : ∃ user, a.passport = .ok user ∧ Role.USER ∈ userRoles (some user) ∧
    call.userId = user.userId.getD ""
  event : call.eventId = a.bodyField "eventId"
  metadata : call.metadata = a.bodyField "metadata"
  readable : nullish call.metadata = false

namespace Arrival

/-- The call that the handler makes for the message of the request. -/
def call (routes : List ProxyRouteConfig) (a : Arrival) : Option (RewardCall Value) :=
  (a.message routes).bind fun packet =>
    match createRewardRequest packet.payload with
    | .ok args => some (rewardCall args)
    | .error _ => none

theorem asksFor_of_call {env config : Env} {a : Arrival} {call : RewardCall Value}
    (h : a.call (setupRoutes env config) = some call) : AsksFor a call := by
  obtain ⟨packet, hmessage, hcall⟩ := Option.bind_eq_some_iff.mp h
  have hpublished : gateway (setupRoutes env config) a.req a.passport a.uuid a.timestamp =
      .published packet := by
    unfold message at hmessage
    split at hmessage
    next p hp =>
      cases hmessage
      exact hp
    next => cases hmessage
  obtain ⟨user, params, hpassport, hrole, rfl⟩ := published_cases env config hpublished
  rw [createRewardRequest_body _ _ _ _ user rfl] at hcall
  simp only [readDto] at hcall
  split at hcall
  next args hargs =>
    cases hcall
    split at hargs
    next correlationId hread =>
      cases hargs
      refine ⟨⟨user, hpassport, hrole, ?_⟩, rfl, rfl, ?_⟩
      · cases huser : user.userId <;> simp [rewardCall, EventController.textOf]
      · unfold readCorrelationId Js.get at hread
        cases hn : nullish ((ownFields a.req.body).lookup "metadata") with
        | false => exact hn
        | true =>
          rw [if_pos (by exact hn)] at hread
          cases hread
    next => cases hargs
  next => cases hcall

end Arrival
end MsaTuto
