import MsaTuto.EventMutations
import MsaTuto.Gateway
import MsaTuto.Rewards

/-! The way of an exception to the client: the `catch` blocks of `auth.service.ts`,
`event.controller.ts` and `reward.service.ts`, the global filter of each server, and the reply of
`proxy.service.ts`. -/
namespace MsaTuto
open Js

/-- What a guard, a controller or a service throws: an `HttpException` by its status, another
`Error`, or a value that is none. -/
inductive Exception where
  | http (status : Nat) (name message : String)
  | error (name message : String)
  | thrown (text : String)

/-- The status that an answer to the exception should have. -/
def Exception.status : Exception → Nat
  | .http status _ _ => status
  | _ => 500

def Exception.isError : Exception → Bool
  | .thrown _ => false
  | _ => true

def Exception.name : Exception → Value
  | .http _ name _ | .error name _ => some (.str name)
  | .thrown _ => none

def Exception.message : Exception → Value
  | .http _ _ message | .error _ message => some (.str message)
  | .thrown _ => none

def HttpExceptionClass.name : HttpExceptionClass → String
  | .badRequest => "BadRequestException"
  | .unauthorized => "UnauthorizedException"
  | .forbidden => "ForbiddenException"
  | .notFound => "NotFoundException"
  | .conflict => "ConflictException"
  | .internalServerError => "InternalServerErrorException"

def Failure.exception : Failure → Exception
  | .http cls message => .http cls.status cls.name message
  | .native name => .error name ""

structure Reply where
  status : Nat
  data : Value

/-- The backends the gateway proxies to. -/
inductive Backend where
  | auth | gameEvent
  deriving DecidableEq, Repr

/-- The body of both filters. -/
def errorBody (status : Nat) (timestamp : String) (req : HttpRequest) (message error : Value) :
    Value :=
  some (literal [("statusCode", some (.num status)), ("timestamp", some (.str timestamp)),
    ("path", some (.str req.path)), ("method", some (.str req.method)), ("message", message),
    ("error", error)])

theorem errorBody_statusCode (status : Nat) (timestamp : String) (req : HttpRequest)
    (message error : Value) :
    optGet (errorBody status timestamp req message error) "statusCode" = some (.num status) :=
  lookup_spread_set [] [] _ "statusCode" (some (.num status)) (by simp)

/-- `AllExceptionsFilter.catch` of the game-event server; its two branches say the same. -/
def AllExceptionsFilter.reply (timestamp : String) (req : HttpRequest) (e : Exception) : Reply :=
  let httpStatus := if e.isError then 500 else 500
  ⟨httpStatus, errorBody httpStatus timestamp req (some (.str "Internal server error"))
    (if e.isError then e.name else some (.str "Unknown error"))⟩

/-- `exception.getStatus ? exception.getStatus() : HttpStatus.INTERNAL_SERVER_ERROR`. -/
def HttpExceptionFilter.statusOf : Exception → Nat
  | .http status _ _ => status
  | .error _ _ | .thrown _ => 500

/-- `HttpExceptionFilter.catch` of the auth server, which catches every exception. -/
def HttpExceptionFilter.reply (timestamp : String) (req : HttpRequest) (e : Exception) : Reply :=
  ⟨statusOf e, errorBody (statusOf e) timestamp req (orElse e.message (some .null))
    (orElse e.name (some (.str "Internal Server Error")))⟩

def Backend.reply (timestamp : String) (req : HttpRequest) (e : Exception) : Backend → Reply
  | .auth => HttpExceptionFilter.reply timestamp req e
  | .gameEvent => AllExceptionsFilter.reply timestamp req e

/-- What `axios` rejects with. -/
inductive AxiosError where
  | response (reply : Reply)
  | code (code : String)
  | other

namespace ProxyService

def proxyError (status : Nat) (message error : Value) : Reply :=
  ⟨status, some (literal [("statusCode", some (.num status)), ("message", message),
    ("error", error)])⟩

def handleProxyError : AxiosError → Reply
  | .response reply => proxyError reply.status
      (orElse (optGet reply.data "message") (some (.str "Error from microservice")))
      (orElse (optGet reply.data "error") (some (.str "Proxy Error")))
  | .code code =>
    if code = "ECONNREFUSED" ∨ code = "ENOTFOUND" then
      proxyError 503 (some (.str s!"Service is currently unavailable ({code})"))
        (some (.str "Service Unavailable"))
    else if code = "ETIMEDOUT" then
      proxyError 504 (some (.str "Request timed out while connecting to the service"))
        (some (.str "Gateway Timeout"))
    else proxyError 502 (some (.str s!"Unable to connect to service: {code}"))
      (some (.str "Bad Gateway"))
  | .other => proxyError 500
      (some (.str "An unexpected error occurred while proxying the request"))
      (some (.str "Internal Server Error"))

/-- `res.status(response.status).send(response.data)`; every status is let through. -/
def respond : Except AxiosError Reply → Reply
  | .ok response => ⟨response.status, response.data⟩
  | .error e => handleProxyError e

end ProxyService

namespace EventController

/-- The `catch` of `update`: a conflict is raised anew with the latest data, unless the event is
not to be found any more. -/
def caught (c : EventCollection) (id : String) (f : Failure) : Failure :=
  if f.isConflict then
    match EventService.findOne c id with
    | .ok _ => f
    | .error g => g
  else f

end EventController

/-- What the `catch` block of the operation throws on as it is. -/
def AuthCall.rethrows : AuthCall → Failure → Bool
  | .login _ _, f | .refreshToken _ _, f => f.isUnauthorized
  | .register _, f => f.isConflict
  | .logout _ _, _ => false
  | .addRole _ _, f => f.isNotFound
  | .removeRole _ _, f => f.isNotFound || f.isConflict

/-- An exception with the place it is raised at: under no `catch` block on its way to the filter,
within an operation of the auth server, within an event update, or where the creation of a reward
looks its event up. What `validateJwtToken`, `validateRefreshToken` and `checkEligibility` catch is
not raised any further, and the services under an operation put nothing but a 500 in the place of
what is a 500 already. -/
inductive Raised where
  | direct (server : Backend) (e : Exception)
  | authOperation (call : AuthCall) (f : Failure)
  | eventUpdate (events : EventCollection) (id : String) (f : Failure)
  | rewardEvent (eventId : String) (f : Failure)

namespace Raised

def server : Raised → Backend
  | .direct server _ => server
  | .authOperation _ _ => .auth
  | .eventUpdate _ _ _ | .rewardEvent _ _ => .gameEvent

def status : Raised → Nat
  | .direct _ e => e.status
  | .authOperation _ f | .eventUpdate _ _ f | .rewardEvent _ f => f.exception.status

/-- What is left of it when it comes to the filter. -/
def atFilter : Raised → Exception
  | .direct _ e => e
  | .authOperation call f => (call.caught f).exception
  | .eventUpdate events id f => (EventController.caught events id f).exception
  | .rewardEvent eventId _ => (RewardService.invalidEvent eventId).exception

/-- It is the auth server's, and no `catch` block puts another in its place. -/
def LetThrough : Raised → Prop
  | .direct server _ => server = .auth
  | .authOperation call f => call.rethrows f = true
  | .eventUpdate _ _ _ | .rewardEvent _ _ => False

/-- What the client gets through the gateway. -/
def clientReply (raised : Raised) (timestamp : String) (req : HttpRequest) : Reply :=
  ProxyService.respond (.ok (raised.server.reply timestamp req raised.atFilter))

end Raised

theorem caught_status (call : AuthCall) (f : Failure) :
    (call.caught f).exception.status = if call.rethrows f then f.exception.status else 500 := by
  cases hf : call.rethrows f <;> cases call <;> simp_all [AuthCall.caught, AuthCall.rethrows,
    Failure.exception, Exception.status, HttpExceptionClass.status]

section Status
variable (raised : Raised) (timestamp : String) (req : HttpRequest)

theorem auth_status (e : Exception) :
    (ProxyService.respond (.ok (Backend.auth.reply timestamp req e))).status = e.status := by
  cases e <;> rfl

theorem gameEvent_status (e : Exception) :
    (ProxyService.respond (.ok (Backend.gameEvent.reply timestamp req e))).status = 500 := by
  cases e <;> rfl

/-- The body names the status it is sent with. -/
theorem clientReply_statusCode :
    optGet (raised.clientReply timestamp req).data "statusCode" =
      some (.num (raised.clientReply timestamp req).status) := by
  simp only [Raised.clientReply]
  cases raised.server with
  | auth => exact errorBody_statusCode _ timestamp req _ _
  | gameEvent => exact errorBody_statusCode _ timestamp req _ _

/-- The status of an exception reaches the client exactly if it is 500, as everything the
game-event server answers, or the auth server raises it and lets it through. -/
theorem error_status_iff :
    (raised.clientReply timestamp req).status = raised.status ↔
      raised.status = 500 ∨ raised.LetThrough := by
  cases raised with
  | direct server e =>
    cases server with
    | auth =>
      have hstatus := auth_status timestamp req e
      simp [Raised.clientReply, Raised.server, Raised.atFilter, Raised.status, Raised.LetThrough,
        hstatus]
    | gameEvent =>
      have hstatus := gameEvent_status timestamp req e
      simp [Raised.clientReply, Raised.server, Raised.atFilter, Raised.status, Raised.LetThrough,
        hstatus, eq_comm]
  | authOperation call f =>
    have hstatus := auth_status timestamp req (call.caught f).exception
    rw [caught_status] at hstatus
    simp only [Raised.clientReply, Raised.server, Raised.atFilter, Raised.status,
      Raised.LetThrough, hstatus]
    cases hf : call.rethrows f with
    | true => simp
    | false => simp [eq_comm]
  | eventUpdate events id f =>
    have hstatus := gameEvent_status timestamp req (EventController.caught events id f).exception
    simp [Raised.clientReply, Raised.server, Raised.atFilter, Raised.status, Raised.LetThrough,
      hstatus, eq_comm]
  | rewardEvent eventId f =>
    have hstatus := gameEvent_status timestamp req (RewardService.invalidEvent eventId).exception
    simp [Raised.clientReply, Raised.server, Raised.atFilter, Raised.status, Raised.LetThrough,
      hstatus, eq_comm]

end Status

section Sample

def storedEvent (version : Int) : Event where
  name := some "launch"
  description := some "launch week"
  type := some .LOGIN
  condition := some (.obj [("type", .str "consecutive_login"), ("value", .num 3)])
  startDate := 0
  endDate := 1000
  status := some .ACTIVE
  createdBy := some "operator"
  version := version

def oneEvent (version : Int) : EventCollection := fun id =>
  if id = "e1" then some (storedEvent version) else none

def updateRequest : HttpRequest := ⟨"PUT", "/events/e1", [], none, none, none, []⟩

def relaunch : UpdateEventDto where
  name := some (some "relaunch")
  version := some 0

def readAt (id : String) : Except Failure EventPatch :=
  EventService.updateRead (fun _ => none) (oneEvent 1) id relaunch none 0

/-- An update under a version that the event has left raises a conflict, which the controller
raises again, and one of an event that is not there raises that it is not found. The client is
answered 500 either way. -/
theorem lost_update_answered_500 :
    (readAt "e1" = .error (.http .conflict EventService.staleMessage) ∧
      (Raised.eventUpdate (oneEvent 1) "e1"
        (.http .conflict EventService.staleMessage)).atFilter.status = 409 ∧
      ((Raised.eventUpdate (oneEvent 1) "e1"
        (.http .conflict EventService.staleMessage)).clientReply "t" updateRequest).status = 500) ∧
    (readAt "e2" = .error (EventService.unknownEvent "e2") ∧
      (Raised.eventUpdate (oneEvent 1) "e2" (EventService.unknownEvent "e2")).status = 404 ∧
      ((Raised.eventUpdate (oneEvent 1) "e2"
        (EventService.unknownEvent "e2")).clientReply "t" updateRequest).status = 500) ∧
    ¬∀ (raised : Raised) (timestamp : String) (req : HttpRequest),
      (raised.clientReply timestamp req).status = raised.status := by
  refine ⟨⟨?_, ?_, gameEvent_status _ _ _⟩, ⟨?_, rfl, gameEvent_status _ _ _⟩, fun h => ?_⟩
  · simp [readAt, EventService.updateRead, EventService.findOne, EventService.mergeDate, relaunch,
      oneEvent, storedEvent, JsDate.ge]
  · have hcaught : EventController.caught (oneEvent 1) "e1"
        (.http .conflict EventService.staleMessage) =
        .http .conflict EventService.staleMessage := by
      simp [EventController.caught, EventService.findOne, oneEvent, storedEvent]
    rw [Raised.atFilter, hcaught]
    rfl
  · simp [readAt, EventService.updateRead, EventService.findOne, oneEvent]
  · have hstatus := h (.eventUpdate (oneEvent 1) "e1" (.http .conflict EventService.staleMessage))
      "t" updateRequest
    cases hstatus.symm.trans (gameEvent_status "t" updateRequest _)

end Sample
end MsaTuto
