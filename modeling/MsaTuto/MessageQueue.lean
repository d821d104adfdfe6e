import MsaTuto.Caller
import MsaTuto.Failure

/-! The `create_reward_request` message: how the gateway builds it
(`gateway.controller.ts`, `rabbitmq.service.ts`) and how the game-event server takes
it apart (`event-reward-request.controller.ts`, `create-reward-request.dto.ts`). -/
namespace MsaTuto
open Js

structure HttpRequest where
  method : String
  path : String
  params : Fields
  query : Value
  body : Value
  user : Value
  headers : Fields

structure RabbitmqRoute where
  pattern : Json
  options : Value

def rewardsRabbitmq : RabbitmqRoute :=
  ⟨.str "create_reward_request", some (literal [("persistent", some (.bool true))])⟩

structure Packet where
  pattern : Json
  data : Fields

def extractRelevantHeaders (req : HttpRequest) : Fields :=
  spread req.headers [("host", none), ("connection", none), ("content-length", none)]

def messageData (req : HttpRequest) (timestamp : String) : Fields :=
  spread [] [("method", some (.str req.method.toLower)), ("path", some (.str req.path)),
    ("params", some (.obj req.params)), ("query", req.query), ("body", req.body),
    ("user", req.user), ("headers", some (.obj (extractRelevantHeaders req))),
    ("timestamp", some (.str timestamp))]

/-- `options.messageId || uuidv4()`. -/
def chosenMessageId (options : Value) (uuid : String) : Value :=
  orElse (optGet options "messageId") (some (.str uuid))

/-- `RabbitmqService.emitEvent`: the envelope goes next to the data's own fields. -/
def emitEvent (route : RabbitmqRoute) (data : Fields) (uuid timestamp : String) : Packet where
  pattern := route.pattern
  data := spread data [("metadata", some (.obj (spread []
    ([("messageId", chosenMessageId route.options uuid), ("timestamp", some (.str timestamp))] ++
      (ownFields route.options).map fun p => (p.1, some p.2)))))]

def handleMessageQueueRequest (req : HttpRequest) (route : RabbitmqRoute)
    (uuid timestamp : String) : Packet :=
  emitEvent route (messageData req timestamp) uuid timestamp

def Packet.payload (p : Packet) : Value := some (.obj p.data)

structure CreateArgs where
  userId : Value
  eventId : Value
  metadata : Value
  correlationId : Value

def typeError : Failure := .native "TypeError"

/-- `const correlationId = metadata.messageId`, on a field the DTO declares optional. -/
def readCorrelationId (metadata : Value) : Except Failure Value :=
  match get metadata "messageId" with
  | some correlationId => .ok correlationId
  | none => .error typeError

def readDto (userId : Value) (dto : Fields) : Except Failure CreateArgs :=
  match readCorrelationId (dto.lookup "metadata") with
  | .ok correlationId => .ok ⟨userId, dto.lookup "eventId", dto.lookup "metadata", correlationId⟩
  | .error f => .error f

/-- `EventRewardRequestController.createRewardRequest` up to the service's own work. -/
def createRewardRequest (payload : Value) : Except Failure CreateArgs :=
  match get payload "user", get payload "body" with
  | some user, some body =>
    match get user "userId" with
    | some userId => readDto userId (ownFields body)
    | none => .error typeError
  | _, _ => .error typeError

/-- The consumer processes the message with the ids the producer meant. -/
def ProcessedAs (out : Except Failure CreateArgs) (userId eventId messageId : Value) : Prop :=
  ∃ args, out = .ok args ∧ args.userId = userId ∧ args.eventId = eventId ∧
    args.correlationId = messageId

section Delivery
variable (req : HttpRequest) (route : RabbitmqRoute) (uuid timestamp : String)

theorem payload_field {k : String} (h : k ≠ "metadata") :
    optGet (handleMessageQueueRequest req route uuid timestamp).payload k =
      (messageData req timestamp).lookup k := by
  simp only [handleMessageQueueRequest, emitEvent, Packet.payload, optGet_some, field_obj]
  exact lookup_spread_of_notMem (by simpa using h) _

theorem messageData_body : (messageData req timestamp).lookup "body" = req.body :=
  lookup_spread_set [] [("method", some (.str req.method.toLower)), ("path", some (.str req.path)),
    ("params", some (.obj req.params)), ("query", req.query)] _ "body" req.body (by simp)

theorem messageData_user : (messageData req timestamp).lookup "user" = req.user :=
  lookup_spread_set [] [("method", some (.str req.method.toLower)), ("path", some (.str req.path)),
    ("params", some (.obj req.params)), ("query", req.query), ("body", req.body)] _ "user" req.user
    (by simp)

theorem payload_get {k : String} (h : k ≠ "metadata") :
    Js.get (handleMessageQueueRequest req route uuid timestamp).payload k =
      some ((messageData req timestamp).lookup k) := by
  rw [← payload_field req route uuid timestamp h]
  rfl

end Delivery

theorem chosenMessageId_isSome (options : Value) (uuid : String) :
    (chosenMessageId options uuid).isSome := by
  unfold chosenMessageId orElse
  split
  next h =>
    cases hv : optGet options "messageId" with
    | none => rw [hv] at h; cases h
    | some j => rfl
  next => rfl

theorem createRewardRequest_payload (req : HttpRequest) (route : RabbitmqRoute)
    (uuid timestamp : String) (body user : Fields) (hbody : req.body = some (.obj body))
    (huser : req.user = some (.obj user)) :
    createRewardRequest (handleMessageQueueRequest req route uuid timestamp).payload =
      match readCorrelationId (body.lookup "metadata") with
      | .ok c => .ok ⟨user.lookup "userId", body.lookup "eventId", body.lookup "metadata", c⟩
      | .error f => .error f := by
  have hget := fun k h => payload_get req route uuid timestamp (k := k) h
  simp only [createRewardRequest, hget "user" (by decide), hget "body" (by decide),
    messageData_user, messageData_body, hbody, huser, get_obj, readDto, ownFields]

/-- Producer and consumer agree exactly on the bodies that carry, as metadata of their
own, the very message id that `emitEvent` chose for the envelope next to the body. -/
theorem producer_consumer_agree_iff (req : HttpRequest) (route : RabbitmqRoute)
    (uuid timestamp : String) (body user : Fields) :
    ProcessedAs
      (createRewardRequest (handleMessageQueueRequest
        { req with body := some (.obj body), user := some (.obj user) }
        route uuid timestamp).payload)
      (user.lookup "userId") (body.lookup "eventId") (chosenMessageId route.options uuid) ↔
    optGet (body.lookup "metadata") "messageId" = chosenMessageId route.options uuid := by
  rw [createRewardRequest_payload _ route uuid timestamp body user rfl rfl]
  have hsome := chosenMessageId_isSome route.options uuid
  unfold readCorrelationId Js.get
  cases hn : nullish (body.lookup "metadata") with
  | true =>
    have hnone := optGet_of_nullish hn "messageId"
    constructor
    · intro ⟨args, h, _⟩
      cases h
    · intro h
      rw [← h, hnone] at hsome
      cases hsome
  | false =>
    constructor
    · intro ⟨args, h, _, _, hc⟩
      cases h
      exact hc
    · intro h
      exact ⟨_, rfl, rfl, rfl, h⟩

def rewardPost : HttpRequest where
  method := "POST"
  path := "/event-requests/rewards"
  params := []
  query := none
  body := some (.obj [("eventId", .str "665f1f77bcf86cd799439011")])
  user := some (.obj [("userId", .str "alice")])
  headers := []

/-- A body with nothing but an event id, as the documented request has it, is not
processed at all: the consumer raises a TypeError. -/
theorem producer_consumer_disagree :
    createRewardRequest (handleMessageQueueRequest rewardPost rewardsRabbitmq "m1" "t").payload =
      .error typeError ∧
    ¬∀ (req : HttpRequest) (uuid timestamp : String) (body user : Fields),
      ProcessedAs
        (createRewardRequest (handleMessageQueueRequest
          { req with body := some (.obj body), user := some (.obj user) }
          rewardsRabbitmq uuid timestamp).payload)
        (user.lookup "userId") (body.lookup "eventId")
        (chosenMessageId rewardsRabbitmq.options uuid) := by
  have hraised : createRewardRequest
      (handleMessageQueueRequest rewardPost rewardsRabbitmq "m1" "t").payload =
      .error typeError :=
    createRewardRequest_payload rewardPost _ "m1" "t" _ _ rfl rfl
  refine ⟨hraised, fun h => ?_⟩
  obtain ⟨args, hargs, -⟩ := h rewardPost "m1" "t"
    [("eventId", .str "665f1f77bcf86cd799439011")] [("userId", .str "alice")]
  cases hraised.symm.trans hargs

end MsaTuto
