import Mathlib.Data.Fintype.Card
import MsaTuto.Failure
import MsaTuto.Js
import MsaTuto.Script

/-! `message.interceptor.ts`: what the interceptor does to the channel once a delivery has
been handled, and what its two registrations (`main.ts` with `inheritAppConfig`, and
`@UseInterceptors` on the controller) do together. -/
namespace MsaTuto
open Js Runs

structure RmqMessage where
  content : String
  properties : Fields
  exchange : String
  routingKey : String

inductive ChannelOp where
  | ack
  | reject (requeue : Bool)
  | publish (exchange queue content : String) (options : Fields)

namespace ChannelOp

def settles : ChannelOp → Bool
  | .ack | .reject _ => true
  | .publish _ _ _ _ => false

def republishes : ChannelOp → Bool
  | .publish _ _ _ _ => true
  | _ => false

end ChannelOp

/-- The settings are whatever the configuration holds, environment strings included. -/
structure MessageInterceptor where
  noAck : Value
  maxRetries : Json
  retryDelay : Json

def MessageInterceptor.ofConfig (get : String → Value) : MessageInterceptor where
  noAck := (get "RABBIT_MQ_NO_ACK").getD (.bool false)
  maxRetries := (get "MQ_MAX_RETRIES").getD (.num 3)
  retryDelay := (get "MQ_RETRY_DELAY").getD (.num 1000)

namespace MessageInterceptor
variable (co : Coercions) (i : MessageInterceptor) (message : RmqMessage)

def acknowledgeMessage : Nat → Script ChannelOp
  | 0 => .call .ack .done .failed
  | retries + 1 =>
    .call .ack .done (.sleep (co.toNumber i.retryDelay) (acknowledgeMessage retries))

/-- `message.properties.headers?.['x-retry-count'] || 0`. -/
def retryCount : Json :=
  (orElse (optGet (message.properties.lookup "headers") "x-retry-count")
    (some (.num 0))).getD (.num 0)

def retryOptions (count : Json) : Fields :=
  spread message.properties [("headers", some (.obj (spread
    (ownFields (orElse (message.properties.lookup "headers") (some (.obj []))))
    [("x-retry-count", some count), ("x-original-exchange", some (.str message.exchange)),
      ("x-original-routing-key", some (.str message.routingKey))])))]

/-- `this.retryDelay * retryCount`; `none` is `NaN`. -/
def delay (count : Json) : Option Rat :=
  match co.toNumber i.retryDelay, co.toNumber count with
  | some d, some n => some (d * n)
  | _, _ => none

def retryMessage (count : Json) : Script ChannelOp :=
  .call (.reject false)
    (.sleep (delay co i count)
      (.call (.publish "" message.routingKey message.content (retryOptions message count))
        .done .failed))
    .failed

def retries : Bool := co.lessThan (retryCount message) i.maxRetries

/-- What the `tap` callbacks of one instance do once the handler has returned or thrown. -/
def intercept (contextType : String) (outcome : Except Failure Value) : Script ChannelOp :=
  if contextType = "http" then .done
  else if truthy i.noAck then .done
  else match outcome with
    | .ok _ => acknowledgeMessage co i 2
    | .error _ =>
      if retries co i message then retryMessage co i message (co.plus (retryCount message) (.num 1))
      else acknowledgeMessage co i 2

theorem intercept_cases (hmanual : truthy i.noAck = false) (outcome : Except Failure Value) :
    intercept co i message "rpc" outcome = acknowledgeMessage co i 2 ∨
    ∃ count, intercept co i message "rpc" outcome = retryMessage co i message count := by
  unfold intercept
  rw [if_neg (by decide), if_neg (by simp [hmanual])]
  cases outcome with
  | ok result => exact .inl rfl
  | error f =>
    by_cases hr : retries co i message = true
    · exact .inr ⟨co.plus (retryCount message) (.num 1), by simp only [hr, if_true]⟩
    · exact .inl (by simp only [hr]; rfl)

theorem intercept_settles (hmanual : truthy i.noAck = false) (outcome : Except Failure Value) :
    (intercept co i message "rpc" outcome).calls.countP ChannelOp.settles = 1 := by
  obtain h | ⟨count, h⟩ := intercept_cases co i message hmanual outcome
  · rw [h]
    rfl
  · rw [h]
    rfl

theorem intercept_ends (hmanual : truthy i.noAck = false) (outcome : Except Failure Value)
    (log₁ log₂ log₃ : List ChannelOp) :
    (((((intercept co i message "rpc" outcome).step .accepted log₁).1.step .accepted log₂).1.step
      .accepted log₃).1).ended = true := by
  obtain h | ⟨count, h⟩ := intercept_cases co i message hmanual outcome
  · rw [h]
    rfl
  · rw [h]
    rfl

end MessageInterceptor

/-- The instance `main.ts` registers globally, and the controller's own. -/
inductive Registration where
  | global | controller
  deriving DecidableEq, Repr

instance : Fintype Registration := ⟨{.global, .controller}, fun k => by cases k <;> decide⟩

section Delivery
variable {κ : Type*} [DecidableEq κ] (co : Coercions) (i : MessageInterceptor)
  (message : RmqMessage) (outcome : Except Failure Value)

/-- The instances `κ` after the handler: they share a configuration, and each sees the
outcome. -/
def handled : World κ (List ChannelOp) (Script ChannelOp) :=
  ⟨[], fun _ => MessageInterceptor.intercept co i message "rpc" outcome⟩

/-- No call throws, and every instance has done all it does for the delivery. -/
def Completes (turns : List (Turn κ Reply PEmpty)) : Prop :=
  (∀ t ∈ turns, t.accepted) ∧
    ∀ k, ((run (scripts κ ChannelOp).step (handled co i message outcome) turns).calls
      k).ended = true

def SettledOnce (log : List ChannelOp) : Prop :=
  log.countP ChannelOp.settles = 1 ∧ log.countP ChannelOp.republishes ≤ 1

variable {co i message outcome}

/-- The channel gets one settlement from each registered instance. -/
theorem settlements_eq_card [Fintype κ] (hmanual : truthy i.noAck = false)
    {turns : List (Turn κ Reply PEmpty)} (h : Completes co i message outcome turns) :
    (run (scripts κ ChannelOp).step (handled co i message outcome) turns).shared.countP
      ChannelOp.settles = Fintype.card κ := by
  have hend := calls_at_end ChannelOp.settles
    (fun _ : κ => MessageInterceptor.intercept co i message "rpc" outcome) h.1 h.2
  simpa [handled, MessageInterceptor.intercept_settles co i message hmanual] using hend

def inTurn : List (Turn Registration Reply PEmpty) :=
  [.global, .global, .global, .controller, .controller, .controller].map fun k =>
    .call k .accepted

theorem inTurn_completes (hmanual : truthy i.noAck = false) :
    Completes co i message outcome inTurn := by
  refine ⟨fun t ht => ?_, fun k => ?_⟩
  · obtain ⟨k, -, rfl⟩ := List.mem_map.mp ht
    rfl
  · cases k with
    | global => exact MessageInterceptor.intercept_ends co i message hmanual outcome _ _ _
    | controller => exact MessageInterceptor.intercept_ends co i message hmanual outcome _ _ _

/-- With the two registrations there are, no delivery is ever settled once, whatever the
message, its headers and the handler's outcome: each instance settles it. -/
theorem never_settled_once (co : Coercions) (i : MessageInterceptor)
    (hmanual : truthy i.noAck = false) (message : RmqMessage) (outcome : Except Failure Value) :
    (∃ turns, Completes (κ := Registration) co i message outcome turns) ∧
    ∀ turns, Completes (κ := Registration) co i message outcome turns →
      ¬SettledOnce
        (run (scripts Registration ChannelOp).step (handled co i message outcome)
          turns).shared := by
  refine ⟨⟨inTurn, inTurn_completes hmanual⟩, fun turns h honce => ?_⟩
  have htwo := settlements_eq_card hmanual h
  rw [honce.1] at htwo
  exact absurd htwo (by decide)

end Delivery

section Sample

def sampleMessage : RmqMessage := ⟨"{}", [], "", "rewards"⟩

def defaultInterceptor : MessageInterceptor := .ofConfig fun _ => none

theorem never_settled_once_sample :
    (∃ turns, Completes (κ := Registration) Coercions.plain defaultInterceptor sampleMessage
      (.ok none) turns) ∧
    ∀ turns, Completes (κ := Registration) Coercions.plain defaultInterceptor sampleMessage
        (.ok none) turns →
      ¬SettledOnce (run (scripts Registration ChannelOp).step
        (handled Coercions.plain defaultInterceptor sampleMessage (.ok none)) turns).shared :=
  never_settled_once Coercions.plain defaultInterceptor rfl sampleMessage (.ok none)

/-- A first failure under the default settings: two rejects and two copies. -/
theorem failure_settled_twice :
    Completes (κ := Registration) Coercions.plain defaultInterceptor sampleMessage
      (.error (.native "Error")) inTurn ∧
    ¬SettledOnce (run (scripts Registration ChannelOp).step
      (handled Coercions.plain defaultInterceptor sampleMessage (.error (.native "Error")))
      inTurn).shared := by
  refine ⟨inTurn_completes rfl, fun h => ?_⟩
  cases h.1

end Sample
end MsaTuto
