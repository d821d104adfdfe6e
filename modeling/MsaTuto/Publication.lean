import MsaTuto.ErrorStatus
import MsaTuto.Runs

/-! Requests on message-queue routes: the answers of `gateway.controller.ts`, and what becomes of
the publications that `rabbitmq.service.ts` has started by then. -/
namespace MsaTuto
open Js Runs

/-- `RabbitmqService.emitEvent`: the packet handed to `client.emit`, or what is thrown before.
`emit` itself returns at once, and the observable it returns is dropped. -/
def RabbitmqService.emitEvent (route : RabbitmqRoute) (data : Fields) (uuid timestamp : String) :
    Except Failure Packet :=
  match get (some (route.options.getD (.obj []))) "messageId" with
  | some _ => .ok (MsaTuto.emitEvent route data uuid timestamp)
  | none => .error typeError

namespace GatewayController

def acceptedReply (req : HttpRequest) (timestamp : String) : Reply :=
  ⟨202, some (literal [("message", some (.str "요청이 접수되었습니다.")),
    ("requestId", orElse (req.headers.lookup "x-correlation-id") (some (.str "unknown"))),
    ("timestamp", some (.str timestamp))])⟩

def queueErrorReply : Reply :=
  ⟨500, some (literal [("statusCode", some (.num 500)),
    ("message", some (.str "요청을 처리할 수 없습니다. 나중에 다시 시도해 주세요.")),
    ("error", some (.str "Message Queue Error"))])⟩

/-- The answer, and the packet whose publication has been started. -/
def handleMessageQueueRequest (req : HttpRequest) (route : RabbitmqRoute)
    (uuid timestamp : String) : Reply × Option Packet :=
  match RabbitmqService.emitEvent route (messageData req timestamp) uuid timestamp with
  | .ok packet => (acceptedReply req timestamp, some packet)
  | .error _ => (queueErrorReply, none)

end GatewayController

/-- A publication, as its observable reports it. -/
inductive Publication where
  | pending (packet : Packet)
  | accepted (packet : Packet)
  | failed (packet : Packet) (failure : Failure)

inductive QueuePhase where
  | received
  | answered (reply : Reply)

structure QueueMoment where
  uuid : String
  timestamp : String

/-- The broker takes the message of request `k`, or its publication fails. -/
inductive BrokerEvent (κ : Type*) where
  | accepts (k : κ)
  | fails (k : κ) (failure : Failure)

section Requests
variable {κ : Type*} [DecidableEq κ] (req : κ → HttpRequest) (route : κ → RabbitmqRoute)

/-- Only what is pending can be settled. -/
def settle (outcome : Packet → Publication) : Option Publication → Option Publication
  | some (.pending packet) => some (outcome packet)
  | publication => publication

def BrokerEvent.act : BrokerEvent κ → (κ → Option Publication) → κ → Option Publication
  | .accepts k, s => Function.update s k (settle .accepted (s k))
  | .fails k f, s => Function.update s k (settle (.failed · f) (s k))

/-- The handler has no `await`: it starts the publication and answers in one turn. -/
def queueAct (k : κ) (m : QueueMoment) (l : QueuePhase) (s : κ → Option Publication) :
    QueuePhase × (κ → Option Publication) :=
  match l with
  | .received =>
    let handled :=
      GatewayController.handleMessageQueueRequest (req k) (route k) m.uuid m.timestamp
    (.answered handled.1, Function.update s k (handled.2.map .pending))
  | .answered reply => (.answered reply, s)

def queueRequests : Pool κ QueueMoment (BrokerEvent κ) (κ → Option Publication) QueuePhase where
  act := queueAct req route
  env e s := e.act s

def queueStart : World κ (κ → Option Publication) QueuePhase :=
  ⟨fun _ => none, fun _ => .received⟩

/-- What an answer promises, as far as the publication is settled. -/
structure AnswerHolds (reply : Reply) (publication : Option Publication) : Prop where
  accepted : reply.status = 202 → ∃ packet,
    publication = some (.pending packet) ∨ publication = some (.accepted packet)
  failed : (publication = none ∨ ∃ packet f, publication = some (.failed packet f)) →
    reply.status = 500

def AnswersHold (w : World κ (κ → Option Publication) QueuePhase) : Prop :=
  ∀ k reply, w.calls k = .answered reply → AnswerHolds reply (w.shared k)

/-- The turn is no failure of a publication that is pending. -/
def NothingFails (w : World κ (κ → Option Publication) QueuePhase) :
    Turn κ QueueMoment (BrokerEvent κ) → Prop
  | .env (.fails k _) => ∀ packet, w.shared k ≠ some (.pending packet)
  | _ => True

/-- Where the request stands while nothing has failed. -/
def AnswerFits (l : QueuePhase) (publication : Option Publication) : Prop :=
  match l, publication with
  | .received, publication => publication = none
  | .answered reply, none => reply.status = 500
  | .answered reply, some (.pending _) | .answered reply, some (.accepted _) => reply.status = 202
  | .answered _, some (.failed _ _) => False

theorem AnswerFits.holds {reply : Reply} {publication : Option Publication}
    (h : AnswerFits (.answered reply) publication) : AnswerHolds reply publication := by
  cases publication with
  | none =>
    have hstatus : reply.status = 500 := h
    exact ⟨fun h202 => by omega, fun _ => hstatus⟩
  | some publication =>
    cases publication with
    | pending packet => exact ⟨fun _ => ⟨packet, .inl rfl⟩, by simp⟩
    | accepted packet => exact ⟨fun _ => ⟨packet, .inr rfl⟩, by simp⟩
    | failed packet f => exact h.elim

variable {req route} {w : World κ (κ → Option Publication) QueuePhase}

theorem answerFits_handled (r : HttpRequest) (rt : RabbitmqRoute) (uuid timestamp : String) :
    AnswerFits
      (.answered (GatewayController.handleMessageQueueRequest r rt uuid timestamp).1)
      ((GatewayController.handleMessageQueueRequest r rt uuid timestamp).2.map .pending) := by
  simp only [GatewayController.handleMessageQueueRequest]
  cases RabbitmqService.emitEvent rt (messageData r timestamp) uuid timestamp with
  | ok packet => rfl
  | error f => rfl

theorem answerFits_call (k : κ) (m : QueueMoment) {l : QueuePhase} {s : κ → Option Publication}
    (h : AnswerFits l (s k)) :
    AnswerFits (queueAct req route k m l s).1 ((queueAct req route k m l s).2 k) := by
  cases l with
  | received =>
    simp only [queueAct, Function.update_self]
    exact answerFits_handled (req k) (route k) m.uuid m.timestamp
  | answered reply => exact h

theorem queueAct_other {k k' : κ} (hk : k' ≠ k) (m : QueueMoment) (l : QueuePhase)
    (s : κ → Option Publication) : (queueAct req route k m l s).2 k' = s k' := by
  cases l with
  | received => simp only [queueAct, Function.update_of_ne hk]
  | answered reply => rfl

theorem AnswerFits.settle {l : QueuePhase} {publication : Option Publication}
    (h : AnswerFits l publication) : AnswerFits l (settle .accepted publication) := by
  cases publication with
  | none => exact h
  | some publication =>
    cases publication with
    | pending packet =>
      cases l with
      | received => cases h
      | answered reply => exact h
    | accepted packet => exact h
    | failed packet f => exact h

theorem settle_of_not_pending {publication : Option Publication}
    (h : ∀ packet, publication ≠ some (.pending packet)) (outcome : Packet → Publication) :
    settle outcome publication = publication := by
  cases publication with
  | none => rfl
  | some publication =>
    cases publication with
    | pending packet => exact absurd rfl (h packet)
    | accepted packet => rfl
    | failed packet f => rfl

theorem answersFit_step (h : ∀ k, AnswerFits (w.calls k) (w.shared k))
    {t : Turn κ QueueMoment (BrokerEvent κ)} (ht : NothingFails w t) (k : κ) :
    AnswerFits (((queueRequests req route).step w t).calls k)
      (((queueRequests req route).step w t).shared k) := by
  cases t with
  | call k' m =>
    by_cases hk : k = k'
    · subst hk
      rw [step_call_self, step_call_shared]
      exact answerFits_call k m (h k)
    · rw [step_call_other _ _ hk, step_call_shared]
      exact (queueAct_other hk m (w.calls k') w.shared).symm ▸ h k
  | env e =>
    rw [step_env_calls, step_env_shared]
    cases e with
    | accepts k' =>
      by_cases hk : k = k'
      · subst hk
        simp only [queueRequests, BrokerEvent.act, Function.update_self]
        exact (h k).settle
      · simp only [queueRequests, BrokerEvent.act, Function.update_of_ne hk]
        exact h k
    | fails k' f =>
      by_cases hk : k = k'
      · subst hk
        simp only [queueRequests, BrokerEvent.act, Function.update_self]
        rw [settle_of_not_pending ht]
        exact h k
      · simp only [queueRequests, BrokerEvent.act, Function.update_of_ne hk]
        exact h k

/-- The failure of a pending publication finds its request answered with 202. -/
theorem nothingFails_of_hold (h : ∀ k, AnswerFits (w.calls k) (w.shared k))
    {t : Turn κ QueueMoment (BrokerEvent κ)}
    (hnext : AnswersHold ((queueRequests req route).step w t)) : NothingFails w t := by
  cases t with
  | call k m => trivial
  | env e =>
    cases e with
    | accepts k => trivial
    | fails k f =>
      intro packet hpending
      have hfit := h k
      rw [hpending] at hfit
      cases hl : w.calls k with
      | received =>
        rw [hl] at hfit
        cases hfit
      | answered reply =>
        rw [hl] at hfit
        have hstatus : reply.status = 202 := hfit
        have hfailed : ((queueRequests req route).step w (.env (.fails k f))).shared k =
            some (.failed packet f) := by
          simp [queueRequests, BrokerEvent.act, settle, hpending]
        have hholds := (hnext k reply hl).failed (.inr ⟨packet, f, hfailed⟩)
        omega

/-- Whatever requests come and in whatever order the broker reports, the answers are true of the
publications exactly if no publication fails once `emit` has started it. -/
theorem answers_hold_iff (req : κ → HttpRequest) (route : κ → RabbitmqRoute)
    (turns : List (Turn κ QueueMoment (BrokerEvent κ))) :
    Always (queueRequests req route).step AnswersHold queueStart turns ↔
      Along (queueRequests req route).step NothingFails queueStart turns := by
  let I (w : World κ (κ → Option Publication) QueuePhase) : Prop :=
    ∀ k, AnswerFits (w.calls k) (w.shared k)
  have hstart : I queueStart := fun _ => rfl
  refine always_iff_along (R := fun _ _ => True) ?_ (fun w t h _ ht => answersFit_step h ht)
    (fun w t h _ hnext => nothingFails_of_hold h hnext) hstart
    (along_of_forall (fun _ _ => trivial) _ _)
  intro w h k reply hl
  have hfit := h k
  rw [hl] at hfit
  exact hfit.holds

end Requests

/-- Confirmed with 202, and never published. -/
theorem confirmed_reward_request_lost :
    ¬Always (queueRequests (fun _ : Unit => ⟨"POST", "/event-requests/rewards", [], none,
        some (.obj [("eventId", .str "e1")]), some (.obj [("userId", .str "u1")]), []⟩)
      fun _ => rewardsRabbitmq).step AnswersHold queueStart
      [.call () ⟨"m1", "t"⟩, .env (.fails () (.native "Error"))] := by
  intro h
  have hanswer := (h.last () _ rfl).failed (.inr ⟨_, _, rfl⟩)
  exact absurd hanswer (by decide)

end MsaTuto
