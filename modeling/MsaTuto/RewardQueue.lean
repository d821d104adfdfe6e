import MsaTuto.BrokerCopies
import MsaTuto.RewardPipeline
import MsaTuto.Simulation

/-! The reward requests with the broker between the two servers: what the gateway publishes, the
queue, the handler under both registrations of the interceptor, and the process that may stop. All
that comes of it can come of `RewardPipeline`, whose broker delivers as it likes. -/
namespace MsaTuto
open Js Runs AckQueue RewardRequestService

/-- The text of a packet in the queue is what `JSON.stringify` makes of it, and the handler gets
what `JSON.parse` makes of a text. Messages are acknowledged by the interceptor. -/
structure RewardQueue (ι μ : Type*) extends RewardPipeline ι μ where
  interceptor : MessageInterceptor
  manual : truthy interceptor.noAck = false
  queueName : String
  properties : ι → Fields
  serialize : Packet → String
  deserialize : String → Packet
  roundTrip : ∀ i packet, (arrival i).message toRewardPipeline.routes = some packet →
    deserialize (serialize packet) = packet

/-- The handlings that there have been are numbered, and `serving` has the one of each delivery. -/
structure QueueState (ι μ : Type*) where
  broker : RetryState ι
  server : EventServerWorld (ι × Nat) μ
  serving : Nat → Nat
  handlings : Nat

inductive QueueMove (ι μ : Type*) where
  /-- The gateway handles the request, and what it publishes arrives at the broker or does not. -/
  | http (i : ι) (arrives : Bool)
  | deliver
  /-- A turn of the handler of the delivery `n`. -/
  | turn (n : Nat) (now : Int) (newId : String)
  /-- The interceptors see what the handler has come to. -/
  | observe (n : Nat)
  | channel (n : Nat) (k : Registration) (reply : Runs.Reply)
  | close
  | stop
  | mutate (j : μ) (now : Int)
  | dropKey (key : String) (now : Int)

namespace RewardQueue
variable {ι μ : Type*}

section Model
variable (q : RewardQueue ι μ)

def message (i : ι) (packet : Packet) : RmqMessage :=
  ⟨q.serialize packet, q.properties i, "", q.queueName⟩

/-- The call that the handler makes of a text, or what it throws. -/
def handlerCall (content : String) : Except Failure (RewardCall Value) :=
  (createRewardRequest (q.deserialize content).payload).map rewardCall

/-- What the handler of the delivery `n` has come to, if it has come to anything. -/
def outcome (st : QueueState ι μ) (n : Nat) : Option (Except Failure Value) :=
  match st.broker.queue.out[n]? with
  | none => none
  | some d =>
    match q.handlerCall d.item.message.content with
    | .error f => some (.error f)
    | .ok _ =>
      match st.server.calls (d.item.id, st.serving n) with
      | .created _ | .returned _ => some (.ok none)
      | .raised f => some (.error f)
      | _ => none

/-- What a move is to the broker and the interceptors. -/
def brokerEvent (st : QueueState ι μ) : QueueMove ι μ → Option (RetryEvent ι)
  | .http i arrives =>
    if arrives then
      ((q.arrival i).message q.routes).map fun packet => .arrive ⟨i, q.message i packet⟩
    else none
  | .deliver => some .deliver
  | .observe n => (q.outcome st n).map (.handled n)
  | .channel n k reply => some (.channel n k reply)
  | .close => some .close
  | .stop => some .stop
  | .turn _ _ _ | .mutate _ _ | .dropKey _ _ => none

variable [DecidableEq ι] [DecidableEq μ]

/-- A turn of the call `key`, with the arguments of the text that was delivered. -/
def handle (key : ι × Nat) (content : String) (m : Moment) (w : EventServerWorld (ι × Nat) μ) :
    EventServerWorld (ι × Nat) μ :=
  match q.handlerCall content with
  | .ok call =>
    ({ q.server with call := fun _ => call } : EventBackend (ι × Nat) μ Value).pool.step w
      (.call key m)
  | .error _ => w

def serverStep (st : QueueState ι μ) : QueueMove ι μ → EventServerWorld (ι × Nat) μ
  | .turn n now newId =>
    match st.broker.queue.out[n]? with
    | some d => q.handle (d.item.id, st.serving n) d.item.message.content
        { now := now, newId := newId } st.server
    | none => st.server
  | .mutate j now => q.server.pool.step st.server (.env (.mutate j now))
  | .dropKey key now => q.server.pool.step st.server (.env (.dropKey key now))
  | _ => st.server

/-- A delivery begins a handling of its own. -/
def begins (st : QueueState ι μ) : QueueMove ι μ → Bool
  | .deliver => RetryBroker.mayDeliver st.broker
  | _ => false

def step (st : QueueState ι μ) (t : QueueMove ι μ) : QueueState ι μ where
  broker :=
    match q.brokerEvent st t with
    | some e => RetryBroker.step q.co q.interceptor q.queueName st.broker e
    | none => st.broker
  server := q.serverStep st t
  serving :=
    if begins st t then Function.update st.serving st.broker.queue.out.length st.handlings
    else st.serving
  handlings := if begins st t then st.handlings + 1 else st.handlings

def start (s : ConsumerState) : QueueState ι μ :=
  ⟨.start [], ⟨⟨s, fun _ => .started⟩, fun _ => .started⟩, fun _ => 0, 0⟩

def reached (s : ConsumerState) (moves : List (QueueMove ι μ)) : QueueState ι μ :=
  run q.step (start s) moves

/-- What a move is to the pipeline. -/
def pipelineMove (st : QueueState ι μ) : QueueMove ι μ → Option (PipelineMove ι μ)
  | .http i arrives => if arrives then some (.http i) else none
  | .turn n now newId =>
    (st.broker.queue.out[n]?).map fun d => .handle d.item.id (st.serving n) now newId
  | .mutate j now => some (.mutate j now)
  | .dropKey key now => some (.dropKey key now)
  | _ => none

/-- A copy of what the gateway published for one of the requests. -/
structure Genuine (published : List ι) (c : Copy ι) : Prop where
  published : c.id ∈ published
  routed : c.message.routingKey = q.queueName
  text : ∃ packet, (q.arrival c.id).message q.routes = some packet ∧
    c.message.content = q.serialize packet

/-- The pipeline has come to the same, and the broker has nothing but copies of its messages. -/
structure Follows (st : QueueState ι μ) (ps : PipelineState ι μ) : Prop where
  server : ps.server = st.server
  copies : RetryBroker.Carries (q.Genuine ps.published) st.broker

end Model

section Simulation
variable {q : RewardQueue ι μ} {published : List ι} {c : Copy ι}

theorem Genuine.mono {published' : List ι} (h : q.Genuine published c)
    (hle : published ⊆ published') : q.Genuine published' c :=
  ⟨hle h.published, h.routed, h.text⟩

theorem genuine_keptByRetries : RetryBroker.KeptByRetries q.queueName (q.Genuine published) :=
  fun _ _ h => ⟨h.published, rfl, h.text⟩

/-- The handler makes of a genuine copy what it makes of the message. -/
theorem Genuine.handlerCall (h : q.Genuine published c) :
    (∃ call, q.handlerCall c.message.content = .ok call ∧ q.callOf c.id = some call) ∨
    (∃ f, q.handlerCall c.message.content = .error f) ∧ q.callOf c.id = none := by
  obtain ⟨packet, hmessage, htext⟩ := h.text
  have hpacket := q.roundTrip c.id packet hmessage
  simp only [RewardPipeline.callOf, Arrival.call, RewardQueue.handlerCall, htext, hpacket, hmessage,
    Option.bind_some]
  cases createRewardRequest packet.payload with
  | ok args => exact .inl ⟨_, rfl, rfl⟩
  | error f => exact .inr ⟨⟨f, rfl⟩, rfl⟩

/-- All that the broker gets from the outside is what the gateway publishes. -/
theorem arrives_genuine {st : QueueState ι μ} {t : QueueMove ι μ} {copy : Copy ι}
    (h : q.brokerEvent st t = some (.arrive copy)) :
    ∃ i packet, t = .http i true ∧ (q.arrival i).message q.routes = some packet ∧
      copy = ⟨i, q.message i packet⟩ := by
  cases t with
  | http i arrives =>
    cases arrives with
    | false => cases h
    | true =>
      obtain ⟨packet, hmessage, hcopy⟩ := Option.map_eq_some_iff.mp (by simpa [brokerEvent] using h)
      cases hcopy
      exact ⟨i, packet, rfl, hmessage, rfl⟩
  | observe n => simp [brokerEvent] at h
  | _ => cases h

variable [DecidableEq ι] [DecidableEq μ]

/-- A turn of a handling is one of the pipeline's. -/
theorem step_handle_genuine {ps : PipelineState ι μ} (h : q.Genuine ps.published c) (n : Nat)
    (now : Int) (newId : String) :
    q.toRewardPipeline.step ps (.handle c.id n now newId) =
      ⟨ps.published, q.handle (c.id, n) c.message.content { now := now, newId := newId }
        ps.server⟩ := by
  obtain ⟨call, hok, hcall⟩ | ⟨⟨f, herror⟩, hnone⟩ := h.handlerCall
  · rw [q.step_handle h.published hcall]
    simp only [handle, hok]
    rfl
  · simp [RewardPipeline.step, handle, herror, hnone]

theorem Follows.copies_step {st : QueueState ι μ} {ps : PipelineState ι μ} (h : q.Follows st ps)
    (t : QueueMove ι μ) {published : List ι} (hle : ps.published ⊆ published)
    (hnew : ∀ i, t = .http i true → ((q.arrival i).message q.routes).isSome → i ∈ published) :
    RetryBroker.Carries (q.Genuine published) (q.step st t).broker := by
  have hnow := h.copies.mono fun c hc => hc.mono hle
  simp only [step]
  cases hevent : q.brokerEvent st t with
  | none => exact hnow
  | some e =>
    refine hnow.step genuine_keptByRetries e fun copy he => ?_
    subst he
    obtain ⟨i, packet, ht, hmessage, rfl⟩ := arrives_genuine hevent
    exact ⟨hnew i ht (by rw [hmessage]; rfl), rfl, packet, hmessage, rfl⟩

theorem follows_step (q : RewardQueue ι μ) :
    Simulates q.step pipelineMove q.toRewardPipeline.step q.Follows := by
  intro st ps t h
  have hquiet : (∀ i, t ≠ .http i true) →
      RetryBroker.Carries (q.Genuine ps.published) (q.step st t).broker :=
    fun hne => h.copies_step t (List.Subset.refl _) fun i ht => absurd ht (hne i)
  cases t with
  | http i arrives =>
    cases arrives with
    | false => exact ⟨h.server, hquiet fun j => by simp⟩
    | true =>
      change q.Follows _ (q.toRewardPipeline.step ps (.http i))
      simp only [RewardPipeline.step]
      split
      next hsome =>
        refine ⟨h.server, h.copies_step _ (List.subset_cons_self _ _) fun j hj _ => ?_⟩
        cases hj
        exact List.mem_cons_self
      next hnone =>
        refine ⟨h.server, h.copies_step _ (List.Subset.refl _) fun j hj hsome => ?_⟩
        cases hj
        exact absurd hsome hnone
  | turn n now newId =>
    have hcopies := hquiet fun i => by simp
    cases hd : st.broker.queue.out[n]? with
    | none =>
      have himage : pipelineMove st (.turn n now newId : QueueMove ι μ) = none := by
        simp [pipelineMove, hd]
      rw [himage]
      refine ⟨?_, hcopies⟩
      simp only [step, serverStep, hd]
      exact h.server
    | some d =>
      have himage : pipelineMove st (.turn n now newId : QueueMove ι μ) =
          some (.handle d.item.id (st.serving n) now newId) := by
        simp [pipelineMove, hd]
      rw [himage]
      simp only [Option.toList_some, run]
      rw [step_handle_genuine (h.copies.out n d hd)]
      refine ⟨?_, hcopies⟩
      simp only [step, serverStep, hd, h.server]
  | mutate j now =>
    refine ⟨?_, hquiet fun i => by simp⟩
    change q.server.pool.step ps.server (.env (.mutate j now)) =
      q.server.pool.step st.server (.env (.mutate j now))
    rw [h.server]
  | dropKey key now =>
    refine ⟨?_, hquiet fun i => by simp⟩
    change q.server.pool.step ps.server (.env (.dropKey key now)) =
      q.server.pool.step st.server (.env (.dropKey key now))
    rw [h.server]
  | deliver => exact ⟨h.server, hquiet fun i => by simp⟩
  | observe n => exact ⟨h.server, hquiet fun i => by simp⟩
  | channel n k reply => exact ⟨h.server, hquiet fun i => by simp⟩
  | close => exact ⟨h.server, hquiet fun i => by simp⟩
  | stop => exact ⟨h.server, hquiet fun i => by simp⟩

/-- What the pipeline does meanwhile. -/
def pipelineMoves (q : RewardQueue ι μ) (s : ConsumerState) (moves : List (QueueMove ι μ)) :
    List (PipelineMove ι μ) :=
  followed q.step pipelineMove (start s) moves

theorem follows_reached (q : RewardQueue ι μ) (s : ConsumerState) (moves : List (QueueMove ι μ)) :
    q.Follows (q.reached s moves) (q.toRewardPipeline.reached s (q.pipelineMoves s moves)) :=
  (follows_step q).run ⟨rfl, RetryBroker.carries_start fun c hc => by cases hc⟩ moves

end Simulation
end RewardQueue
end MsaTuto
