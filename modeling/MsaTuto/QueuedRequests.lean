import MsaTuto.RewardQueue

/-! What the two servers and the broker between them come to: every stored request is one that was
asked for, once, and none is lost as long as no retry is. -/
namespace MsaTuto
open Js Runs AckQueue RewardRequestService

namespace RewardQueue
variable {ι μ : Type*} [DecidableEq ι] [DecidableEq μ]

section Safety
variable (q : RewardQueue ι μ) (s : ConsumerState)

/-- After the message of the request had arrived at the broker, a delivery of a copy of it had a
turn in which its `eventId` found the event, stored, not deleted, active and in its period. -/
def HandledOpen (moves : List (QueueMove ι μ)) (i : ι) (found : String) (e : Event) : Prop :=
  ∃ us n now newId vs d, moves = us ++ .turn n now newId :: vs ∧ .http i true ∈ us ∧
    (q.reached s us).broker.queue.out[n]? = some d ∧ d.item.id = i ∧
    q.ids.select (q.reached s us).server.shared.consumer.events
      ((q.arrival i).bodyField "eventId") = some (some found) ∧
    (q.reached s us).server.shared.consumer.events found = some e ∧ OpenAt now e

/-- What the game-event server does is what it does in the pipeline, where the broker delivers as it
likes: no retry, no channel that closes and no process that stops adds anything to that. -/
theorem queue_follows_pipeline (moves : List (QueueMove ι μ)) :
    (q.toRewardPipeline.reached s (q.pipelineMoves s moves)).server = (q.reached s moves).server :=
  (q.follows_reached s moves).server

variable {q s} {moves : List (QueueMove ι μ)} {i : ι} {found : String} {e : Event}

theorem http_of_pipelineMoves (h : .http i ∈ q.pipelineMoves s moves) : .http i true ∈ moves := by
  obtain ⟨us', vs', hsplit⟩ := List.append_of_mem h
  obtain ⟨us, t, vs, rfl, -, himage⟩ := split_followed hsplit
  refine List.mem_append_right _ ?_
  cases t with
  | http j arrives =>
    cases arrives with
    | true =>
      cases himage
      exact List.mem_cons_self
    | false => cases himage
  | turn n now newId =>
    obtain ⟨d, -, hd⟩ := Option.map_eq_some_iff.mp himage
    cases hd
  | _ => cases himage

theorem handledOpen_of_readsOpen {n : Nat}
    (h : q.ReadsOpen s (q.pipelineMoves s moves) i n found e) :
    q.HandledOpen s moves i found e := by
  obtain ⟨pre, now, newId, post, hsplit, hhttp, hselect, hevent, hopen⟩ := h
  obtain ⟨us, t, vs, rfl, hpre, himage⟩ := split_followed hsplit
  have hserver := (q.follows_reached s us).server
  have hus : q.pipelineMoves s us = pre := hpre
  rw [hus] at hserver
  cases t with
  | turn k now' newId' =>
    obtain ⟨d, hd, hmove⟩ := Option.map_eq_some_iff.mp himage
    cases hmove
    rw [hserver] at hselect hevent
    exact ⟨us, k, now, newId, vs, d, rfl, http_of_pipelineMoves (hus ▸ hhttp), hd, rfl, hselect,
      hevent, hopen⟩
  | http j arrives => cases arrives <;> cases himage
  | _ => cases himage

/-- Where a stored request comes from. -/
theorem asked_of_stored {r : RewardRequest}
    (hr : r ∈ (q.reached s moves).server.shared.consumer.requests.items)
    (hnew : r ∉ s.requests.items) :
    ∃ i found e, q.AskedFor (q.arrival i) r ∧ q.HandledOpen s moves i found e ∧
      (∀ t, (q.arrival i).bodyField "eventId" = some (.str t) → found = r.eventId) ∧
      r.status = if e.type = some .FRIEND_INVITATION then .APPROVED else .FAILED := by
  rw [← (q.follows_reached s moves).server] at hr
  obtain ⟨i, n, found, e, hasked, hread, hfound, hstatus⟩ :=
    RewardPipeline.origin_of_stored hr hnew
  exact ⟨i, found, e, hasked, handledOpen_of_readsOpen hread, hfound, hstatus⟩

/-- Every request stored in a run is counted by an HTTP request of its own, which asked for it in
the name of its authenticated user; a delivery of a copy of its message was handled while the event
found for its `eventId` was open, which for a text is the event of the request; and it is approved
exactly if that was an invitation event. Copies that retries publish, deliveries that come back
from a closed channel or a stopped process: none of them counts twice. -/
theorem queued_requests_counted (q : RewardQueue ι μ) (s : ConsumerState)
    (moves : List (QueueMove ι μ)) :
    ∃ origin : {r // r ∈ (q.reached s moves).server.shared.consumer.requests.items ∧
        r ∉ s.requests.items} → ι,
      Function.Injective origin ∧ ∀ r, q.AskedFor (q.arrival (origin r)) r.1 ∧
        ∃ found e, q.HandledOpen s moves (origin r) found e ∧
          (∀ t, (q.arrival (origin r)).bodyField "eventId" = some (.str t) →
            found = r.1.eventId) ∧
          r.1.status = if e.type = some .FRIEND_INVITATION then .APPROVED else .FAILED := by
  have hsource := fun r : {r // r ∈ (q.reached s moves).server.shared.consumer.requests.items ∧
      r ∉ s.requests.items} => asked_of_stored r.2.1 r.2.2
  choose origin found e hasked hhandled hfound hstatus using hsource
  refine ⟨origin, ?_, fun r => ⟨hasked r, found r, e r, hhandled r, hfound r, hstatus r⟩⟩
  intro r r' heq
  have hasked' := hasked r'
  rw [← heq] at hasked'
  by_contra hne
  exact (q.reached s moves).server.shared.consumer.requests.unique.forall r.2.1 r'.2.1
    (fun h => hne (Subtype.ext h)) ((hasked r).pair hasked')

end Safety

section Delivery
variable (q : RewardQueue ι μ) (s : ConsumerState)

/-- No publication of a retry throws, and the process does not stop while a retry waits. -/
def Calm (st : QueueState ι μ) (t : QueueMove ι μ) : Prop :=
  ∀ e, q.brokerEvent st t = some e → RetryBroker.Undisturbed q.queueName st.broker e

/-- A request of the user for the event is stored. -/
def Answered (st : QueueState ι μ) (i : ι) : Prop :=
  ∃ call r, q.callOf i = some call ∧
    stored q.ids st.server.shared.consumer.requests call = some r

/-- The handler failed on a copy of the message whose retries were used up. -/
def GaveUp (moves : List (QueueMove ι μ)) (i : ι) : Prop :=
  ∃ us n vs d f, moves = us ++ .observe n :: vs ∧
    (q.reached s us).broker.queue.out[n]? = some d ∧ d.item.id = i ∧
    q.outcome (q.reached s us) n = some (.error f) ∧
    MessageInterceptor.retries q.co q.interceptor d.item.message = false

def Settled (moves : List (QueueMove ι μ)) (i : ι) : Prop :=
  q.Answered (q.reached s moves) i ∨ q.GaveUp s moves i

/-- The process does not stop, and nothing is asked of the channel. -/
def Mild : QueueMove ι μ → Prop
  | .stop | .channel _ _ _ => False
  | _ => True

variable {q s} {moves : List (QueueMove ι μ)} {i : ι}

omit [DecidableEq ι] [DecidableEq μ] in
theorem calm_of_mild {st : QueueState ι μ} {t : QueueMove ι μ} (h : Mild t) : q.Calm st t := by
  intro e he
  cases t with
  | channel n k reply => exact h.elim
  | stop => exact h.elim
  | http i arrives =>
    cases arrives with
    | false => cases he
    | true =>
      obtain ⟨packet, -, rfl⟩ := Option.map_eq_some_iff.mp he
      trivial
  | observe n =>
    obtain ⟨outcome, -, rfl⟩ := Option.map_eq_some_iff.mp he
    trivial
  | deliver => cases he; trivial
  | close => cases he; trivial
  | _ => cases he

omit [DecidableEq ι] [DecidableEq μ] in
/-- Nor is a call disturbed that an open channel takes. -/
theorem calm_of_open {st : QueueState ι μ} {n : Nat} {k : Registration}
    (h : (st.broker.queue.out[n]?.map Delivery.lapsed) = some false) :
    q.Calm st (.channel n k .accepted) := by
  intro e he
  cases he
  intro d tasks op next onThrow hd ht htask hthrew
  simp only [hd, Option.map_some, Option.some.injEq] at h
  simp [RetryBroker.answer, h] at hthrew

theorem answered_step (moves : List (QueueMove ι μ)) (t : QueueMove ι μ)
    (h : q.Answered (q.reached s moves) i) : q.Answered (q.step (q.reached s moves) t) i := by
  obtain ⟨call, r, hcall, hr⟩ := h
  have hfollows := q.follows_reached s moves
  have hnext := follows_step q _ _ t hfollows
  refine ⟨call, r, hcall, ?_⟩
  rw [← hnext.server]
  rw [← hfollows.server] at hr
  exact run_invariant (I := fun ps : PipelineState ι μ =>
    stored q.ids ps.server.shared.consumer.requests call = some r)
    (fun ps t h => q.stored_step ps t h) hr _

theorem reached_snoc (moves : List (QueueMove ι μ)) (t : QueueMove ι μ) :
    q.reached s (moves ++ [t]) = q.step (q.reached s moves) t :=
  run_append _ _ _

theorem Settled.append (h : q.Settled s moves i) (t : QueueMove ι μ) :
    q.Settled s (moves ++ [t]) i := by
  obtain hanswered | ⟨us, n, vs, d, f, rfl, hfailed⟩ := h
  · refine .inl ?_
    rw [reached_snoc]
    exact answered_step moves t hanswered
  · exact .inr ⟨us, n, vs ++ [t], d, f, by simp, hfailed⟩

/-- A handler that has returned has found, or seen to it, that the request is stored. -/
theorem answered_of_outcome {n : Nat} {d : Delivery (Copy ι)} {result : Value}
    (hd : (q.reached s moves).broker.queue.out[n]? = some d)
    (h : q.outcome (q.reached s moves) n = some (.ok result)) :
    q.Answered (q.reached s moves) d.item.id := by
  have hfollows := q.follows_reached s moves
  obtain ⟨call, hok, hcall⟩ | ⟨⟨f, herror⟩, -⟩ := (hfollows.copies.out n d hd).handlerCall
  · have hfits := q.handling_fits hcall ((q.reached s moves).serving n) s (q.pipelineMoves s moves)
    rw [hfollows.server] at hfits
    simp only [outcome, hd, hok] at h
    cases hphase : (q.reached s moves).server.calls (d.item.id, (q.reached s moves).serving n) with
    | created r =>
      rw [hphase] at hfits
      exact ⟨call, r, hcall, hfits⟩
    | returned r =>
      rw [hphase] at hfits
      exact ⟨call, r, hcall, hfits⟩
    | _ =>
      rw [hphase] at h
      cases h
  · simp [outcome, hd, herror] at h

theorem kept_step (moves : List (QueueMove ι μ)) (t : QueueMove ι μ)
    (h : RetryBroker.Kept q.queueName (q.Settled s moves) (q.reached s moves).broker)
    (hcalm : q.Calm (q.reached s moves) t) :
    RetryBroker.Kept q.queueName (q.Settled s (moves ++ [t]))
      (q.step (q.reached s moves) t).broker := by
  have hnow := h.mono fun i hi => hi.append t
  simp only [step]
  cases hevent : q.brokerEvent (q.reached s moves) t with
  | none => exact hnow
  | some e =>
    refine hnow.step e (hcalm e hevent) ?_ ?_
    · intro copy he
      subst he
      obtain ⟨i, packet, -, -, rfl⟩ := arrives_genuine hevent
      rfl
    · intro n d outcome he hd hnone hwhy
      subst he
      cases t with
      | observe k =>
        obtain ⟨out, hout, heq⟩ := Option.map_eq_some_iff.mp hevent
        cases heq
        obtain ⟨result, rfl⟩ | hretries := hwhy
        · exact Settled.append (.inl (answered_of_outcome hd hout)) _
        · cases outcome with
          | ok result => exact Settled.append (.inl (answered_of_outcome hd hout)) _
          | error f => exact .inr ⟨moves, n, [], d, f, rfl, hd, rfl, hout, hretries⟩
      | http j arrives => cases arrives <;> simp [brokerEvent] at hevent
      | _ => cases hevent

theorem kept_reached (moves : List (QueueMove ι μ)) (hcalm : Along q.step q.Calm (start s) moves) :
    RetryBroker.Kept q.queueName (q.Settled s moves) (q.reached s moves).broker := by
  refine run_history (I := fun us (st : QueueState ι μ) => Along q.step q.Calm (start s) us →
    RetryBroker.Kept q.queueName (q.Settled s us) st.broker) ?_ ?_ moves hcalm
  · exact fun _ => RetryBroker.kept_start fun c hc => by cases hc
  · intro us t h halong
    obtain ⟨hus, ht, -⟩ := along_append.mp halong
    exact kept_step us t (h hus) ht

theorem known_of_arrived (moves : List (QueueMove ι μ)) (harrived : .http i true ∈ moves)
    (hmessage : ((q.arrival i).message q.routes).isSome) :
    ∃ c ∈ (q.reached s moves).broker.known, c.id = i := by
  have hgrow : ∀ st t, (∃ c ∈ st.broker.known, c.id = i) →
      ∃ c ∈ (q.step st t).broker.known, c.id = i := by
    intro st t ⟨c, hc, hid⟩
    refine ⟨c, ?_, hid⟩
    simp only [step]
    split
    · exact RetryBroker.known_step _ hc
    · exact hc
  obtain ⟨us, vs, rfl⟩ := List.append_of_mem harrived
  obtain ⟨packet, hpacket⟩ := Option.isSome_iff_exists.mp hmessage
  rw [reached, run_append]
  refine run_invariant (I := fun st : QueueState ι μ => ∃ c ∈ st.broker.known, c.id = i) hgrow ?_ vs
  have hevent : q.brokerEvent (run q.step (start s) us) (.http i true) =
      some (.arrive ⟨i, q.message i packet⟩) := by
    simp [brokerEvent, hpacket]
  refine ⟨⟨i, q.message i packet⟩, ?_, rfl⟩
  simp only [step, hevent]
  exact List.mem_cons_self

/-- A message that has arrived at the broker is at every moment with the broker, or about to be
published anew, unless a request of its user for the event is stored, or a handler has failed on a
copy of it that has no retry left. -/
theorem queued_message_not_lost (q : RewardQueue ι μ) (s : ConsumerState)
    (moves : List (QueueMove ι μ)) (hcalm : Along q.step q.Calm (start s) moves)
    (harrived : .http i true ∈ moves) (hmessage : ((q.arrival i).message q.routes).isSome) :
    AckQueue.Holds (fun c => c.id = i) (q.reached s moves).broker.queue ∨
      RetryBroker.Awaits q.queueName (q.reached s moves).broker i ∨
      q.Answered (q.reached s moves) i ∨ q.GaveUp s moves i := by
  obtain ⟨c, hc, rfl⟩ := known_of_arrived (s := s) moves harrived hmessage
  obtain (hanswered | hgaveUp) | hheld | hwaits := (kept_reached moves hcalm).kept c hc
  · exact .inr (.inr (.inl hanswered))
  · exact .inr (.inr (.inr hgaveUp))
  · exact .inl hheld
  · exact .inr (.inl hwaits)

end Delivery

section Sample

def sampleText : String :=
  "\x7b\"pattern\":\"create_reward_request\",\"data\":\x7b\"method\":\"post\"," ++
  "\"path\":\"/event-requests/rewards\",\"params\":\x7b\x7d,\"body\":\x7b\"userId\":" ++
  "\"bob\",\"eventId\":\"e1\",\"metadata\":\x7b\"messageId\":\"m1\"\x7d\x7d,\"user\":" ++
  "\x7b\"userId\":\"alice\",\"email\":\"a@x\",\"roles\":[\"USER\"]\x7d,\"headers\":" ++
  "\x7b\x7d,\"timestamp\":\"t\",\"metadata\":\x7b\"messageId\":\"m1\",\"timestamp\":" ++
  "\"t\",\"persistent\":true\x7d\x7d\x7d"

/-- The one message there is in the sample, and its text. -/
def sampleQueue : RewardQueue Unit Empty where
  toRewardPipeline := RewardPipeline.samplePipeline
  interceptor := defaultInterceptor
  manual := rfl
  queueName := "rewards"
  properties _ := []
  serialize _ := sampleText
  deserialize _ := (RewardPipeline.asksForReward.message RewardPipeline.samplePipeline.routes).getD
    ⟨.null, []⟩
  roundTrip i packet h := by
    rw [show RewardPipeline.asksForReward.message _ = some packet from h]
    rfl

/-- The channel closes while the message is handled, which is then delivered anew. -/
def handledAnew : List (QueueMove Unit Empty) :=
  [.http () true, .deliver, .turn 0 5 "r1", .close, .deliver] ++
    List.replicate 5 (.turn 1 5 "r1") ++ [.observe 1]

def sampleQueueMoves : List (QueueMove Unit Empty) :=
  handledAnew ++ [.channel 1 .global .accepted]

theorem queued_message_not_lost_sample :
    AckQueue.Holds (fun c => c.id = ()) (sampleQueue.reached EventServer.invitationState
        sampleQueueMoves).broker.queue ∨
      RetryBroker.Awaits sampleQueue.queueName (sampleQueue.reached EventServer.invitationState
        sampleQueueMoves).broker () ∨
      sampleQueue.Answered (sampleQueue.reached EventServer.invitationState sampleQueueMoves) () ∨
      sampleQueue.GaveUp EventServer.invitationState sampleQueueMoves () := by
  refine queued_message_not_lost sampleQueue EventServer.invitationState sampleQueueMoves
    (along_append.mpr ⟨?_, calm_of_open (by decide +kernel), trivial⟩)
    List.mem_cons_self (by decide +kernel)
  refine (along_of_mem (P := Mild) ?_ _).mono fun st t => calm_of_mild
  intro t ht
  simp only [handledAnew, List.mem_append, List.mem_cons, List.mem_replicate,
    List.not_mem_nil, or_false] at ht
  obtain ((rfl | rfl | rfl | rfl | rfl) | ⟨-, rfl⟩) | rfl := ht
  all_goals trivial

end Sample
end RewardQueue
end MsaTuto
