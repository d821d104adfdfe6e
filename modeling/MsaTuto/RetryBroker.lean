import MsaTuto.AckQueue
import MsaTuto.MessageInterceptor

/-! The broker and the consumer together, with manual acknowledgement: what is delivered is
handled, settled and republished by the two registrations of the interceptor, while the
process may stop and the channel may fail between any two steps. -/
namespace MsaTuto
open Runs AckQueue

/-- One copy of a message; the copies that retries publish share its `id`. -/
structure Copy (ι : Type*) where
  id : ι
  message : RmqMessage

/-- The queue at the broker; what the process still has to do for each delivery, once its
handler has ended; all copies there have been, and the messages a handler has succeeded on. -/
structure RetryState (ι : Type*) where
  queue : Queue (Copy ι)
  tasks : Nat → Option (Registration → Script ChannelOp)
  known : List (Copy ι)
  succeeded : List ι

inductive RetryEvent (ι : Type*) where
  | arrive (copy : Copy ι)
  | deliver
  | handled (n : Nat) (outcome : Except Failure Js.Value)
  | channel (n : Nat) (k : Registration) (reply : Reply)
  | close
  | stop

namespace RetryState
variable {ι : Type*}

/-- A process that has just started, with a queue full of messages. -/
def start (ready : List (Copy ι)) : RetryState ι := ⟨⟨ready, []⟩, fun _ => none, ready, []⟩

def addCopy (s : RetryState ι) (copy : Copy ι) : RetryState ι :=
  { s with queue := s.queue.publish copy, known := copy :: s.known }

def withTasks (s : RetryState ι) (n : Nat) (tasks : Option (Registration → Script ChannelOp)) :
    RetryState ι :=
  { s with tasks := Function.update s.tasks n tasks }

def handlerEnded (s : RetryState ι) (id : ι) (outcome : Except Failure Js.Value) : RetryState ι :=
  match outcome with
  | .ok _ => { s with succeeded := id :: s.succeeded }
  | .error _ => s

@[simp] theorem handlerEnded_queue (s : RetryState ι) (id : ι)
    (outcome : Except Failure Js.Value) : (s.handlerEnded id outcome).queue = s.queue := by
  cases outcome <;> rfl

end RetryState

namespace RetryBroker
variable {ι : Type*}

/-- `prefetchCount: 1`: nothing is delivered beside an unsettled delivery. -/
def mayDeliver (s : RetryState ι) : Bool := s.queue.out.all fun d => !d.unsettled

section Steps
variable (co : Js.Coercions) (i : MessageInterceptor) (queueName : String)

/-- What a call on the channel of the delivery comes to: once that is closed, every call throws. -/
def answer (d : Delivery (Copy ι)) (reply : Reply) : Reply := if d.lapsed then .threw else reply

/-- A channel operation of delivery `n`, accepted. The default exchange routes by queue
name, and without a dead-letter exchange a message rejected for good is dropped. -/
def perform (n : Nat) (id : ι) (s : RetryState ι) : ChannelOp → RetryState ι
  | .ack => { s with queue := s.queue.settle n }
  | .reject requeue =>
    { s with queue := if requeue then s.queue.giveBack n else s.queue.settle n }
  | .publish exchange queue content options =>
    if exchange = "" ∧ queue = queueName then
      s.addCopy ⟨id, ⟨content, options, exchange, queue⟩⟩
    else s

def step (s : RetryState ι) : RetryEvent ι → RetryState ι
  | .arrive copy => s.addCopy copy
  | .deliver =>
    if mayDeliver s then
      { s with queue := s.queue.deliver }.withTasks s.queue.out.length none
    else s
  | .handled n outcome =>
    match s.queue.out[n]?, s.tasks n with
    | some d, none =>
      (s.handlerEnded d.item.id outcome).withTasks n
        (some fun _ => MessageInterceptor.intercept co i d.item.message "rpc" outcome)
    | _, _ => s
  | .channel n k reply =>
    match s.queue.out[n]?, s.tasks n with
    | some d, some tasks =>
      ((tasks k).step (answer d reply) []).2.foldl (perform queueName n d.item.id)
        (s.withTasks n (some (Function.update tasks k ((tasks k).step (answer d reply) []).1)))
    | _, _ => s
  | .close => { s with queue := s.queue.close }
  | .stop => { s with queue := s.queue.restart, tasks := fun _ => none }

/-- A handler has succeeded on the message, or the retries of one of its copies are used up. -/
def Spent (s : RetryState ι) (id : ι) : Prop :=
  id ∈ s.succeeded ∨ ∃ c ∈ s.known, c.id = id ∧ MessageInterceptor.retries co i c.message = false

def Due (s : RetryState ι) (id : ι) : Prop := (∃ c ∈ s.known, c.id = id) ∧ ¬Spent co i s id

/-- No message is lost: the broker holds a copy of each one that is due. -/
def NoneLost (s : RetryState ι) : Prop := ∀ id, Due co i s id → Holds (fun c => c.id = id) s.queue

/-- A reject without requeue that the channel accepts leaves another copy of a message that
is due with the broker. -/
def RejectsSpare (s : RetryState ι) : RetryEvent ι → Prop
  | .channel n k .accepted => ∀ d tasks next onThrow, s.queue.out[n]? = some d →
      s.tasks n = some tasks → tasks k = .call (.reject false) next onThrow →
      Due co i s d.item.id → HoldsBeside n (fun c => c.id = d.item.id) s.queue
  | _ => True

/-- The invariant: the copies at the broker are known, and only spent messages are still to
be acknowledged. -/
structure Sound (s : RetryState ι) : Prop where
  noneLost : NoneLost co i s
  ready : ∀ c ∈ s.queue.ready, c ∈ s.known
  out : ∀ (n : Nat) (d : Delivery (Copy ι)), s.queue.out[n]? = some d → d.item ∈ s.known
  acks : ∀ (n : Nat) (d : Delivery (Copy ι)) tasks k, s.queue.out[n]? = some d →
    s.tasks n = some tasks → (tasks k).Every fun op => op = .ack → Spent co i s d.item.id

end Steps

section Preservation
variable {co : Js.Coercions} {i : MessageInterceptor} {queueName : String} {s : RetryState ι}
  {id : ι} {n : Nat} {d : Delivery (Copy ι)}

theorem sound_start (ready : List (Copy ι)) : Sound co i (.start ready) where
  noneLost _ h := .inl h.1
  ready _ h := h
  out n d h := by simp [RetryState.start] at h
  acks n d tasks k h := by simp [RetryState.start] at h

theorem Spent.mono {s' : RetryState ι} (h : Spent co i s id) (hk : s.known ⊆ s'.known)
    (hs : s.succeeded ⊆ s'.succeeded) : Spent co i s' id := by
  obtain h | ⟨c, hc, hid, hr⟩ := h
  · exact .inl (hs h)
  · exact .inr ⟨c, hk hc, hid, hr⟩

/-- Where the broker puts a message changes nothing else. -/
theorem Sound.withQueue (h : Sound co i s) {q : Queue (Copy ι)}
    (hholds : ∀ id, Due co i s id → Holds (fun c => c.id = id) q)
    (hready : ∀ c ∈ q.ready, c ∈ s.known)
    (hout : ∀ (n : Nat) (d : Delivery (Copy ι)), q.out[n]? = some d →
      ∃ d', s.queue.out[n]? = some d' ∧ d'.item = d.item) :
    Sound co i { s with queue := q } where
  noneLost := hholds
  ready := hready
  out n d hd := by
    obtain ⟨d', hd', hitem⟩ := hout n d hd
    rw [← hitem]
    exact h.out n d' hd'
  acks n d tasks k hd ht := by
    obtain ⟨d', hd', hitem⟩ := hout n d hd
    have hacks := h.acks n d' tasks k hd' ht
    rwa [hitem] at hacks

theorem Sound.addCopy (h : Sound co i s) (copy : Copy ι) : Sound co i (s.addCopy copy) := by
  have hmono : ∀ {id}, Spent co i s id → Spent co i (s.addCopy copy) id :=
    fun hs => hs.mono (List.subset_cons_self _ _) (List.Subset.refl _)
  constructor
  case noneLost =>
    intro id ⟨⟨c, hc, hid⟩, hdue⟩
    obtain rfl | hc := List.mem_cons.mp hc
    · exact holds_publish hid
    · exact (h.noneLost id ⟨⟨c, hc, hid⟩, fun hs => hdue (hmono hs)⟩).publish copy
  case ready =>
    intro c hc
    obtain hc | hc := List.mem_append.mp hc
    · exact List.mem_cons_of_mem _ (h.ready c hc)
    · exact List.mem_cons.mpr (.inl (List.mem_singleton.mp hc))
  case out => exact fun n d hd => List.mem_cons_of_mem _ (h.out n d hd)
  case acks =>
    exact fun n d tasks k hd ht => (h.acks n d tasks k hd ht).mono fun op hs hop => hmono (hs hop)

theorem Sound.withTasks (h : Sound co i s)
    {tasks : Option (Registration → Script ChannelOp)}
    (ht : ∀ d tasks', s.queue.out[n]? = some d → tasks = some tasks' →
      ∀ k, (tasks' k).Every fun op => op = .ack → Spent co i s d.item.id) :
    Sound co i (s.withTasks n tasks) where
  noneLost := h.noneLost
  ready := h.ready
  out := h.out
  acks := by
    intro j d tasks' k hd hj
    by_cases hjn : j = n
    · subst hjn
      exact ht d tasks' hd (by simpa [RetryState.withTasks] using hj) k
    · exact h.acks j d tasks' k hd (by simpa [RetryState.withTasks, hjn] using hj)

theorem Sound.handlerEnded (h : Sound co i s) (id : ι) (outcome : Except Failure Js.Value) :
    Sound co i (s.handlerEnded id outcome) := by
  cases outcome with
  | error f => exact h
  | ok result =>
    have hmono : ∀ {id'}, Spent co i s id' →
        Spent co i { s with succeeded := id :: s.succeeded } id' :=
      fun hs => hs.mono (List.Subset.refl _) (List.subset_cons_self _ _)
    constructor
    case noneLost => exact fun id' hdue => h.noneLost id' ⟨hdue.1, fun hs => hdue.2 (hmono hs)⟩
    case ready => exact h.ready
    case out => exact h.out
    case acks =>
      exact fun n d tasks k hd ht =>
        (h.acks n d tasks k hd ht).mono fun op hs hop => hmono (hs hop)

theorem Sound.known_of_held (h : Sound co i s) {c : Copy ι}
    (hc : c ∈ s.queue.ready ∨ c ∈ s.queue.unsettledItems) : c ∈ s.known := by
  obtain hc | hc := hc
  · exact h.ready c hc
  · obtain ⟨j, d', hd', -, rfl⟩ := of_mem_unsettledItems hc
    exact h.out j d' hd'

theorem Sound.settle (h : Sound co i s) (hd : s.queue.out[n]? = some d)
    (hspare : Due co i s d.item.id → HoldsBeside n (fun c => c.id = d.item.id) s.queue) :
    Sound co i { s with queue := s.queue.settle n } := by
  refine h.withQueue ?_ (fun _ hc => h.known_of_held (mem_settle_ready hc))
    fun _ _ hd' => item_of_delivered (delivered_settle s.queue n) hd'
  intro id hdue
  by_cases hid : d.item.id = id
  · subst hid
    exact holds_settle_iff.mpr (hspare hdue)
  · refine holds_settle_iff.mpr ((h.noneLost id hdue).beside fun d' hd' => ?_)
    rw [hd] at hd'
    cases hd'
    exact hid

theorem Sound.giveBack (h : Sound co i s) (n : Nat) :
    Sound co i { s with queue := s.queue.giveBack n } :=
  h.withQueue (fun id hdue => (h.noneLost id hdue).giveBack n)
    (fun _ hc => h.known_of_held (mem_giveBack_ready hc))
    fun _ _ hd' => item_of_delivered (delivered_giveBack s.queue n) hd'

theorem Sound.perform (h : Sound co i s) (hd : s.queue.out[n]? = some d) {op : ChannelOp}
    (hack : op = .ack → Spent co i s d.item.id)
    (hspare : op = .reject false → Due co i s d.item.id →
      HoldsBeside n (fun c => c.id = d.item.id) s.queue) :
    Sound co i (perform queueName n d.item.id s op) := by
  cases op with
  | ack => exact h.settle hd fun hdue => absurd (hack rfl) hdue.2
  | reject requeue =>
    cases requeue with
    | true => exact h.giveBack n
    | false => exact h.settle hd (hspare rfl)
  | publish exchange queue content options =>
    simp only [RetryBroker.perform]
    split
    · exact h.addCopy _
    · exact h

/-- The interceptor acknowledges a message that a handler has succeeded on, or whose
retries are used up, and no other. -/
theorem acks_intercept (message : RmqMessage) (contextType : String)
    (outcome : Except Failure Js.Value) :
    (MessageInterceptor.intercept co i message contextType outcome).Every fun op => op = .ack →
      (∃ result, outcome = .ok result) ∨ MessageInterceptor.retries co i message = false := by
  unfold MessageInterceptor.intercept
  split
  · trivial
  · split
    · trivial
    · cases outcome with
      | ok result => simp [MessageInterceptor.acknowledgeMessage, Script.Every]
      | error f =>
        simp only
        split
        · simp [MessageInterceptor.retryMessage, Script.Every]
        next hr =>
          simp [MessageInterceptor.acknowledgeMessage, Script.Every, Bool.eq_false_iff.mpr hr]

theorem spent_of_ack (h : Sound co i s) (hd : s.queue.out[n]? = some d)
    (outcome : Except Failure Js.Value)
    (hwhy : (∃ result, outcome = .ok result) ∨
      MessageInterceptor.retries co i d.item.message = false) :
    Spent co i (s.handlerEnded d.item.id outcome) d.item.id := by
  cases outcome with
  | ok result => exact .inl List.mem_cons_self
  | error f =>
    obtain ⟨_, hr⟩ | hr := hwhy
    · cases hr
    · exact .inr ⟨d.item, h.out n d hd, rfl, hr⟩

theorem Sound.handled (h : Sound co i s) (hd : s.queue.out[n]? = some d)
    (outcome : Except Failure Js.Value) :
    Sound co i ((s.handlerEnded d.item.id outcome).withTasks n
      (some fun _ => MessageInterceptor.intercept co i d.item.message "rpc" outcome)) := by
  refine (h.handlerEnded d.item.id outcome).withTasks fun d' tasks hd' ht k => ?_
  rw [RetryState.handlerEnded_queue, hd] at hd'
  cases hd'
  cases ht
  refine (acks_intercept d.item.message "rpc" outcome).mono fun op hop hack => ?_
  exact spent_of_ack h hd outcome (hop hack)

theorem Sound.deliver (h : Sound co i s) :
    Sound co i ({ s with queue := s.queue.deliver }.withTasks s.queue.out.length none) where
  noneLost id hdue := (h.noneLost id hdue).deliver
  ready c hc := h.ready c (mem_deliver_ready hc)
  out n d hd := by
    obtain hd | ⟨-, hc⟩ := item_of_deliver hd
    · exact h.out n d hd
    · exact h.ready d.item hc
  acks := by
    intro n d tasks k hd ht
    by_cases hn : n = s.queue.out.length
    · simp [RetryState.withTasks, hn] at ht
    · obtain hold | ⟨hlen, -⟩ := item_of_deliver hd
      · exact h.acks n d tasks k hold (by simpa [RetryState.withTasks, hn] using ht)
      · exact absurd hlen hn

theorem Sound.advance (h : Sound co i s) {tasks : Registration → Script ChannelOp}
    (ht : s.tasks n = some tasks) (k : Registration) (reply : Reply) :
    Sound co i (s.withTasks n (some (Function.update tasks k ((tasks k).step reply []).1))) := by
  refine h.withTasks fun d' tasks' hd' ht' k' => ?_
  cases ht'
  have hacks := h.acks n d' tasks
  by_cases hk : k' = k
  · subst hk
    rw [Function.update_self]
    exact (hacks k' hd' ht).step reply []
  · rw [Function.update_of_ne hk]
    exact hacks k' hd' ht

theorem Sound.close (h : Sound co i s) : Sound co i { s with queue := s.queue.close } :=
  h.withQueue (fun id hdue => holds_close_iff.mpr (h.noneLost id hdue))
    (fun _ hc => h.known_of_held (List.mem_append.mp hc).symm)
    fun _ _ hd' => item_of_delivered (delivered_close s.queue) hd'

theorem Sound.stop (h : Sound co i s) :
    Sound co i { s with queue := s.queue.restart, tasks := fun _ => none } where
  noneLost id hdue := holds_unsettledItems (h.noneLost id hdue) []
  ready c hc := h.close.ready c hc
  out n d hd := by simp [Queue.restart] at hd
  acks n d tasks k _ ht := by cases ht

theorem Sound.channel (h : Sound co i s) (hd : s.queue.out[n]? = some d)
    {tasks : Registration → Script ChannelOp} (ht : s.tasks n = some tasks) (k : Registration)
    (reply : Reply) (hspare : RejectsSpare co i s (.channel n k reply)) :
    Sound co i (((tasks k).step reply []).2.foldl (RetryBroker.perform queueName n d.item.id)
      (s.withTasks n (some (Function.update tasks k ((tasks k).step reply []).1)))) := by
  have hnext := h.advance ht k reply
  have hack := h.acks n d tasks k hd ht
  cases hscript : tasks k with
  | done => simpa [Script.step, hscript] using hnext
  | failed => simpa [Script.step, hscript] using hnext
  | sleep ms next => simpa [Script.step, hscript] using hnext
  | call op next onThrow =>
    rw [hscript] at hnext hack
    cases reply with
    | threw => exact hnext
    | accepted =>
      refine hnext.perform hd hack.1 fun hop => ?_
      subst hop
      exact hspare d tasks next onThrow hd ht hscript

theorem rejectsSpare_answer {k : Registration} {reply : Reply}
    (h : RejectsSpare co i s (.channel n k reply)) (d : Delivery (Copy ι)) :
    RejectsSpare co i s (.channel n k (answer d reply)) := by
  unfold answer
  split
  · trivial
  · exact h

theorem Sound.step (h : Sound co i s) (e : RetryEvent ι) (hspare : RejectsSpare co i s e) :
    Sound co i (step co i queueName s e) := by
  cases e with
  | arrive copy => exact h.addCopy copy
  | deliver =>
    simp only [RetryBroker.step]
    split
    · exact h.deliver
    · exact h
  | handled n outcome =>
    simp only [RetryBroker.step]
    split
    next d hd ht => exact h.handled hd outcome
    next => exact h
  | channel n k reply =>
    simp only [RetryBroker.step]
    split
    next d tasks hd ht => exact h.channel hd ht k _ (rejectsSpare_answer hspare d)
    next => exact h
  | close => exact h.close
  | stop => exact h.stop

/-- A reject that drops the only copy of a message that is due loses it. -/
theorem rejectsSpare_of_noneLost (e : RetryEvent ι) (hbefore : NoneLost co i s)
    (h : NoneLost co i (step co i queueName s e)) : RejectsSpare co i s e := by
  cases e with
  | channel n k reply =>
    cases reply with
    | threw => trivial
    | accepted =>
      intro d tasks next onThrow hd ht hscript hdue
      cases hlapsed : d.lapsed with
      | true =>
        refine beside_of_idle (fun d' hd' => ?_) (hbefore d.item.id hdue)
        cases hd.symm.trans hd'
        simp [Delivery.unsettled, Delivery.lapsed_iff.mp hlapsed]
      | false =>
        have hstep : step co i queueName s (.channel n k .accepted) =
            { s.withTasks n (some (Function.update tasks k next)) with
              queue := s.queue.settle n } := by
          simp [step, hd, ht, hscript, answer, hlapsed, Script.step, perform, RetryState.withTasks]
        rw [hstep] at h
        exact holds_settle_iff.mp (h d.item.id hdue)
  | _ => trivial

end Preservation

/-- No message is lost in a run exactly when each reject that a retry gets accepted leaves
another copy of the message with the broker, where the message is still due. -/
theorem noneLost_iff_rejectsSpare (co : Js.Coercions) (i : MessageInterceptor)
    (queueName : String) (ready : List (Copy ι)) (events : List (RetryEvent ι)) :
    Always (step co i queueName) (NoneLost co i) (.start ready) events ↔
      Along (step co i queueName) (RejectsSpare co i) (.start ready) events := by
  refine always_iff_along (I := Sound co i) (R := fun _ _ => True)
    (fun s h => h.noneLost) (fun s e h _ hspare => h.step e hspare)
    (fun s e hs _ h => rejectsSpare_of_noneLost e hs.noneLost h) (sound_start ready)
    (along_of_forall (fun _ _ => trivial) _ _)

section Sample

/-- The handler fails for the first time, one interceptor rejects the message, and the process
stops before the delay is over. -/
def stoppedInDelay : List (RetryEvent Nat) :=
  [.deliver, .handled 0 (.error (.native "Error")), .channel 0 .controller .accepted, .stop]

theorem first_retry_loses : ¬Always (step Js.Coercions.plain defaultInterceptor "rewards")
    (NoneLost Js.Coercions.plain defaultInterceptor) (.start [⟨0, sampleMessage⟩])
    stoppedInDelay := by
  intro h
  have hdue : Due Js.Coercions.plain defaultInterceptor
      (run (step Js.Coercions.plain defaultInterceptor "rewards") (.start [⟨0, sampleMessage⟩])
        stoppedInDelay) 0 := by
    refine ⟨⟨⟨0, sampleMessage⟩, List.mem_singleton_self _, rfl⟩, ?_⟩
    intro hspent
    obtain hs | ⟨c, hc, -, hr⟩ := hspent
    · cases hs
    · obtain rfl := List.mem_singleton.mp hc
      cases hr
  obtain ⟨c, hc, -⟩ | ⟨n, d, hd, -⟩ := h.last 0 hdue
  · cases hc
  · cases hd

end Sample
end RetryBroker
end MsaTuto
