import Mathlib.Algebra.Order.Ring.Nat
import MsaTuto.Redelivery

/-! Both registrations at work: how often a message is delivered then, whatever is thrown, closes
or stops. A delivery that both settle closes the channel, so that one of them at most publishes. -/
namespace MsaTuto
open Js Runs AckQueue

/-- The next call of the script is a publication. -/
def publishesNext : Script ChannelOp → Bool
  | .call op _ _ => op.republishes
  | .sleep _ next => publishesNext next
  | .done | .failed => false

/-- What comes after a publication, or after a call that throws, is none. -/
def PublishesOnce : Script ChannelOp → Prop
  | .call op next onThrow => (op.republishes = true → publishesNext next = false) ∧
      PublishesOnce next ∧ publishesNext onThrow = false ∧ PublishesOnce onThrow
  | .sleep _ next => PublishesOnce next
  | .done | .failed => True

/-- The copy that an operation publishes for a message has one retry more to its count. -/
def ChannelOp.Raises (n : Nat) (message : RmqMessage) : ChannelOp → Prop
  | .publish exchange queue content options => ∃ k < n,
      MessageInterceptor.retryCount message = .num k ∧
        MessageInterceptor.retryCount ⟨content, options, exchange, queue⟩ = .num (k + 1 : Nat)
  | .reject requeue => requeue = false
  | .ack => True

/-- A script of the interceptor for the message. -/
structure Retrying (n : Nat) (message : RmqMessage) (script : Script ChannelOp) : Prop where
  raises : script.Every (ChannelOp.Raises n message)
  once : PublishesOnce script

section Scripts
variable {co : Coercions} {i : MessageInterceptor} {n : Nat} {message : RmqMessage}

theorem Retrying.step {script : Script ChannelOp} (h : Retrying n message script)
    (reply : Reply) : Retrying n message (script.step reply []).1 := by
  refine ⟨h.raises.step reply [], ?_⟩
  have honce := h.once
  cases script with
  | call op next onThrow =>
    cases reply with
    | accepted => exact honce.2.1
    | threw => exact honce.2.2.2
  | _ => exact honce

theorem publishesNext_acknowledge (retries : Nat) :
    publishesNext (MessageInterceptor.acknowledgeMessage co i retries) = false := by
  cases retries <;> rfl

theorem retrying_acknowledge (retries : Nat) :
    Retrying n message (MessageInterceptor.acknowledgeMessage co i retries) := by
  induction retries with
  | zero => exact ⟨⟨trivial, trivial, trivial⟩, fun _ => rfl, trivial, rfl, trivial⟩
  | succ retries ih =>
    exact ⟨⟨trivial, trivial, ih.raises⟩, fun _ => rfl, trivial,
      publishesNext_acknowledge retries, ih.once⟩

theorem publishesNext_intercept (co : Coercions) (i : MessageInterceptor) (message : RmqMessage)
    (outcome : Except Failure Value) :
    publishesNext (MessageInterceptor.intercept co i message "rpc" outcome) = false := by
  unfold MessageInterceptor.intercept
  split
  · rfl
  · split
    · rfl
    · cases outcome with
      | ok result => rfl
      | error f =>
        simp only
        split <;> rfl

theorem retrying_intercept (hmax : Redelivery.AllowsRetries co i n) {k : Nat}
    (hk : MessageInterceptor.retryCount message = .num k) (outcome : Except Failure Value) :
    Retrying n message (MessageInterceptor.intercept co i message "rpc" outcome) := by
  unfold MessageInterceptor.intercept
  split
  · exact ⟨trivial, trivial⟩
  · split
    · exact ⟨trivial, trivial⟩
    · cases outcome with
      | ok result => exact retrying_acknowledge 2
      | error f =>
        simp only
        split
        next hretries =>
          rw [MessageInterceptor.retries, hk, hmax k, decide_eq_true_eq] at hretries
          have hcount := retryCount_of_header (nextCopy_count co hk)
          exact ⟨⟨rfl, ⟨⟨k, hretries, hk, hcount⟩, trivial, trivial⟩, trivial⟩,
            (fun h => by cases h), ⟨fun _ => rfl, trivial, rfl, trivial⟩, rfl, trivial⟩
        next => exact retrying_acknowledge 2

end Scripts

namespace RetryBroker
variable {ι : Type*}

/-- The retries that the message already has behind it. -/
def levelOf (message : RmqMessage) : Nat :=
  match MessageInterceptor.retryCount message with
  | .num q => q.num.toNat
  | _ => 0

theorem levelOf_of_count {message : RmqMessage} {k : Nat}
    (h : MessageInterceptor.retryCount message = .num k) : levelOf message = k := by
  simp [levelOf, h]

/-- The registrations that are about to publish. -/
def openings : Option (Registration → Script ChannelOp) → Nat
  | none => 0
  | some tasks => (publishesNext (tasks .global)).toNat + (publishesNext (tasks .controller)).toNat

section Openings
variable {tasks : Registration → Script ChannelOp} {script : Script ChannelOp} {r : Registration}

theorem openings_pos (h : publishesNext (tasks r) = true) : 1 ≤ openings (some tasks) := by
  cases r <;> simp [openings, h]

/-- One of the two goes on. -/
theorem openings_update (tasks : Registration → Script ChannelOp) (r : Registration)
    (script : Script ChannelOp) :
    openings (some (Function.update tasks r script)) + (publishesNext (tasks r)).toNat =
      openings (some tasks) + (publishesNext script).toNat := by
  cases r with
  | global =>
    simp only [openings, Function.update_self, Function.update_of_ne
      (show Registration.controller ≠ .global by decide)]
    omega
  | controller =>
    simp only [openings, Function.update_self, Function.update_of_ne
      (show Registration.global ≠ .controller by decide)]
    omega

theorem toNat_le_one (b : Bool) : b.toNat ≤ 1 := by
  cases b <;> decide

end Openings

/-- Every copy there is has at most `n` retries behind it, and every script publishes the next one;
an unsettled delivery is not retried yet, and a settled one by one registration at most; and one
delivery at most is unsettled. -/
structure Levelled (n : Nat) (s : RetryState ι) : Prop where
  ready : ∀ c ∈ s.queue.ready, ∃ k ≤ n, MessageInterceptor.retryCount c.message = .num k
  out : ∀ (j : Nat) (d : Delivery (Copy ι)), s.queue.out[j]? = some d →
    ∃ k ≤ n, MessageInterceptor.retryCount d.item.message = .num k
  tasks : ∀ (j : Nat) (d : Delivery (Copy ι)) tasks r, s.queue.out[j]? = some d →
    s.tasks j = some tasks → Retrying n d.item.message (tasks r)
  unsettled : ∀ (j : Nat) (d : Delivery (Copy ι)), s.queue.out[j]? = some d →
    d.standing = .unsettled → openings (s.tasks j) = 0
  settled : ∀ (j : Nat) (d : Delivery (Copy ι)), s.queue.out[j]? = some d →
    d.standing = .settled → openings (s.tasks j) ≤ 1
  single : s.queue.unsettledItems.length ≤ 1

/-- What a channel operation of a delivery comes to. -/
inductive ChannelStep (n : Nat) (s : RetryState ι) (j : Nat) (d : Delivery (Copy ι))
    (tasks : Registration → Script ChannelOp) (r : Registration) : RetryState ι → Prop
  /-- It throws, is none, or publishes to another queue. -/
  | goesOn (script : Script ChannelOp) (hscript : Retrying n d.item.message script)
      (hless : publishesNext script = true → publishesNext (tasks r) = true) :
      ChannelStep n s j d tasks r (s.withTasks j (some (Function.update tasks r script)))
  | publishes (script : Script ChannelOp) (hscript : Retrying n d.item.message script)
      (copy : Copy ι) (hopen : d.lapsed = false) (hid : copy.id = d.item.id) {k : Nat} (hk : k < n)
      (hcount : MessageInterceptor.retryCount d.item.message = .num k)
      (hnext : MessageInterceptor.retryCount copy.message = .num (k + 1 : Nat))
      (hpublishes : publishesNext (tasks r) = true) (hdone : publishesNext script = false) :
      ChannelStep n s j d tasks r
        ((s.withTasks j (some (Function.update tasks r script))).addCopy copy)
  | settles (script : Script ChannelOp) (hscript : Retrying n d.item.message script)
      (hun : d.standing = .unsettled) :
      ChannelStep n s j d tasks r
        { s.withTasks j (some (Function.update tasks r script)) with queue := s.queue.drop j }
  | closes (script : Script ChannelOp) (hscript : Retrying n d.item.message script)
      (hsettled : d.standing = .settled) :
      ChannelStep n s j d tasks r
        { s.withTasks j (some (Function.update tasks r script)) with queue := s.queue.close }

section Steps
variable {n : Nat} {s : RetryState ι} {j : Nat} {d : Delivery (Copy ι)}
  {tasks : Registration → Script ChannelOp} {co : Coercions} {i : MessageInterceptor}
  {queueName : String}

/-- An operation that settles, on a channel that is open. -/
theorem channelStep_settle (hd : s.queue.out[j]? = some d) (hopen : d.lapsed = false)
    (r : Registration) {script : Script ChannelOp} (hscript : Retrying n d.item.message script) :
    ChannelStep n s j d tasks r
      { s.withTasks j (some (Function.update tasks r script)) with queue := s.queue.settle j } := by
  obtain ⟨d', hd', hun, h⟩ | ⟨d', hd', hsettled, h⟩ | ⟨hlapsed, -⟩ := settle_cases s.queue j
  · cases hd.symm.trans hd'
    rw [h]
    exact .settles script hscript (Delivery.unsettled_iff.mp hun)
  · cases hd.symm.trans hd'
    rw [h]
    exact .closes script hscript hsettled
  · rw [hlapsed d hd] at hopen
    cases hopen

theorem channelStep (h : Levelled n s) (hd : s.queue.out[j]? = some d)
    (ht : s.tasks j = some tasks) (r : Registration) (reply : Reply) :
    ChannelStep n s j d tasks r (step co i queueName s (.channel j r reply)) := by
  have hscript := h.tasks j d tasks r hd ht
  simp only [step, hd, ht]
  have hnext := hscript.step (answer d reply)
  generalize hreply : answer d reply = reply' at hnext ⊢
  cases htask : tasks r with
  | call op next onThrow =>
    rw [htask] at hscript hnext
    have honce := hscript.once
    cases reply' with
    | threw =>
      refine .goesOn onThrow hnext fun hpublishes => ?_
      rw [honce.2.2.1] at hpublishes
      cases hpublishes
    | accepted =>
      have hopen : d.lapsed = false := by
        by_contra hlapsed
        rw [Bool.not_eq_false] at hlapsed
        simp [answer, hlapsed] at hreply
      cases op with
      | ack => exact channelStep_settle hd hopen r hnext
      | reject requeue =>
        obtain rfl : requeue = false := hscript.raises.1
        exact channelStep_settle hd hopen r hnext
      | publish exchange queue content options =>
        obtain ⟨k, hk, hcount, hraised⟩ := hscript.raises.1
        simp only [Script.step, List.nil_append, List.foldl_cons, List.foldl_nil, perform]
        split
        · exact .publishes next hnext _ hopen rfl hk hcount hraised (by rw [htask]; rfl)
            (honce.1 rfl)
        · exact .goesOn next hnext fun _ => by rw [htask]; rfl
  | sleep ms next =>
    rw [htask] at hnext
    exact .goesOn next hnext fun hpublishes => by rw [htask]; exact hpublishes
  | done =>
    rw [htask] at hnext
    exact .goesOn .done hnext fun h => by cases h
  | failed =>
    rw [htask] at hnext
    exact .goesOn .failed hnext fun h => by cases h

end Steps

/-- A message that comes from the outside has no retry behind it. -/
def FirstTime : RetryEvent ι → Prop
  | .arrive copy => header copy.message "x-retry-count" = none
  | _ => True

section Levels
variable {n : Nat} {s : RetryState ι} {c : Copy ι} {j : Nat} {d : Delivery (Copy ι)}
  {tasks : Registration → Script ChannelOp} {script : Script ChannelOp} {r : Registration}
  {co : Coercions} {i : MessageInterceptor} {queueName : String}

theorem levelled_start : Levelled n (.start [] : RetryState ι) where
  ready c hc := by cases hc
  out j d hd := by cases hd
  tasks j d tasks r hd := by cases hd
  unsettled j d hd := by cases hd
  settled j d hd := by cases hd
  single := Nat.zero_le _

theorem Levelled.addCopy (h : Levelled n s)
    (hc : ∃ k ≤ n, MessageInterceptor.retryCount c.message = .num k) :
    Levelled n (s.addCopy c) where
  ready c' hc' := by
    obtain hmem | hmem := List.mem_append.mp hc'
    · exact h.ready c' hmem
    · rwa [List.mem_singleton.mp hmem]
  out := h.out
  tasks := h.tasks
  unsettled := h.unsettled
  settled := h.settled
  single := h.single

/-- What the two registrations have still to do for a delivery changes. -/
theorem Levelled.withTasks (h : Levelled n s) (hd : s.queue.out[j]? = some d)
    (ht : ∀ r, Retrying n d.item.message (tasks r))
    (hunsettled : d.standing = .unsettled → openings (some tasks) = 0)
    (hsettled : d.standing = .settled → openings (some tasks) ≤ 1) :
    Levelled n (s.withTasks j (some tasks)) where
  ready := h.ready
  out := h.out
  tasks j' d' tasks' r hd' hj' := by
    by_cases hj : j' = j
    · subst hj
      cases hd.symm.trans hd'
      obtain rfl := Option.some.inj ((Function.update_self j' _ s.tasks).symm.trans hj')
      exact ht r
    · exact h.tasks j' d' tasks' r hd' ((Function.update_of_ne hj _ _).symm.trans hj')
  unsettled j' d' hd' hstanding := by
    by_cases hj : j' = j
    · subst hj
      cases hd.symm.trans hd'
      simpa [RetryState.withTasks] using hunsettled hstanding
    · simpa [RetryState.withTasks, hj] using h.unsettled j' d' hd' hstanding
  settled j' d' hd' hstanding := by
    by_cases hj : j' = j
    · subst hj
      cases hd.symm.trans hd'
      simpa [RetryState.withTasks] using hsettled hstanding
    · simpa [RetryState.withTasks, hj] using h.settled j' d' hd' hstanding
  single := h.single

theorem retrying_update (h : Levelled n s) (hd : s.queue.out[j]? = some d)
    (ht : s.tasks j = some tasks) (hscript : Retrying n d.item.message script) (r' : Registration) :
    Retrying n d.item.message (Function.update tasks r script r') := by
  by_cases hr : r' = r
  · rw [hr, Function.update_self]
    exact hscript
  · rw [Function.update_of_ne hr]
    exact h.tasks j d tasks r' hd ht

theorem Levelled.goesOn (h : Levelled n s) (hd : s.queue.out[j]? = some d)
    (ht : s.tasks j = some tasks) (hscript : Retrying n d.item.message script)
    (hless : publishesNext script = true → publishesNext (tasks r) = true) :
    Levelled n (s.withTasks j (some (Function.update tasks r script))) := by
  have hopenings := openings_update tasks r script
  have hle : (publishesNext script).toNat ≤ (publishesNext (tasks r)).toNat := by
    cases hp : publishesNext script with
    | false => exact Nat.zero_le _
    | true => rw [hless hp]
  refine h.withTasks hd (retrying_update h hd ht hscript) (fun hun => ?_) fun hsettled => ?_
  · have hnone := h.unsettled j d hd hun
    rw [ht] at hnone
    omega
  · have hone := h.settled j d hd hsettled
    rw [ht] at hone
    omega

theorem Levelled.drop (h : Levelled n s) (hd : s.queue.out[j]? = some d)
    (ht : s.tasks j = some tasks) (hun : d.standing = .unsettled)
    (hscript : Retrying n d.item.message script) :
    Levelled n
      { s.withTasks j (some (Function.update tasks r script)) with queue := s.queue.drop j } where
  ready := h.ready
  out j' d' hd' := by
    obtain ⟨d₀, hd₀, hitem⟩ := item_of_delivered (delivered_drop s.queue j) hd'
    rw [← hitem]
    exact h.out j' d₀ hd₀
  tasks j' d' tasks' r' hd' hj' := by
    obtain ⟨d₀, hd₀, hitem⟩ := item_of_delivered (delivered_drop s.queue j) hd'
    rw [← hitem]
    by_cases hj : j' = j
    · subst hj
      cases hd.symm.trans hd₀
      obtain rfl := Option.some.inj ((Function.update_self j' _ s.tasks).symm.trans hj')
      exact retrying_update h hd ht hscript r'
    · exact h.tasks j' d₀ tasks' r' hd₀ ((Function.update_of_ne hj _ _).symm.trans hj')
  unsettled j' d' hd' hstanding := by
    by_cases hj : j' = j
    · subst hj
      have hdropped := drop_self hd'
      rw [Delivery.unsettled_iff.mpr hstanding] at hdropped
      cases hdropped
    · rw [drop_other hj] at hd'
      simpa [RetryState.withTasks, hj] using h.unsettled j' d' hd' hstanding
  settled j' d' hd' hstanding := by
    by_cases hj : j' = j
    · subst hj
      have hopenings := openings_update tasks r script
      have hnone := h.unsettled j' d hd hun
      have hone := toNat_le_one (publishesNext script)
      rw [ht] at hnone
      simp only [RetryState.withTasks, Function.update_self]
      omega
    · rw [drop_other hj] at hd'
      simpa [RetryState.withTasks, hj] using h.settled j' d' hd' hstanding
  single := Nat.le_trans (length_unsettledItems_drop s.queue j) h.single

theorem mem_ready_close (h : Levelled n s) (hc : c ∈ s.queue.unsettledItems ++ s.queue.ready) :
    ∃ k ≤ n, MessageInterceptor.retryCount c.message = .num k := by
  obtain hc | hc := List.mem_append.mp hc
  · obtain ⟨j, d, hd, -, rfl⟩ := of_mem_unsettledItems hc
    exact h.out j d hd
  · exact h.ready c hc

theorem standing_close {q : Queue (Copy ι)} (h : q.close.out[j]? = some d) :
    d.standing = .lapsed ∧ ∃ d', q.out[j]? = some d' ∧ d'.item = d.item := by
  rw [Queue.close, List.getElem?_map] at h
  obtain ⟨d', hd', rfl⟩ := Option.map_eq_some_iff.mp h
  exact ⟨rfl, d', hd', rfl⟩

theorem Levelled.close (h : Levelled n s) : Levelled n { s with queue := s.queue.close } where
  ready c hc := mem_ready_close h hc
  out j d hd := by
    obtain ⟨-, d', hd', hitem⟩ := standing_close hd
    rw [← hitem]
    exact h.out j d' hd'
  tasks j d tasks r hd ht := by
    obtain ⟨-, d', hd', hitem⟩ := standing_close hd
    rw [← hitem]
    exact h.tasks j d' tasks r hd' ht
  unsettled j d hd hstanding := by
    rw [(standing_close hd).1] at hstanding
    cases hstanding
  settled j d hd hstanding := by
    rw [(standing_close hd).1] at hstanding
    cases hstanding
  single := by
    rw [unsettledItems_close]
    exact Nat.zero_le 1

theorem Levelled.channelStep {s' : RetryState ι} (h : Levelled n s)
    (hd : s.queue.out[j]? = some d) (ht : s.tasks j = some tasks)
    (hstep : ChannelStep n s j d tasks r s') : Levelled n s' := by
  cases hstep with
  | goesOn script hscript hless => exact h.goesOn hd ht hscript hless
  | publishes script hscript copy hopen hid hk hcount hnext hpublishes hdone =>
    exact (h.goesOn hd ht hscript fun hp => by rw [hdone] at hp; cases hp).addCopy
      ⟨_, hk, hnext⟩
  | settles script hscript hun => exact h.drop hd ht hun hscript
  | closes script hscript hsettled =>
    have hall := fun r' => retrying_update (r := r) h hd ht hscript r'
    have hd' : s.queue.close.out[j]? = some { d with standing := .lapsed } := by
      simp [Queue.close, hd]
    exact h.close.withTasks hd' hall (fun h => by cases h) fun h => by cases h

theorem unsettled_of_mayDeliver (h : mayDeliver s = true) : s.queue.unsettledItems = [] := by
  rw [mayDeliver, List.all_eq_true] at h
  rw [Queue.unsettledItems, List.map_eq_nil_iff, List.filter_eq_nil_iff]
  intro d hd
  simpa using h d hd

theorem Levelled.deliver (h : Levelled n s) (hmay : mayDeliver s = true) :
    Levelled n ({ s with queue := s.queue.deliver }.withTasks s.queue.out.length none) := by
  -- a delivery that is there already keeps what is to be done for it
  have hold : ∀ {j : Nat} {d : Delivery (Copy ι)}, s.queue.out[j]? = some d →
      Function.update s.tasks s.queue.out.length none j = s.tasks j :=
    fun hd => Function.update_of_ne (List.getElem?_eq_some_iff.mp hd).1.ne _ _
  constructor
  case ready => exact fun c hc => h.ready c (mem_deliver_ready hc)
  case out =>
    intro j d hd
    obtain hd | ⟨-, hc⟩ := item_of_deliver hd
    · exact h.out j d hd
    · exact h.ready d.item hc
  case tasks =>
    intro j d tasks r hd ht
    obtain hd | ⟨rfl, -⟩ := item_of_deliver hd
    · exact h.tasks j d tasks r hd ((hold hd).symm.trans ht)
    · simp [RetryState.withTasks] at ht
  case unsettled =>
    intro j d hd hstanding
    obtain hd | ⟨rfl, -⟩ := item_of_deliver hd
    · exact (congrArg openings (hold hd)).trans (h.unsettled j d hd hstanding)
    · simp [RetryState.withTasks, openings]
  case settled =>
    intro j d hd hstanding
    obtain hd | ⟨rfl, -⟩ := item_of_deliver hd
    · exact Nat.le_trans (Nat.le_of_eq (congrArg openings (hold hd)))
        (h.settled j d hd hstanding)
    · simp [RetryState.withTasks, openings]
  case single =>
    simp only [RetryState.withTasks]
    cases hready : s.queue.ready with
    | nil =>
      rw [deliver_nil hready]
      exact h.single
    | cons c rest => simp [unsettledItems_deliver hready, unsettled_of_mayDeliver hmay]

theorem Levelled.handled (h : Levelled n s) (hmax : Redelivery.AllowsRetries co i n)
    (hd : s.queue.out[j]? = some d) (outcome : Except Failure Js.Value) :
    Levelled n ((s.handlerEnded d.item.id outcome).withTasks j
      (some fun _ => MessageInterceptor.intercept co i d.item.message "rpc" outcome)) := by
  have hended : Levelled n (s.handlerEnded d.item.id outcome) := by
    cases outcome with
    | ok result => exact ⟨h.ready, h.out, h.tasks, h.unsettled, h.settled, h.single⟩
    | error f => exact h
  obtain ⟨k, -, hk⟩ := h.out j d hd
  have hopenings : openings (some fun _ : Registration =>
      MessageInterceptor.intercept co i d.item.message "rpc" outcome) = 0 := by
    simp [openings, publishesNext_intercept]
  exact hended.withTasks (by rw [RetryState.handlerEnded_queue, hd])
    (fun _ => retrying_intercept hmax hk outcome) (fun _ => hopenings) fun _ => by omega

theorem Levelled.step (h : Levelled n s) (hmax : Redelivery.AllowsRetries co i n)
    (e : RetryEvent ι) (hfirst : FirstTime e) : Levelled n (step co i queueName s e) := by
  cases e with
  | arrive copy => exact h.addCopy ⟨0, Nat.zero_le n, by rw [retryCount_of_none hfirst]; simp⟩
  | deliver =>
    simp only [RetryBroker.step]
    split
    next hmay => exact h.deliver hmay
    next => exact h
  | handled j outcome =>
    simp only [RetryBroker.step]
    split
    next d hd ht => exact h.handled hmax hd outcome
    next => exact h
  | channel j r reply =>
    cases hd : s.queue.out[j]? with
    | none => simpa only [RetryBroker.step, hd] using h
    | some d =>
      cases ht : s.tasks j with
      | none => simpa only [RetryBroker.step, hd, ht] using h
      | some tasks => exact h.channelStep hd ht (RetryBroker.channelStep h hd ht r reply)
  | close => exact h.close
  | stop =>
    exact {
      ready := fun c hc => mem_ready_close h hc
      out := fun j d hd => by cases hd
      tasks := fun j d tasks r hd => by cases hd
      unsettled := fun j d hd => by cases hd
      settled := fun j d hd => by cases hd
      single := Nat.zero_le _ }

end Levels

/-- A copy that is counted is paid for twice: for its own deliveries, and for what may go back to
the queue when one of them is settled for the second time. -/
def share (p : ι → Bool) (c : Copy ι) : Nat := (if p c.id then 1 else 0) + 1

section Potential
variable (n : Nat) (p : ι → Bool)

def weight (c : Copy ι) : Nat := share p c * (n + 1 - levelOf c.message)

/-- What is still to come of a delivery: the second settlement, and a publication by one of the
registrations; on a closed channel neither. -/
def pending (d : Delivery (Copy ι)) (tasks : Option (Registration → Script ChannelOp)) : Nat :=
  match d.standing with
  | .unsettled => share p d.item * (n - levelOf d.item.message) + 1
  | .settled => openings tasks * (share p d.item * (n - levelOf d.item.message)) + 1
  | .lapsed => 0

def pendingAt (s : RetryState ι) (j : Nat) : Nat :=
  match s.queue.out[j]? with
  | some d => pending n p d (s.tasks j)
  | none => 0

def readyWeight (cs : List (Copy ι)) : Nat := (cs.map (weight n p)).sum

def outWeight (s : RetryState ι) : Nat :=
  ∑ j ∈ Finset.range s.queue.out.length, pendingAt n p s j

/-- The deliveries that there may still be, and the settlements that may give one back. -/
def potential (s : RetryState ι) : Nat := readyWeight n p s.queue.ready + outWeight n p s

/-- Whether the event delivers one of the copies that are counted. -/
def delivers (s : RetryState ι) : RetryEvent ι → Nat
  | .deliver => if mayDeliver s && (s.queue.ready.head?.any fun c => p c.id) then 1 else 0
  | _ => 0

def arrives : RetryEvent ι → Bool
  | .arrive copy => p copy.id
  | _ => false

/-- The channel closes or the process stops, whatever was settled. -/
def breaks : RetryEvent ι → Bool
  | .close | .stop => true
  | _ => false

def cost : RetryEvent ι → Nat
  | .arrive copy => share p copy * (n + 1)
  | .close | .stop => 1
  | _ => 0

theorem sum_cost (events : List (RetryEvent ι)) :
    (events.map (cost n p)).sum =
      (n + 1) * (events.countP (arrives p) + events.countP (arrives fun _ => true)) +
        events.countP breaks := by
  induction events with
  | nil => rfl
  | cons e es ih =>
    rw [List.map_cons, List.sum_cons, ih]
    cases e with
    | arrive copy =>
      cases hp : p copy.id with
      | true =>
        simp only [cost, share, hp, List.countP_cons, arrives, breaks, if_true, Nat.mul_add,
          Nat.mul_one]
        simp
        omega
      | false =>
        simp only [cost, share, hp, List.countP_cons, arrives, breaks, Nat.mul_add, Nat.mul_one]
        simp
        omega
    | close =>
      simp only [cost, List.countP_cons, arrives, breaks]
      simp
      omega
    | stop =>
      simp only [cost, List.countP_cons, arrives, breaks]
      simp
      omega
    | _ => simp [cost, arrives, breaks]

section Changes
variable {s s' : RetryState ι} {c : Copy ι} {j : Nat} {d : Delivery (Copy ι)}

theorem readyWeight_append (cs ds : List (Copy ι)) :
    readyWeight n p (cs ++ ds) = readyWeight n p cs + readyWeight n p ds := by
  simp [readyWeight]

variable (s s') in
/-- All that changes is what is to come of one delivery. -/
theorem outWeight_at (hj : s.queue.out[j]? = some d)
    (hlength : s'.queue.out.length = s.queue.out.length)
    (hothers : ∀ j', j' ≠ j → pendingAt n p s' j' = pendingAt n p s j') :
    outWeight n p s' + pendingAt n p s j = outWeight n p s + pendingAt n p s' j := by
  have hmem : j ∈ Finset.range s.queue.out.length :=
    Finset.mem_range.mpr (List.getElem?_eq_some_iff.mp hj).1
  have hsplit := Finset.add_sum_erase (Finset.range s.queue.out.length) (pendingAt n p s) hmem
  have hsplit' := Finset.add_sum_erase (Finset.range s.queue.out.length) (pendingAt n p s') hmem
  have hrest : ∑ j' ∈ (Finset.range s.queue.out.length).erase j, pendingAt n p s' j' =
      ∑ j' ∈ (Finset.range s.queue.out.length).erase j, pendingAt n p s j' :=
    Finset.sum_congr rfl fun j' hj' => hothers j' (Finset.ne_of_mem_erase hj')
  rw [outWeight, outWeight, hlength]
  omega

theorem pendingAt_some (hd : s.queue.out[j]? = some d) :
    pendingAt n p s j = pending n p d (s.tasks j) := by
  rw [pendingAt, hd]

theorem pendingAt_withTasks_other {tasks : Option (Registration → Script ChannelOp)} {j' : Nat}
    (hj : j' ≠ j) : pendingAt n p (s.withTasks j tasks) j' = pendingAt n p s j' := by
  simp [pendingAt, RetryState.withTasks, hj]

theorem potential_withTasks (hd : s.queue.out[j]? = some d)
    (tasks : Option (Registration → Script ChannelOp)) :
    potential n p (s.withTasks j tasks) + pending n p d (s.tasks j) =
      potential n p s + pending n p d tasks := by
  have hother := outWeight_at n p s (s.withTasks j tasks) hd rfl
    fun j' hj => pendingAt_withTasks_other n p hj
  have hself : pendingAt n p (s.withTasks j tasks) j = pending n p d tasks := by
    simp [pendingAt, RetryState.withTasks, hd]
  have hpotential : potential n p (s.withTasks j tasks) =
      readyWeight n p s.queue.ready + outWeight n p (s.withTasks j tasks) := rfl
  rw [pendingAt_some n p hd, hself] at hother
  rw [hpotential, potential]
  omega

theorem potential_addCopy (s : RetryState ι) (c : Copy ι) :
    potential n p (s.addCopy c) = potential n p s + weight n p c := by
  have hready : readyWeight n p (s.addCopy c).queue.ready =
      readyWeight n p s.queue.ready + weight n p c := by
    simp [RetryState.addCopy, Queue.publish, readyWeight]
  rw [potential, potential, hready, Nat.add_right_comm]
  rfl

theorem outWeight_of_lapsed (h : ∀ (j : Nat) (d : Delivery (Copy ι)), s.queue.out[j]? = some d →
    d.standing = .lapsed) : outWeight n p s = 0 := by
  refine Finset.sum_eq_zero fun j _ => ?_
  unfold pendingAt
  split
  next d hd => rw [pending, h j d hd]
  next => rfl

theorem pendingAt_le_outWeight (hd : s.queue.out[j]? = some d) :
    pendingAt n p s j ≤ outWeight n p s := by
  have hmem := Finset.mem_range.mpr (List.getElem?_eq_some_iff.mp hd).1
  rw [outWeight, ← Finset.add_sum_erase _ _ hmem]
  exact Nat.le_add_right _ _

theorem pendingAt_add_le_outWeight {j' : Nat} {d' : Delivery (Copy ι)} (hj : j ≠ j')
    (hd : s.queue.out[j]? = some d) (hd' : s.queue.out[j']? = some d') :
    pendingAt n p s j + pendingAt n p s j' ≤ outWeight n p s := by
  have hmem := Finset.mem_range.mpr (List.getElem?_eq_some_iff.mp hd).1
  have hmem' : j' ∈ (Finset.range s.queue.out.length).erase j :=
    Finset.mem_erase.mpr ⟨hj.symm, Finset.mem_range.mpr (List.getElem?_eq_some_iff.mp hd').1⟩
  rw [outWeight, ← Finset.add_sum_erase _ _ hmem, ← Finset.add_sum_erase _ _ hmem',
    ← Nat.add_assoc]
  exact Nat.le_add_right _ _

end Changes
end Potential

section Storm
variable {n : Nat} {p : ι → Bool} {s : RetryState ι} {c : Copy ι} {j : Nat}
  {d : Delivery (Copy ι)} {tasks : Registration → Script ChannelOp} {r : Registration}
  {co : Coercions} {i : MessageInterceptor} {queueName : String}

theorem weight_of_count {k : Nat} (hk : k ≤ n)
    (hcount : MessageInterceptor.retryCount c.message = .num k) :
    weight n p c = share p c * (n - k) + share p c := by
  rw [weight, levelOf_of_count hcount, show n + 1 - k = (n - k) + 1 by omega, Nat.mul_succ]

theorem share_le (p : ι → Bool) (c : Copy ι) : share p c ≤ 2 := by
  unfold share
  split <;> omega

/-- What goes back to the queue with the channel is worth one more there at most. -/
theorem weight_unsettled (h : Levelled n s) (hd : s.queue.out[j]? = some d)
    (hun : d.unsettled = true) : weight n p d.item ≤ pendingAt n p s j + 1 := by
  obtain ⟨k, hk, hcount⟩ := h.out j d hd
  have hshare := share_le p d.item
  rw [weight_of_count hk hcount, pendingAt_some n p hd, pending, Delivery.unsettled_iff.mp hun,
    levelOf_of_count hcount]
  dsimp only
  omega

/-- One delivery at most goes back, and it was not the one that is settled already. -/
theorem backWeight_le (h : Levelled n s) :
    readyWeight n p s.queue.unsettledItems ≤ outWeight n p s + 1 := by
  have hsingle := h.single
  match hitems : s.queue.unsettledItems, hsingle with
  | [], _ => exact Nat.zero_le _
  | [c], _ =>
    obtain ⟨j, d, hd, hun, rfl⟩ := of_mem_unsettledItems (a := c) (by rw [hitems]; simp)
    have hweight := weight_unsettled (p := p) h hd hun
    have hle := pendingAt_le_outWeight n p hd
    simp only [readyWeight, List.map_cons, List.map_nil, List.sum_cons, List.sum_nil]
    omega

theorem backWeight_le_of_settled (h : Levelled n s) (hd : s.queue.out[j]? = some d)
    (hsettled : d.standing = .settled) :
    readyWeight n p s.queue.unsettledItems ≤ outWeight n p s := by
  have hsingle := h.single
  match hitems : s.queue.unsettledItems, hsingle with
  | [], _ => exact Nat.zero_le _
  | [c], _ =>
    obtain ⟨j', d', hd', hun, rfl⟩ := of_mem_unsettledItems (a := c) (by rw [hitems]; simp)
    have hne : j ≠ j' := by
      rintro rfl
      cases hd.symm.trans hd'
      rw [Delivery.unsettled_iff.mp hun] at hsettled
      cases hsettled
    have hweight := weight_unsettled (p := p) h hd' hun
    have hle := pendingAt_add_le_outWeight n p hne hd hd'
    have hone : 1 ≤ pendingAt n p s j := by
      rw [pendingAt_some n p hd, pending, hsettled]
      exact Nat.le_add_left 1 _
    simp only [readyWeight, List.map_cons, List.map_nil, List.sum_cons, List.sum_nil]
    omega

theorem potential_close (s : RetryState ι) :
    potential n p { s with queue := s.queue.close } =
      readyWeight n p s.queue.unsettledItems + readyWeight n p s.queue.ready := by
  have hzero : outWeight n p { s with queue := s.queue.close } = 0 :=
    outWeight_of_lapsed n p fun j d hd => (standing_close hd).1
  rw [potential, hzero, Nat.add_zero]
  exact readyWeight_append n p _ _

theorem storm_goesOn (hd : s.queue.out[j]? = some d) (ht : s.tasks j = some tasks)
    {script : Script ChannelOp} (hless : publishesNext script = true →
      publishesNext (tasks r) = true) :
    potential n p (s.withTasks j (some (Function.update tasks r script))) ≤ potential n p s := by
  have hnext := potential_withTasks n p hd (some (Function.update tasks r script))
  have hopenings := openings_update tasks r script
  have hle : (publishesNext script).toNat ≤ (publishesNext (tasks r)).toNat := by
    cases hp : publishesNext script with
    | false => exact Nat.zero_le _
    | true => rw [hless hp]
  have hpending : pending n p d (some (Function.update tasks r script)) ≤
      pending n p d (some tasks) := by
    unfold pending
    cases d.standing with
    | settled => exact Nat.succ_le_succ (Nat.mul_le_mul_right _ (by omega))
    | _ => exact Nat.le_refl _
  rw [ht] at hnext
  omega

/-- The registration that publishes is the only one that was about to, and the delivery is
settled. -/
theorem openings_of_publishes (h : Levelled n s) (hd : s.queue.out[j]? = some d)
    (ht : s.tasks j = some tasks) {script : Script ChannelOp} (hopen : d.lapsed = false)
    (hpublishes : publishesNext (tasks r) = true) (hdone : publishesNext script = false) :
    d.standing = .settled ∧ openings (some tasks) = 1 ∧
      openings (some (Function.update tasks r script)) = 0 := by
  have hopenings := openings_update tasks r script
  have hpos := openings_pos hpublishes
  rw [hpublishes, hdone] at hopenings
  cases hstanding : d.standing with
  | unsettled =>
    have hnone := h.unsettled j d hd hstanding
    rw [ht] at hnone
    omega
  | lapsed =>
    rw [Delivery.lapsed_iff.mpr hstanding] at hopen
    cases hopen
  | settled =>
    have hone := h.settled j d hd hstanding
    rw [ht] at hone
    have hbefore : openings (some tasks) = 1 := by omega
    rw [hbefore] at hopenings
    exact ⟨rfl, hbefore, Nat.add_right_cancel hopenings⟩

theorem storm_publishes (h : Levelled n s) (hd : s.queue.out[j]? = some d)
    (ht : s.tasks j = some tasks) {script : Script ChannelOp} (hopen : d.lapsed = false)
    (hid : c.id = d.item.id) {k : Nat}
    (hcount : MessageInterceptor.retryCount d.item.message = .num k)
    (hnext : MessageInterceptor.retryCount c.message = .num (k + 1 : Nat))
    (hpublishes : publishesNext (tasks r) = true) (hdone : publishesNext script = false) :
    potential n p ((s.withTasks j (some (Function.update tasks r script))).addCopy c) ≤
      potential n p s := by
  obtain ⟨hstanding, hbefore, hlater⟩ := openings_of_publishes h hd ht hopen hpublishes hdone
  have hafter := potential_withTasks n p hd (some (Function.update tasks r script))
  have hcopy : weight n p c = share p d.item * (n - levelOf d.item.message) := by
    rw [weight, levelOf_of_count hnext, levelOf_of_count hcount, share, hid, share]
    congr 1
    omega
  rw [ht] at hafter
  simp only [pending, hstanding, hbefore, hlater, Nat.one_mul, Nat.zero_mul] at hafter
  rw [potential_addCopy, hcopy]
  omega

theorem storm_settles (h : Levelled n s) (hd : s.queue.out[j]? = some d)
    (ht : s.tasks j = some tasks) {script : Script ChannelOp} (hun : d.standing = .unsettled) :
    potential n p { s.withTasks j (some (Function.update tasks r script)) with
      queue := s.queue.drop j } ≤ potential n p s := by
  have hopenings := openings_update tasks r script
  have hnone := h.unsettled j d hd hun
  have hlast := toNat_le_one (publishesNext script)
  have hat := outWeight_at n p s { s.withTasks j (some (Function.update tasks r script)) with
    queue := s.queue.drop j } hd (List.length_modify _ _ _) fun j' hj => by
      simp only [pendingAt, RetryState.withTasks, drop_other hj, Function.update_of_ne hj]
  have hself : pendingAt n p { s.withTasks j (some (Function.update tasks r script)) with
      queue := s.queue.drop j } j =
        openings (some (Function.update tasks r script)) *
          (share p d.item * (n - levelOf d.item.message)) + 1 := by
    simp [pendingAt, RetryState.withTasks, getElem?_drop_self, hd, pending]
  have hfew : openings (some (Function.update tasks r script)) ≤ 1 := by
    rw [ht] at hnone
    omega
  have hle := Nat.mul_le_mul_right (share p d.item * (n - levelOf d.item.message)) hfew
  have hbefore : pendingAt n p s j = share p d.item * (n - levelOf d.item.message) + 1 := by
    simp only [pendingAt_some n p hd, pending, hun]
  refine Nat.add_le_add_left ?_ (readyWeight n p s.queue.ready)
  rw [Nat.one_mul] at hle
  omega

/-- A channel operation is paid for by the delivery that it is about. -/
theorem storm_channel (h : Levelled n s) (hd : s.queue.out[j]? = some d)
    (ht : s.tasks j = some tasks) {s' : RetryState ι} (hstep : ChannelStep n s j d tasks r s') :
    potential n p s' ≤ potential n p s := by
  cases hstep with
  | goesOn script hscript hless => exact storm_goesOn hd ht hless
  | publishes script hscript copy hopen hid hk hcount hnext hpublishes hdone =>
    exact storm_publishes h hd ht hopen hid hcount hnext hpublishes hdone
  | settles script hscript hun => exact storm_settles h hd ht hun
  | closes script hscript hsettled =>
    have hback := backWeight_le_of_settled (p := p) h hd hsettled
    have hclose := potential_close (n := n) (p := p)
      (s.withTasks j (some (Function.update tasks r script)))
    refine Nat.le_trans (Nat.le_of_eq hclose) ?_
    rw [Nat.add_comm]
    exact Nat.add_le_add_left hback _

theorem potential_deliver_nil (hready : s.queue.ready = []) :
    potential n p ({ s with queue := s.queue.deliver }.withTasks s.queue.out.length none) =
      potential n p s := by
  have hqueue : s.queue.deliver = s.queue := by rw [deliver_nil hready]
  rw [hqueue, potential, potential, outWeight, outWeight]
  congr 1
  refine Finset.sum_congr rfl fun j hj => ?_
  have hne : j ≠ s.queue.out.length := (Finset.mem_range.mp hj).ne
  exact pendingAt_withTasks_other n p hne

theorem outWeight_deliver_cons {rest : List (Copy ι)} (hready : s.queue.ready = c :: rest) :
    outWeight n p ({ s with queue := s.queue.deliver }.withTasks s.queue.out.length none) =
      outWeight n p s + (share p c * (n - levelOf c.message) + 1) := by
  generalize hs' : { s with queue := s.queue.deliver }.withTasks s.queue.out.length none = s'
  have hout : s'.queue.out = s.queue.out ++ [⟨c, .unsettled⟩] := by
    rw [← hs', RetryState.withTasks, deliver_cons hready]
  have htasks : s'.tasks = Function.update s.tasks s.queue.out.length none := by
    rw [← hs', RetryState.withTasks]
  rw [outWeight, hout, List.length_append, List.length_singleton, Finset.sum_range_succ]
  congr 1
  · refine Finset.sum_congr rfl fun j hj => ?_
    have hlt := Finset.mem_range.mp hj
    simp only [pendingAt, hout, htasks, List.getElem?_append_left hlt,
      Function.update_of_ne hlt.ne]
  · simp [pendingAt, hout, pending]

theorem storm_deliver (p : ι → Bool) (co : Coercions) (i : MessageInterceptor)
    (queueName : String) (h : Levelled n s) :
    delivers p s .deliver + potential n p (step co i queueName s .deliver) ≤ potential n p s := by
  cases hmay : mayDeliver s with
  | false => simp [delivers, step, hmay]
  | true =>
    rw [step, if_pos hmay]
    cases hready : s.queue.ready with
    | nil => simp [delivers, hready, potential_deliver_nil hready]
    | cons c rest =>
      obtain ⟨k, hk, hcount⟩ := h.ready c (by rw [hready]; exact List.mem_cons_self)
      have hqueue : ({ s with queue := s.queue.deliver }.withTasks s.queue.out.length
          none).queue.ready = rest := by
        rw [RetryState.withTasks, deliver_cons hready]
      have hcons : readyWeight n p s.queue.ready = weight n p c + readyWeight n p rest := by
        simp [hready, readyWeight]
      have hgain : delivers p s .deliver + 1 = share p c := by
        simp [delivers, hmay, hready, share]
      rw [weight_of_count hk hcount] at hcons
      rw [potential, potential, outWeight_deliver_cons hready, levelOf_of_count hcount, hqueue,
        hcons]
      omega

theorem storm_handled (n : Nat) (p : ι → Bool) (s : RetryState ι) (co : Coercions)
    (i : MessageInterceptor) (queueName : String) (j : Nat) (outcome : Except Failure Value) :
    potential n p (step co i queueName s (.handled j outcome)) ≤ potential n p s := by
  simp only [step]
  split
  next d hd ht =>
    have hended : potential n p (s.handlerEnded d.item.id outcome) = potential n p s := by
      cases outcome <;> rfl
    have htasks : (s.handlerEnded d.item.id outcome).tasks j = none := by
      cases outcome <;> exact ht
    have hd' : (s.handlerEnded d.item.id outcome).queue.out[j]? = some d := by
      rw [RetryState.handlerEnded_queue, hd]
    have hnext := potential_withTasks n p hd'
      (some fun _ => MessageInterceptor.intercept co i d.item.message "rpc" outcome)
    have hpending : pending n p d
        (some fun _ => MessageInterceptor.intercept co i d.item.message "rpc" outcome) =
          pending n p d none := by
      simp [pending, openings, publishesNext_intercept]
    rw [hended, htasks, hpending] at hnext
    exact Nat.le_of_eq (Nat.add_right_cancel hnext)
  next => exact Nat.le_refl _

theorem storm_channel_step (h : Levelled n s) (j : Nat) (r : Registration) (reply : Reply) :
    potential n p (step co i queueName s (.channel j r reply)) ≤ potential n p s := by
  cases hd : s.queue.out[j]? with
  | none => simp only [step, hd, Nat.le_refl]
  | some d =>
    cases ht : s.tasks j with
    | none => simp only [step, hd, ht, Nat.le_refl]
    | some tasks => exact storm_channel h hd ht (channelStep h hd ht r reply)

/-- Every delivery is paid for by what its copy could come to. -/
theorem storm_step (h : Levelled n s) (e : RetryEvent ι) (hfirst : FirstTime e) :
    delivers p s e + potential n p (step co i queueName s e) ≤ potential n p s + cost n p e := by
  cases e with
  | arrive copy =>
    have hcount : MessageInterceptor.retryCount copy.message = .num (0 : Nat) := by
      rw [retryCount_of_none hfirst]
      simp
    simp only [delivers, cost, step, potential_addCopy, weight, levelOf_of_count hcount]
    exact Nat.le_of_eq (Nat.zero_add _)
  | deliver => exact storm_deliver p co i queueName h
  | handled j outcome =>
    exact (Nat.zero_add _).trans_le (storm_handled n p s co i queueName j outcome)
  | channel j r reply =>
    exact (Nat.zero_add _).trans_le (storm_channel_step h j r reply)
  | close =>
    have hback := backWeight_le (p := p) h
    have hclose := potential_close (n := n) (p := p) s
    simp only [delivers, cost, step]
    rw [hclose, potential]
    omega
  | stop =>
    have hback := backWeight_le (p := p) h
    have hstop : potential n p (step co i queueName s .stop) =
        readyWeight n p s.queue.unsettledItems + readyWeight n p s.queue.ready := by
      simp [potential, step, Queue.restart, readyWeight_append, outWeight]
    rw [hstop, potential]
    simp only [delivers, cost]
    omega

/-- With both registrations at work, whatever the handler comes to and whatever of the channel
throws, closes or stops: a message is delivered at most `n + 1` times for each time that it arrives,
`n + 1` times more for each arrival of any message, whose deliveries may be settled twice, and once
for each other close of the channel and each stop of the process. -/
theorem retry_storm_bounded (co : Coercions) (i : MessageInterceptor) (queueName : String)
    (p : ι → Bool) (hmax : Redelivery.AllowsRetries co i n) (events : List (RetryEvent ι))
    (hfirst : ∀ copy, .arrive copy ∈ events → header copy.message "x-retry-count" = none) :
    tally (step co i queueName) (delivers p) (.start []) events ≤
      (n + 1) * (events.countP (arrives p) + events.countP (arrives fun _ => true)) +
        events.countP breaks := by
  have hfirst' : ∀ e ∈ events, FirstTime e := by
    intro e he
    cases e with
    | arrive copy => exact hfirst copy he
    | _ => trivial
  have hbound := tally_le (step co i queueName) (delivers p) (potential n p) (cost n p)
    (I := Levelled n) (P := FirstTime) (fun s e h he => h.step hmax e he)
    (fun s e h he => storm_step h e he) levelled_start hfirst'
  have hstart : potential n p (.start [] : RetryState ι) = 0 := rfl
  rw [hstart, Nat.zero_add, sum_cost] at hbound
  exact Nat.le_trans (Nat.le_add_right _ _) hbound

end Storm

section Sample

/-- The `j`-th delivery: its handler fails, the channel takes the one reject and throws at the
other, and the next copy is published. -/
def failsAgain (j : Nat) : List (RetryEvent Nat) :=
  [.deliver, .handled j (.error (.native "Error")), .channel j .global .accepted,
    .channel j .controller .threw, .channel j .global .accepted, .channel j .global .accepted]

def alwaysFails : List (RetryEvent Nat) :=
  .arrive ⟨0, sampleMessage⟩ :: (List.range 5).flatMap failsAgain

theorem retry_storm_bounded_sample :
    tally (step Coercions.plain defaultInterceptor "rewards") (delivers fun _ => true) (.start [])
        alwaysFails = 4 ∧
      tally (step Coercions.plain defaultInterceptor "rewards") (delivers fun _ => true)
        (.start []) alwaysFails ≤
          (3 + 1) * (alwaysFails.countP (arrives fun _ => true) +
            alwaysFails.countP (arrives fun _ => true)) + alwaysFails.countP breaks := by
  refine ⟨by decide +kernel, retry_storm_bounded Coercions.plain defaultInterceptor "rewards"
    (fun _ => true) Redelivery.default_allows_three alwaysFails fun copy hcopy => ?_⟩
  obtain hcopy | hcopy := List.mem_cons.mp hcopy
  · cases hcopy
    decide
  · obtain ⟨j, -, hj⟩ := List.mem_flatMap.mp hcopy
    simp [failsAgain] at hj

end Sample
end RetryBroker
end MsaTuto
