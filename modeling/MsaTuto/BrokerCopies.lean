import MsaTuto.RetryBroker

/-! The copies of a message with both registrations at work: what they carry, and where a message
is while something is to come of it yet, at the broker or with the process. -/
namespace MsaTuto
open Runs AckQueue

/-- A copy that the operation publishes carries the text. -/
def ChannelOp.Republishes (text : String) : ChannelOp → Prop
  | .publish _ _ content _ => content = text
  | _ => True

/-- What is left of a retry once its reject is through: a publication to the queue. -/
def Waits (queueName : String) (script : Script ChannelOp) : Prop :=
  ∃ content options, script.calls = [.publish "" queueName content options]

/-- A reject is followed by such a publication, and an acknowledgement by none. -/
def RetriesTo (queueName : String) : Script ChannelOp → Prop
  | .call (.reject _) next onThrow => Waits queueName next ∧ RetriesTo queueName next ∧
      onThrow.calls = []
  | .call .ack next onThrow => next.calls = [] ∧ RetriesTo queueName onThrow
  | .call (.publish _ _ _ _) next onThrow => next.calls = [] ∧ onThrow.calls = []
  | .sleep _ next => RetriesTo queueName next
  | .done | .failed => True

section Scripts
variable {co : Js.Coercions} {i : MessageInterceptor} {queueName : String}

theorem retriesTo_acknowledge (n : Nat) :
    RetriesTo queueName (MessageInterceptor.acknowledgeMessage co i n) := by
  induction n with
  | zero => exact ⟨rfl, trivial⟩
  | succ n ih => exact ⟨rfl, ih⟩

theorem republishes_acknowledge (text : String) (n : Nat) :
    (MessageInterceptor.acknowledgeMessage co i n).Every (ChannelOp.Republishes text) := by
  induction n with
  | zero => exact ⟨trivial, trivial, trivial⟩
  | succ n ih => exact ⟨trivial, trivial, ih⟩

theorem republishes_intercept (message : RmqMessage) (contextType : String)
    (outcome : Except Failure Js.Value) :
    (MessageInterceptor.intercept co i message contextType outcome).Every
      (ChannelOp.Republishes message.content) := by
  unfold MessageInterceptor.intercept
  split
  · trivial
  · split
    · trivial
    · cases outcome with
      | ok result => exact republishes_acknowledge _ 2
      | error f =>
        simp only
        split
        · exact ⟨trivial, ⟨rfl, trivial, trivial⟩, trivial⟩
        · exact republishes_acknowledge _ 2

theorem retriesTo_intercept {message : RmqMessage} (h : message.routingKey = queueName)
    (contextType : String) (outcome : Except Failure Js.Value) :
    RetriesTo queueName (MessageInterceptor.intercept co i message contextType outcome) := by
  unfold MessageInterceptor.intercept
  split
  · trivial
  · split
    · trivial
    · cases outcome with
      | ok result => exact retriesTo_acknowledge 2
      | error f =>
        simp only
        split
        · subst h
          exact ⟨⟨_, _, rfl⟩, ⟨rfl, rfl⟩, rfl⟩
        · exact retriesTo_acknowledge 2

theorem retriesTo_of_calls_nil {script : Script ChannelOp} (h : script.calls = []) :
    RetriesTo queueName script := by
  induction script with
  | done => trivial
  | failed => trivial
  | call op next onThrow => cases h
  | sleep ms next ih => exact ih h

theorem RetriesTo.step {script : Script ChannelOp} (h : RetriesTo queueName script)
    (reply : Reply) : RetriesTo queueName (script.step reply []).1 := by
  cases script with
  | done => trivial
  | failed => trivial
  | sleep ms next => exact h
  | call op next onThrow =>
    cases op with
    | ack =>
      cases reply with
      | accepted => exact retriesTo_of_calls_nil h.1
      | threw => exact h.2
    | reject requeue =>
      cases reply with
      | accepted => exact h.2.1
      | threw => exact retriesTo_of_calls_nil h.2.2
    | publish exchange queue content options =>
      cases reply with
      | accepted => exact retriesTo_of_calls_nil h.1
      | threw => exact retriesTo_of_calls_nil h.2

end Scripts

namespace RetryBroker
variable {ι : Type*}

/-- Every copy there is, and every one that the process is going to publish, has the property. -/
structure Carries (P : Copy ι → Prop) (s : RetryState ι) : Prop where
  ready : ∀ c ∈ s.queue.ready, P c
  out : ∀ (n : Nat) (d : Delivery (Copy ι)), s.queue.out[n]? = some d → P d.item
  tasks : ∀ (n : Nat) (d : Delivery (Copy ι)) tasks k, s.queue.out[n]? = some d →
    s.tasks n = some tasks → (tasks k).Every (ChannelOp.Republishes d.item.message.content)

/-- A retry keeps the property. -/
def KeptByRetries (queueName : String) (P : Copy ι → Prop) : Prop :=
  ∀ c options, P c → P ⟨c.id, ⟨c.message.content, options, "", queueName⟩⟩

section Copies
variable {P P' : Copy ι → Prop} {co : Js.Coercions} {i : MessageInterceptor} {queueName : String}
  {s : RetryState ι} {n : Nat} {d : Delivery (Copy ι)}

theorem carries_start {ready : List (Copy ι)} (h : ∀ c ∈ ready, P c) :
    Carries P (.start ready) where
  ready := h
  out n d hd := by simp [RetryState.start] at hd
  tasks n d tasks k hd := by simp [RetryState.start] at hd

theorem Carries.mono (h : Carries P s) (hP : ∀ c, P c → P' c) : Carries P' s :=
  ⟨fun c hc => hP c (h.ready c hc), fun n d hd => hP d.item (h.out n d hd), h.tasks⟩

theorem Carries.addCopy (h : Carries P s) {copy : Copy ι} (hc : P copy) :
    Carries P (s.addCopy copy) where
  ready c hmem := by
    obtain hmem | hmem := List.mem_append.mp hmem
    · exact h.ready c hmem
    · rwa [List.mem_singleton.mp hmem]
  out := h.out
  tasks := h.tasks

/-- What the broker puts back is what had been delivered and not settled. -/
theorem Carries.withQueue (h : Carries P s) {q : Queue (Copy ι)}
    (hdelivered : q.delivered = s.queue.delivered)
    (hready : ∀ c ∈ q.ready, c ∈ s.queue.ready ∨ c ∈ s.queue.unsettledItems) :
    Carries P { s with queue := q } where
  ready c hc := by
    obtain hc | hc := hready c hc
    · exact h.ready c hc
    · obtain ⟨n, d, hd, -, rfl⟩ := of_mem_unsettledItems hc
      exact h.out n d hd
  out n d hd := by
    obtain ⟨d', hd', hitem⟩ := item_of_delivered hdelivered hd
    rw [← hitem]
    exact h.out n d' hd'
  tasks n d tasks k hd ht := by
    obtain ⟨d', hd', hitem⟩ := item_of_delivered hdelivered hd
    rw [← hitem]
    exact h.tasks n d' tasks k hd' ht

theorem Carries.withTasks (h : Carries P s) {tasks : Option (Registration → Script ChannelOp)}
    (ht : ∀ d tasks', s.queue.out[n]? = some d → tasks = some tasks' →
      ∀ k, (tasks' k).Every (ChannelOp.Republishes d.item.message.content)) :
    Carries P (s.withTasks n tasks) where
  ready := h.ready
  out := h.out
  tasks j d tasks' k hd hj := by
    by_cases hjn : j = n
    · subst hjn
      exact ht d tasks' hd (by simpa [RetryState.withTasks] using hj) k
    · exact h.tasks j d tasks' k hd (by simpa [RetryState.withTasks, hjn] using hj)

theorem Carries.perform (hP : KeptByRetries queueName P) (h : Carries P s)
    (hd : s.queue.out[n]? = some d) {op : ChannelOp}
    (hop : op.Republishes d.item.message.content) :
    Carries P (perform queueName n d.item.id s op) := by
  cases op with
  | ack => exact h.withQueue (delivered_settle _ _) fun _ => mem_settle_ready
  | reject requeue =>
    cases requeue with
    | true => exact h.withQueue (delivered_giveBack _ _) fun _ => mem_giveBack_ready
    | false => exact h.withQueue (delivered_settle _ _) fun _ => mem_settle_ready
  | publish exchange queue content options =>
    simp only [RetryBroker.perform]
    split
    next hqueue =>
      obtain ⟨rfl, rfl⟩ := hqueue
      rw [show content = d.item.message.content from hop]
      exact h.addCopy (hP d.item options (h.out n d hd))
    next => exact h

theorem Carries.deliver (h : Carries P s) :
    Carries P ({ s with queue := s.queue.deliver }.withTasks s.queue.out.length none) where
  ready c hc := h.ready c (mem_deliver_ready hc)
  out n d hd := by
    obtain hd | ⟨-, hc⟩ := item_of_deliver hd
    · exact h.out n d hd
    · exact h.ready d.item hc
  tasks n d tasks k hd ht := by
    by_cases hn : n = s.queue.out.length
    · simp [RetryState.withTasks, hn] at ht
    · obtain hold | ⟨hlen, -⟩ := item_of_deliver hd
      · exact h.tasks n d tasks k hold (by simpa [RetryState.withTasks, hn] using ht)
      · exact absurd hlen hn

theorem Carries.handled (h : Carries P s) (hd : s.queue.out[n]? = some d)
    (outcome : Except Failure Js.Value) :
    Carries P ((s.handlerEnded d.item.id outcome).withTasks n
      (some fun _ => MessageInterceptor.intercept co i d.item.message "rpc" outcome)) := by
  have hended : Carries P (s.handlerEnded d.item.id outcome) := by
    cases outcome with
    | ok result => exact ⟨h.ready, h.out, h.tasks⟩
    | error f => exact h
  refine hended.withTasks fun d' tasks' hd' htasks k => ?_
  rw [RetryState.handlerEnded_queue, hd] at hd'
  cases hd'
  cases htasks
  exact republishes_intercept d.item.message "rpc" outcome

theorem Carries.advance (h : Carries P s) {tasks : Registration → Script ChannelOp}
    (ht : s.tasks n = some tasks) (k : Registration) (reply : Reply) :
    Carries P (s.withTasks n (some (Function.update tasks k ((tasks k).step reply []).1))) := by
  refine h.withTasks fun d' tasks' hd' htasks => ?_
  cases htasks
  have hscripts := fun k => h.tasks n d' tasks k hd' ht
  exact Script.forall_stepped hscripts ((hscripts k).step reply [])

theorem Carries.channel (hP : KeptByRetries queueName P) (h : Carries P s)
    (hd : s.queue.out[n]? = some d) {tasks : Registration → Script ChannelOp}
    (ht : s.tasks n = some tasks) (k : Registration) (reply : Reply) :
    Carries P (((tasks k).step reply []).2.foldl (RetryBroker.perform queueName n d.item.id)
      (s.withTasks n (some (Function.update tasks k ((tasks k).step reply []).1)))) := by
  have hnext := h.advance ht k reply
  have hscript := h.tasks n d tasks k hd ht
  revert hnext hscript
  cases tasks k with
  | call op next onThrow =>
    intro hnext hscript
    cases reply with
    | threw => exact hnext
    | accepted => exact hnext.perform hP hd hscript.1
  | _ => exact fun hnext _ => hnext

theorem Carries.close (h : Carries P s) : Carries P { s with queue := s.queue.close } :=
  h.withQueue (delivered_close _) fun _ hc => (List.mem_append.mp hc).symm

theorem Carries.step (hP : KeptByRetries queueName P) (h : Carries P s) (e : RetryEvent ι)
    (harrive : ∀ copy, e = .arrive copy → P copy) : Carries P (step co i queueName s e) := by
  cases e with
  | arrive copy => exact h.addCopy (harrive copy rfl)
  | deliver =>
    simp only [RetryBroker.step]
    split
    · exact h.deliver
    · exact h
  | handled n outcome =>
    simp only [RetryBroker.step]
    split
    next d hd hnone => exact h.handled hd outcome
    next => exact h
  | channel n k reply =>
    simp only [RetryBroker.step]
    split
    next d tasks hd ht => exact h.channel hP hd ht k _
    next => exact h
  | close => exact h.close
  | stop =>
    refine ⟨h.close.ready, fun n d hd => ?_, fun n d tasks k _ ht => by cases ht⟩
    simp [RetryBroker.step, Queue.restart] at hd

theorem known_perform (op : ChannelOp) (id : ι) :
    s.known ⊆ (perform queueName n id s op).known := by
  cases op with
  | publish exchange queue content options =>
    simp only [perform]
    split
    · exact List.subset_cons_self _ _
    · exact List.Subset.refl _
  | _ => exact List.Subset.refl _

theorem known_step (e : RetryEvent ι) : s.known ⊆ (RetryBroker.step co i queueName s e).known := by
  cases e with
  | arrive copy => exact List.subset_cons_self _ _
  | deliver =>
    simp only [RetryBroker.step]
    split <;> exact List.Subset.refl _
  | handled n outcome =>
    simp only [RetryBroker.step]
    split
    · cases outcome <;> exact List.Subset.refl _
    · exact List.Subset.refl _
  | channel n k reply =>
    simp only [RetryBroker.step]
    split
    next d tasks hd ht =>
      cases tasks k with
      | call op next onThrow =>
        cases answer d reply with
        | accepted =>
          exact known_perform (s := s.withTasks n (some (Function.update tasks k next))) op
            d.item.id
        | threw => exact List.Subset.refl _
      | _ => exact List.Subset.refl _
    next => exact List.Subset.refl _
  | close => exact List.Subset.refl _
  | stop => exact List.Subset.refl _

end Copies

section Fate
variable (queueName : String)

/-- The process is going to publish the message anew. -/
def Awaits (s : RetryState ι) (id : ι) : Prop :=
  ∃ (n : Nat) (c : Copy ι) (tasks : Registration → Script ChannelOp) (k : Registration),
    s.queue.delivered[n]? = some c ∧ c.id = id ∧ s.tasks n = some tasks ∧ Waits queueName (tasks k)

/-- No publication of a retry throws, and the process does not stop while a retry waits. -/
def Undisturbed (s : RetryState ι) : RetryEvent ι → Prop
  | .channel n k reply => ∀ d tasks op next onThrow, s.queue.out[n]? = some d →
      s.tasks n = some tasks → tasks k = .call op next onThrow → answer d reply = .threw →
      op.republishes = false
  | .stop => ∀ id, ¬Awaits queueName s id
  | _ => True

/-- The invariant: a message that something is to come of yet is at the broker, or the process is
going to publish it. -/
structure Kept (Over : ι → Prop) (s : RetryState ι) : Prop where
  kept : ∀ c ∈ s.known, Over c.id ∨ Holds (fun c' => c'.id = c.id) s.queue ∨ Awaits queueName s c.id
  routed : Carries (fun c => c.message.routingKey = queueName) s
  acks : ∀ (n : Nat) (d : Delivery (Copy ι)) tasks k, s.queue.out[n]? = some d →
    s.tasks n = some tasks → (tasks k).Every fun op => op = .ack → Over d.item.id
  scripts : ∀ n tasks k, s.tasks n = some tasks → RetriesTo queueName (tasks k)

variable {queueName} {co : Js.Coercions} {i : MessageInterceptor} {Over : ι → Prop}
  {s s' : RetryState ι} {n : Nat} {d : Delivery (Copy ι)} {id : ι}

theorem kept_start {ready : List (Copy ι)} (h : ∀ c ∈ ready, c.message.routingKey = queueName) :
    Kept queueName Over (.start ready) where
  kept c hc := .inr (.inl (.inl ⟨c, hc, rfl⟩))
  routed := carries_start h
  acks n d tasks k hd := by simp [RetryState.start] at hd
  scripts n tasks k ht := by simp [RetryState.start] at ht

theorem Kept.mono {Over' : ι → Prop} (h : Kept queueName Over s)
    (hover : ∀ id, Over id → Over' id) : Kept queueName Over' s where
  kept c hc := (h.kept c hc).imp_left (hover c.id)
  routed := h.routed
  acks n d tasks k hd ht := (h.acks n d tasks k hd ht).mono fun _ hop hack => hover _ (hop hack)
  scripts := h.scripts

theorem waits_call {op : ChannelOp} {next onThrow : Script ChannelOp}
    (h : Waits queueName (.call op next onThrow)) :
    ∃ content options, op = .publish "" queueName content options := by
  obtain ⟨content, options, hcalls⟩ := h
  obtain ⟨rfl, -⟩ := List.cons.inj hcalls
  exact ⟨content, options, rfl⟩

/-- What still waits goes on waiting, as long as its delivery keeps its tag. -/
theorem Awaits.keep (h : Awaits queueName s id)
    (hstep : ∀ (n : Nat) c tasks k, s.queue.delivered[n]? = some c → s.tasks n = some tasks →
      Waits queueName (tasks k) → s'.queue.delivered[n]? = some c ∧
        ∃ tasks', s'.tasks n = some tasks' ∧ Waits queueName (tasks' k)) :
    Awaits queueName s' id := by
  obtain ⟨n, c, tasks, k, hc, hid, ht, hwaits⟩ := h
  obtain ⟨hc', tasks', ht', hwaits'⟩ := hstep n c tasks k hc ht hwaits
  exact ⟨n, c, tasks', k, hc', hid, ht', hwaits'⟩

/-- Where the broker puts a message changes nothing that the process is going to do. -/
theorem Kept.withQueue (h : Kept queueName Over s) {q : Queue (Copy ι)}
    (hdelivered : q.delivered = s.queue.delivered)
    (hready : ∀ c ∈ q.ready, c ∈ s.queue.ready ∨ c ∈ s.queue.unsettledItems)
    (hholds : ∀ id, Holds (fun c => c.id = id) s.queue →
      Over id ∨ Holds (fun c => c.id = id) q ∨ Awaits queueName s id) :
    Kept queueName Over { s with queue := q } := by
  have hawaits : ∀ id, Awaits queueName s id → Awaits queueName { s with queue := q } id := by
    intro id h
    exact h.keep fun n c tasks k hc ht hwaits => ⟨by rw [hdelivered]; exact hc, tasks, ht, hwaits⟩
  constructor
  case kept =>
    intro c hc
    obtain hover | hheld | hwaits := h.kept c hc
    · exact .inl hover
    · obtain hover | hheld | hwaits := hholds c.id hheld
      · exact .inl hover
      · exact .inr (.inl hheld)
      · exact .inr (.inr (hawaits c.id hwaits))
    · exact .inr (.inr (hawaits c.id hwaits))
  case routed => exact h.routed.withQueue hdelivered hready
  case acks =>
    intro n d tasks k hd ht
    obtain ⟨d', hd', hitem⟩ := item_of_delivered hdelivered hd
    rw [← hitem]
    exact h.acks n d' tasks k hd' ht
  case scripts => exact h.scripts

theorem Kept.addCopy (h : Kept queueName Over s) {copy : Copy ι}
    (hroute : copy.message.routingKey = queueName) : Kept queueName Over (s.addCopy copy) where
  kept c hc := by
    obtain rfl | hc := List.mem_cons.mp hc
    · exact .inr (.inl (holds_publish rfl))
    · exact (h.kept c hc).imp_right (Or.imp_left fun hheld => hheld.publish copy)
  routed := h.routed.addCopy hroute
  acks := h.acks
  scripts := h.scripts

/-- A delivery is settled whose message is over, or about to be published anew. -/
theorem Kept.settle (h : Kept queueName Over s) (hd : s.queue.out[n]? = some d)
    (hwhy : Over d.item.id ∨ Awaits queueName s d.item.id) :
    Kept queueName Over { s with queue := s.queue.settle n } := by
  refine h.withQueue (delivered_settle s.queue n) (fun _ => mem_settle_ready) fun id hheld => ?_
  by_cases hid : d.item.id = id
  · subst hid
    exact hwhy.imp_right .inr
  · refine .inr (.inl (holds_settle_iff.mpr (hheld.beside fun d' hd' => ?_)))
    rw [hd] at hd'
    cases hd'
    exact hid

theorem Kept.giveBack (h : Kept queueName Over s) (n : Nat) :
    Kept queueName Over { s with queue := s.queue.giveBack n } :=
  h.withQueue (delivered_giveBack s.queue n) (fun _ => mem_giveBack_ready)
    fun _ hheld => .inr (.inl (hheld.giveBack n))

theorem Kept.close (h : Kept queueName Over s) :
    Kept queueName Over { s with queue := s.queue.close } :=
  h.withQueue (delivered_close s.queue) (fun _ hc => (List.mem_append.mp hc).symm)
    fun _ hheld => .inr (.inl (holds_close_iff.mpr hheld))

theorem delivered_of_out (hd : s.queue.out[n]? = some d) :
    s.queue.delivered[n]? = some d.item := by
  simp [Queue.delivered, hd]

/-- One instance of the interceptor goes on with the delivery `n`. -/
theorem Kept.advance (h : Kept queueName Over s) (hd : s.queue.out[n]? = some d)
    {tasks : Registration → Script ChannelOp} (ht : s.tasks n = some tasks) (k : Registration)
    (reply : Reply)
    (hwaits : Waits queueName (tasks k) → Waits queueName ((tasks k).step reply []).1 ∨
      Holds (fun c => c.id = d.item.id) s.queue) :
    Kept queueName Over
      (s.withTasks n (some (Function.update tasks k ((tasks k).step reply []).1))) := by
  constructor
  case kept =>
    intro c hc
    obtain hover | hheld | ⟨m, c', tasks', k', hc', hid, ht', hw⟩ := h.kept c hc
    · exact .inl hover
    · exact .inr (.inl hheld)
    · by_cases hm : m = n
      · subst hm
        rw [ht] at ht'
        cases ht'
        rw [delivered_of_out hd] at hc'
        cases hc'
        by_cases hk : k' = k
        · subst hk
          obtain hgoes | hheld := hwaits hw
          · refine .inr (.inr ⟨m, d.item, Function.update tasks k' ((tasks k').step reply []).1, k',
              delivered_of_out hd, hid, Function.update_self _ _ _, ?_⟩)
            rwa [Function.update_self]
          · rw [← hid]
            exact .inr (.inl hheld)
        · refine .inr (.inr ⟨m, d.item, Function.update tasks k ((tasks k).step reply []).1, k',
            delivered_of_out hd, hid, Function.update_self _ _ _, ?_⟩)
          rwa [Function.update_of_ne hk]
      · refine .inr (.inr ⟨m, c', tasks', k', hc', hid, ?_, hw⟩)
        exact (Function.update_of_ne hm _ _).trans ht'
  case routed => exact h.routed.advance ht k reply
  case acks =>
    intro m d' tasks' k' hd' ht'
    by_cases hm : m = n
    · subst hm
      obtain rfl := Option.some.inj ((Function.update_self m _ s.tasks).symm.trans ht')
      have hscripts := fun k => h.acks m d' tasks k hd' ht
      exact Script.forall_stepped hscripts ((hscripts k).step reply []) k'
    · exact h.acks m d' tasks' k' hd' ((Function.update_of_ne hm _ _).symm.trans ht')
  case scripts =>
    intro m tasks' k' ht'
    by_cases hm : m = n
    · subst hm
      obtain rfl := Option.some.inj ((Function.update_self m _ s.tasks).symm.trans ht')
      have hscripts := fun k => h.scripts m tasks k ht
      exact Script.forall_stepped hscripts ((hscripts k).step reply) k'
    · exact h.scripts m tasks' k' ((Function.update_of_ne hm _ _).symm.trans ht')

theorem Kept.deliver (h : Kept queueName Over s) :
    Kept queueName Over
      ({ s with queue := s.queue.deliver }.withTasks s.queue.out.length none) := by
  have htag : ∀ {m : Nat} {c : Copy ι}, s.queue.delivered[m]? = some c →
      m ≠ s.queue.out.length ∧ s.queue.deliver.delivered[m]? = some c := by
    intro m c hc
    have hlt : m < s.queue.out.length := by
      simpa [Queue.delivered] using (List.getElem?_eq_some_iff.mp hc).1
    refine ⟨by omega, ?_⟩
    cases hready : s.queue.ready with
    | nil => rwa [deliver_nil hready]
    | cons a rest =>
      have hold : m < s.queue.delivered.length := by simpa [Queue.delivered] using hlt
      rw [delivered_deliver hready, List.getElem?_append_left hold]
      exact hc
  have hold : ∀ {m : Nat} {tasks}, m ≠ s.queue.out.length →
      (({ s with queue := s.queue.deliver } : RetryState ι).withTasks s.queue.out.length
        none).tasks m = some tasks → s.tasks m = some tasks :=
    fun hm ht => (Function.update_of_ne hm _ _).symm.trans ht
  have hnew : ∀ {m : Nat} {d tasks}, s.queue.deliver.out[m]? = some d →
      (({ s with queue := s.queue.deliver } : RetryState ι).withTasks s.queue.out.length
        none).tasks m = some tasks → s.queue.out[m]? = some d ∧ s.tasks m = some tasks := by
    intro m d tasks hd ht
    by_cases hm : m = s.queue.out.length
    · simp [RetryState.withTasks, hm] at ht
    · obtain hd | ⟨hlen, -⟩ := item_of_deliver hd
      · exact ⟨hd, hold hm ht⟩
      · exact absurd hlen hm
  constructor
  case kept =>
    intro c hc
    obtain hover | hheld | hwaits := h.kept c hc
    · exact .inl hover
    · exact .inr (.inl hheld.deliver)
    · refine .inr (.inr (hwaits.keep fun m c' tasks k hc' ht hw => ⟨(htag hc').2, tasks, ?_, hw⟩))
      exact (Function.update_of_ne (htag hc').1 _ _).trans ht
  case routed =>
    refine ⟨fun c hc => h.routed.ready c (mem_deliver_ready hc), fun m d hd => ?_,
      fun m d tasks k hd ht => ?_⟩
    · obtain hd | ⟨-, hc⟩ := item_of_deliver hd
      · exact h.routed.out m d hd
      · exact h.routed.ready d.item hc
    · obtain ⟨hd, ht⟩ := hnew hd ht
      exact h.routed.tasks m d tasks k hd ht
  case acks =>
    intro m d tasks k hd ht
    obtain ⟨hd, ht⟩ := hnew hd ht
    exact h.acks m d tasks k hd ht
  case scripts =>
    intro m tasks k ht
    by_cases hm : m = s.queue.out.length
    · simp [RetryState.withTasks, hm] at ht
    · exact h.scripts m tasks k (hold hm ht)

theorem Kept.handled (h : Kept queueName Over s) (hd : s.queue.out[n]? = some d)
    (hnone : s.tasks n = none) (outcome : Except Failure Js.Value)
    (hover : (∃ result, outcome = .ok result) ∨
      MessageInterceptor.retries co i d.item.message = false → Over d.item.id) :
    Kept queueName Over ((s.handlerEnded d.item.id outcome).withTasks n
      (some fun _ => MessageInterceptor.intercept co i d.item.message "rpc" outcome)) := by
  have hended : Kept queueName Over (s.handlerEnded d.item.id outcome) := by
    cases outcome with
    | ok result => exact ⟨h.kept, ⟨h.routed.ready, h.routed.out, h.routed.tasks⟩, h.acks, h.scripts⟩
    | error f => exact h
  have hother : (s.handlerEnded d.item.id outcome).tasks = s.tasks := by
    cases outcome <;> rfl
  generalize hs : s.handlerEnded d.item.id outcome = s₁ at hended hother ⊢
  have hd₁ : s₁.queue.out[n]? = some d := by
    rw [← hs, RetryState.handlerEnded_queue, hd]
  have hnone₁ : s₁.tasks n = none := by rw [hother, hnone]
  constructor
  case kept =>
    intro c hc
    refine (hended.kept c hc).imp_right (Or.imp_right fun hwaits => ?_)
    refine hwaits.keep fun m c' tasks k hc' ht hw => ⟨hc', tasks, ?_, hw⟩
    have hm : m ≠ n := by
      rintro rfl
      rw [hnone₁] at ht
      cases ht
    exact (Function.update_of_ne hm _ _).trans ht
  case routed =>
    refine hended.routed.withTasks fun d' tasks' hd' htasks k => ?_
    rw [hd₁] at hd'
    cases hd'
    cases htasks
    exact republishes_intercept d.item.message "rpc" outcome
  case acks =>
    intro m d' tasks k hd' ht
    by_cases hm : m = n
    · subst hm
      obtain rfl := Option.some.inj ((Function.update_self m _ s₁.tasks).symm.trans ht)
      obtain rfl : d = d' := Option.some.inj (hd₁.symm.trans hd')
      refine (acks_intercept d.item.message "rpc" outcome).mono fun op hop hack => ?_
      exact hover (hop hack)
    · exact hended.acks m d' tasks k hd' ((Function.update_of_ne hm _ _).symm.trans ht)
  case scripts =>
    intro m tasks k ht
    by_cases hm : m = n
    · subst hm
      obtain rfl := Option.some.inj ((Function.update_self m _ s₁.tasks).symm.trans ht)
      exact retriesTo_intercept (hended.routed.out m d hd₁) "rpc" outcome
    · exact hended.scripts m tasks k ((Function.update_of_ne hm _ _).symm.trans ht)

theorem Kept.channel (h : Kept queueName Over s) (hd : s.queue.out[n]? = some d)
    {tasks : Registration → Script ChannelOp} (ht : s.tasks n = some tasks) (k : Registration)
    (reply : Reply) (hcalm : ∀ op next onThrow, tasks k = .call op next onThrow →
      reply = .threw → op.republishes = false) :
    Kept queueName Over
      (((tasks k).step reply []).2.foldl (RetryBroker.perform queueName n d.item.id)
        (s.withTasks n (some (Function.update tasks k ((tasks k).step reply []).1)))) := by
  have hscript := h.scripts n tasks k ht
  have hack := h.acks n d tasks k hd ht
  cases htask : tasks k with
  | done =>
    have hnext := h.advance hd ht k reply (by rw [htask]; exact .inl)
    rwa [htask] at hnext
  | failed =>
    have hnext := h.advance hd ht k reply (by rw [htask]; exact .inl)
    rwa [htask] at hnext
  | sleep ms next =>
    have hnext := h.advance hd ht k reply (by rw [htask]; exact .inl)
    rwa [htask] at hnext
  | call op next onThrow =>
    rw [htask] at hscript hack
    cases reply with
    | threw =>
      have hnext := h.advance hd ht k .threw (by
        rw [htask]
        intro hwaits
        obtain ⟨content, options, rfl⟩ := waits_call hwaits
        exact absurd (hcalm _ next onThrow htask rfl) (by simp [ChannelOp.republishes]))
      rwa [htask] at hnext
    | accepted =>
      -- what the call does to the queue, once the instance has gone on behind it
      have hgoes : ∀ {s₁ : RetryState ι}, Kept queueName Over s₁ → s₁.queue.out[n]? = some d →
          s₁.tasks n = some tasks →
          (Waits queueName (.call op next onThrow) →
            Holds (fun c => c.id = d.item.id) s₁.queue) →
          Kept queueName Over (s₁.withTasks n (some (Function.update tasks k next))) := by
        intro s₁ h₁ hd₁ ht₁ hheld
        have hnext := h₁.advance hd₁ ht₁ k .accepted (by
          rw [htask]
          exact fun hw => .inr (hheld hw))
        rwa [htask] at hnext
      cases op with
      | ack =>
        have hnext := hgoes h hd ht fun hw => by obtain ⟨_, _, hop⟩ := waits_call hw; cases hop
        exact hnext.settle hd (.inl (hack.1 rfl))
      | reject requeue =>
        have hnext := hgoes h hd ht fun hw => by obtain ⟨_, _, hop⟩ := waits_call hw; cases hop
        cases requeue with
        | true => exact hnext.giveBack n
        | false =>
          refine hnext.settle hd (.inr ⟨n, d.item, Function.update tasks k next, k,
            delivered_of_out hd, rfl, Function.update_self _ _ _, ?_⟩)
          rw [Function.update_self]
          exact hscript.1
      | publish exchange queue content options =>
        change Kept queueName Over (RetryBroker.perform queueName n d.item.id
          (s.withTasks n (some (Function.update tasks k next)))
          (.publish exchange queue content options))
        simp only [RetryBroker.perform]
        split
        next hqueue =>
          obtain ⟨rfl, rfl⟩ := hqueue
          have hcopied : Kept queue Over (s.addCopy ⟨d.item.id, ⟨content, options, "", queue⟩⟩) :=
            h.addCopy rfl
          exact hgoes hcopied hd ht fun _ => holds_publish rfl
        next hqueue =>
          refine hgoes h hd ht fun hw => ?_
          obtain ⟨_, _, hop⟩ := waits_call hw
          cases hop
          exact absurd ⟨rfl, rfl⟩ hqueue

/-- Nothing that the broker or the process does undisturbed loses a message, as long as it is over
with one that a handler has succeeded on, or failed on with its retries used up. -/
theorem Kept.step (h : Kept queueName Over s) (e : RetryEvent ι)
    (hcalm : Undisturbed queueName s e)
    (harrive : ∀ copy, e = .arrive copy → copy.message.routingKey = queueName)
    (hover : ∀ n d outcome, e = .handled n outcome → s.queue.out[n]? = some d →
      s.tasks n = none → (∃ result, outcome = .ok result) ∨
        MessageInterceptor.retries co i d.item.message = false → Over d.item.id) :
    Kept queueName Over (step co i queueName s e) := by
  cases e with
  | arrive copy => exact h.addCopy (harrive copy rfl)
  | deliver =>
    simp only [RetryBroker.step]
    split
    · exact h.deliver
    · exact h
  | handled n outcome =>
    simp only [RetryBroker.step]
    split
    next d hd hnone => exact h.handled hd hnone outcome (hover n d outcome rfl hd hnone)
    next => exact h
  | channel n k reply =>
    simp only [RetryBroker.step]
    split
    next d tasks hd ht =>
      exact h.channel hd ht k _ fun op next onThrow => hcalm d tasks op next onThrow hd ht
    next => exact h
  | close => exact h.close
  | stop =>
    have hgone := h.close
    refine ⟨fun c hc => ?_, ⟨hgone.routed.ready, fun n d hd => ?_, fun n d tasks k _ ht => ?_⟩,
      fun n d tasks k _ ht => ?_, fun n tasks k ht => ?_⟩
    · obtain hover | hheld | hwaits := h.kept c hc
      · exact .inl hover
      · exact .inr (.inl (holds_unsettledItems hheld []))
      · exact absurd hwaits (hcalm c.id)
    · simp [RetryBroker.step, Queue.restart] at hd
    · cases ht
    · cases ht
    · cases ht

end Fate
end RetryBroker
end MsaTuto
