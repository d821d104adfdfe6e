import MsaTuto.RetryBroker

/-! One instance of the interceptor and the broker, with no crash and no failing channel call:
how often a message is handled, what its copies carry, and when it is gone. -/
namespace MsaTuto
open Js Runs AckQueue

/-- What a retry publishes, as it is delivered anew. -/
def nextCopy (co : Coercions) (message : RmqMessage) : RmqMessage where
  content := message.content
  properties := MessageInterceptor.retryOptions message
    (co.plus (MessageInterceptor.retryCount message) (.num 1))
  exchange := ""
  routingKey := message.routingKey

def copyAt (co : Coercions) (message : RmqMessage) : Nat → RmqMessage
  | 0 => message
  | k + 1 => nextCopy co (copyAt co message k)

section Copies
variable (co : Coercions) {message : RmqMessage}

def header (message : RmqMessage) (name : String) : Value :=
  optGet (message.properties.lookup "headers") name

/-- The headers that a retry sets. -/
def retryHeaders : List String :=
  ["x-retry-count", "x-original-exchange", "x-original-routing-key"]

/-- The copy behind the `k`-th failure of the message. -/
structure FaithfulCopy (message : RmqMessage) (k : Nat) (copy : RmqMessage) : Prop where
  count : header copy "x-retry-count" = some (.num k)
  content : copy.content = message.content
  queue : copy.routingKey = message.routingKey
  properties : ∀ name, name ≠ "headers" →
    copy.properties.lookup name = message.properties.lookup name
  headers : ∀ name, name ∉ retryHeaders → header copy name = header message name

theorem header_nextCopy (name : String) :
    header (nextCopy co message) name =
      (spread (ownFields (orElse (message.properties.lookup "headers") (some (.obj []))))
        [("x-retry-count", some (co.plus (MessageInterceptor.retryCount message) (.num 1))),
          ("x-original-exchange", some (.str message.exchange)),
          ("x-original-routing-key", some (.str message.routingKey))]).lookup name := by
  have hheaders : (nextCopy co message).properties.lookup "headers" = some (.obj _) :=
    lookup_spread_set message.properties [] [] "headers" _ (by simp)
  rw [header, hheaders]
  rfl

theorem lookup_ownFields (v : Value) (name : String) :
    (ownFields (orElse v (some (.obj [])))).lookup name = optGet v name := by
  cases v with
  | none => rfl
  | some json =>
    cases json with
    | obj fs => rfl
    | bool b => cases b <;> rfl
    | num q => by_cases hq : q = 0 <;> simp [orElse, truthy, hq, ownFields, optGet, Json.field]
    | str s => by_cases hs : s = "" <;> simp [orElse, truthy, hs, ownFields, optGet, Json.field]
    | _ => rfl

theorem header_nextCopy_other {name : String} (h : name ∉ retryHeaders) :
    header (nextCopy co message) name = header message name := by
  rw [header_nextCopy, lookup_spread_of_notMem (by simpa [retryHeaders] using h),
    lookup_ownFields, header]

theorem header_nextCopy_count :
    header (nextCopy co message) "x-retry-count" =
      some (co.plus (MessageInterceptor.retryCount message) (.num 1)) := by
  rw [header_nextCopy]
  exact lookup_spread_set _ [] [("x-original-exchange", _), ("x-original-routing-key", _)]
    "x-retry-count" _ (by simp)

theorem properties_nextCopy {name : String} (h : name ≠ "headers") :
    (nextCopy co message).properties.lookup name = message.properties.lookup name := by
  rw [nextCopy, MessageInterceptor.retryOptions, lookup_spread_of_notMem (by simpa using h)]

theorem retryCount_of_header {k : Nat} (h : header message "x-retry-count" = some (.num k)) :
    MessageInterceptor.retryCount message = .num k := by
  rw [header] at h
  rw [MessageInterceptor.retryCount, h]
  by_cases hk : (k : Rat) = 0 <;> simp [orElse, truthy, hk]

/-- A first count is missing, and read as the zero that a falsy one is replaced by. -/
theorem retryCount_of_none (h : header message "x-retry-count" = none) :
    MessageInterceptor.retryCount message = .num 0 := by
  rw [header] at h
  rw [MessageInterceptor.retryCount, h]
  rfl

theorem nextCopy_count {k : Nat} (h : MessageInterceptor.retryCount message = .num k) :
    header (nextCopy co message) "x-retry-count" = some (.num (k + 1 : Nat)) := by
  rw [header_nextCopy_count, h, co.plus_num]
  simp

/-- Each hop raises the count by one and keeps the rest. -/
theorem faithful_copyAt (hfirst : header message "x-retry-count" = none) (k : Nat) :
    FaithfulCopy message (k + 1) (copyAt co message (k + 1)) := by
  induction k with
  | zero =>
    exact ⟨nextCopy_count co (retryCount_of_none hfirst), rfl, rfl,
      fun _ => properties_nextCopy co, fun _ => header_nextCopy_other co⟩
  | succ k ih =>
    exact ⟨nextCopy_count co (retryCount_of_header ih.count), ih.content, ih.queue,
      fun name h => (properties_nextCopy co h).trans (ih.properties name h),
      fun name h => (header_nextCopy_other co h).trans (ih.headers name h)⟩

theorem retryCount_copyAt (hfirst : header message "x-retry-count" = none) (k : Nat) :
    MessageInterceptor.retryCount (copyAt co message k) = .num k := by
  cases k with
  | zero => exact retryCount_of_none hfirst
  | succ k => exact retryCount_of_header (faithful_copyAt co hfirst k).count

theorem routingKey_copyAt (k : Nat) : (copyAt co message k).routingKey = message.routingKey := by
  induction k with
  | zero => rfl
  | succ k ih => exact ih

theorem content_copyAt (k : Nat) : (copyAt co message k).content = message.content := by
  induction k with
  | zero => rfl
  | succ k ih => exact ih

/-- As the copy is delivered anew. -/
theorem copyAt_succ (k : Nat) :
    copyAt co message (k + 1) =
      ⟨message.content, (copyAt co message (k + 1)).properties, "", message.routingKey⟩ := by
  rw [← content_copyAt co k, ← routingKey_copyAt co k]
  rfl

end Copies

/-- The queue at the broker; what the instance still has to do for each delivery; the copies there
have been of each message, and what its handler has come to, both from the first on. -/
structure Redelivery (ι : Type*) where
  queue : Queue (Copy ι)
  task : Nat → Option (Script ChannelOp)
  copies : ι → List RmqMessage
  outcomes : ι → List (Except Failure Value)

inductive RedeliveryEvent (ι : Type*) where
  | arrive (copy : Copy ι)
  | deliver
  | handled (n : Nat) (outcome : Except Failure Value)
  | channel (n : Nat)

namespace Redelivery
variable {ι : Type*}

/-- Nothing more comes of the deliveries of the message, the one at `current` apart. -/
def Over (s : Redelivery ι) (id : ι) (current : Option Nat) : Prop :=
  ∀ (j : Nat) (d : Delivery (Copy ι)), s.queue.out[j]? = some d → d.item.id = id →
    some j ≠ current → d.unsettled = false ∧ s.task j = some .done

/-- A delivery of the message that has something to do yet is the current one. -/
theorem Over.current {s : Redelivery ι} {id : ι} {current : Option Nat} (h : Over s id current)
    {j : Nat} {d : Delivery (Copy ι)} (hj : s.queue.out[j]? = some d) (hd : d.item.id = id)
    (htask : s.task j ≠ some .done) : some j = current := by
  by_contra hne
  exact htask (h j d hj hd hne).2

theorem index_ne_length {s : Redelivery ι} {j : Nat} {d : Delivery (Copy ι)}
    (hj : s.queue.out[j]? = some d) : j ≠ s.queue.out.length :=
  (List.getElem?_eq_some_iff.mp hj).1.ne

variable [DecidableEq ι]

def start (ready : List (Copy ι)) : Redelivery ι where
  queue := ⟨ready, []⟩
  task _ := none
  copies id := (ready.filter fun c => c.id = id).map Copy.message
  outcomes _ := []

def addCopy (s : Redelivery ι) (copy : Copy ι) : Redelivery ι :=
  { s with
    queue := s.queue.publish copy
    copies := Function.update s.copies copy.id (s.copies copy.id ++ [copy.message]) }

section Steps
variable (co : Coercions) (i : MessageInterceptor) (queueName : String)

/-- A channel operation of delivery `n`, as at a broker with two registrations. -/
def perform (n : Nat) (id : ι) (s : Redelivery ι) : ChannelOp → Redelivery ι
  | .ack => { s with queue := s.queue.settle n }
  | .reject requeue =>
    { s with queue := if requeue then s.queue.giveBack n else s.queue.settle n }
  | .publish exchange queue content options =>
    if exchange = "" ∧ queue = queueName then
      s.addCopy ⟨id, ⟨content, options, exchange, queue⟩⟩
    else s

def step (s : Redelivery ι) : RedeliveryEvent ι → Redelivery ι
  | .arrive copy => s.addCopy copy
  | .deliver =>
    { s with
      queue := s.queue.deliver
      task := Function.update s.task s.queue.out.length none }
  | .handled n outcome =>
    match s.queue.out[n]?, s.task n with
    | some d, none =>
      { s with
        task := Function.update s.task n
          (some (MessageInterceptor.intercept co i d.item.message "rpc" outcome))
        outcomes := Function.update s.outcomes d.item.id (s.outcomes d.item.id ++ [outcome]) }
    | _, _ => s
  | .channel n =>
    match s.queue.out[n]?, s.task n with
    | some d, some script =>
      (script.step .accepted []).2.foldl (perform queueName n d.item.id)
        { s with task := Function.update s.task n (some (script.step .accepted []).1) }
    | _, _ => s

end Steps

/-- How often the handler was called with a copy of the message. -/
def invocations (s : Redelivery ι) (id : ι) : Nat :=
  s.queue.delivered.countP fun c => c.id = id

/-- The settlements that a delivery has ahead of it. -/
def ahead : Option (Script ChannelOp) → Nat
  | none => 1
  | some script => script.calls.countP ChannelOp.settles

/-- A delivery is unsettled exactly as long as its settlement is ahead of it. -/
def SettlesOnce (s : Redelivery ι) : Prop :=
  ∀ (j : Nat) (d : Delivery (Copy ι)), s.queue.out[j]? = some d →
    ahead (s.task j) = if d.unsettled then 1 else 0

/-- Two states that say the same of a message. -/
structure SameFor (id : ι) (s s' : Redelivery ι) : Prop where
  ready : s'.queue.ready.filter (fun c => c.id = id) = s.queue.ready.filter fun c => c.id = id
  copies : s'.copies id = s.copies id
  outcomes : s'.outcomes id = s.outcomes id
  invocations : s'.invocations id = s.invocations id
  out : ∀ (j : Nat) (d : Delivery (Copy ι)), d.item.id = id →
    (s'.queue.out[j]? = some d ↔ s.queue.out[j]? = some d)
  task : ∀ (j : Nat) (d : Delivery (Copy ι)), s.queue.out[j]? = some d → d.item.id = id →
    s'.task j = s.task j

section Settlements
variable {co : Coercions} {i : MessageInterceptor} {queueName : String} {s : Redelivery ι} {n : Nat}
  {d : Delivery (Copy ι)}

omit [DecidableEq ι] in
theorem SettlesOnce.unsettled (h : SettlesOnce s) (hd : s.queue.out[n]? = some d) {op : ChannelOp}
    {next onThrow : Script ChannelOp} (ht : s.task n = some (.call op next onThrow))
    (hop : op.settles = true) : d.unsettled = true := by
  have hone := h n d hd
  by_contra hsettled
  simp [ht, ahead, Script.calls, hop, hsettled] at hone

/-- The settlement that was ahead of a delivery is the one there is. -/
theorem out_perform (hd : s.queue.out[n]? = some d) {op : ChannelOp}
    (hun : op.settles = true → d.unsettled = true) (id : ι) :
    (perform queueName n id s op).queue.out =
      if op.settles then (s.queue.drop n).out else s.queue.out := by
  cases op with
  | ack => simp [perform, ChannelOp.settles, settle_of_unsettled hd (hun rfl)]
  | reject requeue =>
    cases requeue with
    | false => simp [perform, ChannelOp.settles, settle_of_unsettled hd (hun rfl)]
    | true =>
      obtain ⟨d', -, -, hback⟩ | ⟨hidle, -⟩ := giveBack_cases s.queue n
      · simp [perform, ChannelOp.settles, hback]
      · rw [hidle d hd] at hun
        cases hun rfl
  | publish exchange queue content options =>
    simp only [perform, ChannelOp.settles]
    split <;> rfl

theorem task_perform (op : ChannelOp) (id : ι) :
    (perform queueName n id s op).task = s.task := by
  cases op with
  | publish exchange queue content options =>
    simp only [perform]
    split <;> rfl
  | _ => rfl

theorem SettlesOnce.deliver (h : SettlesOnce s) :
    SettlesOnce (step co i queueName s .deliver) := by
  intro j d hj
  obtain hj | ⟨rfl, -⟩ := item_of_deliver hj
  · simp only [step, Function.update_of_ne (index_ne_length hj)]
    exact h j d hj
  · cases hready : s.queue.ready with
    | nil =>
      simp only [step, deliver_nil hready] at hj
      exact absurd rfl (index_ne_length hj)
    | cons a rest =>
      simp only [step, getElem?_deliver_length hready, Option.some.injEq] at hj
      subst hj
      simp [step, ahead, Delivery.unsettled]

theorem SettlesOnce.handled (h : SettlesOnce s) (hmanual : truthy i.noAck = false)
    (outcome : Except Failure Value) :
    SettlesOnce (step co i queueName s (.handled n outcome)) := by
  simp only [step]
  split
  next d hd hnone =>
    intro j d' hj
    by_cases hjn : j = n
    · subst hjn
      have hone := h j d' hj
      rw [hnone] at hone
      simp only [Function.update_self, ahead, MessageInterceptor.intercept_settles co i _ hmanual]
      exact hone
    · simp only [Function.update_of_ne hjn]
      exact h j d' hj
  next => exact h

theorem SettlesOnce.channel (h : SettlesOnce s) :
    SettlesOnce (step co i queueName s (.channel n)) := by
  simp only [step]
  split
  next d script hd ht =>
    cases script with
    | call op next onThrow =>
      have hun := h.unsettled hd ht
      have hd' : ({ s with task := Function.update s.task n (some next) } :
          Redelivery ι).queue.out[n]? = some d := hd
      intro j d' hj
      simp only [Script.step, List.nil_append, List.foldl_cons, List.foldl_nil,
        out_perform hd' hun] at hj
      simp only [Script.step, List.nil_append, List.foldl_cons, List.foldl_nil, task_perform]
      by_cases hjn : j = n
      · subst hjn
        have hone := h j d hd
        rw [ht] at hone
        simp only [Function.update_self, ahead, Script.calls, List.countP_cons] at hone ⊢
        cases hop : op.settles with
        | true =>
          rw [hop, if_pos rfl] at hj
          rw [hop, hun hop] at hone
          rw [drop_self hj]
          simpa using hone
        | false =>
          rw [hop, if_neg (by decide), hd] at hj
          cases hj
          rw [hop] at hone
          simpa using hone
      · simp only [Function.update_of_ne hjn]
        refine h j d' ?_
        split at hj
        · rwa [drop_other hjn] at hj
        · exact hj
    | _ =>
      intro j d' hj
      by_cases hjn : j = n
      · subst hjn
        have hone := h j d' hj
        rw [ht] at hone
        simpa [Script.step, ahead, Script.calls] using hone
      · simpa [Script.step, hjn] using h j d' hj
  next => exact h

theorem SettlesOnce.step (h : SettlesOnce s) (hmanual : truthy i.noAck = false)
    (e : RedeliveryEvent ι) : SettlesOnce (step co i queueName s e) := by
  cases e with
  | arrive copy => exact h
  | deliver => exact h.deliver
  | handled j outcome => exact h.handled hmanual outcome
  | channel j => exact h.channel

end Settlements

section Frames
variable {co : Coercions} {i : MessageInterceptor} {queueName : String} {id : ι}
  {s s' : Redelivery ι}

variable (id s) in
theorem SameFor.refl : SameFor id s s :=
  ⟨rfl, rfl, rfl, rfl, fun _ _ _ => Iff.rfl, fun _ _ _ _ => rfl⟩

theorem SameFor.trans {s'' : Redelivery ι} (h : SameFor id s s') (h' : SameFor id s' s'') :
    SameFor id s s'' where
  ready := h'.ready.trans h.ready
  copies := h'.copies.trans h.copies
  outcomes := h'.outcomes.trans h.outcomes
  invocations := h'.invocations.trans h.invocations
  out j d hd := (h'.out j d hd).trans (h.out j d hd)
  task j d hj hd := (h'.task j d ((h.out j d hd).mpr hj) hd).trans (h.task j d hj hd)

theorem SameFor.over {current : Option Nat} (h : SameFor id s s') (hover : Over s id current) :
    Over s' id current := by
  intro j d hj hd hne
  have hold := (h.out j d hd).mp hj
  rw [h.task j d hold hd]
  exact hover j d hold hd hne

theorem sameFor_addCopy {copy : Copy ι} (h : copy.id ≠ id) : SameFor id s (s.addCopy copy) where
  ready := by simp [addCopy, Queue.publish, List.filter_append, h]
  copies := by simp [addCopy, Ne.symm h]
  outcomes := rfl
  invocations := rfl
  out _ _ _ := Iff.rfl
  task _ _ _ _ := rfl

theorem sameFor_withTask {n : Nat} {d : Delivery (Copy ι)} (hd : s.queue.out[n]? = some d)
    (hid : d.item.id ≠ id) (script : Option (Script ChannelOp)) :
    SameFor id s { s with task := Function.update s.task n script } where
  ready := rfl
  copies := rfl
  outcomes := rfl
  invocations := rfl
  out _ _ _ := Iff.rfl
  task j d' hj hd' := by
    have hne : j ≠ n := by
      rintro rfl
      rw [hd] at hj
      cases hj
      exact hid hd'
    simp [hne]

theorem sameFor_drop {n : Nat} {d : Delivery (Copy ι)} (hd : s.queue.out[n]? = some d)
    (hid : d.item.id ≠ id) : SameFor id s { s with queue := s.queue.drop n } where
  ready := rfl
  copies := rfl
  outcomes := rfl
  invocations := by simp only [invocations, delivered_drop]
  out j d' hd' := by
    by_cases hj : j = n
    · subst hj
      simp only [getElem?_drop_self, hd, Option.map_some, Option.some.injEq]
      constructor
      · rintro rfl
        exact absurd hd' hid
      · rintro rfl
        exact absurd hd' hid
    · simp only [drop_other hj]
  task _ _ _ _ := rfl

theorem sameFor_giveBack {n : Nat} {d : Delivery (Copy ι)} (hd : s.queue.out[n]? = some d)
    (hid : d.item.id ≠ id) (hun : d.unsettled = true) :
    SameFor id s { s with queue := s.queue.giveBack n } := by
  have hdrop := sameFor_drop hd hid
  obtain ⟨d', hd', -, hback⟩ | ⟨hidle, -⟩ := giveBack_cases s.queue n
  · cases hd.symm.trans hd'
    rw [hback]
    exact ⟨by simp [hid], rfl, rfl, hdrop.invocations, hdrop.out, fun _ _ _ _ => rfl⟩
  · rw [hidle d hd] at hun
    cases hun

/-- What a delivery of another message has the channel do. -/
theorem sameFor_perform {n : Nat} {d : Delivery (Copy ι)} (hd : s.queue.out[n]? = some d)
    (hid : d.item.id ≠ id) (op : ChannelOp) (hun : op.settles = true → d.unsettled = true) :
    SameFor id s (perform queueName n d.item.id s op) := by
  cases op with
  | ack =>
    simp only [perform, settle_of_unsettled hd (hun rfl)]
    exact sameFor_drop hd hid
  | reject requeue =>
    cases requeue with
    | true => exact sameFor_giveBack hd hid (hun rfl)
    | false =>
      simp only [perform, settle_of_unsettled hd (hun rfl)]
      exact sameFor_drop hd hid
  | publish exchange queue content options =>
    by_cases hroute : exchange = "" ∧ queue = queueName
    · rw [perform, if_pos hroute]
      exact sameFor_addCopy hid
    · rw [perform, if_neg hroute]
      exact SameFor.refl id s

theorem sameFor_channel (hone : SettlesOnce s) {n : Nat} {d : Delivery (Copy ι)}
    (hd : s.queue.out[n]? = some d) (hid : d.item.id ≠ id) :
    SameFor id s (step co i queueName s (.channel n)) := by
  cases htask : s.task n with
  | none =>
    simp only [step, hd, htask]
    exact SameFor.refl id s
  | some script =>
    have hfirst := sameFor_withTask hd hid (some (script.step .accepted []).1)
    cases script with
    | call op next onThrow =>
      simp only [step, hd, htask, Script.step, List.nil_append, List.foldl_cons, List.foldl_nil]
      have hd' : ({ s with task := Function.update s.task n (some next) } :
          Redelivery ι).queue.out[n]? = some d := hd
      exact hfirst.trans (sameFor_perform hd' hid op (hone.unsettled hd htask))
    | _ => simpa only [step, hd, htask, Script.step, List.foldl_nil] using hfirst

theorem sameFor_handled {n : Nat} {d : Delivery (Copy ι)} (hd : s.queue.out[n]? = some d)
    (hid : d.item.id ≠ id) (outcome : Except Failure Value) :
    SameFor id s (step co i queueName s (.handled n outcome)) := by
  cases htask : s.task n with
  | none =>
    simp only [step, hd, htask]
    have hfirst := sameFor_withTask hd hid
      (some (MessageInterceptor.intercept co i d.item.message "rpc" outcome))
    exact ⟨rfl, rfl, by simp [Ne.symm hid], rfl, fun _ _ _ => Iff.rfl, hfirst.task⟩
  | some script =>
    simp only [step, hd, htask]
    exact SameFor.refl id s

theorem sameFor_deliver_nil (hready : s.queue.ready = []) :
    SameFor id s (step co i queueName s .deliver) := by
  refine ⟨?_, rfl, rfl, ?_, fun j d _ => ?_, fun j d hj _ => ?_⟩
  · simp only [step, deliver_nil hready]
  · simp only [step, invocations, deliver_nil hready]
  · simp only [step, deliver_nil hready]
  · simp only [step, Function.update_of_ne (index_ne_length hj)]

/-- A copy of another message is delivered. -/
theorem sameFor_deliver_other {a : Copy ι} {rest : List (Copy ι)}
    (hready : s.queue.ready = a :: rest) (ha : a.id ≠ id) :
    SameFor id s (step co i queueName s .deliver) := by
  refine ⟨?_, rfl, rfl, ?_, fun j d hd => ?_, fun j d hj _ => ?_⟩
  · simp only [step, deliver_cons hready, hready]
    rw [List.filter_cons_of_neg (by simpa using ha)]
  · simp [step, invocations, delivered_deliver hready, ha]
  · by_cases hj : j = s.queue.out.length
    · subst hj
      simp only [step, getElem?_deliver_length hready, Option.some.injEq]
      constructor
      · rintro rfl
        exact absurd hd ha
      · intro hsome
        exact absurd rfl (index_ne_length hsome)
    · simp only [step, getElem?_deliver hready hj]
  · simp only [step, Function.update_of_ne (index_ne_length hj)]

end Frames

/-- The limit lets a message through to `n` retries: a number `n`, or a text that compares so. -/
def AllowsRetries (co : Coercions) (i : MessageInterceptor) (n : Nat) : Prop :=
  ∀ k : Nat, co.lessThan (.num k) i.maxRetries = decide (k < n)

theorem allowsRetries_num {co : Coercions} {i : MessageInterceptor} {n : Nat}
    (h : i.maxRetries = .num n) : AllowsRetries co i n := by
  intro k
  rw [h, co.lessThan_num, decide_eq_decide]
  exact Rat.natCast_lt_natCast

/-- The handler has come to an end that no retry follows. -/
def Finished (n : Nat) (outcomes : List (Except Failure Value)) : Prop :=
  (∃ result, .ok result ∈ outcomes) ∨ outcomes.length = n + 1

/-- What is left to do for the delivery of the `k`-th copy: how it stands, the script, and what the
handler has come to so far. -/
inductive AtWork (co : Coercions) (i : MessageInterceptor) (n : Nat) (message : RmqMessage)
    (k : Nat) : Standing → Option (Script ChannelOp) → List (Except Failure Value) → Prop
  | running {outcomes} (hlength : outcomes.length = k) :
    AtWork co i n message k .unsettled none outcomes
  | retrying {outcomes} (hk : k < n) (hlength : outcomes.length = k + 1) :
    AtWork co i n message k .unsettled
      (some (MessageInterceptor.retryMessage co i (copyAt co message k)
        (co.plus (MessageInterceptor.retryCount (copyAt co message k)) (.num 1)))) outcomes
  | delaying {outcomes} (ms : Option Rat) (hk : k < n) (hlength : outcomes.length = k + 1) :
    AtWork co i n message k .settled (some (.sleep ms (.call (.publish "" message.routingKey
      message.content (copyAt co message (k + 1)).properties) .done .failed))) outcomes
  | publishing {outcomes} (hk : k < n) (hlength : outcomes.length = k + 1) :
    AtWork co i n message k .settled (some (.call (.publish "" message.routingKey
      message.content (copyAt co message (k + 1)).properties) .done .failed)) outcomes
  | acking {outcomes} (hlength : outcomes.length ≤ n + 1) (hdone : Finished n outcomes) :
    AtWork co i n message k .unsettled (some (MessageInterceptor.acknowledgeMessage co i 2))
      outcomes
  | acked {outcomes} (hlength : outcomes.length ≤ n + 1) (hdone : Finished n outcomes) :
    AtWork co i n message k .settled (some .done) outcomes

/-- The invariant: one copy of the message, the last one, is in the queue or being worked on, and
nothing more comes of the others. -/
inductive Tracked (co : Coercions) (i : MessageInterceptor) (n : Nat) (id : ι)
    (message : RmqMessage) (s : Redelivery ι) : Prop
  | queued (k : Nat) (hk : k ≤ n)
      (hcopies : s.copies id = (List.range (k + 1)).map (copyAt co message))
      (hready : s.queue.ready.filter (fun c => c.id = id) = [⟨id, copyAt co message k⟩])
      (hinvoked : s.invocations id = k) (hlength : (s.outcomes id).length = k)
      (hover : Over s id none)
  | delivered (k : Nat) (hk : k ≤ n)
      (hcopies : s.copies id = (List.range (k + 1)).map (copyAt co message))
      (hready : s.queue.ready.filter (fun c => c.id = id) = [])
      (hinvoked : s.invocations id = k + 1) (j : Nat) (standing : Standing)
      (hj : s.queue.out[j]? = some ⟨⟨id, copyAt co message k⟩, standing⟩)
      (hwork : AtWork co i n message k standing (s.task j) (s.outcomes id))
      (hover : Over s id (some j))

section Tracking
variable {co : Coercions} {i : MessageInterceptor} {queueName : String} {n : Nat} {id : ι}
  {message : RmqMessage} {s s' : Redelivery ι}

theorem Tracked.congr (h : Tracked co i n id message s) (hsame : SameFor id s s') :
    Tracked co i n id message s' := by
  cases h with
  | queued k hk hcopies hready hinvoked hlength hover =>
    refine .queued k hk (hsame.copies.trans hcopies) (hsame.ready.trans hready)
      (hsame.invocations.trans hinvoked) ?_ (hsame.over hover)
    rw [hsame.outcomes]
    exact hlength
  | delivered k hk hcopies hready hinvoked j standing hj hwork hover =>
    refine .delivered k hk (hsame.copies.trans hcopies) (hsame.ready.trans hready)
      (hsame.invocations.trans hinvoked) j standing ((hsame.out j _ rfl).mpr hj) ?_
      (hsame.over hover)
    rw [hsame.outcomes, hsame.task j _ hj rfl]
    exact hwork

theorem tracked_start {before after : List (Copy ι)}
    (hbefore : ∀ c ∈ before, c.id ≠ id) (hafter : ∀ c ∈ after, c.id ≠ id) :
    Tracked co i n id message (start (before ++ ⟨id, message⟩ :: after)) := by
  have hready : (before ++ ⟨id, message⟩ :: after).filter (fun c => c.id = id) =
      [⟨id, message⟩] := by
    have hnone : ∀ cs : List (Copy ι), (∀ c ∈ cs, c.id ≠ id) →
        cs.filter (fun c => c.id = id) = [] := by
      intro cs hcs
      simpa using hcs
    rw [List.filter_append, List.filter_cons_of_pos (by simp), hnone before hbefore,
      hnone after hafter]
    rfl
  refine .queued 0 (Nat.zero_le n) ?_ hready rfl rfl fun j d hj => ?_
  · simp only [start, hready]
    rfl
  · simp [start] at hj

/-- The queue held one copy of the message, and it is delivered. -/
theorem tracked_delivers {a : Copy ι} {rest : List (Copy ι)}
    (hready : s.queue.ready = a :: rest) (ha : a.id = id) (h : Tracked co i n id message s) :
    Tracked co i n id message (step co i queueName s .deliver) := by
  cases h with
  | delivered k hk hcopies hnone hinvoked j standing hj hwork hover =>
    simp [hready, ha] at hnone
  | queued k hk hcopies hone hinvoked hlength hover =>
    rw [hready, List.filter_cons_of_pos (by simpa using ha), List.cons.injEq] at hone
    obtain ⟨rfl, hempty⟩ := hone
    refine .delivered k hk hcopies ?_ ?_ s.queue.out.length .unsettled
      (getElem?_deliver_length hready) ?_ ?_
    · simp only [step, deliver_cons hready, hempty]
    · rw [invocations] at hinvoked
      simp [step, invocations, delivered_deliver hready, hinvoked]
    · simp only [step, Function.update_self]
      exact .running hlength
    · intro j d hj hd hcurrent
      have hother : j ≠ s.queue.out.length := fun h => hcurrent (by rw [h])
      simp only [step, Function.update_of_ne hother]
      simp only [step, getElem?_deliver hready hother] at hj
      exact hover j d hj hd (by simp)

theorem Tracked.deliver (h : Tracked co i n id message s) :
    Tracked co i n id message (step co i queueName s .deliver) := by
  cases hready : s.queue.ready with
  | nil => exact h.congr (sameFor_deliver_nil hready)
  | cons a rest =>
    by_cases ha : a.id = id
    · exact tracked_delivers hready ha h
    · exact h.congr (sameFor_deliver_other hready ha)

/-- What the instance sets out to do once the handler has come to an end on the `k`-th copy. -/
theorem intercept_copyAt (hmanual : truthy i.noAck = false) (hmax : AllowsRetries co i n)
    (hfirst : header message "x-retry-count" = none) {k : Nat} (hk : k ≤ n)
    (outcome : Except Failure Value) {outcomes : List (Except Failure Value)}
    (hlength : outcomes.length = k) :
    AtWork co i n message k .unsettled
      (some (MessageInterceptor.intercept co i (copyAt co message k) "rpc" outcome))
      (outcomes ++ [outcome]) := by
  have hlength' : (outcomes ++ [outcome]).length = k + 1 := by simp [hlength]
  cases outcome with
  | ok result =>
    have hscript : MessageInterceptor.intercept co i (copyAt co message k) "rpc" (.ok result) =
        MessageInterceptor.acknowledgeMessage co i 2 := by
      simp [MessageInterceptor.intercept, hmanual]
    rw [hscript]
    exact .acking (by omega) (.inl ⟨result, by simp⟩)
  | error f =>
    have hretries : MessageInterceptor.retries co i (copyAt co message k) = decide (k < n) := by
      rw [MessageInterceptor.retries, retryCount_copyAt co hfirst, hmax]
    by_cases hlt : k < n
    · have hscript : MessageInterceptor.intercept co i (copyAt co message k) "rpc" (.error f) =
          MessageInterceptor.retryMessage co i (copyAt co message k)
            (co.plus (MessageInterceptor.retryCount (copyAt co message k)) (.num 1)) := by
        simp [MessageInterceptor.intercept, hmanual, hretries, hlt]
      rw [hscript]
      exact .retrying hlt hlength'
    · have hscript : MessageInterceptor.intercept co i (copyAt co message k) "rpc" (.error f) =
          MessageInterceptor.acknowledgeMessage co i 2 := by
        simp [MessageInterceptor.intercept, hmanual, hretries, hlt]
      rw [hscript]
      exact .acking (by omega) (.inr (by omega))

theorem Tracked.handled (h : Tracked co i n id message s) (hmanual : truthy i.noAck = false)
    (hmax : AllowsRetries co i n) (hfirst : header message "x-retry-count" = none) (j : Nat)
    (outcome : Except Failure Value) :
    Tracked co i n id message (step co i queueName s (.handled j outcome)) := by
  cases hd : s.queue.out[j]? with
  | none => simpa only [step, hd] using h
  | some d =>
    by_cases hid : d.item.id = id
    · cases htask : s.task j with
      | some script => simpa only [step, hd, htask] using h
      | none =>
        have hnew : s.task j ≠ some .done := by simp [htask]
        cases h with
        | queued k hk hcopies hready hinvoked hlength hover =>
          cases hover.current hd hid hnew
        | delivered k hk hcopies hready hinvoked j' standing hj hwork hover =>
          cases hover.current hd hid hnew
          rw [hd] at hj
          cases hj
          rw [htask] at hwork
          cases hwork with
          | running hlength =>
            simp only [step, hd, htask]
            refine .delivered k hk hcopies hready hinvoked j .unsettled hd ?_ ?_
            · simp only [Function.update_self]
              exact intercept_copyAt hmanual hmax hfirst hk outcome hlength
            · intro j' d' hj' hd' hne
              have hother : j' ≠ j := fun h => hne (by rw [h])
              simp only [Function.update_of_ne hother]
              exact hover j' d' hj' hd' hne
    · exact h.congr (sameFor_handled hd hid outcome)

/-- The current delivery goes on: its task and whether it is unsettled change, and nothing else. -/
theorem tracked_goesOn {k : Nat} (hk : k ≤ n)
    (hcopies : s.copies id = (List.range (k + 1)).map (copyAt co message))
    (hready : s.queue.ready.filter (fun c => c.id = id) = [])
    (hinvoked : s.invocations id = k + 1) {j : Nat} (hover : Over s id (some j))
    {q : Queue (Copy ι)} {script : Script ChannelOp}
    (hq : q.ready = s.queue.ready) (hdelivered : q.delivered = s.queue.delivered)
    {standing : Standing}
    (hj : q.out[j]? = some ⟨⟨id, copyAt co message k⟩, standing⟩)
    (hothers : ∀ j', j' ≠ j → q.out[j']? = s.queue.out[j']?)
    (hwork : AtWork co i n message k standing (some script) (s.outcomes id)) :
    Tracked co i n id message
      { s with queue := q, task := Function.update s.task j (some script) } := by
  have hinvoked' : ({ s with queue := q, task := Function.update s.task j (some script) } :
      Redelivery ι).invocations id = k + 1 := by
    rw [invocations, hdelivered]
    exact hinvoked
  refine .delivered k hk hcopies (by rw [hq]; exact hready) hinvoked' j standing hj ?_ ?_
  · simp only [Function.update_self]
    exact hwork
  · intro j' d' hj' hd' hne
    have hother : j' ≠ j := fun h => hne (by rw [h])
    simp only [Function.update_of_ne hother]
    rw [hothers j' hother] at hj'
    exact hover j' d' hj' hd' hne

theorem tracked_publishes {k : Nat} (hlt : k < n)
    (hcopies : s.copies id = (List.range (k + 1)).map (copyAt co message))
    (hready : s.queue.ready.filter (fun c => c.id = id) = [])
    (hinvoked : s.invocations id = k + 1) (hlength : (s.outcomes id).length = k + 1) {j : Nat}
    (hover : Over s id (some j))
    (hsettled : ∀ d, s.queue.out[j]? = some d → d.unsettled = false) :
    Tracked co i n id message
      ({ s with task := Function.update s.task j (some .done) }.addCopy
        ⟨id, copyAt co message (k + 1)⟩) := by
  refine .queued (k + 1) hlt ?_ ?_ hinvoked hlength fun j' d' hj' hd' _ => ?_
  · simp [addCopy, hcopies, List.range_succ]
  · simp [addCopy, Queue.publish, List.filter_append, hready]
  · by_cases hother : j' = j
    · subst hother
      exact ⟨hsettled d' hj', by simp [addCopy]⟩
    · simpa [addCopy, hother] using hover j' d' hj' hd' (by simpa using hother)

/-- One call of the script of the current delivery, case by case of what is left of it. -/
theorem tracked_current (hqueue : message.routingKey = queueName) {k : Nat} (hk : k ≤ n)
    (hcopies : s.copies id = (List.range (k + 1)).map (copyAt co message))
    (hready : s.queue.ready.filter (fun c => c.id = id) = [])
    (hinvoked : s.invocations id = k + 1) {j : Nat} (hover : Over s id (some j))
    {standing : Standing} (hd : s.queue.out[j]? = some ⟨⟨id, copyAt co message k⟩, standing⟩)
    {script : Script ChannelOp} (htask : s.task j = some script) (hdone : script ≠ .done)
    (hwork : AtWork co i n message k standing (some script) (s.outcomes id)) :
    Tracked co i n id message (step co i queueName s (.channel j)) := by
  have hgoesOn := @tracked_goesOn ι _ co i n id message s k hk hcopies hready hinvoked j hover
  have hdropped : (s.queue.drop j).out[j]? = some ⟨⟨id, copyAt co message k⟩, .settled⟩ := by
    rw [getElem?_drop_self, hd]
    rfl
  cases hwork with
  | retrying hlt hlength =>
    simp only [step, hd, htask, MessageInterceptor.retryMessage, Script.step, List.nil_append,
      List.foldl_cons, List.foldl_nil, perform, Bool.false_eq_true, if_false,
      settle_of_unsettled hd rfl]
    refine hgoesOn rfl (delivered_drop _ _) hdropped (fun j' hj' => drop_other hj') ?_
    rw [routingKey_copyAt, content_copyAt]
    exact .delaying _ hlt hlength
  | delaying ms hlt hlength =>
    simp only [step, hd, htask, Script.step, List.foldl_nil]
    exact hgoesOn rfl rfl hd (fun _ _ => rfl) (.publishing hlt hlength)
  | publishing hlt hlength =>
    simp only [step, hd, htask, Script.step, List.nil_append, List.foldl_cons, List.foldl_nil,
      perform, hqueue, and_self, if_true]
    rw [← hqueue, ← copyAt_succ]
    refine tracked_publishes hlt hcopies hready hinvoked hlength hover fun d' hd' => ?_
    rw [hd] at hd'
    cases hd'
    rfl
  | acking hlength hfinished =>
    simp only [step, hd, htask, MessageInterceptor.acknowledgeMessage, Script.step,
      List.nil_append, List.foldl_cons, List.foldl_nil, perform, settle_of_unsettled hd rfl]
    exact hgoesOn rfl (delivered_drop _ _) hdropped (fun j' hj' => drop_other hj')
      (.acked hlength hfinished)
  | acked hlength hfinished => exact absurd rfl hdone

theorem channel_done (hd : s.task n = some .done) :
    SameFor id s (step co i queueName s (.channel n)) := by
  cases hout : s.queue.out[n]? with
  | none =>
    simp only [step, hout]
    exact SameFor.refl id s
  | some d =>
    simp only [step, hout, hd, Script.step, List.foldl_nil]
    refine ⟨rfl, rfl, rfl, rfl, fun _ _ _ => Iff.rfl, fun j d' _ _ => ?_⟩
    by_cases hj : j = n
    · simp [hj, hd]
    · simp [hj]

theorem Tracked.channel (h : Tracked co i n id message s) (hone : SettlesOnce s)
    (hqueue : message.routingKey = queueName) (j : Nat) :
    Tracked co i n id message (step co i queueName s (.channel j)) := by
  cases hd : s.queue.out[j]? with
  | none => simpa only [step, hd] using h
  | some d =>
    by_cases hid : d.item.id = id
    · cases htask : s.task j with
      | none => simpa only [step, hd, htask] using h
      | some script =>
        by_cases hdone : script = .done
        · exact h.congr (channel_done (by rw [htask, hdone]))
        · have hnew : s.task j ≠ some .done := by simpa [htask] using hdone
          cases h with
          | queued k hk hcopies hready hinvoked hlength hover => cases hover.current hd hid hnew
          | delivered k hk hcopies hready hinvoked j' standing hj hwork hover =>
            cases hover.current hd hid hnew
            rw [htask] at hwork
            exact tracked_current hqueue hk hcopies hready hinvoked hover hj htask hdone hwork
    · exact h.congr (sameFor_channel hone hd hid)

/-- Every other message is another one. -/
def ArrivesOther (id : ι) (_ : Redelivery ι) : RedeliveryEvent ι → Prop
  | .arrive copy => copy.id ≠ id
  | _ => True

theorem Tracked.step (h : Tracked co i n id message s) (hone : SettlesOnce s)
    (hmanual : truthy i.noAck = false)
    (hmax : AllowsRetries co i n) (hfirst : header message "x-retry-count" = none)
    (hqueue : message.routingKey = queueName) (e : RedeliveryEvent ι) (he : ArrivesOther id s e) :
    Tracked co i n id message (Redelivery.step co i queueName s e) := by
  cases e with
  | arrive copy => exact h.congr (sameFor_addCopy he)
  | deliver => exact h.deliver
  | handled j outcome => exact h.handled hmanual hmax hfirst j outcome
  | channel j => exact h.channel hone hqueue j

end Tracking

/-- The instance has rejected a copy of the message, and what it has still to do is to publish the
next one to the same queue. -/
def Republishing (queueName : String) (s : Redelivery ι) (id : ι) : Prop :=
  ∃ (j : Nat) (d : Delivery (Copy ι)) (script : Script ChannelOp) (options : Fields),
    s.queue.out[j]? = some d ∧ d.item.id = id ∧ s.task j = some script ∧
      script.calls = [.publish "" queueName d.item.message.content options]

/-- The handler is called `n + 1` times at most, and each retry delivers a faithful copy. -/
structure RetriesBounded (n : Nat) (message : RmqMessage) (s : Redelivery ι) (id : ι) : Prop where
  invocations : s.invocations id ≤ n + 1
  outcomes : (s.outcomes id).length ≤ n + 1
  copies : ∀ k copy, (s.copies id)[k + 1]? = some copy → FaithfulCopy message (k + 1) copy

section Results
variable {co : Coercions} {i : MessageInterceptor} {queueName : String} {n : Nat} {id : ι}
  {message : RmqMessage} {s : Redelivery ι}

theorem AtWork.length_le {k : Nat} (hk : k ≤ n) {standing : Standing}
    {task : Option (Script ChannelOp)} {outcomes : List (Except Failure Value)}
    (h : AtWork co i n message k standing task outcomes) : outcomes.length ≤ n + 1 := by
  cases h <;> omega

theorem Tracked.bounded (h : Tracked co i n id message s)
    (hfirst : header message "x-retry-count" = none) : RetriesBounded n message s id := by
  have hcopy : ∀ {m k : Nat} {copy : RmqMessage},
      ((List.range m).map (copyAt co message))[k + 1]? = some copy →
        FaithfulCopy message (k + 1) copy := by
    intro m k copy hget
    rw [List.getElem?_map] at hget
    obtain ⟨k', hrange, rfl⟩ := Option.map_eq_some_iff.mp hget
    obtain ⟨hlt, rfl⟩ := List.getElem?_eq_some_iff.mp hrange
    rw [List.getElem_range]
    exact faithful_copyAt co hfirst k
  cases h with
  | queued k hk hcopies hready hinvoked hlength hover =>
    exact ⟨by omega, by omega, fun k copy h => hcopy (hcopies ▸ h)⟩
  | delivered k hk hcopies hready hinvoked j standing hj hwork hover =>
    exact ⟨by omega, hwork.length_le hk, fun k copy h => hcopy (hcopies ▸ h)⟩

/-- Until the handler has come to an end that no retry follows, the message is at the broker or on
its way back to it. -/
theorem Tracked.kept (h : Tracked co i n id message s) (hqueue : message.routingKey = queueName) :
    Holds (fun c => c.id = id) s.queue ∨ Republishing queueName s id ∨
      Finished n (s.outcomes id) := by
  cases h with
  | queued k hk hcopies hready hinvoked hlength hover =>
    have hmem : (⟨id, copyAt co message k⟩ : Copy ι) ∈
        s.queue.ready.filter fun c => c.id = id := by
      rw [hready]
      exact List.mem_singleton_self _
    exact .inl (.inl ⟨_, (List.mem_filter.mp hmem).1, rfl⟩)
  | delivered k hk hcopies hready hinvoked j standing hj hwork hover =>
    have hcontent : (copyAt co message k).content = message.content := content_copyAt co k
    generalize htask : s.task j = task at hwork
    cases hwork with
    | running hlength => exact .inl (.inr ⟨j, _, hj, rfl, rfl⟩)
    | retrying hlt hlength => exact .inl (.inr ⟨j, _, hj, rfl, rfl⟩)
    | acking hlength hdone => exact .inl (.inr ⟨j, _, hj, rfl, rfl⟩)
    | acked hlength hdone => exact .inr (.inr hdone)
    | delaying ms hlt hlength =>
      refine .inr (.inl ⟨j, _, _, (copyAt co message (k + 1)).properties, hj, rfl, htask, ?_⟩)
      simp only [Script.calls, hqueue, hcontent]
    | publishing hlt hlength =>
      refine .inr (.inl ⟨j, _, _, (copyAt co message (k + 1)).properties, hj, rfl, htask, ?_⟩)
      simp only [Script.calls, hqueue, hcontent]

/-- In every state of every run without a crash and a failing call, for a message that came to the
queue once, by its name and without a retry count: the handler is called at most `n + 1` times, each
retry delivers a faithful copy, and until a success or the last failure the message is at the broker
or, for the delay of a retry, on its way back to it. -/
theorem retries_bounded_and_faithful (hmanual : truthy i.noAck = false)
    (hmax : AllowsRetries co i n) (hfirst : header message "x-retry-count" = none)
    (hqueue : message.routingKey = queueName) (before after : List (Copy ι))
    (hbefore : ∀ c ∈ before, c.id ≠ id) (hafter : ∀ c ∈ after, c.id ≠ id)
    (events : List (RedeliveryEvent ι)) (hothers : ∀ copy, .arrive copy ∈ events → copy.id ≠ id) :
    Always (step co i queueName)
      (fun s => RetriesBounded n message s id ∧
        (Holds (fun c => c.id = id) s.queue ∨ Republishing queueName s id ∨
          Finished n (s.outcomes id)))
      (start (before ++ ⟨id, message⟩ :: after)) events := by
  have hothers' : ∀ e ∈ events, ∀ s : Redelivery ι, ArrivesOther id s e := by
    intro e he s
    cases e with
    | arrive copy => exact hothers copy he
    | _ => trivial
  have halong : Along (step co i queueName) (fun _ e => ∀ s : Redelivery ι, ArrivesOther id s e)
      (start (before ++ ⟨id, message⟩ :: after)) events := along_of_mem hothers' _
  have htracked := always_of_step (I := fun s => Tracked co i n id message s ∧ SettlesOnce s)
    (fun s e hs he => ⟨hs.1.step hs.2 hmanual hmax hfirst hqueue e (he s), hs.2.step hmanual e⟩)
    ⟨tracked_start hbefore hafter, fun j d hj => by simp [start] at hj⟩ halong
  exact htracked.mono fun s hs => ⟨hs.1.bounded hfirst, hs.1.kept hqueue⟩

end Results

section Sample

def failsOnce : List (RedeliveryEvent Nat) :=
  [.deliver, .handled 0 (.error (.native "Error")), .channel 0]

theorem default_allows_three : AllowsRetries Coercions.plain defaultInterceptor 3 :=
  allowsRetries_num rfl

theorem retries_bounded_sample :
    Always (step Coercions.plain defaultInterceptor "rewards")
      (fun s => RetriesBounded 3 sampleMessage s 0 ∧
        (Holds (fun c => c.id = 0) s.queue ∨ Republishing "rewards" s 0 ∨
          Finished 3 (s.outcomes 0)))
      (start [⟨0, sampleMessage⟩]) failsOnce :=
  retries_bounded_and_faithful rfl default_allows_three rfl rfl [] [] (by simp) (by simp) failsOnce
    (by simp [failsOnce])

/-- The message as an exchange routes it to the queue by another key. -/
def routedMessage : RmqMessage := ⟨"{}", [], "events", "reward.created"⟩

def failsToRepublish : List (RedeliveryEvent Nat) := failsOnce ++ [.channel 0, .channel 0]

/-- A first failure of four that are allowed: the broker has dropped the message, and the instance
waits for the delay to be over. What it publishes then comes back only if the key is the queue's
name. -/
theorem first_failure_takes_message_off :
    (¬∀ events : List (RedeliveryEvent Nat), (∀ copy, .arrive copy ∈ events → copy.id ≠ 0) →
      Always (step Coercions.plain defaultInterceptor "rewards")
        (fun s => Holds (fun c => c.id = 0) s.queue ∨ Finished 3 (s.outcomes 0))
        (start [⟨0, sampleMessage⟩]) events) ∧
    ¬∀ events : List (RedeliveryEvent Nat), (∀ copy, .arrive copy ∈ events → copy.id ≠ 0) →
      Always (step Coercions.plain defaultInterceptor "rewards")
        (fun s => Holds (fun c => c.id = 0) s.queue ∨
          (∃ j script, s.task j = some script ∧ script ≠ .done) ∨ Finished 3 (s.outcomes 0))
        (start [⟨0, routedMessage⟩]) events := by
  constructor
  · intro h
    have hlast := (h failsOnce (by simp [failsOnce])).last
    obtain (⟨c, hc, -⟩ | ⟨j, d, hd, hun, -⟩) | ⟨result, hresult⟩ | hlength := hlast
    · cases hc
    · cases j with
      | zero =>
        cases hd
        cases hun
      | succ j => cases hd
    · cases List.mem_singleton.mp hresult
    · exact absurd hlength (by decide)
  · intro h
    have hlast := (h failsToRepublish (by simp [failsToRepublish, failsOnce])).last
    obtain (⟨c, hc, -⟩ | ⟨j, d, hd, hun, -⟩) | ⟨j, script, htask, hdone⟩ | ⟨result, hresult⟩ |
      hlength := hlast
    · cases hc
    · cases j with
      | zero =>
        cases hd
        cases hun
      | succ j => cases hd
    · cases j with
      | zero =>
        cases htask
        exact hdone rfl
      | succ j => cases htask
    · cases List.mem_singleton.mp hresult
    · exact absurd hlength (by decide)

end Sample
end Redelivery
end MsaTuto
