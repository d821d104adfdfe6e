import MsaTuto.RewardOnce

/-! A message delivered again after its request was stored: what Redis has to hold for
the consumer to answer with that request. -/
namespace MsaTuto
open Js Runs RewardRequestService

def RewardCall.Carries (c : RewardCall) (userId eventId : String) (messageId : Value) : Prop :=
  c.userId = userId ∧ c.eventId = eventId ∧ readCorrelationId c.metadata = .ok messageId

/-- The way of a replay that will be answered from the cache. -/
def RewardPhase.OnCourse (messageId : Value) (q : RewardRequest) : RewardPhase → Prop
  | .started | .replayLookup _ => True
  | .cacheCheck _ c => c = messageId
  | .returned r => r = q
  | _ => False

def RewardPhase.OffCourse : RewardPhase → Prop
  | .lookup _ | .raised _ => True
  | _ => False

def RewardPhase.Uncached (messageId : Value) : RewardPhase → Prop
  | .started | .lookup _ => True
  | .cacheCheck _ c => c = messageId
  | .raised f => f.isBadRequest = true
  | _ => False

namespace RewardRequestService
variable {co : Coercions} {objectId : String → Option String} {call : RewardCall} {m : Moment}
  {l : RewardPhase} {s : ConsumerState} {q : RewardRequest} {messageId : Value}

/-- Redis holds a value that is not empty under the key of the call. -/
def KeyHeld (co : Coercions) (call : RewardCall) (messageId : Value) (s : ConsumerState) : Prop :=
  ∃ key v, idempotencyKey co some call messageId = some key ∧
    KeyStore.get s.redis key = some v ∧ v ≠ ""

theorem held_turn (event : Event) (h : KeyHeld co call messageId s) :
    createEventRewardRequest co objectId call m (.cacheCheck event messageId) s =
      (.replayLookup event, s) := by
  obtain ⟨key, v, hkey, hv, hne⟩ := h
  have htruthy : truthy ((KeyStore.get s.redis key).map .str) = true := by
    simp [hv, truthy, hne]
  simp only [createEventRewardRequest, EventIds.ofText_text, hkey, if_pos htruthy]

variable (objectId m) in
/-- A key that is not held, or cannot be written out. -/
theorem missed_turn (event : Event) (h : ¬KeyHeld co call messageId s) :
    createEventRewardRequest co objectId call m (.cacheCheck event messageId) s =
        (.lookup event, s) ∨
      createEventRewardRequest co objectId call m (.cacheCheck event messageId) s =
        (.raised internalError, s) := by
  simp only [createEventRewardRequest, EventIds.ofText_text]
  cases hkey : idempotencyKey co some call messageId with
  | none => exact .inr rfl
  | some key =>
    refine .inl (if_neg fun htruthy => h ?_)
    cases hv : KeyStore.get s.redis key with
    | none => simp [hv, truthy] at htruthy
    | some v => exact ⟨key, v, hkey, hv, by simpa [hv, truthy] using htruthy⟩

def OpenTo (objectId : String → Option String) (call : RewardCall) (now : Int)
    (events : EventCollection) : Prop :=
  ∃ id e, objectId call.eventId = some id ∧ events id = some e ∧ OpenAt now e

theorem OffCourse.not_onCourse (h : l.OffCourse) : ¬l.OnCourse messageId q := by
  cases l with
  | lookup event => exact id
  | raised f => exact id
  | _ => cases h

/-- The turn is no cache read that misses. -/
def Hits (co : Coercions) (call : RewardCall) (messageId : Value) (l : RewardPhase)
    (s : ConsumerState) : Prop :=
  ∀ event c, l = .cacheCheck event c → KeyHeld co call messageId s

theorem hits_of_ne (h : ∀ event c, l ≠ .cacheCheck event c) : Hits co call messageId l s :=
  fun event c hl => absurd hl (h event c)

theorem started_turn (co : Coercions) (hread : readCorrelationId call.metadata = .ok messageId)
    (hopen : OpenTo objectId call m.now s.events) :
    ∃ e, createEventRewardRequest co objectId call m .started s = (.cacheCheck e messageId, s) := by
  obtain ⟨id, e, hid, he, hop⟩ := hopen
  refine ⟨e, ?_⟩
  simp only [createEventRewardRequest,
    checkEvent_of_openAt (EventIds.names_ofText hid) he hop hread]

theorem findExistingRequest_stored (h : stored objectId s.requests call = some q) :
    findExistingRequest objectId s.requests call = .ok (some q) := by
  obtain ⟨id, hid, hr⟩ := Option.bind_eq_some_iff.mp h
  simp [findExistingRequest, hid, hr]

theorem onCourse_turn (co : Coercions) (hread : readCorrelationId call.metadata = .ok messageId)
    (hstored : stored objectId s.requests call = some q)
    (hopen : l = .started → OpenTo objectId call m.now s.events) (hl : l.OnCourse messageId q) :
    (createEventRewardRequest co objectId call m l s).2 = s ∧
    (Hits co call messageId l s →
      (createEventRewardRequest co objectId call m l s).1.OnCourse messageId q) ∧
    (¬Hits co call messageId l s →
      (createEventRewardRequest co objectId call m l s).1.OffCourse) := by
  cases l with
  | started =>
    obtain ⟨e, he⟩ := started_turn co hread (hopen rfl)
    rw [he]
    exact ⟨rfl, fun _ => rfl, fun h => absurd (hits_of_ne (by simp)) h⟩
  | cacheCheck event c =>
    obtain rfl : c = messageId := hl
    by_cases hk : KeyHeld co call c s
    · rw [held_turn event hk]
      exact ⟨rfl, fun _ => trivial, fun h => absurd (fun _ _ _ => hk) h⟩
    · obtain hout | hout := missed_turn objectId m event hk
      · rw [hout]
        exact ⟨rfl, fun h => absurd (h event c rfl) hk, fun _ => trivial⟩
      · rw [hout]
        exact ⟨rfl, fun h => absurd (h event c rfl) hk, fun _ => trivial⟩
  | replayLookup event =>
    simp only [createEventRewardRequest, findExistingRequest_stored hstored]
    exact ⟨trivial, fun _ => rfl, fun h => absurd (hits_of_ne (by simp)) h⟩
  | returned r => exact ⟨rfl, fun _ => hl, fun h => absurd (hits_of_ne (by simp)) h⟩
  | _ => cases hl

theorem offCourse_turn (co : Coercions) (m : Moment)
    (hstored : stored objectId s.requests call = some q) (hl : l.OffCourse) :
    (createEventRewardRequest co objectId call m l s).2 = s ∧
    (createEventRewardRequest co objectId call m l s).1.OffCourse := by
  cases l with
  | lookup event =>
    simp only [createEventRewardRequest, findExistingRequest_stored hstored]
    exact ⟨trivial, trivial⟩
  | raised f => exact ⟨rfl, hl⟩
  | _ => cases hl

theorem uncached_turn (hread : readCorrelationId call.metadata = .ok messageId)
    (hstored : stored objectId s.requests call = some q)
    (hopen : l = .started → OpenTo objectId call m.now s.events)
    {key : String} (hkey : idempotencyKey co some call messageId = some key)
    (hfree : s.redis key = none) (hl : l.Uncached messageId) :
    (createEventRewardRequest co objectId call m l s).1.Uncached messageId := by
  cases l with
  | started =>
    obtain ⟨e, he⟩ := started_turn co hread (hopen rfl)
    rw [he]
    rfl
  | cacheCheck event c =>
    obtain rfl : c = messageId := hl
    simp [createEventRewardRequest, hkey, KeyStore.get, hfree, truthy, RewardPhase.Uncached]
  | lookup event =>
    simp only [createEventRewardRequest, findExistingRequest_stored hstored]
    rfl
  | raised f => exact hl
  | _ => cases hl

end RewardRequestService

section Redelivery
variable {κ : Type*} [DecidableEq κ] (co : Coercions) (objectId : String → Option String)
  (call : κ → RewardCall) (messageId : Value) (q : RewardRequest) (k : κ)

/-- Delivery `k` finds its event open. -/
def StillOpen (w : World κ ConsumerState RewardPhase) : Turn κ Moment ConsumerEnv → Prop
  | .call k' m => k' = k → w.calls k = .started → OpenTo objectId (call k) m.now w.shared.events
  | .env _ => True

/-- When delivery `k` reads Redis, the key of the message is held there. -/
def CacheHit (w : World κ ConsumerState RewardPhase) : Turn κ Moment ConsumerEnv → Prop
  | .call k' _ => k' = k → Hits co (call k) messageId (w.calls k) w.shared
  | .env _ => True

/-- Delivery `k` stores nothing by this turn. -/
def StoresNothing (w : World κ ConsumerState RewardPhase) (t : Turn κ Moment ConsumerEnv) :
    Prop :=
  t.isBy k = true →
    ((consumer co objectId call).step w t).shared.requests = w.shared.requests

/-- A replay under way: its request is stored, and it is on course or has missed the cache. -/
structure ReplayInvariant (w : World κ ConsumerState RewardPhase) : Prop where
  stored : stored objectId w.shared.requests (call k) = some q
  phase : (w.calls k).OnCourse messageId q ∨ (w.calls k).OffCourse

variable {co objectId call messageId q k} {w : World κ ConsumerState RewardPhase}

theorem stored_step (co : Coercions) (call : κ → RewardCall) {call' : RewardCall}
    (t : Turn κ Moment ConsumerEnv)
    (h : stored objectId w.shared.requests call' = some q) :
    stored objectId ((consumer co objectId call).step w t).shared.requests call' = some q := by
  cases t with
  | call k' m => exact stored_turn h
  | env e => rwa [step_env_shared, env_requests]

theorem replay_own (co : Coercions) {m : Moment}
    (hread : readCorrelationId (call k).metadata = .ok messageId)
    (h : ReplayInvariant objectId call messageId q k w)
    (hopen : StillOpen objectId call k w (.call k m)) :
    (createEventRewardRequest co objectId (call k) m (w.calls k) w.shared).2 = w.shared ∧
    ((((consumer co objectId call).step w (.call k m)).calls k).OnCourse messageId q ∨
      (((consumer co objectId call).step w (.call k m)).calls k).OffCourse) ∧
    ((((consumer co objectId call).step w (.call k m)).calls k).OnCourse messageId q ↔
      (w.calls k).OnCourse messageId q ∧ CacheHit co call messageId k w (.call k m)) := by
  rw [step_call_self]
  obtain hl | hl := h.phase
  · obtain ⟨hs, hhit, hmiss⟩ := onCourse_turn co hread h.stored (hopen rfl) hl
    by_cases hh : Hits co (call k) messageId (w.calls k) w.shared
    · exact ⟨hs, .inl (hhit hh), fun _ => ⟨hl, fun _ => hh⟩, fun _ => hhit hh⟩
    · refine ⟨hs, .inr (hmiss hh), fun hon => ?_, fun hc => absurd (hc.2 rfl) hh⟩
      exact absurd hon (OffCourse.not_onCourse (hmiss hh))
  · obtain ⟨hs, hoff⟩ := offCourse_turn co m h.stored hl
    refine ⟨hs, .inr hoff, fun hon => ?_, fun hc => ?_⟩
    · exact absurd hon (OffCourse.not_onCourse hoff)
    · exact absurd hc.1 (OffCourse.not_onCourse hl)

theorem replay_step (co : Coercions) (hread : readCorrelationId (call k).metadata = .ok messageId)
    (h : ReplayInvariant objectId call messageId q k w) (t : Turn κ Moment ConsumerEnv)
    (hopen : StillOpen objectId call k w t) :
    ReplayInvariant objectId call messageId q k ((consumer co objectId call).step w t) ∧
    StoresNothing co objectId call k w t ∧
    ((((consumer co objectId call).step w t).calls k).OnCourse messageId q ↔
      (w.calls k).OnCourse messageId q ∧ CacheHit co call messageId k w t) := by
  have hstored := stored_step co call t h.stored
  cases t with
  | env e =>
    refine ⟨⟨hstored, h.phase⟩, ?_, fun hl => ⟨hl, trivial⟩, fun hl => hl.1⟩
    intro hby
    cases hby
  | call k' m =>
    by_cases hk : k' = k
    · subst hk
      obtain ⟨hs, hphase, hon⟩ := replay_own co hread h hopen
      exact ⟨⟨hstored, hphase⟩, fun _ => congrArg ConsumerState.requests hs, hon⟩
    · have hsame := step_call_other (consumer co objectId call) w (Ne.symm hk) m
      refine ⟨⟨hstored, by rw [hsame]; exact h.phase⟩, ?_, ?_⟩
      · intro hby
        exact absurd (by simpa [Turn.isBy] using hby) hk
      · rw [hsame]
        exact ⟨fun hl => ⟨hl, fun heq => absurd heq hk⟩, fun hl => hl.1⟩

theorem onCourse_last_iff (hread : readCorrelationId (call k).metadata = .ok messageId)
    (h : ReplayInvariant objectId call messageId q k w)
    (hon : (w.calls k).OnCourse messageId q) {ts : List (Turn κ Moment ConsumerEnv)}
    (hopen : Along (consumer co objectId call).step (StillOpen objectId call k) w ts) :
    ((run (consumer co objectId call).step w ts).calls k).OnCourse messageId q ↔
      Along (consumer co objectId call).step (CacheHit co call messageId k) w ts := by
  have hinv := fun w t (h : ReplayInvariant objectId call messageId q k w) ho =>
    (replay_step co hread h t ho).1
  have hiff := always_iff_along
    (I := fun w => ReplayInvariant objectId call messageId q k w ∧
      (w.calls k).OnCourse messageId q) (fun _ h => h.2)
    (fun w t h ho hhit => ⟨hinv w t h.1 ho, (replay_step co hread h.1 t ho).2.2.mpr ⟨h.2, hhit⟩⟩)
    (fun w t h ho hnext => ((replay_step co hread h.1 t ho).2.2.mp hnext).2)
    ⟨h, hon⟩ hopen
  rw [← hiff]
  have hback : ∀ w t, ReplayInvariant objectId call messageId q k w →
      StillOpen objectId call k w t →
      (((consumer co objectId call).step w t).calls k).OnCourse messageId q →
      (w.calls k).OnCourse messageId q :=
    fun w t h ho hl => ((replay_step co hread h t ho).2.2.mp hl).1
  exact ⟨fun hlast => always_of_last hinv hback h hopen hlast, Always.last⟩

theorem RewardPhase.OnCourse.ended {l : RewardPhase} (h : l.OnCourse messageId q)
    (he : l.ended = true) : l = .returned q := by
  cases l with
  | returned r => exact congrArg _ h
  | created r => cases h
  | raised f => cases h
  | _ => cases he

theorem RewardPhase.Uncached.refused {l : RewardPhase} (h : l.Uncached messageId)
    (he : l.ended = true) : ∃ f, l = .raised f ∧ f.isBadRequest = true := by
  cases l with
  | raised f => exact ⟨f, rfl, h⟩
  | created r => cases h
  | returned r => cases h
  | _ => cases he

theorem redis_shrinks (co : Coercions) (objectId : String → Option String)
    (call : κ → RewardCall) (w : World κ ConsumerState RewardPhase)
    (ts : List (Turn κ Moment ConsumerEnv)) {key : String} (h : w.shared.redis key = none) :
    (run (consumer co objectId call).step w ts).shared.redis key = none := by
  refine run_invariant (I := fun w : World κ ConsumerState RewardPhase =>
    w.shared.redis key = none) (fun w t hw => ?_) h ts
  cases t with
  | call k m =>
    change (createEventRewardRequest co objectId (call k) m (w.calls k) w.shared).2.redis key = none
    obtain ⟨hs, -⟩ | ⟨doc, hnone, -, -, hs⟩ :=
      turn_cases co objectId (call k) m (w.calls k) w.shared
    · rwa [hs]
    · rwa [hs]
  | env e =>
    cases e with
    | editEvents events => exact hw
    | dropKey key' now => exact KeyStore.drop_none _ _ _ _ hw

theorem replayInvariant_of_created {k₀ k₁ : κ} {userId eventId : String}
    (h₀ : (call k₀).Carries userId eventId messageId)
    (h₁ : (call k₁).Carries userId eventId messageId) (s : ConsumerState)
    (us : List (Turn κ Moment ConsumerEnv))
    (hq : (run (consumer co objectId call).step (consumerStart s) us).calls k₀ = .created q)
    (hfresh : (run (consumer co objectId call).step (consumerStart s) us).calls k₁ = .started) :
    ReplayInvariant objectId call messageId q k₁
      (run (consumer co objectId call).step (consumerStart s) us) where
  stored := by
    have hfits := fits_reached co objectId call s us k₀
    rw [hq] at hfits
    have hsame : ∀ requests, stored objectId requests (call k₁) =
        stored objectId requests (call k₀) := by
      intro requests
      rw [stored, stored, h₁.1, h₁.2.1, h₀.1, h₀.2.1]
    rw [hsame]
    exact hfits
  phase := by
    rw [hfresh]
    exact .inl trivial

/-- A message delivered again after its request `q` was stored is answered with `q`, nothing
being stored, exactly if Redis holds the key when this delivery looks for it. -/
theorem redelivery_replays_iff {k₀ k₁ : κ} {userId eventId : String}
    (h₀ : (call k₀).Carries userId eventId messageId)
    (h₁ : (call k₁).Carries userId eventId messageId) (s : ConsumerState)
    (us vs : List (Turn κ Moment ConsumerEnv))
    (hq : (run (consumer co objectId call).step (consumerStart s) us).calls k₀ = .created q)
    (hfresh : (run (consumer co objectId call).step (consumerStart s) us).calls k₁ = .started)
    (hopen : Along (consumer co objectId call).step (StillOpen objectId call k₁)
      (run (consumer co objectId call).step (consumerStart s) us) vs)
    (hended : ((run (consumer co objectId call).step (consumerStart s) (us ++ vs)).calls
      k₁).ended = true) :
    ((run (consumer co objectId call).step (consumerStart s) (us ++ vs)).calls k₁ = .returned q ∧
      Along (consumer co objectId call).step (StoresNothing co objectId call k₁)
        (run (consumer co objectId call).step (consumerStart s) us) vs) ↔
    Along (consumer co objectId call).step (CacheHit co call messageId k₁)
      (run (consumer co objectId call).step (consumerStart s) us) vs := by
  have hinv := replayInvariant_of_created h₀ h₁ s us hq hfresh
  have hon : ((run (consumer co objectId call).step (consumerStart s) us).calls k₁).OnCourse
      messageId q := by
    rw [hfresh]
    trivial
  rw [run_append] at hended ⊢
  rw [← onCourse_last_iff h₁.2.2 hinv hon hopen]
  constructor
  · intro ⟨hret, _⟩
    rw [hret]
    rfl
  · intro hlast
    refine ⟨hlast.ended hended, ?_⟩
    exact along_of_invariant (fun w t h ho => (replay_step co h₁.2.2 h t ho).1)
      (fun w t h ho => (replay_step co h₁.2.2 h t ho).2.1) hinv hopen

/-- No code writes the key, so unless Redis held it before the run, every redelivery is
refused, the request being there. -/
theorem redelivery_refused {k₀ k₁ : κ} {userId eventId : String}
    (h₀ : (call k₀).Carries userId eventId messageId)
    (h₁ : (call k₁).Carries userId eventId messageId) (s : ConsumerState)
    {key : String} (hkey : idempotencyKey co some (call k₁) messageId = some key)
    (hfree : s.redis key = none)
    (us vs : List (Turn κ Moment ConsumerEnv))
    (hq : (run (consumer co objectId call).step (consumerStart s) us).calls k₀ = .created q)
    (hfresh : (run (consumer co objectId call).step (consumerStart s) us).calls k₁ = .started)
    (hopen : Along (consumer co objectId call).step (StillOpen objectId call k₁)
      (run (consumer co objectId call).step (consumerStart s) us) vs)
    (hended : ((run (consumer co objectId call).step (consumerStart s) (us ++ vs)).calls
      k₁).ended = true) :
    ∃ f, (run (consumer co objectId call).step (consumerStart s) (us ++ vs)).calls k₁ =
      .raised f ∧ f.isBadRequest = true := by
  have hinv := replayInvariant_of_created h₀ h₁ s us hq hfresh
  have hmid := redis_shrinks co objectId call (consumerStart s) us hfree
  rw [run_append] at hended ⊢
  have hstep : ∀ (w : World κ ConsumerState RewardPhase) t,
      (ReplayInvariant objectId call messageId q k₁ w ∧
        w.shared.redis key = none ∧ (w.calls k₁).Uncached messageId) →
      StillOpen objectId call k₁ w t →
      ReplayInvariant objectId call messageId q k₁ ((consumer co objectId call).step w t) ∧
        ((consumer co objectId call).step w t).shared.redis key = none ∧
        (((consumer co objectId call).step w t).calls k₁).Uncached messageId := by
    intro w t ⟨hw, hnone, hl⟩ ho
    refine ⟨(replay_step co h₁.2.2 hw t ho).1, redis_shrinks co objectId call w [t] hnone, ?_⟩
    cases t with
    | env e => exact hl
    | call k' m =>
      by_cases hk : k' = k₁
      · subst hk
        rw [step_call_self]
        exact uncached_turn h₁.2.2 hw.stored (ho rfl) hkey hnone hl
      · rw [step_call_other _ _ (Ne.symm hk)]
        exact hl
  have hlast := (always_of_step hstep ⟨hinv, hmid, by rw [hfresh]; trivial⟩ hopen).last
  exact hlast.2.2.refused hended

end Redelivery

section Sample

def sampleDeliveries (_again : Bool) : RewardCall :=
  ⟨"alice", "e1", some (literal [("messageId", some (.str "m1"))])⟩

def cachedState : ConsumerState :=
  { sampleState with
    redis := fun key =>
      if key = "reward-req:idempotency:alice:e1:m1" then some ⟨"r1", none⟩ else none }

def storedRequest : RewardRequest :=
  { id := "r1", userId := "alice", eventId := "e1", status := .FAILED
    reason := some conditionReason, metadata := literal [("messageId", some (.str "m1"))]
    processedAt := 5, processedBy := "system", createdAt := 5, updatedAt := 5 }

theorem sampleDeliveries_open {w : World Bool ConsumerState RewardPhase}
    (hw : w.shared.events "e1" = some sampleEvent) (order : List Bool) :
    Along (consumer Coercions.plain (.ofText some) sampleDeliveries).step
      (StillOpen some sampleDeliveries true) w (sampleTurns order) := by
  have hleaves : ∀ t ∈ sampleTurns order, LeavesOpen "e1" sampleEvent t := by
    intro t ht
    obtain ⟨k, -, rfl⟩ := List.mem_map.mp ht
    exact ⟨rfl, rfl, by decide, by decide⟩
  have hopen := along_readsOpen Coercions.plain some sampleDeliveries "alice" hleaves hw
  refine hopen.mono fun w t ht => ?_
  cases t with
  | env e => trivial
  | call k m =>
    rintro rfl hl
    obtain ⟨e, he, ho⟩ := ht ⟨rfl, rfl⟩ hl
    exact ⟨"e1", e, rfl, he, ho⟩

theorem redelivery_replays_sample :
    (run (consumer Coercions.plain (.ofText some) sampleDeliveries).step (consumerStart cachedState)
        (sampleTurns [false, false, false, false, false] ++
          sampleTurns [true, true, true])).calls true = .returned storedRequest ∧
      Along (consumer Coercions.plain (.ofText some) sampleDeliveries).step
        (StoresNothing Coercions.plain some sampleDeliveries true)
        (run (consumer Coercions.plain (.ofText some) sampleDeliveries).step
          (consumerStart cachedState)
          (sampleTurns [false, false, false, false, false])) (sampleTurns [true, true, true]) := by
  have hcarries : ∀ again, (sampleDeliveries again).Carries "alice" "e1" (some (.str "m1")) :=
    fun _ => ⟨rfl, rfl, rfl⟩
  refine (redelivery_replays_iff (hcarries false) (hcarries true) cachedState _ _ rfl rfl
    (sampleDeliveries_open rfl _) rfl).mpr ⟨?_, ?_, ?_, trivial⟩
  · exact fun _ _ _ h => by cases h
  · exact fun _ _ _ _ => ⟨_, "r1", rfl, rfl, by decide⟩
  · exact fun _ _ _ h => by cases h

/-- With an empty Redis it is refused, although it is handled at the very same moment. -/
theorem redelivery_is_refused :
    (run (consumer Coercions.plain (.ofText some) sampleDeliveries).step (consumerStart sampleState)
      (sampleTurns [false, false, false, false])).calls false = .created storedRequest ∧
    Along (consumer Coercions.plain (.ofText some) sampleDeliveries).step
      (StillOpen some sampleDeliveries true)
      (run (consumer Coercions.plain (.ofText some) sampleDeliveries).step
        (consumerStart sampleState)
        (sampleTurns [false, false, false, false])) (sampleTurns [true, true, true]) ∧
    (run (consumer Coercions.plain (.ofText some) sampleDeliveries).step (consumerStart sampleState)
      (sampleTurns [false, false, false, false] ++ sampleTurns [true, true, true])).calls true =
        .raised (.http .badRequest duplicateMessage) :=
  ⟨rfl, sampleDeliveries_open rfl _, rfl⟩

end Sample
end MsaTuto
