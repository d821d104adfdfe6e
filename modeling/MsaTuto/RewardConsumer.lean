import Mathlib.Data.List.Pairwise
import MsaTuto.KeyStore
import MsaTuto.MessageQueue
import MsaTuto.RewardRequest
import MsaTuto.Runs

/-! `RewardRequestService.createEventRewardRequest` as a pool of calls: the event
lookup, the Redis read, the existence lookups and the save are separate turns. -/
namespace MsaTuto
open Js Runs

def DistinctPairs (a b : RewardRequest) : Prop := ¬(a.userId = b.userId ∧ a.eventId = b.eventId)

instance : Std.Symm DistinctPairs :=
  ⟨fun _ _ h h' => h ⟨h'.1.symm, h'.2.symm⟩⟩

structure RequestCollection where
  items : List RewardRequest
  unique : items.Pairwise DistinctPairs

/-- `timestamps: true`, for a new document. -/
def RewardRequest.stamped (doc : RewardRequest) (now : Int) : RewardRequest :=
  { doc with createdAt := now, updatedAt := now }

@[simp] theorem RewardRequest.stamped_userId (doc : RewardRequest) (now : Int) :
    (doc.stamped now).userId = doc.userId := rfl

@[simp] theorem RewardRequest.stamped_eventId (doc : RewardRequest) (now : Int) :
    (doc.stamped now).eventId = doc.eventId := rfl

namespace RequestCollection

def empty : RequestCollection := ⟨[], List.Pairwise.nil⟩

def findOne (c : RequestCollection) (userId eventId : String) : Option RewardRequest :=
  c.items.find? fun r => decide (r.userId = userId ∧ r.eventId = eventId)

theorem findOne_eq_none {c : RequestCollection} {userId eventId : String} :
    c.findOne userId eventId = none ↔
      ∀ r ∈ c.items, ¬(r.userId = userId ∧ r.eventId = eventId) := by
  simp [findOne]

theorem pair_of_findOne {c : RequestCollection} {userId eventId : String} {r : RewardRequest}
    (h : c.findOne userId eventId = some r) : r.userId = userId ∧ r.eventId = eventId := by
  simpa using List.find?_some h

theorem findOne_of_mem {c : RequestCollection} {r : RewardRequest} (hr : r ∈ c.items) :
    c.findOne r.userId r.eventId = some r := by
  cases h : c.findOne r.userId r.eventId with
  | none => exact absurd ⟨rfl, rfl⟩ (findOne_eq_none.mp h r hr)
  | some r' =>
    by_cases heq : r' = r
    · rw [heq]
    · have hne : DistinctPairs r' r := c.unique.forall (List.mem_of_find?_eq_some h) hr heq
      exact absurd (pair_of_findOne h) hne

def insert (c : RequestCollection) (doc : RewardRequest)
    (h : c.findOne doc.userId doc.eventId = none) : RequestCollection where
  items := c.items ++ [doc]
  unique := by
    refine List.pairwise_append.mpr ⟨c.unique, List.pairwise_singleton _ _, ?_⟩
    intro a ha b hb
    rw [List.mem_singleton.mp hb]
    exact findOne_eq_none.mp h a ha

def duplicateKeyError : Failure := .native "MongoServerError"

/-- `save` of a new document: refused for a missing `userId`, or by the unique index. -/
def save (c : RequestCollection) (doc : RewardRequest) : Except Failure RequestCollection :=
  if doc.userId = "" then .error (.native "ValidationError")
  else match h : c.findOne doc.userId doc.eventId with
    | none => .ok (c.insert doc h)
    | some _ => .error duplicateKeyError

theorem save_cases (c : RequestCollection) (doc : RewardRequest) :
    (doc.userId ≠ "" ∧ ∃ h : c.findOne doc.userId doc.eventId = none,
      c.save doc = .ok (c.insert doc h)) ∨
    ((doc.userId = "" ∨ c.findOne doc.userId doc.eventId ≠ none) ∧
      ∃ name, c.save doc = .error (.native name)) := by
  unfold save
  by_cases hu : doc.userId = ""
  · exact .inr ⟨.inl hu, "ValidationError", by simp only [hu, if_true]⟩
  · simp only [hu, if_false]
    split
    next h => exact .inl ⟨hu, h, rfl⟩
    next r h => exact .inr ⟨.inr (by rw [h]; simp), _, rfl⟩

theorem save_eq (c : RequestCollection) (doc : RewardRequest) (hu : doc.userId ≠ "")
    (h : c.findOne doc.userId doc.eventId = none) : c.save doc = .ok (c.insert doc h) := by
  obtain ⟨_, _, hs⟩ | ⟨hu' | hsome, -⟩ := c.save_cases doc
  · exact hs
  · exact absurd hu' hu
  · exact absurd h hsome

theorem findOne_insert {c : RequestCollection} {doc : RewardRequest}
    (h : c.findOne doc.userId doc.eventId = none) (userId eventId : String) :
    (c.insert doc h).findOne userId eventId =
      if doc.userId = userId ∧ doc.eventId = eventId then some doc
      else c.findOne userId eventId := by
  have happ : (c.insert doc h).findOne userId eventId =
      (c.findOne userId eventId).or ([doc].find? fun r =>
        decide (r.userId = userId ∧ r.eventId = eventId)) := List.find?_append
  rw [happ]
  by_cases hp : doc.userId = userId ∧ doc.eventId = eventId
  · obtain ⟨rfl, rfl⟩ := hp
    simp [h]
  · simp [hp]

theorem findOne_grows {c : RequestCollection} {doc r : RewardRequest}
    (h : c.findOne doc.userId doc.eventId = none) {userId eventId : String}
    (hr : c.findOne userId eventId = some r) :
    (c.insert doc h).findOne userId eventId = some r := by
  have hne : ¬(doc.userId = userId ∧ doc.eventId = eventId) := by
    rintro ⟨rfl, rfl⟩
    rw [h] at hr
    cases hr
  rw [findOne_insert, if_neg hne, hr]

end RequestCollection

/-- The arguments of a call. The DTO declares `eventId` as a string, but a message may carry
anything there. -/
structure RewardCall (ε : Type := String) where
  userId : String
  eventId : ε
  metadata : Value

/-- The id again, if an event is stored under it and not deleted. -/
def EventCollection.live (events : EventCollection) (id : String) : Option String :=
  (events id).bind fun e => if e.deletedAt = none then some id else none

theorem EventCollection.live_eq_some {events : EventCollection} {id found : String} :
    events.live id = some found ↔ found = id ∧ ∃ e, events id = some e ∧ e.deletedAt = none := by
  unfold EventCollection.live
  cases events id with
  | none => simp
  | some e =>
    by_cases hdeleted : e.deletedAt = none
    · simp [hdeleted, eq_comm]
    · simp [hdeleted]

/-- What is made of an `eventId`, by Mongoose for the lookup of the event, by bson for the request,
and by the language for the key. Where it is no text, the three may differ. -/
structure EventIds (ε : Type) where
  /-- In a template; `none` is a TypeError. -/
  text : ε → Option String
  /-- `new Types.ObjectId(v)`; `none` when it throws. -/
  objectId : ε → Option String
  /-- The `_id` of what `findOne({ _id: v, deletedAt: null })` finds; the outer `none` is a
  CastError. -/
  select : EventCollection → ε → Option (Option String)
  select_live : ∀ events v id, select events v = some (some id) → events.live id = some id

namespace EventIds
variable {ε : Type}

/-- For a text, Mongoose's cast is bson's. -/
def ofText (objectId : String → Option String) : EventIds String where
  text := some
  objectId := objectId
  select events t := (objectId t).map events.live
  select_live events t id h := by
    obtain ⟨cast, -, hlive⟩ := Option.map_eq_some_iff.mp h
    obtain ⟨rfl, -⟩ := EventCollection.live_eq_some.mp hlive
    exact hlive

@[simp] theorem ofText_objectId (objectId : String → Option String) :
    (ofText objectId).objectId = objectId := rfl

@[simp] theorem ofText_text (objectId : String → Option String) :
    (ofText objectId).text = some := rfl

instance : Coe (String → Option String) (EventIds String) := ⟨ofText⟩

/-- All take the value for the id. -/
structure Names (ids : EventIds ε) (v : ε) (id : String) : Prop where
  printed : (ids.text v).isSome = true
  cast : ids.objectId v = some id
  selected : ∀ events, ids.select events v = some (events.live id)

theorem select_ofText {objectId : String → Option String} {events : EventCollection}
    {t id : String} : (ofText objectId).select events t = some (some id) ↔
      objectId t = some id ∧ events.live id = some id := by
  constructor
  · intro h
    obtain ⟨cast, hcast, hlive⟩ := Option.map_eq_some_iff.mp h
    obtain ⟨rfl, -⟩ := EventCollection.live_eq_some.mp hlive
    exact ⟨hcast, hlive⟩
  · rintro ⟨hcast, hlive⟩
    exact Option.map_eq_some_iff.mpr ⟨id, hcast, hlive⟩

theorem names_ofText {objectId : String → Option String} {t id : String}
    (h : objectId t = some id) : (ofText objectId).Names t id :=
  ⟨rfl, h, fun events => by simp [ofText, h]⟩

/-- The id that a text is cast to. -/
def cast (ids : EventIds Value) (t : String) : Option String := ids.objectId (some (.str t))

/-- In a message an `eventId` may be any value; where it is a text, Mongoose's cast is bson's. -/
structure AgreeOnTexts (ids : EventIds Value) : Prop where
  text : ∀ t, ids.text (some (.str t)) = some t
  select : ∀ events t, ids.select events (some (.str t)) = (ids.cast t).map events.live

variable {ids : EventIds Value} {t id found : String} {events : EventCollection}

theorem AgreeOnTexts.names (h : ids.AgreeOnTexts) (hcast : ids.cast t = some id) :
    ids.Names (some (.str t)) id where
  printed := by rw [h.text, Option.isSome_some]
  cast := hcast
  selected events := by rw [h.select, hcast, Option.map_some]

/-- The event that is found for a text is the one that the text is cast to. -/
theorem AgreeOnTexts.found_eq (h : ids.AgreeOnTexts) (hcast : ids.cast t = some id)
    (hselect : ids.select events (some (.str t)) = some (some found)) : found = id := by
  rw [h.select, hcast, Option.map_some, Option.some.injEq] at hselect
  exact (EventCollection.live_eq_some.mp hselect).1

/-- Readings like those of Mongoose, which takes the `_id` of an object, and of bson, which takes
its `id`; enough to evaluate. Every text is an id. -/
def plain : EventIds Value where
  text
    | some (.str t) => some t
    | _ => none
  objectId
    | some (.str t) => some t
    | some (.obj fs) => match fs.lookup "id" with
      | some (.str t) => some t
      | _ => none
    | _ => none
  select events
    | some (.str t) => some (events.live t)
    | some (.obj fs) => match fs.lookup "_id" with
      | some (.str t) => some (events.live t)
      | _ => none
    | _ => none
  select_live events v id h := by
    have hlive : ∀ t, some (events.live t) = some (some id) → events.live id = some id :=
      fun t ht => (ofText some).select_live events t id ht
    split at h
    · exact hlive _ h
    · split at h
      · exact hlive _ h
      · cases h
    · cases h

theorem agree_plain : plain.AgreeOnTexts := ⟨fun _ => rfl, fun _ _ => rfl⟩

end EventIds

abbrev ConditionValidator := String → Option EventType → Value → Bool

/-- The strategies `ConditionValidatorFactory.getStrategy` knows, placeholders as they are:
the login strategy and the default say no, the friend invitation strategy says yes. -/
def validateCondition : ConditionValidator
  | _, some .FRIEND_INVITATION, _ => true
  | _, _, _ => false

theorem validateCondition_eq (userId : String) (type : Option EventType)
    (condition : Value) :
    validateCondition userId type condition = decide (type = some .FRIEND_INVITATION) := by
  cases type with
  | none => rfl
  | some type => cases type <;> rfl

/-- What a turn is given: the clock, the id of a document it may create, and the validators,
whose answers may change over time. -/
structure Moment where
  now : Int
  newId : String
  validator : ConditionValidator := validateCondition

structure ConsumerState where
  events : EventCollection
  requests : RequestCollection
  redis : KeyStore.Store String

/-- What goes on beside the calls: operators edit events, Redis drops expired keys. -/
inductive ConsumerEnv where
  | editEvents (events : EventCollection)
  | dropKey (key : String) (now : Int)

def ConsumerEnv.act : ConsumerEnv → ConsumerState → ConsumerState
  | .editEvents events, s => { s with events := events }
  | .dropKey key now, s => { s with redis := KeyStore.drop s.redis key now }

/-- How far a call has come; `created` and `returned` are its two ways to return. -/
inductive RewardPhase where
  | started
  | cacheCheck (event : Event) (correlationId : Value)
  | replayLookup (event : Event)
  | lookup (event : Event)
  | saving (doc : RewardRequest)
  | created (request : RewardRequest)
  | returned (request : RewardRequest)
  | raised (failure : Failure)

def RewardPhase.ended : RewardPhase → Bool
  | .created _ | .returned _ | .raised _ => true
  | _ => false

namespace RewardRequestService

def inactiveMessage : String := "비활성화된 이벤트입니다."

def periodMessage : String := "이벤트 기간이 아닙니다."

def duplicateMessage : String := "이미 해당 이벤트에 대한 보상 요청이 존재합니다."

def conditionReason : String := "이벤트 조건을 충족하지 못했습니다."

def internalError : Failure :=
  .http .internalServerError "보상 요청 처리 중 오류가 발생했습니다."

def bsonError : Failure := .native "BSONError"

def caught (f : Failure) : Failure := if f.isBadRequest then f else internalError

section Service
variable {ε : Type} (co : Coercions) (ids : EventIds ε)

/-- `none` when the template throws. -/
def idempotencyKey (text : ε → Option String) (call : RewardCall ε) (correlationId : Value) :
    Option String :=
  match text call.eventId, co.toStr correlationId with
  | some eventId, some messageId =>
    some ("reward-req:idempotency:" ++ call.userId ++ ":" ++ eventId ++ ":" ++ messageId)
  | _, _ => none

/-- The message for an event that is not found has its id in a template, too. -/
def unknownEvent (eventId : ε) : Failure :=
  match ids.text eventId with
  | some text => EventService.unknownEvent text
  | none => .native "TypeError"

/-- `eventService.findOne(eventId)`, whose filter on `_id` is cast to an ObjectId. -/
def findEvent (events : EventCollection) (eventId : ε) : Except Failure Event :=
  match ids.select events eventId with
  | some (some id) => EventService.findOne events id
  | some none => .error (unknownEvent ids eventId)
  | none => .error castError

/-- The part of `createEventRewardRequest` before its `try`. -/
def checkEvent (events : EventCollection) (call : RewardCall ε) (now : Int) :
    Except Failure (Event × Value) :=
  match readCorrelationId call.metadata with
  | .error f => .error f
  | .ok correlationId =>
    match findEvent ids events call.eventId with
    | .error f => .error f
    | .ok event =>
      if event.status ≠ some .ACTIVE then .error (.http .badRequest inactiveMessage)
      else if now < event.startDate ∨ event.endDate < now then
        .error (.http .badRequest periodMessage)
      else .ok (event, correlationId)

def findExistingRequest (requests : RequestCollection) (call : RewardCall ε) :
    Except Failure (Option RewardRequest) :=
  match ids.objectId call.eventId with
  | some eventId => .ok (requests.findOne call.userId eventId)
  | none => .error bsonError

/-- `new this.rewardRequestModel({...})`; `save` sets the two timestamps. -/
def newRequest (call : RewardCall ε) (event : Event) (m : Moment) : Except Failure RewardRequest :=
  let isConditionMet := m.validator call.userId event.type event.condition
  match ids.objectId call.eventId with
  | none => .error bsonError
  | some eventId => .ok {
      id := m.newId, userId := call.userId, eventId := eventId
      status := if isConditionMet then .APPROVED else .FAILED
      reason := if isConditionMet then none else some conditionReason
      metadata := (orElse call.metadata (some (.obj []))).getD (.obj [])
      processedAt := m.now, processedBy := "system", createdAt := m.now, updatedAt := m.now }

/-- One turn of a call. A call that has ended has nothing left to do. -/
def createEventRewardRequest (call : RewardCall ε) (m : Moment) :
    RewardPhase → ConsumerState → RewardPhase × ConsumerState
  | .started, s =>
    match checkEvent ids s.events call m.now with
    | .ok (event, correlationId) => (.cacheCheck event correlationId, s)
    | .error f => (.raised f, s)
  | .cacheCheck event correlationId, s =>
    match idempotencyKey co ids.text call correlationId with
    | some key =>
      if truthy ((KeyStore.get s.redis key).map .str) then (.replayLookup event, s)
      else (.lookup event, s)
    | none => (.raised (caught typeError), s)
  | .replayLookup event, s =>
    match findExistingRequest ids s.requests call with
    | .ok (some request) => (.returned request, s)
    | .ok none => (.lookup event, s)
    | .error f => (.raised (caught f), s)
  | .lookup event, s =>
    match findExistingRequest ids s.requests call with
    | .ok (some _) => (.raised (caught (.http .badRequest duplicateMessage)), s)
    | .ok none =>
      match newRequest ids call event m with
      | .ok doc => (.saving doc, s)
      | .error f => (.raised (caught f), s)
    | .error f => (.raised (caught f), s)
  | .saving doc, s =>
    match s.requests.save (doc.stamped m.now) with
    | .ok requests => (.created (doc.stamped m.now), { s with requests := requests })
    | .error f => (.raised (caught f), s)
  | l, s => (l, s)

def stored (requests : RequestCollection) (call : RewardCall ε) : Option RewardRequest :=
  (ids.objectId call.eventId).bind (requests.findOne call.userId)

/-- What the phase of a call says about the collection. -/
def Fits (call : RewardCall ε) (l : RewardPhase) (s : ConsumerState) : Prop :=
  match l with
  | .cacheCheck _ correlationId => readCorrelationId call.metadata = .ok correlationId
  | .saving doc => doc.userId = call.userId ∧ ids.objectId call.eventId = some doc.eventId
  | .created r | .returned r => stored ids s.requests call = some r
  | _ => True

variable {co ids} {call : RewardCall ε} {m : Moment} {l : RewardPhase} {s : ConsumerState}

theorem findExistingRequest_eq (requests : RequestCollection) :
    findExistingRequest ids requests call =
      if (ids.objectId call.eventId).isSome then .ok (stored ids requests call)
      else .error bsonError := by
  unfold findExistingRequest stored
  cases ids.objectId call.eventId <;> rfl

/-- Everything that one turn can do, from one phase and state to the next. -/
inductive Step (co : Coercions) (ids : EventIds ε) (call : RewardCall ε) (m : Moment)
    (s : ConsumerState) : RewardPhase → RewardPhase → ConsumerState → Prop
  | stays {l : RewardPhase} (hl : l.ended = true) : Step co ids call m s l l s
  | refuses {f : Failure} (h : checkEvent ids s.events call m.now = .error f) :
    Step co ids call m s .started (.raised f) s
  | reads (event : Event) (correlationId : Value)
      (h : checkEvent ids s.events call m.now = .ok (event, correlationId)) :
    Step co ids call m s .started (.cacheCheck event correlationId) s
  | hits (event : Event) (correlationId : Value) :
    Step co ids call m s (.cacheCheck event correlationId) (.replayLookup event) s
  | misses (event : Event) (correlationId : Value) :
    Step co ids call m s (.cacheCheck event correlationId) (.lookup event) s
  | unprintable (event : Event) (correlationId : Value)
      (hkey : idempotencyKey co ids.text call correlationId = none) :
    Step co ids call m s (.cacheCheck event correlationId) (.raised internalError) s
  | uncast {l : RewardPhase} (event : Event) (hl : l = .replayLookup event ∨ l = .lookup event)
      (hid : ids.objectId call.eventId = none) :
    Step co ids call m s l (.raised internalError) s
  | replays (event : Event) {r : RewardRequest} (h : stored ids s.requests call = some r) :
    Step co ids call m s (.replayLookup event) (.returned r) s
  | proceeds (event : Event) (h : stored ids s.requests call = none) :
    Step co ids call m s (.replayLookup event) (.lookup event) s
  | duplicates (event : Event) {r : RewardRequest}
      (h : stored ids s.requests call = some r) :
    Step co ids call m s (.lookup event) (.raised (.http .badRequest duplicateMessage)) s
  | decides (event : Event) (doc : RewardRequest) (h : stored ids s.requests call = none)
      (hdoc : newRequest ids call event m = .ok doc) :
    Step co ids call m s (.lookup event) (.saving doc) s
  | saves (doc : RewardRequest) (hu : doc.userId ≠ "")
      (h : s.requests.findOne (doc.stamped m.now).userId (doc.stamped m.now).eventId = none) :
    Step co ids call m s (.saving doc) (.created (doc.stamped m.now))
      { s with requests := s.requests.insert (doc.stamped m.now) h }
  | unsaved (doc : RewardRequest)
      (hwhy : doc.userId = "" ∨ s.requests.findOne doc.userId doc.eventId ≠ none) :
    Step co ids call m s (.saving doc) (.raised internalError) s

theorem turn_step (co : Coercions) (ids : EventIds ε) (call : RewardCall ε)
    (m : Moment) (l : RewardPhase) (s : ConsumerState) :
    Step co ids call m s l (createEventRewardRequest co ids call m l s).1
      (createEventRewardRequest co ids call m l s).2 := by
  cases l with
  | started =>
    simp only [createEventRewardRequest]
    split
    next event correlationId h => exact .reads event correlationId h
    next f h => exact .refuses h
  | cacheCheck event correlationId =>
    simp only [createEventRewardRequest]
    split
    · split
      · exact .hits event correlationId
      · exact .misses event correlationId
    next hkey => exact .unprintable event correlationId hkey
  | replayLookup event =>
    simp only [createEventRewardRequest, findExistingRequest_eq]
    cases hid : ids.objectId call.eventId with
    | none => exact .uncast event (.inl rfl) hid
    | some eventId =>
      cases h : stored ids s.requests call with
      | some r => exact .replays event h
      | none => exact .proceeds event h
  | lookup event =>
    simp only [createEventRewardRequest, findExistingRequest_eq]
    cases hid : ids.objectId call.eventId with
    | none => exact .uncast event (.inr rfl) hid
    | some eventId =>
      cases h : stored ids s.requests call with
      | some r => exact .duplicates event h
      | none =>
        simp only [Option.isSome_some, if_true]
        cases hdoc : newRequest ids call event m with
        | ok doc => exact .decides event doc h hdoc
        | error f => simp [newRequest, hid] at hdoc
  | saving doc =>
    simp only [createEventRewardRequest]
    obtain ⟨hu, h, hs⟩ | ⟨hwhy, name, hs⟩ := s.requests.save_cases (doc.stamped m.now)
    · rw [hs]
      exact .saves doc hu h
    · rw [hs]
      exact .unsaved doc hwhy
  | created r => exact .stays rfl
  | returned r => exact .stays rfl
  | raised f => exact .stays rfl

/-- A turn leaves the shared state alone and creates nothing, or it is a save that goes
through. -/
theorem turn_cases (co : Coercions) (ids : EventIds ε) (call : RewardCall ε)
    (m : Moment) (l : RewardPhase) (s : ConsumerState) :
    ((createEventRewardRequest co ids call m l s).2 = s ∧
      ∀ r, (createEventRewardRequest co ids call m l s).1 = .created r → l = .created r) ∨
    ∃ doc, ∃ h : s.requests.findOne (doc.stamped m.now).userId (doc.stamped m.now).eventId = none,
      l = .saving doc ∧ doc.userId ≠ "" ∧
      createEventRewardRequest co ids call m l s =
        (.created (doc.stamped m.now),
          { s with requests := s.requests.insert (doc.stamped m.now) h }) := by
  have hstep := turn_step co ids call m l s
  generalize createEventRewardRequest co ids call m l s = out at hstep ⊢
  obtain ⟨l', s'⟩ := out
  cases hstep with
  | saves doc hu h => exact .inr ⟨doc, h, rfl, hu, rfl⟩
  | stays hl => exact .inl ⟨rfl, fun r hr => hr⟩
  | _ => exact .inl ⟨rfl, fun r hr => by cases hr⟩

theorem read_of_checkEvent {events : EventCollection} {now : Int} {event : Event}
    {correlationId : Value} (h : checkEvent ids events call now = .ok (event, correlationId)) :
    readCorrelationId call.metadata = .ok correlationId := by
  unfold checkEvent at h
  split at h
  · cases h
  next read hread =>
    split at h
    · cases h
    · split at h
      · cases h
      · split at h
        · cases h
        · cases h
          exact hread

theorem findEvent_eq_ok {events : EventCollection} {v : ε} {e : Event}
    (h : findEvent ids events v = .ok e) :
    ∃ id, ids.select events v = some (some id) ∧ events id = some e ∧ e.deletedAt = none := by
  unfold findEvent at h
  split at h
  next id hselect => exact ⟨id, hselect, EventService.findOne_eq_ok h⟩
  · cases h
  · cases h

theorem newRequest_pair {event : Event} {doc : RewardRequest}
    (h : newRequest ids call event m = .ok doc) :
    doc.userId = call.userId ∧ ids.objectId call.eventId = some doc.eventId := by
  unfold newRequest at h
  split at h
  · cases h
  next eventId he =>
    cases h
    exact ⟨rfl, he⟩

theorem newRequest_status {event : Event} {doc : RewardRequest}
    (h : newRequest ids call event m = .ok doc) :
    doc.status =
      if m.validator call.userId event.type event.condition then .APPROVED else .FAILED := by
  unfold newRequest at h
  split at h
  · cases h
  · cases h
    rfl

theorem newRequest_approved {event : Event} {doc : RewardRequest}
    (h : newRequest ids call event m = .ok doc) :
    doc.status = .APPROVED ↔ m.validator call.userId event.type event.condition = true := by
  rw [newRequest_status h]
  cases m.validator call.userId event.type event.condition with
  | true => simp
  | false => simp

theorem Step.fits {l' : RewardPhase} {s' : ConsumerState}
    (hstep : Step co ids call m s l l' s') (h : Fits ids call l s) :
    Fits ids call l' s' := by
  cases hstep with
  | stays hl => exact h
  | reads event correlationId hcheck => exact read_of_checkEvent hcheck
  | replays event hr => exact hr
  | decides event doc hnone hdoc => exact newRequest_pair hdoc
  | saves doc hu hnone =>
    obtain ⟨hdu, hde⟩ := h
    change (ids.objectId call.eventId).bind _ = _
    simp [hde, RequestCollection.findOne_insert, hdu]
  | _ => trivial

theorem fits_turn (h : Fits ids call l s) :
    Fits ids call (createEventRewardRequest co ids call m l s).1
      (createEventRewardRequest co ids call m l s).2 :=
  (turn_step co ids call m l s).fits h

theorem stored_turn {call' : RewardCall ε} {r : RewardRequest}
    (h : stored ids s.requests call' = some r) :
    stored ids (createEventRewardRequest co ids call m l s).2.requests call' =
      some r := by
  obtain ⟨hs, -⟩ | ⟨doc, hnone, -, -, hs⟩ := turn_cases co ids call m l s
  · rwa [hs]
  · rw [hs]
    obtain ⟨eventId, he, hr⟩ := Option.bind_eq_some_iff.mp h
    exact Option.bind_eq_some_iff.mpr ⟨eventId, he, RequestCollection.findOne_grows hnone hr⟩

theorem Fits.of_stored {l : RewardPhase} {s' : ConsumerState} (h : Fits ids call l s)
    (hs : ∀ r, stored ids s.requests call = some r →
      stored ids s'.requests call = some r) : Fits ids call l s' := by
  cases l with
  | created r => exact hs r h
  | returned r => exact hs r h
  | _ => exact h

end Service
end RewardRequestService

section Pools
variable {κ : Type*} (co : Coercions) (ids : EventIds ε) (call : κ → RewardCall ε)

def consumer : Pool κ Moment ConsumerEnv ConsumerState RewardPhase where
  act k m l s := RewardRequestService.createEventRewardRequest co ids (call k) m l s
  env e s := e.act s

def consumerStart (s : ConsumerState) : World κ ConsumerState RewardPhase :=
  ⟨s, fun _ => .started⟩

theorem env_requests (e : ConsumerEnv) (s : ConsumerState) :
    ((consumer co ids call).env e s).requests = s.requests := by
  cases e <;> rfl

theorem consumer_fits : Stable (consumer co ids call) (fun _ _ => True) (fun _ => True)
    (fun k => RewardRequestService.Fits ids (call k)) where
  own _ _ _ _ _ h := ⟨trivial, RewardRequestService.fits_turn h⟩
  other _ _ _ _ _ _ _ _ h := h.of_stored fun _ => RewardRequestService.stored_turn
  env w e _ _ := ⟨trivial, fun _ h => h.of_stored fun _ hr => by rwa [env_requests]⟩

theorem fits_reached [DecidableEq κ] (s : ConsumerState)
    (turns : List (Turn κ Moment ConsumerEnv)) (k : κ) :
    RewardRequestService.Fits ids (call k)
      ((run (consumer co ids call).step (consumerStart s) turns).calls k)
      (run (consumer co ids call).step (consumerStart s) turns).shared :=
  ((consumer_fits co ids call).always (w := consumerStart s) ⟨trivial, fun _ => trivial⟩
    (along_of_forall (fun _ _ => trivial) _ turns)).last.2 k

end Pools
end MsaTuto
