import MsaTuto.Eligibility
import MsaTuto.EventUpdate
import MsaTuto.PageCoverage

/-! `event-request-http.controller.ts`: what a player is told of the requests that can be made.
The routes take the caller from `@User('id')`. -/
namespace MsaTuto
open Js RewardRequestService

namespace EventService

/-- The filter of `findActiveEvents`. -/
def activeFilter (e : EventDocument) : Bool :=
  decide (e.event.status = some .ACTIVE) && e.event.deletedAt.isNone

/-- The two arguments are the fields of a validated `PaginationDto`. -/
def findActiveEvents (d : EventDriver) (events : List EventDocument) (dto : PaginationDto) :
    Except Failure PaginatedResponseDto :=
  match d.window (skip dto) dto.limit with
  | some window =>
    .ok (.new (window (d.sort (events.filter activeFilter))) (events.filter activeFilter).length
      dto.page dto.limit)
  | none => .error castError

/-- The query of the list that asks for the same. -/
def activeQuery (dto : PaginationDto) : EventFilterDto := { dto with status := some .ACTIVE }

theorem selects_activeQuery (date : String → JsDate) (dto : PaginationDto) :
    (activeQuery dto).selects date = activeFilter := by
  funext e
  simp [EventFilterDto.selects, activeQuery, givenDate, given, activeFilter, Bool.and_comm]

theorem findActiveEvents_eq (d : EventDriver) (events : List EventDocument) (dto : PaginationDto) :
    findActiveEvents d events dto = findAll d events (activeQuery dto) := by
  have hfilter : filter d.date (activeQuery dto) = some activeFilter := by
    rw [filter_valid rfl, selects_activeQuery]
  have hwindow : d.window (skip (activeQuery dto).toPaginationDto) (activeQuery dto).limit =
      d.window (skip dto) dto.limit := rfl
  simp only [findAll, findActiveEvents, hfilter, hwindow]
  cases d.window (skip dto) dto.limit <;> rfl

end EventService

namespace RequestEligibilityService

/-- A filter with an undefined `userId` goes out with null, which every stored request fails. -/
def findExisting (objectId : String → Option String) (requests : RequestCollection)
    (userId : Option String) (eventId : String) : Except Failure (Option RewardRequest) :=
  match objectId eventId with
  | some id => .ok (requests.items.find? fun r => decide (some r.userId = userId ∧ r.eventId = id))
  | none => .error bsonError

/-- `checkEligibility` for a caller who may be undefined, which the strategies do not look at. -/
def checkCaller (objectId : String → Option String) (requests : RequestCollection) (now : Int)
    (userId : Option String) (id : String) (event : Event) : Eligibility :=
  if event.status ≠ some .ACTIVE then ⟨false, some inactiveMessage⟩
  else if now < event.startDate ∨ event.endDate < now then ⟨false, some periodMessage⟩
  else match findExisting objectId requests userId id with
    | .ok (some _) => ⟨false, some participatedMessage⟩
    | _ =>
      if validateCondition (userId.getD "") event.type event.condition then ⟨true, none⟩
      else ⟨false, some conditionReason⟩

theorem checkCaller_some (objectId : String → Option String) (requests : RequestCollection)
    (now : Int) (userId id : String) (event : Event) :
    checkCaller objectId requests now (some userId) id event =
      checkEligibility objectId requests { now := now, newId := "" } userId id event := by
  have hlookup : findExisting objectId requests (some userId) id =
      findExistingRequest objectId requests ⟨userId, id, none⟩ := by
    simp only [findExisting, findExistingRequest, EventIds.ofText_objectId]
    cases objectId id with
    | none => rfl
    | some eventId => simp [RequestCollection.findOne]
  unfold checkCaller checkEligibility
  rw [hlookup]
  split
  · rfl
  · split
    · rfl
    · cases findExistingRequest objectId requests ⟨userId, id, none⟩ with
      | error f => rfl
      | ok request => cases request <;> rfl

theorem checkCaller_undefined (objectId : String → Option String) (requests : RequestCollection)
    (now : Int) (id : String) (event : Event) :
    checkCaller objectId requests now none id event =
      answer (.of event now false (decide (event.type = some .FRIEND_INVITATION))) := by
  have hlookup : ∀ r, findExisting objectId requests none id ≠ .ok (some r) := by
    intro r h
    unfold findExisting at h
    cases hid : objectId id with
    | none => simp [hid] at h
    | some eventId => simp [hid, List.find?_eq_some_iff_append] at h
  simp only [checkCaller, validateCondition_eq]
  by_cases hstatus : event.status = some .ACTIVE
  · rw [if_neg (not_not_intro hstatus)]
    by_cases hperiod : now < event.startDate ∨ event.endDate < now
    · rw [if_pos hperiod, Decision.of_outOfPeriod hstatus hperiod]
      rfl
    · rw [if_neg hperiod, Decision.of_inPeriod hstatus hperiod]
      cases hfind : findExisting objectId requests none id with
      | error f => cases decide (event.type = some .FRIEND_INVITATION) <;> rfl
      | ok request =>
        cases request with
        | some r => exact absurd hfind (hlookup r)
        | none => cases decide (event.type = some .FRIEND_INVITATION) <;> rfl
  · rw [if_pos hstatus, Decision.of_inactive hstatus]
    rfl

end RequestEligibilityService

structure EventEligibilityDto where
  event : EventDocument
  eligible : Bool
  reason : Option String

/-- The answer of `available-events`. -/
structure AvailableEvents where
  events : List EventEligibilityDto
  total : Nat
  page : Int
  limit : Int
  pages : Int

def AvailableEvents.asPage (p : AvailableEvents) : Paging.Page EventDocument :=
  ⟨p.events.map (·.event), p.total, p.limit, some p.pages⟩

namespace EventRequestHttpController
open RequestEligibilityService

def callerId (payload : Json) : Option String :=
  EventController.textOf (userDecorator "id" (some (gameJwtValidate payload)))

/-- The `id` of the event that is found is its `_id` written out. -/
def checkEligibility (objectId : String → Option String) (events : EventCollection)
    (requests : RequestCollection) (now : Int) (payload : Json) (eventId : String) :
    Except Failure Eligibility :=
  match findEvent objectId events eventId with
  | .ok event =>
    .ok (checkCaller objectId requests now (callerId payload)
      ((objectId eventId).getD eventId) event)
  | .error f => .error f

/-- Every check reads the clock for itself. -/
def getAvailableEvents (d : EventDriver) (objectId : String → Option String)
    (events : List EventDocument) (requests : RequestCollection) (clock : EventDocument → Int)
    (payload : Json) (dto : PaginationDto) : Except Failure AvailableEvents :=
  match EventService.findActiveEvents d events dto with
  | .ok active =>
    let eligibilityResults := active.items.map fun event =>
      let eligibility := checkCaller objectId requests (clock event) (callerId payload) event.id
        event.event
      EventEligibilityDto.mk event eligibility.eligible eligibility.reason
    .ok ⟨eligibilityResults, active.total, active.page, active.limit, active.pages⟩
  | .error f => .error f

theorem callerId_eq_none (payload : Json) : callerId payload = none := by
  rw [callerId, user_field_id]
  rfl

end EventRequestHttpController

section Preview
open RequestEligibilityService
variable {co : Coercions} {objectId : String → Option String} {s : ConsumerState}
  {call : RewardCall} {eventId : String} {e : Event} {now : Int}

/-- Two decisions, one previewed and one carried out. -/
theorem Carries.agrees_iff {d d' : Decision} {out : RewardPhase × ConsumerState}
    (h : Carries call s eventId d out) : Agrees call s eventId (answer d') out ↔ d = d' := by
  have hanswer : ∀ x, answer d' = answer x ↔ d' = x := fun x => answer_injective.eq_iff
  constructor
  · intro ⟨heligible, hnotMet, hinactive, houtOfPeriod, hparticipated⟩
    cases d' with
    | inactive => exact h.iff.mp (hinactive.mp rfl)
    | outOfPeriod => exact h.iff.mp (houtOfPeriod.mp rfl)
    | participated => exact h.iff.mp (hparticipated.mp rfl)
    | notMet => exact h.iff.mp (hnotMet.mp rfl)
    | met => exact h.iff.mp (heligible.mp rfl)
  · rintro rfl
    constructor
    case eligible =>
      rw [eligible_answer]
      exact h.iff.symm
    case notMet => exact (hanswer .notMet).trans h.iff.symm
    case inactive => exact (hanswer .inactive).trans h.iff.symm
    case outOfPeriod => exact (hanswer .outOfPeriod).trans h.iff.symm
    case participated => exact (hanswer .participated).trans h.iff.symm

/-- A participation matters to the decision only on an open event. -/
theorem Decision.of_participates_iff (hdeleted : e.deletedAt = none)
    (participates isConditionMet : Bool) :
    Decision.of e now participates isConditionMet = .of e now false isConditionMet ↔
      participates = false ∨ ¬OpenAt now e := by
  by_cases hstatus : e.status = some .ACTIVE
  · by_cases hperiod : now < e.startDate ∨ e.endDate < now
    · have hclosed : ¬OpenAt now e := by
        rintro ⟨-, -, hstart, hend⟩
        omega
      simp [Decision.of_outOfPeriod hstatus hperiod, hclosed]
    · have hopen : OpenAt now e := ⟨hdeleted, hstatus, by omega, by omega⟩
      rw [Decision.of_inPeriod hstatus hperiod, Decision.of_inPeriod hstatus hperiod]
      cases participates <;> cases isConditionMet <;> simp [hopen]
  · have hclosed : ¬OpenAt now e := fun h => hstatus h.2.1
    simp [Decision.of_inactive hstatus, hclosed]

/-- The route refuses what the request refuses for want of an event. Else it agrees with the
request exactly while the caller has none stored, or the event is not open: the caller's id never
gets to the lookup, and a request that was made is previewed as one that was not. -/
theorem http_preview_agrees_iff (co : Coercions) (objectId : String → Option String)
    (s : ConsumerState) (call : RewardCall) (payload : Json) (now : Int) (newId : String)
    (hmeta : WellFormed co call.metadata) (hu : call.userId ≠ "") :
    (∃ f, EventRequestHttpController.checkEligibility objectId s.events s.requests now payload
        call.eventId = .error f ∧
      createAlone co objectId call { now := now, newId := newId } s = (.raised f, s)) ∨
    ∃ preview eventId e, EventRequestHttpController.checkEligibility objectId s.events s.requests
        now payload call.eventId = .ok preview ∧
      objectId call.eventId = some eventId ∧ s.events eventId = some e ∧
      (Agrees call s eventId preview
          (createAlone co objectId call { now := now, newId := newId } s) ↔
        s.requests.findOne call.userId eventId = none ∨ ¬OpenAt now e) := by
  unfold EventRequestHttpController.checkEligibility
  rw [EventRequestHttpController.callerId_eq_none]
  cases hfind : findEvent objectId s.events call.eventId with
  | error f =>
    refine .inl ⟨f, rfl, createAlone_refused ?_⟩
    simp only [checkEvent, hmeta.read, hfind]
  | ok e =>
    obtain ⟨eventId, hselect, hevent, hdeleted⟩ := findEvent_eq_ok hfind
    have hid : objectId call.eventId = some eventId := (EventIds.select_ofText.mp hselect).1
    refine .inr ⟨_, eventId, e, rfl, hid, hevent, ?_⟩
    have hcarries := createAlone_carries (s := s) { now := now, newId := newId } hid hevent
      hdeleted hmeta hu
    simp only [validateCondition_eq] at hcarries
    rw [checkCaller_undefined, hcarries.agrees_iff, Decision.of_participates_iff hdeleted,
      Option.isSome_eq_false_iff, Option.isNone_iff_eq_none]

end Preview

section Available
open EventService EventRequestHttpController
variable {d : EventDriver} {objectId : String → Option String} {events : List EventDocument}
  {requests : RequestCollection} {clock : EventDocument → Int} {payload : Json}
  {dto : PaginationDto} {p : AvailableEvents}

/-- What one request for a page meets: an order of ties, the stored requests and the clock. -/
structure AvailableQuery where
  order : Paging.Order EventDocument.createdAt (Paging.InOrder false)
  requests : RequestCollection
  clock : EventDocument → Int

theorem one_le_page (k : Nat) : (1 : Int) ≤ k + 1 := by omega

def PaginationDto.atPage (dto : PaginationDto) (k : Nat) : PaginationDto :=
  { dto with page := k + 1, page_min := one_le_page k }

/-- The answer shows the page of active events. -/
theorem getAvailableEvents_asPage (d : EventDriver) (objectId : String → Option String)
    (events : List EventDocument) (requests : RequestCollection) (clock : EventDocument → Int)
    (payload : Json) (dto : PaginationDto) :
    (getAvailableEvents d objectId events requests clock payload dto).toOption.map
        AvailableEvents.asPage =
      (EventService.findAll d events (activeQuery dto)).toOption.map
        PaginatedResponseDto.asPage := by
  unfold getAvailableEvents
  rw [findActiveEvents_eq]
  cases EventService.findAll d events (activeQuery dto) with
  | error f => rfl
  | ok active =>
    simp [Except.toOption, AvailableEvents.asPage, PaginatedResponseDto.asPage, Function.comp_def]

/-- What an entry says is said of the event alone. -/
theorem entry_of_getAvailableEvents
    (h : getAvailableEvents d objectId events requests clock payload dto = .ok p)
    {entry : EventEligibilityDto} (hentry : entry ∈ p.events) :
    ∃ active, findActiveEvents d events dto = .ok active ∧ entry.event ∈ active.items ∧
      ⟨entry.eligible, entry.reason⟩ = RequestEligibilityService.answer
        (.of entry.event.event (clock entry.event) false
          (decide (entry.event.event.type = some .FRIEND_INVITATION))) := by
  unfold getAvailableEvents at h
  cases hactive : findActiveEvents d events dto with
  | error f => simp [hactive] at h
  | ok active =>
    simp only [hactive, Except.ok.injEq] at h
    subst h
    obtain ⟨event, hevent, rfl⟩ := List.mem_map.mp hentry
    refine ⟨active, rfl, hevent, ?_⟩
    rw [callerId_eq_none, RequestEligibilityService.checkCaller_undefined]

/-- The decision on an active event, taken as if there were no request. -/
theorem decision_without_requests {e : Event} {now : Int} {answered : Eligibility}
    (hstatus : e.status = some .ACTIVE) (hdeleted : e.deletedAt = none)
    (h : answered = RequestEligibilityService.answer
      (.of e now false (decide (e.type = some .FRIEND_INVITATION)))) :
    (answered.eligible = true ↔ OpenAt now e ∧ e.type = some .FRIEND_INVITATION) ∧
      answered.reason ≠ some RequestEligibilityService.participatedMessage := by
  subst h
  rw [eligible_answer]
  by_cases hperiod : now < e.startDate ∨ e.endDate < now
  · have hclosed : ¬OpenAt now e := by
      rintro ⟨-, -, hstart, hend⟩
      omega
    rw [Decision.of_outOfPeriod hstatus hperiod]
    simp [hclosed, RequestEligibilityService.answer, periodMessage,
      RequestEligibilityService.participatedMessage]
  · have hopen : OpenAt now e := ⟨hdeleted, hstatus, by omega, by omega⟩
    rw [Decision.of_inPeriod hstatus hperiod]
    by_cases htype : e.type = some .FRIEND_INVITATION
    · simp [hopen, htype, RequestEligibilityService.answer]
    · simp [htype, RequestEligibilityService.answer, conditionReason,
        RequestEligibilityService.participatedMessage]

theorem mem_findActiveEvents {o : Paging.Order EventDocument.createdAt (Paging.InOrder false)}
    {active : PaginatedResponseDto} (hd : d.Documented)
    (h : findActiveEvents (d.ordering o) events dto = .ok active) {e : EventDocument}
    (he : e ∈ active.items) : e ∈ events ∧ activeFilter e = true := by
  have hmin := dto.limit_min
  unfold findActiveEvents at h
  cases hw : (d.ordering o).window (skip dto) dto.limit with
  | none => simp [hw] at h
  | some window =>
    simp only [hw, Except.ok.injEq] at h
    subst h
    obtain rfl := ((hd.ordering o).window _ _ (by omega)).shows window hw
    have hmem := (o.listing _).perm.mem_iff.mp (Paging.mem_of_mem_slice he)
    exact List.mem_filter.mp hmem

/-- Page by page the caller is shown every event that is active and not deleted, once and newest
first, exactly when the creation times part at every page boundary. An entry promises the reward
exactly if its event is open when it is checked and of the type whose strategy says yes, whatever
is stored: no page ever tells of a request that was made. -/
theorem available_events_iff (hd : d.Documented) (hids : (events.map (·.id)).Nodup)
    (hsize : events.length < 2 ^ 63) (objectId : String → Option String) (payload : Json)
    (dto : PaginationDto) :
    ((∀ q : Nat → AvailableQuery,
      Paging.ReadsAll EventDocument.createdAt (Paging.InOrder false) (events.filter activeFilter)
        fun k => (getAvailableEvents (d.ordering (q k).order) objectId events (q k).requests
          (q k).clock payload (dto.atPage k)).toOption.map AvailableEvents.asPage) ↔
      Paging.Apart dto.limit.toNat (Paging.keys EventDocument.createdAt (Paging.InOrder false)
        (events.filter activeFilter))) ∧
    ∀ (q : AvailableQuery) (p : AvailableEvents), getAvailableEvents (d.ordering q.order) objectId
        events q.requests q.clock payload dto = .ok p →
      ∀ entry ∈ p.events, entry.event ∈ events ∧ entry.event.event.deletedAt = none ∧
        (entry.eligible = true ↔ OpenAt (q.clock entry.event) entry.event.event ∧
          entry.event.event.type = some .FRIEND_INVITATION) ∧
        entry.reason ≠ some RequestEligibilityService.participatedMessage := by
  constructor
  · have hmin := dto.limit_min
    have hnodup : (events.filter activeFilter).Nodup := (List.Nodup.of_map _ hids).filter _
    refine Paging.readsAll_iff (by omega) hnodup _ AvailableQuery.order ?_ ?_
    · exact fun o => ⟨⟨o, .empty, fun _ => 0⟩, rfl⟩
    · intro q k hk
      have hsmall : k * (activeQuery dto).limit.toNat < 2 ^ 63 :=
        lt_of_le_of_lt (hk.trans (List.length_filter_le _ _)) hsize
      rw [getAvailableEvents_asPage, ← selects_activeQuery d.date dto]
      exact EventService.findAll_atPage hd rfl hsmall (q k).order
  · intro q p hp entry hentry
    obtain ⟨active, hactive, hmem, hanswer⟩ := entry_of_getAvailableEvents hp hentry
    obtain ⟨hevent, hfilter⟩ := mem_findActiveEvents hd hactive hmem
    obtain ⟨hstatus, hdeleted⟩ : entry.event.event.status = some .ACTIVE ∧
        entry.event.event.deletedAt = none := by simpa [activeFilter] using hfilter
    exact ⟨hevent, hdeleted, decision_without_requests hstatus hdeleted hanswer⟩

end Available

section Sample

def alicePayload : Json := literal [("sub", some (.str "alice"))]

/-- Alice has been rewarded for the event. -/
def rewardedState : ConsumerState :=
  { sampleState with requests := ⟨[requestAt "r1" 4], List.pairwise_singleton _ _⟩ }

/-- She is previewed another answer than she would get. -/
theorem http_preview_of_rewarded :
    ∃ preview eventId, EventRequestHttpController.checkEligibility some rewardedState.events
        rewardedState.requests 5 alicePayload "e1" = .ok preview ∧
      ¬Agrees (sampleCalls false) rewardedState eventId preview
        (createAlone Coercions.plain some (sampleCalls false) { now := 5, newId := "r2" }
          rewardedState) := by
  obtain ⟨f, hf, -⟩ | ⟨preview, eventId, e, hpreview, hid, hevent, hagrees⟩ :=
    http_preview_agrees_iff Coercions.plain some rewardedState (sampleCalls false) alicePayload 5
      "r2" (sampleCalls_wellFormed _) (by decide)
  · cases hf
  · cases hid
    cases hevent
    refine ⟨preview, "e1", hpreview, fun h => ?_⟩
    obtain hnone | hclosed := hagrees.mp h
    · cases hnone
    · exact hclosed ⟨rfl, rfl, by decide, by decide⟩

theorem available_events_iff_two :
    ((∀ q : Nat → AvailableQuery,
      Paging.ReadsAll EventDocument.createdAt (Paging.InOrder false)
        ([eventAt "e1" 1, eventAt "e2" 2].filter EventService.activeFilter)
        fun k => (EventRequestHttpController.getAvailableEvents
          (EventDriver.mongo.ordering (q k).order) some [eventAt "e1" 1, eventAt "e2" 2]
          (q k).requests (q k).clock alicePayload
          (PaginationDto.atPage {} k)).toOption.map AvailableEvents.asPage) ↔
      Paging.Apart 10 (Paging.keys EventDocument.createdAt (Paging.InOrder false)
        ([eventAt "e1" 1, eventAt "e2" 2].filter EventService.activeFilter))) ∧
    ∀ (q : AvailableQuery) (p : AvailableEvents), EventRequestHttpController.getAvailableEvents
        (EventDriver.mongo.ordering q.order) some [eventAt "e1" 1, eventAt "e2" 2] q.requests
        q.clock alicePayload {} = .ok p →
      ∀ entry ∈ p.events, entry.event ∈ [eventAt "e1" 1, eventAt "e2" 2] ∧
        entry.event.event.deletedAt = none ∧
        (entry.eligible = true ↔ OpenAt (q.clock entry.event) entry.event.event ∧
          entry.event.event.type = some .FRIEND_INVITATION) ∧
        entry.reason ≠ some RequestEligibilityService.participatedMessage :=
  available_events_iff ⟨fun n m _ => Paging.cuts_cut n m⟩ (by decide) (by decide) some
    alicePayload {}

end Sample
end MsaTuto
