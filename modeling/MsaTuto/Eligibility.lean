import MsaTuto.RewardOnce

/-! `request-eligibility.service.ts` beside `createEventRewardRequest`: the preview of a
request and the request itself, made at the same time from the same state. -/
namespace MsaTuto
open Js RewardRequestService

structure Eligibility where
  eligible : Bool
  reason : Option String := none
  deriving DecidableEq, Repr

/-- The one decision that the two services take, each in its own code. -/
inductive Decision where
  | inactive | outOfPeriod | participated | notMet | met
  deriving DecidableEq, Repr

namespace Decision

def of (event : Event) (now : Int) (participates isConditionMet : Bool) : Decision :=
  if event.status ≠ some .ACTIVE then .inactive
  else if now < event.startDate ∨ event.endDate < now then .outOfPeriod
  else if participates then .participated
  else if isConditionMet then .met
  else .notMet

variable {event : Event} {now : Int}

theorem of_inactive (h : event.status ≠ some .ACTIVE) (participates isConditionMet : Bool) :
    of event now participates isConditionMet = .inactive := if_pos h

theorem of_outOfPeriod (h : event.status = some .ACTIVE)
    (hperiod : now < event.startDate ∨ event.endDate < now) (participates isConditionMet : Bool) :
    of event now participates isConditionMet = .outOfPeriod := by
  rw [of, if_neg (not_not_intro h), if_pos hperiod]

theorem of_inPeriod (h : event.status = some .ACTIVE)
    (hperiod : ¬(now < event.startDate ∨ event.endDate < now))
    (participates isConditionMet : Bool) :
    of event now participates isConditionMet =
      if participates then .participated else if isConditionMet then .met else .notMet := by
  rw [of, if_neg (not_not_intro h), if_neg hperiod]

end Decision

namespace RequestEligibilityService

def participatedMessage : String := "이미 참여한 이벤트입니다."

/-- The `id` of an event document stands beside its fields. An error of the lookup counts as
no request. -/
def checkEligibility (objectId : String → Option String) (requests : RequestCollection)
    (m : Moment) (userId id : String) (event : Event) : Eligibility :=
  if event.status ≠ some .ACTIVE then ⟨false, some inactiveMessage⟩
  else if m.now < event.startDate ∨ event.endDate < m.now then ⟨false, some periodMessage⟩
  else match findExistingRequest objectId requests ⟨userId, id, none⟩ with
    | .ok (some _) => ⟨false, some participatedMessage⟩
    | _ =>
      if m.validator userId event.type event.condition then ⟨true, none⟩
      else ⟨false, some conditionReason⟩

def answer : Decision → Eligibility
  | .inactive => ⟨false, some inactiveMessage⟩
  | .outOfPeriod => ⟨false, some periodMessage⟩
  | .participated => ⟨false, some participatedMessage⟩
  | .notMet => ⟨false, some conditionReason⟩
  | .met => ⟨true, none⟩

theorem checkEligibility_eq {objectId : String → Option String} {id : String}
    (hid : objectId id = some id) (requests : RequestCollection) (m : Moment) (userId : String)
    (event : Event) :
    checkEligibility objectId requests m userId id event =
      answer (.of event m.now (requests.findOne userId id).isSome
        (m.validator userId event.type event.condition)) := by
  simp only [checkEligibility, Decision.of, findExistingRequest, EventIds.ofText_objectId, hid]
  split
  · rfl
  · split
    · rfl
    · cases requests.findOne userId id with
      | some r => rfl
      | none =>
        cases m.validator userId event.type event.condition <;> rfl

end RequestEligibilityService

section Create
variable (co : Coercions) (objectId : String → Option String) (call : RewardCall) (m : Moment)
  (s : ConsumerState)

/-- A create call that nothing interferes with: after five turns it has ended. -/
def createAlone : RewardPhase × ConsumerState :=
  (fun ls => createEventRewardRequest co objectId call m ls.1 ls.2)^[5] (.started, s)

/-- The call has stored a new request of its user for the event. -/
def Stores (eventId : String) (status : RequestStatus) (out : RewardPhase × ConsumerState) :
    Prop :=
  ∃ r, out.1 = .created r ∧ r.userId = call.userId ∧ r.eventId = eventId ∧ r.status = status ∧
    out.2.requests.items = s.requests.items ++ [r]

def EndsUnstored (why : RewardPhase → Prop) (out : RewardPhase × ConsumerState) : Prop :=
  why out.1 ∧ out.2 = s

def saysInactive (l : RewardPhase) : Prop := l = .raised (.http .badRequest inactiveMessage)

def saysOutOfPeriod (l : RewardPhase) : Prop := l = .raised (.http .badRequest periodMessage)

/-- The user has a request for the event: it is returned, or the call refused because of it. -/
def saysRequested (eventId : String) (l : RewardPhase) : Prop :=
  (∃ r, l = .returned r ∧ r.userId = call.userId ∧ r.eventId = eventId) ∨
    l = .raised (.http .badRequest duplicateMessage)

/-- What the create call makes of the decision. -/
def Carries (eventId : String) : Decision → RewardPhase × ConsumerState → Prop
  | .inactive => EndsUnstored s saysInactive
  | .outOfPeriod => EndsUnstored s saysOutOfPeriod
  | .participated => EndsUnstored s (saysRequested call eventId)
  | .notMet => Stores call s eventId .FAILED
  | .met => Stores call s eventId .APPROVED

variable {co objectId call m s} {eventId : String} {e : Event}

theorem createAlone_refused {f : Failure}
    (h : checkEvent objectId s.events call m.now = .error f) :
    createAlone co objectId call m s = (.raised f, s) := by
  simp [createAlone, Function.iterate_succ_apply, createEventRewardRequest, h]

/-- A call that has passed the checks has a key to look for. -/
theorem key_of_checkEvent {p : Event × Value} (hmeta : WellFormed co call.metadata)
    (hid : objectId call.eventId = some eventId)
    (h : checkEvent objectId s.events call m.now = .ok p) :
    ∃ key, idempotencyKey co some call p.2 = some key := by
  obtain ⟨event, correlationId⟩ := p
  exact Option.ne_none_iff_exists'.mp
    (hmeta.key (EventIds.names_ofText hid) (read_of_checkEvent h))

theorem createAlone_requested {p : Event × Value} {r : RewardRequest}
    (hmeta : WellFormed co call.metadata)
    (h : checkEvent objectId s.events call m.now = .ok p)
    (hid : objectId call.eventId = some eventId)
    (hr : s.requests.findOne call.userId eventId = some r) :
    EndsUnstored s (saysRequested call eventId) (createAlone co objectId call m s) := by
  have hpair := RequestCollection.pair_of_findOne hr
  have hlookup : findExistingRequest objectId s.requests call = .ok (some r) := by
    simp [findExistingRequest, hid, hr]
  obtain ⟨key, hkey⟩ := key_of_checkEvent hmeta hid h
  by_cases hheld : truthy ((KeyStore.get s.redis key).map .str) = true
  · have hout : createAlone co objectId call m s = (.returned r, s) := by
      simp [createAlone, Function.iterate_succ_apply, createEventRewardRequest, h, hkey, hheld,
        hlookup]
    rw [hout]
    exact ⟨.inl ⟨r, rfl, hpair⟩, rfl⟩
  · have hout : createAlone co objectId call m s =
        (.raised (caught (.http .badRequest duplicateMessage)), s) := by
      simp [createAlone, Function.iterate_succ_apply, createEventRewardRequest, h, hkey, hheld,
        hlookup]
    rw [hout]
    exact ⟨.inr rfl, rfl⟩

theorem createAlone_decides {correlationId : Value} (hmeta : WellFormed co call.metadata)
    (h : checkEvent objectId s.events call m.now = .ok (e, correlationId))
    (hid : objectId call.eventId = some eventId) (hu : call.userId ≠ "")
    (hnone : s.requests.findOne call.userId eventId = none) :
    Stores call s eventId
      (if m.validator call.userId e.type e.condition then .APPROVED else .FAILED)
      (createAlone co objectId call m s) := by
  obtain ⟨doc, hdoc⟩ : ∃ doc, newRequest objectId call e m = .ok doc := by simp [newRequest, hid]
  obtain ⟨hdu, hde⟩ := newRequest_pair hdoc
  cases hid.symm.trans hde
  have hlookup : findExistingRequest objectId s.requests call = .ok none := by
    simp [findExistingRequest, hid, hnone]
  have hfree :
      s.requests.findOne (doc.stamped m.now).userId (doc.stamped m.now).eventId = none := by
    simpa [hdu] using hnone
  have hsave := s.requests.save_eq (doc.stamped m.now) (by simpa [hdu] using hu) hfree
  have hout : createAlone co objectId call m s = (.created (doc.stamped m.now),
      { s with requests := s.requests.insert (doc.stamped m.now) hfree }) := by
    obtain ⟨key, hkey⟩ := key_of_checkEvent hmeta hid h
    by_cases hheld : truthy ((KeyStore.get s.redis key).map .str) = true
    · simp [createAlone, Function.iterate_succ_apply, createEventRewardRequest, h, hkey, hheld,
        hlookup, hdoc, hsave]
    · simp [createAlone, Function.iterate_succ_apply, createEventRewardRequest, h, hkey, hheld,
        hlookup, hdoc, hsave]
  rw [hout]
  exact ⟨doc.stamped m.now, rfl, hdu, rfl, (newRequest_status hdoc :), rfl⟩

/-- The create call carries the decision out. -/
theorem createAlone_carries (m : Moment)
    (hid : objectId call.eventId = some eventId) (hevent : s.events eventId = some e)
    (hdeleted : e.deletedAt = none) (hmeta : WellFormed co call.metadata)
    (hu : call.userId ≠ "") :
    Carries call s eventId
      (.of e m.now (s.requests.findOne call.userId eventId).isSome
        (m.validator call.userId e.type e.condition))
      (createAlone co objectId call m s) := by
  have hcheck := checkEvent_eq (EventIds.names_ofText hid) hevent hdeleted hmeta.read m.now
  by_cases hstatus : e.status = some .ACTIVE
  · rw [if_neg (not_not_intro hstatus)] at hcheck
    by_cases hperiod : m.now < e.startDate ∨ e.endDate < m.now
    · rw [if_pos hperiod] at hcheck
      rw [Decision.of_outOfPeriod hstatus hperiod, createAlone_refused hcheck]
      exact ⟨rfl, rfl⟩
    · rw [if_neg hperiod] at hcheck
      rw [Decision.of_inPeriod hstatus hperiod]
      cases hr : s.requests.findOne call.userId eventId with
      | some r => exact createAlone_requested hmeta hcheck hid hr
      | none =>
        have hstores := createAlone_decides hmeta hcheck hid hu hr
        cases hmet : m.validator call.userId e.type e.condition with
        | true => simpa [hmet, Carries] using hstores
        | false => simpa [hmet, Carries] using hstores
  · rw [if_pos hstatus] at hcheck
    rw [Decision.of_inactive hstatus, createAlone_refused hcheck]
    exact ⟨rfl, rfl⟩

open RequestEligibilityService

variable (call s) in
/-- The preview says of the request what the request then comes to. -/
structure Agrees (eventId : String) (preview : Eligibility) (out : RewardPhase × ConsumerState) :
    Prop where
  eligible : preview.eligible = true ↔ Stores call s eventId .APPROVED out
  notMet : preview = ⟨false, some conditionReason⟩ ↔ Stores call s eventId .FAILED out
  inactive : preview = ⟨false, some inactiveMessage⟩ ↔ EndsUnstored s saysInactive out
  outOfPeriod : preview = ⟨false, some periodMessage⟩ ↔ EndsUnstored s saysOutOfPeriod out
  participated : preview = ⟨false, some participatedMessage⟩ ↔
    EndsUnstored s (saysRequested call eventId) out

/-- The decision that the end of a call tells. -/
def told : RewardPhase → Option Decision
  | .raised f =>
    if f = .http .badRequest inactiveMessage then some .inactive
    else if f = .http .badRequest periodMessage then some .outOfPeriod
    else if f = .http .badRequest duplicateMessage then some .participated
    else none
  | .returned _ => some .participated
  | .created r => if r.status = .APPROVED then some .met else some .notMet
  | _ => none

theorem Carries.told {d : Decision} {out : RewardPhase × ConsumerState}
    (h : Carries call s eventId d out) : told out.1 = some d := by
  cases d with
  | inactive =>
    rw [h.1]
    rfl
  | outOfPeriod =>
    rw [h.1]
    rfl
  | participated =>
    obtain ⟨⟨r, hr, -⟩ | hf, -⟩ := h
    · rw [hr]
      rfl
    · rw [hf]
      rfl
  | notMet =>
    obtain ⟨r, hr, -, -, hst, -⟩ := h
    rw [hr]
    simp [MsaTuto.told, hst]
  | met =>
    obtain ⟨r, hr, -, -, hst, -⟩ := h
    rw [hr]
    simp [MsaTuto.told, hst]

theorem Carries.iff {d d' : Decision} {out : RewardPhase × ConsumerState}
    (h : Carries call s eventId d out) : Carries call s eventId d' out ↔ d = d' := by
  constructor
  · intro h'
    exact Option.some.inj (h.told.symm.trans h'.told)
  · rintro rfl
    exact h

theorem answer_injective : Function.Injective answer := by
  intro d d' h
  cases d <;> cases d' <;>
    simp [answer, inactiveMessage, periodMessage, participatedMessage, conditionReason] at h ⊢

theorem eligible_answer (d : Decision) : (answer d).eligible = true ↔ d = .met := by
  cases d <;> simp [answer]

/-- For a user with an id, a stored event that is not deleted and metadata that can be read,
the preview and the request agree, whatever else is stored and whatever the validators say. -/
theorem preview_agrees (co : Coercions) (objectId : String → Option String) (m : Moment)
    (s : ConsumerState) (call : RewardCall) (eventId : String) (e : Event)
    (hid : objectId call.eventId = some eventId) (hcanonical : objectId eventId = some eventId)
    (hevent : s.events eventId = some e) (hdeleted : e.deletedAt = none)
    (hmeta : WellFormed co call.metadata) (hu : call.userId ≠ "") :
    Agrees call s eventId (checkEligibility objectId s.requests m call.userId eventId e)
      (createAlone co objectId call m s) := by
  have hcarries := createAlone_carries m hid hevent hdeleted hmeta hu
  rw [checkEligibility_eq hcanonical]
  have hanswer : ∀ d, answer (.of e m.now (s.requests.findOne call.userId eventId).isSome
        (m.validator call.userId e.type e.condition)) = answer d ↔
      Carries call s eventId d (createAlone co objectId call m s) := by
    intro d
    rw [answer_injective.eq_iff, hcarries.iff]
  constructor
  case eligible =>
    rw [eligible_answer]
    exact hcarries.iff.symm
  case notMet => exact hanswer .notMet
  case inactive => exact hanswer .inactive
  case outOfPeriod => exact hanswer .outOfPeriod
  case participated => exact hanswer .participated

section Sample

theorem preview_agrees_sample :
    Agrees (sampleCalls false) sampleState "e1"
      (checkEligibility some .empty { now := 5, newId := "r1" } "alice" "e1" sampleEvent)
      (createAlone Coercions.plain some (sampleCalls false) { now := 5, newId := "r1" }
        sampleState) :=
  preview_agrees Coercions.plain some { now := 5, newId := "r1" } sampleState (sampleCalls false)
    "e1" sampleEvent rfl rfl rfl rfl (sampleCalls_wellFormed _) (by decide)

def anonymousCall : RewardCall := { sampleCalls false with userId := "" }

/-- The schema requires a `userId`: the preview promises a reward to the empty one, but no
request of it is ever stored. -/
theorem preview_of_empty_userId :
    ¬Agrees anonymousCall sampleState "e1"
      (checkEligibility some .empty
        { now := 5, newId := "r1", validator := fun _ _ _ => true } "" "e1" sampleEvent)
      (createAlone Coercions.plain some anonymousCall
        { now := 5, newId := "r1", validator := fun _ _ _ => true } sampleState) := by
  intro h
  obtain ⟨r, hr, -⟩ := h.eligible.mp rfl
  cases hr

end Sample

end Create
end MsaTuto
