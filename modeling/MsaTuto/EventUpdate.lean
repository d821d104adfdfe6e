import MsaTuto.Caller
import MsaTuto.ErrorStatus

/-! `PUT events/:id` with nobody else writing: the whole of `update` in `event.service.ts`, the
handler of `event.controller.ts` over it, and which updates take effect. -/
namespace MsaTuto
open Js

def isNotEmpty : Value → Bool
  | none | some .null | some (.str "") => false
  | _ => true

/-- The rules for one condition; it is looked at as an instance of `EventConditionDto`. -/
def EventConditionDto.accepts : Json → Bool
  | .obj fs =>
    match fs.lookup "type" with
    | some (.str type) => type ≠ "" && isNotEmpty (fs.lookup "value")
    | _ => false
  | _ => false

/-- `@ValidateNested()`: every element of an array is looked at. -/
def EventConditionDto.nested : Json → Bool
  | .null => true
  | .arr xs => xs.all EventConditionDto.accepts
  | v => EventConditionDto.accepts v

/-- A body that the decorators of `UpdateEventDto` and `EventConditionDto` let through. -/
structure AcceptedUpdate (isDateString : String → Bool) where
  dto : UpdateEventDto
  version : Rat
  version_given : dto.version = some version
  startDate_ok : ∀ s, dto.startDate = some s → isDateString s = true
  endDate_ok : ∀ s, dto.endDate = some s → isDateString s = true
  condition_ok : ∀ v, dto.condition = some v → EventConditionDto.nested v = true

namespace UpdateEventDto

/-- The update document for merged dates. -/
def patch (dto : UpdateEventDto) (startDate endDate : JsDate) (updatedBy : Option String) :
    EventPatch where
  name := dto.name
  description := dto.description
  type := dto.type
  condition := dto.condition
  startDate := some startDate
  endDate := some endDate
  status := dto.status
  createdBy := dto.createdBy
  updatedBy := updatedBy.map some
  deletedAt := dto.deletedAt
  deletedBy := dto.deletedBy
  version := dto.version

/-- The event with the fields that the body supplies in place of its own. -/
def replaced (dto : UpdateEventDto) (e : Event) (startDate endDate : Int) (caller : String) :
    Event where
  name := dto.name.getD e.name
  description := dto.description.getD e.description
  type := dto.type.getD e.type
  condition := dto.condition.or e.condition
  startDate := startDate
  endDate := endDate
  status := dto.status.getD e.status
  createdBy := dto.createdBy.getD e.createdBy
  updatedBy := some caller
  version := e.version + 1
  deletedAt := dto.deletedAt.getD e.deletedAt
  deletedBy := dto.deletedBy.getD e.deletedBy

theorem patch_apply (dto : UpdateEventDto) (e : Event) (startDate endDate : Int)
    (caller : String) :
    (dto.patch (some startDate) (some endDate) (some caller)).apply e =
      dto.replaced e startDate endDate caller := rfl

end UpdateEventDto

namespace EventService

/-- `update` with no other call between its read and its write. -/
def update (parse : String → JsDate) (store : EventStore) (c : EventCollection) (id : String)
    (dto : UpdateEventDto) (updatedBy : Option String) (version : Rat) :
    EventCollection × Except Failure Event :=
  match updateRead parse c id dto updatedBy version with
  | .error f => (c, .error f)
  | .ok patch => updateWrite store c id version patch

/-- It is what the two turns of the interleaved call come to. -/
theorem update_eq_turns (parse : String → JsDate) (store : EventStore) (c : EventCollection)
    (id : String) (dto : UpdateEventDto) (updatedBy : Option String) (version : Rat)
    (now later : Int) :
    (Mutation.update id dto updatedBy version).act parse store later
        ((Mutation.update id dto updatedBy version).act parse store now .started c).1
        ((Mutation.update id dto updatedBy version).act parse store now .started c).2 =
      (.ofResult (update parse store c id dto updatedBy version).2,
        (update parse store c id dto updatedBy version).1) := by
  cases h : updateRead parse c id dto updatedBy version with
  | error f => simp [Mutation.act, update, h, MutationPhase.ofResult]
  | ok patch => simp [Mutation.act, update, h]

end EventService

namespace EventController

/-- What the handler throws: `ConflictException({ message, latestData })`, or an error as it
came. -/
inductive Thrown where
  | conflict (message : String) (latestData : Event)
  | error (failure : Failure)

def Thrown.failure : Thrown → Failure
  | .conflict message _ => .http .conflict message
  | .error f => f

/-- The `catch` block, with the collection as the service has left it. -/
def rethrown (c : EventCollection) (id : String) : Failure → Thrown
  | .http .conflict message =>
    match EventService.findOne c id with
    | .ok latestEvent => .conflict message latestEvent
    | .error g => .error g
  | f => .error f

theorem rethrown_failure (c : EventCollection) (id : String) (f : Failure) :
    (rethrown c id f).failure = caught c id f := by
  cases f with
  | native name => rfl
  | http cls message =>
    cases cls with
    | conflict =>
      simp only [rethrown, caught, Failure.isConflict, if_true]
      cases EventService.findOne c id <;> rfl
    | _ => rfl

/-- A value as the schema stores it in a text field; `undefined` leaves the field out. -/
def textOf : Value → Option String
  | some (.str s) => some s
  | _ => none

def update {isDateString : String → Bool} (parse : String → JsDate) (store : EventStore)
    (c : EventCollection) (id : String) (body : AcceptedUpdate isDateString) (user : Value) :
    EventCollection × Except Thrown Event :=
  match EventService.update parse store c id body.dto (textOf (userDecorator "id" user))
      body.version with
  | (c', .ok event) => (c', .ok event)
  | (c', .error f) => (c', .error (rethrown c' id f))

end EventController

/-- The answer to an update of the stored event `e` by the caller, as it should be. -/
def TakesEffect {ε : Type*} (c : EventCollection) (id : String) (e : Event)
    (dto : UpdateEventDto) (startDate endDate : Int) (caller : String)
    (out : EventCollection × Except ε Event) : Prop :=
  out = (Function.update c id (some (dto.replaced e startDate endDate caller)),
    .ok (dto.replaced e startDate endDate caller))

section Update
variable {parse : String → JsDate} {c : EventCollection} {id : String} {e : Event}
  {dto : UpdateEventDto} {startDate endDate : Int}

theorem updateRead_current {updatedBy : Option String} {version : Rat}
    (he : c id = some e) (hlive : e.deletedAt = none) (hversion : (e.version : Rat) = version)
    (hstart : EventService.mergeDate parse dto.startDate e.startDate = some startDate)
    (hend : EventService.mergeDate parse dto.endDate e.endDate = some endDate)
    (hlt : startDate < endDate) :
    EventService.updateRead parse c id dto updatedBy version =
      .ok (dto.patch (some startDate) (some endDate) updatedBy) := by
  have hfound : EventService.findOne c id = .ok e := by
    simp [EventService.findOne, he, hlive]
  have hge : JsDate.ge (some startDate) (some endDate) = false := by
    simp only [JsDate.ge, decide_eq_false_iff_not]
    omega
  simp [EventService.updateRead, hfound, hstart, hend, hge, hversion, UpdateEventDto.patch]

/-- A current update stands or falls with the store's answer to its document. -/
theorem update_current (store : EventStore) {updatedBy : Option String} {version : Rat}
    (he : c id = some e) (hlive : e.deletedAt = none) (hversion : (e.version : Rat) = version)
    (hstart : EventService.mergeDate parse dto.startDate e.startDate = some startDate)
    (hend : EventService.mergeDate parse dto.endDate e.endDate = some endDate)
    (hlt : startDate < endDate) :
    let document := dto.patch (some startDate) (some endDate) updatedBy
    EventService.update parse store c id dto updatedBy version =
      if store.refuses document then (c, .error EventService.storeError)
      else (Function.update c id (some (document.apply e)), .ok (document.apply e)) := by
  intro document
  have hread : EventService.updateRead parse c id dto updatedBy version = .ok document :=
    updateRead_current he hlive hversion hstart hend hlt
  have hcast : document.castable = true := by
    simp [document, EventPatch.castable, UpdateEventDto.patch]
  simp only [EventService.update, hread, EventService.updateWrite, EventService.write,
    EventStore.findOneAndUpdate, hcast]
  cases hrefuses : store.refuses document <;> simp [he, hlive, hversion]

/-- Under MongoDB's rule, the service puts a current update into effect exactly if its document
does not name `version` beside the increment. -/
theorem service_update_takes_effect {version : Rat} {caller : String}
    (he : c id = some e) (hlive : e.deletedAt = none) (hversion : (e.version : Rat) = version)
    (hstart : EventService.mergeDate parse dto.startDate e.startDate = some startDate)
    (hend : EventService.mergeDate parse dto.endDate e.endDate = some endDate)
    (hlt : startDate < endDate) :
    TakesEffect c id e dto startDate endDate caller
        (EventService.update parse .strict c id dto (some caller) version) ↔
      dto.version = none := by
  rw [TakesEffect, update_current .strict he hlive hversion hstart hend hlt,
    UpdateEventDto.patch_apply]
  cases hdto : dto.version <;>
    simp [EventStore.strict, EventPatch.namesVersionTwice, UpdateEventDto.patch, hdto]

theorem not_takesEffect_of_error {ε : Type*} {caller : String} (f : ε) :
    ¬TakesEffect c id e dto startDate endDate caller (c, .error f) := by
  intro h
  cases congrArg Prod.snd h

theorem handler_update_current {isDateString : String → Bool} {user : Value}
    (body : AcceptedUpdate isDateString)
    (he : c id = some e) (hlive : e.deletedAt = none)
    (hversion : (e.version : Rat) = body.version)
    (hstart : EventService.mergeDate parse body.dto.startDate e.startDate = some startDate)
    (hend : EventService.mergeDate parse body.dto.endDate e.endDate = some endDate)
    (hlt : startDate < endDate) :
    EventController.update parse .strict c id body user =
      (c, .error (.error EventService.storeError)) := by
  have hservice : EventService.update parse .strict c id body.dto
      (EventController.textOf (userDecorator "id" user)) body.version =
        (c, .error EventService.storeError) := by
    rw [update_current .strict he hlive hversion hstart hend hlt]
    simp [EventStore.strict, EventPatch.namesVersionTwice, UpdateEventDto.patch,
      body.version_given]
  rw [EventController.update, hservice]
  rfl

/-- The DTO requires the version, so every current update is refused. -/
theorem current_update_refused {isDateString : String → Bool}
    (body : AcceptedUpdate isDateString) (payload : Json) (caller : String)
    (he : c id = some e) (hlive : e.deletedAt = none)
    (hversion : (e.version : Rat) = body.version)
    (hstart : EventService.mergeDate parse body.dto.startDate e.startDate = some startDate)
    (hend : EventService.mergeDate parse body.dto.endDate e.endDate = some endDate)
    (hlt : startDate < endDate) :
    let out := EventController.update parse .strict c id body (some (gameJwtValidate payload))
    ¬TakesEffect c id e body.dto startDate endDate caller out ∧
      out = (c, .error (.error EventService.storeError)) := by
  intro out
  have hout : out = (c, .error (.error EventService.storeError)) :=
    handler_update_current body he hlive hversion hstart hend hlt
  exact ⟨hout ▸ not_takesEffect_of_error _, hout⟩

end Update

section Sample

def newName : AcceptedUpdate (fun _ => true) where
  dto := { name := some (some "relaunch"), version := some 0 }
  version := 0
  version_given := rfl
  startDate_ok _ _ := rfl
  endDate_ok _ _ := rfl
  condition_ok v h := by cases h

def operatorPayload : Json := .obj [("sub", .str "operator")]

theorem current_update_refused_new_name :
    let out := EventController.update (fun _ => none) .strict (oneEvent 0) "e1" newName
      (some (gameJwtValidate operatorPayload))
    ¬TakesEffect (oneEvent 0) "e1" (storedEvent 0) newName.dto 0 1000 "operator" out ∧
      out = (oneEvent 0, .error (.error EventService.storeError)) :=
  current_update_refused newName operatorPayload "operator" rfl rfl rfl rfl rfl (by decide)

/-- An operator gives an event a new name, under the version that is stored. -/
theorem new_name_has_no_effect :
    ¬∀ (isDateString : String → Bool) (parse : String → JsDate) (c : EventCollection)
      (id : String) (e : Event) (body : AcceptedUpdate isDateString) (payload : Json)
      (caller : String) (startDate endDate : Int),
      c id = some e → e.deletedAt = none → (e.version : Rat) = body.version →
      subject payload = some caller →
      EventService.mergeDate parse body.dto.startDate e.startDate = some startDate →
      EventService.mergeDate parse body.dto.endDate e.endDate = some endDate →
      startDate < endDate →
      TakesEffect c id e body.dto startDate endDate caller
        (EventController.update parse .strict c id body (some (gameJwtValidate payload))) := by
  intro h
  have heffect := h (fun _ => true) (fun _ => none) (oneEvent 0) "e1" (storedEvent 0) newName
    operatorPayload "operator" 0 1000 rfl rfl rfl rfl rfl rfl (by decide)
  rw [handler_update_current (e := storedEvent 0) newName rfl rfl rfl rfl rfl (by decide)]
    at heffect
  exact not_takesEffect_of_error _ heffect

end Sample
end MsaTuto
