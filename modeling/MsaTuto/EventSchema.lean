import Mathlib.Data.List.Forall2
import MsaTuto.Event
import MsaTuto.Mongoose

/-! The document of a new event: the object of `create` in `event.service.ts`, and what
`event.schema.ts` lets Mongoose make of it. -/
namespace MsaTuto
open Js Mongoose

def EventType.value : EventType → String
  | .LOGIN => "LOGIN"
  | .FRIEND_INVITATION => "FRIEND_INVITATION"
  | .LEVEL_UP => "LEVEL_UP"
  | .TIME_PERIOD => "TIME_PERIOD"
  | .ACHIEVEMENT => "ACHIEVEMENT"
  | .PURCHASE => "PURCHASE"
  | .DAILY_MISSION => "DAILY_MISSION"
  | .ITEM_COLLECTION => "ITEM_COLLECTION"

def EventType.all : List EventType :=
  [.LOGIN, .FRIEND_INVITATION, .LEVEL_UP, .TIME_PERIOD, .ACHIEVEMENT, .PURCHASE, .DAILY_MISSION,
    .ITEM_COLLECTION]

def EventType.ofValue (s : String) : Option EventType :=
  EventType.all.find? fun type => type.value = s

theorem EventType.ofValue_value (type : EventType) : EventType.ofValue type.value = some type := by
  cases type <;> decide

def EventStatus.value : EventStatus → String
  | .ACTIVE => "ACTIVE"
  | .INACTIVE => "INACTIVE"

def EventStatus.ofValue (s : String) : Option EventStatus :=
  [EventStatus.ACTIVE, .INACTIVE].find? fun status => status.value = s

theorem EventStatus.ofValue_value (status : EventStatus) :
    EventStatus.ofValue status.value = some status := by
  cases status <;> decide

/-- A request body for a new event. Fields the DTO does not declare stay in it without
`whitelist`; a missing condition gets past `@ValidateNested`. -/
structure CreateEventDto where
  name : String
  description : String
  type : EventType
  condition : Value
  startDate : String
  endDate : String
  status : Option EventStatus := none
  undeclared : Fields := []

def CreateEventDto.body (dto : CreateEventDto) : Fields :=
  spread dto.undeclared [("name", some (.str dto.name)),
    ("description", some (.str dto.description)), ("type", some (.str dto.type.value)),
    ("condition", dto.condition), ("startDate", some (.str dto.startDate)),
    ("endDate", some (.str dto.endDate)),
    ("status", dto.status.map fun status => .str status.value)]

section Schema
variable (c : Casts)

def eventNameField : SchemaField := { key := "name", cast := castString c, valid := filled }

def descriptionField : SchemaField :=
  { key := "description", cast := castString c, valid := filled }

def typeField : SchemaField where
  key := "type"
  cast := castString c
  valid v := filled v && oneOf (EventType.all.map EventType.value) v

/-- The class of the path has no schema of its own, so it takes any value. -/
def conditionField : SchemaField :=
  { key := "condition", cast := some, inside := .anything, valid := given }

/-- The service gives the field a `Date` itself. -/
def startDateField : SchemaField := { key := "startDate", cast := some, valid := given }

/-- The service gives the field a `Date` itself. -/
def endDateField : SchemaField := { key := "endDate", cast := some, valid := given }

def statusField : SchemaField where
  key := "status"
  cast := castString c
  default := some (.str EventStatus.INACTIVE.value)
  valid v := filled v && oneOf [EventStatus.ACTIVE.value, EventStatus.INACTIVE.value] v

def createdByField : SchemaField := { key := "createdBy", cast := castString c, valid := filled }

def updatedByField : SchemaField := { key := "updatedBy", cast := castString c }

def versionField : SchemaField :=
  { key := "version", cast := castNumber c, default := some (.num 0) }

def deletedAtField : SchemaField :=
  { key := "deletedAt", cast := castDate c, default := some .null }

def deletedByField : SchemaField := { key := "deletedBy", cast := castString c }

def eventSchema (newId : String) : List SchemaField :=
  [eventNameField c, descriptionField c, typeField c, conditionField, startDateField,
    endDateField, statusField c, createdByField c, updatedByField c, versionField c,
    deletedAtField c, deletedByField c, idField c newId]

end Schema

/-- A `Date` as its milliseconds; an invalid one is as little of a date as `null`. -/
def JsDate.json : JsDate → Json
  | some ms => .num ms
  | none => .null

/-- The event that a document of the schema holds, with its id. -/
def Event.ofDocument : List Value → Option (String × Event)
  | [some (.str name), some (.str description), some (.str type), condition,
      some (.num startDate), some (.num endDate), some (.str status), some (.str createdBy),
      updatedBy, some (.num version), deletedAt, deletedBy, some (.str id)] =>
    some (id, {
      name := some name, description := some description, type := EventType.ofValue type
      condition := condition, startDate := startDate.floor, endDate := endDate.floor
      status := EventStatus.ofValue status, createdBy := some createdBy
      updatedBy := storedText updatedBy, version := version.floor
      deletedAt := storedTime deletedAt, deletedBy := storedText deletedBy })
  | _ => none

namespace EventService

/-- `new Date(value)` of a value that is no string does not come up. -/
def dateOf (parse : String → JsDate) : Value → JsDate
  | some (.str s) => parse s
  | _ => none

/-- The object of `create`, behind its comparison of the dates. -/
def createdEventObject (newDate : Value → JsDate) (createdBy : Value) (createEventDto : Fields) :
    Option Fields :=
  if JsDate.ge (newDate (createEventDto.lookup "startDate"))
      (newDate (createEventDto.lookup "endDate")) then none
  else some (spread createEventDto
    [("startDate", some (newDate (createEventDto.lookup "startDate")).json),
      ("endDate", some (newDate (createEventDto.lookup "endDate")).json),
      ("createdBy", createdBy),
      ("status", orElse (createEventDto.lookup "status") (some (.str EventStatus.INACTIVE.value))),
      ("version", some (.num 0)), ("deletedAt", some .null)])

def validationError : Failure := .native "ValidationError"

/-- `new this.eventModel(obj)` and the checks of its `save`. -/
def createdEvent (c : Casts) (newId : String) (obj : Fields) : Except Failure (String × Event) :=
  if stampable c obj then
    match (document c obj (eventSchema c newId)).bind Event.ofDocument with
    | some doc => .ok doc
    | none => .error validationError
  else .error validationError

/-- The document says of the event what the body and the caller say, and is the first version. -/
structure Describes (c : Casts) (parse : String → JsDate) (dto : CreateEventDto)
    (createdBy : Option String) (e : Event) : Prop where
  name : e.name = some dto.name
  description : e.description = some dto.description
  type : e.type = some dto.type
  /-- With what keys of the body such as `condition.value` put into it. -/
  condition : conditionField.fill c dto.condition (conditionField.innerKeys dto.undeclared) =
    some e.condition
  startDate : parse dto.startDate = some e.startDate
  endDate : parse dto.endDate = some e.endDate
  ordered : e.startDate < e.endDate
  status : e.status = some (dto.status.getD .INACTIVE)
  createdBy : e.createdBy = createdBy
  updatedBy : ∃ v, (updatedByField c).stored c dto.undeclared = some v ∧
    e.updatedBy = storedText v
  deletedBy : ∃ v, (deletedByField c).stored c dto.undeclared = some v ∧
    e.deletedBy = storedText v
  version : e.version = 0
  live : e.deletedAt = none

section Create
variable {c : Casts} {parse : String → JsDate} {dto : CreateEventDto} {createdBy : Option String}
  {newId id : String} {obj : Fields} {e : Event}

theorem lookup_body_undeclared {k : String} (h : k ∉ ["name", "description", "type", "condition",
    "startDate", "endDate", "status"]) : dto.body.lookup k = dto.undeclared.lookup k := by
  refine lookup_spread_of_notMem (fun p hp hk => h ?_) dto.undeclared
  rw [hk]
  exact List.mem_map_of_mem (f := Prod.fst) hp

theorem lookup_body_status : dto.body.lookup "status" =
    dto.status.map fun status => .str status.value :=
  lookup_spread_set _ [_, _, _, _, _, _] [] _ _ (by simp)

variable (parse dto createdBy) in
/-- The object handed to Mongoose. -/
def newEventObject : Fields :=
  spread dto.body [("startDate", some (parse dto.startDate).json),
    ("endDate", some (parse dto.endDate).json), ("createdBy", createdBy.map .str),
    ("status", some (.str (dto.status.getD .INACTIVE).value)), ("version", some (.num 0)),
    ("deletedAt", some .null)]

theorem createdEventObject_body
    (h : createdEventObject (dateOf parse) (createdBy.map .str) dto.body = some obj) :
    JsDate.ge (parse dto.startDate) (parse dto.endDate) = false ∧
      obj = newEventObject parse dto createdBy := by
  have hstart : dto.body.lookup "startDate" = some (.str dto.startDate) :=
    lookup_spread_set _ [_, _, _, _] [_, _] _ _ (by simp)
  have hend : dto.body.lookup "endDate" = some (.str dto.endDate) :=
    lookup_spread_set _ [_, _, _, _, _] [_] _ _ (by simp)
  have hstatus : orElse (dto.body.lookup "status") (some (.str EventStatus.INACTIVE.value)) =
      some (.str (dto.status.getD .INACTIVE).value) := by
    rw [lookup_body_status]
    cases dto.status with
    | none => rfl
    | some status => cases status <;> rfl
  rw [createdEventObject, hstart, hend, hstatus] at h
  split at h
  · cases h
  next hge => exact ⟨Bool.eq_false_iff.mpr hge, (Option.some.inj h).symm⟩

theorem lookup_newEventObject {k : String}
    (h : k ∉ ["startDate", "endDate", "createdBy", "status", "version", "deletedAt"]) :
    (newEventObject parse dto createdBy).lookup k = dto.body.lookup k := by
  refine lookup_spread_of_notMem (fun p hp hk => h ?_) dto.body
  rw [hk]
  exact List.mem_map_of_mem (f := Prod.fst) hp

variable (dto) in
theorem lookup_declared : dto.body.lookup "name" = some (.str dto.name) ∧
    dto.body.lookup "description" = some (.str dto.description) ∧
    dto.body.lookup "type" = some (.str dto.type.value) ∧
    dto.body.lookup "condition" = dto.condition :=
  ⟨lookup_spread_set _ [] [_, _, _, _, _, _] _ _ (by simp),
    lookup_spread_set _ [_] [_, _, _, _, _] _ _ (by simp),
    lookup_spread_set _ [_, _] [_, _, _, _] _ _ (by simp),
    lookup_spread_set _ [_, _, _] [_, _, _] _ _ (by simp)⟩

variable (parse dto createdBy) in
theorem lookup_written :
    (newEventObject parse dto createdBy).lookup "startDate" = some (parse dto.startDate).json ∧
    (newEventObject parse dto createdBy).lookup "endDate" = some (parse dto.endDate).json ∧
    (newEventObject parse dto createdBy).lookup "createdBy" = createdBy.map .str ∧
    (newEventObject parse dto createdBy).lookup "status" =
      some (.str (dto.status.getD .INACTIVE).value) ∧
    (newEventObject parse dto createdBy).lookup "version" = some (.num 0) ∧
    (newEventObject parse dto createdBy).lookup "deletedAt" = some .null :=
  ⟨lookup_spread_set _ [] [_, _, _, _, _] _ _ (by simp),
    lookup_spread_set _ [_] [_, _, _, _] _ _ (by simp),
    lookup_spread_set _ [_, _] [_, _, _] _ _ (by simp),
    lookup_spread_set _ [_, _, _] [_, _] _ _ (by simp),
    lookup_spread_set _ [_, _, _, _] [_] _ _ (by simp),
    lookup_spread_set _ [_, _, _, _, _] [] _ _ (by simp)⟩

/-- No field that the code writes or the DTO declares is inside the condition. -/
theorem innerKeys_newEventObject :
    conditionField.innerKeys (newEventObject parse dto createdBy) =
      conditionField.innerKeys dto.undeclared := by
  have hwritten : ∀ k ∈ ["startDate", "endDate", "createdBy", "status", "version", "deletedAt"],
      keyInside "condition" k = none := by decide
  have hdeclared : ∀ k ∈ ["name", "description", "type", "condition", "startDate", "endDate",
      "status"], keyInside "condition" k = none := by decide
  calc
    conditionField.innerKeys (newEventObject parse dto createdBy)
        = conditionField.innerKeys dto.body := by
          rw [newEventObject, innerKeys_spread (by exact hwritten)]
    _ = conditionField.innerKeys dto.undeclared := by
      rw [CreateEventDto.body, innerKeys_spread (by exact hdeclared)]

theorem ofDocument_eq_some {doc : List Value} (h : Event.ofDocument doc = some (id, e)) :
    ∃ name description type startDate endDate status creator updatedBy version deletedAt deletedBy,
      doc = [some (.str name), some (.str description), some (.str type), e.condition,
        some (.num startDate), some (.num endDate), some (.str status), some (.str creator),
        updatedBy, some (.num version), deletedAt, deletedBy, some (.str id)] ∧
      e = {
        name := some name, description := some description, type := EventType.ofValue type
        condition := e.condition, startDate := startDate.floor, endDate := endDate.floor
        status := EventStatus.ofValue status, createdBy := some creator
        updatedBy := storedText updatedBy, version := version.floor
        deletedAt := storedTime deletedAt, deletedBy := storedText deletedBy } := by
  unfold Event.ofDocument at h
  split at h
  next name description type condition startDate endDate status creator updatedBy version
      deletedAt deletedBy id =>
    cases h
    exact ⟨name, description, type, startDate, endDate, status, creator, updatedBy, version,
      deletedAt, deletedBy, rfl, rfl⟩
  next => cases h

theorem createdEvent_ok (h : createdEvent c newId obj = .ok (id, e)) :
    (document c obj (eventSchema c newId)).bind Event.ofDocument = some (id, e) := by
  unfold createdEvent at h
  split at h
  · split at h
    next doc hdoc =>
      cases h
      exact hdoc
    next => cases h
  · cases h

theorem date_of_json {d : JsDate} {q : Rat} (h : some (.num q) = some d.json) :
    d = some q.floor := by
  cases d with
  | none => cases h
  | some ms =>
    cases h
    simp

theorem creator_of_stored {creator : String} (hlookup : obj.lookup "createdBy" = createdBy.map .str)
    (h : (createdByField c).stored c obj = some (some (.str creator))) :
    createdBy = some creator := by
  cases createdBy with
  | none => simp [stored_nothing, createdByField, SchemaField.start, hlookup, SchemaField.settle,
      filled] at h
  | some user => simpa [eq_comm] using stored_kept rfl rfl hlookup rfl h

theorem describes_of_createdEvent
    (hobj : createdEventObject (dateOf parse) (createdBy.map .str) dto.body = some obj)
    (h : createdEvent c newId obj = .ok (id, e)) : Describes c parse dto createdBy e := by
  obtain ⟨hge, hobject⟩ := createdEventObject_body hobj
  obtain ⟨doc, hdoc, hevent⟩ := Option.bind_eq_some_iff.mp (createdEvent_ok h)
  obtain ⟨name, description, type, startDate, endDate, status, creator, updatedBy, version,
    deletedAt, deletedBy, rfl, he⟩ := ofDocument_eq_some hevent
  rw [document_eq_some] at hdoc
  simp only [eventSchema, List.forall₂_cons, List.forall₂_nil_left_iff, and_true] at hdoc
  obtain ⟨hname, hdescription, htype, hcondition, hstart, hend, hstatus, hcreator, hupdated,
    hversion, hdeletedAt, hdeleted, -⟩ := hdoc
  obtain ⟨hstartDate, hendDate, hcreated, hstatus', hversion', hdeletedAt'⟩ :=
    hobject ▸ lookup_written parse dto createdBy
  obtain ⟨hname', hdescription', htype', hcondition'⟩ := lookup_declared dto
  have hbefore : ∀ k, k ∉ ["startDate", "endDate", "createdBy", "status", "version",
      "deletedAt"] → obj.lookup k = dto.body.lookup k :=
    fun k hk => hobject ▸ lookup_newEventObject hk
  have hname := stored_kept rfl rfl ((hbefore "name" (by decide)).trans hname') rfl hname
  have hdescription := stored_kept rfl rfl ((hbefore "description" (by decide)).trans hdescription')
    rfl hdescription
  have htype := stored_kept rfl rfl ((hbefore "type" (by decide)).trans htype') rfl htype
  have hstatus := stored_kept rfl rfl hstatus' rfl hstatus
  have hversion := stored_kept rfl rfl hversion' rfl hversion
  have hdeletedAt := stored_kept rfl rfl hdeletedAt' rfl hdeletedAt
  have hstart := stored_kept rfl rfl hstartDate rfl hstart
  have hend := stored_kept rfl rfl hendDate rfl hend
  have hupdated := (stored_plain_congr rfl ((hbefore "updatedBy" (by decide)).trans
    (lookup_body_undeclared (by decide)))).symm.trans hupdated
  have hdeleted := (stored_plain_congr rfl ((hbefore "deletedBy" (by decide)).trans
    (lookup_body_undeclared (by decide)))).symm.trans hdeleted
  have hcreator := creator_of_stored hcreated hcreator
  have hinside : conditionField.innerKeys obj = conditionField.innerKeys dto.undeclared :=
    hobject ▸ innerKeys_newEventObject
  have hcondition := fill_of_stored (fun _ => rfl) rfl rfl
    ((hbefore "condition" (by decide)).trans hcondition') hcondition
  have hstart := date_of_json hstart
  have hend := date_of_json hend
  rw [hstart, hend] at hge
  cases hname
  cases hdescription
  cases htype
  cases hstatus
  cases hversion
  cases hdeletedAt
  have hlt : startDate.floor < endDate.floor := by simpa [JsDate.ge] using hge
  exact {
    name := by rw [he]
    description := by rw [he]
    type := (congrArg Event.type he).trans (EventType.ofValue_value dto.type)
    condition := hinside ▸ hcondition
    startDate := hstart.trans (congrArg some (congrArg Event.startDate he).symm)
    endDate := hend.trans (congrArg some (congrArg Event.endDate he).symm)
    ordered := by rwa [he]
    status := (congrArg Event.status he).trans (EventStatus.ofValue_value _)
    createdBy := (congrArg Event.createdBy he).trans hcreator.symm
    updatedBy := ⟨updatedBy, hupdated, congrArg Event.updatedBy he⟩
    deletedBy := ⟨deletedBy, hdeleted, congrArg Event.deletedBy he⟩
    version := (congrArg Event.version he).trans (by rfl)
    live := congrArg Event.deletedAt he }

end Create
end EventService
end MsaTuto