import Mathlib.Data.Rat.Defs
import Mathlib.Logic.Function.Basic
import MsaTuto.Failure
import MsaTuto.Js

/-! The event collection of the game-event server: `event.schema.ts`,
`update-event.dto.ts` and the store operations of `event.service.ts`. -/
namespace MsaTuto

inductive EventType where
  | LOGIN | FRIEND_INVITATION | LEVEL_UP | TIME_PERIOD
  | ACHIEVEMENT | PURCHASE | DAILY_MISSION | ITEM_COLLECTION
  deriving DecidableEq, Repr

inductive EventStatus where
  | ACTIVE | INACTIVE
  deriving DecidableEq, Repr

/-- A stored event. Dates are milliseconds; `none` is `null`, which an update may
write into any field it names, since update validators are off. The condition is of a class
without `@Schema`, of which Mongoose makes a path of any value. -/
structure Event where
  name : Option String
  description : Option String
  type : Option EventType
  condition : Js.Value
  startDate : Int
  endDate : Int
  status : Option EventStatus
  createdBy : Option String
  updatedBy : Option String := none
  version : Int := 0
  deletedAt : Option Int := none
  deletedBy : Option String := none

abbrev EventCollection := String → Option Event

/-- A `Date` object in memory, possibly an invalid one. -/
abbrev JsDate := Option Int

/-- `a >= b` on dates: false as soon as one of them is invalid. -/
def JsDate.ge : JsDate → JsDate → Bool
  | some a, some b => decide (b ≤ a)
  | _, _ => false

/-- A request body for an update. The outer option says whether the field is
there, the inner one whether it is `null`. -/
structure UpdateEventDto where
  name : Option (Option String) := none
  description : Option (Option String) := none
  type : Option (Option EventType) := none
  condition : Js.Value := none
  startDate : Option String := none
  endDate : Option String := none
  status : Option (Option EventStatus) := none
  version : Option Rat := none
  /-- Fields of the schema that the DTO does not declare; without `whitelist`
  the validation pipe leaves them in the body. -/
  createdBy : Option (Option String) := none
  deletedAt : Option (Option Int) := none
  deletedBy : Option (Option String) := none

/-- The plain fields of an update document, which Mongoose moves under `$set`. Every
write of the service adds the same `$inc: { version: 1 }`, see `EventPatch.apply`. -/
structure EventPatch where
  name : Option (Option String) := none
  description : Option (Option String) := none
  type : Option (Option EventType) := none
  condition : Js.Value := none
  startDate : Option JsDate := none
  endDate : Option JsDate := none
  status : Option (Option EventStatus) := none
  createdBy : Option (Option String) := none
  updatedBy : Option (Option String) := none
  deletedAt : Option (Option Int) := none
  deletedBy : Option (Option String) := none
  version : Option Rat := none

def EventPatch.castable (p : EventPatch) : Bool :=
  p.startDate ≠ some none && p.endDate ≠ some none

def EventPatch.namesVersionTwice (p : EventPatch) : Bool := p.version.isSome

def EventPatch.apply (p : EventPatch) (e : Event) : Event where
  name := p.name.getD e.name
  description := p.description.getD e.description
  type := p.type.getD e.type
  condition := p.condition.or e.condition
  startDate := (p.startDate.getD none).getD e.startDate
  endDate := (p.endDate.getD none).getD e.endDate
  status := p.status.getD e.status
  createdBy := p.createdBy.getD e.createdBy
  updatedBy := p.updatedBy.getD e.updatedBy
  version := e.version + 1
  deletedAt := p.deletedAt.getD e.deletedAt
  deletedBy := p.deletedBy.getD e.deletedBy

structure EventStore where
  refuses : EventPatch → Bool

/-- MongoDB's own rule: two operators must not name one path. -/
def EventStore.strict : EventStore := ⟨EventPatch.namesVersionTwice⟩

/-- The other rule considered: the increment is applied, the plain field is not. -/
def EventStore.lenient : EventStore := ⟨fun _ => false⟩

inductive WriteResult where
  | refused
  | noMatch
  | updated (event : Event)

def EventStore.findOneAndUpdate (store : EventStore) (c : EventCollection) (id : String)
    (filter : Event → Bool) (patch : EventPatch) : EventCollection × WriteResult :=
  if store.refuses patch || !patch.castable then (c, .refused)
  else match c id with
    | none => (c, .noMatch)
    | some e =>
      if filter e then (Function.update c id (some (patch.apply e)), .updated (patch.apply e))
      else (c, .noMatch)

theorem EventStore.findOneAndUpdate_cases (store : EventStore) (c : EventCollection) (id : String)
    (filter : Event → Bool) (patch : EventPatch) :
    (∃ e, c id = some e ∧ filter e = true ∧ patch.castable = true ∧
      store.findOneAndUpdate c id filter patch =
        (Function.update c id (some (patch.apply e)), .updated (patch.apply e))) ∨
    store.findOneAndUpdate c id filter patch = (c, .refused) ∨
    store.findOneAndUpdate c id filter patch = (c, .noMatch) := by
  unfold EventStore.findOneAndUpdate
  by_cases hr : (store.refuses patch || !patch.castable) = true
  · exact .inr (.inl (by simp [hr]))
  · have hc : patch.castable = true := by
      cases h : patch.castable <;> simp_all
    cases he : c id with
    | none => exact .inr (.inr (by simp [hr]))
    | some e =>
      by_cases hf : filter e = true
      · exact .inl ⟨e, rfl, hf, hc, by simp [hr, hf]⟩
      · exact .inr (.inr (by simp [hr, hf]))

namespace EventService

def datesMessage : String := "종료일은 시작일보다 이후여야 합니다."

def staleMessage : String :=
  "이벤트가 다른 사용자에 의해 수정되었습니다. 최신 데이터를 조회한 후 다시 시도하세요."

def lostMessage : String :=
  "이벤트가 다른 사용자에 의해 수정되었거나 삭제되었습니다. 최신 데이터를 조회한 후 다시 시도하세요."

def unknownEvent (id : String) : Failure :=
  .http .notFound s!"이벤트 ID {id}를 찾을 수 없습니다."

def findOne (c : EventCollection) (id : String) (includeDeleted : Bool := false) :
    Except Failure Event :=
  match c id with
  | some e =>
    if !includeDeleted && e.deletedAt.isSome then
      .error (unknownEvent id)
    else .ok e
  | none => .error (unknownEvent id)

theorem findOne_eq_ok {c : EventCollection} {id : String} {e : Event}
    (h : findOne c id = .ok e) : c id = some e ∧ e.deletedAt = none := by
  simp only [findOne] at h
  split at h
  next event hevent =>
    split at h
    · cases h
    next hdeleted =>
      cases h
      exact ⟨hevent, by simpa using hdeleted⟩
  next => cases h

/-- `if (dto.startDate) startDate = new Date(dto.startDate)`: the empty string is falsy. -/
def mergeDate (parse : String → JsDate) (given : Option String) (stored : Int) : JsDate :=
  match given with
  | some s => if s ≠ "" then parse s else some stored
  | none => some stored

/-- `update` up to its write: the read, the merged dates, the two checks and the
update document. A body without `updatedBy` from the caller leaves the field out. -/
def updateRead (parse : String → JsDate) (c : EventCollection) (id : String)
    (dto : UpdateEventDto) (updatedBy : Option String) (version : Rat) :
    Except Failure EventPatch :=
  match findOne c id false with
  | .error f => .error f
  | .ok event =>
    let startDate := mergeDate parse dto.startDate event.startDate
    let endDate := mergeDate parse dto.endDate event.endDate
    if JsDate.ge startDate endDate then .error (.http .badRequest datesMessage)
    else if (event.version : Rat) ≠ version then .error (.http .conflict staleMessage)
    else .ok {
      name := dto.name, description := dto.description, type := dto.type
      condition := dto.condition, status := dto.status, version := dto.version
      createdBy := dto.createdBy, deletedAt := dto.deletedAt, deletedBy := dto.deletedBy
      startDate := some startDate, endDate := some endDate
      updatedBy := updatedBy.map some }

def storeError : Failure := .native "MongoServerError"

def write (store : EventStore) (c : EventCollection) (id : String) (filter : Event → Bool)
    (patch : EventPatch) (onNull : Failure) : EventCollection × Except Failure Event :=
  match store.findOneAndUpdate c id filter patch with
  | (c', .updated e) => (c', .ok e)
  | (c', .noMatch) => (c', .error onNull)
  | (c', .refused) => (c', .error storeError)

def updateWrite (store : EventStore) (c : EventCollection) (id : String) (version : Rat)
    (patch : EventPatch) : EventCollection × Except Failure Event :=
  write store c id (fun e => decide ((e.version : Rat) = version) && e.deletedAt.isNone) patch
    (.http .conflict lostMessage)

/-- `{ id, deleted: true }`. -/
structure Removal where
  id : String
  deleted : Bool := true

def remove (store : EventStore) (c : EventCollection) (id : String) (deletedBy : Option String)
    (now : Int) : EventCollection × Except Failure Removal :=
  let (c', result) := write store c id (fun e => e.deletedAt.isNone)
    { deletedAt := some (some now), deletedBy := deletedBy.map some }
    (.http .notFound s!"이벤트 ID {id}를 찾을 수 없거나 이미 삭제되었습니다.")
  (c', result.map fun _ => { id := id })

def restore (store : EventStore) (c : EventCollection) (id : String) (restoredBy : Option String) :
    EventCollection × Except Failure Event :=
  write store c id (fun e => e.deletedAt.isSome)
    { deletedAt := some none, deletedBy := some none, updatedBy := restoredBy.map some }
    (.http .notFound s!"이벤트 ID {id}를 찾을 수 없거나 이미 삭제되지 않은 상태입니다.")

/-- What any write of the service amounts to: one commit on the document `id`
that raises its version by one, or an error with the collection as it was. -/
def CommitsOrRaises {α : Type*} (c : EventCollection) (id : String) (change : Event → Event → Prop)
    (answer : Event → α) (out : EventCollection × Except Failure α) : Prop :=
  (∃ e e', c id = some e ∧ change e e' ∧ e'.version = e.version + 1 ∧
    out = (Function.update c id (some e'), .ok (answer e'))) ∨
  ∃ f, out = (c, .error f)

theorem write_spec (store : EventStore) (c : EventCollection) (id : String)
    (filter : Event → Bool) (patch : EventPatch) (onNull : Failure) :
    CommitsOrRaises c id (fun e e' => filter e = true ∧ e' = patch.apply e) (fun e' => e')
      (write store c id filter patch onNull) := by
  unfold write
  obtain ⟨e, he, hf, -, h⟩ | h | h := store.findOneAndUpdate_cases c id filter patch
  · exact .inl ⟨e, patch.apply e, he, ⟨hf, rfl⟩, rfl, by rw [h]⟩
  · exact .inr ⟨_, by rw [h]⟩
  · exact .inr ⟨_, by rw [h]⟩

theorem CommitsOrRaises.imp {α : Type*} {c : EventCollection} {id : String}
    {change change' : Event → Event → Prop} {answer : Event → α}
    {out : EventCollection × Except Failure α} (hchange : ∀ e e', change e e' → change' e e')
    (h : CommitsOrRaises c id change answer out) : CommitsOrRaises c id change' answer out := by
  obtain ⟨e, e', he, hc, hv, ho⟩ | h := h
  · exact .inl ⟨e, e', he, hchange e e' hc, hv, ho⟩
  · exact .inr h

theorem updateWrite_spec (store : EventStore) (c : EventCollection) (id : String) (version : Rat)
    (patch : EventPatch) :
    CommitsOrRaises c id (fun e _ => (e.version : Rat) = version) (fun e' => e')
      (updateWrite store c id version patch) := by
  refine (write_spec store c id _ _ _).imp fun e e' ⟨he, _⟩ => ?_
  rw [Bool.and_eq_true, decide_eq_true_eq] at he
  exact he.1

theorem remove_spec (store : EventStore) (c : EventCollection) (id : String)
    (deletedBy : Option String) (now : Int) :
    CommitsOrRaises c id (fun e e' => e.deletedAt = none ∧ e'.deletedAt = some now)
      (fun _ => { id := id : Removal }) (remove store c id deletedBy now) := by
  unfold remove
  obtain ⟨e, e', he, ⟨hlive, rfl⟩, hv, ho⟩ | ⟨f, ho⟩ := write_spec store c id
    (fun e => e.deletedAt.isNone)
    { deletedAt := some (some now), deletedBy := deletedBy.map some }
    (.http .notFound s!"이벤트 ID {id}를 찾을 수 없거나 이미 삭제되었습니다.")
  · exact .inl ⟨e, _, he, ⟨Option.isNone_iff_eq_none.mp hlive, rfl⟩, hv, by rw [ho]; rfl⟩
  · exact .inr ⟨f, by rw [ho]; rfl⟩

theorem restore_spec (store : EventStore) (c : EventCollection) (id : String)
    (restoredBy : Option String) :
    CommitsOrRaises c id (fun e e' => e.deletedAt ≠ none ∧ e'.deletedAt = none) (fun e' => e')
      (restore store c id restoredBy) := by
  refine (write_spec store c id _ _ _).imp fun e e' ⟨he, he'⟩ => ?_
  exact ⟨Option.isSome_iff_ne_none.mp he, by rw [he']; rfl⟩

end EventService
end MsaTuto
