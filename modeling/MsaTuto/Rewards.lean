import MsaTuto.EventSchema
import MsaTuto.PageCoverage
import MsaTuto.RewardOnce

/-! The rewards of the events: `reward.schema.ts`, `create-reward.dto.ts` and
`reward.service.ts`. -/
namespace MsaTuto
open Js Mongoose RewardRequestService

inductive RewardType where
  | COUPON | ITEM
  deriving DecidableEq, Repr

def RewardType.value : RewardType → String
  | .COUPON => "COUPON"
  | .ITEM => "ITEM"

def RewardType.ofValue (s : String) : Option RewardType :=
  [RewardType.COUPON, .ITEM].find? fun type => type.value = s

theorem RewardType.ofValue_value (type : RewardType) :
    RewardType.ofValue type.value = some type := by
  cases type <;> decide

structure Reward where
  id : String
  name : String
  description : Option String
  type : RewardType
  quantity : Rat
  eventId : String
  metadata : Value
  createdBy : String
  updatedBy : Option String

/-- A body that the decorators let through; `@IsOptional` does so for a description that is `null`.
Fields the DTO does not declare stay in it without `whitelist`. -/
structure CreateRewardDto where
  name : String
  description : Option (Option String) := none
  type : RewardType
  quantity : Rat
  eventId : String
  metadata : Value := none
  undeclared : Fields := []
  name_ok : name ≠ "" := by decide
  quantity_min : 1 ≤ quantity := by decide
  eventId_mongo : isMongoId eventId = true := by decide

def CreateRewardDto.body (dto : CreateRewardDto) : Fields :=
  spread dto.undeclared [("name", some (.str dto.name)),
    ("description", dto.description.map fun text => (text.map Json.str).getD .null),
    ("type", some (.str dto.type.value)), ("quantity", some (.num dto.quantity)),
    ("eventId", some (.str dto.eventId)), ("metadata", dto.metadata)]

-- `createdBy` and `updatedBy` are declared as those of the events are.
namespace RewardSchema
variable (c : Casts)

def nameField : SchemaField := { key := "name", cast := castString c, valid := filled }

def descriptionField : SchemaField := { key := "description", cast := castString c }

def typeField : SchemaField where
  key := "type"
  cast := castString c
  valid v := filled v && oneOf [RewardType.COUPON.value, RewardType.ITEM.value] v

def quantityField : SchemaField :=
  { key := "quantity", cast := castNumber c, valid := Mongoose.given }

/-- The service gives the field an ObjectId itself. -/
def eventIdField : SchemaField := { key := "eventId", cast := some, valid := Mongoose.given }

def metadataField : SchemaField := { key := "metadata", cast := some, inside := .anything }

def rewardSchema (newId : String) : List SchemaField :=
  [nameField c, descriptionField c, typeField c, quantityField c, eventIdField, metadataField,
    createdByField c, updatedByField c, idField c newId]

end RewardSchema

def Reward.ofDocument : List Value → Option Reward
  | [some (.str name), description, some (.str type), some (.num quantity), some (.str eventId),
      metadata, some (.str createdBy), updatedBy, some (.str id)] =>
    (RewardType.ofValue type).map fun type => {
      id := id, name := name, description := storedText description, type := type
      quantity := quantity, eventId := eventId, metadata := metadata, createdBy := createdBy
      updatedBy := storedText updatedBy }
  | _ => none

structure RewardCollection where
  items : List Reward
  unique : (items.map (·.id)).Nodup

namespace RewardCollection

def empty : RewardCollection := ⟨[], List.nodup_nil⟩

def insert (c : RewardCollection) (doc : Reward) (h : doc.id ∉ c.items.map (·.id)) :
    RewardCollection where
  items := c.items ++ [doc]
  unique := by
    rw [List.map_append]
    refine List.Nodup.append c.unique (List.nodup_singleton _) ?_
    intro id hid hdoc
    rw [List.mem_singleton.mp hdoc] at hid
    exact h hid

/-- `save` of a new document, refused when its `_id` is taken. -/
def save (c : RewardCollection) (doc : Reward) : Except Failure RewardCollection :=
  if h : doc.id ∉ c.items.map (·.id) then .ok (c.insert doc h)
  else .error RequestCollection.duplicateKeyError

end RewardCollection

namespace RewardService
open RewardSchema

def invalidEvent (eventId : String) : Failure :=
  .http .badRequest s!"유효하지 않은 이벤트 ID: {eventId}"

/-- The object of `create`. -/
def newRewardObject (dto : CreateRewardDto) (eventId : String) (createdBy : Option String) :
    Fields :=
  spread dto.body [("eventId", some (.str eventId)), ("createdBy", createdBy.map .str)]

section Service
variable (c : Casts) (objectId : String → Option String)

/-- `new this.rewardModel({ ...createRewardDto, eventId, createdBy })`, or the error its `save`
raises for a field that is required or cannot be cast. -/
def newReward (dto : CreateRewardDto) (createdBy : Option String) (newId : String) :
    Except Failure Reward :=
  match objectId dto.eventId with
  | none => .error bsonError
  | some eventId =>
    let obj := newRewardObject dto eventId createdBy
    if stampable c obj then
      match (document c obj (rewardSchema c newId)).bind Reward.ofDocument with
      | some doc => .ok doc
      | none => .error EventService.validationError
    else .error EventService.validationError

/-- `create` up to its save. Whatever the lookup throws is answered as an invalid id. -/
def create (events : EventCollection) (dto : CreateRewardDto) (createdBy : Option String)
    (newId : String) : Except Failure Reward :=
  match findEvent objectId events dto.eventId with
  | .ok _ => newReward c objectId dto createdBy newId
  | .error _ => .error (invalidEvent dto.eventId)

def findOne (rewards : RewardCollection) (id : String) : Except Failure Reward :=
  match objectId id with
  | none => .error bsonError
  | some rewardId =>
    match rewards.items.find? fun r => decide (r.id = rewardId) with
    | some reward => .ok reward
    | none => .error (.http .notFound s!"보상 ID {id}를 찾을 수 없습니다.")

/-- The document says of the reward what the body and the caller say. -/
structure Describes (dto : CreateRewardDto) (createdBy : Option String) (r : Reward) : Prop where
  /-- The `_id` that the body asks for, else a new one. -/
  id : ∃ newId, (idField c newId).stored c dto.undeclared = some (some (.str r.id))
  name : r.name = dto.name
  description : r.description = dto.description.join
  type : r.type = dto.type
  quantity : r.quantity = dto.quantity
  event : objectId dto.eventId = some r.eventId
  /-- With what keys of the body such as `metadata.code` put into it. -/
  metadata : metadataField.fill c dto.metadata (metadataField.innerKeys dto.undeclared) =
    some r.metadata
  creator : createdBy = some r.createdBy
  named : r.createdBy ≠ ""
  updatedBy : ∃ v, (updatedByField c).stored c dto.undeclared = some v ∧
    r.updatedBy = storedText v

variable {c objectId} {events : EventCollection} {dto : CreateRewardDto}
  {createdBy : Option String} {newId eventId : String} {r : Reward}

theorem lookup_body_undeclared {k : String}
    (h : k ∉ ["name", "description", "type", "quantity", "eventId", "metadata"]) :
    dto.body.lookup k = dto.undeclared.lookup k := by
  refine lookup_spread_of_notMem (fun p hp hk => h ?_) dto.undeclared
  rw [hk]
  exact List.mem_map_of_mem (f := Prod.fst) hp

theorem lookup_newRewardObject {k : String} (h : k ∉ ["eventId", "createdBy"]) :
    (newRewardObject dto eventId createdBy).lookup k = dto.body.lookup k := by
  refine lookup_spread_of_notMem (fun p hp hk => h ?_) dto.body
  rw [hk]
  exact List.mem_map_of_mem (f := Prod.fst) hp

variable (dto) in
theorem lookup_declared : dto.body.lookup "name" = some (.str dto.name) ∧
    dto.body.lookup "description" =
      (dto.description.map fun text => (text.map Json.str).getD .null) ∧
    dto.body.lookup "type" = some (.str dto.type.value) ∧
    dto.body.lookup "quantity" = some (.num dto.quantity) ∧
    dto.body.lookup "metadata" = dto.metadata :=
  ⟨lookup_spread_set _ [] [_, _, _, _, _] _ _ (by simp),
    lookup_spread_set _ [_] [_, _, _, _] _ _ (by simp),
    lookup_spread_set _ [_, _] [_, _, _] _ _ (by simp),
    lookup_spread_set _ [_, _, _] [_, _] _ _ (by simp),
    lookup_spread_set _ [_, _, _, _, _] [] _ _ (by simp)⟩

variable (dto createdBy eventId) in
theorem lookup_written :
    (newRewardObject dto eventId createdBy).lookup "eventId" = some (.str eventId) ∧
      (newRewardObject dto eventId createdBy).lookup "createdBy" = createdBy.map .str :=
  ⟨lookup_spread_set _ [] [_] _ _ (by simp), lookup_spread_set _ [_] [] _ _ (by simp)⟩

variable (dto createdBy eventId) in
/-- No field that the code writes or the DTO declares is inside the metadata. -/
theorem innerKeys_newRewardObject :
    metadataField.innerKeys (newRewardObject dto eventId createdBy) =
      metadataField.innerKeys dto.undeclared := by
  have hwritten : ∀ k ∈ ["eventId", "createdBy"], keyInside "metadata" k = none := by decide
  have hdeclared : ∀ k ∈ ["name", "description", "type", "quantity", "eventId", "metadata"],
      keyInside "metadata" k = none := by decide
  calc
    metadataField.innerKeys (newRewardObject dto eventId createdBy)
        = metadataField.innerKeys dto.body := by
          rw [newRewardObject, innerKeys_spread (by exact hwritten)]
    _ = metadataField.innerKeys dto.undeclared := by
      rw [CreateRewardDto.body, innerKeys_spread (by exact hdeclared)]

theorem ofDocument_eq_some {doc : List Value} (h : Reward.ofDocument doc = some r) :
    ∃ description type updatedBy, RewardType.ofValue type = some r.type ∧
      doc = [some (.str r.name), description, some (.str type), some (.num r.quantity),
        some (.str r.eventId), r.metadata, some (.str r.createdBy), updatedBy,
        some (.str r.id)] ∧
      r.description = storedText description ∧ r.updatedBy = storedText updatedBy := by
  unfold Reward.ofDocument at h
  split at h
  next name description type quantity eventId metadata createdBy updatedBy id =>
    obtain ⟨read, hread, rfl⟩ := Option.map_eq_some_iff.mp h
    exact ⟨description, type, updatedBy, hread, rfl, rfl, rfl⟩
  next => cases h

/-- A description is stored as it is sent, and `null` is read as a missing one is. -/
theorem description_of_stored {obj : Fields} {w : Value} {description : Option (Option String)}
    (hlookup : obj.lookup "description" =
      description.map fun text => (text.map Json.str).getD .null)
    (h : (RewardSchema.descriptionField c).stored c obj = some w) :
    storedText w = description.join := by
  cases description with
  | none =>
    have hnone : obj.lookup (RewardSchema.descriptionField c).key = none := hlookup
    rw [stored_nothing rfl, SchemaField.start, hnone] at h
    have hstored : w = none := settle_eq rfl h
    rw [hstored]
    rfl
  | some text =>
    cases text with
    | none =>
      rw [stored_kept rfl rfl hlookup rfl h]
      rfl
    | some text =>
      rw [stored_kept rfl rfl hlookup rfl h]
      rfl

theorem newReward_ok (h : newReward c objectId dto createdBy newId = .ok r) :
    ∃ eventId doc, objectId dto.eventId = some eventId ∧ Reward.ofDocument doc = some r ∧
      document c (newRewardObject dto eventId createdBy) (rewardSchema c newId) = some doc := by
  unfold newReward at h
  cases hevent : objectId dto.eventId with
  | none => simp [hevent] at h
  | some eventId =>
    simp only [hevent] at h
    split at h
    · split at h
      next read hread =>
        cases h
        obtain ⟨doc, hdoc, hreward⟩ := Option.bind_eq_some_iff.mp hread
        exact ⟨eventId, doc, rfl, hreward, hdoc⟩
      next => cases h
    · cases h

theorem describes_of_newReward (h : newReward c objectId dto createdBy newId = .ok r) :
    Describes c objectId dto createdBy r := by
  obtain ⟨eventId, doc, hevent, hreward, hdoc⟩ := newReward_ok h
  obtain ⟨description, type, updatedBy, htypeRead, rfl, hdescriptionRead, hupdatedRead⟩ :=
    ofDocument_eq_some hreward
  rw [document_eq_some] at hdoc
  simp only [rewardSchema, List.forall₂_cons, List.forall₂_nil_left_iff, and_true] at hdoc
  obtain ⟨hname, hdescription, htype, hquantity, heventId, hmetadata, hcreator, hupdated, hid⟩ :=
    hdoc
  obtain ⟨hname', hdescription', htype', hquantity', hmetadata'⟩ := lookup_declared dto
  obtain ⟨heventId', hcreator'⟩ := lookup_written dto createdBy eventId
  have hbefore : ∀ k, k ∉ ["eventId", "createdBy"] →
      (newRewardObject dto eventId createdBy).lookup k = dto.body.lookup k :=
    fun k hk => lookup_newRewardObject hk
  have hinside := innerKeys_newRewardObject dto createdBy eventId
  generalize newRewardObject dto eventId createdBy = obj at *
  have hname := stored_kept rfl rfl ((hbefore "name" (by decide)).trans hname') rfl hname
  have htype := stored_kept rfl rfl ((hbefore "type" (by decide)).trans htype') rfl htype
  have hquantity := stored_kept rfl rfl ((hbefore "quantity" (by decide)).trans hquantity') rfl
    hquantity
  have heventId := stored_kept rfl rfl heventId' rfl heventId
  have hdescription := description_of_stored
    ((hbefore "description" (by decide)).trans hdescription') hdescription
  have hmetadata := fill_of_stored (fun _ => rfl) rfl rfl
    ((hbefore "metadata" (by decide)).trans hmetadata') hmetadata
  have hupdated := (stored_plain_congr rfl ((hbefore "updatedBy" (by decide)).trans
    (lookup_body_undeclared (by decide)))).symm.trans hupdated
  have hid := (stored_plain_congr rfl ((hbefore "_id" (by decide)).trans
    (lookup_body_undeclared (by decide)))).symm.trans hid
  have hnamed : filled (some (.str r.createdBy)) = true := valid_of_stored rfl hcreator
  cases htype
  exact {
    id := ⟨newId, hid⟩
    name := by simpa using hname
    description := hdescriptionRead.trans hdescription
    type := Option.some.inj (htypeRead.symm.trans (RewardType.ofValue_value dto.type))
    quantity := by simpa using hquantity
    event := by
      rw [hevent]
      simpa [eq_comm] using heventId
    metadata := hinside ▸ hmetadata
    creator := EventService.creator_of_stored hcreator' hcreator
    named := by
      rintro hempty
      simp [hempty, filled] at hnamed
    updatedBy := ⟨updatedBy, hupdated, hupdatedRead⟩ }

theorem create_ok (h : create c objectId events dto createdBy newId = .ok r) :
    Describes c objectId dto createdBy r ∧
      ∃ e, events r.eventId = some e ∧ e.deletedAt = none := by
  unfold create at h
  cases hfind : findEvent objectId events dto.eventId with
  | error f => simp [hfind] at h
  | ok e =>
    simp only [hfind] at h
    have hdescribes := describes_of_newReward h
    obtain ⟨eventId, hselect, hevent, hdeleted⟩ := findEvent_eq_ok hfind
    cases (EventIds.select_ofText.mp hselect).1.symm.trans hdescribes.event
    exact ⟨hdescribes, e, hevent, hdeleted⟩

end Service
end RewardService
end MsaTuto
