import MsaTuto.AuthServer
import MsaTuto.EventDates

/-! Request bodies as they come, undeclared fields and all, and the documents that registration
and the creation of an event make of them. -/
namespace MsaTuto
open Js Mongoose

/-- The two requests, with what the server itself brings to each: the salt or the caller, the
generated id and the time of creation. -/
inductive Post where
  | register (sys : AuthSystem) (salt newId : String) (now : Json)
  | events (newDate : Value → JsDate) (createdBy : Value) (newId : String) (now : Json)

namespace Post

/-- The fields of the DTO. -/
def declared : Post → List String
  | .register .. => ["name", "email", "password"]
  | .events .. => ["name", "description", "type", "condition", "startDate", "endDate", "status"]

/-- The fields that the code writes after the spread. -/
def written : Post → List String
  | .register .. => ["roles", "password", "roles"]
  | .events .. => ["startDate", "endDate", "createdBy", "status", "version", "deletedAt"]

def now : Post → Json
  | .register _ _ _ now | .events _ _ _ now => now

def object : Post → Fields → Option Fields
  | .register sys salt _ _, body =>
    UsersService.newUserObject sys salt (AuthService.createUserDto body)
  | .events newDate createdBy _ _, body =>
    EventService.createdEventObject newDate createdBy body

section Store
variable (c : Casts)

def schema : Post → List SchemaField
  | .register _ _ newId _ => userSchema c newId
  | .events _ _ newId _ => eventSchema c newId

/-- The document stored for a body, where one is, with its time of creation. -/
def store (post : Post) (body : Fields) : Option (Json × List Value) :=
  (post.object body).bind fun obj =>
    if stampable c obj then (document c obj (post.schema c)).map (createdAt c post.now obj, ·)
    else none

/-- Fields that the DTO does not declare change nothing in what is stored. -/
def IgnoresUndeclared (post : Post) : Prop :=
  ∀ body body' doc doc', (∀ key ∈ post.declared, body.lookup key = body'.lookup key) →
    post.store c body = some doc → post.store c body' = some doc' → doc = doc'

/-- The fields of the schema that the DTO does not declare and the code does not write. -/
def unguarded : Post → List SchemaField
  | .register _ _ newId _ => [isActiveField, lastLoginField c, idField c newId]
  | .events _ _ newId _ => [updatedByField c, deletedByField c, idField c newId]

/-- The field that keys of the body can reach into. -/
def container : Post → SchemaField
  | .register .. => rolesField c
  | .events .. => conditionField

/-- The value of that field before them. -/
def containerStart : Post → Fields → Value
  | .register .., _ => some userRole
  | .events .., body => body.lookup "condition"

/-- The value of that field with what the keys inside it make of it. -/
def contained (post : Post) (body : Fields) : Option Value :=
  (post.container c).fill c (post.containerStart body) ((post.container c).innerKeys body)

end Store

section Two
variable {c : Casts} {body body' obj obj' : Fields} {later : List (String × Value)}

/-- Where two bodies agree on the declared fields, the code writes the same after either. -/
theorem object_spread (post : Post)
    (hagree : ∀ key ∈ post.declared, body.lookup key = body'.lookup key)
    (h : post.object body = some obj) (h' : post.object body' = some obj') :
    ∃ later, obj = spread body later ∧ obj' = spread body' later ∧
      later.map Prod.fst = post.written := by
  cases post with
  | register sys salt newId now =>
    have hpassword := hagree "password" (by simp [declared])
    have hkeeps : ∀ body : Fields,
        (AuthService.createUserDto body).lookup "password" = body.lookup "password" :=
      fun body => lookup_spread_of_notMem (by simp) body
    have hroles : ∀ body : Fields,
        orElse ((AuthService.createUserDto body).lookup "roles") (some userRole) = some userRole :=
      fun body => by simp [AuthService.createUserDto, spread, orElse, userRole, truthy]
    simp only [object, UsersService.newUserObject, hkeeps, hroles, ← hpassword] at h h'
    split at h
    next password hstring =>
      simp only [hstring] at h'
      cases h
      cases h'
      exact ⟨[("roles", some userRole), ("password", some (.str (sys.hash password salt))),
        ("roles", some userRole)], rfl, rfl, rfl⟩
    next => cases h
  | events newDate createdBy newId now =>
    have hstart := hagree "startDate" (by simp [declared])
    have hend := hagree "endDate" (by simp [declared])
    have hstatus := hagree "status" (by simp [declared])
    simp only [object, EventService.createdEventObject, ← hstart, ← hend, ← hstatus] at h h'
    split at h
    · cases h
    next hordered =>
      rw [if_neg hordered] at h'
      cases h
      cases h'
      exact ⟨_, rfl, rfl, rfl⟩

/-- Every field of the schema is declared or written and as it stands, or it is unguarded, or keys
of the body reach into it. -/
theorem schema_cases (post : Post) {field : SchemaField} (h : field ∈ post.schema c) :
    (field.inside = .nothing ∧ (field.key ∈ post.declared ∨ field.key ∈ post.written)) ∨
      field ∈ post.unguarded c ∨ field = post.container c := by
  cases post with
  | register sys salt newId now =>
    simp only [schema, userSchema, List.mem_cons, List.not_mem_nil, or_false] at h
    rcases h with rfl | rfl | rfl | rfl | rfl | rfl | rfl
    · exact .inl ⟨rfl, .inl (by simp [nameField, declared])⟩
    · exact .inl ⟨rfl, .inl (by simp [emailField, declared])⟩
    · exact .inl ⟨rfl, .inl (by simp [passwordField, declared])⟩
    · exact .inr (.inr rfl)
    all_goals exact .inr (.inl (by simp [unguarded]))
  | events newDate createdBy newId now =>
    simp only [schema, eventSchema, List.mem_cons, List.not_mem_nil, or_false] at h
    rcases h with rfl | rfl | rfl | rfl | rfl | rfl | rfl | rfl | rfl | rfl | rfl | rfl | rfl
    · exact .inl ⟨rfl, .inl (by simp [eventNameField, declared])⟩
    · exact .inl ⟨rfl, .inl (by simp [descriptionField, declared])⟩
    · exact .inl ⟨rfl, .inl (by simp [typeField, declared])⟩
    · exact .inr (.inr rfl)
    · exact .inl ⟨rfl, .inl (by simp [startDateField, declared])⟩
    · exact .inl ⟨rfl, .inl (by simp [endDateField, declared])⟩
    · exact .inl ⟨rfl, .inl (by simp [statusField, declared])⟩
    · exact .inl ⟨rfl, .inr (by simp [createdByField, written])⟩
    · exact .inr (.inl (by simp [unguarded]))
    · exact .inl ⟨rfl, .inr (by simp [versionField, written])⟩
    · exact .inl ⟨rfl, .inr (by simp [deletedAtField, written])⟩
    all_goals exact .inr (.inl (by simp [unguarded]))

theorem unguarded_spec (post : Post) {field : SchemaField} (h : field ∈ post.unguarded c) :
    field ∈ post.schema c ∧ field.key ∉ post.written ∧ field.inside = .nothing := by
  cases post with
  | register sys salt newId now =>
    simp only [unguarded, List.mem_cons, List.not_mem_nil, or_false] at h
    rcases h with rfl | rfl | rfl
    · exact ⟨by simp [schema, userSchema], by simp [isActiveField, written], rfl⟩
    · exact ⟨by simp [schema, userSchema], by simp [lastLoginField, written], rfl⟩
    · exact ⟨by simp [schema, userSchema], by simp [idField, written], rfl⟩
  | events newDate createdBy newId now =>
    simp only [unguarded, List.mem_cons, List.not_mem_nil, or_false] at h
    rcases h with rfl | rfl | rfl
    · exact ⟨by simp [schema, eventSchema], by simp [updatedByField, written], rfl⟩
    · exact ⟨by simp [schema, eventSchema], by simp [deletedByField, written], rfl⟩
    · exact ⟨by simp [schema, eventSchema], by simp [idField, written], rfl⟩

theorem container_mem (post : Post) : post.container c ∈ post.schema c := by
  cases post <;> simp [container, schema, userSchema, eventSchema]

theorem start_container (post : Post) (hobj : post.object body = some (spread body later))
    (hkeys : later.map Prod.fst = post.written) :
    (post.container c).start (spread body later) = some (post.containerStart body) := by
  cases post with
  | register sys salt newId now =>
    have hroles : (spread body later).lookup "roles" = some userRole := by
      simp only [object, UsersService.newUserObject] at hobj
      split at hobj
      · rw [← Option.some.inj hobj]
        refine (lookup_spread_set _ [_] [] "roles" _ (by simp)).trans ?_
        simp [AuthService.createUserDto, spread, orElse, userRole, truthy]
      · cases hobj
    simp only [SchemaField.start, container, rolesField, hroles]
    rfl
  | events newDate createdBy newId now =>
    have hcondition : (spread body later).lookup "condition" = body.lookup "condition" := by
      refine lookup_spread_of_notMem (fun p hp heq => ?_) body
      have hmem : "condition" ∈ later.map Prod.fst := heq ▸ List.mem_map_of_mem hp
      rw [hkeys] at hmem
      simp [written] at hmem
    simp only [SchemaField.start, container, conditionField, hcondition, containerStart]
    cases body.lookup "condition" <;> rfl

/-- What is stored of the container: the keys inside it are all from the body. -/
theorem stored_container (post : Post) (hobj : post.object body = some (spread body later))
    (hkeys : later.map Prod.fst = post.written) {v : Value}
    (hv : (post.container c).stored c (spread body later) = some v) :
    post.contained c body = some v := by
  have hwritten : ∀ k ∈ later.map Prod.fst, keyInside (post.container c).key k = none := by
    rw [hkeys]
    cases post with
    | register sys salt newId now => exact (by decide : ∀ k ∈ ["roles", "password", "roles"],
        keyInside "roles" k = none)
    | events newDate createdBy newId now => exact (by decide : ∀ k ∈ ["startDate", "endDate",
        "createdBy", "status", "version", "deletedAt"], keyInside "condition" k = none)
  have hfresh : (post.container c).fresh = none := by cases post <;> rfl
  obtain ⟨start, hstart, hrest⟩ := Option.bind_eq_some_iff.mp hv
  obtain ⟨filled, hfill, hsettle⟩ := Option.bind_eq_some_iff.mp hrest
  rw [innerKeys_spread hwritten] at hfill
  cases (post.start_container hobj hkeys).symm.trans hstart
  rw [contained, hfill, settle_eq hfresh hsettle]

theorem store_eq_some {post : Post} {doc : Json × List Value} (h : post.store c body = some doc) :
    ∃ obj, post.object body = some obj ∧ doc.1 = createdAt c post.now obj ∧
      document c obj (post.schema c) = some doc.2 := by
  obtain ⟨obj, hobj, hdoc⟩ := Option.bind_eq_some_iff.mp h
  split at hdoc
  · obtain ⟨values, hvalues, rfl⟩ := Option.map_eq_some_iff.mp hdoc
    exact ⟨obj, hobj, rfl, hvalues⟩
  · cases hdoc

/-- For bodies that agree on all that the DTO declares, the stored documents are the same exactly
if Mongoose makes the same of the fields that nothing guards, of the time of creation and of the
keys that reach inside a field. -/
theorem undeclared_fields_iff (post : Post) {doc doc' : Json × List Value}
    (hagree : ∀ key ∈ post.declared, body.lookup key = body'.lookup key)
    (hdoc : post.store c body = some doc) (hdoc' : post.store c body' = some doc') :
    doc = doc' ↔
      (∀ field ∈ post.unguarded c, field.stored c body = field.stored c body') ∧
      createdAt c post.now body = createdAt c post.now body' ∧
      post.contained c body = post.contained c body' := by
  obtain ⟨obj, hobj, hcreated, hvalues⟩ := store_eq_some hdoc
  obtain ⟨obj', hobj', hcreated', hvalues'⟩ := store_eq_some hdoc'
  obtain ⟨later, rfl, rfl, hkeys⟩ := post.object_spread hagree hobj hobj'
  have hfree : ∀ {key : String}, key ∉ post.written → ∀ base : Fields,
      (spread base later).lookup key = base.lookup key := by
    intro key hkey base
    refine lookup_spread_of_notMem (fun p hp heq => hkey ?_) base
    rw [← hkeys, heq]
    exact List.mem_map_of_mem hp
  have htime : ∀ base : Fields,
      createdAt c post.now (spread base later) = createdAt c post.now base := by
    intro base
    have hkey : "createdAt" ∉ post.written := by cases post <;> simp [written]
    simp only [createdAt, hfree hkey base]
  have hplain : ∀ field ∈ post.unguarded c, ∀ base : Fields,
      field.stored c (spread base later) = field.stored c base := by
    intro field hfield base
    obtain ⟨-, hkey, hinside⟩ := post.unguarded_spec hfield
    exact stored_plain_congr hinside (hfree hkey base)
  obtain ⟨v, hv⟩ := stored_of_document hvalues post.container_mem
  obtain ⟨v', hv'⟩ := stored_of_document hvalues' post.container_mem
  have hcontained := post.stored_container hobj hkeys hv
  have hcontained' := post.stored_container hobj' hkeys hv'
  rw [Prod.ext_iff, hcreated, hcreated', htime, htime, document_eq_iff hvalues hvalues',
    hcontained, hcontained']
  constructor
  · rintro ⟨hsame, hall⟩
    refine ⟨fun field hfield => ?_, hsame, ?_⟩
    · rw [← hplain field hfield body, ← hplain field hfield body']
      exact hall field (post.unguarded_spec hfield).1
    · rw [← hv, ← hv', hall _ post.container_mem]
  · rintro ⟨hopen, hsame, hinner⟩
    refine ⟨hsame, fun field hfield => ?_⟩
    obtain ⟨hinside, hkey⟩ | hunguarded | rfl := post.schema_cases hfield
    · by_cases hwritten : field.key ∈ post.written
      · exact stored_plain_congr hinside
          (lookup_spread_of_mem (hkeys ▸ hwritten) body body')
      · refine stored_plain_congr hinside ?_
        rw [hfree hwritten, hfree hwritten]
        exact hagree field.key (hkey.resolve_right hwritten)
    · rw [hplain field hunguarded, hplain field hunguarded]
      exact hopen field hunguarded
    · rw [hv, hv', hinner]

end Two
end Post

section Typed

/-- The account of a registration is read off the document stored for its body. -/
theorem newUser_of_store {sys : AuthSystem} {dto : RegisterDto} {m : AuthMoment} {now : Json}
    {doc : Json × List Value}
    (h : (Post.register sys m.salt m.newId now).store sys.casts dto.body = some doc) :
    AuthService.newUser sys dto m = User.ofDocument doc.2 := by
  obtain ⟨obj, hobj, hdoc⟩ := Option.bind_eq_some_iff.mp h
  have hobj : UsersService.newUserObject sys m.salt (AuthService.createUserDto dto.body) =
      some obj := hobj
  split at hdoc
  next hstamps =>
    obtain ⟨values, hvalues, rfl⟩ := Option.map_eq_some_iff.mp hdoc
    have hvalues : document sys.casts obj (userSchema sys.casts m.newId) = some values := hvalues
    simp only [AuthService.newUser, hobj, hstamps, if_true, hvalues, Option.bind_some]
  next => cases hdoc

/-- So is the event of a creation. -/
theorem create_of_store {c : Casts} {parse : String → JsDate} {createdBy : Option String}
    {newId id : String} {now : Json} {dto : CreateEventDto} {doc : Json × List Value} {e : Event}
    (h : (Post.events (EventService.dateOf parse) (createdBy.map .str) newId now).store c dto.body =
      some doc) (hdoc : Event.ofDocument doc.2 = some (id, e)) (events : EventCollection) :
    EventService.create c parse events dto createdBy newId =
      EventService.insertEvent events id e := by
  obtain ⟨obj, hobj, hstored⟩ := Option.bind_eq_some_iff.mp h
  have hobj : EventService.createdEventObject (EventService.dateOf parse) (createdBy.map .str)
      dto.body = some obj := hobj
  split at hstored
  next hstamps =>
    obtain ⟨values, hvalues, rfl⟩ := Option.map_eq_some_iff.mp hstored
    have hvalues : document c obj (eventSchema c newId) = some values := hvalues
    simp only [EventService.create, hobj, EventService.createdEvent, hstamps, if_true, hvalues,
      Option.bind_some, hdoc]
  next => cases hstored

end Typed

section Sample

def bobPost : Post := .register (AuthSystem.ofTable []) "" "u1" (.num 5)

def bobBody (extra : Fields) : Fields :=
  [("name", .str "bob"), ("email", .str "bob@example.com"), ("password", .str "secret99")] ++ extra

def bobDocument (extra : Fields) : Json × List Value :=
  (bobPost.store .plain (bobBody extra)).getD (.null, [])

theorem bob_agrees (extra : Fields) (key : String) (h : key ∈ bobPost.declared) :
    (bobBody []).lookup key = (bobBody extra).lookup key := by
  simp only [bobPost, Post.declared, List.mem_cons, List.not_mem_nil, or_false] at h
  rcases h with rfl | rfl | rfl <;> rfl

theorem nickname_changes_nothing : bobDocument [] = bobDocument [("nickname", .str "b")] := by
  have hplain : bobPost.store .plain (bobBody []) = some (bobDocument []) := rfl
  have hnamed : bobPost.store .plain (bobBody [("nickname", .str "b")]) =
      some (bobDocument [("nickname", .str "b")]) := rfl
  refine (bobPost.undeclared_fields_iff (bob_agrees _) hplain hnamed).mpr ⟨fun field hfield => ?_,
    rfl, rfl⟩
  simp only [bobPost, Post.unguarded, List.mem_cons, List.not_mem_nil, or_false] at hfield
  rcases hfield with rfl | rfl | rfl <;> rfl

def newDay : Value → JsDate
  | some (.str "2025-01-01") => some 1735689600000
  | some (.str "2025-01-02") => some 1735776000000
  | _ => none

def dayPost : Post := .events newDay (some (.str "u1")) "e1" (.num 5)

def dayBody (extra : Fields) : Fields :=
  [("name", .str "day"), ("description", .str "one day"), ("type", .str "LOGIN"),
    ("condition", .obj [("type", .str "login"), ("value", .num 1)]),
    ("startDate", .str "2025-01-01"), ("endDate", .str "2025-01-02"),
    ("status", .str "ACTIVE")] ++ extra

theorem day_agrees (extra : Fields) (key : String) (h : key ∈ dayPost.declared) :
    (dayBody []).lookup key = (dayBody extra).lookup key := by
  simp only [dayPost, Post.declared, List.mem_cons, List.not_mem_nil, or_false] at h
  rcases h with rfl | rfl | rfl | rfl | rfl | rfl | rfl <;> rfl

/-- A registration that makes its account inactive, one that makes it an administrator's, and an
event that says who deleted it. -/
theorem undeclared_fields_stored :
    (bobPost.store .plain (bobBody [("isActive", .bool false)])).map (·.2[4]?) =
        some (some (some (.bool false))) ∧
      (bobPost.store .plain (bobBody [("roles.0", .str "ADMIN")])).map (·.2[3]?) =
        some (some (some (.arr [.str "ADMIN"]))) ∧
      ¬bobPost.IgnoresUndeclared .plain ∧ ¬dayPost.IgnoresUndeclared .plain := by
  refine ⟨rfl, rfl, fun h => ?_, fun h => ?_⟩
  · have hsame := h _ (bobBody [("isActive", .bool false)]) _ _ (bob_agrees _) rfl rfl
    have hactive : (some (some (.bool true)) : Option Value) = some (some (.bool false)) :=
      congrArg (·.2[4]?) hsame
    cases hactive
  · have hsame := h _ (dayBody [("deletedBy", .str "u2")]) _ _ (day_agrees _) rfl rfl
    have hdeleted : (some none : Option Value) = some (some (.str "u2")) :=
      congrArg (·.2[11]?) hsame
    cases hdeleted

end Sample
end MsaTuto
