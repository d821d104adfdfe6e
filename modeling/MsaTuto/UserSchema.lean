import Mathlib.Data.List.Forall2
import MsaTuto.Tokens

/-! The account that a registration makes: the spreads of `auth.service.ts` and `users.service.ts`,
and the document that `user.schema.ts` lets Mongoose make of the result. -/
namespace MsaTuto
open Js Mongoose

/-- The body of a registration. Fields the DTO does not declare stay in it without `whitelist`. -/
structure RegisterDto where
  name : String
  email : String
  password : String
  undeclared : Fields := []

def RegisterDto.body (dto : RegisterDto) : Fields :=
  [("name", .str dto.name), ("email", .str dto.email), ("password", .str dto.password)] ++
    dto.undeclared

/-- The body names an `_id`, and names `null`. -/
def RegisterDto.nullId (dto : RegisterDto) : Bool :=
  match dto.undeclared.lookup "_id" with
  | some .null => true
  | _ => false

def userRole : Json := .arr [.str Role.USER.value]

/-- `{ ...registerDto, roles: [Role.USER] }`. -/
def AuthService.createUserDto (registerDto : Fields) : Fields :=
  spread registerDto [("roles", some userRole)]

/-- The object of `UsersService.create`; only a string can be hashed. -/
def UsersService.newUserObject (sys : AuthSystem) (salt : String) (createUserDto : Fields) :
    Option Fields :=
  match createUserDto.lookup "password" with
  | some (.str password) => some (spread createUserDto
      [("password", some (.str (sys.hash password salt))),
        ("roles", orElse (createUserDto.lookup "roles") (some userRole))])
  | _ => none

def Role.values : List String := [Role.USER, .OPERATOR, .AUDITOR, .ADMIN].map Role.value

section Schema
variable (c : Casts)

/-- An element of `[String]` with `enum: Role`. -/
def castRole (v : Json) : Option Json :=
  (castString c v).bind fun cast => if oneOf Role.values (some cast) then some cast else none

def nameField : SchemaField := { key := "name", cast := castString c, valid := filled }

def emailField : SchemaField := { key := "email", cast := castString c, valid := filled }

def passwordField : SchemaField := { key := "password", cast := castString c, valid := filled }

/-- The services give the field an array of roles themselves. -/
def rolesField : SchemaField where
  key := "roles"
  cast := some
  default := some userRole
  inside := .elements (castRole c)

def isActiveField : SchemaField :=
  { key := "isActive", cast := castBoolean, default := some (.bool true) }

def lastLoginField : SchemaField := { key := "lastLogin", cast := castDate c }

def userSchema (newId : String) : List SchemaField :=
  [nameField c, emailField c, passwordField c, rolesField c, isActiveField, lastLoginField c,
    idField c newId]

end Schema

section Reading

/-- An entry of a stored role list; the outer option says whether it can be one. -/
def roleEntry : Json → Option (Option Role)
  | .null => some none
  | .str s => (Role.ofValue s).map some
  | _ => none

def roleEntries : List Json → Option (List (Option Role))
  | [] => some []
  | v :: vs =>
    match roleEntry v, roleEntries vs with
    | some role, some roles => some (role :: roles)
    | _, _ => none

theorem roleEntry_some {v : Json} {role : Role} (h : roleEntry v = some (some role)) :
    v = .str role.value := by
  unfold roleEntry at h
  split at h
  · cases h
  next s =>
    obtain ⟨role', hfound, hsame⟩ := Option.map_eq_some_iff.mp h
    cases hsame
    rw [Role.value_of_ofValue hfound]
  · cases h

theorem str_mem_of_roleEntries {vs : List Json} {roles : List (Option Role)} {role : Role}
    (h : roleEntries vs = some roles) (hrole : some role ∈ roles) : .str role.value ∈ vs := by
  induction vs generalizing roles with
  | nil =>
    cases h
    cases hrole
  | cons v vs ih =>
    simp only [roleEntries] at h
    split at h
    next entry rest hentry hrest =>
      cases h
      obtain rfl | hrole := List.mem_cons.mp hrole
      · rw [roleEntry_some hentry]
        exact List.mem_cons_self
      · exact List.mem_cons_of_mem v (ih hrest hrole)
    next => cases h

/-- The account that a document of the schema holds; an insert starts the version key at zero. -/
def User.ofDocument : List Value → Option User
  | [some (.str name), some (.str email), some (.str password), some (.arr roles), isActive,
      lastLogin, some (.str id)] =>
    (roleEntries roles).map fun roles =>
      { id := id, name := name, email := email, password := password, roles := roles
        isActive := truthy isActive, lastLogin := storedTime lastLogin }
  | _ => none

theorem User.ofDocument_eq_some {doc : List Value} {user : User}
    (h : User.ofDocument doc = some user) : ∃ entries isActive lastLogin,
      doc = [some (.str user.name), some (.str user.email), some (.str user.password),
        some (.arr entries), isActive, lastLogin, some (.str user.id)] ∧
      roleEntries entries = some user.roles ∧ user.isActive = truthy isActive ∧
      user.lastLogin = storedTime lastLogin ∧ user.version = 0 := by
  unfold User.ofDocument at h
  split at h
  next entries isActive lastLogin id =>
    obtain ⟨roles, hroles, rfl⟩ := Option.map_eq_some_iff.mp h
    exact ⟨entries, isActive, lastLogin, rfl, hroles, rfl, rfl, rfl⟩
  next => cases h

end Reading

/-- What a turn is given: whether its database or Redis step fails, the id and the salt of
a user it may create, and the strings it gets signed. -/
structure AuthMoment where
  fault : Bool := false
  newId : String := ""
  salt : String := ""
  accessToken : String := ""
  refreshToken : String := ""

namespace AuthService
variable (sys : AuthSystem)

/-- The account of a registration; `none` when Mongoose refuses a value of the body. -/
def newUser (dto : RegisterDto) (m : AuthMoment) : Option User :=
  match UsersService.newUserObject sys m.salt (createUserDto dto.body) with
  | some obj =>
    if stampable sys.casts obj then
      (document sys.casts obj (userSchema sys.casts m.newId)).bind User.ofDocument
    else none
  | none => none

variable {sys} {dto : RegisterDto} {m : AuthMoment} {user : User}

/-- The object handed to Mongoose. -/
def newUserObject (sys : AuthSystem) (salt : String) (dto : RegisterDto) : Fields :=
  spread dto.body [("roles", some userRole),
    ("password", some (.str (sys.hash dto.password salt))), ("roles", some userRole)]

/-- Through both spreads, whatever the body says. -/
theorem newUserObject_body (sys : AuthSystem) (salt : String) (dto : RegisterDto) :
    UsersService.newUserObject sys salt (createUserDto dto.body) =
      some (newUserObject sys salt dto) := by
  have hpassword : (createUserDto dto.body).lookup "password" = some (.str dto.password) := by
    rw [createUserDto, lookup_spread_of_notMem (by simp)]
    simp [RegisterDto.body, lookup_cons_other]
  have hroles :
      orElse ((createUserDto dto.body).lookup "roles") (some userRole) = some userRole := by
    simp [createUserDto, spread, orElse, userRole, truthy]
  simp only [UsersService.newUserObject, hpassword, hroles]
  rfl

theorem lookup_undeclared {k : String} (h : k ∉ ["name", "email", "password", "roles"])
    (sys : AuthSystem) (salt : String) (dto : RegisterDto) :
    (newUserObject sys salt dto).lookup k = dto.undeclared.lookup k := by
  simp only [List.mem_cons, List.not_mem_nil, or_false, not_or] at h
  obtain ⟨hname, hemail, hpassword, hroles⟩ := h
  rw [newUserObject, lookup_spread_of_notMem (by simp [hpassword, hroles])]
  simp [RegisterDto.body, lookup_cons_other, hname, hemail, hpassword]

theorem lookup_newUserObject (sys : AuthSystem) (salt : String) (dto : RegisterDto) :
    (newUserObject sys salt dto).lookup "name" = some (.str dto.name) ∧
    (newUserObject sys salt dto).lookup "email" = some (.str dto.email) ∧
    (newUserObject sys salt dto).lookup "password" = some (.str (sys.hash dto.password salt)) ∧
    (newUserObject sys salt dto).lookup "roles" = some userRole := by
  refine ⟨?_, ?_, lookup_spread_set _ [("roles", _)] [("roles", _)] _ _ (by simp),
    lookup_spread_set _ [("roles", _), ("password", _)] [] _ _ (by simp)⟩
  · rw [newUserObject, lookup_spread_of_notMem (by simp)]
    rfl
  · rw [newUserObject, lookup_spread_of_notMem (by simp)]
    rfl

/-- No field that the code writes or the DTO declares is inside the roles. -/
theorem innerKeys_undeclared (sys : AuthSystem) (salt : String) (dto : RegisterDto) :
    (rolesField sys.casts).innerKeys (newUserObject sys salt dto) =
      (rolesField sys.casts).innerKeys dto.undeclared := by
  have hdeclared : (rolesField sys.casts).innerKeys [("name", .str dto.name),
      ("email", .str dto.email), ("password", .str dto.password)] = [] := by
    simp [SchemaField.innerKeys, rolesField, keyInside]
    decide
  have hwritten : ∀ k ∈ ["roles", "password", "roles"], keyInside "roles" k = none := by decide
  rw [newUserObject, innerKeys_spread (by exact hwritten)]
  calc
    (rolesField sys.casts).innerKeys dto.body
        = (rolesField sys.casts).innerKeys [("name", .str dto.name), ("email", .str dto.email),
            ("password", .str dto.password)] ++
          (rolesField sys.casts).innerKeys dto.undeclared := List.filterMap_append
    _ = (rolesField sys.casts).innerKeys dto.undeclared := by rw [hdeclared, List.nil_append]

/-- What is known of the account that a registration makes. -/
structure Makes (sys : AuthSystem) (dto : RegisterDto) (m : AuthMoment) (user : User) : Prop where
  name : user.name = dto.name
  email : user.email = dto.email
  password : user.password = sys.hash dto.password m.salt
  version : user.version = 0
  /-- The roles are that of a user, and what keys such as `roles.0` put in their place. -/
  roles : ∃ entries, (rolesField sys.casts).fill sys.casts (some userRole)
    ((rolesField sys.casts).innerKeys dto.undeclared) = some (some (.arr entries)) ∧
    roleEntries entries = some user.roles
  isActive : ∃ v, isActiveField.start dto.undeclared = some v ∧ user.isActive = truthy v

theorem makes_of_newUser (h : newUser sys dto m = some user) : Makes sys dto m user := by
  simp only [newUser, newUserObject_body] at h
  split at h
  next hstamps =>
    obtain ⟨doc, hdoc, huser⟩ := Option.bind_eq_some_iff.mp h
    obtain ⟨entries, isActive, lastLogin, rfl, hentries, hactive, -, hversion⟩ :=
      User.ofDocument_eq_some huser
    rw [document_eq_some] at hdoc
    simp only [userSchema, List.forall₂_cons, List.forall₂_nil_left_iff, and_true] at hdoc
    obtain ⟨hname, hemail, hpassword, hroles, hisActive, -⟩ := hdoc
    rw [stored_nothing rfl] at hisActive
    obtain ⟨v, hstart, hsettle⟩ := Option.bind_eq_some_iff.mp hisActive
    obtain rfl := settle_eq rfl hsettle
    have hobject := lookup_newUserObject sys m.salt dto
    have hname := stored_kept rfl rfl hobject.1 rfl hname
    have hemail := stored_kept rfl rfl hobject.2.1 rfl hemail
    have hpassword := stored_kept rfl rfl hobject.2.2.1 rfl hpassword
    obtain ⟨start, hroot, hroles⟩ := Option.bind_eq_some_iff.mp hroles
    obtain ⟨filled, hfill, hsettled⟩ := Option.bind_eq_some_iff.mp hroles
    have hstarts : start = some userRole := by
      have hfound := hobject.2.2.2
      simp only [SchemaField.start, rolesField, hfound] at hroot
      exact (Option.some.inj hroot).symm
    have hfilled : some (.arr entries) = filled := settle_eq rfl hsettled
    rw [hstarts, innerKeys_undeclared, ← hfilled] at hfill
    refine ⟨by simpa using hname, by simpa using hemail, by simpa using hpassword, hversion,
      ⟨entries, hfill, hentries⟩, isActive, ?_, hactive⟩
    have hsent := lookup_undeclared (k := "isActive") (by decide) sys m.salt dto
    simpa only [SchemaField.start, isActiveField, hsent] using hstart
  next => cases h

/-- A key of the body such as `roles.0` has a value that is stored as the role. -/
def SendsRole (c : Casts) (dto : RegisterDto) (role : Role) : Prop :=
  ∃ p ∈ (rolesField c).innerKeys dto.undeclared,
    (arrayIndex p.1).isSome = true ∧ castRole c p.2 = some (.str role.value)

/-- Beyond the role of a user, an account starts with no role that its registration did not send
for an element of the list. -/
theorem Makes.role (h : Makes sys dto m user) {role : Role} (hrole : some role ∈ user.roles) :
    role = .USER ∨ SendsRole sys.casts dto role := by
  obtain ⟨entries, hfill, hentries⟩ := h.roles
  refine fill_rule (P := fun v => ∀ xs, v = some (.arr xs) → Json.str role.value ∈ xs →
    role = .USER ∨ SendsRole sys.casts dto role) ?_ hfill ?_ entries rfl
    (str_mem_of_roleEntries hentries hrole)
  · intro p hp v v' hset hv xs hxs hmem
    subst hxs
    simp only [SchemaField.setInside, rolesField] at hset
    split at hset
    next =>
      obtain ⟨cast, hcast, hset⟩ := Option.map_eq_some_iff.mp hset
      split at hset
      next ys i hindex _ =>
        cases hset
        obtain hold | hnew | hnull := mem_setElement hmem
        · exact hv ys rfl hold
        · exact .inr ⟨p, hp, Option.isSome_of_eq_some hindex, hnew ▸ hcast⟩
        · cases hnull
      next => exact hv xs hset hmem
    next =>
      cases hset
      exact hv xs rfl hmem
  · intro xs hxs hmem
    cases hxs
    have hvalue : role.value = Role.USER.value := by simpa using hmem
    exact .inl (Role.value_injective hvalue)

end AuthService
end MsaTuto
