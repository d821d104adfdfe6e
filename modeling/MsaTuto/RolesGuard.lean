import MsaTuto.RoleChecks

/-! `RolesGuard` of the gateway over the texts that its decorators and its tokens carry: what it
decides for required roles and required permissions together. -/
namespace MsaTuto

namespace RolesService

/-- `getRolePermissions` on any text: the `switch` with its `default`. -/
def permissionsOf (role : String) : List String :=
  match Role.ofValue role with
  | some role => getRolePermissions role
  | none => []

def grants (role permission : String) : Prop :=
  permission ∈ permissionsOf role ∨ "all" ∈ permissionsOf role

theorem permissionsOf_value (role : Role) :
    permissionsOf role.value = getRolePermissions role := by
  rw [permissionsOf, Role.ofValue_value]

theorem grants_value (role : Role) (permission : String) :
    grants role.value permission ↔ validateRolePermission role permission = true := by
  simp [grants, permissionsOf_value, validateRolePermission]

end RolesService

/-- The user that the strategy puts on the request, as far as the guard reads it. -/
structure GuardedUser where
  roles : Option (List String)

def JwtUserDto.guarded (user : JwtUserDto) : GuardedUser :=
  ⟨user.roles.map fun roles => roles.map Role.value⟩

namespace RolesGuard

def getUserPermissions (userRoles : List String) : List String :=
  (userRoles.flatMap RolesService.permissionsOf).eraseDups

def checkPermissions (requiredPermissions : Option (List String)) (roles : List String) :
    Except Failure Bool :=
  let permissions := requiredPermissions.getD []
  if permissions ≠ [] ∧ ¬∃ permission ∈ permissions,
      permission ∈ getUserPermissions roles ∨ "all" ∈ getUserPermissions roles then
    .error (.http .forbidden "필요한 권한이 없습니다")
  else .ok true

/-- From `requiredRoles.some` on, which throws where there are no required roles; the second
comparison of the roles is the same once more. -/
def checkRoles (requiredRoles requiredPermissions : Option (List String)) (roles : List String) :
    Except Failure Bool :=
  match requiredRoles with
  | none => .error typeError
  | some required =>
    if ¬∃ role ∈ required, role ∈ roles then
      .error (.http .forbidden ("User does not have sufficient permissions. Required roles: " ++
        ", ".intercalate required))
    else if required ≠ [] ∧ ¬∃ role ∈ required, role ∈ roles then
      .error (.http .forbidden "필요한 역할이 없습니다")
    else checkPermissions requiredPermissions roles

def canActivate (requiredRoles requiredPermissions : Option (List String))
    (user : Option GuardedUser) : Except Failure Bool :=
  if requiredRoles.getD [] = [] ∧ requiredPermissions.getD [] = [] then .ok true
  else
    match user.bind GuardedUser.roles with
    | none => .error (.http .forbidden "User has no roles")
    | some roles =>
      if Role.ADMIN.value ∈ roles then .ok true
      else checkRoles requiredRoles requiredPermissions roles

end RolesGuard

section Roles
variable {requiredRoles requiredPermissions : Option (List String)} {user : Option GuardedUser}
  {roles : List String}

/-- What is required holds of the roles: nothing is, or one of the list. -/
def Meets {α : Type*} (required : Option (List α)) (holds : α → Prop) : Prop :=
  required.getD [] = [] ∨ ∃ x ∈ required.getD [], holds x

/-- Some role of the list grants the permission. -/
def SomeRoleGrants (roles : List String) (permission : String) : Prop :=
  ∃ role ∈ roles, RolesService.grants role permission

/-- Whom the guard should let pass. -/
def Permitted (requiredRoles requiredPermissions : Option (List String))
    (user : Option GuardedUser) : Prop :=
  (requiredRoles.getD [] = [] ∧ requiredPermissions.getD [] = []) ∨
  ∃ roles, user.bind GuardedUser.roles = some roles ∧
    (Role.ADMIN.value ∈ roles ∨
      Meets requiredRoles (· ∈ roles) ∧ Meets requiredPermissions (SomeRoleGrants roles))

/-- `true` for whom it is permitted, a `ForbiddenException` for everyone else. -/
structure DecidesAsSpecified (requiredRoles requiredPermissions : Option (List String))
    (user : Option GuardedUser) (out : Except Failure Bool) : Prop where
  passes : Permitted requiredRoles requiredPermissions user ↔ out = .ok true
  forbids : ¬Permitted requiredRoles requiredPermissions user →
    ∃ message, out = .error (.http .forbidden message)

/-- The user has a role list and is no admin. -/
def HoldsPlain (user : Option GuardedUser) (roles : List String) : Prop :=
  user.bind GuardedUser.roles = some roles ∧ Role.ADMIN.value ∉ roles

/-- Permissions without roles: the roles are then compared with nothing, or with the empty list. -/
def AsksPermissionsOnly (requiredRoles requiredPermissions : Option (List String))
    (roles : List String) : Prop :=
  requiredPermissions.getD [] ≠ [] ∧
    (requiredRoles = none ∨
      requiredRoles = some [] ∧ ∃ permission ∈ requiredPermissions.getD [],
        SomeRoleGrants roles permission)

theorem mem_getUserPermissions (permission : String) :
    permission ∈ RolesGuard.getUserPermissions roles ↔
      ∃ role ∈ roles, permission ∈ RolesService.permissionsOf role := by
  simp [RolesGuard.getUserPermissions]

theorem someRoleGrants_iff (permission : String) :
    SomeRoleGrants roles permission ↔
      permission ∈ RolesGuard.getUserPermissions roles ∨
        "all" ∈ RolesGuard.getUserPermissions roles := by
  simp only [SomeRoleGrants, RolesService.grants, mem_getUserPermissions]
  constructor
  · rintro ⟨role, hrole, h | h⟩
    · exact .inl ⟨role, hrole, h⟩
    · exact .inr ⟨role, hrole, h⟩
  · rintro (⟨role, hrole, h⟩ | ⟨role, hrole, h⟩)
    · exact ⟨role, hrole, .inl h⟩
    · exact ⟨role, hrole, .inr h⟩

theorem checkPermissions_of_meets (h : Meets requiredPermissions (SomeRoleGrants roles)) :
    RolesGuard.checkPermissions requiredPermissions roles = .ok true := by
  simp only [Meets, someRoleGrants_iff] at h
  refine if_neg fun hasked => ?_
  obtain h | h := h
  · exact hasked.1 h
  · exact hasked.2 h

theorem checkPermissions_of_not_meets (h : ¬Meets requiredPermissions (SomeRoleGrants roles)) :
    ∃ message, RolesGuard.checkPermissions requiredPermissions roles =
      .error (.http .forbidden message) := by
  simp only [Meets, someRoleGrants_iff, not_or] at h
  exact ⟨_, if_pos h⟩

theorem checkRoles_matched {required : List String} (h : ∃ role ∈ required, role ∈ roles) :
    RolesGuard.checkRoles (some required) requiredPermissions roles =
      RolesGuard.checkPermissions requiredPermissions roles := by
  simp only [RolesGuard.checkRoles, h, not_true_eq_false, and_false, if_false]

variable (requiredPermissions) in
theorem checkRoles_unmatched {required : List String} (h : ¬∃ role ∈ required, role ∈ roles) :
    ∃ message, RolesGuard.checkRoles (some required) requiredPermissions roles =
      .error (.http .forbidden message) :=
  ⟨_, if_pos h⟩

theorem canActivate_plain (hplain : HoldsPlain user roles)
    (hasked : ¬(requiredRoles.getD [] = [] ∧ requiredPermissions.getD [] = [])) :
    RolesGuard.canActivate requiredRoles requiredPermissions user =
      RolesGuard.checkRoles requiredRoles requiredPermissions roles := by
  simp only [RolesGuard.canActivate, if_neg hasked, hplain.1, if_neg hplain.2]

theorem permitted_plain (hplain : HoldsPlain user roles)
    (hasked : ¬(requiredRoles.getD [] = [] ∧ requiredPermissions.getD [] = [])) :
    Permitted requiredRoles requiredPermissions user ↔
      Meets requiredRoles (· ∈ roles) ∧ Meets requiredPermissions (SomeRoleGrants roles) := by
  simp [Permitted, hasked, hplain.1, hplain.2]

section Decisions
variable {out : Except Failure Bool}

theorem decides_of_permitted (h : Permitted requiredRoles requiredPermissions user) :
    DecidesAsSpecified requiredRoles requiredPermissions user out ↔ out = .ok true :=
  ⟨fun hout => hout.passes.mp h, fun hout => ⟨⟨fun _ => hout, fun _ => h⟩, fun hn => absurd h hn⟩⟩

theorem decides_of_not_permitted (h : ¬Permitted requiredRoles requiredPermissions user) :
    DecidesAsSpecified requiredRoles requiredPermissions user out ↔
      ∃ message, out = .error (.http .forbidden message) := by
  refine ⟨fun hout => hout.forbids h, ?_⟩
  rintro ⟨message, rfl⟩
  exact ⟨⟨fun hp => absurd hp h, fun hp => by cases hp⟩, fun _ => ⟨message, rfl⟩⟩

/-- With roles required, whatever permissions are required beside them. -/
theorem checkRoles_decides {required : List String} (hplain : HoldsPlain user roles)
    (hrequired : required ≠ []) :
    DecidesAsSpecified (some required) requiredPermissions user
      (RolesGuard.checkRoles (some required) requiredPermissions roles) := by
  have hpermitted : Permitted (some required) requiredPermissions user ↔
      Meets (some required) (· ∈ roles) ∧ Meets requiredPermissions (SomeRoleGrants roles) :=
    permitted_plain hplain fun h => hrequired h.1
  by_cases hmatched : ∃ role ∈ required, role ∈ roles
  · rw [checkRoles_matched hmatched]
    have hroles : Meets (some required) (· ∈ roles) := .inr hmatched
    by_cases hgranted : Meets requiredPermissions (SomeRoleGrants roles)
    · exact (decides_of_permitted (hpermitted.mpr ⟨hroles, hgranted⟩)).mpr
        (checkPermissions_of_meets hgranted)
    · exact (decides_of_not_permitted fun h => hgranted (hpermitted.mp h).2).mpr
        (checkPermissions_of_not_meets hgranted)
  · have hroles : ¬Meets (some required) (· ∈ roles) := by
      simpa [Meets, hrequired] using hmatched
    exact (decides_of_not_permitted fun h => hroles (hpermitted.mp h).1).mpr
      (checkRoles_unmatched requiredPermissions hmatched)

theorem checkRoles_decides_iff (hplain : HoldsPlain user roles)
    (hasked : ¬(requiredRoles.getD [] = [] ∧ requiredPermissions.getD [] = [])) :
    DecidesAsSpecified requiredRoles requiredPermissions user
        (RolesGuard.checkRoles requiredRoles requiredPermissions roles) ↔
      ¬AsksPermissionsOnly requiredRoles requiredPermissions roles := by
  have hpermitted := permitted_plain hplain hasked
  cases requiredRoles with
  | none =>
    have hpermissions : requiredPermissions.getD [] ≠ [] := fun h => hasked ⟨rfl, h⟩
    refine iff_of_false (fun h => ?_) (fun h => h ⟨hpermissions, .inl rfl⟩)
    by_cases hp : Permitted none requiredPermissions user
    · cases (decides_of_permitted hp).mp h
    · obtain ⟨message, hout⟩ := (decides_of_not_permitted hp).mp h
      cases hout
  | some required =>
    by_cases hrequired : required = []
    · subst hrequired
      have hpermissions : requiredPermissions.getD [] ≠ [] := fun h => hasked ⟨rfl, h⟩
      have hunmatched : ¬∃ role ∈ ([] : List String), role ∈ roles := by simp
      obtain ⟨message, hout⟩ := checkRoles_unmatched requiredPermissions hunmatched
      have honly : AsksPermissionsOnly (some []) requiredPermissions roles ↔
          Permitted (some []) requiredPermissions user := by
        rw [hpermitted]
        simp [AsksPermissionsOnly, Meets, hpermissions]
      rw [hout, honly]
      by_cases hp : Permitted (some []) requiredPermissions user
      · rw [decides_of_permitted hp]
        simp [hp]
      · rw [decides_of_not_permitted hp]
        simp [hp]
    · refine iff_of_true (checkRoles_decides hplain hrequired) ?_
      rintro ⟨-, h | ⟨h, -⟩⟩
      · cases h
      · exact hrequired (Option.some.inj h)

end Decisions

/-- The guard decides as specified exactly if a user with roles, and not an admin, is not asked for
permissions without roles, or has none of the permissions and the list of roles is there. -/
theorem roles_guard_as_specified_iff :
    DecidesAsSpecified requiredRoles requiredPermissions user
        (RolesGuard.canActivate requiredRoles requiredPermissions user) ↔
      ∀ roles, HoldsPlain user roles →
        ¬AsksPermissionsOnly requiredRoles requiredPermissions roles := by
  by_cases hasked : requiredRoles.getD [] = [] ∧ requiredPermissions.getD [] = []
  · have hpermitted : Permitted requiredRoles requiredPermissions user := .inl hasked
    exact iff_of_true ((decides_of_permitted hpermitted).mpr (if_pos hasked))
      fun roles _ h => h.1 hasked.2
  cases huser : user.bind GuardedUser.roles with
  | none =>
    have hpermitted : ¬Permitted requiredRoles requiredPermissions user := by
      simp [Permitted, hasked, huser]
    refine iff_of_true ((decides_of_not_permitted hpermitted).mpr ⟨"User has no roles", ?_⟩) ?_
    · simp only [RolesGuard.canActivate, if_neg hasked, huser]
    · intro roles hplain
      rw [hplain.1] at huser
      cases huser
  | some roles =>
    by_cases hadmin : Role.ADMIN.value ∈ roles
    · have hpermitted : Permitted requiredRoles requiredPermissions user :=
        .inr ⟨roles, huser, .inl hadmin⟩
      refine iff_of_true ((decides_of_permitted hpermitted).mpr ?_) ?_
      · simp only [RolesGuard.canActivate, if_neg hasked, huser, if_pos hadmin]
      · intro roles' hplain
        rw [hplain.1] at huser
        cases huser
        exact absurd hadmin hplain.2
    · have hplain : HoldsPlain user roles := ⟨huser, hadmin⟩
      rw [canActivate_plain hplain hasked, checkRoles_decides_iff hplain hasked]
      constructor
      · intro h roles' hplain'
        rw [hplain'.1] at huser
        cases huser
        exact h
      · intro h
        exact h roles hplain

end Roles

section Refinement

theorem mem_values {role : Role} {roles : List Role} :
    role.value ∈ roles.map Role.value ↔ role ∈ roles :=
  List.mem_map_of_injective Role.value_injective

theorem any_values {required roles : List Role} :
    (∃ role ∈ required.map Role.value, role ∈ roles.map Role.value) ↔
      ∃ role ∈ required, role ∈ roles := by
  simp [Role.value_injective.eq_iff]

theorem getUserPermissions_values (roles : List Role) :
    RolesGuard.getUserPermissions (roles.map Role.value) =
      GatewayGuards.getUserPermissions roles := by
  simp only [RolesGuard.getUserPermissions, GatewayGuards.getUserPermissions, List.flatMap_map,
    RolesService.permissionsOf_value]

theorem checkRoles_values (requiredRoles : Option (List Role))
    (requiredPermissions : Option (List String)) (roles : List Role) :
    RolesGuard.checkRoles (requiredRoles.map fun required => required.map Role.value)
        requiredPermissions (roles.map Role.value) =
      GatewayGuards.checkRoles requiredRoles requiredPermissions roles := by
  cases requiredRoles with
  | none => rfl
  | some required =>
    simp only [Option.map_some, RolesGuard.checkRoles, GatewayGuards.checkRoles, any_values,
      RolesGuard.checkPermissions, getUserPermissions_values, ne_eq, List.map_eq_nil_iff]

/-- On the roles of the enumeration it is the guard that the role checks are compared by. -/
theorem canActivate_values (requiredRoles : Option (List Role))
    (requiredPermissions : Option (List String)) (user : Option JwtUserDto) :
    RolesGuard.canActivate (requiredRoles.map fun required => required.map Role.value)
        requiredPermissions (user.map JwtUserDto.guarded) =
      GatewayGuards.rolesGuard requiredRoles requiredPermissions user := by
  have hrequired : (requiredRoles.map fun required => required.map Role.value).getD [] = [] ↔
      requiredRoles.getD [] = [] := by
    cases requiredRoles <;> simp
  have hroles : (user.map JwtUserDto.guarded).bind GuardedUser.roles =
      (user.bind JwtUserDto.roles).map fun roles => roles.map Role.value := by
    cases user <;> rfl
  simp only [RolesGuard.canActivate, GatewayGuards.rolesGuard, hrequired, hroles]
  cases user.bind JwtUserDto.roles with
  | none => rfl
  | some roles => simp only [Option.map_some, mem_values, checkRoles_values]

end Refinement

def auditor : GuardedUser := ⟨some ["AUDITOR"]⟩

theorem auditor_granted : Permitted none (some ["read_reward"]) (some auditor) ∧
    Permitted (some []) (some ["read_reward"]) (some auditor) := by
  have hgranted : Meets (some ["read_reward"]) (SomeRoleGrants ["AUDITOR"]) :=
    .inr ⟨"read_reward", by decide, "AUDITOR", by decide, .inl (by decide)⟩
  exact ⟨.inr ⟨["AUDITOR"], rfl, .inr ⟨.inl rfl, hgranted⟩⟩,
    .inr ⟨["AUDITOR"], rfl, .inr ⟨.inl rfl, hgranted⟩⟩⟩

/-- An auditor asks for what auditors may read: the guard fails where no roles are declared, and
forbids where an empty list of them is. -/
theorem auditor_refused :
    RolesGuard.canActivate none (some ["read_reward"]) (some auditor) = .error typeError ∧
    RolesGuard.canActivate (some []) (some ["read_reward"]) (some auditor) =
      .error (.http .forbidden "User does not have sufficient permissions. Required roles: ") ∧
    ¬∀ (requiredRoles requiredPermissions : Option (List String)) (user : Option GuardedUser),
      DecidesAsSpecified requiredRoles requiredPermissions user
        (RolesGuard.canActivate requiredRoles requiredPermissions user) := by
  refine ⟨by decide, by decide, fun h => ?_⟩
  have hpasses := (h none (some ["read_reward"]) (some auditor)).passes.mp auditor_granted.1
  exact absurd hpasses (by decide)

end MsaTuto
