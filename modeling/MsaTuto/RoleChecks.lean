import MsaTuto.AuthHttp
import MsaTuto.Gateway

/-! The role checks of the three servers: `RolesGuard` of the gateway, of the auth server and of
the game-event server, and the check of a route's roles in `gateway.controller.ts`. -/
namespace MsaTuto

namespace GatewayGuards

/-- `[...new Set(permissions)]`. -/
def getUserPermissions (userRoles : List Role) : List String :=
  (userRoles.flatMap RolesService.getRolePermissions).eraseDups

/-- The checks of `RolesGuard.canActivate` for a user who is no admin. The roles are compared
twice, and a handler with permissions but no roles makes the first comparison throw. -/
def checkRoles (requiredRoles : Option (List Role)) (requiredPermissions : Option (List String))
    (roles : List Role) : Except Failure Bool :=
  match requiredRoles with
  | none => .error typeError
  | some required =>
    if ¬∃ role ∈ required, role ∈ roles then
      .error (.http .forbidden ("User does not have sufficient permissions. Required roles: " ++
        ", ".intercalate (required.map Role.value)))
    else if required ≠ [] ∧ ¬∃ role ∈ required, role ∈ roles then
      .error (.http .forbidden "필요한 역할이 없습니다")
    else
      let permissions := requiredPermissions.getD []
      if permissions ≠ [] ∧ ¬∃ permission ∈ permissions,
          permission ∈ getUserPermissions roles ∨ "all" ∈ getUserPermissions roles then
        .error (.http .forbidden "필요한 권한이 없습니다")
      else .ok true

def rolesGuard (requiredRoles : Option (List Role)) (requiredPermissions : Option (List String))
    (user : Option JwtUserDto) : Except Failure Bool :=
  if requiredRoles.getD [] = [] ∧ requiredPermissions.getD [] = [] then .ok true
  else
    match user.bind JwtUserDto.roles with
    | none => .error (.http .forbidden "User has no roles")
    | some roles =>
      if Role.ADMIN ∈ roles then .ok true
      else checkRoles requiredRoles requiredPermissions roles

end GatewayGuards

namespace GameEventGuards

/-- `RolesGuard.canActivate`: no roles, no match, and no case of its own for an admin. -/
def rolesGuard (requiredRoles : Option (List Role)) (user : Option JwtUserDto) : Bool :=
  match requiredRoles with
  | none => true
  | some required => required.any fun role => decide (role ∈ (user.bind JwtUserDto.roles).getD [])

end GameEventGuards

inductive RoleCheck where
  | gatewayGuard | gatewayRoute | authGuard | gameEventGuard
  deriving DecidableEq, Repr

def routeFor (required : List Role) : ProxyRouteConfig :=
  { path := "", methods := [], targetUrl := none, requireAuth := true, roles := required }

/-- Whether the check lets an authenticated user pass where `required` is asked for. -/
def RoleCheck.admits (required : List Role) (user : JwtUserDto) : RoleCheck → Bool
  | .gatewayGuard => (GatewayGuards.rolesGuard (some required) none (some user)).toOption.getD false
  | .gatewayRoute => (GatewayController.refusal (routeFor required) (some user)).isNone
  | .authGuard => (AuthHttp.rolesGuard required user).toBool
  | .gameEventGuard => GameEventGuards.rolesGuard (some required) (some user)

/-- The user has one of the roles that are asked for. -/
def Listed (required : List Role) (user : JwtUserDto) : Prop :=
  ∃ role ∈ required, role ∈ userRoles (some user)

def IsAdmin (user : JwtUserDto) : Prop := Role.ADMIN ∈ userRoles (some user)

/-- All checks take one decision, and each admits an admin. -/
structure ChecksAgree (required : List Role) (user : JwtUserDto) : Prop where
  same : ∀ check check' : RoleCheck, check.admits required user = check'.admits required user
  admin : IsAdmin user → ∀ check : RoleCheck, check.admits required user = true

section Checks
variable {required : List Role} {user : JwtUserDto}

theorem gatewayGuard_admits (h : required ≠ []) :
    RoleCheck.gatewayGuard.admits required user = true ↔ IsAdmin user ∨ Listed required user := by
  cases hroles : user.roles with
  | none =>
    simp [RoleCheck.admits, GatewayGuards.rolesGuard, h, hroles, IsAdmin, Listed, userRoles,
      Except.toOption]
  | some roles =>
    by_cases hadmin : Role.ADMIN ∈ roles
    · simp [RoleCheck.admits, GatewayGuards.rolesGuard, h, hroles, IsAdmin, userRoles, hadmin,
        Except.toOption]
    · by_cases hlisted : ∃ role ∈ required, role ∈ roles <;>
        simp [RoleCheck.admits, GatewayGuards.rolesGuard, GatewayGuards.checkRoles, h, hroles,
          IsAdmin, Listed, userRoles, hadmin, hlisted, Except.toOption]

theorem authGuard_admits (h : required ≠ []) :
    RoleCheck.authGuard.admits required user = true ↔ IsAdmin user ∨ Listed required user := by
  cases hroles : user.roles with
  | none =>
    simp [RoleCheck.admits, AuthHttp.rolesGuard, h, hroles, IsAdmin, Listed, userRoles,
      Except.toBool]
  | some roles =>
    by_cases hadmin : Role.ADMIN ∈ roles
    · simp [RoleCheck.admits, AuthHttp.rolesGuard, h, hroles, IsAdmin, userRoles, hadmin,
        Except.toBool]
    · by_cases hlisted : ∃ role ∈ required, role ∈ roles <;>
        simp [RoleCheck.admits, AuthHttp.rolesGuard, h, hroles, IsAdmin, Listed, userRoles,
          hadmin, hlisted, Except.toBool]

theorem gatewayRoute_admits (h : required ≠ []) :
    RoleCheck.gatewayRoute.admits required user = true ↔ Listed required user := by
  have hrole : GatewayController.hasRole (routeFor required) (some user) = true ↔
      Listed required user := decide_eq_true_iff
  simp [RoleCheck.admits, GatewayController.refusal, routeFor, h, ← hrole]

theorem gameEventGuard_admits :
    RoleCheck.gameEventGuard.admits required user = true ↔ Listed required user := by
  simp [RoleCheck.admits, GameEventGuards.rolesGuard, Listed, userRoles]

theorem admits_of_listed (h : required ≠ []) (hlisted : Listed required user) (check : RoleCheck) :
    check.admits required user = true := by
  cases check with
  | gatewayGuard => exact (gatewayGuard_admits h).mpr (.inr hlisted)
  | gatewayRoute => exact (gatewayRoute_admits h).mpr hlisted
  | authGuard => exact (authGuard_admits h).mpr (.inr hlisted)
  | gameEventGuard => exact gameEventGuard_admits.mpr hlisted

theorem refuses_of_neither (h : required ≠ []) (hadmin : ¬IsAdmin user)
    (hlisted : ¬Listed required user) (check : RoleCheck) :
    check.admits required user = false := by
  have hneither : ¬(IsAdmin user ∨ Listed required user) := by simp [hadmin, hlisted]
  rw [← Bool.not_eq_true]
  cases check with
  | gatewayGuard => exact mt (gatewayGuard_admits h).mp hneither
  | gatewayRoute => exact mt (gatewayRoute_admits h).mp hlisted
  | authGuard => exact mt (authGuard_admits h).mp hneither
  | gameEventGuard => exact mt gameEventGuard_admits.mp hlisted

/-- The checks agree on a user, and let an admin pass, exactly if the user is no admin or has one of
the roles that are asked for. -/
theorem role_checks_agree_iff (h : required ≠ []) :
    ChecksAgree required user ↔ (IsAdmin user → Listed required user) := by
  constructor
  · intro hagree hadmin
    exact gameEventGuard_admits.mp (hagree.admin hadmin .gameEventGuard)
  · intro hadmitted
    by_cases hlisted : Listed required user
    · have hadmits := admits_of_listed h hlisted
      exact ⟨fun check check' => (hadmits check).trans (hadmits check').symm, fun _ => hadmits⟩
    · have hadmin : ¬IsAdmin user := fun hadmin => hlisted (hadmitted hadmin)
      have hrefuses := refuses_of_neither h hadmin hlisted
      exact ⟨fun check check' => (hrefuses check).trans (hrefuses check').symm,
        fun h => absurd h hadmin⟩

end Checks

def holding (roles : List Role) : JwtUserDto := ⟨some "u1", some "alice@x", some roles⟩

theorem admin_reaches_admin_routes : ChecksAgree [.OPERATOR, .ADMIN] (holding [.ADMIN]) :=
  (role_checks_agree_iff (by decide)).mpr fun _ => ⟨.ADMIN, by decide, by decide⟩

/-- An admin asks for what users may: two checks say yes, the other two say no. -/
theorem admin_refused_where_users_may :
    RoleCheck.gatewayGuard.admits [.USER] (holding [.ADMIN]) = true ∧
    RoleCheck.authGuard.admits [.USER] (holding [.ADMIN]) = true ∧
    RoleCheck.gatewayRoute.admits [.USER] (holding [.ADMIN]) = false ∧
    RoleCheck.gameEventGuard.admits [.USER] (holding [.ADMIN]) = false ∧
    ¬ChecksAgree [.USER] (holding [.ADMIN]) := by
  refine ⟨by decide, by decide, by decide, by decide, fun h => ?_⟩
  have hsame := h.same .authGuard .gameEventGuard
  exact absurd hsame (by decide)

end MsaTuto
