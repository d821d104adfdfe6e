import MsaTuto.AuthServer
import MsaTuto.Caller

/-! Bearer tokens at the three servers: the `JwtStrategy` of each, behind the signature and
expiry check of passport. -/
namespace MsaTuto
open Runs AuthService

inductive Server where
  | auth | gateway | gameEvent
  deriving DecidableEq, Repr

def rolesJson (roles : Option (List Role)) : Js.Value :=
  roles.map fun roles => .arr (roles.map fun role => .str role.value)

def JwtPayload.json (payload : JwtPayload) : Js.Json :=
  Js.literal [("sub", payload.sub.map .str), ("email", payload.email.map .str),
    ("roles", rolesJson payload.roles)]

def JwtUserDto.json (user : JwtUserDto) : Js.Json :=
  Js.literal [("userId", user.userId.map .str), ("email", user.email.map .str),
    ("roles", rolesJson user.roles)]

namespace JwtStrategy

/-- `auth-server`: the blacklist is asked before the payload is taken. -/
def authValidate (sys : AuthSystem) (s : AuthState) (now : Int) (token : String)
    (payload : JwtPayload) : Option JwtUserDto :=
  match sys.validateJwtToken s now token with
  | some _ => some ⟨payload.sub, payload.email, payload.roles⟩
  | none => none

/-- `api-gateway-server`; a payload that was verified is never falsy. -/
def gatewayValidate (payload : JwtPayload) : JwtUserDto :=
  ⟨payload.sub, payload.email, some (payload.roles.getD [])⟩

def gameEventValidate (payload : JwtPayload) : JwtUserDto :=
  ⟨payload.sub, payload.email, some (payload.roles.getD [])⟩

/-- On JSON this is the strategy in front of the game-event server's own handlers. -/
theorem gameEventValidate_json (payload : JwtPayload) :
    (gameEventValidate payload).json = gameJwtValidate payload.json := by
  obtain ⟨sub, email, roles, exp⟩ := payload
  cases sub <;> cases email <;> cases roles <;> rfl

end JwtStrategy

/-- Who the caller is to a server, if the bearer token authenticates anyone at time `now`. -/
def authenticate (sys : AuthSystem) (server : Server) (s : AuthState) (now : Int)
    (token : String) : Option JwtUserDto :=
  (sys.verify s.signed now token).bind fun payload =>
    match server with
    | .auth => JwtStrategy.authValidate sys s now token payload
    | .gateway => some (JwtStrategy.gatewayValidate payload)
    | .gameEvent => some (JwtStrategy.gameEventValidate payload)

/-- What `generateTokens` puts into a refresh token, once it has signed it. -/
def RefreshIssued (sys : AuthSystem) (s : AuthState) (token : String) : Prop :=
  token ∈ s.signed ∧ ∃ sub exp, sys.decode token = some ⟨some sub, none, none, some exp⟩

variable {sys : AuthSystem} {s : AuthState} {token : String} {t : Int}

theorem authenticate_expired {server : Server} {exp : Int} (hexp : sys.expiry token = some exp)
    (ht : exp * 1000 ≤ t) : authenticate sys server s t token = none := by
  rw [authenticate, AuthSystem.verify_expired hexp ht]
  rfl

/-- The gateway and the game-event server look at nothing but the signature and the expiry. -/
theorem authenticate_gateway :
    authenticate sys .gateway s t token =
      (sys.verify s.signed t token).map JwtStrategy.gatewayValidate := by
  cases h : sys.verify s.signed t token <;> simp [authenticate, h]

theorem authenticate_gameEvent :
    authenticate sys .gameEvent s t token =
      (sys.verify s.signed t token).map JwtStrategy.gameEventValidate := by
  cases h : sys.verify s.signed t token <;> simp [authenticate, h]

theorem authenticate_auth :
    authenticate sys .auth s t token =
      if (KeyStore.get s.cache (blacklistKey token)).isSome then none
      else (sys.verify s.signed t token).map fun p => ⟨p.sub, p.email, p.roles⟩ := by
  cases h : sys.verify s.signed t token with
  | none => simp [authenticate, h]
  | some payload =>
    by_cases hlisted : (KeyStore.get s.cache (blacklistKey token)).isSome = true
    · simp [authenticate, h, JwtStrategy.authValidate, AuthSystem.validateJwtToken, hlisted]
    · simp [authenticate, h, JwtStrategy.authValidate, AuthSystem.validateJwtToken, hlisted]

theorem verified_of_authenticate {user : JwtUserDto}
    (h : authenticate sys .auth s t token = some user) :
    ∃ payload, sys.verify s.signed t token = some payload ∧
      user = ⟨payload.sub, payload.email, payload.roles⟩ := by
  rw [authenticate_auth] at h
  split at h
  · cases h
  · obtain ⟨payload, hverify, huser⟩ := Option.map_eq_some_iff.mp h
    exact ⟨payload, hverify, huser.symm⟩

theorem RefreshIssued.verify (h : RefreshIssued sys s token) :
    ∃ sub exp, sys.expiry token = some exp ∧
      (¬exp * 1000 ≤ t →
        sys.verify s.signed t token = some ⟨some sub, none, none, some exp⟩) := by
  obtain ⟨hsigned, sub, exp, hdecode⟩ := h
  refine ⟨sub, exp, by simp [AuthSystem.expiry, hdecode], fun hlive => ?_⟩
  refine AuthSystem.verify_eq_some.mpr ⟨hsigned, hdecode, fun exp' hexp' => ?_⟩
  cases hexp'
  omega

theorem refreshIssued_of_saves {m : AuthMoment} {userId : String} {user : User}
    (h : signsBoth sys s m userId user = true) :
    ∃ sub exp, sys.decode m.refreshToken = some ⟨some sub, none, none, some exp⟩ := by
  obtain ⟨-, -, hdecode⟩ := signsBoth_payloads h
  exact ⟨userId, _, hdecode⟩

/-- A refresh token that a call has returned was issued as one. -/
def TokensIssued (sys : AuthSystem) (l : AuthPhase) (s : AuthState) : Prop :=
  match l with
  | .returned (.tokens _ refresh _) => RefreshIssued sys s refresh
  | _ => True

theorem TokensIssued.mono {l : AuthPhase} {s' : AuthState} (h : TokensIssued sys l s)
    (hsigned : ∀ t ∈ s.signed, t ∈ s'.signed) : TokensIssued sys l s' := by
  cases l with
  | returned result =>
    cases result with
    | tokens access refresh view => exact ⟨hsigned refresh h.1, h.2⟩
    | _ => trivial
  | _ => trivial

theorem tokensIssued_step {call : AuthCall} {m : AuthMoment} {l l' : AuthPhase} {s' : AuthState}
    (h : Step sys call m s l l' s') (hl : TokensIssued sys l s) : TokensIssued sys l' s' := by
  cases h with
  | stays => exact hl
  | logsIn user users hset l' hl' =>
    obtain rfl | ⟨f, rfl⟩ := hl'
    · trivial
    · trivial
  | saves userId user shown hf hsigns cache hsave =>
    exact ⟨List.mem_cons_self, refreshIssued_of_saves hsigns⟩
  | _ => trivial

section Runs
variable {κ : Type*} (sys : AuthSystem) (call : κ → AuthCall)

theorem issued_stable : Stable (authServer sys call) (fun _ _ => True) (fun _ => True)
    (fun _ => TokensIssued sys) where
  own w k m _ _ hl := ⟨trivial, tokensIssued_step (act_step sys (call k) m (w.calls k) w.shared) hl⟩
  other w k m k' _ _ _ _ hl' :=
    hl'.mono fun _ => signed_step (act_step sys (call k) m (w.calls k) w.shared)
  env w e _ _ := ⟨trivial, fun k hl => hl.mono fun t ht => by cases e <;> exact ht⟩

variable {sys call} [DecidableEq κ]

/-- A refresh token authenticates its caller at the gateway and at the game-event server
until it expires: the three servers reject it exactly from then on. -/
theorem refresh_token_rejected_iff_expired (s : AuthState) (k : κ)
    (turns : List (Turn κ AuthMoment AuthEnv)) {access refresh : String} {view : Option UserView}
    (hret : (run (authServer sys call).step (authStart s) turns).calls k =
      .returned (.tokens access refresh view)) (t : Int) :
    (∀ server, authenticate sys server
        (run (authServer sys call).step (authStart s) turns).shared t refresh = none) ↔
      ∃ exp, sys.expiry refresh = some exp ∧ exp * 1000 ≤ t := by
  have hstart : Holds (fun _ => True) (fun _ => TokensIssued sys) (authStart (κ := κ) s) :=
    ⟨trivial, fun _ => trivial⟩
  have hfit := ((issued_stable sys call).always hstart
    (along_of_forall (fun _ _ => trivial) _ turns)).last.2 k
  rw [hret] at hfit
  obtain ⟨sub, exp, hexp, hlive⟩ := RefreshIssued.verify (t := t) hfit
  constructor
  · intro hall
    refine ⟨exp, hexp, ?_⟩
    by_contra hnot
    have hgateway := hall .gateway
    rw [authenticate_gateway, hlive hnot] at hgateway
    cases hgateway
  · intro ⟨exp', hexp', ht⟩ server
    exact authenticate_expired hexp' ht

end Runs

section Sample

def aliceLogin : Unit → AuthCall := fun _ => .login "alice@x" "secret99"

def aliceLoginTurns : List (Turn Unit AuthMoment AuthEnv) :=
  [.call () {}, .call () {}, .call () { accessToken := "access2", refreshToken := "refresh2" }]

def aliceLoggedIn : World Unit AuthState AuthPhase :=
  run (authServer (AuthSystem.ofTable aliceTokens) aliceLogin).step (authStart (aliceState [] none))
    aliceLoginTurns

theorem refresh_token_rejected_after_a_week :
    authenticate (AuthSystem.ofTable aliceTokens) .gateway aliceLoggedIn.shared 604800000
      "refresh2" = none :=
  (refresh_token_rejected_iff_expired (aliceState [] none) () aliceLoginTurns rfl
    604800000).mpr ⟨604800, by decide, by decide⟩ .gateway

/-- Until then the gateway takes it for a login of its user. -/
theorem refresh_token_authenticates :
    ¬∀ (turns : List (Turn Unit AuthMoment AuthEnv)) (access refresh : String)
        (view : Option UserView) (t : Int) (server : Server),
      (run (authServer (AuthSystem.ofTable aliceTokens) aliceLogin).step
        (authStart (aliceState [] none)) turns).calls () =
          .returned (.tokens access refresh view) →
      authenticate (AuthSystem.ofTable aliceTokens) server
        (run (authServer (AuthSystem.ofTable aliceTokens) aliceLogin).step
          (authStart (aliceState [] none)) turns).shared t refresh = none := by
  intro h
  have hrejected := h aliceLoginTurns "access2" "refresh2" (some alice.view) 0 .gateway rfl
  have haccepted : authenticate (AuthSystem.ofTable aliceTokens) .gateway aliceLoggedIn.shared 0
      "refresh2" = some ⟨some "u1", none, some []⟩ := by decide
  exact Option.some_ne_none _ (haccepted.symm.trans hrejected)

end Sample
end MsaTuto
