import MsaTuto.Authentication

/-! The auth server as its clients reach it: `auth.controller.ts`, `users.controller.ts`, the
guards before their handlers, and the two readings of the `Authorization` header. -/
namespace MsaTuto
open Runs Js

inductive AuthRequest where
  | login (email password : String)
  | register (dto : RegisterDto)
  | refresh (authorization : Option String) (refreshToken : String)
  | logout (authorization : Option String)
  | addRole (authorization : Option String) (id : String) (role : Role)
  | removeRole (authorization : Option String) (id role : String)

section Header

def words (s : List Char) : List (List Char) := (s.splitOnP isWhite).filter (· ≠ [])

/-- `ExtractJwt.fromAuthHeaderAsBearerToken`: the second word, behind the scheme. -/
def bearerToken (authorization : Option String) : Option String :=
  match authorization.map fun header => words header.toList with
  | some (scheme :: value :: _) =>
    if scheme.map Char.toLower = ['b', 'e', 'a', 'r', 'e', 'r'] then some (String.ofList value)
    else none
  | _ => none

/-- `s.replace(pattern, '')`, which drops the first occurrence only. -/
def dropFirst (pattern : List Char) : List Char → List Char
  | [] => []
  | c :: cs =>
    if pattern.isPrefixOf (c :: cs) then (c :: cs).drop pattern.length
    else c :: dropFirst pattern cs

/-- The `@AuthToken` decorator. -/
def authToken (authorization : Option String) : String :=
  match authorization with
  | some header => String.ofList (dropFirst ['B', 'e', 'a', 'r', 'e', 'r', ' '] header.toList)
  | none => ""

theorem dropFirst_cases (pattern s : List Char) :
    dropFirst pattern s = s ∨
      ∃ before after, s = before ++ (pattern ++ after) ∧
        dropFirst pattern s = before ++ after := by
  induction s with
  | nil => exact .inl rfl
  | cons c s ih =>
    by_cases hp : pattern.isPrefixOf (c :: s) = true
    · obtain ⟨after, hafter⟩ := List.isPrefixOf_iff_prefix.mp hp
      refine .inr ⟨[], after, hafter.symm, ?_⟩
      rw [dropFirst, if_pos hp, ← hafter]
      simp
    · rw [dropFirst, if_neg hp]
      obtain ih | ⟨before, after, hs, ih⟩ := ih
      · exact .inl (by rw [ih])
      · exact .inr ⟨c :: before, after, by rw [hs]; rfl, by rw [ih]; rfl⟩

theorem words_of_noWhite {s : List Char} (h : ∀ c ∈ s, isWhite c = false) (hne : s ≠ []) :
    words s = [s] := by
  rw [words, List.splitOnP_eq_singleton h]
  simp [hne]

theorem words_append_white {s t : List Char} {c : Char} (hc : isWhite c = true) :
    words (s ++ c :: t) = words s ++ words t := by
  rw [words, List.splitOnP_append_cons s t hc, List.filter_append]
  rfl

theorem words_clean {s word : List Char} (h : word ∈ words s) :
    ∀ c ∈ word, isWhite c = false :=
  splitOnP_clean (List.mem_of_mem_filter h)

/-- A header that is read as a token by passport, and without white space by the decorator, is the
scheme with its capital, one blank and the token. -/
theorem header_of_clean {header token : String} (h : bearerToken (some header) = some token)
    (hclean : ∀ c ∈ (authToken (some header)).toList, isWhite c = false) :
    header = "Bearer " ++ token := by
  simp only [bearerToken, Option.map_some, authToken, String.toList_ofList] at h hclean
  obtain hsame | ⟨before, after, hheader, hdrop⟩ :=
    dropFirst_cases ['B', 'e', 'a', 'r', 'e', 'r', ' '] header.toList
  · -- the header has no white space at all, so it is one word at most
    rw [hsame] at hclean
    by_cases hempty : header.toList = []
    · rw [hempty] at h
      cases h
    · rw [words_of_noWhite hclean hempty] at h
      cases h
  · rw [hdrop] at hclean
    have hsplit : header.toList =
        (before ++ ['B', 'e', 'a', 'r', 'e', 'r']) ++ ' ' :: after := by
      rw [hheader]
      simp
    have hscheme : ∀ c ∈ before ++ ['B', 'e', 'a', 'r', 'e', 'r'], isWhite c = false := by
      intro c hc
      obtain hc | hc := List.mem_append.mp hc
      · exact hclean c (List.mem_append_left _ hc)
      · have hall : ['B', 'e', 'a', 'r', 'e', 'r'].all (!isWhite ·) = true := by decide
        simpa using List.all_eq_true.mp hall c hc
    rw [hsplit, words_append_white (by decide), words_of_noWhite hscheme (by simp)] at h
    cases after with
    | nil => cases h
    | cons d after =>
      have hafter : ∀ c ∈ d :: after, isWhite c = false :=
        fun c hc => hclean c (List.mem_append_right _ hc)
      rw [words_of_noWhite hafter (by simp)] at h
      simp only [List.cons_append, List.nil_append, Option.ite_none_right_eq_some] at h
      obtain ⟨hlower, htoken⟩ := h
      have hlength := congrArg List.length hlower
      have hbefore : before = [] := by
        rw [← List.length_eq_zero_iff]
        simpa using hlength
      have htoken : token.toList = d :: after := by
        rw [← Option.some.inj htoken, String.toList_ofList]
      rw [← String.toList_inj, hsplit, hbefore, String.toList_append, htoken]
      rfl

theorem authToken_canonical (token : String) : authToken (some ("Bearer " ++ token)) = token := by
  have hdrop : dropFirst ['B', 'e', 'a', 'r', 'e', 'r', ' '] ("Bearer " ++ token).toList =
      token.toList := by
    rw [String.toList_append]
    rfl
  rw [authToken, hdrop, String.ofList_toList]

/-- The two readings of one header agree, or what the decorator reads has white space in
it, as no token has. -/
theorem authToken_of_bearerToken {authorization : Option String} {token : String}
    (h : bearerToken authorization = some token) :
    authToken authorization = token ∨ ∃ c ∈ (authToken authorization).toList, isWhite c = true := by
  cases authorization with
  | none => cases h
  | some header =>
    by_cases hwhite : ∃ c ∈ (authToken (some header)).toList, isWhite c = true
    · exact .inr hwhite
    · have hclean : ∀ c ∈ (authToken (some header)).toList, isWhite c = false := by
        intro c hc
        by_contra hcw
        exact hwhite ⟨c, hc, by simpa using hcw⟩
      rw [header_of_clean h hclean, authToken_canonical]
      exact .inl rfl

end Header

/-- A request at its guards, then the operation it is admitted to. -/
inductive HttpPhase where
  | arrived
  | serving (call : AuthCall) (phase : AuthPhase)
  | refused (cls : HttpExceptionClass)

namespace AuthHttp
variable (sys : AuthSystem)

/-- `JwtAuthGuard`; a cache that fails makes a token invalid. -/
def jwtAuthGuard (s : AuthState) (fault : Bool) (authorization : Option String) :
    Except HttpExceptionClass JwtUserDto :=
  match bearerToken authorization with
  | none => .error .unauthorized
  | some token =>
    if fault then .error .unauthorized
    else
      match authenticate sys .auth s s.now token with
      | some user => .ok user
      | none => .error .unauthorized

/-- `RolesGuard`, on a handler that asks for `required`. -/
def rolesGuard (required : List Role) (user : JwtUserDto) : Except HttpExceptionClass JwtUserDto :=
  if required = [] then .ok user
  else
    match user.roles with
    | none => .error .forbidden
    | some roles =>
      if Role.ADMIN ∈ roles then .ok user
      else if ∃ role ∈ required, role ∈ roles then .ok user
      else .error .forbidden

def guards (s : AuthState) (fault : Bool) (authorization : Option String) (required : List Role) :
    Except HttpExceptionClass JwtUserDto :=
  match jwtAuthGuard sys s fault authorization with
  | .ok user => rolesGuard required user
  | .error cls => .error cls

/-- The subject of a token; every token issued names one. -/
def userIdOf (user : JwtUserDto) : String := user.userId.getD "undefined"

/-- Guards and handler: the service call a request comes to. -/
def dispatch (s : AuthState) (fault : Bool) : AuthRequest → Except HttpExceptionClass AuthCall
  | .login email password => .ok (.login email password)
  | .register dto => .ok (.register dto)
  | .refresh authorization refreshToken =>
    (guards sys s fault authorization []).map fun user => .refreshToken (userIdOf user) refreshToken
  | .logout authorization =>
    (guards sys s fault authorization []).map fun user =>
      .logout (userIdOf user) (authToken authorization)
  | .addRole authorization id role =>
    (guards sys s fault authorization [.ADMIN]).map fun _ => .addRole id role
  | .removeRole authorization id role =>
    (guards sys s fault authorization [.ADMIN]).map fun _ => .removeRole id role

def act (request : AuthRequest) (m : AuthMoment) : HttpPhase → AuthState → HttpPhase × AuthState
  | .arrived, s =>
    match dispatch sys s m.fault request with
    | .ok call => (.serving call .started, s)
    | .error cls => (.refused cls, s)
  | .serving call phase, s =>
    (.serving call (AuthService.act sys call m phase s).1, (AuthService.act sys call m phase s).2)
  | .refused cls, s => (.refused cls, s)

variable {sys} {s : AuthState} {fault : Bool} {authorization : Option String}

theorem jwtAuthGuard_ok {user : JwtUserDto}
    (h : jwtAuthGuard sys s fault authorization = .ok user) :
    ∃ token, bearerToken authorization = some token ∧
      authenticate sys .auth s s.now token = some user := by
  unfold jwtAuthGuard at h
  split at h
  · cases h
  next token htoken =>
    split at h
    · cases h
    · split at h
      next user' hauth =>
        cases h
        exact ⟨token, htoken, hauth⟩
      next => cases h

theorem rolesGuard_ok {required : List Role} {user user' : JwtUserDto}
    (h : rolesGuard required user = .ok user') :
    user' = user ∧ (required = [] ∨ ∃ roles, user.roles = some roles ∧
      (Role.ADMIN ∈ roles ∨ ∃ role ∈ required, role ∈ roles)) := by
  unfold rolesGuard at h
  split at h
  next hempty =>
    cases h
    exact ⟨rfl, .inl hempty⟩
  next =>
    split at h
    · cases h
    next roles hroles =>
      split at h
      next hadmin =>
        cases h
        exact ⟨rfl, .inr ⟨roles, hroles, .inl hadmin⟩⟩
      next =>
        split at h
        next hsome =>
          cases h
          exact ⟨rfl, .inr ⟨roles, hroles, .inr hsome⟩⟩
        next => cases h

theorem guards_ok {required : List Role} {user : JwtUserDto}
    (h : guards sys s fault authorization required = .ok user) :
    ∃ token, bearerToken authorization = some token ∧
      authenticate sys .auth s s.now token = some user ∧
      (required = [] ∨ ∃ roles, user.roles = some roles ∧
        (Role.ADMIN ∈ roles ∨ ∃ role ∈ required, role ∈ roles)) := by
  unfold guards at h
  split at h
  next user' hjwt =>
    obtain ⟨rfl, hroles⟩ := rolesGuard_ok h
    obtain ⟨token, htoken, hauth⟩ := jwtAuthGuard_ok hjwt
    exact ⟨token, htoken, hauth, hroles⟩
  next => cases h

theorem map_ok {ε α β : Type*} {x : Except ε α} {f : α → β} {b : β} (h : x.map f = .ok b) :
    ∃ a, x = .ok a ∧ f a = b := by
  cases x with
  | error e => cases h
  | ok a => exact ⟨a, rfl, Except.ok.inj h⟩

theorem dispatch_logout {request : AuthRequest} {userId token : String}
    (h : dispatch sys s fault request = .ok (.logout userId token)) :
    ∃ authorization user, request = .logout authorization ∧
      guards sys s fault authorization [] = .ok user ∧ token = authToken authorization := by
  cases request with
  | logout authorization =>
    obtain ⟨user, hguards, hcall⟩ := map_ok h
    cases hcall
    exact ⟨authorization, user, rfl, hguards, rfl⟩
  | login email password => cases h
  | register dto => cases h
  | _ =>
    obtain ⟨user, -, hcall⟩ := map_ok h
    cases hcall

theorem dispatch_addRole {request : AuthRequest} {id : String} {role : Role}
    (h : dispatch sys s fault request = .ok (.addRole id role)) :
    ∃ authorization user, request = .addRole authorization id role ∧
      guards sys s fault authorization [.ADMIN] = .ok user := by
  cases request with
  | addRole authorization id' role' =>
    obtain ⟨user, hguards, hcall⟩ := map_ok h
    cases hcall
    exact ⟨authorization, user, rfl, hguards⟩
  | login email password => cases h
  | register dto => cases h
  | _ =>
    obtain ⟨user, -, hcall⟩ := map_ok h
    cases hcall

end AuthHttp

def httpStart {κ : Type*} (s : AuthState) : World κ AuthState HttpPhase := ⟨s, fun _ => .arrived⟩

def authHttp {κ : Type*} (sys : AuthSystem) (request : κ → AuthRequest) :
    Pool κ AuthMoment AuthEnv AuthState HttpPhase where
  act k m l s := AuthHttp.act sys (request k) m l s
  env e s := e.act s

end MsaTuto
