import Mathlib.Data.List.ReduceOption
import MsaTuto.Runs
import MsaTuto.UserSchema

/-! The operations of `auth.service.ts` and the role changes of `users.service.ts` as a
pool of calls: every database and Redis step is a turn of its own. -/
namespace MsaTuto
open Runs

inductive AuthCall where
  | login (email password : String)
  | register (dto : RegisterDto)
  | refreshToken (userId refreshToken : String)
  | logout (userId accessToken : String)
  | addRole (userId : String) (role : Role)
  | removeRole (userId role : String)

structure UserView where
  id : String
  email : String
  name : String
  roles : List (Option Role)

def User.view (user : User) : UserView := ⟨user.id, user.email, user.name, user.roles⟩

inductive AuthResult where
  | tokens (accessToken refreshToken : String) (user : Option UserView)
  | loggedOut
  | user (user : User)

inductive AuthPhase where
  | started
  | savingLogin (user : User)
  | inserting (dto : RegisterDto)
  /-- The account is stored, and its document in memory has `null` for an id. -/
  | unnamed
  | validated (userId : String)
  | signing (userId : String) (user : User) (shown : Bool)
  | blacklisting (userId accessToken : String) (ttl : Int)
  | removing (userId : String)
  | pushing (user : User) (userId : String) (role : Role)
  | setting (user : User) (userId : String) (roles : List (Option Role))
  | clearingId (user : User) (userId : String)
  | clearingEmail (user : User)
  | returned (result : AuthResult)
  | raised (failure : Failure)

def AuthPhase.ended : AuthPhase → Bool
  | .returned _ | .raised _ => true
  | _ => false

theorem AuthPhase.ended_iff {l : AuthPhase} :
    l.ended = true ↔ (∃ result, l = .returned result) ∨ ∃ f, l = .raised f := by
  cases l <;> simp [AuthPhase.ended]

/-- Time passes, and Redis drops a key whose time has come. -/
inductive AuthEnv where
  | tick (ms : Nat)
  | dropKey (key : String)

def AuthEnv.act : AuthEnv → AuthState → AuthState
  | .tick ms, s => { s with now := s.now + ms }
  | .dropKey key, s => { s with cache := KeyStore.drop s.cache key s.now }

def storeFault : Failure := .native "MongoError"

/-- The `catch` block of the operation: what it rethrows, and what it says instead. -/
def AuthCall.caught : AuthCall → Failure → Failure
  | .login _ _, f =>
    if f.isUnauthorized then f else .http .internalServerError "로그인 처리 중 오류가 발생했습니다"
  | .register _, f =>
    if f.isConflict then f else .http .internalServerError "회원가입 처리 중 오류가 발생했습니다"
  | .refreshToken _ _, f =>
    if f.isUnauthorized then f else .http .internalServerError "토큰 갱신 중 오류가 발생했습니다"
  | .logout _ _, _ => .http .internalServerError "로그아웃 처리 중 오류가 발생했습니다"
  | .addRole _ _, f =>
    if f.isNotFound then f
    else .http .internalServerError "사용자에 역할 추가 중 오류가 발생했습니다"
  | .removeRole _ _, f =>
    if f.isNotFound || f.isConflict then f
    else .http .internalServerError "사용자에서 역할 제거 중 오류가 발생했습니다"

namespace AuthService
variable (sys : AuthSystem)

def findById (users : UserCollection) (userId : String) : Except Failure User :=
  match sys.objectId userId with
  | none => .error (.native "CastError")
  | some id =>
    match users.findById id with
    | some user => .ok user
    | none => .error (.http .notFound s!"ID {userId}를 가진 사용자를 찾을 수 없습니다")

/-- The two payloads of `generateTokens`. The caller's own fields name the subject. -/
def accessPayload (userId : String) (user : User) (now : Int) : JwtPayload :=
  ⟨some userId, some user.email, some user.roles.reduceOption,
    some (now / 1000 + sys.accessLifetime)⟩

def refreshPayload (userId : String) (now : Int) : JwtPayload :=
  ⟨some userId, none, none, some (now / 1000 + sys.refreshLifetime)⟩

/-- The strings at hand are two that signing can return now. -/
def signsBoth (s : AuthState) (m : AuthMoment) (userId : String) (user : User) : Bool :=
  sys.signs s.signed m.accessToken (accessPayload sys userId user s.now) &&
    sys.signs (m.accessToken :: s.signed) m.refreshToken (refreshPayload sys userId s.now)

def timeLeft (accessToken : String) (now : Int) : Option Int :=
  (sys.expiry accessToken).map fun exp => exp * 1000 - now

def ceilSeconds (ms : Int) : Int := -((-ms) / 1000)

def start (s : AuthState) : AuthCall → AuthPhase
  | .login email password =>
    match s.users.findByEmail email with
    | some user =>
      if sys.compare password user.password then .savingLogin user
      else .raised (.http .unauthorized "이메일 또는 비밀번호가 잘못되었습니다")
    | none => .raised (.http .unauthorized "이메일 또는 비밀번호가 잘못되었습니다")
  | .register dto =>
    match s.users.findByEmail dto.email with
    | some _ => .raised (.http .conflict "이미 존재하는 이메일입니다")
    | none => .inserting dto
  | .refreshToken userId refreshToken =>
    if sys.validateRefreshToken s s.now userId refreshToken then .validated userId
    else .raised (.http .unauthorized "유효하지 않은 리프레시 토큰입니다")
  | .logout userId accessToken =>
    match timeLeft sys accessToken s.now with
    | some expiry =>
      if 0 < expiry then .blacklisting userId accessToken (ceilSeconds expiry) else .removing userId
    | none => .removing userId
  | .addRole userId role =>
    match findById sys s.users userId with
    | .ok user =>
      if some role ∈ user.roles then .clearingId user userId else .pushing user userId role
    | .error f => .raised ((AuthCall.addRole userId role).caught f)
  | .removeRole userId role =>
    match findById sys s.users userId with
    | .ok user =>
      if user.roles.length = 1 then
        .raised (.http .conflict "사용자의 마지막 역할은 제거할 수 없습니다")
      else .setting user userId (user.roles.filter fun r => r.map Role.value ≠ some role)
    | .error f => .raised ((AuthCall.removeRole userId role).caught f)

/-- What a failing first step comes to: a refresh takes its token for invalid, logout has
not yet called anything. -/
def startFault (s : AuthState) : AuthCall → AuthPhase
  | .refreshToken _ _ => .raised (.http .unauthorized "유효하지 않은 리프레시 토큰입니다")
  | .logout userId accessToken => start sys s (.logout userId accessToken)
  | call => .raised (call.caught storeFault)

def result (m : AuthMoment) (user : User) (shown : Bool) : AuthResult :=
  .tokens m.accessToken m.refreshToken (if shown then some user.view else none)

/-- One turn of a call whose step does not fail. -/
def proceed (call : AuthCall) (m : AuthMoment) : AuthPhase → AuthState → AuthPhase × AuthState
  | .started, s => (start sys s call, s)
  | .savingLogin user, s =>
    match s.users.setLastLogin user.id s.now with
    | some users =>
      (if user.isActive then .signing user.id user true
        else .raised (.http .unauthorized "이 계정은 비활성화되었습니다"), { s with users := users })
    | none => (.raised (call.caught storeFault), s)
  | .inserting dto, s =>
    match newUser sys dto m with
    | some user =>
      match s.users.insert user with
      | .ok users =>
        -- where the body has `null` for an id, the driver makes one up and tells nobody
        (if dto.nullId then .unnamed else .signing user.id user true, { s with users := users })
      | .error f => (.raised (call.caught f), s)
    | none => (.raised (call.caught (.native "ValidationError")), s)
  | .unnamed, s => (.raised (call.caught (.native "TypeError")), s)
  | .validated userId, s =>
    match findById sys s.users userId with
    | .ok user =>
      (if user.isActive then .signing userId user false
        else .raised (.http .unauthorized "유효하지 않은 사용자입니다"), s)
    | .error f => (.raised (call.caught f), s)
  | .signing userId user shown, s =>
    if signsBoth sys s m userId user then
      match sys.saveRefreshToken s userId m.refreshToken with
      | .ok cache =>
        (.returned (result m user shown),
          { s with cache := cache, signed := m.refreshToken :: m.accessToken :: s.signed })
      | .error f => (.raised (call.caught f), s)
    else (.signing userId user shown, s)
  | .blacklisting userId accessToken ttl, s =>
    match cacheSet s.cache (blacklistKey accessToken) (.blacklisted userId) ttl s.now with
    | .ok cache => (.removing userId, { s with cache := cache })
    | .error f => (.raised (call.caught f), s)
  | .removing userId, s =>
    (.returned .loggedOut, { s with cache := KeyStore.del s.cache (refreshKey userId) })
  | .pushing user userId role, s =>
    match s.users.pushRole user.id role with
    | some users =>
      (.clearingId
        { user with roles := user.roles ++ [some role], version := user.version + 1 } userId,
        { s with users := users })
    | none => (.raised (call.caught storeFault), s)
  | .setting user userId roles, s =>
    -- an assignment that changes nothing is no modification, and `save` writes nothing
    if roles = user.roles then (.clearingId user userId, s)
    else
      match s.users.setRoles user.id user.version roles with
      | some users =>
        (.clearingId { user with roles := roles, version := user.version + 1 } userId,
          { s with users := users })
      | none => (.raised (call.caught storeFault), s)
  | .clearingId user userId, s =>
    (.clearingEmail user, { s with cache := KeyStore.del s.cache (userIdKey userId) })
  | .clearingEmail user, s =>
    (.returned (.user user), { s with cache := KeyStore.del s.cache (userEmailKey user.email) })
  | .returned result, s => (.returned result, s)
  | .raised f, s => (.raised f, s)

def failing (call : AuthCall) (s : AuthState) : AuthPhase → AuthPhase
  | .started => startFault sys s call
  | .returned result => .returned result
  | .raised f => .raised f
  | _ => .raised (call.caught storeFault)

def act (call : AuthCall) (m : AuthMoment) (l : AuthPhase) (s : AuthState) :
    AuthPhase × AuthState :=
  if m.fault then (failing sys call s l, s) else proceed sys call m l s

variable {sys}

/-- Everything a turn of a call can come to. -/
inductive Step (sys : AuthSystem) (call : AuthCall) (m : AuthMoment) (s : AuthState) :
    AuthPhase → AuthPhase → AuthState → Prop
  | stays {l} : Step sys call m s l l s
  | fails {l} (hl : l.ended = false) (f : Failure) : Step sys call m s l (.raised f) s
  | finds (email password : String) (hcall : call = .login email password) (user : User) :
    Step sys call m s .started (.savingLogin user) s
  | admits (dto : RegisterDto) (hcall : call = .register dto) :
    Step sys call m s .started (.inserting dto) s
  | validates (userId token : String) (hcall : call = .refreshToken userId token)
      (hvalid : sys.validateRefreshToken s s.now userId token = true) :
    Step sys call m s .started (.validated userId) s
  | outlives (userId token : String) (exp : Int) (hcall : call = .logout userId token)
      (hexp : sys.expiry token = some exp) (hlive : s.now < exp * 1000) :
    Step sys call m s .started
      (.blacklisting userId token (ceilSeconds (exp * 1000 - s.now))) s
  | skips (userId token : String) (hcall : call = .logout userId token)
      (hexp : ∀ exp, sys.expiry token = some exp → exp * 1000 ≤ s.now) :
    Step sys call m s .started (.removing userId) s
  | holds (user : User) (userId : String) (role : Role) (hcall : call = .addRole userId role)
      (hu : user ∈ s.users.items) : Step sys call m s .started (.clearingId user userId) s
  | lacks (user : User) (userId : String) (role : Role) (hcall : call = .addRole userId role)
      (hu : user ∈ s.users.items) : Step sys call m s .started (.pushing user userId role) s
  | filters (user : User) (userId role : String) (hcall : call = .removeRole userId role)
      (hu : user ∈ s.users.items) (hlast : user.roles.length ≠ 1) :
    Step sys call m s .started
      (.setting user userId (user.roles.filter fun r => r.map Role.value ≠ some role)) s
  | logsIn (user : User) (users : UserCollection)
      (hset : s.users.setLastLogin user.id s.now = some users) (l)
      (hl : l = .signing user.id user true ∨ ∃ f, l = .raised f) :
    Step sys call m s (.savingLogin user) l { s with users := users }
  | inserts (dto : RegisterDto) (user : User) (users : UserCollection) (hf : m.fault = false)
      (hnew : newUser sys dto m = some user) (hset : s.users.insert user = .ok users) :
    Step sys call m s (.inserting dto) (.signing user.id user true) { s with users := users }
  | insertsUnnamed (dto : RegisterDto) (user : User) (users : UserCollection)
      (hf : m.fault = false) (hnew : newUser sys dto m = some user)
      (hset : s.users.insert user = .ok users) :
    Step sys call m s (.inserting dto) .unnamed { s with users := users }
  | resumes (userId : String) (user : User) :
    Step sys call m s (.validated userId) (.signing userId user false) s
  | saves (userId : String) (user : User) (shown : Bool) (hf : m.fault = false)
      (hsigns : signsBoth sys s m userId user = true) (cache : KeyStore.Store CacheValue)
      (hsave : sys.saveRefreshToken s userId m.refreshToken = .ok cache) :
    Step sys call m s (.signing userId user shown) (.returned (result m user shown))
      { s with cache := cache, signed := m.refreshToken :: m.accessToken :: s.signed }
  | blacklists (userId token : String) (ttl : Int) (cache : KeyStore.Store CacheValue)
      (hset : cacheSet s.cache (blacklistKey token) (.blacklisted userId) ttl s.now = .ok cache) :
    Step sys call m s (.blacklisting userId token ttl) (.removing userId) { s with cache := cache }
  | removes (userId : String) :
    Step sys call m s (.removing userId) (.returned .loggedOut)
      { s with cache := KeyStore.del s.cache (refreshKey userId) }
  | pushes (user : User) (userId : String) (role : Role) (users : UserCollection)
      (hf : m.fault = false) (hset : s.users.pushRole user.id role = some users) (user' : User) :
    Step sys call m s (.pushing user userId role) (.clearingId user' userId)
      { s with users := users }
  | sets (user : User) (userId : String) (roles : List (Option Role)) (users : UserCollection)
      (hset : s.users.setRoles user.id user.version roles = some users) (user' : User) :
    Step sys call m s (.setting user userId roles) (.clearingId user' userId)
      { s with users := users }
  | keeps (user : User) (userId : String) :
    Step sys call m s (.setting user userId user.roles) (.clearingId user userId) s
  | clearsId (user : User) (userId : String) :
    Step sys call m s (.clearingId user userId) (.clearingEmail user)
      { s with cache := KeyStore.del s.cache (userIdKey userId) }
  | clearsEmail (user : User) :
    Step sys call m s (.clearingEmail user) (.returned (.user user))
      { s with cache := KeyStore.del s.cache (userEmailKey user.email) }

theorem user_mem {users : UserCollection} {userId : String} {user : User}
    (h : findById sys users userId = .ok user) : user ∈ users.items := by
  unfold findById at h
  split at h
  · cases h
  · split at h
    next u hu =>
      cases h
      exact (UserCollection.mem_of_findById hu).1
    next => cases h

theorem logout_step (m : AuthMoment) (s : AuthState) (userId token : String) :
    Step sys (.logout userId token) m s .started (start sys s (.logout userId token)) s := by
  simp only [start, timeLeft]
  cases hexp : sys.expiry token with
  | none => exact .skips userId token rfl (by simp [hexp])
  | some exp =>
    simp only [Option.map_some]
    split
    next hlive => exact .outlives userId token exp rfl hexp (by omega)
    next hdead =>
      refine .skips userId token rfl fun exp' hexp' => ?_
      rw [hexp] at hexp'
      cases hexp'
      omega

theorem start_step (call : AuthCall) (m : AuthMoment) (s : AuthState) :
    Step sys call m s .started (start sys s call) s := by
  cases call with
  | login email password =>
    simp only [start]
    split
    · split
      · exact .finds email password rfl _
      · exact .fails rfl _
    · exact .fails rfl _
  | register dto =>
    simp only [start]
    split
    · exact .fails rfl _
    · exact .admits dto rfl
  | refreshToken userId token =>
    simp only [start]
    split
    next hvalid => exact .validates userId token rfl hvalid
    next => exact .fails rfl _
  | logout userId token => exact logout_step m s userId token
  | addRole userId role =>
    simp only [start]
    split
    next user hu =>
      split
      · exact .holds user userId role rfl (user_mem hu)
      · exact .lacks user userId role rfl (user_mem hu)
    next => exact .fails rfl _
  | removeRole userId role =>
    simp only [start]
    split
    next user hu =>
      split
      · exact .fails rfl _
      next hlast => exact .filters user userId role rfl (user_mem hu) hlast
    next => exact .fails rfl _

theorem failing_step (call : AuthCall) (m : AuthMoment) (l : AuthPhase) (s : AuthState) :
    Step sys call m s l (failing sys call s l) s := by
  cases l with
  | started =>
    cases call with
    | logout userId token => exact logout_step m s userId token
    | _ => exact .fails rfl _
  | returned result => exact .stays
  | raised f => exact .stays
  | _ => exact .fails rfl _

theorem act_step (sys : AuthSystem) (call : AuthCall) (m : AuthMoment) (l : AuthPhase)
    (s : AuthState) :
    Step sys call m s l (act sys call m l s).1 (act sys call m l s).2 := by
  unfold act
  by_cases hf : m.fault = true
  · rw [if_pos hf]
    exact failing_step call m l s
  · rw [if_neg hf]
    cases l with
    | started => exact start_step call m s
    | savingLogin user =>
      simp only [proceed]
      split
      next users hset =>
        refine .logsIn user users hset _ ?_
        split
        · exact .inl rfl
        · exact .inr ⟨_, rfl⟩
      next => exact .fails rfl _
    | inserting dto =>
      simp only [proceed]
      split
      next user hnew =>
        split
        next users hset =>
          split
          · exact .insertsUnnamed dto user users (by simpa using hf) hnew hset
          · exact .inserts dto user users (by simpa using hf) hnew hset
        next => exact .fails rfl _
      next => exact .fails rfl _
    | unnamed => exact .fails rfl _
    | validated userId =>
      simp only [proceed]
      split
      · split
        · exact .resumes userId _
        · exact .fails rfl _
      · exact .fails rfl _
    | signing userId user shown =>
      simp only [proceed]
      split
      next hsigns =>
        split
        next cache hsave =>
          exact .saves userId user shown (by simpa using hf) hsigns cache hsave
        next => exact .fails rfl _
      next => exact .stays
    | blacklisting userId token ttl =>
      simp only [proceed]
      split
      next cache hset => exact .blacklists userId token ttl cache hset
      next => exact .fails rfl _
    | removing userId => exact .removes userId
    | pushing user userId role =>
      simp only [proceed]
      split
      next users hset =>
        exact .pushes user userId role users (by simpa using hf) hset _
      next => exact .fails rfl _
    | setting user userId roles =>
      simp only [proceed]
      split
      next hsame =>
        subst hsame
        exact .keeps user userId
      next =>
        split
        next users hset => exact .sets user userId roles users hset _
        next => exact .fails rfl _
    | clearingId user userId => exact .clearsId user userId
    | clearingEmail user => exact .clearsEmail user
    | returned result => exact .stays
    | raised f => exact .stays

/-- A call that signs now gets its refresh token saved by this turn. -/
def Saves (sys : AuthSystem) (m : AuthMoment) (s : AuthState) (userId : String) (user : User) :
    Prop :=
  m.fault = false ∧ signsBoth sys s m userId user = true ∧
    ∃ cache, sys.saveRefreshToken s userId m.refreshToken = .ok cache

theorem signsBoth_fresh {m : AuthMoment} {s : AuthState} {userId : String} {user : User}
    (h : signsBoth sys s m userId user = true) :
    m.refreshToken ∉ s.signed ∧ Js.trim m.refreshToken = m.refreshToken ∧
      Js.trim m.accessToken = m.accessToken := by
  simp only [signsBoth, AuthSystem.signs, Bool.and_eq_true, decide_eq_true_eq] at h
  exact ⟨fun hmem => h.2.1 (List.mem_cons_of_mem _ hmem), h.2.2.2.1, h.1.2.2.1⟩

theorem signsBoth_access_fresh {m : AuthMoment} {s : AuthState} {userId : String} {user : User}
    (h : signsBoth sys s m userId user = true) : m.accessToken ∉ s.signed := by
  simp only [signsBoth, AuthSystem.signs, Bool.and_eq_true, decide_eq_true_eq] at h
  exact h.1.1

theorem signsBoth_payloads {m : AuthMoment} {s : AuthState} {userId : String} {user : User}
    (h : signsBoth sys s m userId user = true) :
    sys.decode m.accessToken = some (accessPayload sys userId user s.now) ∧
      m.refreshToken ≠ "" ∧ sys.decode m.refreshToken = some (refreshPayload sys userId s.now) := by
  simp only [signsBoth, AuthSystem.signs, Bool.and_eq_true, decide_eq_true_eq] at h
  exact ⟨h.1.2.2.2, h.2.2.1, h.2.2.2.2⟩

theorem act_saves (call : AuthCall) {m : AuthMoment} {s : AuthState} {userId : String}
    {user : User} (shown : Bool) (h : Saves sys m s userId user) :
    (act sys call m (.signing userId user shown) s).1 = .returned (result m user shown) ∧
    (act sys call m (.signing userId user shown) s).2.signed =
      m.refreshToken :: m.accessToken :: s.signed ∧
    KeyStore.get (act sys call m (.signing userId user shown) s).2.cache (refreshKey userId) =
      some (.refreshToken m.refreshToken) := by
  obtain ⟨hf, hsigns, cache, hsave⟩ := h
  obtain ⟨ttl, rfl⟩ := saveRefreshToken_ok hsave
  simp [act, hf, proceed, hsigns, hsave]

/-- What a turn does to the refresh token of a user: nothing, a removal or a save. -/
theorem refreshKey_step {call : AuthCall} {m : AuthMoment} {s s' : AuthState} {l l' : AuthPhase}
    (h : Step sys call m s l l' s') (userId : String) :
    s'.cache (refreshKey userId) = s.cache (refreshKey userId) ∨
    (l = .removing userId ∧ s'.cache (refreshKey userId) = none) ∨
    ∃ user shown, l = .signing userId user shown ∧ Saves sys m s userId user ∧
      KeyStore.get s'.cache (refreshKey userId) = some (.refreshToken m.refreshToken) := by
  cases h with
  | saves userId' user shown hf hsigns cache hsave =>
    obtain ⟨ttl, hcache⟩ := saveRefreshToken_ok hsave
    by_cases hu : userId = userId'
    · subst hu
      refine .inr (.inr ⟨user, shown, rfl, ⟨hf, hsigns, cache, hsave⟩, ?_⟩)
      rw [hcache, KeyStore.get_set_self]
    · have hkey := KeyStore.set_other hcache (mt refreshKey_inj.mp hu)
      exact .inl hkey
  | blacklists userId' token ttl cache hset =>
    have hne := refreshKey_ne_blacklistKey userId token
    exact .inl (KeyStore.set_other (cacheSet_ok hset).2 hne)
  | removes userId' =>
    by_cases hu : userId = userId'
    · subst hu
      exact .inr (.inl ⟨rfl, KeyStore.del_self _ _⟩)
    · have hkey := KeyStore.del_other s.cache (mt refreshKey_inj.mp hu)
      exact .inl hkey
  | clearsId user userId' =>
    have hne := (userIdKey_ne_refreshKey userId' userId).symm
    exact .inl (KeyStore.del_other s.cache hne)
  | clearsEmail user =>
    have hne := (userEmailKey_ne_refreshKey user.email userId).symm
    exact .inl (KeyStore.del_other s.cache hne)
  | _ => exact .inl rfl

theorem signed_step {call : AuthCall} {m : AuthMoment} {s s' : AuthState} {l l' : AuthPhase}
    (h : Step sys call m s l l' s') {t : String} (ht : t ∈ s.signed) : t ∈ s'.signed := by
  cases h with
  | saves => exact List.mem_cons_of_mem _ (List.mem_cons_of_mem _ ht)
  | _ => exact ht

theorem step_now {call : AuthCall} {m : AuthMoment} {s s' : AuthState} {l l' : AuthPhase}
    (h : Step sys call m s l l' s') : s'.now = s.now := by
  cases h <;> rfl

theorem Step.ended {call : AuthCall} {m : AuthMoment} {s s' : AuthState} {l l' : AuthPhase}
    (h : Step sys call m s l l' s') (hl : l.ended = true) : l' = l ∧ s' = s := by
  cases h with
  | stays => exact ⟨rfl, rfl⟩
  | fails hfalse => rw [hl] at hfalse; cases hfalse
  | _ => cases hl

end AuthService

def authStart {κ : Type*} (s : AuthState) : World κ AuthState AuthPhase := ⟨s, fun _ => .started⟩

def authServer {κ : Type*} (sys : AuthSystem) (call : κ → AuthCall) :
    Pool κ AuthMoment AuthEnv AuthState AuthPhase where
  act k m l s := AuthService.act sys (call k) m l s
  env e s := e.act s

theorem returned_run {κ : Type*} [DecidableEq κ] {sys : AuthSystem} {call : κ → AuthCall}
    {w : World κ AuthState AuthPhase} {k : κ} {result : AuthResult}
    (h : w.calls k = .returned result) (turns : List (Turn κ AuthMoment AuthEnv)) :
    (run (authServer sys call).step w turns).calls k = .returned result := by
  refine run_invariant (I := fun w : World κ AuthState AuthPhase =>
    w.calls k = .returned result) (fun w t hw => ?_) h turns
  cases t with
  | env e => exact hw
  | call k' m =>
    by_cases hk : k = k'
    · subst hk
      rw [step_call_self, ← hw]
      exact ((AuthService.act_step sys (call k) m (w.calls k) w.shared).ended
        (by rw [hw]; rfl)).1
    · rw [step_call_other _ _ hk]
      exact hw

/-- A system whose tokens decode as the table says, and whose hash is the password. -/
def AuthSystem.ofTable (table : List (String × JwtPayload)) : AuthSystem where
  decode t := table.lookup t
  hash password _ := password
  compare password hash := decide (password = hash)
  objectId := some
  casts := .plain
  accessLifetime := 3600
  refreshLifetime := 604800

def aliceTokens : List (String × JwtPayload) :=
  ["1", "2", "3"].flatMap fun n =>
    [("access" ++ n, ⟨some "u1", some "alice@x", some [.USER], some 3600⟩),
      ("refresh" ++ n, ⟨some "u1", none, none, some 604800⟩)]

def alice : User :=
  { id := "u1", name := "alice", email := "alice@x", password := "secret99", roles := [some .USER] }

def aliceState (signed : List String) (token : Option String) : AuthState where
  users := ⟨[alice], List.pairwise_singleton _ _⟩
  cache key := if key = refreshKey "u1" then token.map fun t => ⟨.refreshToken t, none⟩ else none
  now := 0
  signed := signed

end MsaTuto
