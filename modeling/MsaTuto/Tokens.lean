import MsaTuto.Js
import MsaTuto.KeyStore
import MsaTuto.Mongoose
import MsaTuto.Users

/-! Tokens and the session cache of the auth server: `tokens.service.ts`,
`cache.service.ts`, and the checks of `auth.service.ts` that read them. -/
namespace MsaTuto

/-- A decoded token, as far as the servers read it: of its role list they only ask which roles are
in it, so a `null` entry is left out. `exp` counts seconds. -/
structure JwtPayload where
  sub : Option String
  email : Option String := none
  roles : Option (List Role) := none
  exp : Option Int
  deriving DecidableEq

structure JwtUserDto where
  userId : Option String
  email : Option String
  roles : Option (List Role)
  deriving DecidableEq

inductive CacheValue where
  | refreshToken (token : String)
  | blacklisted (userId : String)
  deriving DecidableEq

def CacheValue.text : CacheValue → String
  | .refreshToken token => token
  | .blacklisted _ => "[object Object]"

/-- The state all operations share. The clock counts milliseconds, and `signed` are
the strings that were ever signed with the secret. -/
structure AuthState where
  users : UserCollection
  cache : KeyStore.Store CacheValue
  now : Int
  signed : List String

structure AuthSystem where
  /-- `jwtService.decode`, which looks at no signature. -/
  decode : String → Option JwtPayload
  hash : String → String → String
  compare : String → String → Bool
  /-- The cast of an id to an ObjectId; `none` is a CastError. -/
  objectId : String → Option String
  casts : Mongoose.Casts
  /-- `JWT_EXPIRATION` and `JWT_REFRESH_EXPIRATION`, in seconds. -/
  accessLifetime : Int
  refreshLifetime : Int

def refreshKey (userId : String) : String := "refresh_token:" ++ userId

def blacklistKey (token : String) : String := "blacklist:" ++ token

def userIdKey (userId : String) : String := "user:id:" ++ userId

def userEmailKey (email : String) : String := "user:" ++ email

def redisError : Failure := .native "ErrorReply"

/-- `CacheService.set`: a TTL of zero is none, and Redis refuses a negative one. -/
def cacheSet (cache : KeyStore.Store CacheValue) (key : String) (value : CacheValue)
    (ttl now : Int) : Except Failure (KeyStore.Store CacheValue) :=
  if ttl < 0 then .error redisError
  else .ok (KeyStore.set cache key value (if ttl = 0 then none else some ttl) now)

namespace AuthSystem
variable (sys : AuthSystem)

def expiry (token : String) : Option Int := (sys.decode token).bind JwtPayload.exp

/-- `t` can be what `jwtService.sign` returns for the payload: a string never signed
before, since every payload has an id of its own, and without white space. -/
def signs (signed : List String) (t : String) (payload : JwtPayload) : Bool :=
  decide (t ∉ signed ∧ t ≠ "" ∧ Js.trim t = t ∧ sys.decode t = some payload)

/-- `jwtService.verify`; `none` when it throws. -/
def verify (signed : List String) (now : Int) (token : String) : Option JwtPayload :=
  if token ∈ signed then
    match sys.decode token with
    | some payload =>
      match payload.exp with
      | some exp => if exp ≤ now / 1000 then none else some payload
      | none => some payload
    | none => none
  else none

def validateRefreshToken (s : AuthState) (now : Int) (userId refreshToken : String) : Bool :=
  match KeyStore.get s.cache (refreshKey userId) with
  | none => false
  | some value =>
    if value.text = "" then false
    else if Js.trim value.text ≠ Js.trim refreshToken then false
    else match sys.verify s.signed now refreshToken with
      | some payload => decide (payload.sub = some userId)
      | none => false

/-- `AuthService.validateJwtToken`, the key read in state `s` and the token verified at
time `now`. -/
def validateJwtToken (s : AuthState) (now : Int) (token : String) : Option JwtUserDto :=
  if (KeyStore.get s.cache (blacklistKey token)).isSome then none
  else (sys.verify s.signed now token).map fun p => ⟨p.sub, p.email, p.roles⟩

def saveRefreshToken (s : AuthState) (userId refreshToken : String) :
    Except Failure (KeyStore.Store CacheValue) :=
  match sys.expiry refreshToken with
  | none => .error (.native "Error")
  | some exp =>
    if exp = 0 then .error (.native "Error")
    else cacheSet s.cache (refreshKey userId) (.refreshToken refreshToken) (exp - s.now / 1000)
      s.now

variable {sys}

theorem verify_signed {signed : List String} {now : Int} {token : String} {p : JwtPayload}
    (h : sys.verify signed now token = some p) : token ∈ signed := by
  unfold verify at h
  split at h
  next hs => exact hs
  next => cases h

theorem verify_eq_some {signed : List String} {now : Int} {token : String} {p : JwtPayload} :
    sys.verify signed now token = some p ↔
      token ∈ signed ∧ sys.decode token = some p ∧ ∀ exp, p.exp = some exp → now / 1000 < exp := by
  unfold verify
  by_cases hs : token ∈ signed
  · cases hd : sys.decode token with
    | none => simp [hs]
    | some payload =>
      cases he : payload.exp with
      | none =>
        simp only [hs, if_true, he, Option.some.injEq, true_and]
        exact ⟨fun h => ⟨h, by rw [← h, he]; simp⟩, And.left⟩
      | some exp =>
        simp only [hs, if_true, he, true_and]
        by_cases hle : exp ≤ now / 1000
        · rw [if_pos hle]
          constructor
          · intro h
            cases h
          · intro ⟨h, hlive⟩
            have hlt := hlive exp (by rw [← Option.some.inj h, he])
            omega
        · rw [if_neg hle]
          refine ⟨fun h => ⟨h, fun exp' hexp' => ?_⟩, And.left⟩
          rw [← Option.some.inj h, he] at hexp'
          cases hexp'
          omega
  · simp [hs]

/-- A token that verifies no longer never verifies again. -/
theorem verify_none_later {signed signed' : List String} {t t' : Int} {token : String}
    (hs : token ∈ signed) (ht : t ≤ t') (hnone : sys.verify signed t token = none) :
    sys.verify signed' t' token = none := by
  cases hlater : sys.verify signed' t' token with
  | none => rfl
  | some p =>
    obtain ⟨-, hdecode, hlive⟩ := verify_eq_some.mp hlater
    have hnow : sys.verify signed t token = some p :=
      verify_eq_some.mpr ⟨hs, hdecode, fun exp hexp => by have := hlive exp hexp; omega⟩
    rw [hnone] at hnow
    cases hnow

theorem verify_expired {signed : List String} {now exp : Int} {token : String}
    (hexp : sys.expiry token = some exp) (hnow : exp * 1000 ≤ now) :
    sys.verify signed now token = none := by
  obtain ⟨p, hp, he⟩ := Option.bind_eq_some_iff.mp hexp
  have hle : exp ≤ now / 1000 := by omega
  simp [verify, hp, he, hle]

theorem of_validateRefreshToken {s : AuthState} {now : Int} {userId refreshToken : String}
    (h : sys.validateRefreshToken s now userId refreshToken = true) :
    ∃ value, KeyStore.get s.cache (refreshKey userId) = some value ∧
      Js.trim value.text = Js.trim refreshToken ∧ refreshToken ∈ s.signed := by
  unfold validateRefreshToken at h
  split at h
  · cases h
  next value hv =>
    split at h
    · cases h
    · split at h
      · cases h
      next htrim =>
        refine ⟨value, hv, by simpa using htrim, ?_⟩
        split at h
        next p hp => exact verify_signed hp
        next => cases h

end AuthSystem

theorem refreshKey_inj {u v : String} : refreshKey u = refreshKey v ↔ u = v := by
  simp [refreshKey]

theorem blacklistKey_inj {t t' : String} : blacklistKey t = blacklistKey t' ↔ t = t' := by
  simp [blacklistKey]

theorem cacheSet_ok {cache cache' : KeyStore.Store CacheValue} {key : String} {v : CacheValue}
    {ttl now : Int} (h : cacheSet cache key v ttl now = .ok cache') :
    0 ≤ ttl ∧ cache' = KeyStore.set cache key v (if ttl = 0 then none else some ttl) now := by
  unfold cacheSet at h
  split at h
  · cases h
  · cases h
    exact ⟨by omega, rfl⟩

theorem saveRefreshToken_ok {sys : AuthSystem} {s : AuthState} {userId t : String}
    {cache : KeyStore.Store CacheValue} (h : sys.saveRefreshToken s userId t = .ok cache) :
    ∃ ttl, cache = KeyStore.set s.cache (refreshKey userId) (.refreshToken t) ttl s.now := by
  unfold AuthSystem.saveRefreshToken at h
  split at h
  · cases h
  · split at h
    · cases h
    · exact ⟨_, (cacheSet_ok h).2⟩

theorem ne_of_head {a b : String} (h : a.toList.head? ≠ b.toList.head?) : a ≠ b :=
  fun hab => h (hab ▸ rfl)

theorem refreshKey_ne_blacklistKey (u t : String) : refreshKey u ≠ blacklistKey t :=
  ne_of_head (by simp [refreshKey, blacklistKey])

theorem userIdKey_ne_blacklistKey (u t : String) : userIdKey u ≠ blacklistKey t :=
  ne_of_head (by simp [userIdKey, blacklistKey])

theorem userEmailKey_ne_blacklistKey (e t : String) : userEmailKey e ≠ blacklistKey t :=
  ne_of_head (by simp [userEmailKey, blacklistKey])

theorem userIdKey_ne_refreshKey (u v : String) : userIdKey u ≠ refreshKey v :=
  ne_of_head (by simp [userIdKey, refreshKey])

theorem userEmailKey_ne_refreshKey (e v : String) : userEmailKey e ≠ refreshKey v :=
  ne_of_head (by simp [userEmailKey, refreshKey])

end MsaTuto
