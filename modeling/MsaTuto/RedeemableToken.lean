import MsaTuto.RefreshTokens

/-! The refresh token that can be redeemed: `generateTokens` and `saveRefreshToken` with time
passing between signing, computing the TTL and the `SET` in Redis. -/
namespace MsaTuto
open Runs

/-- A call of `auth.service.ts`, with the turns of `generateTokens` apart. -/
inductive SessionPhase where
  | running (l : AuthPhase)
  | signed (userId : String) (user : User) (shown : Bool) (accessToken refreshToken : String)
  | saving (userId : String) (user : User) (shown : Bool) (accessToken refreshToken : String)
      (expiresIn : Int)

namespace SessionService
open AuthService hiding act act_step
variable (sys : AuthSystem)

def sign (m : AuthMoment) (userId : String) (user : User) (shown : Bool) (s : AuthState) :
    SessionPhase × AuthState :=
  if signsBoth sys s m userId user then
    (.signed userId user shown m.accessToken m.refreshToken,
      { s with signed := m.refreshToken :: m.accessToken :: s.signed })
  else (.running (.signing userId user shown), s)

def raise (call : AuthCall) (f : Failure) : SessionPhase := .running (.raised (call.caught f))

def act (call : AuthCall) (m : AuthMoment) : SessionPhase → AuthState → SessionPhase × AuthState
  | .running (.signing userId user shown), s =>
    if m.fault then (raise call storeFault, s) else sign sys m userId user shown s
  | .running l, s =>
    (.running (AuthService.act sys call m l s).1, (AuthService.act sys call m l s).2)
  | .signed userId user shown accessToken refreshToken, s =>
    match sys.expiry refreshToken with
    | some exp =>
      if exp = 0 then (raise call (.native "Error"), s)
      else (.saving userId user shown accessToken refreshToken (exp - s.now / 1000), s)
    | none => (raise call (.native "Error"), s)
  | .saving userId user shown accessToken refreshToken expiresIn, s =>
    if m.fault then (raise call storeFault, s)
    else
      match cacheSet s.cache (refreshKey userId) (.refreshToken refreshToken) expiresIn s.now with
      | .ok cache =>
        (.running (.returned (.tokens accessToken refreshToken
          (if shown then some user.view else none))), { s with cache := cache })
      | .error f => (raise call f, s)

variable {sys}

/-- Everything a turn can come to. -/
inductive SessionStep (sys : AuthSystem) (call : AuthCall) (m : AuthMoment) (s : AuthState) :
    SessionPhase → SessionPhase → AuthState → Prop
  | runs {l l' : AuthPhase} {s' : AuthState} (h : Step sys call m s l l' s')
      (hl : ∀ userId user shown, l ≠ .signing userId user shown) :
    SessionStep sys call m s (.running l) (.running l') s'
  | waits {l : SessionPhase} : SessionStep sys call m s l l s
  | fails {l : SessionPhase} (f : Failure) (hl : ∀ l', l = .running l' → l'.underway = true) :
    SessionStep sys call m s l (raise call f) s
  | signs (userId : String) (user : User) (shown : Bool)
      (hsigns : signsBoth sys s m userId user = true) :
    SessionStep sys call m s (.running (.signing userId user shown))
      (.signed userId user shown m.accessToken m.refreshToken)
      { s with signed := m.refreshToken :: m.accessToken :: s.signed }
  | times (userId : String) (user : User) (shown : Bool) (access token : String) (exp : Int)
      (hexp : sys.expiry token = some exp) :
    SessionStep sys call m s (.signed userId user shown access token)
      (.saving userId user shown access token (exp - s.now / 1000)) s
  | saves (userId : String) (user : User) (shown : Bool) (access token : String) (expiresIn : Int)
      (cache : KeyStore.Store CacheValue) (hf : m.fault = false)
      (hset : cacheSet s.cache (refreshKey userId) (.refreshToken token) expiresIn s.now =
        .ok cache) (l' : AuthPhase) :
    SessionStep sys call m s (.saving userId user shown access token expiresIn) (.running l')
      { s with cache := cache }

theorem act_step (sys : AuthSystem) (call : AuthCall) (m : AuthMoment) (l : SessionPhase)
    (s : AuthState) :
    SessionStep sys call m s l (act sys call m l s).1 (act sys call m l s).2 := by
  cases l with
  | running l =>
    by_cases hl : ∃ userId user shown, l = .signing userId user shown
    · obtain ⟨userId, user, shown, rfl⟩ := hl
      simp only [act]
      split
      · refine .fails _ fun l' hl' => ?_
        cases hl'
        rfl
      · simp only [sign]
        split
        next hsigns => exact .signs userId user shown hsigns
        next => exact .waits
    · have hact : act sys call m (.running l) s =
          (.running (AuthService.act sys call m l s).1, (AuthService.act sys call m l s).2) := by
        cases l with
        | signing userId user shown => exact absurd ⟨userId, user, shown, rfl⟩ hl
        | _ => rfl
      rw [hact]
      exact .runs (AuthService.act_step sys call m l s)
        fun userId user shown hsame => hl ⟨userId, user, shown, hsame⟩
  | signed userId user shown access token =>
    simp only [act]
    split
    next exp hexp =>
      split
      · exact .fails _ fun _ h => by cases h
      · exact .times userId user shown access token exp hexp
    next => exact .fails _ fun _ h => by cases h
  | saving userId user shown access token expiresIn =>
    simp only [act]
    split
    · exact .fails _ fun _ h => by cases h
    next hf =>
      split
      next cache hset =>
        exact .saves userId user shown access token expiresIn cache (by simpa using hf) hset _
      next => exact .fails _ fun _ h => by cases h

/-- At one moment the three turns are the one in which `AuthService.act` signs and saves. -/
theorem act_thrice (call : AuthCall) {m : AuthMoment} {s : AuthState} {userId : String}
    {user : User} (shown : Bool) (h : Saves sys m s userId user) :
    let one := act sys call m (.running (.signing userId user shown)) s
    let two := act sys call m one.1 one.2
    act sys call m two.1 two.2 =
      (.running (AuthService.act sys call m (.signing userId user shown) s).1,
        (AuthService.act sys call m (.signing userId user shown) s).2) := by
  obtain ⟨hf, hsigns, cache, hsave⟩ := h
  have hone : act sys call m (.running (.signing userId user shown)) s =
      (.signed userId user shown m.accessToken m.refreshToken,
        { s with signed := m.refreshToken :: m.accessToken :: s.signed }) := by
    simp [act, sign, hf, hsigns]
  have hact : AuthService.act sys call m (.signing userId user shown) s =
      (.returned (result m user shown),
        { s with cache := cache, signed := m.refreshToken :: m.accessToken :: s.signed }) := by
    simp [AuthService.act, proceed, hf, hsigns, hsave]
  simp only [AuthSystem.saveRefreshToken] at hsave
  split at hsave
  · cases hsave
  next exp hexp =>
    split at hsave
    · cases hsave
    next hne =>
      rw [hone, hact]
      simp [act, hexp, hne, hf, hsave, result]

end SessionService

def sessions {κ : Type*} (sys : AuthSystem) (calls : κ → AuthCall) :
    Pool κ AuthMoment AuthEnv AuthState SessionPhase where
  act k m l s := SessionService.act sys (calls k) m l s
  env e s := e.act s

/-- Any users, at any time, before the first token is signed. -/
def sessionStart {κ : Type*} (users : UserCollection) (now : Int) :
    World κ AuthState SessionPhase :=
  ⟨⟨users, fun _ => none, now, []⟩, fun _ => .running .started⟩

section Redis
variable {κ : Type*}

abbrev SessionTurn (κ : Type*) := Turn κ AuthMoment AuthEnv

/-- Redis sets the user's key to the token. -/
def SetsKey (m : AuthMoment) (l : SessionPhase) (s : AuthState) (userId token : String) : Prop :=
  m.fault = false ∧ ∃ user shown access expiresIn cache,
    l = .saving userId user shown access token expiresIn ∧
    cacheSet s.cache (refreshKey userId) (.refreshToken token) expiresIn s.now = .ok cache

/-- A logout deletes the user's key. -/
def DeletesKey (m : AuthMoment) (l : SessionPhase) (userId : String) : Prop :=
  m.fault = false ∧ l = .running (.removing userId)

def SavesToken (userId token : String) (w : World κ AuthState SessionPhase) : SessionTurn κ → Prop
  | .call k m => SetsKey m (w.calls k) w.shared userId token
  | .env _ => False

def RemovesToken (userId : String) (w : World κ AuthState SessionPhase) : SessionTurn κ → Prop
  | .call k m => DeletesKey m (w.calls k) userId
  | .env _ => False

variable [DecidableEq κ]

/-- `token` is what was last saved for the user in the run, and nothing was removed since. -/
def LastSaved (sys : AuthSystem) (calls : κ → AuthCall) (users : UserCollection) (now : Int)
    (turns : List (SessionTurn κ)) (userId token : String) : Prop :=
  Since (sessions sys calls).step (SavesToken userId token)
    (fun w t => (∀ other, ¬SavesToken userId other w t) ∧ ¬RemovesToken userId w t)
    (sessionStart users now) turns

end Redis

/-- Signed as a refresh token of the user. -/
def Issued (sys : AuthSystem) (s : AuthState) (userId token : String) : Prop :=
  token ∈ s.signed ∧ token ≠ "" ∧
    ∃ exp, sys.decode token = some ⟨some userId, none, none, some exp⟩

/-- Redis will not drop the entry before the token has expired. -/
def OutlastsToken (sys : AuthSystem) (token : String) (expiresAt : Option Int) : Prop :=
  ∀ x exp, expiresAt = some x → sys.expiry token = some exp → exp * 1000 ≤ x

structure EntriesFit (sys : AuthSystem) (s : AuthState) : Prop where
  trimmed : SignedTrimmed s
  entry : ∀ userId e, s.cache (refreshKey userId) = some e → ∃ token,
    e.value = .refreshToken token ∧ Issued sys s userId token ∧ OutlastsToken sys token e.expiresAt

def SavingFits (sys : AuthSystem) (l : SessionPhase) (s : AuthState) : Prop :=
  match l with
  | .running _ => True
  | .signed userId _ _ _ token => Issued sys s userId token
  | .saving userId _ _ _ token expiresIn => Issued sys s userId token ∧
      ∀ exp, sys.expiry token = some exp → exp ≤ s.now / 1000 + expiresIn

section Turns
open SessionService
open AuthService hiding act act_step
variable {sys : AuthSystem} {call : AuthCall} {m : AuthMoment} {s s' : AuthState}
  {userId token : String}

theorem Issued.mono (h : Issued sys s userId token) (hsigned : ∀ t ∈ s.signed, t ∈ s'.signed) :
    Issued sys s' userId token :=
  ⟨hsigned _ h.1, h.2⟩

theorem Issued.expiry (h : Issued sys s userId token) : ∃ exp, sys.expiry token = some exp := by
  obtain ⟨-, -, exp, hdecode⟩ := h
  exact ⟨exp, by simp [AuthSystem.expiry, hdecode]⟩

theorem SavingFits.mono {l : SessionPhase} (h : SavingFits sys l s)
    (hsigned : ∀ t ∈ s.signed, t ∈ s'.signed) (hnow : s.now ≤ s'.now) : SavingFits sys l s' := by
  cases l with
  | running l => trivial
  | signed u user shown access token => exact Issued.mono h hsigned
  | saving u user shown access token expiresIn =>
    refine ⟨h.1.mono hsigned, fun exp hexp => ?_⟩
    have hle := h.2 exp hexp
    have hdiv := Int.ediv_le_ediv (show (0 : Int) < 1000 by omega) hnow
    omega

theorem issued_of_signs {user : User} (h : signsBoth sys s m userId user = true) :
    m.refreshToken ≠ "" ∧
      ∃ exp, sys.decode m.refreshToken = some ⟨some userId, none, none, some exp⟩ := by
  obtain ⟨-, hne, hdecode⟩ := signsBoth_payloads h
  exact ⟨hne, _, hdecode⟩

theorem session_grows {l l' : SessionPhase} (h : SessionStep sys call m s l l' s') :
    (∀ t ∈ s.signed, t ∈ s'.signed) ∧ s'.now = s.now := by
  cases h with
  | runs h hl => exact ⟨fun _ => signed_step h, step_now h⟩
  | signs => exact ⟨fun t ht => List.mem_cons_of_mem _ (List.mem_cons_of_mem _ ht), rfl⟩
  | _ => exact ⟨fun _ ht => ht, rfl⟩

/-- What a call does to the user's key in a turn: it deletes it, sets it or leaves it alone. -/
theorem key_act (sys : AuthSystem) (call : AuthCall) (m : AuthMoment) (l : SessionPhase)
    (s : AuthState) (userId : String) :
    (DeletesKey m l userId ∧ (act sys call m l s).2.cache (refreshKey userId) = none) ∨
    (∃ token, SetsKey m l s userId token ∧
      KeyStore.get (act sys call m l s).2.cache (refreshKey userId) =
        some (.refreshToken token)) ∨
    ((∀ token, ¬SetsKey m l s userId token) ∧ ¬DeletesKey m l userId ∧
      (act sys call m l s).2.cache (refreshKey userId) = s.cache (refreshKey userId)) := by
  by_cases hset : ∃ token, SetsKey m l s userId token
  · obtain ⟨token, hf, user, shown, access, expiresIn, cache, rfl, hok⟩ := hset
    refine .inr (.inl ⟨token, ⟨hf, user, shown, access, expiresIn, cache, rfl, hok⟩, ?_⟩)
    simp [act, hf, hok, (cacheSet_ok hok).2]
  · by_cases hdel : DeletesKey m l userId
    · refine .inl ⟨hdel, ?_⟩
      obtain ⟨hf, rfl⟩ := hdel
      simp [act, AuthService.act, proceed, hf]
    · refine .inr (.inr ⟨fun token h => hset ⟨token, h⟩, hdel, ?_⟩)
      by_cases hremoving : l = .running (.removing userId)
      · subst hremoving
        have hf : m.fault = true := by
          by_contra hf
          exact hdel ⟨by simpa using hf, rfl⟩
        simp [act, AuthService.act, failing, hf]
      · have hstep := act_step sys call m l s
        generalize (act sys call m l s).1 = l', (act sys call m l s).2 = s' at hstep
        cases hstep with
        | runs h hl =>
          obtain hkey | ⟨rfl, -⟩ | ⟨user, shown, rfl, -⟩ := refreshKey_step h userId
          · exact hkey
          · exact absurd rfl hremoving
          · exact absurd rfl (hl userId user shown)
        | saves userId' user shown access token expiresIn cache hf hok =>
          have hne : userId ≠ userId' := by
            rintro rfl
            exact hset ⟨token, hf, user, shown, access, expiresIn, cache, rfl, hok⟩
          exact KeyStore.set_other (cacheSet_ok hok).2 (mt refreshKey_inj.mp hne)
        | _ => rfl

theorem entriesFit_step {l l' : SessionPhase} (h : SessionStep sys call m s l l' s')
    (hs : EntriesFit sys s) (hl : SavingFits sys l s) : EntriesFit sys s' := by
  have hgrows := (session_grows h).1
  have hkeep : ∀ userId e, s.cache (refreshKey userId) = some e → ∃ token,
      e.value = .refreshToken token ∧ Issued sys s' userId token ∧
        OutlastsToken sys token e.expiresAt := by
    intro userId e he
    obtain ⟨token, hvalue, hissued, hlasts⟩ := hs.entry userId e he
    exact ⟨token, hvalue, hissued.mono hgrows, hlasts⟩
  cases h with
  | runs h hsigning =>
    refine ⟨signedTrimmed_step h hs.trimmed, fun userId e he => ?_⟩
    obtain hkey | ⟨-, hkey⟩ | ⟨user, shown, rfl, -⟩ := refreshKey_step h userId
    · exact hkeep userId e (hkey ▸ he)
    · rw [hkey] at he
      cases he
    · exact absurd rfl (hsigning userId user shown)
  | waits => exact hs
  | fails f hl => exact hs
  | signs userId user shown hsigns =>
    obtain ⟨-, hrefresh, haccess⟩ := signsBoth_fresh hsigns
    refine ⟨fun t ht => ?_, hkeep⟩
    obtain rfl | ht := List.mem_cons.mp ht
    · exact hrefresh
    · obtain rfl | ht := List.mem_cons.mp ht
      · exact haccess
      · exact hs.trimmed t ht
  | times => exact hs
  | saves userId user shown access token expiresIn cache hf hset =>
    obtain ⟨hissued, hle⟩ := hl
    obtain ⟨-, hcache⟩ := cacheSet_ok hset
    refine ⟨hs.trimmed, fun u e he => ?_⟩
    change cache (refreshKey u) = some e at he
    by_cases hu : u = userId
    · subst hu
      rw [hcache, KeyStore.set_self] at he
      cases he
      refine ⟨token, rfl, hissued, fun x exp hx hexp => ?_⟩
      have hexpires := hle exp hexp
      split at hx
      · cases hx
      · simp only [Option.map_some, Option.some.injEq] at hx
        omega
    · exact hkeep u e ((KeyStore.set_other hcache (mt refreshKey_inj.mp hu)).symm.trans he)

theorem savingFits_step {l l' : SessionPhase} (h : SessionStep sys call m s l l' s')
    (hl : SavingFits sys l s) : SavingFits sys l' s' := by
  cases h with
  | waits => exact hl
  | signs userId user shown hsigns =>
    exact ⟨List.mem_cons_self, issued_of_signs hsigns⟩
  | times userId user shown access token exp hexp =>
    refine ⟨hl, fun exp' hexp' => ?_⟩
    rw [hexp] at hexp'
    cases hexp'
    omega
  | _ => trivial

/-- A token that Redis has let go of has expired. -/
theorem drop_token (hs : EntriesFit sys s)
    (hget : KeyStore.get s.cache (refreshKey userId) = some (.refreshToken token)) (key : String) :
    KeyStore.get (KeyStore.drop s.cache key s.now) (refreshKey userId) =
        some (.refreshToken token) ∨
      ∃ exp, sys.expiry token = some exp ∧ exp * 1000 ≤ s.now := by
  obtain hkey | ⟨-, e, he, hexpired⟩ := KeyStore.drop_expired s.cache (refreshKey userId) key s.now
  · exact .inl ((KeyStore.get_congr hkey).trans hget)
  · refine .inr ?_
    obtain ⟨token', hvalue, hissued, hlasts⟩ := hs.entry userId e he
    have hsame : token' = token := by
      rw [KeyStore.get, he, Option.map_some, hvalue] at hget
      cases hget
      rfl
    subst hsame
    obtain ⟨exp, hexp⟩ := hissued.expiry
    refine ⟨exp, hexp, ?_⟩
    cases hx : e.expiresAt with
    | none => simp [KeyStore.expired, hx] at hexpired
    | some x =>
      have hle := hlasts x exp hx hexp
      simp only [KeyStore.expired, hx, decide_eq_true_eq] at hexpired
      omega

theorem validateRefreshToken_iff {now : Int} :
    sys.validateRefreshToken s now userId token = true ↔
      ∃ value, KeyStore.get s.cache (refreshKey userId) = some value ∧ value.text ≠ "" ∧
        Js.trim value.text = Js.trim token ∧
        ∃ payload, sys.verify s.signed now token = some payload ∧ payload.sub = some userId := by
  cases hget : KeyStore.get s.cache (refreshKey userId) with
  | none => simp [AuthSystem.validateRefreshToken, hget]
  | some value =>
    cases hverify : sys.verify s.signed now token with
    | none => simp [AuthSystem.validateRefreshToken, hget, hverify]
    | some payload => simp [AuthSystem.validateRefreshToken, hget, hverify]

end Turns

section Sessions
variable {κ : Type*} {sys : AuthSystem} {calls : κ → AuthCall}

theorem sessions_stable : Stable (sessions sys calls) (fun _ _ => True) (EntriesFit sys)
    (fun _ => SavingFits sys) where
  own w k m _ hs hl := by
    have hstep := SessionService.act_step sys (calls k) m (w.calls k) w.shared
    exact ⟨entriesFit_step hstep hs hl, savingFits_step hstep hl⟩
  other w k m k' _ _ _ _ hl' := by
    obtain ⟨hsigned, hnow⟩ :=
      session_grows (SessionService.act_step sys (calls k) m (w.calls k) w.shared)
    exact hl'.mono hsigned (Int.le_of_eq hnow.symm)
  env w e _ hs := by
    cases e with
    | tick ms =>
      have hnow : w.shared.now ≤ (AuthEnv.act (.tick ms) w.shared).now := by
        simp only [AuthEnv.act]
        omega
      exact ⟨⟨hs.trimmed, hs.entry⟩, fun k hl => hl.mono (fun _ ht => ht) hnow⟩
    | dropKey key =>
      refine ⟨⟨hs.trimmed, fun userId entry he => ?_⟩,
        fun k hl => hl.mono (fun _ ht => ht) (Int.le_refl _)⟩
      obtain hkey | hkey := KeyStore.drop_cases w.shared.cache (refreshKey userId) key w.shared.now
      · exact hs.entry userId entry (hkey.symm.trans he)
      · cases hkey.symm.trans he

variable [DecidableEq κ] {users : UserCollection} {now : Int}

/-- What Redis holds for each user, in view of the turns taken so far. -/
structure Tracks (sys : AuthSystem) (calls : κ → AuthCall) (users : UserCollection) (now : Int)
    (turns : List (SessionTurn κ)) (w : World κ AuthState SessionPhase) : Prop where
  fits : Holds (EntriesFit sys) (fun _ : κ => SavingFits sys) w
  stored : ∀ userId token, KeyStore.get w.shared.cache (refreshKey userId) =
    some (.refreshToken token) → LastSaved sys calls users now turns userId token
  held : ∀ userId token, LastSaved sys calls users now turns userId token →
    KeyStore.get w.shared.cache (refreshKey userId) = some (.refreshToken token) ∨
      ∃ exp, sys.expiry token = some exp ∧ exp * 1000 ≤ w.shared.now

theorem lastSaved_snoc (sys : AuthSystem) (calls : κ → AuthCall) (users : UserCollection)
    (now : Int) (turns : List (SessionTurn κ)) (t : SessionTurn κ) (userId token : String) :
    LastSaved sys calls users now (turns ++ [t]) userId token ↔
      SavesToken userId token (run (sessions sys calls).step (sessionStart users now) turns) t ∨
        (LastSaved sys calls users now turns userId token ∧
          (∀ other, ¬SavesToken userId other
            (run (sessions sys calls).step (sessionStart users now) turns) t) ∧
          ¬RemovesToken userId (run (sessions sys calls).step (sessionStart users now) turns) t) :=
  since_snoc

theorem tracks_env (turns : List (SessionTurn κ)) (e : AuthEnv)
    (h : Tracks sys calls users now turns
      (run (sessions sys calls).step (sessionStart users now) turns)) :
    Tracks sys calls users now (turns ++ [.env e])
      ((sessions sys calls).step
        (run (sessions sys calls).step (sessionStart users now) turns) (.env e)) := by
  have hsame : ∀ userId token, LastSaved sys calls users now (turns ++ [.env e]) userId token ↔
      LastSaved sys calls users now turns userId token := by
    intro userId token
    simp [lastSaved_snoc, SavesToken, RemovesToken]
  generalize run (sessions sys calls).step (sessionStart users now) turns = w at h
  refine ⟨sessions_stable.step h.fits trivial, ?_, ?_⟩
  · intro userId token hget
    rw [hsame]
    cases e with
    | tick ms => exact h.stored userId token hget
    | dropKey key =>
      obtain hkey | hkey := KeyStore.drop_cases w.shared.cache (refreshKey userId) key w.shared.now
      · exact h.stored userId token ((KeyStore.get_congr hkey).symm.trans hget)
      · simp [sessions, AuthEnv.act, KeyStore.get, hkey] at hget
  · intro userId token hlast
    rw [hsame] at hlast
    obtain hget | ⟨exp, hexp, hle⟩ := h.held userId token hlast
    · cases e with
      | tick ms => exact .inl hget
      | dropKey key => exact drop_token h.fits.1 hget key
    · refine .inr ⟨exp, hexp, ?_⟩
      cases e with
      | tick ms =>
        simp only [step_env_shared, sessions, AuthEnv.act]
        omega
      | dropKey key => exact hle

theorem setsKey_inj {m : AuthMoment} {l : SessionPhase} {s : AuthState}
    {userId token token' : String} (h : SetsKey m l s userId token)
    (h' : SetsKey m l s userId token') : token = token' := by
  obtain ⟨-, user, shown, access, expiresIn, cache, rfl, -⟩ := h
  obtain ⟨-, user', shown', access', expiresIn', cache', hl, -⟩ := h'
  cases hl
  rfl

theorem tracks_call (turns : List (SessionTurn κ)) (k : κ) (m : AuthMoment)
    (h : Tracks sys calls users now turns
      (run (sessions sys calls).step (sessionStart users now) turns)) :
    Tracks sys calls users now (turns ++ [.call k m])
      ((sessions sys calls).step
        (run (sessions sys calls).step (sessionStart users now) turns) (.call k m)) := by
  have hsnoc := lastSaved_snoc sys calls users now turns (.call k m)
  generalize run (sessions sys calls).step (sessionStart users now) turns = w at h hsnoc
  have hnow : ((sessions sys calls).step w (.call k m)).shared.now = w.shared.now :=
    (session_grows (SessionService.act_step sys (calls k) m (w.calls k) w.shared)).2
  refine ⟨sessions_stable.step h.fits trivial, ?_, ?_⟩
  · intro userId token hget
    obtain ⟨-, hgone⟩ | ⟨token', hset, hget'⟩ | ⟨hset, hdel, hkey⟩ :=
      key_act sys (calls k) m (w.calls k) w.shared userId
    · rw [KeyStore.get, step_call_shared] at hget
      change (SessionService.act sys (calls k) m (w.calls k) w.shared).2.cache _ = none at hgone
      simp [sessions, hgone] at hget
    · have hsame : token' = token := by
        have h := hget'.symm.trans hget
        cases h
        rfl
      subst hsame
      exact (hsnoc userId token').mpr (.inl hset)
    · have hold := h.stored userId token ((KeyStore.get_congr hkey).symm.trans hget)
      exact (hsnoc userId token).mpr (.inr ⟨hold, hset, hdel⟩)
  · intro userId token hlast
    obtain hset | ⟨hlast, hset, hdel⟩ := (hsnoc userId token).mp hlast
    · obtain ⟨⟨-, hl⟩, -⟩ | ⟨token', hset', hget⟩ | ⟨hnone, -⟩ :=
        key_act sys (calls k) m (w.calls k) w.shared userId
      · obtain ⟨-, user, shown, access, expiresIn, cache, hl', -⟩ := hset
        cases hl.symm.trans hl'
      · cases setsKey_inj hset hset'
        exact .inl hget
      · exact absurd hset (hnone token)
    · obtain ⟨hdel', -⟩ | ⟨token', hset', -⟩ | ⟨-, -, hkey⟩ :=
        key_act sys (calls k) m (w.calls k) w.shared userId
      · exact absurd hdel' hdel
      · exact absurd hset' (hset token')
      · obtain hget | ⟨exp, hexp, hle⟩ := h.held userId token hlast
        · exact .inl ((KeyStore.get_congr hkey).trans hget)
        · exact .inr ⟨exp, hexp, hnow ▸ hle⟩

theorem tracks_run (sys : AuthSystem) (calls : κ → AuthCall) (users : UserCollection) (now : Int)
    (turns : List (SessionTurn κ)) :
    Tracks sys calls users now turns
      (run (sessions sys calls).step (sessionStart users now) turns) := by
  have hstart : Tracks sys calls users now [] (sessionStart users now) := by
    constructor
    case fits =>
      exact ⟨⟨fun _ ht => absurd ht List.not_mem_nil, fun _ _ he => by cases he⟩, fun _ => trivial⟩
    case stored => exact fun _ _ hget => by cases hget
    case held => exact fun _ _ hlast => absurd hlast not_since_nil
  refine run_history hstart (fun turns t h => ?_) turns
  cases t with
  | call k m => exact tracks_call turns k m h
  | env e => exact tracks_env turns e h

/-- In every run, and however much later than the read of Redis the signature is checked, a token
is valid for a user exactly if it is the one last saved for that user with no removal since, it
names the user, and it has not expired by then. -/
theorem last_refresh_token_redeemable (sys : AuthSystem) (calls : κ → AuthCall)
    (users : UserCollection) (now : Int) (turns : List (SessionTurn κ)) (userId token : String)
    (delay : Nat) :
    let s := (run (sessions sys calls).step (sessionStart users now) turns).shared
    sys.validateRefreshToken s (s.now + delay) userId token = true ↔
      LastSaved sys calls users now turns userId token ∧
      ∃ payload exp, sys.decode token = some payload ∧ payload.sub = some userId ∧
        payload.exp = some exp ∧ s.now + delay < exp * 1000 := by
  intro s
  have h := tracks_run sys calls users now turns
  have hlive : ∀ exp : Int, s.now + delay < exp * 1000 ↔ (s.now + delay) / 1000 < exp := by
    intro exp
    omega
  rw [validateRefreshToken_iff]
  constructor
  · intro ⟨value, hget, hne, htrim, payload, hverify, hsub⟩
    obtain ⟨hsigned, hdecode, hexp⟩ := AuthSystem.verify_eq_some.mp hverify
    obtain ⟨e, he, rfl⟩ := Option.map_eq_some_iff.mp hget
    obtain ⟨stored, hvalue, hissued, -⟩ := h.fits.1.entry userId e he
    -- neither string has white space around it, so the trimmed comparison is equality
    have hsame : stored = token := by
      rw [hvalue, CacheValue.text, h.fits.1.trimmed stored hissued.1,
        h.fits.1.trimmed token hsigned] at htrim
      exact htrim
    subst hsame
    obtain ⟨-, -, exp, hpayload⟩ := hissued
    rw [hdecode] at hpayload
    cases hpayload
    refine ⟨h.stored userId stored (by rw [hget, hvalue]), _, exp, hdecode, rfl, rfl, ?_⟩
    exact (hlive exp).mpr (hexp exp rfl)
  · intro ⟨hlast, payload, exp, hdecode, hsub, hexp, hlt⟩
    obtain hget | ⟨exp', hexp', hle⟩ := h.held userId token hlast
    · obtain ⟨e, he, hvalue⟩ := Option.map_eq_some_iff.mp hget
      obtain ⟨stored, hstored, hissued, -⟩ := h.fits.1.entry userId e he
      cases hvalue.symm.trans hstored
      refine ⟨_, hget, hissued.2.1, rfl, payload, ?_, hsub⟩
      refine AuthSystem.verify_eq_some.mpr ⟨hissued.1, hdecode, fun exp' hexp' => ?_⟩
      cases hexp.symm.trans hexp'
      exact (hlive exp).mp hlt
    · have hsame : sys.expiry token = some exp := by simp [AuthSystem.expiry, hdecode, hexp]
      cases hexp'.symm.trans hsame
      have hnow : exp * 1000 ≤ s.now := hle
      omega

end Sessions
end MsaTuto
