import MsaTuto.AuthHttp

/-! Where a role comes from: the roles of the stored users and of the tokens signed in a
run go back to the initial store or to a role change that an administrator made. -/
namespace MsaTuto
open Runs AuthService

/-- The subject of a token names a user: it is the user's id, or casts to it. -/
def Names (sys : AuthSystem) (sub uid : String) : Prop := sub = uid ∨ sys.objectId sub = some uid

/-- The roles a token claims are allowed to a user that its subject names. -/
def ClaimsWithin (A : String → Role → Prop) (sys : AuthSystem) (token : String) : Prop :=
  ∀ payload roles, sys.decode token = some payload → payload.roles = some roles →
    ∃ sub uid, payload.sub = some sub ∧ Names sys sub uid ∧ ∀ role ∈ roles, A uid role

/-- The entries of a role list that are roles are allowed to the user. -/
def RolesWithin (A : String → Role → Prop) (uid : String) (roles : List (Option Role)) : Prop :=
  ∀ role, some role ∈ roles → A uid role

/-- All stored roles are allowed, and so are the claims of every token not signed before. -/
structure Within (A : String → Role → Prop) (sys : AuthSystem) (before : List String)
    (s : AuthState) : Prop where
  users : ∀ u ∈ s.users.items, RolesWithin A u.id u.roles
  tokens : ∀ t ∈ s.signed, t ∉ before → ClaimsWithin A sys t

/-- A call that is to add a role adds an allowed one. -/
def AddsWithin (A : String → Role → Prop) (sys : AuthSystem) (call : AuthCall) : Prop :=
  ∀ userId role uid, call = .addRole userId role → sys.objectId userId = some uid → A uid role

/-- What a call holds of a user between its turns is allowed. -/
def PhaseWithin (A : String → Role → Prop) (sys : AuthSystem) : AuthPhase → Prop
  | .savingLogin user => RolesWithin A user.id user.roles
  | .signing userId user _ => Names sys userId user.id ∧ RolesWithin A user.id user.roles
  | .pushing user _ role => A user.id role
  | .setting user _ roles => RolesWithin A user.id roles
  | _ => True

section Step
variable {A : String → Role → Prop} {sys : AuthSystem} {before : List String} {s : AuthState}
  {call : AuthCall} {m : AuthMoment}

theorem findById_ok {users : UserCollection} {userId : String} {user : User}
    (h : findById sys users userId = .ok user) :
    user ∈ users.items ∧ sys.objectId userId = some user.id := by
  unfold findById at h
  split at h
  · cases h
  next id hid =>
    split at h
    next u hu =>
      cases h
      obtain ⟨hmem, rfl⟩ := UserCollection.mem_of_findById hu
      exact ⟨hmem, hid⟩
    next => cases h

theorem phaseWithin_start (h : Within A sys before s) (hcall : AddsWithin A sys call) :
    PhaseWithin A sys (start sys s call) := by
  cases call with
  | login email password =>
    simp only [start]
    split
    next user huser =>
      split
      · exact h.users user (List.mem_of_find?_eq_some huser)
      · trivial
    · trivial
  | register dto =>
    simp only [start]
    split <;> trivial
  | refreshToken userId token =>
    simp only [start]
    split <;> trivial
  | logout userId token =>
    simp only [start]
    split
    · split <;> trivial
    · trivial
  | addRole userId role =>
    simp only [start]
    split
    next user huser =>
      split
      · trivial
      · exact hcall userId role user.id rfl (findById_ok huser).2
    · trivial
  | removeRole userId role =>
    simp only [start]
    split
    next user huser =>
      split
      · trivial
      · exact fun r hr => h.users user (findById_ok huser).1 r (List.mem_of_mem_filter hr)
    · trivial

theorem phaseWithin_failing (l : AuthPhase) (h : Within A sys before s)
    (hcall : AddsWithin A sys call) : PhaseWithin A sys (failing sys call s l) := by
  cases l with
  | started =>
    cases call with
    | logout userId token => exact phaseWithin_start h hcall
    | _ => trivial
  | _ => trivial

theorem Within.of_users {users : UserCollection} (h : Within A sys before s)
    (husers : ∀ u ∈ users.items, RolesWithin A u.id u.roles) :
    Within A sys before { s with users := users } := ⟨husers, h.tokens⟩

/-- An update keeps the stored roles allowed if the roles it adds are. -/
theorem Within.updateOne {users : UserCollection} {id : String} {guard : User → Bool}
    {change : UserCollection.Change} (h : Within A sys before s)
    (hset : s.users.updateOne id guard change = some users)
    (hadds : ∀ v role, some role ∈ (change.apply v).roles → some role ∈ v.roles ∨ A id role) :
    Within A sys before { s with users := users } := by
  refine h.of_users fun u hu role hrole => ?_
  obtain hu | ⟨v, hv, rfl, rfl⟩ := UserCollection.mem_updateOne hset hu
  · exact h.users u hu role hrole
  · rw [change.id_apply]
    obtain hold | hnew := hadds v role hrole
    · exact h.users v hv role hold
    · exact hnew

theorem Within.of_cache {cache : KeyStore.Store CacheValue} (h : Within A sys before s) :
    Within A sys before { s with cache := cache } := ⟨h.users, h.tokens⟩

theorem claimsWithin_access {userId : String} {user : User} (hnames : Names sys userId user.id)
    (huser : RolesWithin A user.id user.roles)
    (h : signsBoth sys s m userId user = true) :
    ClaimsWithin A sys m.accessToken ∧ ClaimsWithin A sys m.refreshToken := by
  obtain ⟨haccess, -, hrefresh⟩ := signsBoth_payloads h
  constructor
  · intro payload roles hdecode hroles
    rw [haccess] at hdecode
    cases hdecode
    cases hroles
    refine ⟨userId, user.id, rfl, hnames, fun role hrole => huser role ?_⟩
    exact List.reduceOption_mem_iff.mp hrole
  · intro payload roles hdecode hroles
    rw [hrefresh] at hdecode
    cases hdecode
    cases hroles

section Proceed
variable (call m)

theorem within_savingLogin (h : Within A sys before s) {user : User}
    (hl : PhaseWithin A sys (.savingLogin user)) :
    Within A sys before (proceed sys call m (.savingLogin user) s).2 ∧
      PhaseWithin A sys (proceed sys call m (.savingLogin user) s).1 := by
  simp only [proceed]
  split
  next users hset =>
    refine ⟨h.updateOne hset fun v role hrole => .inl hrole, ?_⟩
    dsimp only
    split
    · exact ⟨.inl rfl, hl⟩
    · trivial
  next => exact ⟨h, trivial⟩

/-- A new user has the roles that its registration gives it. -/
theorem within_inserting (dto : RegisterDto)
    (hA : ∀ user users, newUser sys dto m = some user → s.users.insert user = .ok users →
      RolesWithin A user.id user.roles) (h : Within A sys before s) :
    Within A sys before (proceed sys call m (.inserting dto) s).2 ∧
      PhaseWithin A sys (proceed sys call m (.inserting dto) s).1 := by
  simp only [proceed]
  split
  next user hnew =>
    split
    next users hset =>
      have hroles := hA user users hnew hset
      refine ⟨h.of_users fun u hu => ?_, ?_⟩
      · obtain hu | rfl := UserCollection.mem_insert hset hu
        · exact h.users u hu
        · exact hroles
      · dsimp only
        split
        · trivial
        · exact ⟨.inl rfl, hroles⟩
    next => exact ⟨h, trivial⟩
  next => exact ⟨h, trivial⟩

/-- The two tokens that are signed are all that comes to the tokens. -/
theorem within_signing (h : Within A sys before s) {userId : String} {user : User} {shown : Bool}
    (hl : PhaseWithin A sys (.signing userId user shown)) :
    Within A sys before (proceed sys call m (.signing userId user shown) s).2 ∧
      PhaseWithin A sys (proceed sys call m (.signing userId user shown) s).1 := by
  simp only [proceed]
  split
  next hsigns =>
    obtain ⟨haccess, hrefresh⟩ := claimsWithin_access hl.1 hl.2 hsigns
    split
    next cache hsave =>
      refine ⟨⟨h.users, fun t ht hold => ?_⟩, trivial⟩
      obtain rfl | ht := List.mem_cons.mp ht
      · exact hrefresh
      · obtain rfl | ht := List.mem_cons.mp ht
        · exact haccess
        · exact h.tokens t ht hold
    next => exact ⟨h, trivial⟩
  next => exact ⟨h, hl⟩

theorem within_pushing (h : Within A sys before s) {user : User} {userId : String} {role : Role}
    (hl : PhaseWithin A sys (.pushing user userId role)) :
    Within A sys before (proceed sys call m (.pushing user userId role) s).2 ∧
      PhaseWithin A sys (proceed sys call m (.pushing user userId role) s).1 := by
  simp only [proceed]
  split
  next users hset =>
    refine ⟨h.updateOne hset fun v r hr => ?_, trivial⟩
    obtain hr | hr := List.mem_append.mp hr
    · exact .inl hr
    · rw [Option.some.inj (List.mem_singleton.mp hr)]
      exact .inr hl
  next => exact ⟨h, trivial⟩

end Proceed

/-- A turn of a call that adds no role beyond `A` leaves nothing beyond `A` behind. -/
theorem within_act {l : AuthPhase} (hA : ∀ dto user users, l = .inserting dto →
      newUser sys dto m = some user → s.users.insert user = .ok users →
      RolesWithin A user.id user.roles) (h : Within A sys before s)
    (hcall : AddsWithin A sys call) (hl : PhaseWithin A sys l) :
    Within A sys before (act sys call m l s).2 ∧ PhaseWithin A sys (act sys call m l s).1 := by
  unfold act
  by_cases hf : m.fault = true
  · rw [if_pos hf]
    exact ⟨h, phaseWithin_failing l h hcall⟩
  · rw [if_neg hf]
    cases l with
    | started => exact ⟨h, phaseWithin_start h hcall⟩
    | savingLogin user => exact within_savingLogin call m h hl
    | inserting dto => exact within_inserting call m dto (fun user users => hA dto user users rfl) h
    | unnamed => exact ⟨h, trivial⟩
    | validated userId =>
      simp only [proceed]
      split
      next user huser =>
        obtain ⟨hmem, hid⟩ := findById_ok huser
        refine ⟨h, ?_⟩
        dsimp only
        split
        · exact ⟨.inr hid, h.users user hmem⟩
        · trivial
      next => exact ⟨h, trivial⟩
    | signing userId user shown => exact within_signing call m h hl
    | blacklisting userId token ttl =>
      simp only [proceed]
      split
      · exact ⟨h.of_cache, trivial⟩
      · exact ⟨h, trivial⟩
    | removing userId => exact ⟨h.of_cache, trivial⟩
    | pushing user userId role => exact within_pushing call m h hl
    | setting user userId roles =>
      simp only [proceed]
      split
      · exact ⟨h, trivial⟩
      · split
        next users hset =>
          exact ⟨h.updateOne hset fun v r hr => .inr (hl r hr), trivial⟩
        next => exact ⟨h, trivial⟩
    | clearingId user userId => exact ⟨h.of_cache, trivial⟩
    | clearingEmail user => exact ⟨h.of_cache, trivial⟩
    | returned result => exact ⟨h, trivial⟩
    | raised f => exact ⟨h, trivial⟩

variable {A' : String → Role → Prop}

theorem ClaimsWithin.mono (hle : ∀ uid role, A uid role → A' uid role) {token : String}
    (h : ClaimsWithin A sys token) : ClaimsWithin A' sys token := by
  intro payload roles hdecode hroles
  obtain ⟨sub, uid, hsub, hnames, hrole⟩ := h payload roles hdecode hroles
  exact ⟨sub, uid, hsub, hnames, fun role hmem => hle uid role (hrole role hmem)⟩

theorem Within.mono (hle : ∀ uid role, A uid role → A' uid role) (h : Within A sys before s) :
    Within A' sys before s :=
  ⟨fun u hu role hrole => hle _ _ (h.users u hu role hrole),
    fun t ht hold => (h.tokens t ht hold).mono hle⟩

theorem AddsWithin.mono (hle : ∀ uid role, A uid role → A' uid role)
    (h : AddsWithin A sys call) : AddsWithin A' sys call :=
  fun userId role uid hcall hid => hle uid role (h userId role uid hcall hid)

theorem PhaseWithin.mono (hle : ∀ uid role, A uid role → A' uid role) {l : AuthPhase}
    (h : PhaseWithin A sys l) : PhaseWithin A' sys l := by
  cases l with
  | savingLogin user => exact fun role hrole => hle _ _ (h role hrole)
  | signing userId user shown => exact ⟨h.1, fun role hrole => hle _ _ (h.2 role hrole)⟩
  | pushing user userId role => exact hle _ _ h
  | setting user userId roles => exact fun role hrole => hle _ _ (h role hrole)
  | _ => trivial

end Step

section Runs
variable {κ : Type*} [DecidableEq κ] (sys : AuthSystem) (request : κ → AuthRequest)
  (s₀ : AuthState)

/-- The user had the role in the store the run starts from. -/
def Held (uid : String) (role : Role) : Prop :=
  ∃ u ∈ s₀.users.items, u.id = uid ∧ some role ∈ u.roles

/-- The bearer token of a request verifies and claims the role ADMIN. -/
def AdminBearer (s : AuthState) (authorization : Option String) : Prop :=
  ∃ token payload roles, bearerToken authorization = some token ∧
    sys.verify s.signed s.now token = some payload ∧ payload.roles = some roles ∧
    Role.ADMIN ∈ roles

/-- This turn takes an `addRole` request for the user and the role past the guards. -/
def Grants (w : World κ AuthState HttpPhase) (turn : Turn κ AuthMoment AuthEnv) (uid : String)
    (role : Role) : Prop :=
  ∃ k m authorization id, turn = .call k m ∧ request k = .addRole authorization id role ∧
    sys.objectId id = some uid ∧ w.calls k = .arrived ∧
    AuthHttp.dispatch sys w.shared m.fault (request k) = .ok (.addRole id role) ∧
    AdminBearer sys w.shared authorization

/-- Some turn of the run has granted the user the role. -/
def Granted (turns : List (Turn κ AuthMoment AuthEnv)) (uid : String) (role : Role) : Prop :=
  ∃ us turn vs, turns = us ++ turn :: vs ∧
    Grants sys request (run (authHttp sys request).step (httpStart s₀) us) turn uid role

/-- This turn inserts an account whose registration has sent the role for an element of the list. -/
def Sends (w : World κ AuthState HttpPhase) (turn : Turn κ AuthMoment AuthEnv) (uid : String)
    (role : Role) : Prop :=
  ∃ k m call dto user, turn = .call k m ∧ w.calls k = .serving call (.inserting dto) ∧
    newUser sys dto m = some user ∧ user.id = uid ∧ SendsRole sys.casts dto role

/-- Some turn of the run has let the user's registration set the role. -/
def Sent (turns : List (Turn κ AuthMoment AuthEnv)) (uid : String) (role : Role) : Prop :=
  ∃ us turn vs, turns = us ++ turn :: vs ∧
    Sends sys (run (authHttp sys request).step (httpStart s₀) us) turn uid role

def Allowed (turns : List (Turn κ AuthMoment AuthEnv)) (uid : String) (role : Role) : Prop :=
  role = .USER ∨ Held s₀ uid role ∨ Granted sys request s₀ turns uid role ∨
    Sent sys request s₀ turns uid role

/-- The invariant: everything stored, signed and held between turns is allowed so far. -/
def Provenance (turns : List (Turn κ AuthMoment AuthEnv)) (w : World κ AuthState HttpPhase) :
    Prop :=
  Within (Allowed sys request s₀ turns) sys s₀.signed w.shared ∧
    ∀ k call l, w.calls k = .serving call l →
      AddsWithin (Allowed sys request s₀ turns) sys call ∧
        PhaseWithin (Allowed sys request s₀ turns) sys l

variable {sys request s₀}

theorem Granted.append {turns : List (Turn κ AuthMoment AuthEnv)} {uid : String} {role : Role}
    (h : Granted sys request s₀ turns uid role) (more : List (Turn κ AuthMoment AuthEnv)) :
    Granted sys request s₀ (turns ++ more) uid role := by
  obtain ⟨us, turn, vs, rfl, hgrants⟩ := h
  exact ⟨us, turn, vs ++ more, by simp, hgrants⟩

theorem Sent.append {turns : List (Turn κ AuthMoment AuthEnv)} {uid : String} {role : Role}
    (h : Sent sys request s₀ turns uid role) (more : List (Turn κ AuthMoment AuthEnv)) :
    Sent sys request s₀ (turns ++ more) uid role := by
  obtain ⟨us, turn, vs, rfl, hsends⟩ := h
  exact ⟨us, turn, vs ++ more, by simp, hsends⟩

theorem Allowed.append {turns : List (Turn κ AuthMoment AuthEnv)}
    (more : List (Turn κ AuthMoment AuthEnv)) (uid : String) (role : Role)
    (h : Allowed sys request s₀ turns uid role) :
    Allowed sys request s₀ (turns ++ more) uid role :=
  h.imp_right (Or.imp_right (Or.imp (fun hgranted => hgranted.append more)
    fun hsent => hsent.append more))

theorem adminBearer_of_guards {s : AuthState} {fault : Bool} {authorization : Option String}
    {user : JwtUserDto}
    (h : AuthHttp.guards sys s fault authorization [.ADMIN] = .ok user) :
    AdminBearer sys s authorization := by
  obtain ⟨token, htoken, hauth, hroles⟩ := AuthHttp.guards_ok h
  obtain ⟨payload, hverify, rfl⟩ := verified_of_authenticate hauth
  obtain hempty | ⟨roles, hroles, hadmin⟩ := hroles
  · cases hempty
  · refine ⟨token, payload, roles, htoken, hverify, hroles, ?_⟩
    obtain hadmin | ⟨role, hrequired, hrole⟩ := hadmin
    · exact hadmin
    · rwa [List.mem_singleton.mp hrequired] at hrole

/-- A call that a request is admitted to adds no role but the one granted by this turn. -/
theorem addsWithin_dispatch {us : List (Turn κ AuthMoment AuthEnv)} {k : κ} {m : AuthMoment}
    {call : AuthCall}
    (hphase : (run (authHttp sys request).step (httpStart s₀) us).calls k = .arrived)
    (h : AuthHttp.dispatch sys (run (authHttp sys request).step (httpStart s₀) us).shared m.fault
      (request k) = .ok call) :
    AddsWithin (Allowed sys request s₀ (us ++ [.call k m])) sys call := by
  intro id role uid hcall hid
  subst hcall
  obtain ⟨authorization, user, hrequest, hguards⟩ := AuthHttp.dispatch_addRole h
  exact .inr (.inr (.inl ⟨us, .call k m, [], rfl, k, m, authorization, id, rfl, hrequest, hid,
    hphase, h, adminBearer_of_guards hguards⟩))

/-- The roles of a new account are that of a user and those its registration has sent. -/
theorem rolesWithin_insert {us : List (Turn κ AuthMoment AuthEnv)} {k : κ} {m : AuthMoment}
    {call : AuthCall} {dto : RegisterDto} {user : User}
    (hphase : (run (authHttp sys request).step (httpStart s₀) us).calls k =
      .serving call (.inserting dto)) (hnew : newUser sys dto m = some user) :
    RolesWithin (Allowed sys request s₀ (us ++ [.call k m])) user.id user.roles := by
  intro role hrole
  obtain huser | hsends := (makes_of_newUser hnew).role hrole
  · exact .inl huser
  · exact .inr (.inr (.inr ⟨us, .call k m, [], rfl, k, m, call, dto, user, rfl, hphase, hnew, rfl,
      hsends⟩))

theorem provenance_step (us : List (Turn κ AuthMoment AuthEnv)) (turn : Turn κ AuthMoment AuthEnv)
    (h : Provenance sys request s₀ us (run (authHttp sys request).step (httpStart s₀) us)) :
    Provenance sys request s₀ (us ++ [turn])
      ((authHttp sys request).step (run (authHttp sys request).step (httpStart s₀) us) turn) := by
  generalize hw : run (authHttp sys request).step (httpStart s₀) us = w at h ⊢
  obtain ⟨hwithin, hcalls⟩ := h
  have hle : ∀ uid role, Allowed sys request s₀ us uid role →
      Allowed sys request s₀ (us ++ [turn]) uid role := Allowed.append [turn]
  have hold : ∀ k call l, w.calls k = .serving call l →
      AddsWithin (Allowed sys request s₀ (us ++ [turn])) sys call ∧
        PhaseWithin (Allowed sys request s₀ (us ++ [turn])) sys l := by
    intro k call l hphase
    obtain ⟨hcall, hl⟩ := hcalls k call l hphase
    exact ⟨hcall.mono hle, hl.mono hle⟩
  have hwithin := hwithin.mono hle
  cases turn with
  | env e =>
    refine ⟨?_, hold⟩
    cases e with
    | tick ms => exact ⟨hwithin.users, hwithin.tokens⟩
    | dropKey key => exact hwithin.of_cache
  | call k m =>
    have hturn : Within (Allowed sys request s₀ (us ++ [.call k m])) sys s₀.signed
          (AuthHttp.act sys (request k) m (w.calls k) w.shared).2 ∧
        ∀ call l, (AuthHttp.act sys (request k) m (w.calls k) w.shared).1 = .serving call l →
          AddsWithin (Allowed sys request s₀ (us ++ [.call k m])) sys call ∧
            PhaseWithin (Allowed sys request s₀ (us ++ [.call k m])) sys l := by
      cases hphase : w.calls k with
      | arrived =>
        simp only [AuthHttp.act]
        split
        next call hcall =>
          refine ⟨hwithin, fun call' l' hserving => ?_⟩
          cases hserving
          rw [← hw] at hphase hcall
          exact ⟨addsWithin_dispatch hphase hcall, trivial⟩
        next =>
          refine ⟨hwithin, fun call' l' hserving => ?_⟩
          cases hserving
      | serving call l =>
        obtain ⟨hcall, hl⟩ := hold k call l hphase
        have hroles : ∀ dto user users, l = .inserting dto → newUser sys dto m = some user →
            w.shared.users.insert user = .ok users →
            RolesWithin (Allowed sys request s₀ (us ++ [.call k m])) user.id user.roles := by
          rintro dto user users rfl hnew -
          exact rolesWithin_insert (hw ▸ hphase) hnew
        obtain ⟨hwithin', hl'⟩ := within_act hroles hwithin hcall hl
        refine ⟨hwithin', fun call' l' hserving => ?_⟩
        cases hserving
        exact ⟨hcall, hl'⟩
      | refused cls =>
        refine ⟨hwithin, fun call' l' hserving => ?_⟩
        cases hserving
    refine ⟨hturn.1, fun k' call l hphase => ?_⟩
    by_cases hk : k' = k
    · subst hk
      rw [step_call_self] at hphase
      exact hturn.2 call l hphase
    · rw [step_call_other _ _ hk] at hphase
      exact hold k' call l hphase

theorem provenance_run (turns : List (Turn κ AuthMoment AuthEnv)) :
    Provenance sys request s₀ turns (run (authHttp sys request).step (httpStart s₀) turns) := by
  refine run_history ⟨⟨?_, ?_⟩, ?_⟩ provenance_step turns
  · exact fun u hu role hrole => .inr (.inl ⟨u, hu, rfl, hrole⟩)
  · exact fun t ht hold => absurd ht hold
  · intro k call l hphase
    cases hphase

/-- No turn inserts an account whose registration has sent a role beyond USER. -/
def InsertsPlain (sys : AuthSystem) (w : World κ AuthState HttpPhase) :
    Turn κ AuthMoment AuthEnv → Prop
  | .call k _ => ∀ call dto, w.calls k = .serving call (.inserting dto) →
      ∀ role, SendsRole sys.casts dto role → role = .USER
  | .env _ => True

/-- Nobody starts out as an administrator, by a stored role or by a token at large. -/
def NoAdmin (sys : AuthSystem) (s₀ : AuthState) : Prop :=
  (∀ u ∈ s₀.users.items, some .ADMIN ∉ u.roles) ∧
    ∀ t ∈ s₀.signed, ∀ payload roles, sys.decode t = some payload →
      payload.roles = some roles → Role.ADMIN ∉ roles

theorem user_of_sent {turns : List (Turn κ AuthMoment AuthEnv)} {uid : String} {role : Role}
    (hplain : Along (authHttp sys request).step (InsertsPlain sys) (httpStart s₀) turns)
    (h : Sent sys request s₀ turns uid role) : role = .USER := by
  obtain ⟨us, turn, vs, rfl, k, m, call, dto, user, rfl, hphase, -, -, hsends⟩ := h
  exact (along_append.mp hplain).2.1 call dto hphase role hsends

/-- Without an administrator to begin with, no such run grants anything: the bearer of the first
grant would have to be one. -/
theorem not_granted_of_noAdmin (h : NoAdmin sys s₀) (turns : List (Turn κ AuthMoment AuthEnv))
    (hplain : Along (authHttp sys request).step (InsertsPlain sys) (httpStart s₀) turns)
    (uid : String) (role : Role) : ¬Granted sys request s₀ turns uid role := by
  induction hn : turns.length using Nat.strong_induction_on generalizing turns uid role with
  | _ n ih =>
    intro ⟨us, turn, vs, hturns, k, m, authorization, id, _, _, _, _, _, hadmin⟩
    obtain ⟨token, payload, roles, _, hverify, hroles, hmem⟩ := hadmin
    obtain ⟨hsigned, hdecode, -⟩ := AuthSystem.verify_eq_some.mp hverify
    have hbefore := (along_append.mp (hturns ▸ hplain)).1
    by_cases hold : token ∈ s₀.signed
    · exact h.2 token hold payload roles hdecode hroles hmem
    · obtain ⟨sub, uid', -, -, hallowed⟩ :=
        (provenance_run us).1.tokens token hsigned hold payload roles hdecode hroles
      obtain huser | ⟨u, hu, -, hrole⟩ | hgranted | hsent := hallowed .ADMIN hmem
      · cases huser
      · exact h.1 u hu hrole
      · have hshorter : us.length < n := by
          rw [← hn, hturns]
          simp
        exact ih us.length hshorter us hbefore uid' .ADMIN rfl hgranted
      · cases user_of_sent hbefore hsent

/-- In a run whose registrations send no role beyond USER for an element of the list: such a role
that a stored user, or a token signed in the run, has without its user having had it at the start
was granted to that user by a request that an administrator's token got past the guards; and where
nobody starts as an administrator, no role beyond USER is handed out at all. -/
theorem role_provenance (sys : AuthSystem) (request : κ → AuthRequest) (s₀ : AuthState)
    (turns : List (Turn κ AuthMoment AuthEnv))
    (hplain : Along (authHttp sys request).step (InsertsPlain sys) (httpStart s₀) turns) :
    (∀ u ∈ (run (authHttp sys request).step (httpStart s₀) turns).shared.users.items,
      ∀ role, some role ∈ u.roles → role ≠ .USER → ¬Held s₀ u.id role →
        Granted sys request s₀ turns u.id role) ∧
    (∀ t ∈ (run (authHttp sys request).step (httpStart s₀) turns).shared.signed, t ∉ s₀.signed →
      ∀ payload roles, sys.decode t = some payload → payload.roles = some roles →
        ∃ sub uid, payload.sub = some sub ∧ Names sys sub uid ∧ ∀ role ∈ roles, role ≠ .USER →
          ¬Held s₀ uid role → Granted sys request s₀ turns uid role) ∧
    (NoAdmin sys s₀ →
      (∀ u ∈ (run (authHttp sys request).step (httpStart s₀) turns).shared.users.items,
        ∀ role, some role ∈ u.roles → role = .USER ∨ Held s₀ u.id role) ∧
      (∀ t ∈ (run (authHttp sys request).step (httpStart s₀) turns).shared.signed, t ∉ s₀.signed →
        ∀ payload roles, sys.decode t = some payload → payload.roles = some roles →
          ∃ sub uid, payload.sub = some sub ∧ Names sys sub uid ∧
            ∀ role ∈ roles, role = .USER ∨ Held s₀ uid role)) := by
  have hrun : Provenance sys request s₀ turns
      (run (authHttp sys request).step (httpStart s₀) turns) := provenance_run turns
  obtain ⟨hwithin, -⟩ := hrun
  have hcases : ∀ uid role, Allowed sys request s₀ turns uid role →
      role = .USER ∨ Held s₀ uid role ∨ Granted sys request s₀ turns uid role :=
    fun uid role h => by
      obtain huser | hheld | hgranted | hsent := h
      · exact .inl huser
      · exact .inr (.inl hheld)
      · exact .inr (.inr hgranted)
      · exact .inl (user_of_sent hplain hsent)
  have hgranted : ∀ {uid role}, Allowed sys request s₀ turns uid role → role ≠ .USER →
      ¬Held s₀ uid role → Granted sys request s₀ turns uid role :=
    fun hallowed huser hheld =>
      ((hcases _ _ hallowed).resolve_left huser).resolve_left hheld
  refine ⟨fun u hu role hrole => hgranted (hwithin.users u hu role hrole), ?_, ?_⟩
  · intro t ht hnew payload roles hdecode hroles
    obtain ⟨sub, uid, hsub, hnames, hallowed⟩ :=
      hwithin.tokens t ht hnew payload roles hdecode hroles
    exact ⟨sub, uid, hsub, hnames, fun role hmem => hgranted (hallowed role hmem)⟩
  · intro hnone
    have hle : ∀ uid role, Allowed sys request s₀ turns uid role →
        role = .USER ∨ Held s₀ uid role :=
      fun uid role hallowed => (hcases uid role hallowed).imp_right fun h =>
        h.resolve_right (not_granted_of_noAdmin hnone turns hplain uid role)
    have hkept := hwithin.mono hle
    exact ⟨hkept.users, hkept.tokens⟩

end Runs

section Sample

def rootTokens : List (String × JwtPayload) :=
  [("admin1", ⟨some "u0", some "root@x", some [.ADMIN], some 3600⟩)]

def promotion : Unit → AuthRequest := fun _ => .addRole (some "Bearer admin1") "u1" .OPERATOR

/-- Alice is an operator after this run, since an administrator's request made her one. -/
theorem role_provenance_promotion :
    Granted (AuthSystem.ofTable rootTokens) promotion (aliceState ["admin1"] none)
      [.call () {}, .call () {}, .call () {}] "u1" .OPERATOR := by
  refine (role_provenance (AuthSystem.ofTable rootTokens) promotion (aliceState ["admin1"] none)
    [.call () {}, .call () {}, .call () {}] ?_).1
    { alice with roles := [some .USER, some .OPERATOR], version := 1 } ?_ .OPERATOR (by decide)
    (by decide) ?_
  · refine ⟨?_, ?_, ?_, trivial⟩ <;> exact fun _ _ h => by cases h
  · exact List.mem_singleton.mpr rfl
  · intro ⟨u, hu, _, hrole⟩
    rw [List.mem_singleton.mp hu] at hrole
    exact absurd hrole (by decide)

/-- A registration that names the first element of its role list. -/
def intrusion : Unit → AuthRequest := fun _ =>
  .register ⟨"eve", "eve@example.com", "secret99", [("roles.0", .str "ADMIN")]⟩

/-- The override of `roles` does not reach the key `roles.0`: the new account is an administrator's,
in a run that has no administrator and no grant. -/
theorem registration_makes_admin :
    NoAdmin (AuthSystem.ofTable []) (aliceState [] none) ∧
    (run (authHttp (AuthSystem.ofTable []) intrusion).step (httpStart (aliceState [] none))
      [.call () {}, .call () {}, .call () { newId := "u2" }]).shared.users.items.map User.roles =
        [[some .USER], [some .ADMIN]] ∧
    ¬Held (aliceState [] none) "u2" .ADMIN ∧
    ¬Granted (AuthSystem.ofTable []) intrusion (aliceState [] none)
      [.call () {}, .call () {}, .call () { newId := "u2" }] "u2" .ADMIN := by
  refine ⟨⟨?_, fun t ht => by cases ht⟩, by decide, ?_, ?_⟩
  · intro u hu
    rw [List.mem_singleton.mp hu]
    decide
  · intro ⟨u, hu, hid, _⟩
    rw [List.mem_singleton.mp hu] at hid
    exact absurd hid (by decide)
  · intro ⟨us, turn, vs, _, k, m, authorization, id, _, hrequest, _⟩
    cases hrequest

end Sample
end MsaTuto
