import MsaTuto.ForwardedToken
import MsaTuto.GatewayAccess
import MsaTuto.RedeemableToken

/-! Renewing a session: `POST auth/refresh` through the gateway's guard and route check, the
proxy, the auth server's guard and `AuthService.refreshToken`. -/
namespace MsaTuto
open Runs Js AuthService GatewayService GatewayController ProxyService

/-- What is decoded is one word. -/
def TokensAreWords (sys : AuthSystem) : Prop :=
  ∀ t, sys.decode t ≠ none → words t.toList = [t.toList]

/-- The client's request: the refresh token in its body and, as bearer, the access token. -/
structure RefreshPost (req : HttpRequest) (access refresh : String) : Prop where
  method : req.method = "POST"
  path : req.path = "/auth/refresh"
  header : authorization req.headers = some ("Bearer " ++ access)
  body : optGet req.body "refreshToken" = some (.str refresh)

/-- `AuthGuard('jwt')` at the gateway; `info` is what passport says of a refusal. -/
def gatewayPassport (sys : AuthSystem) (s : AuthState) (info : Option String)
    (authorization : Option String) : Passport :=
  match (bearerToken authorization).bind (authenticate sys .gateway s s.now) with
  | some user => .ok user
  | none => .error info

/-- `auth/refresh` of the auth server, for a body that `RefreshTokenDto` lets through. -/
def refreshRequest (call : ProxyCall) : Option AuthRequest :=
  match optGet call.data "refreshToken" with
  | some (.str refreshToken) =>
    if refreshToken ≠ "" then some (.refresh (authorization call.headers) refreshToken) else none
  | _ => none

/-- What the auth server comes to on the request when its turns are all at the moment `m`. -/
def answered (sys : AuthSystem) (s : AuthState) (m : AuthMoment) (request : AuthRequest) :
    HttpPhase :=
  (run (authHttp sys fun _ : Unit => request).step (httpStart s)
    [.call () m, .call () m, .call () m, .call () m]).calls ()

/-- The request passes the gateway and the auth server's guard, and a pair of tokens never signed
before comes back. -/
def Renews (sys : AuthSystem) (routes : List ProxyRouteConfig) (s : AuthState) (m : AuthMoment)
    (req : HttpRequest) (info : Option String) (uuid timestamp : String) : Prop :=
  ∃ call request operation access' refresh',
    gateway routes req (gatewayPassport sys s info (authorization req.headers)) uuid timestamp =
      .proxied call ∧
    refreshRequest call = some request ∧
    answered sys s m request = .serving operation (.returned (.tokens access' refresh' none)) ∧
    access' ∉ s.signed ∧ refresh' ∉ s.signed

section Gateway
variable {req : HttpRequest} {access refresh : String} (env config : Env)
  (uuid timestamp : String)

theorem orElse_isSome {env : Env} {name : String} {otherwise : Option String}
    (h : otherwise.isSome = true) : (env.orElse name otherwise).isSome = true := by
  unfold Env.orElse
  split
  · split
    · rfl
    · exact h
  · exact h

theorem refresh_target : ∀ r ∈ allRoutes env, r.path = "auth/refresh" →
    r.targetUrl = authServiceUrl env := by
  simp [allRoutes, authRoutes, gameEventRoutes, userRoutes]

theorem refresh_open : ∀ r ∈ setupRoutes env config, r.path = "auth/refresh" →
    r.roles = [] ∧ r.permissions = [] ∧ r.useMessageQueue = false :=
  forall_setupRoutes (fun _ _ => Iff.rfl) (by decide +kernel) env config

/-- With a route that the path equals and that allows the method, such a route is answered. -/
theorem getRouteConfigForPath_exact {routes : List ProxyRouteConfig} {path method : String}
    {r : ProxyRouteConfig} (hr : r ∈ routes) (hpath : exactly (dropSlash path) r = true)
    (hmethod : isMethodMatch method r = true) :
    ∃ r' ∈ routes, exactly (dropSlash path) r' = true ∧
      getRouteConfigForPath routes path method = some ⟨r', r'.path⟩ := by
  have hmem : r ∈ routes.filter fun r => exactly (dropSlash path) r && isMethodMatch method r :=
    List.mem_filter.mpr ⟨hr, by rw [hpath, hmethod]; rfl⟩
  cases hfilter : routes.filter fun r => exactly (dropSlash path) r && isMethodMatch method r with
  | nil =>
    rw [hfilter] at hmem
    cases hmem
  | cons r' rest =>
    have hhead : r' ∈ r' :: rest := List.mem_cons_self
    rw [← hfilter, List.mem_filter, Bool.and_eq_true] at hhead
    refine ⟨r', hhead.1, hhead.2.1, ?_⟩
    rw [getRouteConfigForPath, allowingRoute, hfilter]

theorem refresh_route : ∃ r base,
    getRouteConfigForPath (setupRoutes env config) "auth/refresh" "POST" = some ⟨r, r.path⟩ ∧
      r.roles = [] ∧ r.permissions = [] ∧ r.useMessageQueue = false ∧ r.targetUrl = some base := by
  have htable : ∃ r ∈ allRoutes env, r.path = "auth/refresh" ∧ r.methods = ["POST"] := by
    simp [allRoutes, authRoutes]
  obtain ⟨r₁, hr₁, hpath₁, hmethods₁⟩ := htable
  obtain ⟨r, hr, hpath, hfound⟩ :=
    getRouteConfigForPath_exact (mem_setupRoutes.mpr ⟨r₁, hr₁, rfl⟩)
      (show exactly (dropSlash "auth/refresh") _ = true by simp [exactly, hpath₁]; decide)
      (show isMethodMatch "POST" _ = true by simp [isMethodMatch, hmethods₁])
  have hpath : r.path = "auth/refresh" := of_decide_eq_true hpath
  obtain ⟨hroles, hpermissions, hqueue⟩ := refresh_open env config r hr hpath
  obtain ⟨r₀, hr₀, hsame⟩ := mem_setupRoutes.mp hr
  have htarget : r.targetUrl.isSome = true := by
    have hpath₀ : r₀.path = "auth/refresh" := by rw [← hpath, ← hsame]
    rw [← hsame]
    refine orElse_isSome ?_
    rw [refresh_target env r₀ hr₀ hpath₀]
    exact orElse_isSome rfl
  obtain ⟨base, hbase⟩ := Option.isSome_iff_exists.mp htarget
  exact ⟨r, base, hfound, hroles, hpermissions, hqueue, hbase⟩

theorem hasKeys_of_optGet {v : Value} {k : String} {j : Json} (h : optGet v k = some j) :
    hasKeys v = true := by
  cases v with
  | none => cases h
  | some json =>
    cases json with
    | obj fs =>
      cases fs with
      | nil => cases h
      | cons p fs => rfl
    | _ => cases h

theorem proxyRequest_bearer (base header : String)
    (hheader : authorization req.headers = some header)
    (hstarts : startsWith header "Bearer " = true) (hkeys : hasKeys req.body = true) :
    ∃ call, proxyRequest req (some base) = .proxied call ∧
      call.url = createTargetUrl base req.path ∧ authorization call.headers = some header ∧
      call.data = req.body := by
  have hne : header ≠ "" := by
    rintro rfl
    cases hstarts
  refine ⟨_, rfl, rfl, ?_, if_pos hkeys⟩
  rw [proxied_authorization hheader hne, if_pos hstarts]

theorem startsWith_append (start rest : String) : startsWith (start ++ rest) start = true := by
  rw [startsWith, String.toList_append, List.isPrefixOf_iff_prefix]
  exact List.prefix_append _ _

/-- With a user the request reaches the auth server with the header and the body it came with. -/
theorem gateway_of_user (hpost : RefreshPost req access refresh) (user : JwtUserDto) :
    ∃ call base, gateway (setupRoutes env config) req (.ok user) uuid timestamp = .proxied call ∧
      call.url = createTargetUrl base "/auth/refresh" ∧
      authorization call.headers = some ("Bearer " ++ access) ∧ call.data = req.body := by
  obtain ⟨r, base, hfound, hroles, hpermissions, hqueue, htarget⟩ := refresh_route env config
  have hguard : canActivate req.path (.ok user) = .ok (some user) := by
    rw [hpost.path]
    rfl
  have hrefusal : refusal r (some user) = none := by simp [refusal, hroles, hpermissions]
  have hroute : routePath req.path = "auth/refresh" := by rw [hpost.path]; rfl
  have hhealth : startsWith req.path "/health" = false := by rw [hpost.path]; decide
  have hpassed : gateway (setupRoutes env config) req (.ok user) uuid timestamp =
      proxyRequest (withParams req ((matchPath r.path "auth/refresh").getD [])) (some base) := by
    simp [gateway, hguard, handleRequest, hhealth, hroute, hpost.method, hfound, underRoute,
      hrefusal, passOn, messageRoute, hqueue, htarget]
  obtain ⟨call, hcall, hurl, hheader, hdata⟩ := proxyRequest_bearer base ("Bearer " ++ access)
    hpost.header (startsWith_append "Bearer " access) (hasKeys_of_optGet hpost.body)
  exact ⟨call, base, hpassed.trans hcall, hpost.path ▸ hurl, hheader, hdata⟩

theorem gateway_without_user (hpost : RefreshPost req access refresh) (info : Option String) :
    gateway (setupRoutes env config) req (.error info) uuid timestamp =
      .failed (unauthenticated info) := by
  have hguard : canActivate req.path (.error info) = .error (unauthenticated info) := by
    rw [hpost.path]
    rfl
  rw [gateway, hguard]

end Gateway

section AuthServer
variable {sys : AuthSystem} {s : AuthState} {m : AuthMoment} {userId access refresh : String}
  {header : Option String}

/-- Past the guard, an active user with a valid refresh token is given a new pair. -/
theorem answered_of_user {caller : JwtUserDto} {user : User}
    (hguard : AuthHttp.jwtAuthGuard sys s false header = .ok caller)
    (hcaller : caller.userId = some userId)
    (hvalid : sys.validateRefreshToken s s.now userId refresh = true)
    (huser : findById sys s.users userId = .ok user) (hactive : user.isActive = true)
    (hsaves : Saves sys m s userId user) :
    answered sys s m (.refresh header refresh) = .serving (.refreshToken userId refresh)
      (.returned (.tokens m.accessToken m.refreshToken none)) := by
  have hdispatch : AuthHttp.dispatch sys s m.fault (.refresh header refresh) =
      .ok (.refreshToken userId refresh) := by
    simp [AuthHttp.dispatch, AuthHttp.guards, hsaves.1, hguard, AuthHttp.rolesGuard, Except.map,
      AuthHttp.userIdOf, hcaller]
  have hsigned := (act_saves (.refreshToken userId refresh) false hsaves).1
  have hfirst : act sys (.refreshToken userId refresh) m .started s = (.validated userId, s) := by
    simp [act, hsaves.1, proceed, start, hvalid]
  have hsecond : act sys (.refreshToken userId refresh) m (.validated userId) s =
      (.signing userId user false, s) := by
    simp [act, hsaves.1, proceed, huser, hactive]
  simp [answered, run, Pool.step, authHttp, httpStart, AuthHttp.act, hdispatch, hfirst, hsecond,
    hsigned, result]

theorem answered_unguarded {cls : HttpExceptionClass} (hfault : m.fault = false)
    (hguard : AuthHttp.jwtAuthGuard sys s false header = .error cls) :
    answered sys s m (.refresh header refresh) = .refused cls := by
  have hdispatch : AuthHttp.dispatch sys s m.fault (.refresh header refresh) = .error cls := by
    simp [AuthHttp.dispatch, AuthHttp.guards, hfault, hguard, Except.map]
  simp [answered, run, Pool.step, authHttp, httpStart, AuthHttp.act, hdispatch]

end AuthServer

section Pairs
variable {sys : AuthSystem} {s s' : AuthState} {access refresh : String}

/-- Two tokens that were signed together, for one user. -/
structure PairIssued (sys : AuthSystem) (s : AuthState) (access refresh : String) : Prop where
  access_signed : access ∈ s.signed
  subject : ∃ userId p q, sys.decode access = some p ∧ p.sub = some userId ∧
    sys.decode refresh = some q ∧ q.sub = some userId

theorem PairIssued.mono (h : PairIssued sys s access refresh)
    (hsigned : ∀ t ∈ s.signed, t ∈ s'.signed) : PairIssued sys s' access refresh :=
  ⟨hsigned access h.access_signed, h.subject⟩

/-- The tokens that a call has returned were signed together. -/
def ReturnsPair (sys : AuthSystem) (l : AuthPhase) (s : AuthState) : Prop :=
  match l with
  | .returned (.tokens access refresh _) => PairIssued sys s access refresh
  | _ => True

theorem ReturnsPair.mono {l : AuthPhase} (h : ReturnsPair sys l s)
    (hsigned : ∀ t ∈ s.signed, t ∈ s'.signed) : ReturnsPair sys l s' := by
  cases l with
  | returned result =>
    cases result with
    | tokens access refresh view => exact PairIssued.mono h hsigned
    | _ => trivial
  | _ => trivial

theorem returnsPair_step {call : AuthCall} {m : AuthMoment} {l l' : AuthPhase}
    (h : Step sys call m s l l' s') (hl : ReturnsPair sys l s) : ReturnsPair sys l' s' := by
  cases h with
  | stays => exact hl
  | logsIn user users hset l' hl' =>
    obtain rfl | ⟨f, rfl⟩ := hl'
    · trivial
    · trivial
  | saves userId user shown hf hsigns cache hsave =>
    obtain ⟨haccess, -, hrefresh⟩ := signsBoth_payloads hsigns
    exact ⟨by simp, userId, _, _, haccess, rfl, hrefresh, rfl⟩
  | _ => trivial

variable {κ : Type*} (sys) (call : κ → AuthCall)

theorem pairs_stable : Stable (authServer sys call) (fun _ _ => True) (fun _ => True)
    (fun _ => ReturnsPair sys) where
  own w k m _ _ hl := ⟨trivial, returnsPair_step (act_step sys (call k) m (w.calls k) w.shared) hl⟩
  other w k m k' _ _ _ _ hl' :=
    hl'.mono fun _ => signed_step (act_step sys (call k) m (w.calls k) w.shared)
  env w e _ _ := ⟨trivial, fun k hl => hl.mono fun t ht => by cases e <;> exact ht⟩

variable {sys call} [DecidableEq κ]

theorem pairIssued_run (s₀ : AuthState) {k : κ} {turns : List (Turn κ AuthMoment AuthEnv)}
    {view : Option UserView} (hret : (run (authServer sys call).step (authStart s₀) turns).calls k =
      .returned (.tokens access refresh view)) :
    PairIssued sys (run (authServer sys call).step (authStart s₀) turns).shared access refresh := by
  have hstart : Holds (fun _ => True) (fun _ => ReturnsPair sys) (authStart (κ := κ) s₀) :=
    ⟨trivial, fun _ => trivial⟩
  have hpair := ((pairs_stable sys call).always hstart
    (along_of_forall (fun _ _ => trivial) _ turns)).last.2 k
  rwa [hret] at hpair

end Pairs

section Renewal
variable {sys : AuthSystem} {s : AuthState} {m : AuthMoment} {req : HttpRequest}
  {userId access refresh : String} {user : User} {info : Option String}

/-- The access token has not expired, and no logout has listed it. -/
structure StillUsable (sys : AuthSystem) (s : AuthState) (access : String) : Prop where
  live : ∀ exp, sys.expiry access = some exp → s.now < exp * 1000
  unlisted : KeyStore.get s.cache (blacklistKey access) = none

theorem bearerToken_of_word (h : words access.toList = [access.toList]) :
    bearerToken (some ("Bearer " ++ access)) = some access := by
  refine bearerToken_eq_some.mpr ⟨"Bearer".toList, [], ?_, by simp only [isBearer]; decide⟩
  rw [words_withBearer, h]

theorem verify_isSome_iff (hpair : PairIssued sys s access refresh) :
    (sys.verify s.signed s.now access).isSome = true ↔
      ∀ exp, sys.expiry access = some exp → s.now < exp * 1000 := by
  obtain ⟨-, p, -, hdecode, -⟩ := hpair.subject
  have hexpiry : sys.expiry access = p.exp := by simp [AuthSystem.expiry, hdecode]
  rw [Option.isSome_iff_exists]
  constructor
  · rintro ⟨payload, hverify⟩ exp hexp
    obtain ⟨-, hdecode', hlive⟩ := AuthSystem.verify_eq_some.mp hverify
    rw [hdecode] at hdecode'
    cases hdecode'
    have hlt := hlive exp (hexpiry ▸ hexp)
    omega
  · intro hlive
    refine ⟨p, AuthSystem.verify_eq_some.mpr ⟨hpair.access_signed, hdecode, fun exp hexp => ?_⟩⟩
    have hlt := hlive exp (hexpiry.trans hexp)
    omega

/-- The pair has one subject, which a valid refresh token is for. -/
theorem subject_of_pair {p : JwtPayload} (hpair : PairIssued sys s access refresh)
    (hvalid : sys.validateRefreshToken s s.now userId refresh = true)
    (hverify : sys.verify s.signed s.now access = some p) : p.sub = some userId := by
  obtain ⟨-, -, -, -, q, hq, hsub⟩ := validateRefreshToken_iff.mp hvalid
  obtain ⟨uid, p', q', hp', hpsub, hq', hqsub⟩ := hpair.subject
  obtain ⟨-, hdecode, -⟩ := AuthSystem.verify_eq_some.mp hverify
  obtain ⟨-, hdecode', -⟩ := AuthSystem.verify_eq_some.mp hq
  rw [hp'] at hdecode
  rw [hq'] at hdecode'
  cases hdecode
  cases hdecode'
  rw [hpsub, ← hqsub, hsub]

theorem gatewayPassport_of_bearer {header : Option String} {token : String}
    (h : bearerToken header = some token) :
    gatewayPassport sys s info header =
      ((sys.verify s.signed s.now token).map JwtStrategy.gatewayValidate).elim (.error info)
        .ok := by
  rw [gatewayPassport, h, Option.bind_some, authenticate_gateway]
  cases sys.verify s.signed s.now token <;> rfl

theorem jwtAuthGuard_of_bearer {header : Option String} {token : String}
    (h : bearerToken header = some token) :
    AuthHttp.jwtAuthGuard sys s false header =
      (authenticate sys .auth s s.now token).elim (.error .unauthorized) .ok := by
  simp only [AuthHttp.jwtAuthGuard, h]
  cases authenticate sys .auth s s.now token <;> rfl

theorem refreshRequest_of_call {call : ProxyCall} {header : Option String}
    (hheader : authorization call.headers = header)
    (hbody : optGet call.data "refreshToken" = some (.str refresh)) (hne : refresh ≠ "") :
    refreshRequest call = some (.refresh header refresh) := by
  simp [refreshRequest, hbody, hne, hheader]

theorem ne_empty_of_word {token : String} (h : words token.toList = [token.toList]) :
    token ≠ "" := by
  rintro rfl
  cases h

/-- What both directions rest on: where the gateway verifies the access token, the auth server gets
the request with the header and the refresh token it was sent with. -/
theorem reaches_authServer (env config : Env) (uuid timestamp : String)
    (hwords : TokensAreWords sys) (hpair : PairIssued sys s access refresh)
    (hpost : RefreshPost req access refresh) {p : JwtPayload}
    (hverify : sys.verify s.signed s.now access = some p) :
    ∃ call, gateway (setupRoutes env config) req
        (gatewayPassport sys s info (authorization req.headers)) uuid timestamp = .proxied call ∧
      refreshRequest call = some (.refresh (some ("Bearer " ++ access)) refresh) := by
  obtain ⟨-, p', q, hp', -, hq, -⟩ := hpair.subject
  have hbearer := bearerToken_of_word (hwords access (by simp [hp']))
  have hfilled := ne_empty_of_word (hwords refresh (by simp [hq]))
  obtain ⟨call, base, hcall, -, hheader, hdata⟩ :=
    gateway_of_user env config uuid timestamp hpost (JwtStrategy.gatewayValidate p)
  refine ⟨call, ?_, refreshRequest_of_call hheader (hdata ▸ hpost.body) hfilled⟩
  rw [hpost.header, gatewayPassport_of_bearer hbearer, hverify]
  exact hcall

/-- A pair that is signed now can be saved, with a lifetime to give to the refresh token. -/
theorem saves_of_signs (hfault : m.fault = false) (hsigns : signsBoth sys s m userId user = true)
    (hlifetime : 0 < sys.refreshLifetime) (hnow : 0 ≤ s.now) : Saves sys m s userId user := by
  obtain ⟨-, -, hdecode⟩ := signsBoth_payloads hsigns
  have hexpiry : sys.expiry m.refreshToken = some (s.now / 1000 + sys.refreshLifetime) := by
    simp [AuthSystem.expiry, hdecode, refreshPayload]
  have hpositive : s.now / 1000 + sys.refreshLifetime ≠ 0 := by omega
  have hleft : ¬s.now / 1000 + sys.refreshLifetime - s.now / 1000 < 0 := by omega
  refine ⟨hfault, hsigns, ?_⟩
  simp only [AuthSystem.saveRefreshToken, hexpiry, if_neg hpositive, cacheSet, if_neg hleft]
  exact ⟨_, rfl⟩

theorem renews_of_usable (env config : Env) (uuid timestamp : String) (hwords : TokensAreWords sys)
    (hpair : PairIssued sys s access refresh)
    (hvalid : sys.validateRefreshToken s s.now userId refresh = true)
    (huser : findById sys s.users userId = .ok user) (hactive : user.isActive = true)
    (hsaves : Saves sys m s userId user) (hpost : RefreshPost req access refresh)
    (h : StillUsable sys s access) :
    Renews sys (setupRoutes env config) s m req info uuid timestamp := by
  obtain ⟨p, hverify⟩ := Option.isSome_iff_exists.mp ((verify_isSome_iff hpair).mpr h.live)
  obtain ⟨call, hcall, hrequest⟩ :=
    reaches_authServer env config uuid timestamp hwords hpair hpost hverify
  obtain ⟨-, p', -, hp', -⟩ := hpair.subject
  have hbearer := bearerToken_of_word (hwords access (by simp [hp']))
  have hguard : AuthHttp.jwtAuthGuard sys s false (some ("Bearer " ++ access)) =
      .ok ⟨p.sub, p.email, p.roles⟩ := by
    rw [jwtAuthGuard_of_bearer hbearer, authenticate_auth, h.unlisted, hverify]
    rfl
  have hanswer := answered_of_user hguard (subject_of_pair hpair hvalid hverify) hvalid huser
    hactive hsaves
  have haccess : m.accessToken ∉ s.signed := signsBoth_access_fresh hsaves.2.1
  exact ⟨call, _, _, _, _, hcall, hrequest, hanswer, haccess, (signsBoth_fresh hsaves.2.1).1⟩

theorem usable_of_renews (env config : Env) (uuid timestamp : String) (hwords : TokensAreWords sys)
    (hpair : PairIssued sys s access refresh) (hfault : m.fault = false)
    (hpost : RefreshPost req access refresh)
    (h : Renews sys (setupRoutes env config) s m req info uuid timestamp) :
    StillUsable sys s access := by
  obtain ⟨call, request, operation, access', refresh', hcall, hrequest, hanswer, -⟩ := h
  obtain ⟨-, p', -, hp', -⟩ := hpair.subject
  have hbearer := bearerToken_of_word (hwords access (by simp [hp']))
  cases hverify : sys.verify s.signed s.now access with
  | none =>
    -- the gateway's own guard is where it ends
    rw [hpost.header, gatewayPassport_of_bearer hbearer, hverify, Option.map_none, Option.elim_none,
      gateway_without_user env config uuid timestamp hpost] at hcall
    cases hcall
  | some p =>
    refine ⟨(verify_isSome_iff hpair).mp (by rw [hverify]; rfl), ?_⟩
    obtain ⟨call', hcall', hrequest'⟩ :=
      reaches_authServer env config uuid timestamp hwords hpair hpost hverify
    cases hcall.symm.trans hcall'
    cases hrequest.symm.trans hrequest'
    cases hlisted : KeyStore.get s.cache (blacklistKey access) with
    | none => rfl
    | some value =>
      have hguard : AuthHttp.jwtAuthGuard sys s false (some ("Bearer " ++ access)) =
          .error .unauthorized := by
        rw [jwtAuthGuard_of_bearer hbearer, authenticate_auth, hlisted]
        rfl
      rw [answered_unguarded hfault hguard] at hanswer
      cases hanswer

variable {κ : Type*} [DecidableEq κ] {call : κ → AuthCall}

/-- In every state that a run reaches after a pair was issued, with its refresh token alive and its
user active, the request renews the session exactly if the access token could still be used. -/
theorem session_renewed_iff (env config : Env) (uuid timestamp : String)
    (hwords : TokensAreWords sys) (s₀ : AuthState) (turns : List (Turn κ AuthMoment AuthEnv))
    {k : κ} {view : Option UserView}
    (hret : (run (authServer sys call).step (authStart s₀) turns).calls k =
      .returned (.tokens access refresh view))
    (hs : s = (run (authServer sys call).step (authStart s₀) turns).shared)
    (hvalid : sys.validateRefreshToken s s.now userId refresh = true)
    (huser : findById sys s.users userId = .ok user) (hactive : user.isActive = true)
    (hfault : m.fault = false) (hsigns : signsBoth sys s m userId user = true)
    (hlifetime : 0 < sys.refreshLifetime) (hnow : 0 ≤ s.now)
    (hpost : RefreshPost req access refresh) :
    Renews sys (setupRoutes env config) s m req info uuid timestamp ↔
      StillUsable sys s access := by
  have hpair : PairIssued sys s access refresh := hs ▸ pairIssued_run s₀ hret
  have hsaves := saves_of_signs hfault hsigns hlifetime hnow
  exact ⟨usable_of_renews env config uuid timestamp hwords hpair hfault hpost,
    renews_of_usable env config uuid timestamp hwords hpair hvalid huser hactive hsaves hpost⟩

end Renewal

section Sample

/-- What signing returns to Alice at a second. -/
def pairAt (n : String) (second : Int) : List (String × JwtPayload) :=
  [("access" ++ n, ⟨some "u1", some "alice@x", some [.USER], some (second + 3600)⟩),
    ("refresh" ++ n, ⟨some "u1", none, none, some (second + 604800)⟩)]

def hourlySystem : AuthSystem :=
  .ofTable (pairAt "1" 0 ++ pairAt "2" 1800 ++ pairAt "3" 3600)

def signsPair (n : String) : AuthMoment where
  accessToken := "access" ++ n
  refreshToken := "refresh" ++ n

/-- Alice logs in, and some time goes by. -/
def loginAndWait (ms : Nat) : List (Turn Unit AuthMoment AuthEnv) :=
  [.call () {}, .call () {}, .call () (signsPair "1"), .env (.tick ms)]

def aliceAfter (ms : Nat) : World Unit AuthState AuthPhase :=
  run (authServer hourlySystem aliceLogin).step (authStart (aliceState [] none)) (loginAndWait ms)

theorem alice_loggedIn (ms : Nat) : (aliceAfter ms).calls () =
    .returned (.tokens "access1" "refresh1" (some alice.view)) := rfl

def renewPost : HttpRequest where
  method := "POST"
  path := "/auth/refresh"
  params := []
  query := none
  body := some (.obj [("refreshToken", .str "refresh1")])
  user := none
  headers := [("authorization", .str "Bearer access1")]

theorem renewPost_post : RefreshPost renewPost "access1" "refresh1" := ⟨rfl, rfl, rfl, rfl⟩

theorem hourlySystem_words : TokensAreWords hourlySystem := by
  intro t hdecode
  obtain ⟨payload, hpayload⟩ := Option.ne_none_iff_exists'.mp hdecode
  have hnames : (pairAt "1" 0 ++ pairAt "2" 1800 ++ pairAt "3" 3600).all
      (fun p => decide (words p.1.toList = [p.1.toList])) = true := by decide
  obtain ⟨before, after, hsplit, -⟩ := List.lookup_eq_some_iff.mp hpayload
  have hmem : (t, payload) ∈ pairAt "1" 0 ++ pairAt "2" 1800 ++ pairAt "3" 3600 := by
    rw [hsplit]
    exact List.mem_append_right before List.mem_cons_self
  exact of_decide_eq_true (List.all_eq_true.mp hnames _ hmem)

theorem session_renewed_in_time :
    Renews hourlySystem (setupRoutes noEnv noEnv) (aliceAfter 1800000).shared (signsPair "2")
      renewPost none "m1" "t" := by
  have hvalid : hourlySystem.validateRefreshToken (aliceAfter 1800000).shared
      (aliceAfter 1800000).shared.now "u1" "refresh1" = true := by decide
  refine (session_renewed_iff noEnv noEnv "m1" "t" hourlySystem_words (aliceState [] none)
    (loginAndWait 1800000) (alice_loggedIn 1800000) rfl hvalid rfl rfl rfl (by decide) (by decide)
    (by decide) renewPost_post).mpr ⟨fun exp hexp => ?_, by decide⟩
  cases hexp
  decide

/-- An hour after her login Alice's refresh token is as valid as before, and cannot be redeemed. -/
theorem session_not_renewed_after_an_hour :
    hourlySystem.validateRefreshToken (aliceAfter 3600000).shared
      (aliceAfter 3600000).shared.now "u1" "refresh1" = true ∧
    ¬∀ (turns : List (Turn Unit AuthMoment AuthEnv)) (access refresh userId : String)
      (view : Option UserView) (user : User) (m : AuthMoment) (req : HttpRequest)
      (info : Option String),
      let w := run (authServer hourlySystem aliceLogin).step (authStart (aliceState [] none)) turns
      w.calls () = .returned (.tokens access refresh view) →
      hourlySystem.validateRefreshToken w.shared w.shared.now userId refresh = true →
      findById hourlySystem w.shared.users userId = .ok user → user.isActive = true →
      m.fault = false → signsBoth hourlySystem w.shared m userId user = true →
      RefreshPost req access refresh →
      Renews hourlySystem (setupRoutes noEnv noEnv) w.shared m req info "m1" "t" := by
  refine ⟨by decide, fun h => ?_⟩
  have hrenews := h (loginAndWait 3600000) "access1" "refresh1" "u1" (some alice.view)
    { alice with lastLogin := some 0 } (signsPair "3") renewPost none (alice_loggedIn 3600000)
    (by decide) rfl rfl rfl (by decide) renewPost_post
  have hpair := pairIssued_run (aliceState [] none) (alice_loggedIn 3600000)
  have husable := usable_of_renews noEnv noEnv "m1" "t" hourlySystem_words hpair rfl
    renewPost_post hrenews
  exact absurd (husable.live 3600 rfl) (by decide)

end Sample
end MsaTuto
