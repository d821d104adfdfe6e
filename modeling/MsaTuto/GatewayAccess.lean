import MsaTuto.Gateway

/-! What the gateway lets through: to callers without a token, and under a method that no
route allows. -/
namespace MsaTuto
open GatewayService GatewayController

section Table
variable (env config : Env)

theorem no_permissions : ∀ r ∈ setupRoutes env config, r.permissions = [] :=
  forall_setupRoutes (fun _ _ => Iff.rfl) (by decide +kernel) env config

theorem apiDocs_unreached : ∀ r ∈ setupRoutes env config, ¬Reaches "api-docs" r :=
  forall_setupRoutes (fun _ _ => Iff.rfl) (by decide +kernel) env config

theorem refreshToken_guarded :
    ∀ r ∈ setupRoutes env config, Reaches "auth/refresh-token" r → r.requireAuth = true :=
  forall_setupRoutes (fun _ _ => Iff.rfl) (by decide +kernel) env config

end Table

variable {routes : List ProxyRouteConfig} {req : HttpRequest} {user : Option JwtUserDto}
  {uuid timestamp : String}

theorem refusal_some {r : ProxyRouteConfig} {outcome : Outcome}
    (h : refusal r user = some outcome) :
    ∃ status message, outcome = .refused status message ∧ (status = 401 ∨ status = 403) := by
  unfold refusal at h
  split at h
  · cases h
    exact ⟨401, _, rfl, .inl rfl⟩
  · split at h
    · cases h
      exact ⟨403, _, rfl, .inr rfl⟩
    · split at h
      · cases h
        exact ⟨403, _, rfl, .inr rfl⟩
      · cases h

theorem refusal_of_requireAuth {r : ProxyRouteConfig} (h : r.requireAuth = true) :
    refusal r none = some (.refused 401 "Unauthorized") := by
  simp [refusal, h]

/-- The checks of a flagged route are those of the route itself. -/
theorem refusal_found {found : RouteResult} {r : ProxyRouteConfig}
    (h : found.routeConfig = r ∨ ∃ rest, found.routeConfig = notAllowed r rest) :
    refusal found.routeConfig user = refusal r user := by
  obtain h | ⟨rest, h⟩ := h
  · rw [h]
  · rw [h]
    rfl

/-- A request that is forwarded is no health check, has a route, and has passed its checks. -/
theorem passedOn_of_forwarded
    (h : (handleRequest routes req user uuid timestamp).forwarded = true) :
    startsWith req.path "/health" = false ∧
      ∃ found, getRouteConfigForPath routes (routePath req.path) req.method = some found ∧
        refusal found.routeConfig user = none ∧
        handleRequest routes req user uuid timestamp = passOn found.routeConfig
          (withParams req ((matchPath found.matchedPattern (routePath req.path)).getD [])) user
          uuid timestamp := by
  unfold handleRequest at h ⊢
  split at h
  · cases h
  next hhealth =>
    refine ⟨by simpa using hhealth, ?_⟩
    rw [if_neg hhealth]
    split at h
    · cases h
    next found hfound =>
      refine ⟨found, hfound, ?_⟩
      simp only [underRoute] at h ⊢
      cases hrefusal : refusal found.routeConfig user with
      | none => exact ⟨rfl, rfl⟩
      | some outcome =>
        obtain ⟨status, message, rfl, -⟩ := refusal_some hrefusal
        simp only [hrefusal] at h
        cases h

/-- A request is forwarded only under a route of the table that its path reaches, and past
that route's own checks. -/
theorem forwarded_under_route
    (h : (handleRequest routes req user uuid timestamp).forwarded = true) :
    startsWith req.path "/health" = false ∧
      ∃ r ∈ routes, Reaches (dropSlash (routePath req.path)) r ∧ refusal r user = none := by
  obtain ⟨hhealth, found, hfound, hnone, -⟩ := passedOn_of_forwarded h
  obtain ⟨r, hmem, hreach, -, hr⟩ := getRouteConfigForPath_some hfound
  exact ⟨hhealth, r, hmem, hreach, (refusal_found hr).symm.trans hnone⟩

/-- Without a valid token only the two paths that need none are forwarded, whatever the
method and whatever else the path would reach. -/
theorem unauthenticated_forwards_only_login_and_register (env config : Env) (req : HttpRequest)
    (info : Option String) (uuid timestamp : String)
    (h : (gateway (setupRoutes env config) req (.error info) uuid timestamp).forwarded = true) :
    req.path = "/auth/login" ∨ req.path = "/auth/register" := by
  unfold gateway at h
  split at h
  · cases h
  next user hguard =>
    unfold canActivate at hguard
    split at hguard
    next hpublic =>
      cases hguard
      obtain ⟨hhealth, r, hmem, hreach, hnone⟩ := forwarded_under_route h
      simp only [publicPaths, List.mem_cons, List.not_mem_nil, or_false] at hpublic
      obtain hp | hp | hp | hp | hp | hp | hp := hpublic
      · exact .inl hp
      · exact .inr hp
      · -- no route of its own, but `auth/refresh` is a prefix of it
        rw [hp] at hreach
        have hauth := refreshToken_guarded env config r hmem hreach
        rw [refusal_of_requireAuth hauth] at hnone
        cases hnone
      · rw [hp] at hhealth
        exact absurd hhealth (by decide)
      · rw [hp] at hhealth
        exact absurd hhealth (by decide)
      · rw [hp] at hhealth
        exact absurd hhealth (by decide)
      · rw [hp] at hreach
        exact absurd hreach (apiDocs_unreached env config r hmem)
    · cases hguard

section Sample

def noEnv : Env := fun _ => none

def plainRequest (method path : String) : HttpRequest :=
  ⟨method, path, [], some (.obj []), some (.obj [("email", .str "a@x")]), none, []⟩

theorem unauthenticated_forwards_login :
    (plainRequest "POST" "/auth/login").path = "/auth/login" ∨
      (plainRequest "POST" "/auth/login").path = "/auth/register" :=
  unauthenticated_forwards_only_login_and_register noEnv noEnv (plainRequest "POST" "/auth/login")
    (some "No auth token") "m1" "t" (by decide +kernel)

end Sample

def answersMethodNotAllowed : Outcome → Bool
  | .refused status _ => decide (status = 405)
  | _ => false

/-- A route of the table fits the path, and none that the path reaches allows the method. -/
def OnlyPathFits (routes : List ProxyRouteConfig) (path method : String) : Prop :=
  (∃ r ∈ routes, exactly path r = true ∨ byPattern path r = true) ∧
    ∀ r ∈ routes, isMethodMatch method r = true → ¬Reaches path r

instance (routes : List ProxyRouteConfig) (path method : String) :
    Decidable (OnlyPathFits routes path method) :=
  inferInstanceAs (Decidable (_ ∧ _))

theorem underRoute_not_405 (found : RouteResult) (path : String) :
    answersMethodNotAllowed (underRoute found path req user uuid timestamp) = false := by
  unfold underRoute
  split
  next outcome hout =>
    obtain ⟨status, message, rfl, rfl | rfl⟩ := refusal_some hout
    · rfl
    · rfl
  next =>
    unfold passOn
    split
    · rfl
    · unfold ProxyService.proxyRequest
      split
      · rfl
      · rfl

/-- The flag is set and never read: where only the path fits, the answer is never a 405,
and the request is handled as under the first route that its path fits. -/
theorem method_not_allowed_never_answered (env config : Env) (req : HttpRequest)
    (user : Option JwtUserDto) (uuid timestamp : String)
    (h : OnlyPathFits (setupRoutes env config) (dropSlash (routePath req.path)) req.method) :
    answersMethodNotAllowed
        (handleRequest (setupRoutes env config) req user uuid timestamp) = false ∧
      (startsWith req.path "/health" = false →
        ∃ r ∈ setupRoutes env config, isMethodMatch req.method r = false ∧
          handleRequest (setupRoutes env config) req user uuid timestamp =
            underRoute ⟨r, r.path⟩ (routePath req.path) req user uuid timestamp) := by
  obtain ⟨⟨r₀, hr₀, hfits⟩, hnone⟩ := h
  have hmem₀ := mem_pathMatches.mpr ⟨hr₀, hfits⟩
  cases hpm : pathMatches (setupRoutes env config) (dropSlash (routePath req.path)) with
  | nil =>
    rw [hpm] at hmem₀
    cases hmem₀
  | cons r rest =>
    have hfound := getRouteConfigForPath_notAllowed hnone hpm
    have hr := mem_pathMatches.mp (hpm ▸ List.mem_cons_self : r ∈ pathMatches _ _)
    unfold handleRequest
    rw [hfound]
    split
    next hhealth =>
      refine ⟨rfl, fun h => ?_⟩
      rw [hhealth] at h
      cases h
    next =>
      refine ⟨underRoute_not_405 _ _, fun _ => ⟨r, hr.1, ?_, rfl⟩⟩
      by_contra hallows
      exact hnone r hr.1 (by simpa using hallows) (hr.2.imp_right .inl)

section Sample

def operator : JwtUserDto := ⟨some "u7", some "op@x", some [.OPERATOR]⟩

theorem deleteEvents_onlyPathFits :
    OnlyPathFits (setupRoutes noEnv noEnv) (dropSlash (routePath "/events")) "DELETE" := by
  decide +kernel

theorem method_not_allowed_never_answered_delete :
    answersMethodNotAllowed (handleRequest (setupRoutes noEnv noEnv)
        (plainRequest "DELETE" "/events") (some operator) "m1" "t") = false :=
  (method_not_allowed_never_answered noEnv noEnv (plainRequest "DELETE" "/events")
    (some operator) "m1" "t" deleteEvents_onlyPathFits).1

/-- No route allows `DELETE /events`, and an operator's request for it is proxied. -/
theorem delete_events_proxied :
    ¬∀ (req : HttpRequest) (user : Option JwtUserDto),
      OnlyPathFits (setupRoutes noEnv noEnv) (dropSlash (routePath req.path)) req.method →
        answersMethodNotAllowed (handleRequest (setupRoutes noEnv noEnv) req user "m1" "t") =
            true ∧
          (handleRequest (setupRoutes noEnv noEnv) req user "m1" "t").forwarded = false := by
  intro h
  have hproxied : (handleRequest (setupRoutes noEnv noEnv) (plainRequest "DELETE" "/events")
      (some operator) "m1" "t").forwarded = true := by decide +kernel
  have hrefused := (h (plainRequest "DELETE" "/events") (some operator) deleteEvents_onlyPathFits).2
  rw [hproxied] at hrefused
  cases hrefused

end Sample
end MsaTuto
