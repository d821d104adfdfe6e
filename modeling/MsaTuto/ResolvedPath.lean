import MsaTuto.GatewayAccess
import MsaTuto.UrlPath

/-! The path a request is authorised for, and the path the backend receives: the first is
taken as the client wrote it, the second comes out of the URL parser. -/
namespace MsaTuto
open GatewayService GatewayController ProxyService

/-- The caller meets the route's `requireAuth` and its roles. -/
def Satisfies (user : Option JwtUserDto) (route : ProxyRouteConfig) : Prop :=
  (route.requireAuth = true → user ≠ none) ∧ (route.roles = [] ∨ hasRole route user = true)

/-- Whatever a logged-in caller gets proxied under this path and method, the route of the
path that the backend receives would have let the caller through as well. `host` is what
the URL parser accepts as a host. -/
def AuthorizesTarget (routes : List ProxyRouteConfig) (host : List Char → Bool)
    (path method : String) : Prop :=
  ∀ (req : HttpRequest) (user : JwtUserDto) (uuid timestamp : String) (call : ProxyCall)
    (u : Url.Parsed), req.path = path → req.method = method →
    handleRequest routes req (some user) uuid timestamp = .proxied call →
    Url.parse host call.url.toList = some u →
    ∃ found, getRouteConfigForPath routes (String.ofList u.pathname) method = some found ∧
      Satisfies (some user) found.routeConfig

/-- Everyone whom the roles of `r` let through, those of `r'` let through. -/
def Covers (r r' : ProxyRouteConfig) : Prop :=
  r'.roles = [] ∨ r.roles ≠ [] ∧ ∀ role ∈ r.roles, role ∈ r'.roles

/-- Where the path is proxied at all, the path that its URL resolves to has a route, and
that route asks for no role which the route of the written path did not ask for. -/
def TargetCovered (routes : List ProxyRouteConfig) (host : List Char → Bool)
    (path method : String) : Prop :=
  startsWith path "/health" = false → ∀ found base u,
    getRouteConfigForPath routes (routePath path) method = some found →
    messageRoute found.routeConfig = none → found.routeConfig.targetUrl = some base →
    Url.parse host (createTargetUrl base path).toList = some u →
    ∃ found', getRouteConfigForPath routes (String.ofList u.pathname) method = some found' ∧
      Covers found.routeConfig found'.routeConfig

theorem refusal_none {r : ProxyRouteConfig} {user : Option JwtUserDto} (hp : r.permissions = []) :
    refusal r user = none ↔ Satisfies user r := by
  unfold refusal Satisfies
  by_cases hauth : r.requireAuth = true ∧ user = none
  · simp [hauth.1, hauth.2]
  · rw [if_neg hauth]
    have hauth' : r.requireAuth = true → user ≠ none := fun h1 h2 => hauth ⟨h1, h2⟩
    by_cases hroles : r.roles ≠ [] ∧ hasRole r user = false
    · simp [hroles.1, hroles.2]
    · rw [if_neg hroles, if_neg (by simp [hp])]
      refine ⟨fun _ => ⟨hauth', ?_⟩, fun _ => rfl⟩
      by_cases hempty : r.roles = []
      · exact .inl hempty
      · exact .inr (by simpa [hempty] using hroles)

theorem found_permissions {env config : Env} {path method : String} {found : RouteResult}
    (h : getRouteConfigForPath (setupRoutes env config) path method = some found) :
    found.routeConfig.permissions = [] := by
  obtain ⟨r, hr, -, -, hsame⟩ := getRouteConfigForPath_some h
  have hp := no_permissions env config r hr
  obtain hsame | ⟨rest, hsame⟩ := hsame
  · rw [hsame]
    exact hp
  · rw [hsame]
    exact hp

/-- What is proxied, and where to. -/
theorem of_proxied {env config : Env} {req : HttpRequest} {user : Option JwtUserDto}
    {uuid timestamp : String} {call : ProxyCall}
    (h : handleRequest (setupRoutes env config) req user uuid timestamp = .proxied call) :
    startsWith req.path "/health" = false ∧ ∃ found base,
      getRouteConfigForPath (setupRoutes env config) (routePath req.path) req.method =
        some found ∧
      Satisfies user found.routeConfig ∧ messageRoute found.routeConfig = none ∧
      found.routeConfig.targetUrl = some base ∧ call.url = createTargetUrl base req.path := by
  obtain ⟨hhealth, found, hfound, hnone, hpassed⟩ := passedOn_of_forwarded (by rw [h]; rfl)
  have hsatisfies := (refusal_none (found_permissions hfound)).mp hnone
  rw [h] at hpassed
  cases hmessage : messageRoute found.routeConfig with
  | some rabbitmq => simp [passOn, hmessage] at hpassed
  | none =>
    cases hbase : found.routeConfig.targetUrl with
    | none => simp [passOn, hmessage, proxyRequest, hbase] at hpassed
    | some base =>
      simp only [passOn, hmessage, proxyRequest, hbase] at hpassed
      cases hpassed
      exact ⟨hhealth, found, base, hfound, hsatisfies, hmessage, hbase, rfl⟩

theorem proxied_of_satisfies {routes : List ProxyRouteConfig} (req : HttpRequest)
    {user : Option JwtUserDto} {found : RouteResult} {base : String}
    (hhealth : startsWith req.path "/health" = false)
    (hfound : getRouteConfigForPath routes (routePath req.path) req.method = some found)
    (hnone : refusal found.routeConfig user = none)
    (hmessage : messageRoute found.routeConfig = none)
    (hbase : found.routeConfig.targetUrl = some base) (uuid timestamp : String) :
    ∃ call, handleRequest routes req user uuid timestamp = .proxied call ∧
      call.url = createTargetUrl base req.path := by
  unfold handleRequest
  rw [if_neg (by simp [hhealth]), hfound]
  simp only [underRoute, hnone, passOn, hmessage, proxyRequest, hbase]
  exact ⟨_, rfl, rfl⟩

def userWith (roles : List Role) : JwtUserDto := ⟨some "u1", some "a@x", some roles⟩

theorem hasRole_userWith {r : ProxyRouteConfig} {roles : List Role} :
    hasRole r (some (userWith roles)) = true ↔ ∃ role ∈ r.roles, role ∈ roles := by
  rw [hasRole, decide_eq_true_eq]
  rfl

/-- If every caller that `r` lets through gets past `r'`, then `r'` asks for no more. -/
theorem covers_of_satisfies {r r' : ProxyRouteConfig}
    (h : ∀ user : JwtUserDto, Satisfies (some user) r → Satisfies (some user) r') :
    Covers r r' := by
  have hauth : ∀ user : JwtUserDto, some user ≠ none := Option.some_ne_none
  by_cases hr : r.roles = []
  · left
    obtain ⟨-, hempty | hrole⟩ := h (userWith []) ⟨fun _ => hauth _, .inl hr⟩
    · exact hempty
    · obtain ⟨role, -, hmem⟩ := hasRole_userWith.mp hrole
      cases hmem
  · by_cases hr' : r'.roles = []
    · exact .inl hr'
    · refine .inr ⟨hr, fun role hrole => ?_⟩
      have hpass : hasRole r (some (userWith [role])) = true :=
        hasRole_userWith.mpr ⟨role, hrole, List.mem_cons_self⟩
      obtain ⟨-, hempty | hrole'⟩ := h (userWith [role]) ⟨fun _ => hauth _, .inr hpass⟩
      · exact absurd hempty hr'
      · obtain ⟨role', hmem', hmem⟩ := hasRole_userWith.mp hrole'
        rwa [List.mem_singleton.mp hmem] at hmem'

theorem Covers.satisfies {r r' : ProxyRouteConfig} (h : Covers r r') {user : JwtUserDto}
    (hs : Satisfies (some user) r) : Satisfies (some user) r' := by
  refine ⟨fun _ => Option.some_ne_none user, ?_⟩
  obtain h | ⟨hne, hsub⟩ := h
  · exact .inl h
  · obtain hempty | hrole := hs.2
    · exact absurd hempty hne
    · simp only [hasRole, decide_eq_true_eq] at hrole ⊢
      obtain ⟨role, hmem, huser⟩ := hrole
      exact .inr ⟨role, hsub role hmem, huser⟩

/-- The gateway authorises what it requests exactly under the paths whose resolved form is
covered by the route of the form the client wrote. -/
theorem authorizesTarget_iff_covered (env config : Env) (host : List Char → Bool)
    (path method : String) :
    AuthorizesTarget (setupRoutes env config) host path method ↔
      TargetCovered (setupRoutes env config) host path method := by
  constructor
  · intro h hhealth found base u hfound hmessage hbase hparse
    let req : HttpRequest := ⟨method, path, [], none, none, none, []⟩
    have hreach : ∀ user : JwtUserDto, Satisfies (some user) found.routeConfig →
        ∃ found', getRouteConfigForPath (setupRoutes env config) (String.ofList u.pathname)
          method = some found' ∧ Satisfies (some user) found'.routeConfig := by
      intro user huser
      have hnone := (refusal_none (found_permissions hfound)).mpr huser
      obtain ⟨call, hcall, hurl⟩ :=
        proxied_of_satisfies req hhealth hfound hnone hmessage hbase "" ""
      exact h req user "" "" call u rfl rfl hcall (by rw [hurl]; exact hparse)
    -- a caller with every role gets through, so the resolved path has a route
    have hall : Satisfies (some (userWith [.USER, .OPERATOR, .AUDITOR, .ADMIN]))
        found.routeConfig := by
      refine ⟨fun _ => Option.some_ne_none _, ?_⟩
      cases hroles : found.routeConfig.roles with
      | nil => exact .inl rfl
      | cons role rest =>
        refine .inr (hasRole_userWith.mpr ⟨role, by simp [hroles], ?_⟩)
        cases role <;> decide
    obtain ⟨found', hfound', -⟩ := hreach _ hall
    refine ⟨found', hfound', covers_of_satisfies fun user huser => ?_⟩
    obtain ⟨found'', hfound'', hs⟩ := hreach user huser
    rw [hfound'] at hfound''
    cases hfound''
    exact hs
  · intro h req user uuid timestamp call u hpath hmethod hproxied hparse
    obtain ⟨hhealth, found, base, hfound, hs, hmessage, hbase, hurl⟩ := of_proxied hproxied
    rw [hpath] at hhealth hfound hurl
    rw [hmethod] at hfound
    rw [hurl] at hparse
    obtain ⟨found', hfound', hcovers⟩ := h hhealth found base u hfound hmessage hbase hparse
    exact ⟨found', hfound', hcovers.satisfies hs⟩

/-- Everyone with the role USER may read `/rewards`, and gets through to `/events`, which
is for operators, by writing it as a path below the first. -/
theorem dot_segments_reach_events :
    ¬∀ path method, AuthorizesTarget (setupRoutes noEnv noEnv) (fun _ => true) path method := by
  intro h
  let req := plainRequest "GET" "/rewards/../events"
  have hurl : (handleRequest (setupRoutes noEnv noEnv) req (some (userWith [.USER])) "m1" "t").url
      = some "http://game-event-service:5000/rewards/../events" := by decide +kernel
  obtain ⟨call, hcall, hurl⟩ := proxied_of_url hurl
  have hparse : Url.parse (fun _ => true) call.url.toList =
      some ⟨"game-event-service:5000".toList, "/events".toList⟩ := by
    rw [hurl]
    decide +kernel
  obtain ⟨found, hfound, -, hroles⟩ :=
    h req.path req.method req (userWith [.USER]) "m1" "t" call _ rfl rfl hcall hparse
  have hroute : (getRouteConfigForPath (setupRoutes noEnv noEnv) "/events" "GET").map
      (fun found => found.routeConfig.roles) = some [.OPERATOR, .ADMIN] := by decide +kernel
  have hfound' : getRouteConfigForPath (setupRoutes noEnv noEnv) "/events" "GET" = some found :=
    hfound
  rw [hfound', Option.map_some, Option.some.injEq] at hroute
  rw [hroute] at hroles
  obtain hempty | hrole := hroles
  · cases hempty
  · obtain ⟨role, hmem, huser⟩ := hasRole_userWith.mp hrole
    rw [List.mem_singleton.mp huser, hroute] at hmem
    exact absurd hmem (by decide)

section Plain
variable {host : List Char → Bool} {s : List Char}

theorem createTargetUrl_origin (o : Url.Origin host) {base : String} (hbase : base.toList = o.text)
    (s : List Char) :
    (createTargetUrl base (String.ofList ('/' :: s))).toList = o.text ++ '/' :: s := by
  have hends : endsWithSlash base = false := by
    rw [endsWithSlash, hbase]
    exact decide_eq_false o.text_getLast
  have hdrop : dropSlash (String.ofList ('/' :: s)) = String.ofList s := by
    simp [dropSlash, startsWith]
  rw [createTargetUrl, hends, hdrop]
  simp [hbase]

/-- Nothing but the route itself decides under a path that the URL parser leaves as it is:
plain characters, no dot segments, one slash to begin with. -/
theorem plain_path_covered {env config : Env} (method : String)
    (horigin : ∀ r ∈ setupRoutes env config, ∀ base, r.targetUrl = some base →
      ∃ o : Url.Origin host, base.toList = o.text)
    (hplain : ∀ c ∈ s, Url.Plain c) (hdots : Url.NoDots s) (hslash : s.head? ≠ some '/') :
    TargetCovered (setupRoutes env config) host (String.ofList ('/' :: s)) method := by
  intro _ found base u hfound _ hbase hparse
  obtain ⟨r, hr, -, -, hsame⟩ := getRouteConfigForPath_some hfound
  have hrbase : r.targetUrl = some base := by
    obtain hsame | ⟨rest, hsame⟩ := hsame
    · rwa [hsame] at hbase
    · rwa [hsame] at hbase
  obtain ⟨o, ho⟩ := horigin r hr base hrbase
  rw [createTargetUrl_origin o ho, o.parse_text hplain hdots] at hparse
  cases hparse
  have hpath : dropSlash (String.ofList ('/' :: s)) =
      dropSlash (routePath (String.ofList ('/' :: s))) := by
    cases s with
    | nil => rfl
    | cons c s =>
      have hc : c ≠ '/' := fun h => hslash (by rw [h]; rfl)
      simp [dropSlash, startsWith, routePath, Ne.symm hc]
  refine ⟨found, ?_, ?_⟩
  · unfold getRouteConfigForPath at hfound ⊢
    rw [hpath]
    exact hfound
  · by_cases hroles : found.routeConfig.roles = []
    · exact .inl hroles
    · exact .inr ⟨hroles, fun _ h => h⟩

end Plain
end MsaTuto
