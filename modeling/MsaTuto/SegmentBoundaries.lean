import MsaTuto.GatewayAccess
import MsaTuto.RouteLookup

/-! At which places of a path a route of the table may end. -/
namespace MsaTuto
open GatewayService PathMatcher

/-- The route's path followed by a slash and further text. -/
def Continues (pattern path : String) : Prop :=
  ∃ rest, rest ≠ [] ∧ path.toList = pattern.toList ++ '/' :: rest

/-- The path is the route's, fits it segment by segment, or lies below it. -/
def AtBoundary (pattern path : String) : Prop :=
  path = pattern ∨ Fits (segments pattern) (segments path) ∨ Continues pattern path

section Boundaries
variable (engine : RegExp.Engine) (routes : List ProxyRouteConfig) (path method : String)

/-- No exact route allows the method. -/
def NoExact : Prop := ∀ r ∈ routes, isExact id path method r = false

def NoPattern : Prop := ∀ r ∈ routes, isPattern id (expressions engine) path method r = false

def NoPrefix : Prop := ∀ r ∈ routes, isPrefix id path method r = false

/-- The longest of the routes the path begins with and that allow the method. -/
def LongestPrefix (r : ProxyRouteConfig) : Prop :=
  r ∈ routes ∧ isPrefix id path method r = true ∧
    ∀ r' ∈ routes, isPrefix id path method r' = true → pathLength id r' ≤ pathLength id r

/-- When only a prefix is left, it ends at a slash with more behind it. A route whose
path is an expression of its own must be at a boundary wherever it decides. -/
structure Separated : Prop where
  byPattern : NoExact routes path method → ∀ r,
    routes.find? (isPattern id (expressions engine) path method) = some r →
      ¬RegularPath r.path → AtBoundary r.path path
  byPrefix : NoExact routes path method → NoPattern engine routes path method → ∀ r,
    LongestPrefix routes path method r →
      (RegularPath r.path → Continues r.path path) ∧
      (¬RegularPath r.path → AtBoundary r.path path)
  byPath : NoExact routes path method → NoPattern engine routes path method →
    NoPrefix routes path method → ∀ r,
      routes.find? (isPathOnly id (expressions engine) path) = some r →
        ¬RegularPath r.path → AtBoundary r.path path

end Boundaries

section Chosen
variable {engine : RegExp.Engine} {routes : List ProxyRouteConfig} {path method : String}

theorem fits_of_expressions {pattern : String} (h : RegularPath pattern) :
    expressions engine pattern path = true ↔ Fits (segments pattern) (segments path) := by
  rw [expressions_regular engine h]
  exact fits_iff h _

theorem find?_none {p : ProxyRouteConfig → Bool} (h : ∀ r ∈ routes, p r = false) :
    routes.find? p = none := by
  simpa using h

theorem chosen_pattern (hexact : NoExact routes path method) {r : ProxyRouteConfig}
    (h : routes.find? (isPattern id (expressions engine) path method) = some r) :
    chosen id (expressions engine) path method routes = some r := by
  simp [chosen, allowing, find?_none hexact, h]

/-- Two prefixes of one length are the same text. -/
theorem path_eq_of_prefix {r r' : ProxyRouteConfig} (h : isPrefix id path method r = true)
    (h' : isPrefix id path method r' = true) (hlen : pathLength id r = pathLength id r') :
    r.path = r'.path := by
  have hr : r.path.toList <+: path.toList :=
    List.isPrefixOf_iff_prefix.mp (Bool.and_eq_true_iff.mp h).1
  have hr' : r'.path.toList <+: path.toList :=
    List.isPrefixOf_iff_prefix.mp (Bool.and_eq_true_iff.mp h').1
  obtain hbegins | hbegins := List.prefix_or_prefix_of_prefix hr hr'
  · exact Js.eq_of_prefix hbegins (Nat.le_of_eq hlen.symm)
  · exact (Js.eq_of_prefix hbegins (Nat.le_of_eq hlen)).symm

theorem chosen_prefix (hexact : NoExact routes path method)
    (hpattern : NoPattern engine routes path method) {r : ProxyRouteConfig}
    (h : LongestPrefix routes path method r) :
    ∃ r', chosen id (expressions engine) path method routes = some r' ∧
      LongestPrefix routes path method r' ∧ r'.path = r.path := by
  have hmem : r ∈ routes.filter (isPrefix id path method) := List.mem_filter.mpr ⟨h.1, h.2.1⟩
  obtain ⟨r', hr'⟩ := longestFirst_head_isSome id (List.ne_nil_of_mem hmem)
  obtain ⟨hmem', hlongest⟩ := longestFirst_head id hr'
  obtain ⟨hroute, hbegins⟩ := List.mem_filter.mp hmem'
  refine ⟨r', ?_, ⟨hroute, hbegins, fun c hc hp => hlongest c (List.mem_filter.mpr ⟨hc, hp⟩)⟩, ?_⟩
  · simp [chosen, allowing, find?_none hexact, find?_none hpattern, hr']
  · exact path_eq_of_prefix hbegins h.2.1
      (Nat.le_antisymm (h.2.2 r' hroute hbegins) (hlongest r hmem))

theorem chosen_path (hexact : NoExact routes path method)
    (hpattern : NoPattern engine routes path method) (hbegins : NoPrefix routes path method) :
    chosen id (expressions engine) path method routes =
      routes.find? (isPathOnly id (expressions engine) path) := by
  have hnone : routes.filter (isPrefix id path method) = [] :=
    List.filter_eq_nil_iff.mpr fun r hr => by simp [hbegins r hr]
  simp [chosen, allowing, find?_none hexact, find?_none hpattern, hnone, longestFirst]

/-- What the answer is made from, attempt by attempt. -/
theorem chosen_cases {r : ProxyRouteConfig}
    (h : chosen id (expressions engine) path method routes = some r) :
    isExact id path method r = true ∨
    (NoExact routes path method ∧
      routes.find? (isPattern id (expressions engine) path method) = some r) ∨
    (NoExact routes path method ∧ NoPattern engine routes path method ∧
      LongestPrefix routes path method r) ∨
    (NoExact routes path method ∧ NoPattern engine routes path method ∧
      NoPrefix routes path method ∧
      routes.find? (isPathOnly id (expressions engine) path) = some r) := by
  cases he : routes.find? (isExact id path method) with
  | some r' =>
    obtain rfl : r' = r := by simpa [chosen, allowing, he] using h
    exact .inl (List.find?_some he)
  | none =>
    have hexact : NoExact routes path method := by simpa [NoExact] using he
    cases hp : routes.find? (isPattern id (expressions engine) path method) with
    | some r' =>
      obtain rfl : r' = r := by simpa [chosen, allowing, he, hp] using h
      exact .inr (.inl ⟨hexact, rfl⟩)
    | none =>
      have hpattern : NoPattern engine routes path method := by simpa [NoPattern] using hp
      cases hx : (longestFirst id (routes.filter (isPrefix id path method))).head? with
      | some r' =>
        obtain rfl : r' = r := by simpa [chosen, allowing, he, hp, hx] using h
        obtain ⟨hmem, hlongest⟩ := longestFirst_head id hx
        obtain ⟨hroute, hbegins⟩ := List.mem_filter.mp hmem
        exact .inr (.inr (.inl ⟨hexact, hpattern, hroute, hbegins,
          fun c hc hp => hlongest c (List.mem_filter.mpr ⟨hc, hp⟩)⟩))
      | none =>
        have hbegins : NoPrefix routes path method := by
          intro c hc
          by_contra hne
          have hmem : c ∈ routes.filter (isPrefix id path method) :=
            List.mem_filter.mpr ⟨hc, by simpa using hne⟩
          obtain ⟨b, hb⟩ := longestFirst_head_isSome id (List.ne_nil_of_mem hmem)
          rw [hx] at hb
          cases hb
        rw [chosen_path hexact hpattern hbegins] at h
        exact .inr (.inr (.inr ⟨hexact, hpattern, hbegins, h⟩))

theorem atBoundary_of_expressions {r : ProxyRouteConfig}
    (hirregular : ¬RegularPath r.path → AtBoundary r.path path)
    (h : expressions engine r.path path = true) : AtBoundary r.path path := by
  by_cases hreg : RegularPath r.path
  · exact .inr (.inl ((fits_of_expressions hreg).mp h))
  · exact hirregular hreg

theorem atBoundary_of_separated (h : Separated engine routes path method) {r : ProxyRouteConfig}
    (hr : chosen id (expressions engine) path method routes = some r) : AtBoundary r.path path := by
  obtain hexact | ⟨hexact, hpattern⟩ | ⟨hexact, hpattern, hbegins⟩ |
    ⟨hexact, hpattern, hbegins, hpath⟩ := chosen_cases hr
  · have heq : r.path = path := by simpa [exactly] using (Bool.and_eq_true_iff.mp hexact).1
    exact .inl heq.symm
  · have hfound := List.find?_some hpattern
    exact atBoundary_of_expressions (h.byPattern hexact r hpattern)
      (Bool.and_eq_true_iff.mp hfound).2
  · obtain ⟨hregular, hirregular⟩ := h.byPrefix hexact hpattern r hbegins
    by_cases hreg : RegularPath r.path
    · exact .inr (.inr (hregular hreg))
    · exact hirregular hreg
  · have hfound := List.find?_some hpath
    obtain heq | hfits := Bool.or_eq_true_iff.mp hfound
    · exact .inl (by simpa [exactly, eq_comm] using heq)
    · exact atBoundary_of_expressions (h.byPath hexact hpattern hbegins r hpath) hfits

theorem separated_of_atBoundary
    (h : ∀ r, chosen id (expressions engine) path method routes = some r → AtBoundary r.path path) :
    Separated engine routes path method where
  byPattern hexact r hr _ := h r (chosen_pattern hexact hr)
  byPrefix hexact hpattern r hr := by
    obtain ⟨r', hr', hlongest, heq⟩ := chosen_prefix hexact hpattern hr
    have hboundary : AtBoundary r.path path := heq ▸ h r' hr'
    refine ⟨fun hreg => ?_, fun _ => hboundary⟩
    have hmethod : isMethodMatch method r = true := (Bool.and_eq_true_iff.mp hr.2.1).2
    obtain hpath | hfits | hcontinues := hboundary
    · have hexact' : isExact id path method r = true := by simp [isExact, exactly, hpath, hmethod]
      rw [hexact r hr.1] at hexact'
      cases hexact'
    · have hpattern' : isPattern id (expressions engine) path method r = true := by
        simp [isPattern, hmethod, (fits_of_expressions hreg).mpr hfits]
      rw [hpattern r hr.1] at hpattern'
      cases hpattern'
    · exact hcontinues
  byPath hexact hpattern hbegins r hr _ := h r (by rw [chosen_path hexact hpattern hbegins, hr])

/-- With regular paths the prefix is all there is to say. -/
theorem separated_iff_of_regular (hreg : ∀ r ∈ routes, RegularPath r.path) :
    Separated engine routes path method ↔
      (NoExact routes path method → NoPattern engine routes path method → ∀ r,
        LongestPrefix routes path method r → Continues r.path path) := by
  constructor
  · intro h hexact hpattern r hr
    exact (h.byPrefix hexact hpattern r hr).1 (hreg r hr.1)
  · intro h
    exact {
      byPattern := fun _ r hr hirr => absurd (hreg r (List.mem_of_find?_eq_some hr)) hirr
      byPrefix := fun hexact hpattern r hr =>
        ⟨fun _ => h hexact hpattern r hr, fun hirr => absurd (hreg r hr.1) hirr⟩
      byPath := fun _ _ _ r hr hirr => absurd (hreg r (List.mem_of_find?_eq_some hr)) hirr }

end Chosen

theorem setupRoutes_regular (env config : Env) :
    ∀ r ∈ setupRoutes env config, RegularPath r.path := by
  intro r hr
  obtain ⟨r₀, hr₀, rfl⟩ := mem_setupRoutes.mp hr
  exact allRoutes_regular env r₀ hr₀

/-- Whatever the table, the path and the method: an answer names a route at a segment
boundary exactly when the lookup is not left to a prefix that ends elsewhere. -/
theorem routes_at_boundaries_iff (engine : RegExp.Engine) (routes : List ProxyRouteConfig)
    (path method : String) :
    (∀ found, lookup (expressions engine) routes path method = some found →
      AtBoundary found.matchedPattern (dropSlash path)) ↔
      Separated engine routes (dropSlash path) method := by
  have hchosen := lookup_chosen (expressions engine) routes path method
  constructor
  · intro h
    refine separated_of_atBoundary fun r hr => ?_
    rw [hr, Option.map_some, Option.map_eq_some_iff] at hchosen
    obtain ⟨found, hfound, hpath⟩ := hchosen
    exact hpath ▸ h found hfound
  · intro h found hfound
    rw [hfound, Option.map_some, eq_comm, Option.map_eq_some_iff] at hchosen
    obtain ⟨r, hr, hpath⟩ := hchosen
    exact hpath ▸ atBoundary_of_separated h hr

def Outcome.enqueued : Outcome → Bool
  | .published _ => true
  | _ => false

/-- The path goes on with a letter where a segment should end, and a reward request is
put on the queue. -/
theorem letters_reach_the_queue :
    (lookup (expressions RegExp.Engine.fragmentOnly) (setupRoutes noEnv noEnv)
        "event-requests/rewardsX" "GET").map RouteResult.matchedPattern =
      some "event-requests/rewards" ∧
    ¬AtBoundary "event-requests/rewards" "event-requests/rewardsX" ∧
    (GatewayController.handleRequest (setupRoutes noEnv noEnv)
      (plainRequest "GET" "/event-requests/rewardsX")
      (some ⟨some "u1", some "a@x", some [.USER]⟩) "m1" "t").enqueued = true := by
  refine ⟨?_, ?_, by decide +kernel⟩
  · rw [lookup_expressions _ (setupRoutes_regular noEnv noEnv)]
    decide +kernel
  · rintro (heq | hfits | ⟨rest, -, hrest⟩)
    · exact absurd heq (by decide)
    · have hmatch := (fits_iff (by decide : RegularPath "event-requests/rewards") _).mpr hfits
      exact absurd hmatch (by decide)
    · have hbegins : ("event-requests/rewards".toList ++ ['/']).isPrefixOf
          "event-requests/rewardsX".toList = true := by
        rw [List.isPrefixOf_iff_prefix, hrest]
        exact ⟨rest, by simp⟩
      exact absurd hbegins (by decide)

/-- Where the lookup keeps to the boundaries, a path that is at none is not passed on. -/
theorem unknown_path_refused {engine : RegExp.Engine} {routes : List ProxyRouteConfig}
    (hreg : ∀ r ∈ routes, RegularPath r.path) {req : HttpRequest}
    (hsep : Separated engine routes (dropSlash (GatewayController.routePath req.path)) req.method)
    (hunknown : ∀ r ∈ routes,
      ¬AtBoundary r.path (dropSlash (GatewayController.routePath req.path)))
    (hhealth : startsWith req.path "/health" = false) (user : Option JwtUserDto)
    (uuid timestamp : String) :
    GatewayController.handleRequest routes req user uuid timestamp =
      .refused 404 "Route not found" := by
  have hnone : getRouteConfigForPath routes (GatewayController.routePath req.path) req.method =
      none := by
    cases hfound : getRouteConfigForPath routes (GatewayController.routePath req.path)
        req.method with
    | none => rfl
    | some found =>
      obtain ⟨r, hr, -, hpath, -⟩ := getRouteConfigForPath_some hfound
      rw [← lookup_expressions engine hreg] at hfound
      have hchosen := lookup_chosen (expressions engine) routes
        (GatewayController.routePath req.path) req.method
      rw [hfound, Option.map_some, eq_comm, Option.map_eq_some_iff] at hchosen
      obtain ⟨r', hr', hpath'⟩ := hchosen
      have hboundary := atBoundary_of_separated hsep hr'
      rw [hpath', hpath] at hboundary
      exact absurd hboundary (hunknown r hr)
  simp [GatewayController.handleRequest, hhealth, hnone]

end MsaTuto
