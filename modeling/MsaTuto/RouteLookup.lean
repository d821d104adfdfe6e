import Mathlib.Data.List.Find
import MsaTuto.PathParameters

/-! The lookup of a route with the regular expressions left to an engine, and what its
four attempts choose from a table that is sorted by length. -/
namespace MsaTuto

namespace GatewayService

/-- What a regular expression decides about a path. -/
abbrev Matcher := String → String → Bool

/-- The expressions of `path-matcher.util.ts`. -/
def expressions (engine : RegExp.Engine) : Matcher := fun pattern path =>
  (PathMatcher.matchPath engine pattern path).isSome

section Lookup
variable {β : Type} (cfg : β → ProxyRouteConfig) (fits : Matcher) (path method : String)

def isExact (b : β) : Bool := exactly path (cfg b) && isMethodMatch method (cfg b)

def isPattern (b : β) : Bool := isMethodMatch method (cfg b) && fits (cfg b).path path

def isPrefix (b : β) : Bool := byPrefix path (cfg b) && isMethodMatch method (cfg b)

def isPathOnly (b : β) : Bool := exactly path (cfg b) || fits (cfg b).path path

def pathLength (b : β) : Nat := Js.utf16Length (cfg b).path

def longestFirst (bs : List β) : List β :=
  bs.insertionSort fun a b => pathLength cfg b ≤ pathLength cfg a

def allowing (bs : List β) : Option β :=
  (bs.find? (isExact cfg path method)).or
    ((bs.find? (isPattern cfg fits path method)).or
      (longestFirst cfg (bs.filter (isPrefix cfg path method))).head?)

/-- The entry the answer is made from. -/
def chosen (bs : List β) : Option β :=
  (allowing cfg fits path method bs).or (bs.find? (isPathOnly cfg fits path))

end Lookup

/-- `getRouteConfigForPath` with the expressions given. -/
def lookup (fits : Matcher) (routes : List ProxyRouteConfig) (path method : String) :
    Option RouteResult :=
  match allowing id fits (dropSlash path) method routes with
  | some r => some ⟨r, r.path⟩
  | none =>
    match routes.filter (isPathOnly id fits (dropSlash path)) with
    | r :: rest => some ⟨notAllowed r (r :: rest), r.path⟩
    | [] => none

theorem lookup_chosen (fits : Matcher) (routes : List ProxyRouteConfig) (path method : String) :
    (lookup fits routes path method).map RouteResult.matchedPattern =
      (chosen id fits (dropSlash path) method routes).map ProxyRouteConfig.path := by
  unfold lookup chosen
  cases allowing id fits (dropSlash path) method routes with
  | some r => rfl
  | none =>
    rw [Option.none_or, ← List.head?_filter]
    cases routes.filter (isPathOnly id fits (dropSlash path)) <;> rfl

/-- Paths and patterns split at the slashes. -/
def segmentwise : Matcher := fun pattern path => (matchPath pattern path).isSome

theorem allowing_segmentwise (routes : List ProxyRouteConfig) (path method : String) :
    allowing id segmentwise path method routes = allowingRoute routes path method := by
  have hexact : routes.find? (isExact id path method) =
      (routes.filter fun r => exactly path r && isMethodMatch method r).head? :=
    (List.head?_filter ..).symm
  have hpattern : routes.find? (isPattern id segmentwise path method) =
      routes.find? fun r => isMethodMatch method r && byPattern path r := rfl
  have hbegins : (longestFirst id (routes.filter (isPrefix id path method))).head? =
      (sortByPathLength
        (routes.filter fun r => byPrefix path r && isMethodMatch method r)).head? := rfl
  rw [allowing, allowingRoute, hexact, hpattern, hbegins]
  cases routes.filter fun r => exactly path r && isMethodMatch method r with
  | cons r rest => rfl
  | nil => cases routes.find? fun r => isMethodMatch method r && byPattern path r <;> rfl

theorem lookup_segmentwise (routes : List ProxyRouteConfig) (path method : String) :
    lookup segmentwise routes path method = getRouteConfigForPath routes path method := by
  have hpaths : routes.filter (isPathOnly id segmentwise (dropSlash path)) =
      pathMatches routes (dropSlash path) := rfl
  rw [lookup, allowing_segmentwise, hpaths]
  rfl

theorem lookup_congr {fits fits' : Matcher} {routes : List ProxyRouteConfig} {path : String}
    (h : ∀ r ∈ routes, fits r.path (dropSlash path) = fits' r.path (dropSlash path))
    (method : String) : lookup fits routes path method = lookup fits' routes path method := by
  have hpattern : routes.find? (isPattern id fits (dropSlash path) method) =
      routes.find? (isPattern id fits' (dropSlash path) method) := by
    refine List.find?_congr fun r hr => ?_
    rw [isPattern, isPattern, id, h r hr]
  have hpaths : routes.filter (isPathOnly id fits (dropSlash path)) =
      routes.filter (isPathOnly id fits' (dropSlash path)) := by
    refine List.filter_congr fun r hr => ?_
    rw [isPathOnly, isPathOnly, id, h r hr]
  rw [lookup, lookup, allowing, allowing, hpattern, hpaths]

theorem expressions_regular (engine : RegExp.Engine) {pattern : String}
    (h : PathMatcher.RegularPath pattern) (path : String) :
    expressions engine pattern path = segmentwise pattern path := by
  rw [expressions, PathMatcher.matchPath_object engine h, Option.isSome_map]
  rfl

/-- On a table of regular paths the lookup that matches segment by segment is the one of
the expressions. -/
theorem lookup_expressions (engine : RegExp.Engine) {routes : List ProxyRouteConfig}
    (h : ∀ r ∈ routes, PathMatcher.RegularPath r.path) (path method : String) :
    lookup (expressions engine) routes path method = getRouteConfigForPath routes path method := by
  rw [← lookup_segmentwise]
  exact lookup_congr (fun r hr => expressions_regular engine (h r hr) _) method

section Longest
variable {β : Type} (cfg : β → ProxyRouteConfig) {bs : List β}

theorem mem_longestFirst {b : β} : b ∈ longestFirst cfg bs ↔ b ∈ bs :=
  (List.perm_insertionSort _ bs).mem_iff

theorem longestFirst_sorted :
    (longestFirst cfg bs).Pairwise fun a b => pathLength cfg b ≤ pathLength cfg a :=
  haveI : Std.Total fun a b : β => pathLength cfg b ≤ pathLength cfg a :=
    ⟨fun _ _ => Nat.le_total _ _⟩
  haveI : IsTrans β fun a b => pathLength cfg b ≤ pathLength cfg a :=
    ⟨fun _ _ _ h h' => Nat.le_trans h' h⟩
  List.pairwise_insertionSort _ bs

theorem longestFirst_head {b : β} (h : (longestFirst cfg bs).head? = some b) :
    b ∈ bs ∧ ∀ c ∈ bs, pathLength cfg c ≤ pathLength cfg b := by
  obtain ⟨rest, hrest⟩ := List.head?_eq_some_iff.mp h
  have hsorted := @longestFirst_sorted β cfg bs
  rw [hrest] at hsorted
  constructor
  · rw [← mem_longestFirst cfg, hrest]
    exact List.mem_cons_self
  · intro c hc
    rw [← mem_longestFirst cfg, hrest] at hc
    obtain rfl | hc := List.mem_cons.mp hc
    · exact Nat.le_refl _
    · exact List.rel_of_pairwise_cons hsorted hc

theorem longestFirst_head_isSome (h : bs ≠ []) : ∃ b, (longestFirst cfg bs).head? = some b := by
  cases hl : longestFirst cfg bs with
  | nil =>
    obtain ⟨b, hb⟩ := List.exists_mem_of_ne_nil bs h
    rw [← mem_longestFirst cfg, hl] at hb
    cases hb
  | cons b rest => exact ⟨b, rfl⟩

/-- On a sorted table the third attempt, too, takes the first that fits. -/
theorem chosen_longestFirst (fits : Matcher) (path method : String) :
    chosen cfg fits path method (longestFirst cfg bs) =
      (((longestFirst cfg bs).find? (isExact cfg path method)).or
        (((longestFirst cfg bs).find? (isPattern cfg fits path method)).or
          ((longestFirst cfg bs).find? (isPrefix cfg path method)))).or
        ((longestFirst cfg bs).find? (isPathOnly cfg fits path)) := by
  have hsorted : ((longestFirst cfg bs).filter (isPrefix cfg path method)).Pairwise
      fun a b => pathLength cfg b ≤ pathLength cfg a := (longestFirst_sorted cfg).filter _
  have hbegins :
      (longestFirst cfg ((longestFirst cfg bs).filter (isPrefix cfg path method))).head? =
        (longestFirst cfg bs).find? (isPrefix cfg path method) := by
    rw [← List.head?_filter]
    exact congrArg List.head? hsorted.insertionSort_eq
  rw [chosen, allowing, hbegins]

end Longest

section Naturality
variable {α β : Type} (cfg : β → ProxyRouteConfig) (g : α → β)

theorem longestFirst_map (bs : List α) :
    longestFirst cfg (bs.map g) = (longestFirst (cfg ∘ g) bs).map g :=
  (List.map_insertionSort _ _ g bs fun _ _ _ _ => Iff.rfl).symm

/-- Only the configurations of the entries count. -/
theorem chosen_map (fits : Matcher) (path method : String) (bs : List α) :
    chosen cfg fits path method (bs.map g) = (chosen (cfg ∘ g) fits path method bs).map g := by
  have hbegins : longestFirst cfg ((bs.map g).filter (isPrefix cfg path method)) =
      (longestFirst (cfg ∘ g) (bs.filter (isPrefix (cfg ∘ g) path method))).map g := by
    rw [List.filter_map, longestFirst_map]
    rfl
  rw [chosen, chosen, allowing, allowing, hbegins, List.find?_map, List.find?_map, List.find?_map,
    List.head?_map, ← Option.map_or, ← Option.map_or, ← Option.map_or]
  rfl

end Naturality

end GatewayService
end MsaTuto
