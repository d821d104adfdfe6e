import MsaTuto.RouteLookup

/-! What the names of the parameters have to do with the choice of a route. -/
namespace MsaTuto
open GatewayService PathMatcher

/-- New names for parameters. -/
structure Renaming where
  new : List Char → List Char
  nonempty : ∀ name, new name ≠ []
  noSlash : ∀ name, '/' ∉ new name
  noColon : ∀ name, ':' ∉ new name

namespace Renaming
variable (ρ : Renaming)

def piece : Piece → List Char
  | .text c => [c]
  | .param name => ':' :: ρ.new name

def chars (pattern : List Char) : List Char := (scan .plain pattern).flatMap ρ.piece

def path (pattern : String) : String := String.ofList (ρ.chars pattern.toList)

def route (r : ProxyRouteConfig) : ProxyRouteConfig := { r with path := ρ.path r.path }

theorem piece_texts (text : List Char) : (text.map Piece.text).flatMap ρ.piece = text := by
  induction text with
  | nil => rfl
  | cons c text ih => simpa [piece] using ih

theorem chars_of_noColon {pattern : List Char} (h : ∀ c ∈ pattern, c ≠ ':') :
    ρ.chars pattern = pattern := by
  have hscan := scan_text h []
  rw [List.append_nil] at hscan
  rw [chars, hscan]
  simpa [scan] using ρ.piece_texts pattern

theorem scan_name_head (read cs : List Char) :
    ∃ name rest, scan (.name read) cs = .param name :: rest := by
  induction cs generalizing read with
  | nil => exact ⟨_, _, rfl⟩
  | cons c cs ih =>
    by_cases hc : c = '/'
    · exact ⟨read, .text '/' :: scan .plain cs, by simp [scan, hc]⟩
    · simpa [scan, hc] using ih (read ++ [c])

/-- A colon stays, whether it declares a parameter or not. -/
theorem chars_colon {before : List Char} (h : ∀ c ∈ before, c ≠ ':') (cs : List Char) :
    ∃ rest, ρ.chars (before ++ ':' :: cs) = before ++ ':' :: rest := by
  have hcolon : ∃ rest, (scan .colon cs).flatMap ρ.piece = ':' :: rest := by
    cases cs with
    | nil => exact ⟨_, rfl⟩
    | cons c cs =>
      by_cases hc : c = '/'
      · exact ⟨'/' :: (scan .plain cs).flatMap ρ.piece, by simp [scan, hc, piece]⟩
      · obtain ⟨name, rest, hscan⟩ := scan_name_head [c] cs
        exact ⟨ρ.new name ++ rest.flatMap ρ.piece, by simp [scan, hc, hscan, piece]⟩
  obtain ⟨rest, hrest⟩ := hcolon
  refine ⟨rest, ?_⟩
  rw [chars, scan_text h, List.flatMap_append, ρ.piece_texts]
  simpa [scan] using hrest

theorem colon_mem_chars {pattern : List Char} (h : ':' ∈ pattern) : ':' ∈ ρ.chars pattern := by
  obtain ⟨before, cs, rfl, hbefore⟩ := List.eq_append_cons_of_mem h
  obtain ⟨rest, hrest⟩ := ρ.chars_colon (fun c hc heq => hbefore (heq ▸ hc)) cs
  simp [hrest]

/-- A text without colons meets a pattern just as it meets the renamed one. -/
theorem chars_prefix_iff {text : List Char} (h : ':' ∉ text) (pattern : List Char) :
    ρ.chars pattern <+: text ↔ pattern <+: text := by
  by_cases hp : ':' ∈ pattern
  · refine iff_of_false (fun hpre => ?_) fun hpre => h (hpre.subset hp)
    exact h (hpre.subset (ρ.colon_mem_chars hp))
  · rw [ρ.chars_of_noColon fun c hc heq => hp (heq ▸ hc)]

theorem chars_eq_iff {text : List Char} (h : ':' ∉ text) (pattern : List Char) :
    ρ.chars pattern = text ↔ pattern = text := by
  by_cases hp : ':' ∈ pattern
  · refine iff_of_false ?_ ?_
    · rintro rfl
      exact h (ρ.colon_mem_chars hp)
    · rintro rfl
      exact h hp
  · rw [ρ.chars_of_noColon fun c hc heq => hp (heq ▸ hc)]

theorem chars_append {before : List Char} (h : ∀ c ∈ before, c ≠ ':') (cs : List Char) :
    ρ.chars (before ++ cs) = before ++ ρ.chars cs := by
  rw [chars, scan_text h, List.flatMap_append, ρ.piece_texts]
  rfl

theorem chars_param {name : List Char} (hne : name ≠ []) (hslash : '/' ∉ name) (cs : List Char) :
    ρ.chars (':' :: (name ++ '/' :: cs)) = ':' :: ρ.new name ++ '/' :: ρ.chars cs := by
  rw [chars, scan_param hne hslash]
  simp [piece, chars]

theorem chars_param_end {name : List Char} (hne : name ≠ []) (hslash : '/' ∉ name) :
    ρ.chars (':' :: name) = ':' :: ρ.new name := by
  rw [chars, scan_param_end hne hslash]
  simp [piece]

/-- The expression of a pattern does not contain the names, whatever the pattern. -/
theorem rendered_chars (pattern : List Char) : rendered (ρ.chars pattern) = rendered pattern := by
  induction hn : pattern.length using Nat.strongRecOn generalizing pattern with
  | _ n ih =>
    by_cases hp : ':' ∈ pattern
    · obtain ⟨before, cs, rfl, hbefore⟩ := List.eq_append_cons_of_mem hp
      have hbefore : ∀ c ∈ before, c ≠ ':' := fun c hc heq => hbefore (heq ▸ hc)
      rw [ρ.chars_append hbefore, rendered_append hbefore, rendered_append hbefore]
      congr 1
      by_cases hcs : '/' ∈ cs
      · obtain ⟨name, tail, rfl, hslash⟩ := List.eq_append_cons_of_mem hcs
        have htail : rendered (ρ.chars tail) = rendered tail := ih tail.length (by
          simp at hn
          omega) tail rfl
        have hold := rendered_param hslash tail
        rw [List.cons_append] at hold
        rw [hold]
        by_cases hne : name = []
        · subst hne
          have hchars : ρ.chars (':' :: ([] ++ '/' :: tail)) =
              ':' :: [] ++ '/' :: ρ.chars tail := by
            simp [chars, scan, piece]
          rw [hchars, rendered_param List.not_mem_nil, htail]
        · rw [ρ.chars_param hne hslash, rendered_param (ρ.noSlash name), htail]
      · by_cases hne : cs = []
        · subst hne
          rfl
        · rw [ρ.chars_param_end hne hcs, rendered_param_end (ρ.nonempty cs) (ρ.noSlash cs),
            rendered_param_end hne hcs]
    · rw [ρ.chars_of_noColon fun c hc heq => hp (heq ▸ hc)]

theorem pathToRegex_path (pattern : String) :
    pathToRegex (ρ.path pattern) = pathToRegex pattern := by
  rw [pathToRegex, pathToRegex, path, String.toList_ofList, ρ.rendered_chars]

theorem expressions_path (engine : RegExp.Engine) (pattern text : String) :
    expressions engine (ρ.path pattern) text = expressions engine pattern text := by
  simp [expressions, PathMatcher.matchPath, ρ.pathToRegex_path]

end Renaming

/-- A route with its place in the table. -/
abbrev Entry := ProxyRouteConfig × Nat

section Order
variable (cfg : Entry → ProxyRouteConfig)

/-- The longer path goes first, of two equally long ones the one that is listed first. -/
def Before (x y : Entry) : Prop :=
  pathLength cfg y < pathLength cfg x ∨ (pathLength cfg x = pathLength cfg y ∧ x.2 ≤ y.2)

theorem Before.refl (x : Entry) : Before cfg x x := .inr ⟨rfl, Nat.le_refl _⟩

variable {cfg}

theorem Before.length_le {x y : Entry} (h : Before cfg x y) :
    pathLength cfg y ≤ pathLength cfg x := by
  obtain h | ⟨h, -⟩ := h <;> omega

theorem Before.place_eq {x y : Entry} (h : Before cfg x y) (h' : Before cfg y x) : x.2 = y.2 := by
  obtain h | ⟨h, hle⟩ := h <;> obtain h' | ⟨h', hle'⟩ := h' <;> omega

theorem orderedInsert_before {x : Entry} {ys : List Entry} (hplace : ∀ y ∈ ys, x.2 ≤ y.2)
    (hsorted : ys.Pairwise (Before cfg)) :
    (ys.orderedInsert (fun a b => pathLength cfg b ≤ pathLength cfg a) x).Pairwise
      (Before cfg) := by
  induction ys with
  | nil => simp
  | cons y ys ih =>
    obtain ⟨hy, hys⟩ := List.pairwise_cons.mp hsorted
    rw [List.orderedInsert_cons]
    by_cases hlen : pathLength cfg y ≤ pathLength cfg x
    · rw [if_pos hlen]
      refine List.pairwise_cons.mpr ⟨fun z hz => ?_, hsorted⟩
      have hxz := hplace z hz
      have hzy : pathLength cfg z ≤ pathLength cfg y := by
        obtain rfl | hz := List.mem_cons.mp hz
        · exact Nat.le_refl _
        · exact (hy z hz).length_le
      unfold Before
      omega
    · rw [if_neg hlen]
      refine List.pairwise_cons.mpr ⟨fun z hz => ?_, ih (fun z hz =>
        hplace z (List.mem_cons_of_mem _ hz)) hys⟩
      obtain rfl | hz := (List.mem_orderedInsert _).mp hz
      · exact .inl (by omega)
      · exact hy z hz

/-- The sort is stable. -/
theorem longestFirst_before {es : List Entry} (h : es.Pairwise fun x y => x.2 < y.2) :
    (longestFirst cfg es).Pairwise (Before cfg) := by
  induction es with
  | nil => exact List.Pairwise.nil
  | cons x es ih =>
    obtain ⟨hx, hes⟩ := List.pairwise_cons.mp h
    refine orderedInsert_before (fun y hy => ?_) (ih hes)
    exact (hx y ((mem_longestFirst cfg).mp hy)).le

end Order

/-- Of the entries that satisfy `p`, the one a sorted table offers first. -/
def First (cfg : Entry → ProxyRouteConfig) (p : Entry → Bool) (es : List Entry) (w : Entry) :
    Prop :=
  w ∈ es ∧ p w = true ∧ ∀ x ∈ es, p x = true → Before cfg w x

section First
variable {cfg : Entry → ProxyRouteConfig} {p : Entry → Bool} {es : List Entry}

theorem first_of_find? (h : es.Pairwise fun x y => x.2 < y.2) {w : Entry}
    (hw : (longestFirst cfg es).find? p = some w) : First cfg p es w := by
  obtain ⟨hp, before, after, hsplit, hbefore⟩ := List.find?_eq_some_iff_append.mp hw
  refine ⟨(mem_longestFirst cfg).mp (List.mem_of_find?_eq_some hw), hp, fun x hx hpx => ?_⟩
  have hsorted : (longestFirst cfg es).Pairwise (Before cfg) := longestFirst_before h
  rw [← mem_longestFirst cfg, hsplit] at hx
  rw [hsplit] at hsorted
  obtain hx | hx := List.mem_append.mp hx
  · exact absurd hpx (by simpa using hbefore x hx)
  · obtain rfl | hx := List.mem_cons.mp hx
    · exact Before.refl cfg x
    · exact List.rel_of_pairwise_cons (List.pairwise_append.mp hsorted).2.1 hx

theorem find?_none_iff :
    (longestFirst cfg es).find? p = none ↔ ∀ e ∈ es, p e = false := by
  simp [List.find?_eq_none, mem_longestFirst]

theorem place_inj (h : es.Pairwise fun x y => x.2 < y.2) {x y : Entry} (hx : x ∈ es)
    (hy : y ∈ es) (heq : x.2 = y.2) : x = y := by
  have hplaces : (es.map Prod.snd).Pairwise (· < ·) := List.pairwise_map.mpr h
  have hnodup : (es.map Prod.snd).Nodup := hplaces.imp Nat.ne_of_lt
  exact List.inj_on_of_nodup_map hnodup hx hy heq

theorem find?_first (h : es.Pairwise fun x y => x.2 < y.2) {w : Entry} :
    (longestFirst cfg es).find? p = some w ↔ First cfg p es w := by
  refine ⟨first_of_find? h, fun hw => ?_⟩
  cases hv : (longestFirst cfg es).find? p with
  | none =>
    have hfalse := List.find?_eq_none.mp hv w ((mem_longestFirst cfg).mpr hw.1)
    exact absurd hw.2.1 hfalse
  | some v =>
    have hfirst := first_of_find? h hv
    have hplace := (hfirst.2.2 w hw.1 hw.2.1).place_eq (hw.2.2 v hfirst.1 hfirst.2.1)
    rw [place_inj h hfirst.1 hw.1 hplace]

end First

section Names
variable (engine : RegExp.Engine) (ρ : Renaming) (routes : List ProxyRouteConfig)
  (path method : String)

/-- The table with its names, and with the new ones. -/
def old : Entry → ProxyRouteConfig := Prod.fst

def renamed : Entry → ProxyRouteConfig := fun e => ρ.route e.1

/-- The entry the gateway selects when its table is set up from these configurations. -/
def selected (cfg : Entry → ProxyRouteConfig) : Option Entry :=
  chosen cfg (expressions engine) (dropSlash path) method (longestFirst cfg routes.zipIdx)

/-- One entry is offered first under the old names and under the new ones. -/
def Agreed (p : Entry → Bool) : Prop :=
  (∃ e ∈ routes.zipIdx, p e = true) →
    ∃ w, First old p routes.zipIdx w ∧ First (renamed ρ) p routes.zipIdx w

/-- Wherever matching expressions decide, one of the routes they belong to is the
longest under both namings, or the first of the longest. -/
structure SameFirst : Prop where
  byPattern : (∀ e ∈ routes.zipIdx, isExact old (dropSlash path) method e = false) →
    Agreed ρ routes (isPattern old (expressions engine) (dropSlash path) method)
  byPath : (∀ e ∈ routes.zipIdx, isExact old (dropSlash path) method e = false) →
    (∀ e ∈ routes.zipIdx, isPattern old (expressions engine) (dropSlash path) method e = false) →
    (∀ e ∈ routes.zipIdx, isPrefix old (dropSlash path) method e = false) →
      Agreed ρ routes (isPathOnly old (expressions engine) (dropSlash path))

theorem zipIdx_places : routes.zipIdx.Pairwise fun x y => x.2 < y.2 := by
  have hplaces : (routes.zipIdx.map Prod.snd).Pairwise (· < ·) := by
    rw [List.zipIdx_map_snd]
    exact List.pairwise_lt_range'
  exact List.pairwise_map.mp hplaces

/-- The selection by places is the lookup in the table that is set up. -/
theorem selected_lookup (f : ProxyRouteConfig → ProxyRouteConfig) :
    (lookup (expressions engine) (sortByPathLength (routes.map f)) path method).map
        RouteResult.matchedPattern =
      (selected engine routes path method (f ∘ Prod.fst)).map fun e => (f e.1).path := by
  have hroutes : routes.map f = routes.zipIdx.map (f ∘ Prod.fst) := by
    rw [← List.map_map, List.zipIdx_map_fst]
  have hsorted : sortByPathLength (routes.map f) =
      (longestFirst (f ∘ Prod.fst) routes.zipIdx).map (f ∘ Prod.fst) := by
    rw [hroutes]
    exact longestFirst_map id (f ∘ Prod.fst) _
  rw [lookup_chosen, hsorted, chosen_map, Option.map_map]
  rfl

variable {ρ routes path method}

theorem find?_eq_iff {p : Entry → Bool} :
    (longestFirst (renamed ρ) routes.zipIdx).find? p = (longestFirst old routes.zipIdx).find? p ↔
      Agreed ρ routes p := by
  have hplaces := zipIdx_places routes
  constructor
  · intro heq hex
    cases hw : (longestFirst old routes.zipIdx).find? p with
    | none =>
      obtain ⟨e, he, hp⟩ := hex
      exact absurd hp (List.find?_eq_none.mp hw e ((mem_longestFirst old).mpr he))
    | some w =>
      rw [hw] at heq
      exact ⟨w, (find?_first hplaces).mp hw, (find?_first hplaces).mp heq⟩
  · intro hagreed
    by_cases hex : ∃ e ∈ routes.zipIdx, p e = true
    · obtain ⟨w, hold, hnew⟩ := hagreed hex
      rw [(find?_first hplaces).mpr hold, (find?_first hplaces).mpr hnew]
    · have hnone : ∀ cfg, (longestFirst cfg routes.zipIdx).find? p = none := fun cfg =>
        List.find?_eq_none.mpr fun e he hp => hex ⟨e, (mem_longestFirst cfg).mp he, hp⟩
      rw [hnone, hnone]

theorem find?_isSome (p : Entry → Bool) :
    ((longestFirst (renamed ρ) routes.zipIdx).find? p).isSome =
      ((longestFirst old routes.zipIdx).find? p).isSome := by
  rw [Bool.eq_iff_iff, List.find?_isSome, List.find?_isSome]
  simp only [mem_longestFirst]

theorem agreed_of_length {p : Entry → Bool}
    (h : ∀ e, p e = true → pathLength (renamed ρ) e = pathLength old e) : Agreed ρ routes p := by
  rintro ⟨e, he, hp⟩
  cases hw : (longestFirst old routes.zipIdx).find? p with
  | none => exact absurd hp (List.find?_eq_none.mp hw e ((mem_longestFirst old).mpr he))
  | some w =>
    have hfirst := (find?_first (zipIdx_places routes)).mp hw
    refine ⟨w, hfirst, hfirst.1, hfirst.2.1, fun x hx hpx => ?_⟩
    have hbefore := hfirst.2.2 x hx hpx
    unfold Before at hbefore ⊢
    rwa [h w hfirst.2.1, h x hpx]

section NoColon
variable (hcolon : ':' ∉ path.toList)
include hcolon

theorem exactly_renamed (e : Entry) : exactly path (renamed ρ e) = exactly path (old e) := by
  have hiff : ρ.path e.1.path = path ↔ e.1.path = path := by
    rw [← String.toList_inj, ← String.toList_inj, Renaming.path, String.toList_ofList]
    exact ρ.chars_eq_iff hcolon _
  exact decide_eq_decide.mpr hiff

theorem isExact_renamed : isExact (renamed ρ) path method = isExact old path method := by
  funext e
  rw [isExact, isExact, exactly_renamed hcolon]
  rfl

theorem isPrefix_renamed : isPrefix (renamed ρ) path method = isPrefix old path method := by
  funext e
  have hbegins : byPrefix path (renamed ρ e) = byPrefix path (old e) := by
    rw [Bool.eq_iff_iff, byPrefix, byPrefix, startsWith, startsWith, List.isPrefixOf_iff_prefix,
      List.isPrefixOf_iff_prefix]
    have hnew : (renamed ρ e).path.toList = ρ.chars e.1.path.toList := String.toList_ofList
    rw [hnew]
    exact ρ.chars_prefix_iff hcolon _
  rw [isPrefix, isPrefix, hbegins]
  rfl

theorem isPathOnly_renamed :
    isPathOnly (renamed ρ) (expressions engine) path =
      isPathOnly old (expressions engine) path := by
  funext e
  have hfits : expressions engine (renamed ρ e).path path = expressions engine (old e).path path :=
    ρ.expressions_path engine _ _
  rw [isPathOnly, isPathOnly, exactly_renamed hcolon, hfits]

/-- A path the request begins with has no colon, so it keeps its length. -/
theorem pathLength_of_prefix {e : Entry} (h : (old e).path.toList <+: path.toList) :
    pathLength (renamed ρ) e = pathLength old e := by
  have hchars : ρ.chars (old e).path.toList = (old e).path.toList :=
    ρ.chars_of_noColon fun c hc heq => hcolon (h.subset (heq ▸ hc))
  have hnew : (renamed ρ e).path.toList = ρ.chars (old e).path.toList := String.toList_ofList
  rw [pathLength, pathLength, Js.utf16Length, Js.utf16Length, hnew, hchars]

end NoColon

theorem isPattern_renamed :
    isPattern (renamed ρ) (expressions engine) path method =
      isPattern old (expressions engine) path method := by
  funext e
  have hfits : expressions engine (renamed ρ e).path path = expressions engine (old e).path path :=
    ρ.expressions_path engine _ _
  rw [isPattern, isPattern, hfits]
  rfl

theorem noColon_dropSlash (h : ':' ∉ path.toList) : ':' ∉ (dropSlash path).toList := by
  unfold dropSlash
  split
  · rw [String.toList_ofList]
    exact fun hc => h (List.mem_of_mem_drop hc)
  · exact h

/-- Two runs of four attempts that agree on the first and the third. -/
theorem attempts_eq_iff {α : Type} {e a a' pre b b' : Option α} (h : a'.isSome = a.isSome) :
    (e.or (a'.or pre)).or b' = (e.or (a.or pre)).or b ↔
      (e = none → a' = a) ∧ (e = none → a = none → pre = none → b' = b) := by
  cases e <;> cases a <;> cases a' <;> cases pre <;> simp_all

/-- On a path without colons the names of the parameters do not matter exactly when the
first of the longest matching routes is the same under both namings. -/
theorem names_irrelevant_iff (engine : RegExp.Engine) (ρ : Renaming)
    (routes : List ProxyRouteConfig) {path : String} (method : String)
    (hcolon : ':' ∉ path.toList) :
    selected engine routes path method (renamed ρ) = selected engine routes path method old ↔
      SameFirst engine ρ routes path method := by
  have hc := noColon_dropSlash hcolon
  have hexact : (longestFirst (renamed ρ) routes.zipIdx).find?
        (isExact old (dropSlash path) method) =
      (longestFirst old routes.zipIdx).find? (isExact old (dropSlash path) method) := by
    refine find?_eq_iff.mpr (agreed_of_length fun e he => pathLength_of_prefix hc ?_)
    have heq : (old e).path = dropSlash path := by
      simpa [exactly] using (Bool.and_eq_true_iff.mp he).1
    simp [heq]
  have hbegins : (longestFirst (renamed ρ) routes.zipIdx).find?
        (isPrefix old (dropSlash path) method) =
      (longestFirst old routes.zipIdx).find? (isPrefix old (dropSlash path) method) := by
    refine find?_eq_iff.mpr (agreed_of_length fun e he => pathLength_of_prefix hc ?_)
    exact List.isPrefixOf_iff_prefix.mp (Bool.and_eq_true_iff.mp he).1
  rw [selected, selected, chosen_longestFirst, chosen_longestFirst, isExact_renamed hc,
    isPrefix_renamed hc, isPathOnly_renamed engine hc, isPattern_renamed engine, hexact, hbegins,
    attempts_eq_iff (find?_isSome _), find?_none_iff, find?_none_iff, find?_none_iff, find?_eq_iff,
    find?_eq_iff]
  exact ⟨fun h => ⟨h.1, h.2⟩, fun h => ⟨h.byPattern, h.byPath⟩⟩

end Names

/-- Every parameter is called `x`. -/
def allX : Renaming := ⟨fun _ => ['x'], by simp, by simp, by simp⟩

def getRoute (path : String) : ProxyRouteConfig :=
  { path := path, methods := ["GET"], targetUrl := none, requireAuth := false }

theorem names_irrelevant_alone :
    selected RegExp.Engine.fragmentOnly [getRoute "events/:id"] "events/e1" "GET" (renamed allX) =
      selected RegExp.Engine.fragmentOnly [getRoute "events/:id"] "events/e1" "GET" old := by
  have hagreed : ∀ p, Agreed allX [getRoute "events/:id"] p := by
    intro p ⟨e, he, hp⟩
    have hfirst : ∀ cfg, First cfg p [getRoute "events/:id"].zipIdx e := by
      intro cfg
      refine ⟨he, hp, fun x hx _ => ?_⟩
      obtain rfl : x = e := (List.mem_singleton.mp hx).trans (List.mem_singleton.mp he).symm
      exact Before.refl cfg x
    exact ⟨e, hfirst old, hfirst (renamed allX)⟩
  exact (names_irrelevant_iff RegExp.Engine.fragmentOnly allX [getRoute "events/:id"] "GET"
    (by decide)).mpr ⟨fun _ => hagreed _, fun _ _ _ => hagreed _⟩

def overlapping : List ProxyRouteConfig :=
  [getRoute "events/list/:id", getRoute "events/:category/:id"]

/-- For its longer name the pattern with two parameters comes before the one with one, which is
selected when all parameters have names of one length. -/
theorem longer_name_is_first :
    (selected RegExp.Engine.fragmentOnly overlapping "events/list/e1" "GET" old).map Prod.snd =
      some 1 ∧
    (selected RegExp.Engine.fragmentOnly overlapping "events/list/e1" "GET"
      (renamed allX)).map Prod.snd = some 0 := by
  decide +kernel

end MsaTuto
