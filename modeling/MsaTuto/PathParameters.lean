import MsaTuto.PathMatcher

/-! What a match of a path says about its segments, and how the path comes back from the
parameters. -/
namespace MsaTuto
open Js

namespace PathMatcher

/-- A parameter takes any segment that is not empty, other text only itself. -/
def FitsSegment : List Char → List Char → Prop
  | ':' :: _, seg => seg ≠ []
  | text, seg => seg = text

abbrev Fits : List (List Char) → List (List Char) → Prop := List.Forall₂ FitsSegment

/-- The parameters put back into a segment of the pattern. -/
def fillSegment (params : Fields) : List Char → List Char
  | ':' :: name =>
    match params.lookup (String.ofList name) with
    | some (.str value) => value.toList
    | _ => []
  | text => text

def substitute (params : Fields) (pattern : String) : String :=
  String.ofList (['/'].intercalate ((segments pattern).map (fillSegment params)))

theorem fitsSegment_iff {seg : List Char} (h : Regular seg) (s : List Char) :
    (matchSegment seg s).isSome = true ↔ FitsSegment seg s := by
  cases h with
  | literal htext =>
    have hfits : FitsSegment seg s ↔ s = seg := by
      cases seg with
      | nil => exact Iff.rfl
      | cons c text =>
        have hc : c ≠ ':' := noColon_of_plain htext c List.mem_cons_self
        unfold FitsSegment
        split <;> simp_all
    rw [hfits, matchSegment_literal htext]
    by_cases heq : seg = s <;> simp [heq, eq_comm]
  | param hne =>
    rw [matchSegment_param hne]
    by_cases hs : s = [] <;> simp [hs, FitsSegment]

theorem fits_iff {segs : List (List Char)} (hreg : ∀ seg ∈ segs, Regular seg)
    (ss : List (List Char)) : (matchSegments segs ss).isSome = true ↔ Fits segs ss := by
  induction segs generalizing ss with
  | nil => cases ss <;> simp [matchSegments]
  | cons seg segs ih =>
    cases ss with
    | nil => simp [matchSegments]
    | cons s ss =>
      obtain ⟨hseg, hsegs⟩ := List.forall_mem_cons.mp hreg
      have htail : (matchSegments segs ss).isSome = true ↔ List.Forall₂ FitsSegment segs ss :=
        ih hsegs ss
      rw [Fits, List.forall₂_cons, ← fitsSegment_iff hseg, ← htail]
      cases h : matchSegment seg s <;> simp [matchSegments, h]

/-- What one segment binds: the name it declares, if any, to the segment it meets. -/
theorem matchSegment_binds {seg s : List Char} {params : Params} (h : Regular seg)
    (hm : matchSegment seg s = some params) :
    params = ((segmentName seg).map fun name => (name, String.ofList s)).toList := by
  cases h with
  | literal htext =>
    rw [matchSegment_literal htext] at hm
    rw [segmentName_literal htext]
    by_cases heq : seg = s
    · simpa [heq] using hm.symm
    · simp [heq] at hm
  | param hne =>
    rw [matchSegment_param hne] at hm
    by_cases hs : s = []
    · simp [hs] at hm
    · simpa [hs, segmentName] using hm.symm

theorem matchSegments_nil {ss : List (List Char)} {params : Params}
    (h : matchSegments [] ss = some params) : ss = [] ∧ params = [] := by
  cases ss with
  | nil => exact ⟨rfl, (Option.some.inj h).symm⟩
  | cons s ss => cases h

/-- A match of a pattern is a match of its first segment and of those that follow. -/
theorem matchSegments_cons {seg : List Char} {segs ss : List (List Char)} {params : Params}
    (h : matchSegments (seg :: segs) ss = some params) :
    ∃ s ss' first rest, ss = s :: ss' ∧ matchSegment seg s = some first ∧
      matchSegments segs ss' = some rest ∧ params = first ++ rest := by
  cases ss with
  | nil => cases h
  | cons s ss =>
    obtain ⟨first, hfirst, h⟩ := Option.bind_eq_some_iff.mp h
    obtain ⟨rest, hrest, rfl⟩ := Option.map_eq_some_iff.mp h
    exact ⟨s, ss, first, rest, rfl, hfirst, hrest, rfl⟩

theorem params_names {segs ss : List (List Char)} {params : Params}
    (hreg : ∀ seg ∈ segs, Regular seg) (h : matchSegments segs ss = some params) :
    params.map Prod.fst = segs.filterMap segmentName := by
  induction segs generalizing ss params with
  | nil =>
    obtain ⟨-, rfl⟩ := matchSegments_nil h
    rfl
  | cons seg segs ih =>
    obtain ⟨hseg, hsegs⟩ := List.forall_mem_cons.mp hreg
    obtain ⟨s, ss', first, rest, rfl, hfirst, hrest, rfl⟩ := matchSegments_cons h
    rw [matchSegment_binds hseg hfirst, List.map_append, ih hsegs hrest]
    cases hn : segmentName seg <;> simp [hn]

theorem params_binds {segs ss : List (List Char)} {params : Params}
    (hreg : ∀ seg ∈ segs, Regular seg) (h : matchSegments segs ss = some params) {i : Nat}
    {name : List Char} (hi : segs[i]? = some (':' :: name)) :
    ∃ s, ss[i]? = some s ∧ (String.ofList name, String.ofList s) ∈ params := by
  induction segs generalizing ss params i with
  | nil => simp at hi
  | cons seg segs ih =>
    obtain ⟨hseg, hsegs⟩ := List.forall_mem_cons.mp hreg
    obtain ⟨s, ss', first, rest, rfl, hfirst, hrest, rfl⟩ := matchSegments_cons h
    cases i with
    | zero =>
      obtain rfl : seg = ':' :: name := by simpa using hi
      refine ⟨s, rfl, List.mem_append_left _ ?_⟩
      rw [matchSegment_binds hseg hfirst]
      simp [segmentName]
    | succ i =>
      obtain ⟨s', hs', hmem⟩ := ih hsegs hrest (by simpa using hi)
      exact ⟨s', by simpa using hs', List.mem_append_right _ hmem⟩

/-- The object the parameters are written into. -/
def object (params : Params) : Fields :=
  params.foldl (fun fields p => setParam fields p.1 (some (.str p.2))) []

theorem assign_eq (fields : Fields) (params : Params) :
    assign fields (params.map Prod.fst) (params.map fun p => some p.2) =
      params.foldl (fun fields p => setParam fields p.1 (some (.str p.2))) fields := by
  induction params generalizing fields with
  | nil => rfl
  | cons p params ih => simpa [assign] using ih _

theorem lookup_foldl_other {params : Params} {name : String} (h : name ∉ params.map Prod.fst)
    (fields : Fields) :
    (params.foldl (fun fields p => setParam fields p.1 (some (.str p.2))) fields).lookup name =
      fields.lookup name := by
  induction params generalizing fields with
  | nil => rfl
  | cons p params ih =>
    obtain ⟨hp, hrest⟩ : name ≠ p.1 ∧ name ∉ params.map Prod.fst := by simpa using h
    rw [List.foldl_cons, ih hrest]
    unfold setParam
    by_cases hproto : p.1 = "__proto__"
    · rw [if_pos hproto]
    · rw [if_neg hproto, lookup_setField_other hp]

theorem lookup_object {params : Params} (hnodup : (params.map Prod.fst).Nodup)
    {p : String × String} (hp : p ∈ params) (hproto : p.1 ≠ "__proto__") :
    (object params).lookup p.1 = some (.str p.2) := by
  obtain ⟨before, after, rfl⟩ := List.append_of_mem hp
  have hafter : p.1 ∉ after.map Prod.fst := by
    rw [List.map_append, List.map_cons] at hnodup
    exact (List.nodup_cons.mp (List.nodup_append.mp hnodup).2.1).1
  rw [object, List.foldl_append, List.foldl_cons, lookup_foldl_other hafter, setParam,
    if_neg hproto, lookup_setField_self]

theorem matchPath_object (engine : RegExp.Engine) {pattern : String} (h : RegularPath pattern)
    (path : String) :
    matchPath engine pattern path = (MsaTuto.matchPath pattern path).map object := by
  rw [matchPath_eq engine h]
  cases hm : MsaTuto.matchPath pattern path with
  | none => rfl
  | some params =>
    rw [Option.map_some, Option.map_some, paramNames_eq h, ← params_names h hm, assign_eq]
    rfl

theorem fill_segment {seg s : List Char} {params : Params} {fields : Fields} (h : Regular seg)
    (hm : matchSegment seg s = some params)
    (hfields : ∀ p ∈ params, fields.lookup p.1 = some (.str p.2)) :
    fillSegment fields seg = s := by
  cases h with
  | literal htext =>
    rw [matchSegment_literal htext] at hm
    have heq : seg = s := by
      by_contra hne
      simp [hne] at hm
    subst heq
    cases seg with
    | nil => rfl
    | cons c text =>
      have hc : c ≠ ':' := noColon_of_plain htext c List.mem_cons_self
      unfold fillSegment
      split <;> simp_all
  | param hne =>
    have hbinds := matchSegment_binds (.param hne) hm
    have hlookup := hfields (String.ofList _, String.ofList s) (by
      rw [hbinds]
      exact List.mem_singleton_self _)
    simp only [fillSegment, hlookup, String.toList_ofList]

/-- Filling the pattern with what its segments were bound to gives the path's segments. -/
theorem fill_segments {segs ss : List (List Char)} {params : Params} {fields : Fields}
    (hreg : ∀ seg ∈ segs, Regular seg) (h : matchSegments segs ss = some params)
    (hfields : ∀ p ∈ params, fields.lookup p.1 = some (.str p.2)) :
    segs.map (fillSegment fields) = ss := by
  induction segs generalizing ss params with
  | nil =>
    obtain ⟨rfl, -⟩ := matchSegments_nil h
    rfl
  | cons seg segs ih =>
    obtain ⟨hseg, hsegs⟩ := List.forall_mem_cons.mp hreg
    obtain ⟨s, ss', first, rest, rfl, hfirst, hrest, rfl⟩ := matchSegments_cons h
    have hhead := fill_segment hseg hfirst fun p hp => hfields p (List.mem_append_left _ hp)
    have htail := ih hsegs hrest fun p hp => hfields p (List.mem_append_right _ hp)
    rw [List.map_cons, hhead, htail]

/-- For every pattern whose segments are literal text or one name each, matching is
segment-wise, binds each name to its own segment and can be undone. `__proto__` is left
out: an assignment to it sets no field. -/
theorem matching_is_segmentwise (engine : RegExp.Engine) {pattern : String}
    (hform : RegularPath pattern) (hdistinct : ((segments pattern).filterMap segmentName).Nodup)
    (hproto : "__proto__" ∉ (segments pattern).filterMap segmentName) (path : String) :
    ((matchPath engine pattern path).isSome = true ↔ Fits (segments pattern) (segments path)) ∧
    ∀ params, matchPath engine pattern path = some params →
      (∀ (i : Nat) (name : List Char), (segments pattern)[i]? = some (':' :: name) → ∃ seg,
        (segments path)[i]? = some seg ∧
        params.lookup (String.ofList name) = some (.str (String.ofList seg))) ∧
      substitute params pattern = path := by
  rw [matchPath_object engine hform]
  constructor
  · rw [Option.isSome_map]
    exact fits_iff hform _
  · intro fields hfields
    obtain ⟨params, hm, rfl⟩ := Option.map_eq_some_iff.mp hfields
    have hnames := params_names hform hm
    have hlookup : ∀ p ∈ params, (object params).lookup p.1 = some (.str p.2) := by
      intro p hp
      have hmem : p.1 ∈ (segments pattern).filterMap segmentName := by
        rw [← hnames]
        exact List.mem_map_of_mem hp
      refine lookup_object (by rw [hnames]; exact hdistinct) hp ?_
      rintro heq
      exact hproto (heq ▸ hmem)
    constructor
    · intro i name hi
      obtain ⟨seg, hseg, hmem⟩ := params_binds hform hm hi
      exact ⟨seg, hseg, hlookup _ hmem⟩
    · have hfill := fill_segments hform hm hlookup
      have hjoin : ['/'].intercalate (segments path) = path.toList := List.intercalate_splitOn _
      rw [substitute, hfill, hjoin, String.ofList_toList]

theorem matching_is_segmentwise_roles :
    (matchPath RegExp.Engine.fragmentOnly "users/:id/:role" "users/u1/admin").isSome = true := by
  refine (matching_is_segmentwise _ (by decide) (by decide) (by decide) _).1.mpr ?_
  have hpattern : segments "users/:id/:role" =
      [['u', 's', 'e', 'r', 's'], [':', 'i', 'd'], [':', 'r', 'o', 'l', 'e']] := by decide
  have hpath : segments "users/u1/admin" =
      [['u', 's', 'e', 'r', 's'], ['u', '1'], ['a', 'd', 'm', 'i', 'n']] := by decide
  rw [hpattern, hpath]
  exact .cons rfl (.cons (List.cons_ne_nil _ _) (.cons (List.cons_ne_nil _ _) .nil))

/-- A parameter of that name matches and is bound to nothing. -/
theorem proto_is_not_bound :
    matchPath RegExp.Engine.fragmentOnly ":__proto__" "x" = some [] ∧
      ([] : Fields).lookup "__proto__" = none ∧ substitute [] ":__proto__" = "" := by
  refine ⟨?_, rfl, rfl⟩
  rw [matchPath_object _ (by decide)]
  rfl

/-- Letters, digits, `-` and `_`. -/
def isWord (c : Char) : Bool := c.isAlphanum || c = '-' || c = '_'

theorem isPlain_of_isWord {c : Char} (h : isWord c = true) : isPlain c = true := by
  rw [isPlain_iff]
  refine ⟨fun hc => ?_, ?_, ?_⟩
  · have hnone : RegExp.syntaxChars.all (fun c => !isWord c) = true := by decide
    simpa [h] using List.all_eq_true.mp hnone c hc
  · rintro rfl
    exact absurd h (by decide)
  · rintro rfl
    exact absurd h (by decide)

theorem allRoutes_regular (env : Env) : ∀ r ∈ allRoutes env, RegularPath r.path := by
  have hpaths : ∀ path ∈ (allRoutes env).map ProxyRouteConfig.path, RegularPath path := by
    change ∀ path ∈ (allRoutes fun _ => none).map ProxyRouteConfig.path, RegularPath path
    decide +kernel
  intro r hr
  exact hpaths r.path (List.mem_map_of_mem hr)

end PathMatcher
end MsaTuto
