import Mathlib.Data.List.TakeWhile
import MsaTuto.ProxyRoutes
import MsaTuto.RegExp

/-! `path-matcher.util.ts` as it is written: the text of the regular expression, its
match, and the object of the parameters. -/
namespace MsaTuto
open Js

namespace PathMatcher

/-- What `/:([^\/]+)/g` makes of a text: the characters between its matches, and for
each match what follows the colon. -/
inductive Piece where
  | text (c : Char)
  | param (name : List Char)

inductive Scan where
  | plain
  | colon
  | name (read : List Char)

def scan : Scan → List Char → List Piece
  | .plain, [] => []
  | .plain, c :: cs => if c = ':' then scan .colon cs else .text c :: scan .plain cs
  | .colon, [] => [.text ':']
  | .colon, c :: cs =>
    if c = '/' then .text ':' :: .text '/' :: scan .plain cs else scan (.name [c]) cs
  | .name read, [] => [.param read]
  | .name read, c :: cs =>
    if c = '/' then .param read :: .text '/' :: scan .plain cs else scan (.name (read ++ [c])) cs

/-- `.replace(/\//g, '\\/')`. -/
def escapeSlashes (path : List Char) : List Char :=
  path.flatMap fun c => if c = '/' then ['\\', '/'] else [c]

def Piece.replaced : Piece → List Char
  | .text c => [c]
  | .param _ => ['(', '[', '^', '\\', '/', ']', '+', ')']

def Piece.name? : Piece → Option String
  | .text _ => none
  | .param name => some (String.ofList name)

/-- The text that the two replacements leave, with the end of the expression. -/
def rendered (path : List Char) : List Char :=
  (scan .plain (escapeSlashes path)).flatMap Piece.replaced ++ ['$']

/-- The source of the expression; the second replacement runs over the result of the
first, so a name takes the backslash before the next slash with it. -/
def pathToRegex (path : String) : String :=
  String.ofList ('^' :: rendered path.toList)

def paramNames (pattern : String) : List String :=
  (scan .plain pattern.toList).filterMap Piece.name?

/-- `params[name] = value`. A string assigned to `__proto__` is dropped. -/
def setParam (params : Fields) (name : String) (value : Value) : Fields :=
  if name = "__proto__" then params else setField params name value

def assign : Fields → List String → List (Option String) → Fields
  | params, [], _ => params
  | params, name :: names, values =>
    assign (setParam params name (values.head?.join.map .str)) names values.tail

def matchPath (engine : RegExp.Engine) (pattern path : String) : Option Fields :=
  (engine.exec (pathToRegex pattern) path).map fun values => assign [] (paramNames pattern) values

/-- A character that stands for itself in a pattern. -/
def isPlain (c : Char) : Bool := decide (c ∉ RegExp.syntaxChars ∧ c ≠ ':' ∧ c ≠ '/')

/-- A segment of a pattern: text that stands for itself, or a name behind a colon. -/
inductive Regular : List Char → Prop where
  | literal {text : List Char} : (∀ c ∈ text, isPlain c = true) → Regular text
  | param {name : List Char} : name ≠ [] → Regular (':' :: name)

theorem regular_iff {seg : List Char} :
    Regular seg ↔ seg.all isPlain = true ∨ (seg.head? = some ':' ∧ seg.tail ≠ []) := by
  constructor
  · intro h
    cases h with
    | literal h => exact .inl (List.all_eq_true.mpr h)
    | param h => exact .inr ⟨rfl, h⟩
  · intro h
    obtain h | ⟨hhead, htail⟩ := h
    · exact .literal (List.all_eq_true.mp h)
    · cases seg with
      | nil => cases hhead
      | cons c name =>
        obtain rfl : c = ':' := Option.some.inj hhead
        exact .param htail

instance : DecidablePred Regular := fun _ => decidable_of_iff _ regular_iff.symm

def RegularPath (pattern : String) : Prop := ∀ seg ∈ segments pattern, Regular seg

instance (pattern : String) : Decidable (RegularPath pattern) :=
  inferInstanceAs (Decidable (∀ seg ∈ segments pattern, Regular seg))

theorem scan_text {text : List Char} (h : ∀ c ∈ text, c ≠ ':') (cs : List Char) :
    scan .plain (text ++ cs) = text.map .text ++ scan .plain cs := by
  induction text with
  | nil => rfl
  | cons c text ih =>
    simp [scan, h c List.mem_cons_self, ih fun c hc => h c (List.mem_cons_of_mem _ hc)]

theorem scan_name {name : List Char} (h : '/' ∉ name) (read cs : List Char) :
    scan (.name read) (name ++ '/' :: cs) =
      .param (read ++ name) :: .text '/' :: scan .plain cs := by
  induction name generalizing read with
  | nil => simp [scan]
  | cons c name ih =>
    obtain ⟨hc, hname⟩ : '/' ≠ c ∧ '/' ∉ name := by simpa using h
    simp [scan, hc.symm, ih hname]

theorem scan_name_end {name : List Char} (h : '/' ∉ name) (read : List Char) :
    scan (.name read) name = [.param (read ++ name)] := by
  induction name generalizing read with
  | nil => simp [scan]
  | cons c name ih =>
    obtain ⟨hc, hname⟩ : '/' ≠ c ∧ '/' ∉ name := by simpa using h
    simp [scan, hc.symm, ih hname]

theorem scan_param {name : List Char} (hne : name ≠ []) (h : '/' ∉ name) (cs : List Char) :
    scan .plain (':' :: (name ++ '/' :: cs)) = .param name :: .text '/' :: scan .plain cs := by
  cases name with
  | nil => exact absurd rfl hne
  | cons c name =>
    obtain ⟨hc, hname⟩ : '/' ≠ c ∧ '/' ∉ name := by simpa using h
    simp [scan, hc.symm, scan_name hname]

theorem scan_param_end {name : List Char} (hne : name ≠ []) (h : '/' ∉ name) :
    scan .plain (':' :: name) = [.param name] := by
  cases name with
  | nil => exact absurd rfl hne
  | cons c name =>
    obtain ⟨hc, hname⟩ : '/' ≠ c ∧ '/' ∉ name := by simpa using h
    simp [scan, hc.symm, scan_name_end hname]

theorem escapeSlashes_of_noSlash {s : List Char} (h : '/' ∉ s) : escapeSlashes s = s := by
  induction s with
  | nil => rfl
  | cons c s ih =>
    obtain ⟨hc, hs⟩ : '/' ≠ c ∧ '/' ∉ s := by simpa using h
    have htail : escapeSlashes s = s := ih hs
    simpa [escapeSlashes, hc.symm] using htail

theorem escapeSlashes_append (s t : List Char) :
    escapeSlashes (s ++ '/' :: t) = escapeSlashes s ++ '\\' :: '/' :: escapeSlashes t := by
  simp [escapeSlashes]

/-- The terms a segment stands for. -/
def segmentTerms : List Char → List RegExp.Term
  | ':' :: _ => [.group ['/']]
  | text => text.map .char

def patternTerms : List (List Char) → List RegExp.Term
  | [] => [.finish]
  | [seg] => segmentTerms seg ++ [.finish]
  | seg :: segs => segmentTerms seg ++ .char '/' :: patternTerms segs

theorem isPlain_iff {c : Char} : isPlain c = true ↔ c ∉ RegExp.syntaxChars ∧ c ≠ ':' ∧ c ≠ '/' := by
  simp [isPlain]

section Plain
variable {text : List Char} (h : ∀ c ∈ text, isPlain c = true)
include h

theorem noSyntax_of_plain : ∀ c ∈ text, c ∉ RegExp.syntaxChars :=
  fun c hc => (isPlain_iff.mp (h c hc)).1

theorem noColon_of_plain : ∀ c ∈ text, c ≠ ':' := fun c hc => (isPlain_iff.mp (h c hc)).2.1

end Plain

theorem segmentTerms_literal {text : List Char} (h : ∀ c ∈ text, isPlain c = true) :
    segmentTerms text = text.map .char := by
  cases text with
  | nil => rfl
  | cons c text =>
    have hc : c ≠ ':' := noColon_of_plain h c List.mem_cons_self
    unfold segmentTerms
    split <;> simp_all

theorem replaced_text (text : List Char) : (text.map Piece.text).flatMap Piece.replaced = text := by
  induction text with
  | nil => rfl
  | cons c text ih => simpa [Piece.replaced] using ih

theorem rendered_append {text : List Char} (h : ∀ c ∈ text, c ≠ ':') (path : List Char) :
    rendered (text ++ path) = escapeSlashes text ++ rendered path := by
  have hcolon : ∀ c ∈ escapeSlashes text, c ≠ ':' := by
    intro c hc
    obtain ⟨d, hd, hcd⟩ := List.mem_flatMap.mp hc
    by_cases hslash : d = '/'
    · obtain rfl | rfl : c = '\\' ∨ c = '/' := by simpa [hslash] using hcd
      · decide
      · decide
    · obtain rfl : c = d := by simpa [hslash] using hcd
      exact h c hd
  have hescape : escapeSlashes (text ++ path) = escapeSlashes text ++ escapeSlashes path :=
    List.flatMap_append
  rw [rendered, hescape, scan_text hcolon, List.flatMap_append, replaced_text, List.append_assoc]
  rfl

theorem rendered_literal {text : List Char} (h : ∀ c ∈ text, c ≠ ':') (hslash : '/' ∉ text)
    (path : List Char) : rendered (text ++ '/' :: path) = text ++ '\\' :: '/' :: rendered path := by
  rw [rendered_append h, escapeSlashes_of_noSlash hslash]
  rfl

theorem rendered_literal_end {text : List Char} (h : ∀ c ∈ text, c ≠ ':') (hslash : '/' ∉ text) :
    rendered text = text ++ ['$'] := by
  have hrendered := rendered_append h []
  rwa [List.append_nil, escapeSlashes_of_noSlash hslash] at hrendered

/-- The name takes the backslash with it, so the slash behind it stands unescaped. -/
theorem rendered_param {name : List Char} (hslash : '/' ∉ name) (path : List Char) :
    rendered (':' :: name ++ '/' :: path) =
      '(' :: '[' :: '^' :: '\\' :: '/' :: ']' :: '+' :: ')' :: '/' :: rendered path := by
  have hcolon : '/' ∉ ':' :: name := by simpa using hslash
  have hback : '/' ∉ name ++ ['\\'] := by simpa using hslash
  have hscan : scan .plain (':' :: (name ++ ['\\'] ++ '/' :: escapeSlashes path)) =
      .param (name ++ ['\\']) :: .text '/' :: scan .plain (escapeSlashes path) :=
    scan_param (by simp) hback _
  rw [rendered, escapeSlashes_append, escapeSlashes_of_noSlash hcolon]
  simp only [List.cons_append, List.append_assoc, List.nil_append] at hscan ⊢
  rw [hscan]
  simp [Piece.replaced, rendered]

theorem rendered_param_end {name : List Char} (hne : name ≠ []) (hslash : '/' ∉ name) :
    rendered (':' :: name) = ['(', '[', '^', '\\', '/', ']', '+', ')', '$'] := by
  have hcolon : '/' ∉ ':' :: name := by simpa using hslash
  rw [rendered, escapeSlashes_of_noSlash hcolon, scan_param_end hne hslash]
  rfl

theorem parse_segment {seg : List Char} (h : Regular seg) (hslash : '/' ∉ seg) (path : List Char) :
    RegExp.parse (rendered (seg ++ '/' :: path)) =
      (RegExp.parse (rendered path)).map (segmentTerms seg ++ .char '/' :: ·) := by
  cases h with
  | literal htext =>
    rw [rendered_literal (noColon_of_plain htext) hslash, segmentTerms_literal htext,
      RegExp.parse, RegExp.parse_chars (noSyntax_of_plain htext), RegExp.parse_escape (by decide),
      Option.map_map]
    rfl
  | param hne =>
    rename_i name
    have hname : '/' ∉ name := by simpa using hslash
    have hcs : ∀ c ∈ ['/'], c ∉ RegExp.syntaxChars := by simp [RegExp.syntaxChars]
    have hchar : RegExp.parseFrom .body ('/' :: rendered path) =
        (RegExp.parseFrom .body (rendered path)).map (.char '/' :: ·) :=
      RegExp.parse_chars hcs (rendered path)
    rw [rendered_param hname, RegExp.parse, RegExp.parse_group (by decide) (by decide),
      RegExp.parse_after (by decide), hchar, Option.map_map]
    rfl

theorem parse_segment_end {seg : List Char} (h : Regular seg) (hslash : '/' ∉ seg) :
    RegExp.parse (rendered seg) = some (segmentTerms seg ++ [.finish]) := by
  cases h with
  | literal htext =>
    rw [rendered_literal_end (noColon_of_plain htext) hslash, segmentTerms_literal htext,
      RegExp.parse, RegExp.parse_chars (noSyntax_of_plain htext)]
    rfl
  | param hne =>
    have hname := List.not_mem_of_not_mem_cons hslash
    rw [rendered_param_end hne hname]
    rfl

theorem parse_rendered {segs : List (List Char)} (hne : segs ≠ [])
    (hreg : ∀ seg ∈ segs, Regular seg) (hslash : ∀ seg ∈ segs, '/' ∉ seg) :
    RegExp.parse (rendered (['/'].intercalate segs)) = some (patternTerms segs) := by
  induction segs with
  | nil => exact absurd rfl hne
  | cons seg segs ih =>
    obtain ⟨hseg, hsegs⟩ := List.forall_mem_cons.mp hreg
    obtain ⟨hns, hnss⟩ := List.forall_mem_cons.mp hslash
    cases segs with
    | nil => simpa [patternTerms] using parse_segment_end hseg hns
    | cons seg' segs =>
      have htail := ih (List.cons_ne_nil _ _) hsegs hnss
      rw [List.intercalate_cons_cons, List.append_assoc, List.singleton_append,
        parse_segment hseg hns, htail]
      rfl

theorem noSlash_of_mem_segments {s : String} {seg : List Char} (h : seg ∈ segments s) :
    '/' ∉ seg := by
  rw [segments, List.splitOn_eq_splitOnP] at h
  intro hc
  exact absurd (splitOnP_clean h '/' hc) (by decide)

theorem parse_pathToRegex {pattern : String} (h : RegularPath pattern) :
    RegExp.parse (pathToRegex pattern).toList =
      some (.start :: patternTerms (segments pattern)) := by
  have hjoin : ['/'].intercalate (segments pattern) = pattern.toList := List.intercalate_splitOn _
  have hne : segments pattern ≠ [] := List.splitOn_ne_nil _ _
  have hparse := parse_rendered hne h fun seg hs => noSlash_of_mem_segments hs
  rw [hjoin] at hparse
  have hstart : RegExp.Reading.body.next '^' = some (.body, [.start]) := rfl
  rw [pathToRegex, String.toList_ofList, RegExp.parse, RegExp.parseFrom_step hstart]
  exact congrArg (Option.map _) hparse

theorem paramOf_literal {text : List Char} (h : ∀ c ∈ text, isPlain c = true) :
    paramOf text = none := by
  have hdrop : text.dropWhile (· ≠ ':') = [] := by
    rw [List.dropWhile_eq_nil_iff]
    intro c hc
    simpa using noColon_of_plain h c hc
  rw [paramOf, hdrop]
  rfl

theorem paramOf_param {name : List Char} (h : name ≠ []) :
    paramOf (':' :: name) = some ([], String.ofList name) := by
  cases name with
  | nil => exact absurd rfl h
  | cons c name => rfl

theorem matchSegment_literal {text : List Char} (h : ∀ c ∈ text, isPlain c = true)
    (word : List Char) : matchSegment text word = if text = word then some [] else none := by
  rw [matchSegment, paramOf_literal h]

theorem matchSegment_param {name : List Char} (h : name ≠ []) (word : List Char) :
    matchSegment (':' :: name) word =
      if word = [] then none else some [(String.ofList name, String.ofList word)] := by
  rw [matchSegment, paramOf_param h]
  cases word <;> simp

/-- The captures of parameters. -/
def captures (params : Params) : List (List Char) := params.map fun p => p.2.toList

section Run
variable {ts : List RegExp.Term} {word tail : List Char}

theorem prefix_of_noSlash {text : List Char} (htext : '/' ∉ text)
    (htail : tail = [] ∨ ∃ rest, tail = '/' :: rest) (h : text <+: word ++ tail) :
    text <+: word := by
  obtain hbegins | ⟨more, rfl⟩ := List.prefix_or_prefix_of_prefix h (List.prefix_append word tail)
  · exact hbegins
  · rw [List.prefix_append_right_inj] at h
    cases more with
    | nil => simp
    | cons c more =>
      obtain rfl | ⟨rest, rfl⟩ := htail
      · simp at h
      · obtain ⟨rfl, -⟩ := List.cons_prefix_cons.mp h
        simp at htext

theorem run_segment {seg : List Char} (hreg : Regular seg) (hslash : '/' ∉ seg)
    (hts : ∀ c cs b, c ≠ '/' → RegExp.run ts b (c :: cs) = [])
    (hflag : ∀ b, RegExp.run ts b tail = RegExp.run ts false tail)
    (hword : '/' ∉ word) (htail : tail = [] ∨ ∃ rest, tail = '/' :: rest) (first : Bool) :
    RegExp.run (segmentTerms seg ++ ts) first (word ++ tail) =
      (matchSegment seg word).elim [] fun params =>
        (RegExp.run ts false tail).map (captures params ++ ·) := by
  cases hreg with
  | literal htext =>
    rw [segmentTerms_literal htext, matchSegment_literal htext]
    by_cases heq : seg = word
    · subst heq
      rw [RegExp.run_chars, hflag, if_pos rfl]
      simp [captures]
    · rw [if_neg heq]
      by_cases hp : seg <+: word ++ tail
      · -- the segment goes on behind the literal, where a slash or the end is due
        obtain ⟨more, rfl⟩ := prefix_of_noSlash hslash htail hp
        cases more with
        | nil => simp at heq
        | cons c more =>
          have hc : c ≠ '/' := by
            rintro rfl
            simp at hword
          rw [List.append_assoc, RegExp.run_chars, List.cons_append, hts _ _ _ hc]
          rfl
      · rw [RegExp.run_chars_of_not_prefix hp]
        rfl
  | param hne =>
    have hadmits : ∀ c, RegExp.admits ['/'] c = true ↔ c ≠ '/' := by simp [RegExp.admits]
    have hall : ∀ c ∈ word, RegExp.admits ['/'] c = true := by
      intro c hc
      rw [hadmits]
      rintro rfl
      exact hword hc
    have htake : (word ++ tail).takeWhile (RegExp.admits ['/']) = word := by
      rw [List.takeWhile_append_of_pos hall]
      obtain rfl | ⟨rest, rfl⟩ := htail <;> simp [RegExp.admits]
    have hdrop : (word ++ tail).dropWhile (RegExp.admits ['/']) = tail := by
      rw [List.dropWhile_append_of_pos hall]
      obtain rfl | ⟨rest, rfl⟩ := htail <;> simp [RegExp.admits]
    rw [matchSegment_param hne]
    change RegExp.run (.group ['/'] :: ts) first (word ++ tail) = _
    rw [RegExp.run_group (fun c cs hc => hts c cs false ((hadmits c).mp hc)), htake, hdrop]
    by_cases hempty : word = [] <;> simp [hempty, captures]

section Segment
variable {seg : List Char} (hreg : Regular seg) (hslash : '/' ∉ seg) (hword : '/' ∉ word)
include hreg hslash hword

theorem run_last (htail : tail = [] ∨ ∃ rest, tail = '/' :: rest) (first : Bool) :
    RegExp.run (segmentTerms seg ++ [.finish]) first (word ++ tail) =
      (matchSegment seg word).elim [] fun params =>
        if tail = [] then [captures params] else [] := by
  rw [run_segment hreg hslash (fun c cs b _ => rfl) (fun b => rfl) hword htail first]
  by_cases hempty : tail = [] <;> simp [RegExp.run, hempty]

theorem run_to_slash (ts : List RegExp.Term) (rest : List Char) (first : Bool) :
    RegExp.run (segmentTerms seg ++ .char '/' :: ts) first (word ++ '/' :: rest) =
      (matchSegment seg word).elim [] fun params =>
        (RegExp.run ts false rest).map (captures params ++ ·) := by
  rw [run_segment hreg hslash (fun c cs b hc => by simp [RegExp.run, hc]) (fun b => rfl) hword
    (.inr ⟨rest, rfl⟩) first]
  simp [RegExp.run]

theorem run_without_slash (ts : List RegExp.Term) (first : Bool) :
    RegExp.run (segmentTerms seg ++ .char '/' :: ts) first word = [] := by
  have hrun : RegExp.run (segmentTerms seg ++ .char '/' :: ts) first (word ++ []) = _ :=
    run_segment hreg hslash (fun c cs b hc => by simp [RegExp.run, hc]) (fun b => rfl) hword
      (.inl rfl) first
  rw [List.append_nil] at hrun
  rw [hrun]
  cases matchSegment seg word <;> simp [RegExp.run]

end Segment

theorem patternTerms_cons (seg seg' : List Char) (segs : List (List Char)) :
    patternTerms (seg :: seg' :: segs) =
      segmentTerms seg ++ .char '/' :: patternTerms (seg' :: segs) := rfl

/-- Matching from left to right agrees with splitting both sides at the slashes. -/
theorem run_pattern {segs : List (List Char)} (hne : segs ≠ [])
    (hreg : ∀ seg ∈ segs, Regular seg) (hslash : ∀ seg ∈ segs, '/' ∉ seg) (first : Bool)
    (input : List Char) :
    RegExp.run (patternTerms segs) first input =
      ((matchSegments segs (input.splitOn '/')).map captures).toList := by
  induction segs generalizing first input with
  | nil => exact absurd rfl hne
  | cons seg segs ih =>
    obtain ⟨hseg, hsegs⟩ := List.forall_mem_cons.mp hreg
    obtain ⟨hns, hnss⟩ := List.forall_mem_cons.mp hslash
    by_cases hinput : '/' ∈ input
    · obtain ⟨word, rest, rfl, hword⟩ := List.eq_append_cons_of_mem hinput
      rw [List.splitOn_append_cons_self_of_not_mem hword]
      cases segs with
      | nil =>
        rw [patternTerms, run_last hseg hns hword (.inr ⟨rest, rfl⟩)]
        cases hm : matchSegment seg word <;> simp [matchSegments, hm]
      | cons seg' segs =>
        have htail := ih (List.cons_ne_nil _ _) hsegs hnss false rest
        rw [patternTerms_cons, run_to_slash hseg hns hword, htail]
        cases hm : matchSegment seg word with
        | none => simp [matchSegments, hm]
        | some params =>
          cases hms : matchSegments (seg' :: segs) (rest.splitOn '/') <;>
            simp [matchSegments, hm, hms, captures]
    · rw [List.splitOn_eq_singleton hinput]
      cases segs with
      | nil =>
        have hlast := run_last hseg hns hinput (.inl rfl) first
        rw [List.append_nil] at hlast
        rw [patternTerms, hlast]
        cases hm : matchSegment seg input <;> simp [matchSegments, hm]
      | cons seg' segs =>
        rw [patternTerms_cons, run_without_slash hseg hns hinput]
        cases hm : matchSegment seg input <;> simp [matchSegments, hm]

end Run

/-- On a regular pattern the expression finds what the segments fit, and its captures
are the values of the parameters in their order. -/
theorem exec_pathToRegex (engine : RegExp.Engine) {pattern : String} (h : RegularPath pattern)
    (path : String) :
    engine.exec (pathToRegex pattern) path =
      (MsaTuto.matchPath pattern path).map fun params => params.map fun p => some p.2 := by
  have hne : segments pattern ≠ [] := List.splitOn_ne_nil _ _
  have hrun := run_pattern hne h (fun seg hs => noSlash_of_mem_segments hs) true path.toList
  rw [engine.fragment _ _ (parse_pathToRegex h), RegExp.exec_start, hrun]
  change _ = (matchSegments (segments pattern) (path.toList.splitOn '/')).map _
  cases matchSegments (segments pattern) (path.toList.splitOn '/') <;>
    simp [captures, Function.comp_def]

theorem matchPath_eq (engine : RegExp.Engine) {pattern : String} (h : RegularPath pattern)
    (path : String) :
    matchPath engine pattern path = (MsaTuto.matchPath pattern path).map fun params =>
      assign [] (paramNames pattern) (params.map fun p => some p.2) := by
  rw [matchPath, exec_pathToRegex engine h, Option.map_map]
  rfl

/-- The name a segment of a pattern declares. -/
def segmentName : List Char → Option String
  | ':' :: name => some (String.ofList name)
  | _ => none

theorem segmentName_literal {text : List Char} (h : ∀ c ∈ text, isPlain c = true) :
    segmentName text = none := by
  cases text with
  | nil => rfl
  | cons c text =>
    have hc : c ≠ ':' := noColon_of_plain h c List.mem_cons_self
    unfold segmentName
    split <;> simp_all

theorem names_segment {seg : List Char} (h : Regular seg) (hslash : '/' ∉ seg) (path : List Char) :
    (scan .plain (seg ++ '/' :: path)).filterMap Piece.name? =
      (segmentName seg).toList ++ (scan .plain path).filterMap Piece.name? := by
  cases h with
  | literal htext =>
    rw [scan_text (noColon_of_plain htext), segmentName_literal htext]
    simp [scan, Piece.name?, List.filterMap_append, List.filterMap_map, List.filterMap_cons,
      Function.comp_def]
  | param hne =>
    rw [List.cons_append, scan_param hne (List.not_mem_of_not_mem_cons hslash)]
    rfl

theorem names_segment_end {seg : List Char} (h : Regular seg) (hslash : '/' ∉ seg) :
    (scan .plain seg).filterMap Piece.name? = (segmentName seg).toList := by
  cases h with
  | literal htext =>
    have hscan := scan_text (noColon_of_plain htext) []
    rw [List.append_nil] at hscan
    rw [hscan, segmentName_literal htext]
    simp [scan, Piece.name?, List.filterMap_map, Function.comp_def]
  | param hne =>
    rw [scan_param_end hne (List.not_mem_of_not_mem_cons hslash)]
    rfl

theorem names_intercalate {segs : List (List Char)} (hne : segs ≠ [])
    (hreg : ∀ seg ∈ segs, Regular seg) (hslash : ∀ seg ∈ segs, '/' ∉ seg) :
    (scan .plain (['/'].intercalate segs)).filterMap Piece.name? = segs.filterMap segmentName := by
  induction segs with
  | nil => exact absurd rfl hne
  | cons seg segs ih =>
    obtain ⟨hseg, hsegs⟩ := List.forall_mem_cons.mp hreg
    obtain ⟨hns, hnss⟩ := List.forall_mem_cons.mp hslash
    cases segs with
    | nil =>
      rw [List.intercalate_singleton, names_segment_end hseg hns]
      cases h : segmentName seg <;> simp [h]
    | cons seg' segs =>
      have htail := ih (List.cons_ne_nil _ _) hsegs hnss
      rw [List.intercalate_cons_cons, List.append_assoc, List.singleton_append,
        names_segment hseg hns, htail]
      cases h : segmentName seg <;> simp [List.filterMap_cons, h]

/-- Names are collected from the pattern itself, yet they are those of its segments. -/
theorem paramNames_eq {pattern : String} (h : RegularPath pattern) :
    paramNames pattern = (segments pattern).filterMap segmentName := by
  have hjoin : ['/'].intercalate (segments pattern) = pattern.toList := List.intercalate_splitOn _
  have hne : segments pattern ≠ [] := List.splitOn_ne_nil _ _
  have hnames := names_intercalate hne h fun seg hs => noSlash_of_mem_segments hs
  rwa [hjoin] at hnames

end PathMatcher
end MsaTuto
