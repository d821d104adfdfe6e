import Mathlib.Data.List.Basic

/-! A fragment of regular expressions: what the text of one says, and how it is matched
with backtracking, longest repetitions first. -/
namespace RegExp

inductive Term where
  | start
  | finish
  | char (c : Char)
  /-- `([^…]+)`, a capture of one or more characters other than those listed. -/
  | group (excluded : List Char)
  deriving DecidableEq, Repr

def admits (excluded : List Char) (c : Char) : Bool := decide (c ∉ excluded)

/-- The captures of all ways to match a prefix of the rest of the input, in the order in
which they are tried. The flag says that nothing of the input lies before. -/
def run : List Term → Bool → List Char → List (List (List Char))
  | [], _, _ => [[]]
  | .start :: ts, first, cs => if first then run ts first cs else []
  | .finish :: ts, first, cs => if cs = [] then run ts first cs else []
  | .char c :: ts, _, cs => if cs.head? = some c then run ts false cs.tail else []
  | .group excluded :: ts, _, cs =>
    (List.range (cs.takeWhile (admits excluded)).length).reverse.flatMap fun n =>
      (run ts false (cs.drop (n + 1))).map (cs.take (n + 1) :: ·)

/-- The captures of the first match, searched for from every position. -/
def exec (ts : List Term) (input : List Char) : Option (List (List Char)) :=
  (List.range (input.length + 1)).findSome? fun n => (run ts (n == 0) (input.drop n)).head?

/-- The characters that mean something else than themselves. -/
def syntaxChars : List Char :=
  ['^', '$', '\\', '.', '*', '+', '?', '(', ')', '[', ']', '{', '}', '|']

/-- What has been read of a term that takes several characters. -/
inductive Reading where
  | body
  | escape
  | group
  | bracket
  | excluding (cs : List Char)
  | escapeIn (cs : List Char)
  | closed (cs : List Char)
  | repeated (cs : List Char)
  | after

def readBody (c : Char) : Option (Reading × List Term) :=
  if c = '\\' then some (.escape, [])
  else if c = '(' then some (.group, [])
  else if c = '^' then some (.body, [.start])
  else if c = '$' then some (.body, [.finish])
  else if c ∈ syntaxChars then none
  else some (.body, [.char c])

/-- An excluded character; one that takes two code units is not in the fragment. -/
def exclude (cs : List Char) (c : Char) : Option (Reading × List Term) :=
  if 0xFFFF < c.toNat then none else some (.excluding (cs ++ [c]), [])

/-- One character more; `none` outside the fragment. Two groups in a row are outside too:
how they share a character of two code units is another matter. -/
def Reading.next : Reading → Char → Option (Reading × List Term)
  | .body, c => readBody c
  | .escape, c => if c.isAlphanum then none else some (.body, [.char c])
  | .group, c => if c = '[' then some (.bracket, []) else none
  | .bracket, c => if c = '^' then some (.excluding [], []) else none
  | .excluding cs, c =>
    if c = '\\' then some (.escapeIn cs, [])
    else if c = ']' then some (.closed cs, [])
    else if c = '-' then none
    else exclude cs c
  | .escapeIn cs, c => if c.isAlphanum then none else exclude cs c
  | .closed cs, c => if c = '+' then some (.repeated cs, []) else none
  | .repeated cs, c => if c = ')' then some (.after, [.group cs]) else none
  | .after, c => if c = '(' then none else readBody c

def parseFrom : Reading → List Char → Option (List Term)
  | .body, [] | .after, [] => some []
  | _, [] => none
  | reading, c :: cs =>
    (reading.next c).bind fun next => (parseFrom next.1 cs).map (next.2 ++ ·)

def parse (source : List Char) : Option (List Term) := parseFrom .body source

/-- An engine that is free in what it makes of expressions outside the fragment. -/
structure Engine where
  exec : String → String → Option (List (Option String))
  fragment : ∀ source ts, parse source.toList = some ts → ∀ input,
    exec source input =
      (RegExp.exec ts input.toList).map fun captures => captures.map (some ∘ String.ofList)

/-- An engine that knows the fragment and nothing else. -/
def Engine.fragmentOnly : Engine where
  exec source input :=
    (parse source.toList).bind fun ts =>
      (RegExp.exec ts input.toList).map fun captures => captures.map (some ∘ String.ofList)
  fragment source ts h input := by rw [h, Option.bind_some]

theorem parseFrom_step {reading reading' : Reading} {c : Char} {ts : List Term}
    (h : reading.next c = some (reading', ts)) (cs : List Char) :
    parseFrom reading (c :: cs) = (parseFrom reading' cs).map (ts ++ ·) := by
  cases reading <;> simp [parseFrom, h]

theorem readBody_char {c : Char} (h : c ∉ syntaxChars) : readBody c = some (.body, [.char c]) := by
  have hc : c ≠ '\\' ∧ c ≠ '(' ∧ c ≠ '^' ∧ c ≠ '$' := by
    refine ⟨?_, ?_, ?_, ?_⟩ <;> rintro rfl <;> exact absurd h (by decide)
  obtain ⟨hescape, hgroup, hstart, hfinish⟩ := hc
  simp only [readBody, hescape, hgroup, hstart, hfinish, h, if_false]

theorem parse_chars {text : List Char} (h : ∀ c ∈ text, c ∉ syntaxChars) (cs : List Char) :
    parseFrom .body (text ++ cs) = (parseFrom .body cs).map (text.map .char ++ ·) := by
  induction text with
  | nil => simp
  | cons c text ih =>
    have hnext : Reading.body.next c = some (.body, [.char c]) :=
      readBody_char (h c List.mem_cons_self)
    rw [List.cons_append, parseFrom_step hnext, ih fun c hc => h c (List.mem_cons_of_mem _ hc),
      Option.map_map]
    rfl

theorem parse_escape {c : Char} (h : c.isAlphanum = false) (cs : List Char) :
    parseFrom .body ('\\' :: c :: cs) = (parseFrom .body cs).map (.char c :: ·) := by
  have hfirst : Reading.body.next '\\' = some (.escape, []) := rfl
  have hnext : Reading.escape.next c = some (.body, [.char c]) := by simp [Reading.next, h]
  rw [parseFrom_step hfirst, parseFrom_step hnext, Option.map_map]
  rfl

/-- What follows a group is read like anything else, unless it is another group. -/
theorem parse_after {c : Char} (h : c ≠ '(') (cs : List Char) :
    parseFrom .after (c :: cs) = parseFrom .body (c :: cs) := by
  simp [parseFrom, Reading.next, h]

theorem parse_group {c : Char} (h : c.isAlphanum = false) (hc : c.toNat ≤ 0xFFFF)
    (cs : List Char) :
    parseFrom .body ('(' :: '[' :: '^' :: '\\' :: c :: ']' :: '+' :: ')' :: cs) =
      (parseFrom .after cs).map (.group [c] :: ·) := by
  have hexclude : (Reading.escapeIn []).next c = some (.excluding [c], []) := by
    simp [Reading.next, exclude, h, Nat.not_lt.mpr hc]
  have hopen : Reading.body.next '(' = some (.group, []) := rfl
  have hbracket : Reading.group.next '[' = some (.bracket, []) := rfl
  have hnot : Reading.bracket.next '^' = some (.excluding [], []) := rfl
  have hescape : (Reading.excluding []).next '\\' = some (.escapeIn [], []) := rfl
  have hclose : (Reading.excluding [c]).next ']' = some (.closed [c], []) := rfl
  have hplus : (Reading.closed [c]).next '+' = some (.repeated [c], []) := rfl
  have hdone : (Reading.repeated [c]).next ')' = some (.after, [.group [c]]) := rfl
  simp only [parseFrom_step hopen, parseFrom_step hbracket, parseFrom_step hnot,
    parseFrom_step hescape, parseFrom_step hexclude, parseFrom_step hclose, parseFrom_step hplus,
    parseFrom_step hdone, Option.map_map]
  rfl

theorem run_chars (text : List Char) (ts : List Term) (first : Bool) (cs : List Char) :
    run (text.map .char ++ ts) first (text ++ cs) = run ts (first && text.isEmpty) cs := by
  induction text generalizing first with
  | nil => simp
  | cons c text ih => simp [run, ih]

theorem run_chars_of_not_prefix {text cs : List Char} (h : ¬text <+: cs) (ts : List Term)
    (first : Bool) : run (text.map .char ++ ts) first cs = [] := by
  induction text generalizing first cs with
  | nil => exact absurd (List.nil_prefix) h
  | cons c text ih =>
    cases cs with
    | nil => simp [run]
    | cons d cs =>
      by_cases hd : d = c
      · subst hd
        simp [run, ih fun hp => h (List.cons_prefix_cons.mpr ⟨rfl, hp⟩)]
      · simp [run, hd]

/-- Where what follows cannot begin with an admitted character, a group takes as many
as there are or fails. -/
theorem run_group {excluded : List Char} {ts : List Term}
    (h : ∀ c cs, admits excluded c = true → run ts false (c :: cs) = []) (first : Bool)
    (cs : List Char) :
    run (.group excluded :: ts) first cs =
      if cs.takeWhile (admits excluded) = [] then []
      else (run ts false (cs.dropWhile (admits excluded))).map
        (cs.takeWhile (admits excluded) :: ·) := by
  have hsplit : cs.takeWhile (admits excluded) ++ cs.dropWhile (admits excluded) = cs :=
    List.takeWhile_append_dropWhile
  have hall : ∀ c ∈ cs.takeWhile (admits excluded), admits excluded c = true := fun c hc =>
    List.all_eq_true.mp (List.all_takeWhile) c hc
  simp only [run]
  generalize cs.takeWhile (admits excluded) = word at *
  generalize cs.dropWhile (admits excluded) = rest at *
  subst hsplit
  cases hlen : word.length with
  | zero => simp [List.length_eq_zero_iff.mp hlen]
  | succ m =>
    have hne : word ≠ [] := by
      rintro rfl
      simp at hlen
    have hshort : ((List.range m).reverse.flatMap fun n =>
        (run ts false ((word ++ rest).drop (n + 1))).map
          ((word ++ rest).take (n + 1) :: ·)) = [] := by
      refine List.flatMap_eq_nil_iff.mpr fun n hn => ?_
      have hn : n < m := by simpa using hn
      have hdrop : (word ++ rest).drop (n + 1) =
          word[n + 1] :: (word ++ rest).drop (n + 2) := by
        rw [List.drop_eq_getElem_cons (by simp; omega), List.getElem_append_left (by omega)]
      rw [hdrop, h _ _ (hall _ (List.getElem_mem _)), List.map_nil]
    rw [List.range_succ, List.reverse_append, List.reverse_singleton, List.singleton_append,
      List.flatMap_cons, hshort, List.append_nil, if_neg hne, ← hlen, List.drop_left,
      List.take_left]

/-- An expression that is bound to the start of the input is tried there only. -/
theorem exec_start (ts : List Term) (input : List Char) :
    exec (.start :: ts) input = (run ts true input).head? := by
  rw [exec, List.range_succ_eq_map, List.findSome?_cons]
  cases h : (run ts true input).head? <;> simp [run, h]

end RegExp
