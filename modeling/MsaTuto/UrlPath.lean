import Mathlib.Data.List.TakeWhile

/-! The path of an `http` or `https` URL as the WHATWG parser leaves it: separators,
dot segments, percent-encoding. -/
namespace Url

def isC0OrSpace (c : Char) : Bool := c.toNat ≤ 0x20

def isTabOrNewline (c : Char) : Bool := c.toNat ∈ [0x9, 0xA, 0xD]

/-- What the parser does to its input first: trim both ends, drop tabs and newlines. -/
def clean (s : List Char) : List Char :=
  (((s.dropWhile isC0OrSpace).reverse.dropWhile isC0OrSpace).reverse).filter (!isTabOrNewline ·)

/-- A URL of a special scheme takes a backslash for a slash. -/
def isSeparator (c : Char) : Bool := c = '/' || c = '\\'

def endsPath (c : Char) : Bool := c = '?' || c = '#'

/-- The path percent-encode set, before `^` came to it. -/
def inPathSet (c : Char) : Bool :=
  c.toNat ≤ 0x1F || 0x7E < c.toNat || c ∈ [' ', '"', '#', '<', '>', '?', '`', '{', '}']

def hexDigit (n : Nat) : Char := Char.ofNat (if n < 10 then 0x30 + n else 0x37 + n)

def encodeByte (b : UInt8) : List Char := ['%', hexDigit (b.toNat / 16), hexDigit (b.toNat % 16)]

def encodeChar (c : Char) : List Char :=
  if inPathSet c then (String.utf8EncodeChar c).flatMap encodeByte else [c]

def encode (s : List Char) : List Char := s.flatMap encodeChar

def lower (s : List Char) : List Char := s.map Char.toLower

def isSingleDot (s : List Char) : Bool := lower s ∈ [['.'], ['%', '2', 'e']]

def isDoubleDot (s : List Char) : Bool :=
  lower s ∈ [['.', '.'], ['.', '%', '2', 'e'], ['%', '2', 'e', '.'],
    ['%', '2', 'e', '%', '2', 'e']]

/-- The path state, one segment at a time; only the last one has no separator after it. -/
def resolve : List (List Char) → List (List Char) → List (List Char)
  | path, [] => path
  | path, [s] =>
    if isDoubleDot s then path.dropLast ++ [[]]
    else if isSingleDot s then path ++ [[]]
    else path ++ [s]
  | path, s :: rest =>
    if isDoubleDot s then resolve path.dropLast rest
    else if isSingleDot s then resolve path rest
    else resolve (path ++ [s]) rest

def serialize (path : List (List Char)) : List Char := path.flatMap fun s => '/' :: s

/-- What follows the authority, up to a query or a fragment; the path start state skips
one separator. -/
def pathname (s : List Char) : List Char :=
  let s := s.takeWhile fun c => !endsPath c
  let s := match s with
    | c :: rest => if isSeparator c then rest else s
    | [] => []
  serialize (resolve [] ((s.splitOnP isSeparator).map encode))

structure Parsed where
  authority : List Char
  pathname : List Char
  deriving DecidableEq

def afterScheme (s : List Char) : Option (List Char) :=
  let scheme := lower (s.takeWhile (· ≠ ':'))
  if scheme ∈ [['h', 't', 't', 'p'], ['h', 't', 't', 'p', 's']] then
    some ((s.dropWhile (· ≠ ':')).drop 1)
  else none

/-- `new URL(s)` on the two schemes; `host` is what the host parser accepts. -/
def parse (host : List Char → Bool) (s : List Char) : Option Parsed :=
  (afterScheme (clean s)).bind fun rest =>
    let rest := rest.dropWhile isSeparator
    let authority := rest.takeWhile fun c => !(isSeparator c || endsPath c)
    let after := rest.dropWhile fun c => !(isSeparator c || endsPath c)
    if authority ≠ [] ∧ host authority then some ⟨authority, pathname after⟩ else none

/-- A character the parser leaves where it is, other than the slash. -/
def Plain (c : Char) : Prop := inPathSet c = false ∧ c ≠ '\\'

def NoDots (s : List Char) : Prop :=
  ∀ seg ∈ s.splitOnP isSeparator, isSingleDot seg = false ∧ isDoubleDot seg = false

theorem encode_of_plain {s : List Char} (h : ∀ c ∈ s, inPathSet c = false) : encode s = s := by
  induction s with
  | nil => rfl
  | cons c s ih =>
    have hc : encodeChar c = [c] := by simp [encodeChar, h c (by simp)]
    have hs := ih fun d hd => h d (List.mem_cons_of_mem c hd)
    rw [encode, List.flatMap_cons, hc, ← encode, hs]
    rfl

theorem resolve_of_noDots {segs : List (List Char)}
    (h : ∀ seg ∈ segs, isSingleDot seg = false ∧ isDoubleDot seg = false)
    (path : List (List Char)) : resolve path segs = path ++ segs := by
  induction segs generalizing path with
  | nil => simp [resolve]
  | cons seg segs ih =>
    obtain ⟨hsingle, hdouble⟩ := h seg List.mem_cons_self
    cases segs with
    | nil => simp [resolve, hsingle, hdouble]
    | cons seg' segs =>
      have hrest := ih (fun t ht => h t (List.mem_cons_of_mem seg ht)) (path ++ [seg])
      simp only [resolve, hsingle, hdouble, Bool.false_eq_true, if_false]
      rw [hrest]
      simp

theorem serialize_splitOnP {s : List Char} (h : ∀ c ∈ s, c ≠ '\\') :
    serialize (s.splitOnP isSeparator) = '/' :: s := by
  induction s with
  | nil => rfl
  | cons c s ih =>
    have hs := ih fun d hd => h d (List.mem_cons_of_mem c hd)
    have hc := h c List.mem_cons_self
    rw [List.splitOnP_cons_eq_if_modifyHead]
    by_cases hslash : c = '/'
    · subst hslash
      have hsep : isSeparator '/' = true := rfl
      rw [if_pos hsep, serialize, List.flatMap_cons, ← serialize, hs]
      rfl
    · have hsep : isSeparator c = false := by simp [isSeparator, hslash, hc]
      rw [if_neg (by simp [hsep])]
      cases hsplit : s.splitOnP isSeparator with
      | nil => exact absurd hsplit (List.splitOnP_ne_nil _ _)
      | cons seg segs =>
        rw [hsplit] at hs
        simp only [serialize, List.modifyHead, List.flatMap_cons, List.cons_append] at hs ⊢
        rw [(List.cons_inj_right '/').mp hs]

theorem mem_of_mem_splitOnP {p : Char → Bool} {s seg : List Char} (h : seg ∈ s.splitOnP p)
    {c : Char} (hc : c ∈ seg) : c ∈ s := by
  induction s generalizing seg with
  | nil =>
    rw [List.splitOnP_nil, List.mem_singleton] at h
    rwa [h] at hc
  | cons d s ih =>
    rw [List.splitOnP_cons_eq_if_modifyHead] at h
    split at h
    · obtain rfl | h := List.mem_cons.mp h
      · cases hc
      · exact List.mem_cons_of_mem d (ih h hc)
    · cases hsplit : s.splitOnP p with
      | nil => exact absurd hsplit (List.splitOnP_ne_nil _ _)
      | cons seg' segs =>
        rw [hsplit] at h
        obtain rfl | h := List.mem_cons.mp h
        · obtain rfl | hc := List.mem_cons.mp hc
          · exact List.mem_cons_self
          · exact List.mem_cons_of_mem d (ih (by simp [hsplit]) hc)
        · exact List.mem_cons_of_mem d (ih (by simp [hsplit, h]) hc)

theorem not_endsPath_of_plain {c : Char} (h : Plain c) : endsPath c = false := by
  obtain ⟨hset, -⟩ := h
  by_contra hend
  simp only [endsPath, Bool.not_eq_false, Bool.or_eq_true, decide_eq_true_eq] at hend
  obtain rfl | rfl := hend
  · exact absurd hset (by decide)
  · exact absurd hset (by decide)

/-- A path of plain characters without dot segments is its own pathname. -/
theorem pathname_of_plain {s : List Char} (hplain : ∀ c ∈ s, Plain c) (hdots : NoDots s) :
    pathname ('/' :: s) = '/' :: s := by
  have htake : ('/' :: s).takeWhile (fun c => !endsPath c) = '/' :: s := by
    refine List.takeWhile_eq_self_iff.mpr fun c hc => ?_
    obtain rfl | hc := List.mem_cons.mp hc
    · rfl
    · rw [not_endsPath_of_plain (hplain c hc)]
      rfl
  have hmap : (s.splitOnP isSeparator).map encode = s.splitOnP isSeparator := by
    refine (List.map_congr_left fun seg hseg => ?_).trans (List.map_id _)
    exact encode_of_plain fun c hc => (hplain c (mem_of_mem_splitOnP hseg hc)).1
  have hsep : isSeparator '/' = true := rfl
  simp only [pathname, htake, hsep, if_true, hmap]
  rw [resolve_of_noDots hdots, List.nil_append, serialize_splitOnP fun c hc => (hplain c hc).2]

theorem dropWhile_isC0OrSpace {s : List Char} (h : ∀ c ∈ s, 0x20 < c.toNat) :
    s.dropWhile isC0OrSpace = s := by
  cases s with
  | nil => rfl
  | cons c s =>
    have hc := h c List.mem_cons_self
    exact List.dropWhile_cons_of_neg (by simpa [isC0OrSpace] using hc)

theorem clean_of_visible {s : List Char} (h : ∀ c ∈ s, 0x20 < c.toNat) : clean s = s := by
  have hrev : ∀ c ∈ s.reverse, 0x20 < c.toNat := fun c hc => h c (List.mem_reverse.mp hc)
  rw [clean, dropWhile_isC0OrSpace h, dropWhile_isC0OrSpace hrev, List.reverse_reverse]
  refine List.filter_eq_self.mpr fun c hc => ?_
  have hvisible := h c hc
  simp only [isTabOrNewline, List.mem_cons, List.not_mem_nil, or_false, Bool.not_eq_true',
    decide_eq_false_iff_not]
  omega

theorem visible_of_plain {c : Char} (h : Plain c) : 0x20 < c.toNat := by
  obtain ⟨hset, -⟩ := h
  simp only [inPathSet, Bool.or_eq_false_iff, decide_eq_false_iff_not] at hset
  have hne : c.toNat ≠ 0x20 := fun heq => hset.2 (by
    have hspace : c = ' ' := Char.toNat_inj.mp heq
    simp [hspace])
  omega

/-- Scheme and authority of a URL, without a path. -/
structure Origin (host : List Char → Bool) where
  scheme : List Char
  authority : List Char
  scheme_mem : scheme ∈ [['h', 't', 't', 'p'], ['h', 't', 't', 'p', 's']]
  authority_ne : authority ≠ []
  authority_host : host authority = true
  authority_chars : ∀ c ∈ authority, 0x20 < c.toNat ∧ (isSeparator c || endsPath c) = false

namespace Origin
variable {host : List Char → Bool} (o : Origin host)

def text : List Char := o.scheme ++ ':' :: '/' :: '/' :: o.authority

theorem afterScheme_text (rest : List Char) :
    afterScheme (o.text ++ rest) = some ('/' :: '/' :: (o.authority ++ rest)) := by
  have hmem := o.scheme_mem
  simp only [List.mem_cons, List.not_mem_nil, or_false] at hmem
  obtain h | h := hmem
  · simp [text, h, afterScheme, lower]
  · simp [text, h, afterScheme, lower]

theorem text_visible : ∀ c ∈ o.text, 0x20 < c.toNat := by
  intro c hc
  obtain hc | hc := List.mem_append.mp hc
  · have hmem := o.scheme_mem
    simp only [List.mem_cons, List.not_mem_nil, or_false] at hmem
    have hall : ∀ c ∈ ['h', 't', 't', 'p', 's'], 0x20 < c.toNat := by simp
    obtain h | h := hmem
    · rw [h] at hc
      exact hall c (List.mem_append_left ['s'] hc)
    · rw [h] at hc
      exact hall c hc
  · simp only [List.mem_cons] at hc
    obtain rfl | rfl | rfl | hc := hc
    · decide
    · decide
    · decide
    · exact (o.authority_chars c hc).1

theorem text_getLast : o.text.getLast? ≠ some '/' := by
  have happ : o.text = (o.scheme ++ [':', '/', '/']) ++ o.authority := by simp [text]
  rw [happ, List.getLast?_append, List.getLast?_eq_some_getLast o.authority_ne, Option.some_or]
  intro hlast
  have hmem := List.getLast_mem o.authority_ne
  rw [Option.some.inj hlast] at hmem
  exact absurd (o.authority_chars '/' hmem).2 (by decide)

/-- Behind an origin, a path of plain characters without dot segments is what the server
receives. -/
theorem parse_text {s : List Char} (hplain : ∀ c ∈ s, Plain c) (hdots : NoDots s) :
    parse host (o.text ++ '/' :: s) = some ⟨o.authority, '/' :: s⟩ := by
  have hclean : clean (o.text ++ '/' :: s) = o.text ++ '/' :: s := by
    refine clean_of_visible fun c hc => ?_
    obtain hc | hc := List.mem_append.mp hc
    · exact o.text_visible c hc
    · obtain rfl | hc := List.mem_cons.mp hc
      · decide
      · exact visible_of_plain (hplain c hc)
  have hskip : ('/' :: '/' :: (o.authority ++ '/' :: s)).dropWhile isSeparator =
      o.authority ++ '/' :: s := by
    obtain ⟨c, rest, hcons⟩ := List.exists_cons_of_ne_nil o.authority_ne
    have hc := (o.authority_chars c (by simp [hcons])).2
    rw [Bool.or_eq_false_iff] at hc
    simp [hcons, isSeparator] at hc ⊢
    simp [hc.1]
  have hall : ∀ c ∈ o.authority, (!(isSeparator c || endsPath c)) = true := by
    intro c hc
    rw [(o.authority_chars c hc).2]
    rfl
  rw [parse, hclean, afterScheme_text]
  simp only [Option.bind_some, hskip]
  rw [List.takeWhile_append_of_pos hall, List.dropWhile_append_of_pos hall,
    List.takeWhile_cons_of_neg (by decide), List.dropWhile_cons_of_neg (by decide),
    List.append_nil,
    if_pos ⟨o.authority_ne, o.authority_host⟩, pathname_of_plain hplain hdots]

end Origin

end Url
