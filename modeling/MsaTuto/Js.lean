import Mathlib.Data.Rat.Defs
import Mathlib.Data.List.Basic

/-! JavaScript values as far as services that exchange JSON compute with them:
member access, truthiness, object literals with spread. -/
namespace Js

inductive Json where
  | null
  | bool (b : Bool)
  | num (q : Rat)
  | str (s : String)
  | arr (xs : List Json)
  | obj (fields : List (String × Json))

/-- A JavaScript value; `none` is `undefined`. -/
abbrev Value := Option Json

abbrev Fields := List (String × Json)

def truthy : Value → Bool
  | none | some .null | some (.bool false) => false
  | some (.num q) => q ≠ 0
  | some (.str s) => s ≠ ""
  | _ => true

def orElse (a b : Value) : Value := if truthy a then a else b

def nullish : Value → Bool
  | none | some .null => true
  | _ => false

/-- Own properties only; none of the names the services read is inherited. -/
def Json.field : Json → String → Value
  | .obj fs, k => fs.lookup k
  | _, _ => none

def optGet (v : Value) (k : String) : Value := v.bind (·.field k)

/-- Member access `v[k]`; `none` is the TypeError raised on `undefined` and `null`. -/
def get (v : Value) (k : String) : Option Value :=
  if nullish v then none else some (optGet v k)

/-- Assignment in an object literal. A field set to `undefined` reads back as a
missing one, and JSON leaves it out, so it is dropped. -/
def setField (fs : Fields) (k : String) (v : Value) : Fields :=
  fs.filter (fun p => p.1 ≠ k) ++ (v.map fun j => (k, j)).toList

def spread (base : Fields) (later : List (String × Value)) : Fields :=
  later.foldl (fun fs p => setField fs p.1 p.2) base

def literal (fields : List (String × Value)) : Json := .obj (spread [] fields)

/-- What `{...v}` copies: the own fields of an object, nothing from a value without any. -/
def ownFields : Value → Fields
  | some (.obj fs) => fs
  | _ => []

def isWhite (c : Char) : Bool :=
  c.toNat ∈ [0x9, 0xA, 0xB, 0xC, 0xD, 0x20, 0xA0, 0x1680, 0x2028, 0x2029, 0x202F, 0x205F,
    0x3000, 0xFEFF] || (0x2000 ≤ c.toNat && c.toNat ≤ 0x200A)

def trim (s : String) : String :=
  String.ofList (((s.toList.dropWhile isWhite).reverse.dropWhile isWhite).reverse)

theorem splitOnP_clean {α : Type*} {p : α → Bool} {s piece : List α} (h : piece ∈ s.splitOnP p) :
    ∀ c ∈ piece, p c = false := by
  induction s generalizing piece with
  | nil =>
    obtain rfl : piece = [] := by simpa using h
    simp
  | cons d s ih =>
    rw [List.splitOnP_cons_eq_if_modifyHead] at h
    cases hd : p d with
    | true =>
      obtain rfl | h : piece = [] ∨ piece ∈ s.splitOnP p := by simpa [hd] using h
      · simp
      · exact ih h
    | false =>
      cases hsplit : s.splitOnP p with
      | nil => simp [hd, hsplit] at h
      | cons first rest =>
        rw [hsplit] at h ih
        obtain rfl | h : piece = d :: first ∨ piece ∈ rest := by simpa [hd] using h
        · simpa [hd] using ih List.mem_cons_self
        · exact ih (List.mem_cons_of_mem _ h)

theorem lookup_cons_other {k k' : String} (h : k' ≠ k) (j : Json) (fs : Fields) :
    ((k, j) :: fs).lookup k' = fs.lookup k' := by
  rw [List.lookup_cons, beq_false_of_ne h]

theorem lookup_filter_ne {k k' : String} (h : k' ≠ k) (fs : Fields) :
    (fs.filter fun p => p.1 ≠ k).lookup k' = fs.lookup k' := by
  induction fs with
  | nil => rfl
  | cons p fs ih =>
    obtain ⟨a, j⟩ := p
    by_cases ha : a = k
    · subst ha
      rw [lookup_cons_other h]
      simpa using ih
    · rw [List.filter_cons_of_pos (by simpa using ha)]
      by_cases hk : k' = a
      · subst hk
        simp
      · rw [lookup_cons_other hk, lookup_cons_other hk, ih]

@[simp] theorem lookup_setField_self (fs : Fields) (k : String) (v : Value) :
    (setField fs k v).lookup k = v := by
  have hnone : (fs.filter fun p => p.1 ≠ k).lookup k = none := by
    rw [List.lookup_eq_none_iff]
    intro p hp
    have hne : p.1 ≠ k := by simpa using (List.mem_filter.mp hp).2
    simpa using hne.symm
  rw [setField, List.lookup_append, hnone]
  cases v <;> simp

theorem lookup_setField_other {k k' : String} (h : k' ≠ k) (fs : Fields) (v : Value) :
    (setField fs k v).lookup k' = fs.lookup k' := by
  rw [setField, List.lookup_append, lookup_filter_ne h]
  cases v with
  | none => simp
  | some j => simp [lookup_cons_other h]

/-- A field after a spread: the last value written to it, if any, else its old one. -/
theorem lookup_spread (base : Fields) (later : List (String × Value)) (k : String) :
    (spread base later).lookup k = (later.reverse.lookup k).getD (base.lookup k) := by
  induction later generalizing base with
  | nil => rfl
  | cons p later ih =>
    obtain ⟨a, v⟩ := p
    calc
      (spread base ((a, v) :: later)).lookup k
          = (later.reverse.lookup k).getD ((setField base a v).lookup k) := ih _
      _ = (((a, v) :: later).reverse.lookup k).getD (base.lookup k) := by
        rw [List.reverse_cons, List.lookup_append]
        cases later.reverse.lookup k with
        | some w => rfl
        | none =>
          by_cases h : k = a
          · subst h
            simp
          · simp [lookup_setField_other h, List.lookup_cons, beq_false_of_ne h]

theorem lookup_spread_of_notMem {later : List (String × Value)} {k : String}
    (h : ∀ p ∈ later, k ≠ p.1) (base : Fields) :
    (spread base later).lookup k = base.lookup k := by
  have hnone : later.reverse.lookup k = none := by
    simpa [List.lookup_eq_none_iff] using h
  rw [lookup_spread, hnone, Option.getD_none]

/-- A field written after the spread does not depend on what was spread. -/
theorem lookup_spread_of_mem {later : List (String × Value)} {k : String}
    (h : k ∈ later.map Prod.fst) (b₁ b₂ : Fields) :
    (spread b₁ later).lookup k = (spread b₂ later).lookup k := by
  have hsome : ∃ v, later.reverse.lookup k = some v := by
    rw [← Option.ne_none_iff_exists', ne_eq, List.lookup_eq_none_iff]
    simpa using h
  obtain ⟨v, hv⟩ := hsome
  rw [lookup_spread, lookup_spread, hv, Option.getD_some, Option.getD_some]

theorem spread_append (base : Fields) (us vs : List (String × Value)) :
    spread base (us ++ vs) = spread (spread base us) vs := by
  simp [spread]

theorem lookup_spread_set (base : Fields) (us vs : List (String × Value)) (k : String)
    (v : Value) (h : ∀ p ∈ vs, k ≠ p.1) :
    (spread base (us ++ (k, v) :: vs)).lookup k = v := by
  rw [spread_append]
  change (spread (setField (spread base us) k v) vs).lookup k = v
  rw [lookup_spread_of_notMem h, lookup_setField_self]

@[simp] theorem field_obj (fs : Fields) (k : String) : (Json.obj fs).field k = fs.lookup k := rfl

@[simp] theorem optGet_some (j : Json) (k : String) : optGet (some j) k = j.field k := rfl

theorem optGet_of_nullish {v : Value} (h : nullish v = true) (k : String) : optGet v k = none := by
  unfold nullish at h
  split at h
  · rfl
  · rfl
  · cases h

@[simp] theorem get_obj (fs : Fields) (k : String) :
    get (some (.obj fs)) k = some (fs.lookup k) := rfl

/-- The conversions of the language the services lean on. Their full rules (number
syntax and number formatting) do not matter to any result and stay open. -/
structure Coercions where
  toNumber : Value → Option Rat
  lessThan : Json → Json → Bool
  plus : Json → Json → Json
  /-- In a template; `none` is a TypeError, as for an object with a `toString` of its own. -/
  toStr : Value → Option String
  toNumber_num : ∀ q, toNumber (some (.num q)) = some q
  lessThan_num : ∀ a b, lessThan (.num a) (.num b) = decide (a < b)
  plus_num : ∀ a b, plus (.num a) (.num b) = .num (a + b)
  toStr_str : ∀ s, toStr (some (.str s)) = some s

/-- Conversions that agree with the language on numbers, plain strings and
booleans, and give up (`NaN`, no digits) on everything else; enough to evaluate. -/
def Coercions.plain : Coercions where
  toNumber
    | some (.num q) => some q
    | some .null | some (.bool false) => some 0
    | some (.bool true) => some 1
    | some (.str s) => s.toInt?.map fun n => (n : Rat)
    | _ => none
  lessThan
    | .num a, .num b => decide (a < b)
    | .str s, .str t => decide (s < t)
    | _, _ => false
  plus
    | .num a, .num b => .num (a + b)
    | .str s, .str t => .str (s ++ t)
    | a, _ => a
  toStr
    | some (.str s) => some s
    | none => some "undefined"
    | some .null => some "null"
    | some (.obj fs) => if (fs.lookup "toString").isSome then none else some "[object Object]"
    | _ => some ""
  toNumber_num _ := rfl
  lessThan_num _ _ := rfl
  plus_num _ _ := rfl
  toStr_str _ := rfl

end Js
