import MsaTuto.Js

/-! Documents that Mongoose makes of plain objects: casts, defaults, validators, and the dotted keys
that reach inside a field. Independent namespace: nothing here knows a schema of the services. -/
namespace Mongoose
open Js

/-- Conversions whose number, date and id formats stay open, each of a value that is not `null`;
`none` is a CastError. -/
structure Casts where
  /-- The text of a value that is no string. -/
  string : Json → Option String
  /-- The number of a value that is none. -/
  number : Json → Option Rat
  date : Json → Option Int
  objectId : Json → Option String
  /-- `value.path = v` for a value without a schema; `none` when the assignment throws. -/
  assign : Value → String → Json → Option Json

section Cast
variable (c : Casts)

def castString : Json → Option Json
  | .null => some .null
  | .str s => some (.str s)
  | v => (c.string v).map .str

def castNumber : Json → Option Json
  | .null | .str "" => some .null
  | .num q => some (.num q)
  | v => (c.number v).map .num

def castBoolean : Json → Option Json
  | .null => some .null
  | .bool b => some (.bool b)
  | .num q => if q = 1 then some (.bool true) else if q = 0 then some (.bool false) else none
  | .str s =>
    if s ∈ ["true", "1", "yes"] then some (.bool true)
    else if s ∈ ["false", "0", "no"] then some (.bool false) else none
  | _ => none

theorem castBoolean_truthy {v b : Json} (h : castBoolean v = some b) :
    truthy (some b) = true ↔ b = .bool true := by
  have hcases : b = .null ∨ b = .bool true ∨ b = .bool false := by
    unfold castBoolean at h
    split at h
    · exact .inl (Option.some.inj h).symm
    next flag =>
      cases h
      cases flag <;> simp
    next q =>
      split at h
      · exact .inr (.inl (Option.some.inj h).symm)
      · split at h
        · exact .inr (.inr (Option.some.inj h).symm)
        · cases h
    next s =>
      split at h
      · exact .inr (.inl (Option.some.inj h).symm)
      · split at h
        · exact .inr (.inr (Option.some.inj h).symm)
        · cases h
    next => cases h
  rcases hcases with rfl | rfl | rfl <;> simp [truthy]

def castDate : Json → Option Json
  | .null | .str "" => some .null
  | v => (c.date v).map fun ms => .num ms

def castObjectId : Json → Option Json
  | .null => some .null
  | v => (c.objectId v).map .str

/-- `required: true`, on a string and on anything else. -/
def filled : Value → Bool
  | none | some .null | some (.str "") => false
  | _ => true

def given (v : Value) : Bool := !nullish v

/-- `enum`, which leaves a missing value alone. -/
def oneOf (values : List String) : Value → Bool
  | none | some .null => true
  | some (.str s) => decide (s ∈ values)
  | _ => false

end Cast

/-- What the part of a key behind the name of a field can reach. -/
inductive Inside where
  | nothing
  /-- The elements of an array, each with the cast and the validators of its type. -/
  | elements (cast : Json → Option Json)
  | anything

structure SchemaField where
  key : String
  cast : Json → Option Json
  default : Value := none
  inside : Inside := .nothing
  valid : Value → Bool := fun _ => true
  /-- What a save puts in for a missing value or `null`. -/
  fresh : Value := none

def keyInside (path key : String) : Option String :=
  (List.isPrefixOf? (path.toList ++ ['.']) key.toList).map String.ofList

def isDigits (s : String) : Bool := s ≠ "" && s.toList.all Char.isDigit

/-- The index that a property name of an array stands for, if it is one. -/
def arrayIndex (s : String) : Option Nat :=
  if isDigits s && (s = "0" || s.toList.head? ≠ some '0') then
    let n := s.toList.foldl (fun n d => 10 * n + (d.toNat - 48)) 0
    if n < 4294967295 then some n else none
  else none

/-- `xs[i] = v`; holes are stored as `null`. -/
def setElement (xs : List Json) (i : Nat) (v : Json) : List Json :=
  if i < xs.length then xs.set i v else xs ++ List.replicate (i - xs.length) .null ++ [v]

namespace SchemaField
variable (c : Casts) (field : SchemaField)

/-- The keys of the object that are inside the field, without its name. -/
def innerKeys (obj : Fields) : List (String × Json) :=
  obj.filterMap fun p => (keyInside field.key p.1).map fun rest => (rest, p.2)

def setInside (value : Value) (p : String × Json) : Option Value :=
  match field.inside with
  | .nothing => some value
  | .anything => (c.assign value p.1 p.2).map some
  | .elements cast =>
    if isDigits p.1 then
      (cast p.2).map fun v =>
        match value, arrayIndex p.1 with
        | some (.arr xs), some i => some (.arr (setElement xs i v))
        | value, _ => value
    else some value

def fill (value : Value) : List (String × Json) → Option Value
  | [] => some value
  | p :: ps => (field.setInside c value p).bind fun value => fill value ps

/-- The value a document starts with, before the keys inside the field are set. -/
def start (obj : Fields) : Option Value :=
  match obj.lookup field.key with
  | some v => (field.cast v).map some
  | none => some field.default

def settle (value : Value) : Option Value :=
  if field.valid value then some (if nullish value then field.fresh.or value else value)
  else none

/-- What is stored of a field; `none` is an error. -/
def stored (obj : Fields) : Option Value :=
  (field.start obj).bind fun value =>
    (field.fill c value (field.innerKeys obj)).bind field.settle

end SchemaField

/-- The `_id` that Mongoose adds to a schema. -/
def idField (c : Casts) (newId : String) : SchemaField :=
  { key := "_id", cast := castObjectId c, fresh := some (.str newId) }

/-- The document that `new this.model(obj)` saves: the fields its schema knows. -/
def document (c : Casts) (obj : Fields) : List SchemaField → Option (List Value)
  | [] => some []
  | field :: schema =>
    match field.stored c obj, document c obj schema with
    | some v, some vs => some (v :: vs)
    | _, _ => none

/-- `timestamps: true`: what the object says of the two times has to be a date. -/
def stampable (c : Casts) (obj : Fields) : Bool :=
  ["createdAt", "updatedAt"].all fun key =>
    (obj.lookup key).all fun v => (castDate c v).isSome

/-- A new document keeps the time of creation it is given; its `updatedAt` is always the same. -/
def createdAt (c : Casts) (now : Json) (obj : Fields) : Json :=
  match (obj.lookup "createdAt").bind (castDate c) with
  | none | some .null => now
  | some v => v

/-- A text field as it is read; `null` and a missing value are the same. -/
def storedText : Value → Option String
  | some (.str s) => some s
  | _ => none

def storedTime : Value → Option Int
  | some (.num ms) => some ms.floor
  | _ => none

section Inside
variable {c : Casts} {field : SchemaField} {obj obj' : Fields}

theorem innerKeys_setField {k : String} (h : keyInside field.key k = none) (fs : Fields)
    (v : Value) : field.innerKeys (setField fs k v) = field.innerKeys fs := by
  have hnew : field.innerKeys (v.map fun j => (k, j)).toList = [] := by
    cases v with
    | none => rfl
    | some j => simp [SchemaField.innerKeys, h]
  have hold : field.innerKeys (fs.filter fun p => p.1 ≠ k) = field.innerKeys fs := by
    rw [SchemaField.innerKeys, List.filterMap_filter]
    refine List.filterMap_congr fun p _ => ?_
    by_cases hp : p.1 = k
    · simp [hp, h]
    · simp [hp]
  calc
    field.innerKeys (setField fs k v)
        = field.innerKeys (fs.filter fun p => p.1 ≠ k) ++
          field.innerKeys (v.map fun j => (k, j)).toList := List.filterMap_append
    _ = field.innerKeys fs := by rw [hnew, hold, List.append_nil]

theorem innerKeys_spread {later : List (String × Value)}
    (h : ∀ k ∈ later.map Prod.fst, keyInside field.key k = none) (base : Fields) :
    field.innerKeys (spread base later) = field.innerKeys base := by
  induction later generalizing base with
  | nil => rfl
  | cons p later ih =>
    have hrest := ih (fun k hk => h k (List.mem_cons_of_mem p.1 hk)) (setField base p.1 p.2)
    exact hrest.trans (innerKeys_setField (h p.1 List.mem_cons_self) base p.2)

/-- What every key inside the field keeps of its value, all of them keep. -/
theorem fill_rule {P : Value → Prop} {keys : List (String × Json)}
    (hstep : ∀ p ∈ keys, ∀ v v', field.setInside c v p = some v' → P v → P v') {v v' : Value}
    (h : field.fill c v keys = some v') (hv : P v) : P v' := by
  induction keys generalizing v with
  | nil =>
    cases h
    exact hv
  | cons p keys ih =>
    obtain ⟨w, hw, hrest⟩ := Option.bind_eq_some_iff.mp h
    exact ih (fun q hq => hstep q (List.mem_cons_of_mem p hq)) hrest
      (hstep p List.mem_cons_self v w hw hv)

theorem fill_nothing (h : field.inside = .nothing) (v : Value) (keys : List (String × Json)) :
    field.fill c v keys = some v := by
  induction keys with
  | nil => rfl
  | cons p keys ih =>
    rw [SchemaField.fill, SchemaField.setInside, h]
    exact ih

theorem mem_setElement {xs : List Json} {i : Nat} {v x : Json} (h : x ∈ setElement xs i v) :
    x ∈ xs ∨ x = v ∨ x = .null := by
  unfold setElement at h
  split at h
  · obtain hx | rfl := List.mem_or_eq_of_mem_set h
    · exact .inl hx
    · exact .inr (.inl rfl)
  · obtain hx | hx := List.mem_append.mp h
    · obtain hx | hx := List.mem_append.mp hx
      · exact .inl hx
      · exact .inr (.inr (List.eq_of_mem_replicate hx))
    · exact .inr (.inl (List.mem_singleton.mp hx))

end Inside

section Stored
variable {c : Casts} {field : SchemaField} {obj obj' : Fields}

theorem settle_eq {v w : Value} (hfresh : field.fresh = none) (h : field.settle v = some w) :
    w = v := by
  simp only [SchemaField.settle, hfresh, Option.none_or, ite_self] at h
  split at h
  · exact (Option.some.inj h).symm
  · cases h

/-- What is stored passes the validators. -/
theorem valid_of_stored {w : Value} (hfresh : field.fresh = none)
    (h : field.stored c obj = some w) : field.valid w = true := by
  obtain ⟨v, -, hrest⟩ := Option.bind_eq_some_iff.mp h
  obtain ⟨filled, -, hsettle⟩ := Option.bind_eq_some_iff.mp hrest
  rw [settle_eq hfresh hsettle]
  unfold SchemaField.settle at hsettle
  split at hsettle
  next hvalid => exact hvalid
  · cases hsettle

theorem stored_nothing (h : field.inside = .nothing) :
    field.stored c obj = (field.start obj).bind field.settle := by
  simp only [SchemaField.stored, fill_nothing h, Option.bind_some]

theorem stored_plain_congr (hinside : field.inside = .nothing)
    (h : obj.lookup field.key = obj'.lookup field.key) :
    field.stored c obj = field.stored c obj' := by
  simp only [stored_nothing hinside, SchemaField.start, h]

/-- A value of the type of its field is stored as it is. -/
theorem stored_kept {v : Json} {w : Value} (hinside : field.inside = .nothing)
    (hfresh : field.fresh = none) (hlookup : obj.lookup field.key = some v)
    (hcast : field.cast v = some v) (h : field.stored c obj = some w) : w = some v := by
  rw [stored_nothing hinside, SchemaField.start, hlookup] at h
  exact settle_eq hfresh (by simpa [hcast] using h)

/-- A value without a schema is stored with what the keys inside it put there. -/
theorem fill_of_stored {value w : Value} (hcast : ∀ v, field.cast v = some v)
    (hdefault : field.default = none) (hfresh : field.fresh = none)
    (hlookup : obj.lookup field.key = value) (h : field.stored c obj = some w) :
    field.fill c value (field.innerKeys obj) = some w := by
  have hstart : field.start obj = some value := by
    cases value <;> simp [SchemaField.start, hlookup, hcast, hdefault]
  obtain ⟨v, hv, hrest⟩ := Option.bind_eq_some_iff.mp h
  obtain ⟨filled, hfill, hsettle⟩ := Option.bind_eq_some_iff.mp hrest
  cases hstart.symm.trans hv
  rw [hfill, settle_eq hfresh hsettle]

/-- A document has what is stored of each field of the schema, in its order. -/
theorem document_eq_some {schema : List SchemaField} {doc : List Value} :
    document c obj schema = some doc ↔
      List.Forall₂ (fun field v => field.stored c obj = some v) schema doc := by
  induction schema generalizing doc with
  | nil =>
    constructor
    · intro h
      cases h
      exact .nil
    · intro h
      cases h
      rfl
  | cons field schema ih =>
    constructor
    · intro h
      simp only [document] at h
      split at h
      next v vs hv hvs =>
        cases h
        exact .cons hv (ih.mp hvs)
      next => cases h
    · intro h
      cases h with
      | cons hv hvs => simp only [document, hv, ih.mpr hvs]

theorem stored_of_document {schema : List SchemaField} {doc : List Value}
    (h : document c obj schema = some doc) (hfield : field ∈ schema) :
    ∃ v, field.stored c obj = some v := by
  rw [document_eq_some] at h
  induction h with
  | nil => cases hfield
  | cons hv _ ih =>
    obtain rfl | hfield := List.mem_cons.mp hfield
    · exact ⟨_, hv⟩
    · exact ih hfield

/-- Two documents are the same if every field of the schema is stored alike. -/
theorem document_eq_iff {schema : List SchemaField} {doc doc' : List Value}
    (h : document c obj schema = some doc) (h' : document c obj' schema = some doc') :
    doc = doc' ↔ ∀ field ∈ schema, field.stored c obj = field.stored c obj' := by
  rw [document_eq_some] at h h'
  induction h generalizing doc' with
  | nil =>
    cases h'
    simp
  | cons hv _ ih =>
    cases h' with
    | cons hv' hvs' => simp [hv, hv', ih hvs']

end Stored

/-- Conversions that know their own texts only; enough to evaluate. -/
def Casts.plain : Casts where
  string _ := none
  number _ := none
  date
    | .num q => some q.floor
    | _ => none
  objectId
    | .str s => some s
    | _ => none
  assign _ _ _ := none

end Mongoose
