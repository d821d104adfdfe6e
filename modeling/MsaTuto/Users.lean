import Mathlib.Data.List.Pairwise
import MsaTuto.Failure

/-! The user collection of the auth server: `user.schema.ts`, and what the saves of
`users.service.ts` come to in MongoDB. -/
namespace MsaTuto

/-- A stored account. An entry of `roles` may be `null`, which is no role; of `isActive` the
services see only whether it is truthy. -/
structure User where
  id : String
  name : String
  email : String
  password : String
  roles : List (Option Role)
  isActive : Bool := true
  lastLogin : Option Int := none
  version : Int := 0
  deriving DecidableEq

def DistinctUsers (a b : User) : Prop := a.id ≠ b.id ∧ a.email ≠ b.email

instance (a b : User) : Decidable (DistinctUsers a b) :=
  inferInstanceAs (Decidable (_ ∧ _))

instance : Std.Symm DistinctUsers where
  symm _ _ h := ⟨h.1.symm, h.2.symm⟩

structure UserCollection where
  items : List User
  unique : items.Pairwise DistinctUsers

namespace UserCollection

def findById (c : UserCollection) (id : String) : Option User :=
  c.items.find? fun u => decide (u.id = id)

def findByEmail (c : UserCollection) (email : String) : Option User :=
  c.items.find? fun u => decide (u.email = email)

theorem mem_of_findById {c : UserCollection} {id : String} {u : User}
    (h : c.findById id = some u) : u ∈ c.items ∧ u.id = id :=
  ⟨List.mem_of_find?_eq_some h, by simpa using List.find?_some h⟩

/-- A new document is taken in unless an index knows its id or email. -/
def insert (c : UserCollection) (user : User) : Except Failure UserCollection :=
  if h : ∀ u ∈ c.items, DistinctUsers u user then
    .ok ⟨c.items ++ [user], by
      refine List.pairwise_append.mpr ⟨c.unique, List.pairwise_singleton _ _, ?_⟩
      intro a ha b hb
      rw [List.mem_singleton.mp hb]
      exact h a ha⟩
  else .error (.native "MongoServerError")

theorem findByEmail_eq_none {c : UserCollection} {email : String} :
    c.findByEmail email = none ↔ ∀ u ∈ c.items, u.email ≠ email := by
  simp [findByEmail]

theorem mem_of_findByEmail {c : UserCollection} {email : String} {u : User}
    (h : c.findByEmail email = some u) : u ∈ c.items ∧ u.email = email :=
  ⟨List.mem_of_find?_eq_some h, by simpa using List.find?_some h⟩

theorem eq_of_email {c : UserCollection} {u v : User} (hu : u ∈ c.items) (hv : v ∈ c.items)
    (h : u.email = v.email) : u = v := by
  by_contra hne
  exact (c.unique.forall hu hv hne).2 h

theorem eq_of_id {c : UserCollection} {u v : User} (hu : u ∈ c.items) (hv : v ∈ c.items)
    (h : u.id = v.id) : u = v := by
  by_contra hne
  exact (c.unique.forall hu hv hne).1 h

theorem insert_ok {c : UserCollection} {user : User} (hid : ∀ u ∈ c.items, u.id ≠ user.id)
    (hemail : ∀ u ∈ c.items, u.email ≠ user.email) :
    ∃ c', c.insert user = .ok c' ∧ c'.items = c.items ++ [user] := by
  have hnew : ∀ u ∈ c.items, DistinctUsers u user := fun u hu => ⟨hid u hu, hemail u hu⟩
  simp [insert, dif_pos hnew]

theorem insert_duplicate {c : UserCollection} (user : User) {u : User} (hu : u ∈ c.items)
    (h : u.email = user.email) : c.insert user = .error (.native "MongoServerError") := by
  simp only [insert]
  rw [dif_neg]
  intro hnew
  exact (hnew u hu).2 h

/-- A change of fields other than the indexed ones. -/
structure Change where
  apply : User → User
  id_apply : ∀ u, (apply u).id = u.id
  email_apply : ∀ u, (apply u).email = u.email

def updateAt (id : String) (change : Change) (u : User) : User :=
  if u.id = id then change.apply u else u

theorem updateAt_distinct (id : String) (change : Change) {a b : User} (h : DistinctUsers a b) :
    DistinctUsers (updateAt id change a) (updateAt id change b) := by
  have hkeys : ∀ u, (updateAt id change u).id = u.id ∧ (updateAt id change u).email = u.email := by
    intro u
    unfold updateAt
    split
    · exact ⟨change.id_apply u, change.email_apply u⟩
    · exact ⟨rfl, rfl⟩
  rw [DistinctUsers, (hkeys a).1, (hkeys a).2, (hkeys b).1, (hkeys b).2]
  exact h

/-- `updateOne({ _id: id, ...guard }, change)`: whether a document matched, and the result. -/
def updateOne (c : UserCollection) (id : String) (guard : User → Bool) (change : Change) :
    Option UserCollection :=
  match c.findById id with
  | some u =>
    if guard u then
      some ⟨c.items.map (updateAt id change),
        c.unique.map _ fun _ _ => updateAt_distinct id change⟩
    else none
  | none => none

theorem items_updateOne {c c' : UserCollection} {id : String} {guard : User → Bool}
    {change : Change} (h : c.updateOne id guard change = some c') :
    c'.items = c.items.map (updateAt id change) := by
  simp only [updateOne] at h
  split at h
  · split at h
    · cases h
      rfl
    · cases h
  · cases h

theorem mem_updateOne {c c' : UserCollection} {id : String} {guard : User → Bool}
    {change : Change} (h : c.updateOne id guard change = some c') {u : User} (hu : u ∈ c'.items) :
    u ∈ c.items ∨ ∃ v ∈ c.items, v.id = id ∧ u = change.apply v := by
  rw [items_updateOne h] at hu
  obtain ⟨v, hv, rfl⟩ := List.mem_map.mp hu
  by_cases hid : v.id = id
  · exact .inr ⟨v, hv, hid, if_pos hid⟩
  · exact .inl (by rwa [updateAt, if_neg hid])

theorem changed_mem {c c' : UserCollection} {id : String} {guard : User → Bool}
    {change : Change} (h : c.updateOne id guard change = some c') {v : User} (hv : v ∈ c.items)
    (hid : v.id = id) : change.apply v ∈ c'.items := by
  rw [items_updateOne h]
  exact List.mem_map.mpr ⟨v, hv, if_pos hid⟩

/-- No change and no insert takes an id away. -/
theorem id_updateOne {c c' : UserCollection} {id : String} {guard : User → Bool} {change : Change}
    (h : c.updateOne id guard change = some c') {u : User} (hu : u ∈ c.items) :
    ∃ v ∈ c'.items, v.id = u.id := by
  refine ⟨updateAt id change u, items_updateOne h ▸ List.mem_map_of_mem hu, ?_⟩
  by_cases hid : u.id = id
  · rw [updateAt, if_pos hid, change.id_apply]
  · rw [updateAt, if_neg hid]

theorem id_insert {c c' : UserCollection} {user : User} (h : c.insert user = .ok c') {u : User}
    (hu : u ∈ c.items) : u ∈ c'.items := by
  simp only [insert] at h
  split at h
  · cases h
    exact List.mem_append_left _ hu
  · cases h

theorem self_mem_insert {c c' : UserCollection} {user : User} (h : c.insert user = .ok c') :
    user ∈ c'.items := by
  simp only [insert] at h
  split at h
  · cases h
    exact List.mem_append_right _ (List.mem_singleton_self _)
  · cases h

theorem distinct_of_insert {c c' : UserCollection} {user : User} (h : c.insert user = .ok c') :
    ∀ u ∈ c.items, DistinctUsers u user := by
  simp only [insert] at h
  split at h
  next hnew => exact hnew
  next => cases h

theorem updateOne_isSome {c : UserCollection} {u : User} (hu : u ∈ c.items) (change : Change) :
    ∃ c', c.updateOne u.id (fun _ => true) change = some c' := by
  cases h : c.findById u.id with
  | none =>
    rw [findById, List.find?_eq_none] at h
    exact absurd (decide_eq_true rfl) (h u hu)
  | some v => simp [updateOne, h]

theorem mem_insert {c c' : UserCollection} {user : User} (h : c.insert user = .ok c') {u : User}
    (hu : u ∈ c'.items) : u ∈ c.items ∨ u = user := by
  unfold insert at h
  split at h
  · cases h
    simpa using hu
  · cases h

/-- `user.roles.push(role)` and `save`: an unguarded `$push`, with `$inc` on the version. -/
def pushRole (c : UserCollection) (id : String) (role : Role) : Option UserCollection :=
  c.updateOne id (fun _ => true)
    ⟨fun u => { u with roles := u.roles ++ [some role], version := u.version + 1 },
      fun _ => rfl, fun _ => rfl⟩

/-- `user.roles = roles` and `save`: a `$set` guarded by the version read. -/
def setRoles (c : UserCollection) (id : String) (version : Int) (roles : List (Option Role)) :
    Option UserCollection :=
  c.updateOne id (fun u => decide (u.version = version))
    ⟨fun u => { u with roles := roles, version := u.version + 1 }, fun _ => rfl, fun _ => rfl⟩

def setLastLogin (c : UserCollection) (id : String) (now : Int) : Option UserCollection :=
  c.updateOne id (fun _ => true)
    ⟨fun u => { u with lastLogin := some now }, fun _ => rfl, fun _ => rfl⟩

end UserCollection
end MsaTuto
