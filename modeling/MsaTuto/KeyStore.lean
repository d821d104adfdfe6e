import Mathlib.Logic.Function.Basic

/-! A key-value store with expiry in the manner of Redis: keys are strings, a TTL
counts whole seconds from the write, the clock counts milliseconds. -/
namespace KeyStore

structure Entry (ν : Type*) where
  value : ν
  /-- The first moment at which the store may drop the entry. -/
  expiresAt : Option Int
  deriving DecidableEq

abbrev Store (ν : Type*) := String → Option (Entry ν)

variable {ν : Type*}

def get (s : Store ν) (k : String) : Option ν := (s k).map Entry.value

/-- `SET k v EX ttl`, or `SET k v` without a TTL, carried out at time `now`. -/
def set (s : Store ν) (k : String) (v : ν) (ttl : Option Int) (now : Int) : Store ν :=
  Function.update s k (some ⟨v, ttl.map fun n => now + n * 1000⟩)

def del (s : Store ν) (k : String) : Store ν := Function.update s k none

def expired (e : Entry ν) (now : Int) : Bool :=
  match e.expiresAt with
  | some t => decide (t ≤ now)
  | none => false

/-- The store dropping a key by itself: only once its time has come. -/
def drop (s : Store ν) (k : String) (now : Int) : Store ν :=
  match s k with
  | some e => if expired e now then del s k else s
  | none => s

section Lookup
variable (s : Store ν) (k k' : String) (v : ν) (ttl : Option Int) (now : Int)

@[simp] theorem set_self : set s k v ttl now k = some ⟨v, ttl.map fun n => now + n * 1000⟩ := by
  simp [set]

variable {s k k' v ttl now} in
theorem set_other {s' : Store ν} (hs : s' = set s k v ttl now) (h : k' ≠ k) : s' k' = s k' := by
  simp [hs, set, h]

@[simp] theorem del_self : del s k k = none := by
  simp [del]

variable {k k'} in
theorem del_other (h : k' ≠ k) : del s k k' = s k' := by
  simp [del, h]

variable {k k'} in
theorem drop_other (h : k' ≠ k) : drop s k now k' = s k' := by
  unfold drop
  cases s k with
  | none => rfl
  | some e =>
    by_cases he : expired e now = true
    · simpa [he] using del_other s h
    · simp [he]

theorem drop_self : drop s k now k = s k ∨
    (drop s k now k = none ∧ ∃ e, s k = some e ∧ expired e now = true) := by
  unfold drop
  cases h : s k with
  | none => exact .inl h
  | some e =>
    by_cases he : expired e now = true
    · refine .inr ⟨?_, e, rfl, he⟩
      simp [he]
    · refine .inl ?_
      simp [he, h]

/-- Only an expired entry goes. -/
theorem drop_expired : drop s k' now k = s k ∨
    (drop s k' now k = none ∧ ∃ e, s k = some e ∧ expired e now = true) := by
  by_cases h : k = k'
  · subst h
    exact drop_self s k now
  · exact .inl (drop_other s now h)

/-- Whatever key the store drops, an entry is as it was or gone. -/
theorem drop_cases : drop s k' now k = s k ∨ drop s k' now k = none :=
  (drop_expired s k k' now).imp_right And.left

theorem drop_none (h : s k = none) : drop s k' now k = none := by
  obtain hs | hs := drop_cases s k k' now
  · rw [hs, h]
  · exact hs

end Lookup

@[simp] theorem get_set_self (s : Store ν) (k : String) (v : ν) (ttl : Option Int) (now : Int) :
    get (set s k v ttl now) k = some v := by
  simp [get]

/-- The key is held, and the store may not drop it before time `t`. -/
def Lasts (s : Store ν) (k : String) (t : Int) : Prop :=
  ∃ e, s k = some e ∧ ∀ x, e.expiresAt = some x → t ≤ x

theorem lasts_set (s : Store ν) (k : String) (v : ν) {ttl : Option Int} {now t : Int}
    (h : ∀ n, ttl = some n → t ≤ now + n * 1000) : Lasts (set s k v ttl now) k t := by
  refine ⟨_, set_self s k v ttl now, fun x hx => ?_⟩
  obtain ⟨n, hn, rfl⟩ := Option.map_eq_some_iff.mp hx
  exact h n hn

theorem Lasts.congr {s s' : Store ν} {k : String} {t : Int} (h : Lasts s k t) (hk : s' k = s k) :
    Lasts s' k t := by
  rwa [Lasts, hk]

theorem Lasts.drop {s : Store ν} {k : String} {t now : Int} (h : Lasts s k t) (hnow : now < t)
    (k' : String) : Lasts (KeyStore.drop s k' now) k t := by
  by_cases hk : k = k'
  · subst hk
    obtain hs | ⟨-, e, he, hexp⟩ := drop_self s k now
    · exact h.congr hs
    · obtain ⟨e', he', hlast⟩ := h
      rw [he] at he'
      cases he'
      cases hx : e.expiresAt with
      | none => simp [expired, hx] at hexp
      | some x =>
        have hle := hlast x hx
        simp [expired, hx] at hexp
        omega
  · exact h.congr (drop_other s now hk)

theorem Lasts.get_isSome {s : Store ν} {k : String} {t : Int} (h : Lasts s k t) :
    (get s k).isSome := by
  obtain ⟨e, he, -⟩ := h
  simp [get, he]

theorem get_congr {s s' : Store ν} {k : String} (h : s' k = s k) : get s' k = get s k := by
  simp [get, h]

end KeyStore
