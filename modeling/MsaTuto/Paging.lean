import Mathlib.Data.List.Sort
import Mathlib.Data.List.Nodup
import Mathlib.Data.Rat.Floor

/-! Reading a collection page by page through separate queries. Each query puts the
matching records in some order of its own that respects a sort key; what the pages add
up to depends on whether the key decides which records stand before a page boundary. -/
namespace Paging
variable {α K : Type*}

def window (limit k : Nat) (ys : List α) : List α := (ys.drop (k * limit)).take limit

/-- The first pages one after the other, each cut from the listing of its own query. -/
def reading (limit : Nat) (listing : Nat → List α) (pages : Nat) : List α :=
  (List.range pages).flatMap fun k => window limit k (listing k)

/-- No two equal keys stand next to each other across the end of a page. -/
def Apart (limit : Nat) (ks : List K) : Prop :=
  ∀ i (h : i + 1 < ks.length), limit ∣ i + 1 → ks[i] ≠ ks[i + 1]

instance [DecidableEq K] (limit : Nat) (ks : List K) : Decidable (Apart limit ks) :=
  decidable_of_iff (∀ i < ks.length - 1, limit ∣ i + 1 → ks[i]? ≠ ks[i + 1]?) <| by
    constructor
    · intro h i hi hdvd heq
      refine h i (by omega) hdvd ?_
      rw [List.getElem?_eq_getElem (by omega), List.getElem?_eq_getElem hi, heq]
    · intro h i hi hdvd heq
      rw [List.getElem?_eq_getElem (by omega), List.getElem?_eq_getElem (by omega)] at heq
      exact h i (by omega) hdvd (Option.some.inj heq)

/-- What a cursor shows for a skip and a limit other than zero, which would mean none; a negative
limit asks for that many records in a single batch. -/
def slice (skip limit : Int) (ys : List α) : List α := (ys.drop skip.toNat).take limit.natAbs

/-- How a cursor treats a skip and a limit: it refuses a negative skip, it takes numbers of 64 bits,
and where it takes them it shows the slice. Whether it takes greater ones is left open. -/
structure Cuts (skip limit : Int) (cursor : Option (List α → List α)) : Prop where
  shows : ∀ f, cursor = some f → f = slice skip limit
  negative : skip < 0 → cursor = none
  taken : 0 ≤ skip → skip < 2 ^ 63 → limit.natAbs < 2 ^ 63 → cursor.isSome = true

/-- A cursor that refuses greater numbers. -/
def cut (skip limit : Int) : Option (List α → List α) :=
  if 0 ≤ skip ∧ skip < 2 ^ 63 ∧ limit.natAbs < 2 ^ 63 then some (slice skip limit) else none

theorem cuts_cut (skip limit : Int) : Cuts (α := α) skip limit (cut skip limit) where
  shows f h := by
    unfold cut at h
    split at h
    · exact (Option.some.inj h).symm
    · cases h
  negative h := if_neg (by omega)
  taken h h' h'' := by rw [cut, if_pos ⟨h, h', h''⟩, Option.isSome_some]

section Slices
variable {skip limit : Int} {cursor : Option (List α → List α)}

theorem Cuts.eq_slice (h : Cuts skip limit cursor) (hsome : cursor.isSome = true) :
    cursor = some (slice skip limit) := by
  obtain ⟨f, hf⟩ := Option.isSome_iff_exists.mp hsome
  rw [hf, h.shows f hf]

theorem slice_eq_window (limit k : Nat) :
    slice (α := α) ((k : Int) * limit) limit = window limit k := by
  have hskip : ((k : Int) * limit).toNat = k * limit := by
    rw [← Int.natCast_mul, Int.toNat_natCast]
  funext ys
  rw [slice, hskip, Int.natAbs_natCast, window]

theorem mem_of_mem_slice {ys : List α} {x : α} (hx : x ∈ slice skip limit ys) : x ∈ ys :=
  List.mem_of_mem_drop (List.mem_of_mem_take hx)

end Slices

theorem take_append_window (limit k : Nat) (ys : List α) :
    ys.take (k * limit) ++ window limit k ys = ys.take ((k + 1) * limit) := by
  rw [window, Nat.succ_mul, List.take_add]

theorem getElem_mem_window {limit k i : Nat} {ys : List α} (h : i < ys.length)
    (hk : k * limit ≤ i) (hi : i < (k + 1) * limit) : ys[i] ∈ window limit k ys := by
  rw [window, List.mem_take_iff_getElem]
  have hlen : i - k * limit < limit := by
    rw [Nat.succ_mul] at hi
    omega
  refine ⟨i - k * limit, by rw [List.length_drop]; omega, ?_⟩
  rw [List.getElem_drop]
  congr 1
  omega

theorem reading_succ (limit : Nat) (listing : Nat → List α) (pages : Nat) :
    reading limit listing (pages + 1) =
      reading limit listing pages ++ window limit pages (listing pages) := by
  simp [reading, List.range_succ]

theorem filter_eq_take_of_split {p : α → Bool} {n : Nat} {ys : List α}
    (htake : ∀ x ∈ ys.take n, p x = true)
    (hdrop : ∀ x ∈ ys.drop n, p x ≠ true) : ys.filter p = ys.take n := by
  calc
    ys.filter p = (ys.take n ++ ys.drop n).filter p := by rw [List.take_append_drop]
    _ = ys.take n := by
      rw [List.filter_append, List.filter_eq_self.mpr htake, List.filter_eq_nil_iff.mpr hdrop,
        List.append_nil]

/-- A record on both sides of a page boundary is read twice. -/
theorem not_nodup_reading {listing : Nat → List α} {limit k pages : Nat} {x : α}
    (hx : x ∈ window limit k (listing k))
    (hx' : x ∈ window limit (k + 1) (listing (k + 1))) (hk : k + 1 < pages) :
    ¬(reading limit listing pages).Nodup := by
  intro hnd
  have hdisj := (List.nodup_flatMap.mp hnd).2
  have hfun := List.pairwise_iff_getElem.mp hdisj k (k + 1) (by simp; omega) (by simpa using hk)
    (Nat.lt_succ_self k)
  simp only [Function.onFun, List.getElem_range] at hfun
  exact hfun hx hx'

/-- What a listing answers for one page. -/
structure Page (α : Type*) where
  items : List α
  total : Nat
  limit : Rat
  pages : Option Int

/-- No page is fuller than its limit, and the number of pages is the quotient rounded up. -/
def Page.Bounded (p : Page α) : Prop :=
  (p.items.length : Rat) ≤ p.limit ∧ p.pages = some ⌈(p.total : Rat) / p.limit⌉ ∧
    0 ≤ ⌈(p.total : Rat) / p.limit⌉

/-- The page of `limit` records cut from a listing of all `xs`. -/
def pageOf (xs : List α) (limit k : Nat) (ys : List α) : Page α where
  items := window limit k ys
  total := xs.length
  limit := limit
  pages := some ⌈(xs.length : Rat) / limit⌉

theorem le_ceil_mul {total limit n : Nat} (hl : 0 < limit)
    (hn : ⌈(total : Rat) / limit⌉ = n) : total ≤ n * limit := by
  have hpos : (0 : Rat) < limit := by exact_mod_cast hl
  have hle : (total : Rat) / limit ≤ n := by
    have h := Int.le_ceil ((total : Rat) / limit)
    rw [hn] at h
    exact_mod_cast h
  exact_mod_cast (div_le_iff₀ hpos).mp hle

theorem mul_lt_of_lt_ceil {total limit n k : Nat} (hl : 0 < limit)
    (hn : ⌈(total : Rat) / limit⌉ = n) (hk : k < n) : k * limit < total := by
  have hpos : (0 : Rat) < limit := by exact_mod_cast hl
  have hlt : (k : Rat) < (total : Rat) / limit := by
    have h : ((k : Int) : Rat) < (total : Rat) / limit :=
      Int.lt_ceil.mp (by rw [hn]; exact_mod_cast hk)
    exact_mod_cast h
  exact_mod_cast (lt_div_iff₀ hpos).mp hlt

section Order
variable (key : α → K) (r : K → K → Prop)

/-- An order a query may return the records `xs` in. -/
structure Listing (xs ys : List α) : Prop where
  perm : ys.Perm xs
  ordered : ys.Pairwise fun a b => r (key a) (key b)

/-- One query's way of ordering whatever it selects. -/
structure Order where
  list : List α → List α
  listing : ∀ xs, Listing key r xs (list xs)

/-- Reading page one to the last page that is reported shows every record of `xs` once
and in order, and every page reports their number. -/
def ReadsAll (xs : List α) (answers : Nat → Option (Page α)) : Prop :=
  ∃ n : Nat, (∀ k, k = 0 ∨ k < n → ∃ p, answers k = some p ∧ p.pages = some (n : Int) ∧
    p.total = xs.length) ∧
    ((List.range n).flatMap fun k => ((answers k).map Page.items).getD []).Perm xs ∧
    ((List.range n).flatMap fun k => ((answers k).map Page.items).getD []).Pairwise
      fun a b => r (key a) (key b)

variable {key r} in
theorem Listing.length_eq {xs ys : List α} (h : Listing key r xs ys) : ys.length = xs.length :=
  h.perm.length_eq

variable {key r} in
/-- Two neighbours with equal keys may just as well stand the other way round. -/
theorem Listing.swap {xs us vs : List α} {a b : α} (h : Listing key r xs (us ++ a :: b :: vs))
    (hab : key a = key b) : Listing key r xs (us ++ b :: a :: vs) where
  perm := ((List.Perm.swap a b vs).append_left us).trans h.perm
  ordered := by
    have hkeys : ((us ++ b :: a :: vs).map key).Pairwise r := by
      have hsame : (us ++ b :: a :: vs).map key = (us ++ a :: b :: vs).map key := by simp [hab]
      rw [hsame]
      exact List.pairwise_map.mpr h.ordered
    exact List.pairwise_map.mp hkeys

variable [DecidableRel r]

/-- The keys of the records in sort order. -/
def keys (xs : List α) : List K := (xs.map key).insertionSort r

theorem length_keys (xs : List α) : (keys key r xs).length = xs.length := by
  simp [keys]

variable [Std.Total r] [IsTrans K r]

def Order.sorted : Order key r where
  list xs := xs.insertionSort fun a b => r (key a) (key b)
  listing xs :=
    haveI : Std.Total fun a b : α => r (key a) (key b) := ⟨fun _ _ => Std.Total.total _ _⟩
    haveI : IsTrans α fun a b => r (key a) (key b) := ⟨fun _ _ _ => IsTrans.trans _ _ _⟩
    ⟨List.perm_insertionSort _ xs, List.pairwise_insertionSort _ xs⟩

instance : Nonempty (Order key r) := ⟨Order.sorted key r⟩

open Classical in
/-- An order that returns `ys` wherever that is allowed. -/
noncomputable def Order.preferring (ys : List α) : Order key r where
  list xs := if Listing key r xs ys then ys else (Order.sorted key r).list xs
  listing xs := by
    by_cases h : Listing key r xs ys
    · rw [if_pos h]
      exact h
    · rw [if_neg h]
      exact (Order.sorted key r).listing xs

variable {key r}

theorem Order.preferring_list {xs ys : List α} (h : Listing key r xs ys) :
    (Order.preferring key r ys).list xs = ys :=
  if_pos h

variable [Std.Antisymm r]

/-- Every listing shows the same sequence of keys. -/
theorem Listing.map_key {xs ys : List α} (h : Listing key r xs ys) :
    ys.map key = keys key r xs := by
  have hperm : (ys.map key).Perm (keys key r xs) :=
    (h.perm.map key).trans (List.perm_insertionSort r _).symm
  have hys : (ys.map key).Pairwise r := List.pairwise_map.mpr h.ordered
  exact hperm.eq_of_pairwise' hys (List.pairwise_insertionSort r _)

/-- Where the key changes, it alone says which records stand before. -/
theorem Listing.filter_eq_take {xs ys : List α} (h : Listing key r xs ys) {i : Nat}
    (hi : i + 1 < ys.length) (hne : key ys[i] ≠ key ys[i + 1]) :
    (ys.filter fun x => r (key x) (key ys[i])) = ys.take (i + 1) := by
  have hle : ∀ a b (ha : a < ys.length) (hb : b < ys.length), a ≤ b →
      r (key ys[a]) (key ys[b]) := by
    intro a b ha hb hab
    obtain rfl | hlt := Nat.eq_or_lt_of_le hab
    · exact (Std.Total.total (r := r) _ _).elim id id
    · exact List.pairwise_iff_getElem.mp h.ordered a b ha hb hlt
  have htake : ∀ x ∈ ys.take (i + 1), r (key x) (key ys[i]) := by
    intro x hx
    obtain ⟨a, ha, rfl⟩ := List.mem_take_iff_getElem.mp hx
    exact hle a i _ _ (by omega)
  have hdrop : ∀ x ∈ ys.drop (i + 1), ¬r (key x) (key ys[i]) := by
    intro x hx hback
    obtain ⟨a, ha, rfl⟩ := List.mem_drop_iff_getElem.mp hx
    have hfwd : r (key ys[i + 1]) (key ys[i + 1 + a]) := hle _ _ _ _ (by omega)
    have hstep : r (key ys[i]) (key ys[i + 1]) := hle _ _ _ _ (by omega)
    exact hne (Std.Antisymm.antisymm _ _ hstep (IsTrans.trans _ _ _ hfwd hback))
  exact filter_eq_take_of_split (by simpa using htake) (by simpa using hdrop)

theorem Listing.key_getElem {xs ys : List α} (h : Listing key r xs ys) {i : Nat}
    (hi : i < ys.length) (hk : i < (keys key r xs).length) :
    key ys[i] = (keys key r xs)[i] := by
  simp only [← h.map_key, List.getElem_map]

/-- At a page boundary that parts the keys, all listings agree on what stands before. -/
theorem Listing.take_perm {xs ys zs : List α} {limit : Nat} (hy : Listing key r xs ys)
    (hz : Listing key r xs zs) (hap : Apart limit (keys key r xs)) (k : Nat) :
    (ys.take (k * limit)).Perm (zs.take (k * limit)) := by
  have hperm : ys.Perm zs := hy.perm.trans hz.perm.symm
  have hlen : ys.length = zs.length := hperm.length_eq
  by_cases hall : ys.length ≤ k * limit
  · rw [List.take_of_length_le hall, List.take_of_length_le (hlen ▸ hall)]
    exact hperm
  · cases hb : k * limit with
    | zero => simp
    | succ i =>
      have hi : i + 1 < ys.length := by omega
      have hkeys : i + 1 < (keys key r xs).length := by rw [length_keys, ← hy.length_eq]; exact hi
      have hapart := hap i hkeys ⟨k, by rw [← hb, Nat.mul_comm]⟩
      have hyi := hy.key_getElem (by omega) (by omega : i < (keys key r xs).length)
      have hzi := hz.key_getElem (by omega) (by omega : i < (keys key r xs).length)
      have hyne : key ys[i] ≠ key ys[i + 1] := by
        rw [hyi, hy.key_getElem hi hkeys]
        exact hapart
      have hzne : key zs[i] ≠ key zs[i + 1] := by
        rw [hzi, hz.key_getElem (by omega) hkeys]
        exact hapart
      rw [← hy.filter_eq_take hi hyne, ← hz.filter_eq_take (by omega) hzne, hyi, hzi]
      exact hperm.filter _

variable {listing : Nat → List α} {xs : List α} {limit : Nat}

theorem reading_keys (h : ∀ k, Listing key r xs (listing k)) (pages : Nat) :
    (reading limit listing pages).map key = (keys key r xs).take (pages * limit) := by
  induction pages with
  | zero => simp [reading]
  | succ n ih =>
    have hwindow : (window limit n (listing n)).map key = window limit n (keys key r xs) := by
      simp only [window, List.map_take, List.map_drop, (h n).map_key]
    rw [reading_succ, List.map_append, ih, hwindow, take_append_window]

/-- However ties fall, the pages show the records in sort order. -/
theorem reading_ordered (h : ∀ k, Listing key r xs (listing k)) (pages : Nat) :
    (reading limit listing pages).Pairwise fun a b => r (key a) (key b) := by
  have hkeys : ((reading limit listing pages).map key).Pairwise r := by
    rw [reading_keys h]
    exact (List.pairwise_insertionSort r _).take
  exact List.pairwise_map.mp hkeys

theorem reading_perm_take (h : ∀ k, Listing key r xs (listing k))
    (hap : Apart limit (keys key r xs)) (pages : Nat) {ys : List α} (hy : Listing key r xs ys) :
    (reading limit listing pages).Perm (ys.take (pages * limit)) := by
  induction pages with
  | zero => simp [reading]
  | succ n ih =>
    calc
      reading limit listing (n + 1)
          = reading limit listing n ++ window limit n (listing n) := reading_succ ..
      List.Perm _ (ys.take (n * limit) ++ window limit n (listing n)) := ih.append_right _
      List.Perm _ ((listing n).take (n * limit) ++ window limit n (listing n)) :=
        (hy.take_perm (h n) hap n).append_right _
      _ = (listing n).take ((n + 1) * limit) := take_append_window ..
      List.Perm _ (ys.take ((n + 1) * limit)) := (h n).take_perm hy hap (n + 1)

theorem reading_perm (h : ∀ k, Listing key r xs (listing k))
    (hap : Apart limit (keys key r xs)) {pages : Nat} (hall : xs.length ≤ pages * limit) :
    (reading limit listing pages).Perm xs := by
  have htake := reading_perm_take h hap pages (h 0)
  rw [List.take_of_length_le (by rw [(h 0).length_eq]; exact hall)] at htake
  exact htake.trans (h 0).perm

/-- The tie across a boundary is broken one way for the page before it and the other
way for the page after it. -/
theorem apart_of_reading {pages : Nat} (hl : 0 < limit) (hall : xs.length ≤ pages * limit)
    (h : ∀ o : Nat → Order key r,
      (reading limit (fun k => (o k).list xs) pages).Nodup) :
    Apart limit (keys key r xs) := by
  intro i hi hdvd heq
  obtain ⟨c, hc⟩ := hdvd
  obtain _ | c := c
  · omega
  set ys := (Order.sorted key r).list xs with hysdef
  have hys : Listing key r xs ys := (Order.sorted key r).listing xs
  have hi' : i + 1 < ys.length := by
    rw [length_keys] at hi
    rwa [hys.length_eq]
  have hsplit : ys = ys.take i ++ ys[i] :: ys[i + 1] :: ys.drop (i + 2) := by simp
  have hab : key ys[i] = key ys[i + 1] := by
    rw [hys.key_getElem (by omega) (by omega), hys.key_getElem hi' hi, heq]
  have hzs : Listing key r xs (ys.take i ++ ys[i + 1] :: ys[i] :: ys.drop (i + 2)) :=
    Listing.swap (by rw [← hsplit]; exact hys) hab
  let o : Nat → Order key r := fun k =>
    Order.preferring key r
      (if k = c then ys.take i ++ ys[i + 1] :: ys[i] :: ys.drop (i + 2) else ys)
  have hbound : (c + 1) * limit = i + 1 := by rw [hc, Nat.mul_comm]
  have hfirst : ys[i + 1] ∈ window limit c ((o c).list xs) := by
    have hoc : (o c).list xs = ys.take i ++ ys[i + 1] :: ys[i] :: ys.drop (i + 2) := by
      simp only [o, if_pos, Order.preferring_list hzs]
    rw [hoc]
    have hlen : i < (ys.take i ++ ys[i + 1] :: ys[i] :: ys.drop (i + 2)).length := by
      simp
      omega
    have hmem := getElem_mem_window hlen (by rw [Nat.succ_mul] at hbound; omega : c * limit ≤ i)
      (by omega)
    simpa [List.getElem_append_right, Nat.min_eq_left (by omega : i ≤ ys.length)] using hmem
  have hsecond : ys[i + 1] ∈ window limit (c + 1) ((o (c + 1)).list xs) := by
    have hoc : (o (c + 1)).list xs = ys := by
      simp only [o, if_neg (Nat.succ_ne_self c), Order.preferring_list hys]
    rw [hoc]
    exact getElem_mem_window hi' (by omega) (by rw [Nat.succ_mul]; omega)
  have hpages : c + 1 < pages := by
    rw [hys.length_eq] at hi'
    exact Nat.lt_of_mul_lt_mul_right (by omega : (c + 1) * limit < pages * limit)
  exact not_nodup_reading hfirst hsecond hpages (h o)

/-- Separate queries show every record once, whatever they do with ties, if and only if
the keys part at every page boundary. -/
theorem reading_covers_iff {pages : Nat} (hl : 0 < limit) (hx : xs.Nodup)
    (hall : xs.length ≤ pages * limit) :
    (∀ o : Nat → Order key r, (reading limit (fun k => (o k).list xs) pages).Perm xs) ↔
      Apart limit (keys key r xs) := by
  constructor
  · intro h
    exact apart_of_reading hl hall fun o => (h o).nodup_iff.mpr hx
  · intro hap o
    exact reading_perm (fun k => (o k).listing xs) hap hall

/-- Queries that each answer their own page out of their own listing read everything
if and only if the keys part at every page boundary. -/
theorem readsAll_iff {I : Type*} (hl : 0 < limit) (hx : xs.Nodup)
    (answers : (Nat → I) → Nat → Option (Page α)) (order : I → Order key r)
    (horder : Function.Surjective order)
    (h : ∀ o k, k * limit ≤ xs.length →
      answers o k = some (pageOf xs limit k ((order (o k)).list xs))) :
    (∀ o, ReadsAll key r xs (answers o)) ↔ Apart limit (keys key r xs) := by
  obtain ⟨n, hn⟩ : ∃ n : Nat, ⌈(xs.length : Rat) / limit⌉ = n :=
    Int.eq_ofNat_of_zero_le (Int.ceil_nonneg (by positivity))
  have hitems : ∀ o, ((List.range n).flatMap fun k => ((answers o k).map Page.items).getD []) =
      reading limit (fun k => (order (o k)).list xs) n := by
    intro o
    refine List.flatMap_congr fun k hk => ?_
    rw [h o k (mul_lt_of_lt_ceil hl hn (List.mem_range.mp hk)).le]
    rfl
  constructor
  · intro hall
    refine (reading_covers_iff hl hx (le_ceil_mul hl hn)).mp fun o => ?_
    obtain ⟨o', ho'⟩ := horder.comp_left o
    obtain ⟨m, hm, hperm, -⟩ := hall o'
    obtain ⟨p, hp, hpages, -⟩ := hm 0 (.inl rfl)
    rw [h o' 0 (by omega)] at hp
    cases hp
    obtain rfl : m = n := by
      have heq : (some ⌈(xs.length : Rat) / limit⌉ : Option Int) = some (m : Int) := hpages
      rw [hn] at heq
      simpa using heq.symm
    rw [hitems o'] at hperm
    rw [← ho']
    exact hperm
  · intro hap o
    refine ⟨n, fun k hk => ⟨_, h o k ?_, congrArg some hn, rfl⟩, ?_, ?_⟩
    · obtain rfl | hk := hk
      · omega
      · exact (mul_lt_of_lt_ceil hl hn hk).le
    · rw [hitems o]
      exact reading_perm (fun k => (order (o k)).listing xs) hap (le_ceil_mul hl hn)
    · rw [hitems o]
      exact reading_ordered (fun k => (order (o k)).listing xs) n

end Order

/-- Ascending when the flag is set, else descending. -/
def InOrder [LE K] (asc : Bool) (a b : K) : Prop := if asc then a ≤ b else b ≤ a

section Direction
variable [LinearOrder K] {asc : Bool}

instance : DecidableRel (InOrder asc (K := K)) := fun a b =>
  inferInstanceAs (Decidable (if asc then a ≤ b else b ≤ a))

instance : Std.Total (InOrder asc (K := K)) where
  total a b := by
    cases asc with
    | true => exact le_total a b
    | false => exact le_total b a

instance : IsTrans K (InOrder asc) where
  trans a b c hab hbc := by
    cases asc with
    | true => exact le_trans (α := K) hab hbc
    | false => exact le_trans (α := K) hbc hab

instance : Std.Antisymm (InOrder asc (K := K)) where
  antisymm a b hab hba := by
    cases asc with
    | true => exact le_antisymm (α := K) hab hba
    | false => exact le_antisymm (α := K) hba hab

end Direction
end Paging
