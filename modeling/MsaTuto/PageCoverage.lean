import MsaTuto.EventListing

/-! What the pages of a list add up to, for the events and for the reward requests:
`reward-request-filter.dto.ts` bounds neither the page nor the limit, and neither list
breaks ties of its sort key. -/
namespace MsaTuto
open Js

def isMongoId (s : String) : Bool :=
  s.length = 24 && s.toList.all fun c =>
    c.isDigit || ('a' ≤ c && c ≤ 'f') || ('A' ≤ c && c ≤ 'F')

/-- What the validation pipe lets through. `page` and `limit` come out of `parseInt`,
where `none` is `NaN`; the defaults are those of the class. -/
structure RewardRequestFilterDto where
  userId : Option String := none
  eventId : Option String := none
  status : Option RequestStatus := none
  startDate : Option String := none
  endDate : Option String := none
  page : Option Int := some 1
  limit : Option Int := some 10
  sortBy : Option String := some "createdAt"
  sortOrder : Option String := some "desc"
  eventId_mongo : ∀ id ∈ eventId, isMongoId id = true := by simp

namespace RewardRequestFilterDto

def toFilter (f : RewardRequestFilterDto) : RewardRequestFilter where
  userId := f.userId.map .str
  eventId := f.eventId.map .str
  status := f.status.map fun s => .str s.value
  startDate := f.startDate.map .str
  endDate := f.endDate.map .str
  page := f.page.map fun n => .num n
  limit := f.limit.map fun n => .num n
  sortBy := f.sortBy.map .str
  sortOrder := f.sortOrder.map .str

/-- `n || dflt`, where `NaN` and zero are falsy. -/
def orDefault (n : Option Int) (dflt : Int) : Int :=
  if n.getD 0 = 0 then dflt else n.getD 0

def pageNumber (f : RewardRequestFilterDto) : Int := orDefault f.page 1

def pageLimit (f : RewardRequestFilterDto) : Int := orDefault f.limit 10

def sortField (f : RewardRequestFilterDto) : String := (given f.sortBy).getD "createdAt"

def ascending (f : RewardRequestFilterDto) : Bool := f.sortOrder = some "asc"

def atPage (f : RewardRequestFilterDto) (k : Nat) : RewardRequestFilterDto :=
  { f with page := some (k + 1) }

/-- The requests a filter is meant to show. -/
def selects (d : Driver) (f : RewardRequestFilterDto) (r : RewardRequest) : Bool :=
  ((given f.userId).all fun u => decide (r.userId = u)) &&
    (f.eventId.all fun id => decide (d.objectId (.str id) = some r.eventId)) &&
    (f.status.all fun s => decide (r.status = s)) &&
    givenDate (fun s => d.date (.str s)) f.startDate (fun b => decide (b ≤ r.createdAt)) &&
    givenDate (fun s => d.date (.str s)) f.endDate (fun b => decide (r.createdAt ≤ b))

end RewardRequestFilterDto

/-- How MongoDB and Mongoose treat what the listing passes on. -/
structure Driver.Documented (d : Driver) : Prop where
  objectId : ∀ s, isMongoId s = true → (d.objectId (.str s)).isSome = true
  castString : ∀ s, d.castString (.str s) = some fun t => decide (t = s)
  window : ∀ n m : Int, m ≠ 0 → Paging.Cuts n m (d.window (some n) (.num m))

/-- MongoDB takes the number for a limit. -/
def Driver.takesLimit (d : Driver) (limit : Int) : Bool :=
  (d.window (some (0 : Int)) (.num limit)).isSome

/-- The fields one can sort by, and what a record is sorted by then. -/
structure Sorting (K : Type) where
  sortable : String → Bool
  key : String → Bool → RewardRequest → K

section Queries
variable {K : Type} [LinearOrder K]

/-- How one query breaks the ties of whatever it sorts by. -/
abbrev Sorting.Ties (s : Sorting K) : Type :=
  ∀ field asc, Paging.Order (s.key field asc) (Paging.InOrder asc)

def Driver.ordering (d : Driver) (s : Sorting K) (o : s.Ties) : Driver :=
  { d with
    sort := fun field asc => match field with
      | .str name => if s.sortable name then some (o name asc).list else none
      | _ => none
    mem_sort := by
      intro field asc f xs r hf hr
      split at hf
      · rename_i name
        split at hf
        · cases hf
          exact ((o name asc).listing xs).perm.mem_iff.mp hr
        · cases hf
      · cases hf }

theorem Driver.Documented.ordering {d : Driver} (hd : d.Documented) (s : Sorting K) (o : s.Ties) :
    (d.ordering s o).Documented :=
  ⟨hd.objectId, hd.castString, hd.window⟩

theorem Driver.ordering_sort (d : Driver) (s : Sorting K) (o : s.Ties) (field : String)
    (asc : Bool) :
    (d.ordering s o).sort (.str field) asc =
      if s.sortable field then some (o field asc).list else none := rfl

end Queries

section Filter
variable {d : Driver} {co : Coercions} {f : RewardRequestFilterDto}

theorem whenTruthy_str (v : Option String) :
    whenTruthy (v.map .str) = (given v).map .str := by
  cases v with
  | none => rfl
  | some s => by_cases h : s = "" <;> simp [whenTruthy, truthy, given, h, Option.filter]

theorem orNumber_int (n : Option Int) (dflt : Int) :
    orNumber (n.map fun m => .num m) dflt =
      .num (RewardRequestFilterDto.orDefault n dflt : Int) := by
  cases n with
  | none => simp [orNumber, orElse, truthy, RewardRequestFilterDto.orDefault]
  | some m =>
    by_cases h : m = 0 <;> simp [orNumber, orElse, truthy, RewardRequestFilterDto.orDefault, h]

theorem sortField_eq (f : RewardRequestFilterDto) :
    (orElse f.toFilter.sortBy (some (.str "createdAt"))).getD (.str "createdAt") =
      .str f.sortField := by
  simp only [RewardRequestFilterDto.toFilter, RewardRequestFilterDto.sortField]
  cases f.sortBy with
  | none => rfl
  | some s => by_cases h : s = "" <;> simp [orElse, truthy, given, h, Option.filter]

theorem ascending_eq (f : RewardRequestFilterDto) :
    isAscending f.toFilter.sortOrder = f.ascending := by
  simp only [RewardRequestFilterDto.toFilter, RewardRequestFilterDto.ascending]
  cases f.sortOrder <;> simp [isAscending]

def RewardRequestFilterDto.query (d : Driver) (f : RewardRequestFilterDto) : QueryFilter where
  userId := (given f.userId).map .str
  eventId := f.eventId.bind fun id => d.objectId (.str id)
  status := f.status.map fun s => .str s.value
  gte := (given f.startDate).map fun s => d.date (.str s)
  lte := (given f.endDate).map fun s => d.date (.str s)

theorem whenTruthy_status (v : Option RequestStatus) :
    whenTruthy (v.map fun s => .str s.value) = v.map fun s => .str s.value := by
  cases v with
  | none => rfl
  | some s => cases s <;> simp [whenTruthy, truthy, RequestStatus.value]

theorem queryFilter_eq (hd : d.Documented) (f : RewardRequestFilterDto) :
    f.toFilter.queryFilter d = .ok (f.query d) := by
  have hid : ∀ id ∈ f.eventId, ∃ oid, d.objectId (.str id) = some oid := fun id h =>
    Option.isSome_iff_exists.mp (hd.objectId id (f.eventId_mongo id h))
  have hne : ∀ id ∈ f.eventId, id ≠ "" := by
    rintro id h rfl
    exact absurd (f.eventId_mongo "" h) (by decide)
  simp only [RewardRequestFilter.queryFilter, RewardRequestFilterDto.toFilter, whenTruthy_str,
    whenTruthy_status, RewardRequestFilterDto.query, Option.map_map]
  cases he : f.eventId with
  | none => rfl
  | some id =>
    obtain ⟨oid, hoid⟩ := hid id he
    simp [given, Option.filter, hne id he, hoid, Function.comp_def]

theorem condition_str (hd : d.Documented) (v : Option String) :
    d.condition (v.map .str) = some fun t => v.all fun s => decide (t = s) := by
  cases v with
  | none => rfl
  | some s => simp [Driver.condition, hd.castString]

theorem RequestStatus.value_inj {s t : RequestStatus} : s.value = t.value ↔ s = t := by
  cases s <;> cases t <;> simp [RequestStatus.value]

theorem matcher_valid (hd : d.Documented)
    (hv : datesValid (fun s => d.date (.str s)) f.startDate f.endDate = true) :
    (f.query d).matcher d = some (f.selects d) := by
  obtain ⟨hs, he⟩ := Bool.and_eq_true_iff.mp hv
  have hstatus : d.condition (f.query d).status =
      some fun t => f.status.all fun s => decide (t = s.value) := by
    simp only [RewardRequestFilterDto.query]
    cases f.status with
    | none => rfl
    | some s => exact condition_str hd (some s.value)
  have hevent : ∀ r : RewardRequest, ((f.query d).eventId.all fun id => decide (id = r.eventId)) =
      f.eventId.all fun id => decide (d.objectId (.str id) = some r.eventId) := by
    intro r
    cases hid : f.eventId with
    | none => simp [RewardRequestFilterDto.query, hid]
    | some id =>
      obtain ⟨oid, hoid⟩ := Option.isSome_iff_exists.mp (hd.objectId id (f.eventId_mongo id hid))
      simp [RewardRequestFilterDto.query, hid, hoid]
  have hgte := dateCondition_valid hs fun t b => decide (b ≤ t)
  have hlte := dateCondition_valid he fun t b => decide (t ≤ b)
  simp only [QueryFilter.matcher, hstatus]
  simp only [RewardRequestFilterDto.query, condition_str hd, hgte, hlte, Option.some.injEq]
  funext r
  have hr := hevent r
  simp only [RewardRequestFilterDto.query] at hr
  simp only [RewardRequestFilterDto.selects, hr, RequestStatus.value_inj]

theorem matcher_invalid (hv : ¬datesValid (fun s => d.date (.str s)) f.startDate f.endDate = true) :
    (f.query d).matcher d = none := by
  rw [datesValid, Bool.and_eq_true_iff, not_and_or] at hv
  unfold QueryFilter.matcher
  split
  · rename_i hgte hlte
    obtain hs | he := hv
    · have hnone := dateCondition_invalid hs fun t b => decide (b ≤ t)
      simp only [RewardRequestFilterDto.query] at hgte
      rw [hnone] at hgte
      cases hgte
    · have hnone := dateCondition_invalid he fun t b => decide (t ≤ b)
      simp only [RewardRequestFilterDto.query] at hlte
      rw [hnone] at hlte
      cases hlte
  · rfl

theorem pageLimit_ne_zero (f : RewardRequestFilterDto) : f.pageLimit ≠ 0 := by
  unfold RewardRequestFilterDto.pageLimit RewardRequestFilterDto.orDefault
  by_cases h : f.limit.getD 0 = 0 <;> simp [h]

@[simp] theorem atPage_pageNumber (f : RewardRequestFilterDto) (k : Nat) :
    (f.atPage k).pageNumber = k + 1 := by
  simp [RewardRequestFilterDto.pageNumber, RewardRequestFilterDto.orDefault,
    RewardRequestFilterDto.atPage]
  omega

theorem skipCount_int (co : Coercions) (p l : Int) :
    skipCount co (.num p) (.num l) = some (((p - 1) * l : Int) : Rat) := by
  simp [skipCount, co.toNumber_num]

theorem pageCount_int (co : Coercions) (total : Nat) {l : Int} (hl : l ≠ 0) :
    pageCount co total (.num l) = some ⌈(total : Rat) / l⌉ := by
  simp [pageCount, co.toNumber_num, hl]

end Filter

section Answers
variable {K : Type} [LinearOrder K] {d : Driver} {co : Coercions} {s : Sorting K}
  {f : RewardRequestFilterDto} {requests : List RewardRequest}

theorem cursor_eq (o : s.Ties) :
    f.toFilter.cursor (d.ordering s o) co = if s.sortable f.sortField then
      (d.window (some (((f.pageNumber - 1) * f.pageLimit : Int) : Rat)) (.num f.pageLimit)).map
        fun window xs => window ((o f.sortField f.ascending).list xs) else none := by
  have hpage : orNumber f.toFilter.page 1 = .num (f.pageNumber : Int) := orNumber_int f.page 1
  have hlimit : orNumber f.toFilter.limit 10 = .num (f.pageLimit : Int) := orNumber_int f.limit 10
  unfold RewardRequestFilter.cursor
  rw [sortField_eq, ascending_eq, Driver.ordering_sort, hpage, hlimit, skipCount_int]
  have hwindow : (d.ordering s o).window = d.window := rfl
  rw [hwindow]
  by_cases hs : s.sortable f.sortField = true <;> simp [hs]

theorem findAll_valid (hd : d.Documented) (o : s.Ties)
    (hv : datesValid (fun t => d.date (.str t)) f.startDate f.endDate = true)
    (hs : s.sortable f.sortField = true) {window : List RewardRequest → List RewardRequest}
    (hw : d.window (some (((f.pageNumber - 1) * f.pageLimit : Int) : Rat)) (.num f.pageLimit) =
      some window) :
    findAll (d.ordering s o) co requests f.toFilter = .ok {
      items := window ((o f.sortField f.ascending).list (requests.filter (f.selects d)))
      total := (requests.filter (f.selects d)).length
      page := .num (f.pageNumber : Int)
      limit := .num (f.pageLimit : Int)
      pages := some ⌈((requests.filter (f.selects d)).length : Rat) / f.pageLimit⌉ } := by
  have hm : (f.query (d.ordering s o)).matcher (d.ordering s o) =
      some (f.selects (d.ordering s o)) := matcher_valid (hd.ordering s o) hv
  have hpage : orNumber f.toFilter.page 1 = .num (f.pageNumber : Int) := orNumber_int f.page 1
  have hlimit : orNumber f.toFilter.limit 10 = .num (f.pageLimit : Int) := orNumber_int f.limit 10
  rw [findAll, queryFilter_eq (hd.ordering s o), hpage, hlimit]
  simp only [hm, cursor_eq, hs, if_true, hw, Option.map_some,
    pageCount_int co _ (pageLimit_ne_zero f)]
  rfl

/-- Nothing is listed for an impossible date, a field that cannot be sorted by or
numbers that are no skip and limit. -/
theorem findAll_listed (hd : d.Documented) {o : s.Ties} {p : PaginatedRewardRequests}
    (h : findAll (d.ordering s o) co requests f.toFilter = .ok p) :
    datesValid (fun t => d.date (.str t)) f.startDate f.endDate = true ∧
      s.sortable f.sortField = true ∧
      (d.window (some (((f.pageNumber - 1) * f.pageLimit : Int) : Rat))
        (.num f.pageLimit)).isSome := by
  rw [findAll, queryFilter_eq (hd.ordering s o)] at h
  simp only [cursor_eq] at h
  by_cases hv : datesValid (fun t => d.date (.str t)) f.startDate f.endDate = true
  · by_cases hs : s.sortable f.sortField = true
    · cases hw : d.window (some (((f.pageNumber - 1) * f.pageLimit : Int) : Rat))
          (.num f.pageLimit) with
      | some window => exact ⟨hv, hs, rfl⟩
      | none =>
        simp only [hw, hs, if_true, Option.map_none] at h
        split at h <;> simp_all
    · simp only [hs] at h
      split at h <;> simp_all
  · have hm : (f.query (d.ordering s o)).matcher (d.ordering s o) = none := matcher_invalid hv
    simp only [hm] at h
    cases h

/-- A page as the caller reads it. -/
def PaginatedRewardRequests.asPage (co : Coercions) (p : PaginatedRewardRequests) :
    Paging.Page RewardRequest :=
  ⟨p.items, p.total, (co.toNumber (some p.limit)).getD 0, p.pages⟩

/-- A limit that is taken at all is taken with every skip that is less than `2 ^ 63`: with a limit
of more there is the first page alone. -/
theorem window_atPage (hd : d.Documented) {limit k : Nat} (hlimit : 0 < limit)
    (htakes : d.takesLimit limit = true) (hk : k * limit < 2 ^ 63) :
    d.window (some (((k : Int) * limit : Int) : Rat)) (.num ((limit : Int) : Rat)) =
      some (Paging.window limit k) := by
  have hcuts := hd.window (k * limit) limit (by omega)
  rw [← Paging.slice_eq_window]
  refine hcuts.eq_slice ?_
  cases k with
  | zero =>
    rw [Nat.cast_zero, zero_mul]
    exact htakes
  | succ k =>
    have hle : limit ≤ (k + 1) * limit := Nat.le_mul_of_pos_left limit (Nat.succ_pos k)
    exact hcuts.taken (by positivity) (by exact_mod_cast hk) (by omega)

theorem findAll_atPage (hd : d.Documented) (o : s.Ties)
    (hv : datesValid (fun t => d.date (.str t)) f.startDate f.endDate = true)
    (hs : s.sortable f.sortField = true) (hl : 1 ≤ f.pageLimit)
    (htakes : d.takesLimit f.pageLimit = true) {k : Nat} (hk : k * f.pageLimit.toNat < 2 ^ 63) :
    (findAll (d.ordering s o) co requests (f.atPage k).toFilter).toOption.map
        (PaginatedRewardRequests.asPage co) =
      some (Paging.pageOf (requests.filter (f.selects d)) f.pageLimit.toNat k
        ((o f.sortField f.ascending).list (requests.filter (f.selects d)))) := by
  have hlimit : ((f.pageLimit.toNat : Nat) : Int) = f.pageLimit := Int.toNat_of_nonneg (by omega)
  have hrat : ((f.pageLimit.toNat : Nat) : Rat) = f.pageLimit := by exact_mod_cast hlimit
  have hwindow := window_atPage hd (by omega) (by rwa [hlimit]) hk
  rw [hlimit] at hwindow
  have hpage : ((f.atPage k).pageNumber - 1) * (f.atPage k).pageLimit = k * f.pageLimit := by
    rw [atPage_pageNumber, add_sub_cancel_right]
    rfl
  rw [findAll_valid (f := f.atPage k) hd o hv hs (by rw [hpage]; exact hwindow)]
  simp only [Except.toOption, Option.map_some, PaginatedRewardRequests.asPage, co.toNumber_num,
    Option.getD_some, Paging.pageOf, hrat]
  rfl

/-- Reading all pages shows every selected request once and in order, whatever each
query does with ties; the skip of the page asked for is none below zero, and every
page keeps its bounds. -/
def PagesRight (d : Driver) (s : Sorting K) (co : Coercions) (requests : List RewardRequest)
    (f : RewardRequestFilterDto) : Prop :=
  (∀ o : Nat → s.Ties,
    Paging.ReadsAll (s.key f.sortField f.ascending) (Paging.InOrder f.ascending)
      (requests.filter (f.selects d)) fun k =>
        (findAll (d.ordering s (o k)) co requests (f.atPage k).toFilter).toOption.map
          (PaginatedRewardRequests.asPage co)) ∧
  (∃ skip, skipCount co (orNumber f.toFilter.page 1) (orNumber f.toFilter.limit 10) = some skip ∧
    0 ≤ skip) ∧
  ∀ (page : Option Int) o p,
    findAll (d.ordering s o) co requests { f with page := page }.toFilter = .ok p →
      (p.asPage co).Bounded

/-- What the first page tells: the query is accepted and the limit is a positive one. -/
theorem PagesRight.accepted (hd : d.Documented) (h : PagesRight d s co requests f) :
    datesValid (fun t => d.date (.str t)) f.startDate f.endDate = true ∧
      s.sortable f.sortField = true ∧ 1 ≤ f.pageLimit ∧ d.takesLimit f.pageLimit = true := by
  let o : s.Ties := fun _ _ => Paging.Order.sorted _ _
  obtain ⟨n, hn, -⟩ := h.1 fun _ => o
  obtain ⟨p, hp, -⟩ := hn 0 (.inl rfl)
  obtain ⟨answer, hanswer, rfl⟩ := Option.map_eq_some_iff.mp hp
  have hok : findAll (d.ordering s o) co requests (f.atPage 0).toFilter = .ok answer := by
    cases hf : findAll (d.ordering s o) co requests (f.atPage 0).toFilter with
    | error e => simp [hf, Except.toOption] at hanswer
    | ok a => simpa [hf, Except.toOption] using hanswer
  obtain ⟨hv, hs, hcut⟩ := findAll_listed hd hok
  have hbounded := h.2.2 (some ((0 : Nat) + 1)) o answer hok
  have hne := pageLimit_ne_zero f
  have hnonneg : (0 : Rat) ≤ (answer.asPage co).limit :=
    le_trans (Nat.cast_nonneg _) hbounded.1
  obtain ⟨window, hw⟩ := Option.isSome_iff_exists.mp hcut
  rw [findAll_valid (f := f.atPage 0) hd o hv hs hw] at hok
  cases hok
  have hl : 0 ≤ (f.atPage 0).pageLimit := by
    simpa [PaginatedRewardRequests.asPage, co.toNumber_num] using hnonneg
  change 0 ≤ f.pageLimit at hl
  have hskip : ((f.atPage 0).pageNumber - 1) * (f.atPage 0).pageLimit = 0 := by
    rw [atPage_pageNumber, Nat.cast_zero, zero_add, sub_self, zero_mul]
  rw [hskip] at hcut
  exact ⟨hv, hs, by omega, hcut⟩

end Answers

def Driver.mongo : Driver where
  objectId
    | .str s => if isMongoId s then some s.toLower else none
    | _ => none
  castString
    | .str s => some fun t => decide (t = s)
    | _ => none
  date _ := some 0
  sort _ _ := some fun xs => xs
  window n m := n.bind fun skip =>
    match m with
    | .num limit => Paging.cut skip.floor limit.floor
    | _ => none
  mem_sort _ _ f xs r hf hr := by
    cases hf
    exact hr
  mem_window n m f xs r hf hr := by
    obtain ⟨skip, -, hf⟩ := Option.bind_eq_some_iff.mp hf
    cases m with
    | num limit =>
      rw [(Paging.cuts_cut _ _).shows f hf] at hr
      exact Paging.mem_of_mem_slice hr
    | _ => cases hf

def EventDriver.mongo : EventDriver := ⟨fun _ => some 0, id, Paging.cut⟩

def requestAt (id : String) (createdAt : Int) : RewardRequest :=
  ⟨id, "alice", "e1", .APPROVED, none, .null, 0, "system", createdAt, createdAt⟩

def eventAt (id : String) (createdAt : Int) : EventDocument where
  id := id
  event := {
    name := some id, description := none, type := some .LOGIN, condition := none
    startDate := 0, endDate := 1, status := some .ACTIVE, createdBy := none }
  createdAt := createdAt

end MsaTuto
