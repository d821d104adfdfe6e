import MsaTuto.Paging
import MsaTuto.RewardRequest

/-! The list of events: `pagination.dto.ts`, `event-filter.dto.ts` and `findAll` of
`event.service.ts`. -/
namespace MsaTuto

structure EventDocument where
  id : String
  event : Event
  createdAt : Int

/-- What the validation pipe lets through; the defaults are those of the class. -/
structure PaginationDto where
  page : Int := 1
  limit : Int := 10
  page_min : 1 ≤ page := by decide
  limit_min : 1 ≤ limit := by decide
  limit_max : limit ≤ 100 := by decide

structure EventFilterDto extends PaginationDto where
  status : Option EventStatus := none
  type : Option EventType := none
  startDate : Option String := none
  endDate : Option String := none
  includeDeleted : Bool := false

structure PaginatedResponseDto where
  items : List EventDocument
  total : Nat
  page : Int
  limit : Int
  pages : Int

def PaginatedResponseDto.new (items : List EventDocument) (total : Nat) (page limit : Int) :
    PaginatedResponseDto :=
  ⟨items, total, page, limit, ⌈(total : Rat) / limit⌉⟩

/-- What MongoDB and `Date` contribute to the list. -/
structure EventDriver where
  date : String → JsDate
  /-- `.sort({ createdAt: -1 })`. -/
  sort : List EventDocument → List EventDocument
  /-- `.skip(n).limit(m)`; `none` when the values are refused. -/
  window : Int → Int → Option (List EventDocument → List EventDocument)

structure EventDriver.Documented (d : EventDriver) : Prop where
  window : ∀ n m, m ≠ 0 → Paging.Cuts n m (d.window n m)

/-- An empty string is no condition. -/
def given (v : Option String) : Option String := v.filter fun s => s ≠ ""

/-- The dates that are given are dates. -/
def datesValid (date : String → JsDate) (startDate endDate : Option String) : Bool :=
  ((given startDate).all fun s => (date s).isSome) && (given endDate).all fun s => (date s).isSome

def givenDate (date : String → JsDate) (v : Option String) (holds : Int → Bool) : Bool :=
  (given v).all fun s => (date s).all holds

theorem dateCondition_valid {date : String → JsDate} {v : Option String}
    (h : ((given v).all fun s => (date s).isSome) = true) (holds : Int → Int → Bool) :
    dateCondition holds ((given v).map date) = some fun t => givenDate date v (holds t) := by
  unfold givenDate
  cases hv : given v with
  | none => rfl
  | some s =>
    rw [hv] at h
    cases hs : date s with
    | none => simp [hs] at h
    | some b => simp [dateCondition, hs]

theorem dateCondition_invalid {date : String → JsDate} {v : Option String}
    (h : ¬((given v).all fun s => (date s).isSome) = true) (holds : Int → Int → Bool) :
    dateCondition holds ((given v).map date) = none := by
  cases hv : given v with
  | none => simp [hv] at h
  | some s =>
    rw [hv] at h
    cases hs : date s with
    | none => simp [dateCondition, hs]
    | some b => simp [hs] at h

namespace EventService

/-- The documents a filter selects; `none` when a date cannot be cast. -/
def filter (date : String → JsDate) (dto : EventFilterDto) : Option (EventDocument → Bool) :=
  match dateCondition (fun t b => decide (b ≤ t)) ((given dto.startDate).map date),
      dateCondition (fun t b => decide (t ≤ b)) ((given dto.endDate).map date) with
  | some gte, some lte =>
    some fun e => (dto.includeDeleted || e.event.deletedAt.isNone) &&
      (dto.status.all fun s => decide (e.event.status = some s)) &&
      (dto.type.all fun t => decide (e.event.type = some t)) &&
      gte e.event.startDate && lte e.event.endDate
  | _, _ => none

def skip (dto : PaginationDto) : Int := (dto.page - 1) * dto.limit

def findAll (d : EventDriver) (events : List EventDocument) (dto : EventFilterDto) :
    Except Failure PaginatedResponseDto :=
  match filter d.date dto, d.window (skip dto.toPaginationDto) dto.limit with
  | some m, some window =>
    .ok (.new (window (d.sort (events.filter m))) (events.filter m).length dto.page dto.limit)
  | _, _ => .error castError

end EventService

/-- The events a list is meant to show. -/
def EventFilterDto.selects (date : String → JsDate) (dto : EventFilterDto)
    (e : EventDocument) : Bool :=
  (dto.includeDeleted || e.event.deletedAt.isNone) &&
    (dto.status.all fun s => decide (e.event.status = some s)) &&
    (dto.type.all fun t => decide (e.event.type = some t)) &&
    givenDate date dto.startDate (fun b => decide (b ≤ e.event.startDate)) &&
    givenDate date dto.endDate (fun b => decide (e.event.endDate ≤ b))

theorem EventService.filter_valid {date : String → JsDate} {dto : EventFilterDto}
    (h : datesValid date dto.startDate dto.endDate = true) :
    EventService.filter date dto = some (dto.selects date) := by
  obtain ⟨hs, he⟩ := Bool.and_eq_true_iff.mp h
  rw [EventService.filter, dateCondition_valid hs, dateCondition_valid he]
  rfl

def PaginatedResponseDto.asPage (p : PaginatedResponseDto) : Paging.Page EventDocument :=
  ⟨p.items, p.total, p.limit, some p.pages⟩

/-- The driver of one query: newest first, and ties as the query pleases. -/
def EventDriver.ordering (d : EventDriver)
    (o : Paging.Order EventDocument.createdAt (Paging.InOrder false)) : EventDriver :=
  { d with sort := o.list }

theorem EventDriver.Documented.ordering {d : EventDriver} (hd : d.Documented)
    (o : Paging.Order EventDocument.createdAt (Paging.InOrder false)) :
    (d.ordering o).Documented := ⟨hd.window⟩

def EventFilterDto.atPage (dto : EventFilterDto) (k : Nat) : EventFilterDto :=
  { dto with page := k + 1, page_min := by omega }

namespace EventService

/-- Reading all pages shows every selected event once, newest first, and the page that
was asked for keeps its bounds, however each query orders events of one instant. -/
def PagesRight (d : EventDriver) (events : List EventDocument) (dto : EventFilterDto) : Prop :=
  (∀ o : Nat → Paging.Order EventDocument.createdAt (Paging.InOrder false),
    Paging.ReadsAll EventDocument.createdAt (Paging.InOrder false)
      (events.filter (dto.selects d.date)) fun k =>
        (findAll (d.ordering (o k)) events (dto.atPage k)).toOption.map
          PaginatedResponseDto.asPage) ∧
  0 ≤ skip dto.toPaginationDto ∧
  ∀ o p, findAll (d.ordering o) events dto = .ok p → p.asPage.Bounded

variable {d : EventDriver} {events : List EventDocument} {dto : EventFilterDto}

theorem findAll_ok {m : EventDocument → Bool} {window : List EventDocument → List EventDocument}
    (hm : filter d.date dto = some m)
    (hw : d.window (skip dto.toPaginationDto) dto.limit = some window) :
    findAll d events dto = .ok (.new (window (d.sort (events.filter m)))
      (events.filter m).length dto.page dto.limit) := by
  simp only [findAll, hm, hw]

theorem limit_toNat (dto : PaginationDto) : ((dto.limit.toNat : Nat) : Int) = dto.limit :=
  Int.toNat_of_nonneg (le_trans (by decide) dto.limit_min)

theorem window_atPage (hd : d.Documented) {k : Nat} (hk : k * dto.limit.toNat < 2 ^ 63) :
    d.window (skip (dto.atPage k).toPaginationDto) (dto.atPage k).limit =
      some (Paging.window dto.limit.toNat k) := by
  have hmin := dto.limit_min
  have hmax := dto.limit_max
  have hlimit := limit_toNat dto.toPaginationDto
  have hskip : skip (dto.atPage k).toPaginationDto = (k : Int) * dto.limit.toNat := by
    rw [hlimit]
    simp [skip, EventFilterDto.atPage]
  have hnonneg : (0 : Int) ≤ k * dto.limit.toNat := by positivity
  have hsmall : (k : Int) * dto.limit.toNat < 2 ^ 63 := by exact_mod_cast hk
  have hcuts := hd.window (k * dto.limit.toNat) dto.limit (by omega)
  have hwindow := hcuts.eq_slice (hcuts.taken hnonneg hsmall (by omega))
  rw [hskip]
  refine hwindow.trans ?_
  rw [← Paging.slice_eq_window, hlimit]

theorem findAll_atPage (hd : d.Documented)
    (hv : datesValid d.date dto.startDate dto.endDate = true) {k : Nat}
    (hk : k * dto.limit.toNat < 2 ^ 63)
    (o : Paging.Order EventDocument.createdAt (Paging.InOrder false)) :
    (findAll (d.ordering o) events (dto.atPage k)).toOption.map PaginatedResponseDto.asPage =
      some (Paging.pageOf (events.filter (dto.selects d.date)) dto.limit.toNat k
        (o.list (events.filter (dto.selects d.date)))) := by
  have hfilter : filter (d.ordering o).date (dto.atPage k) = some (dto.selects d.date) :=
    filter_valid hv
  have hlimit : ((dto.limit.toNat : Nat) : Rat) = dto.limit := by
    exact_mod_cast limit_toNat dto.toPaginationDto
  rw [findAll_ok hfilter (window_atPage (hd.ordering o) hk)]
  simp only [Except.toOption, Option.map_some, PaginatedResponseDto.asPage,
    PaginatedResponseDto.new, Paging.pageOf, hlimit]
  rfl

end EventService
end MsaTuto
