import Mathlib.Data.Rat.Floor
import MsaTuto.Event

/-! Reward requests of the game-event server: `reward-request.schema.ts`, the filter
DTO, and `findAll`/`findByUserId` of `reward-request.service.ts`. -/
namespace MsaTuto
open Js

inductive RequestStatus where
  | PENDING | APPROVED | REJECTED | FAILED
  deriving DecidableEq, Repr

def RequestStatus.value : RequestStatus → String
  | .PENDING => "PENDING"
  | .APPROVED => "APPROVED"
  | .REJECTED => "REJECTED"
  | .FAILED => "FAILED"

structure RewardRequest where
  id : String
  userId : String
  eventId : String
  status : RequestStatus
  reason : Option String
  metadata : Json
  processedAt : Int
  processedBy : String
  createdAt : Int
  updatedAt : Int

structure RewardRequestFilter where
  userId : Value := none
  eventId : Value := none
  status : Value := none
  startDate : Value := none
  endDate : Value := none
  page : Value := none
  limit : Value := none
  sortBy : Value := none
  sortOrder : Value := none

/-- What MongoDB, Mongoose and `Date` contribute to a listing. -/
structure Driver where
  /-- `new Types.ObjectId(v)`; `none` when it throws. -/
  objectId : Json → Option String
  /-- A condition on a `String` path, cast by Mongoose; `none` is a CastError. -/
  castString : Json → Option (String → Bool)
  date : Json → JsDate
  /-- `.sort({ [key]: 1 | -1 })`, ascending when the flag is set; `none` when the key is
  refused. -/
  sort : Json → Bool → Option (List RewardRequest → List RewardRequest)
  /-- `.skip(n).limit(m)`; `none` when the values are refused. `NaN` is `none` in `n`. -/
  window : Option Rat → Json → Option (List RewardRequest → List RewardRequest)
  mem_sort : ∀ key asc f xs r, sort key asc = some f → r ∈ f xs → r ∈ xs
  mem_window : ∀ n m f xs r, window n m = some f → r ∈ f xs → r ∈ xs

structure QueryFilter where
  userId : Value := none
  eventId : Option String := none
  status : Value := none
  gte : Option JsDate := none
  lte : Option JsDate := none

structure PaginatedRewardRequests where
  items : List RewardRequest
  total : Nat
  page : Json
  limit : Json
  /-- `Math.ceil(total / limit)`; `none` when the quotient is not finite. -/
  pages : Option Int

def whenTruthy (v : Value) : Value := if truthy v then v else none

def RewardRequestFilter.queryFilter (d : Driver) (f : RewardRequestFilter) :
    Except Failure QueryFilter :=
  let base : QueryFilter :=
    { userId := whenTruthy f.userId, status := whenTruthy f.status
      gte := (whenTruthy f.startDate).map d.date, lte := (whenTruthy f.endDate).map d.date }
  match whenTruthy f.eventId with
  | none => .ok base
  | some v =>
    match d.objectId v with
    | some id => .ok { base with eventId := some id }
    | none => .error (.native "BSONError")

def Driver.condition (d : Driver) : Value → Option (String → Bool)
  | none => some fun _ => true
  | some v => d.castString v

/-- One bound on `createdAt`; an invalid date is a CastError. -/
def dateCondition (holds : Int → Int → Bool) : Option JsDate → Option (Int → Bool)
  | none => some fun _ => true
  | some (some bound) => some fun t => holds t bound
  | some none => none

/-- The documents a filter selects; `none` when it cannot be cast. -/
def QueryFilter.matcher (d : Driver) (q : QueryFilter) : Option (RewardRequest → Bool) :=
  match d.condition q.userId, d.condition q.status,
      dateCondition (fun t b => decide (b ≤ t)) q.gte,
      dateCondition (fun t b => decide (t ≤ b)) q.lte with
  | some user, some status, some gte, some lte =>
    some fun r => user r.userId && (q.eventId.all fun id => decide (id = r.eventId)) &&
      status r.status.value && gte r.createdAt && lte r.createdAt
  | _, _, _, _ => none

def orNumber (v : Value) (n : Rat) : Json := (orElse v (some (.num n))).getD (.num n)

def pageCount (co : Coercions) (total : Nat) (limit : Json) : Option Int :=
  match co.toNumber (some limit) with
  | some l => if l = 0 then none else some ⌈(total : Rat) / l⌉
  | none => none

def skipCount (co : Coercions) (page limit : Json) : Option Rat :=
  match co.toNumber (some page), co.toNumber (some limit) with
  | some p, some l => some ((p - 1) * l)
  | _, _ => none

def isAscending : Value → Bool
  | some (.str s) => s = "asc"
  | _ => false

def castError : Failure := .native "CastError"

def RewardRequestFilter.cursor (d : Driver) (co : Coercions) (f : RewardRequestFilter) :
    Option (List RewardRequest → List RewardRequest) :=
  (d.sort ((orElse f.sortBy (some (.str "createdAt"))).getD (.str "createdAt"))
      (isAscending f.sortOrder)).bind fun sort =>
    (d.window (skipCount co (orNumber f.page 1) (orNumber f.limit 10)) (orNumber f.limit 10)).map
      fun window xs => window (sort xs)

def findAll (d : Driver) (co : Coercions) (requests : List RewardRequest)
    (f : RewardRequestFilter) : Except Failure PaginatedRewardRequests :=
  match f.queryFilter d with
  | .error e => .error e
  | .ok q =>
    match q.matcher d, f.cursor d co with
    | some m, some cursor => .ok {
        items := cursor (requests.filter m)
        total := (requests.filter m).length
        page := orNumber f.page 1
        limit := orNumber f.limit 10
        pages := pageCount co (requests.filter m).length (orNumber f.limit 10) }
    | _, _ => .error castError

/-- `{ ...filter, userId }`: the caller's id overrides the query's, also when undefined. -/
def findByUserId (d : Driver) (co : Coercions) (requests : List RewardRequest) (userId : Value)
    (f : RewardRequestFilter) : Except Failure PaginatedRewardRequests :=
  findAll d co requests { f with userId := userId }

theorem mem_cursor {d : Driver} {co : Coercions} {f : RewardRequestFilter}
    {cursor : List RewardRequest → List RewardRequest} (h : f.cursor d co = some cursor)
    {xs : List RewardRequest} {r : RewardRequest} (hr : r ∈ cursor xs) : r ∈ xs := by
  unfold RewardRequestFilter.cursor at h
  obtain ⟨sort, hs, h⟩ := Option.bind_eq_some_iff.mp h
  obtain ⟨window, hw, rfl⟩ := Option.map_eq_some_iff.mp h
  exact d.mem_sort _ _ _ _ _ hs (d.mem_window _ _ _ _ _ hw hr)

end MsaTuto
