import MsaTuto.Caller
import MsaTuto.RewardRequest

/-! `GET event-requests/reward-requests/history`: what a caller gets to see of the
reward requests of others. -/
namespace MsaTuto
open Js

/-- `EventRequestHttpController.getMyRequests`, with the raw query object: its
parameter type is erased to `Object`, which the validation pipe passes through. -/
def getMyRequests (d : Driver) (co : Coercions) (requests : List RewardRequest) (payload : Json)
    (query : RewardRequestFilter) : Except Failure PaginatedRewardRequests :=
  findByUserId d co requests (userDecorator "id" (some (gameJwtValidate payload))) query

def own (payload : Json) (r : RewardRequest) : Bool := decide (subject payload = some r.userId)

/-- The caller sees own requests only, and gets the same answer from the own
requests alone: items, total and pages do not depend on anyone else's. -/
def Isolated (d : Driver) (co : Coercions) (requests : List RewardRequest) (payload : Json)
    (query : RewardRequestFilter) : Prop :=
  (∀ page, getMyRequests d co requests payload query = .ok page →
    ∀ r ∈ page.items, own payload r = true) ∧
  getMyRequests d co requests payload query =
    getMyRequests d co (requests.filter (own payload)) payload query

/-- The requests that the query's own `eventId`, `status`, `startDate` and `endDate`
select; `none` when one of them cannot be cast. -/
def RewardRequestFilter.selects (d : Driver) (query : RewardRequestFilter) :
    Option (RewardRequest → Bool) :=
  match { query with userId := none }.queryFilter d with
  | .ok q => q.matcher d
  | .error _ => none

theorem getMyRequests_eq (d : Driver) (co : Coercions) (requests : List RewardRequest)
    (payload : Json) (query : RewardRequestFilter) :
    getMyRequests d co requests payload query =
      findAll d co requests { query with userId := none } := by
  simp only [getMyRequests, findByUserId, user_field_id]

theorem getMyRequests_answered {d : Driver} {co : Coercions} {query : RewardRequestFilter}
    {m : RewardRequest → Bool} {cursor : List RewardRequest → List RewardRequest}
    (hm : query.selects d = some m) (hc : query.cursor d co = some cursor)
    (requests : List RewardRequest) (payload : Json) :
    getMyRequests d co requests payload query = .ok {
      items := cursor (requests.filter m)
      total := (requests.filter m).length
      page := orNumber query.page 1
      limit := orNumber query.limit 10
      pages := pageCount co (requests.filter m).length (orNumber query.limit 10) } := by
  have hc' : { query with userId := none }.cursor d co = some cursor := hc
  rw [getMyRequests_eq, findAll]
  unfold RewardRequestFilter.selects at hm
  split at hm
  next q hq => simp only [hq, hm, hc']
  next => cases hm

theorem getMyRequests_refused {d : Driver} {co : Coercions} {query : RewardRequestFilter}
    (h : query.selects d = none ∨ query.cursor d co = none) (payload : Json) :
    ∃ e, ∀ requests, getMyRequests d co requests payload query = .error e := by
  have hc' : { query with userId := none }.cursor d co = query.cursor d co := rfl
  unfold RewardRequestFilter.selects at h
  cases hq : { query with userId := none }.queryFilter d with
  | error e => exact ⟨e, fun requests => by rw [getMyRequests_eq, findAll, hq]⟩
  | ok q =>
    refine ⟨castError, fun requests => ?_⟩
    rw [getMyRequests_eq, findAll, hq]
    simp only [hq] at h
    obtain h | h := h
    · simp only [h]
    · simp only [hc', h]
      split <;> simp_all

section Isolation
variable {d : Driver} {co : Coercions} {requests : List RewardRequest} {payload : Json}
  {query : RewardRequestFilter} {m : RewardRequest → Bool}
  {cursor : List RewardRequest → List RewardRequest}

theorem isolated_of_refused (h : query.selects d = none ∨ query.cursor d co = none) :
    Isolated d co requests payload query := by
  obtain ⟨e, he⟩ := getMyRequests_refused h payload
  refine ⟨?_, by rw [he, he]⟩
  intro page hp
  rw [he] at hp
  cases hp

theorem isolated_of_own (hm : query.selects d = some m) (hc : query.cursor d co = some cursor)
    (hown : ∀ r ∈ requests, m r = true → own payload r = true) :
    Isolated d co requests payload query := by
  have hfilter : (requests.filter (own payload)).filter m = requests.filter m := by
    rw [List.filter_filter]
    refine List.filter_congr fun r hr => ?_
    cases hmr : m r with
    | false => simp
    | true => simp [hown r hr hmr]
  constructor
  · intro page hp r hr
    rw [getMyRequests_answered hm hc] at hp
    cases hp
    have hmem := List.mem_filter.mp (mem_cursor hc hr)
    exact hown r hmem.1 hmem.2
  · rw [getMyRequests_answered hm hc, getMyRequests_answered hm hc, hfilter]

/-- Another's request that the query selects shows in the total. -/
theorem own_of_isolated (hm : query.selects d = some m) (hc : query.cursor d co = some cursor)
    (h : Isolated d co requests payload query) {r : RewardRequest} (hr : r ∈ requests)
    (hmr : m r = true) : own payload r = true := by
  have hsame := h.2
  rw [getMyRequests_answered hm hc, getMyRequests_answered hm hc] at hsame
  have htotal : (requests.filter m).length =
      ((requests.filter m).filter (own payload)).length := by
    have h := congrArg PaginatedRewardRequests.total (Except.ok.inj hsame)
    simpa only [List.filter_filter, Bool.and_comm] using h
  have hall := List.length_filter_eq_length_iff.mp htotal.symm
  exact hall r (List.mem_filter.mpr ⟨hr, hmr⟩)

end Isolation

/-- The history is isolated exactly when no request of another user meets the
query's own conditions: the caller's id never becomes one of them. -/
theorem history_isolated_iff (d : Driver) (co : Coercions) (requests : List RewardRequest)
    (payload : Json) (query : RewardRequestFilter) :
    Isolated d co requests payload query ↔
      ∀ m, query.selects d = some m → (query.cursor d co).isSome →
        ∀ r ∈ requests, m r = true → subject payload = some r.userId := by
  constructor
  · intro h m hm hcur r hr hmr
    obtain ⟨cursor, hc⟩ := Option.isSome_iff_exists.mp hcur
    have hown := own_of_isolated hm hc h hr hmr
    simpa [own] using hown
  · intro h
    by_cases hans : query.selects d = none ∨ query.cursor d co = none
    · exact isolated_of_refused hans
    · obtain ⟨hm, hc⟩ := not_or.mp hans
      obtain ⟨m, hm⟩ := Option.ne_none_iff_exists'.mp hm
      obtain ⟨cursor, hc⟩ := Option.ne_none_iff_exists'.mp hc
      have hown : ∀ r ∈ requests, m r = true → own payload r = true := by
        intro r hr hmr
        simpa [own] using h m hm (by simp [hc]) r hr hmr
      exact isolated_of_own hm hc hown

def Driver.plain : Driver where
  objectId
    | .str s => some s
    | _ => none
  castString
    | .str s => some fun t => decide (t = s)
    | _ => none
  date
    | .num q => some q.floor
    | _ => none
  sort _ _ := some id
  window n m :=
    match n, m with
    | some skip, .num limit => some fun xs => (xs.drop skip.floor.toNat).take limit.floor.toNat
    | _, _ => none
  mem_sort _ _ f xs r hf hr := by
    cases hf
    exact hr
  mem_window n m f xs r hf hr := by
    split at hf
    · cases hf
      exact List.mem_of_mem_drop (List.mem_of_mem_take hr)
    · cases hf

def sampleRequest (userId : String) : RewardRequest :=
  ⟨"r1", userId, "e1", .APPROVED, none, .null, 0, "system", 0, 0⟩

/-- Alice asks for her history, with an empty query, and is shown Bob's request. -/
theorem history_leaks : ¬Isolated Driver.plain Coercions.plain [sampleRequest "bob"]
    (literal [("sub", some (.str "alice"))]) {} := by
  intro h
  have hshown := h.1 _ (getMyRequests_answered (m := fun _ => true) rfl rfl _ _)
    (sampleRequest "bob") (by norm_num [Driver.plain, Rat.floor]; exact List.Mem.head _)
  exact absurd hshown (by decide)

end MsaTuto
