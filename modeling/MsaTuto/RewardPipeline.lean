import MsaTuto.Approvals
import MsaTuto.RewardMessages

/-! The reward requests end to end: HTTP requests at the gateway, their messages in the queue,
the handler's calls at the game-event server, and the operators' calls beside them. -/
namespace MsaTuto
open Js Runs RewardRequestService GatewayService

/-- The HTTP requests and operators' calls there are. The `n`-th time that the broker delivers the
message of the request `i` is the call `(i, n)`: the broker may deliver any message that was
published, in any order and again, and the copies that a retry publishes carry the same text. -/
structure RewardPipeline (ι μ : Type*) where
  env : Env
  config : Env
  co : Coercions
  ids : EventIds Value
  agree : ids.AgreeOnTexts
  parse : String → JsDate
  store : EventStore
  arrival : ι → Arrival
  mutation : μ → Mutation

structure PipelineState (ι μ : Type*) where
  published : List ι
  server : EventServerWorld (ι × Nat) μ

inductive PipelineMove (ι μ : Type*) where
  /-- The gateway handles the request. -/
  | http (i : ι)
  /-- A turn of the `n`-th handling of its message. -/
  | handle (i : ι) (n : Nat) (now : Int) (newId : String)
  | mutate (j : μ) (now : Int)
  | dropKey (key : String) (now : Int)

namespace RewardPipeline
variable {ι μ : Type*}

section Model
variable (p : RewardPipeline ι μ)

def routes : List ProxyRouteConfig := setupRoutes p.env p.config

/-- The call that the handler makes of the message of the request, if there is one. -/
def callOf (i : ι) : Option (RewardCall Value) := (p.arrival i).call p.routes

/-- The game-event server; a message the handler throws at makes no call, and gets no turn. -/
def server : EventBackend (ι × Nat) μ Value where
  co := p.co
  ids := p.ids
  objectId := p.ids.cast
  parse := p.parse
  store := p.store
  call k := (p.callOf k.1).getD ⟨"", none, none⟩
  mutation := p.mutation

variable [DecidableEq ι] [DecidableEq μ]

def step (s : PipelineState ι μ) : PipelineMove ι μ → PipelineState ι μ
  | .http i =>
    if ((p.arrival i).message p.routes).isSome then { s with published := i :: s.published } else s
  | .handle i n now newId =>
    if i ∈ s.published ∧ (p.callOf i).isSome then
      { s with server := p.server.pool.step s.server (.call (i, n) { now := now, newId := newId }) }
    else s
  | .mutate j now => { s with server := p.server.pool.step s.server (.env (.mutate j now)) }
  | .dropKey key now =>
    { s with server := p.server.pool.step s.server (.env (.dropKey key now)) }

def start (s : ConsumerState) : PipelineState ι μ :=
  ⟨[], ⟨s, fun _ => .started⟩, fun _ => .started⟩

def reached (s : ConsumerState) (moves : List (PipelineMove ι μ)) : PipelineState ι μ :=
  run p.step (start s) moves

/-- After the gateway had published the message of the request, the call for it looked its
`eventId` up and found the event, stored, not deleted, active and in its period. -/
def ReadsOpen (s : ConsumerState) (moves : List (PipelineMove ι μ)) (i : ι) (n : Nat)
    (found : String) (e : Event) : Prop :=
  ∃ pre now newId post, moves = pre ++ .handle i n now newId :: post ∧ .http i ∈ pre ∧
    p.ids.select (p.reached s pre).server.shared.consumer.events
      ((p.arrival i).bodyField "eventId") = some (some found) ∧
    (p.reached s pre).server.shared.consumer.events found = some e ∧ OpenAt now e

/-- The request that the call makes of its arguments, on the event it has read. -/
structure Documents (call : RewardCall Value) (e : Event) (r : RewardRequest) : Prop where
  user : r.userId = call.userId
  event : p.ids.objectId call.eventId = some r.eventId
  metadata : r.metadata = (orElse call.metadata (some (.obj []))).getD (.obj [])
  status : r.status = if e.type = some .FRIEND_INVITATION then .APPROVED else .FAILED

/-- What is stored, or about to be, is the document of the call on an event it has read open. -/
def Traced (s : ConsumerState) (moves : List (PipelineMove ι μ)) (i : ι) (n : Nat)
    (r : RewardRequest) : Prop :=
  ∃ call found e, p.callOf i = some call ∧ p.Documents call e r ∧
    p.ReadsOpen s moves i n found e

/-- What the phase of a call tells of the moves that led to it. -/
def Follows (s : ConsumerState) (moves : List (PipelineMove ι μ)) (k : ι × Nat)
    (l : RewardPhase) : Prop :=
  match l with
  | .cacheCheck e _ | .replayLookup e | .lookup e => ∃ call found, p.callOf k.1 = some call ∧
      p.ReadsOpen s moves k.1 k.2 found e
  | .saving doc => p.Traced s moves k.1 k.2 doc
  | _ => True

structure Sound (s : ConsumerState) (moves : List (PipelineMove ι μ)) (st : PipelineState ι μ) :
    Prop where
  published : ∀ i ∈ st.published, .http i ∈ moves
  calls : ∀ k, p.Follows s moves k (st.server.calls k)
  stored : ∀ r ∈ st.server.shared.consumer.requests.items,
    r ∈ s.requests.items ∨ r.userId ≠ "" ∧ ∃ i n, p.Traced s moves i n r

end Model

section Moves
variable (p : RewardPipeline ι μ)

/-- What a move that is no turn of a handling leaves alone. -/
structure Quiet (st : PipelineState ι μ) (t : PipelineMove ι μ) (st' : PipelineState ι μ) :
    Prop where
  published : ∀ i ∈ st'.published, i ∈ st.published ∨ t = .http i
  kept : st.published ⊆ st'.published
  calls : st'.server.calls = st.server.calls
  requests : st'.server.shared.consumer.requests = st.server.shared.consumer.requests

theorem Quiet.refl (st : PipelineState ι μ) (t : PipelineMove ι μ) : Quiet st t st :=
  ⟨fun _ h => .inl h, List.Subset.refl _, rfl, rfl⟩

theorem server_call {i : ι} {call : RewardCall Value} (hcall : p.callOf i = some call) (n : Nat) :
    p.server.call (i, n) = call := by
  simp [server, hcall]

variable [DecidableEq ι]

/-- The `n`-th handling of the message has had a turn. -/
def handled (st : PipelineState ι μ) (i : ι) (n : Nat) (call : RewardCall Value) (m : Moment) :
    PipelineState ι μ :=
  let out := createEventRewardRequest p.co p.ids call m (st.server.calls (i, n))
    st.server.shared.consumer
  ⟨st.published, ⟨{ st.server.shared with consumer := out.2 },
    Function.update st.server.calls (i, n) out.1⟩⟩

variable [DecidableEq μ]

theorem step_handle {st : PipelineState ι μ} {i : ι} {call : RewardCall Value}
    (hi : i ∈ st.published) (hcall : p.callOf i = some call) (n : Nat) (now : Int)
    (newId : String) :
    p.step st (.handle i n now newId) =
      p.handled st i n call { now := now, newId := newId } := by
  have hon : i ∈ st.published ∧ (p.callOf i).isSome := ⟨hi, by rw [hcall]; rfl⟩
  simp only [step, if_pos hon, Pool.step, EventBackend.pool, p.server_call hcall n]
  rfl

theorem step_cases (st : PipelineState ι μ) (t : PipelineMove ι μ) :
    Quiet st t (p.step st t) ∨
    ∃ i n now newId call, t = .handle i n now newId ∧ i ∈ st.published ∧
      p.callOf i = some call ∧
      p.step st t = p.handled st i n call { now := now, newId := newId } := by
  cases t with
  | http i =>
    refine .inl ?_
    simp only [step]
    split
    · refine ⟨fun j hj => ?_, List.subset_cons_self _ _, rfl, rfl⟩
      obtain rfl | hj := List.mem_cons.mp hj
      · exact .inr rfl
      · exact .inl hj
    · exact .refl st _
  | mutate j now => exact .inl ⟨fun _ h => .inl h, List.Subset.refl _, rfl, rfl⟩
  | dropKey key now => exact .inl ⟨fun _ h => .inl h, List.Subset.refl _, rfl, rfl⟩
  | handle i n now newId =>
    by_cases hon : i ∈ st.published ∧ (p.callOf i).isSome
    · obtain ⟨call, hcall⟩ := Option.isSome_iff_exists.mp hon.2
      exact .inr ⟨i, n, now, newId, call, rfl, hon.1, hcall, p.step_handle hon.1 hcall n now newId⟩
    · have hsame : p.step st (.handle i n now newId) = st := by
        simp only [step, if_neg hon]
      rw [hsame]
      exact .inl (.refl st _)

/-- A stored request stays. -/
theorem stored_step {call : RewardCall Value} {r : RewardRequest} (st : PipelineState ι μ)
    (t : PipelineMove ι μ)
    (h : stored p.ids st.server.shared.consumer.requests call = some r) :
    stored p.ids (p.step st t).server.shared.consumer.requests call = some r := by
  obtain hquiet | ⟨i, n, now, newId, call', -, -, -, hstep⟩ := p.step_cases st t
  · rwa [hquiet.requests]
  · rw [hstep]
    exact stored_turn h

theorem fits_step {i : ι} {n : Nat} {call : RewardCall Value} (hcall : p.callOf i = some call)
    (st : PipelineState ι μ) (t : PipelineMove ι μ)
    (h : Fits p.ids call (st.server.calls (i, n)) st.server.shared.consumer) :
    Fits p.ids call ((p.step st t).server.calls (i, n))
      (p.step st t).server.shared.consumer := by
  have hlater := h.of_stored fun r hr => p.stored_step st t hr
  obtain hquiet | ⟨j, m, now, newId, call', -, -, hcall', hstep⟩ := p.step_cases st t
  · rwa [hquiet.calls]
  · by_cases hjm : (i, n) = (j, m)
    · cases hjm
      cases hcall.symm.trans hcall'
      rw [hstep]
      simp only [handled, Function.update_self]
      exact fits_turn h
    · have hother : (p.step st t).server.calls (i, n) = st.server.calls (i, n) := by
        rw [hstep]
        simp only [handled, Function.update_of_ne hjm]
      rwa [hother]

/-- What the phase of a handling says of the stored requests is so. -/
theorem handling_fits {i : ι} {call : RewardCall Value} (hcall : p.callOf i = some call) (n : Nat)
    (s : ConsumerState) (moves : List (PipelineMove ι μ)) :
    Fits p.ids call ((p.reached s moves).server.calls (i, n))
      (p.reached s moves).server.shared.consumer :=
  run_invariant (I := fun st : PipelineState ι μ => Fits p.ids call (st.server.calls (i, n))
    st.server.shared.consumer) (p.fits_step hcall) (s := start s) trivial moves

end Moves

section History
variable {p : RewardPipeline ι μ} [DecidableEq ι] [DecidableEq μ] {s : ConsumerState}
  {moves : List (PipelineMove ι μ)} {i : ι} {n : Nat} {eventId : String} {e : Event}
  {r : RewardRequest}

theorem ReadsOpen.append (h : p.ReadsOpen s moves i n eventId e) (t : PipelineMove ι μ) :
    p.ReadsOpen s (moves ++ [t]) i n eventId e := by
  obtain ⟨pre, now, newId, post, rfl, hread⟩ := h
  exact ⟨pre, now, newId, post ++ [t], by simp, hread⟩

theorem Traced.append (h : p.Traced s moves i n r) (t : PipelineMove ι μ) :
    p.Traced s (moves ++ [t]) i n r := by
  obtain ⟨call, found, e, hcall, hdoc, hread⟩ := h
  exact ⟨call, found, e, hcall, hdoc, hread.append t⟩

theorem Follows.append {k : ι × Nat} {l : RewardPhase} (h : p.Follows s moves k l)
    (t : PipelineMove ι μ) : p.Follows s (moves ++ [t]) k l := by
  have hread : ∀ {e : Event}, (∃ call found, p.callOf k.1 = some call ∧
      p.ReadsOpen s moves k.1 k.2 found e) → ∃ call found, p.callOf k.1 = some call ∧
        p.ReadsOpen s (moves ++ [t]) k.1 k.2 found e := by
    intro e ⟨call, found, hcall, hopen⟩
    exact ⟨call, found, hcall, hopen.append t⟩
  cases l with
  | cacheCheck e correlationId => exact hread h
  | replayLookup e => exact hread h
  | lookup e => exact hread h
  | saving doc => exact Traced.append h t
  | _ => trivial

theorem Traced.stamped (h : p.Traced s moves i n r) (now : Int) :
    p.Traced s moves i n (r.stamped now) := by
  obtain ⟨call, found, e, hcall, ⟨huser, hevent, hmetadata, hstatus⟩, hread⟩ := h
  exact ⟨call, found, e, hcall, ⟨huser, hevent, hmetadata, hstatus⟩, hread⟩

omit [DecidableEq ι] [DecidableEq μ] in
theorem documents_of_newRequest {call : RewardCall Value} {now : Int} {newId : String}
    (h : newRequest p.ids call e { now := now, newId := newId } = .ok r) :
    p.Documents call e r := by
  unfold newRequest at h
  split at h
  · cases h
  next eventId heventId =>
    cases h
    refine ⟨rfl, heventId, rfl, ?_⟩
    simp [validateCondition_eq]

theorem follows_turn {call : RewardCall Value} {l : RewardPhase} (hcall : p.callOf i = some call)
    (hhttp : .http i ∈ moves) (h : p.Follows s moves (i, n) l) (now : Int) (newId : String) :
    p.Follows s (moves ++ [.handle i n now newId]) (i, n)
      (createEventRewardRequest p.co p.ids call { now := now, newId := newId } l
        (p.reached s moves).server.shared.consumer).1 := by
  have hkeep := h.append (.handle i n now newId)
  have hstep := turn_step p.co p.ids call { now := now, newId := newId } l
    (p.reached s moves).server.shared.consumer
  generalize createEventRewardRequest p.co p.ids call { now := now, newId := newId } l
    (p.reached s moves).server.shared.consumer = out at hstep ⊢
  obtain ⟨l', s'⟩ := out
  cases hstep with
  | reads e correlationId hcheck =>
    obtain ⟨found, hselect, he, hopen⟩ := openAt_of_checkEvent hcheck
    rw [(Arrival.asksFor_of_call hcall).event] at hselect
    exact ⟨call, found, hcall, moves, now, newId, [], rfl, hhttp, hselect, he, hopen⟩
  | decides e doc hnone hdoc =>
    obtain ⟨call', found, hcall', hopen⟩ := hkeep
    cases hcall.symm.trans hcall'
    exact ⟨call, found, e, hcall, documents_of_newRequest hdoc, hopen⟩
  | stays hended => exact hkeep
  | hits e correlationId => exact hkeep
  | misses e correlationId => exact hkeep
  | proceeds e hnone => exact hkeep
  | _ => trivial

theorem Sound.quiet {st st' : PipelineState ι μ} {t : PipelineMove ι μ} (h : p.Sound s moves st)
    (hquiet : Quiet st t st') : p.Sound s (moves ++ [t]) st' where
  published i hi := by
    obtain hi | rfl := hquiet.published i hi
    · exact List.mem_append_left _ (h.published i hi)
    · exact List.mem_append_right _ List.mem_cons_self
  calls k := by
    rw [hquiet.calls]
    exact (h.calls k).append t
  stored r hr := by
    rw [hquiet.requests] at hr
    obtain hold | ⟨hu, i, n, htraced⟩ := h.stored r hr
    · exact .inl hold
    · exact .inr ⟨hu, i, n, htraced.append t⟩

theorem Sound.handle {call : RewardCall Value} (h : p.Sound s moves (p.reached s moves))
    (hcall : p.callOf i = some call) (hpublished : i ∈ (p.reached s moves).published) (n : Nat)
    (now : Int) (newId : String) :
    p.Sound s (moves ++ [.handle i n now newId])
      (p.handled (p.reached s moves) i n call { now := now, newId := newId }) := by
  constructor
  case published => exact fun j hj => List.mem_append_left _ (h.published j hj)
  case calls =>
    intro k
    by_cases hk : k = (i, n)
    · subst hk
      simp only [handled, Function.update_self]
      exact follows_turn hcall (h.published i hpublished) (h.calls (i, n)) now newId
    · simp only [handled, Function.update_of_ne hk]
      exact (h.calls k).append _
  case stored =>
    intro r hr
    have hkeep : r ∈ (p.reached s moves).server.shared.consumer.requests.items →
        r ∈ s.requests.items ∨ r.userId ≠ "" ∧
          ∃ j m, p.Traced s (moves ++ [.handle i n now newId]) j m r := by
      intro hmem
      obtain hold | ⟨hu, j, m, htraced⟩ := h.stored r hmem
      · exact .inl hold
      · exact .inr ⟨hu, j, m, htraced.append _⟩
    obtain ⟨hs, -⟩ | ⟨doc, hnone, hl, hu, hs⟩ := turn_cases p.co p.ids call
      { now := now, newId := newId } ((p.reached s moves).server.calls (i, n))
      (p.reached s moves).server.shared.consumer
    · simp only [handled, hs] at hr
      exact hkeep hr
    · simp only [handled, hs] at hr
      obtain hmem | hmem := List.mem_append.mp hr
      · exact hkeep hmem
      · have hfollows := h.calls (i, n)
        rw [hl] at hfollows
        rw [List.mem_singleton.mp hmem]
        exact .inr ⟨hu, i, n, (Traced.stamped hfollows now).append _⟩

theorem sound_step (moves : List (PipelineMove ι μ)) (t : PipelineMove ι μ)
    (h : p.Sound s moves (p.reached s moves)) :
    p.Sound s (moves ++ [t]) (p.step (p.reached s moves) t) := by
  obtain hquiet | ⟨i, n, now, newId, call, rfl, hpublished, hcall, hstep⟩ :=
    p.step_cases (p.reached s moves) t
  · exact h.quiet hquiet
  · rw [hstep]
    exact h.handle hcall hpublished n now newId

theorem sound_reached (p : RewardPipeline ι μ) (s : ConsumerState)
    (moves : List (PipelineMove ι μ)) : p.Sound s moves (p.reached s moves) := by
  refine run_history (I := fun us st => p.Sound s us st) ?_ sound_step moves
  exact ⟨fun i hi => (by cases hi), fun k => trivial, fun r hr => .inl hr⟩

end History

section Requests
variable (p : RewardPipeline ι μ)

/-- The request is what the HTTP request asks for, in the name of the user who was authenticated. -/
structure AskedFor (a : Arrival) (r : RewardRequest) : Prop where
  user : ∃ user, a.passport = .ok user ∧ Role.USER ∈ userRoles (some user) ∧
    user.userId = some r.userId
  event : p.ids.objectId (a.bodyField "eventId") = some r.eventId
  metadata : some r.metadata = a.bodyField "metadata" ∨
    truthy (a.bodyField "metadata") = false ∧ r.metadata = .obj []

variable {p}

theorem askedFor_of_documents {i : ι} {call : RewardCall Value} {e : Event} {r : RewardRequest}
    (hcall : p.callOf i = some call) (hdoc : p.Documents call e r) (hu : r.userId ≠ "") :
    p.AskedFor (p.arrival i) r := by
  obtain ⟨⟨user, hpassport, hrole, huser⟩, hevent, hmetadata, -⟩ := Arrival.asksFor_of_call hcall
  refine ⟨⟨user, hpassport, hrole, ?_⟩, ?_, ?_⟩
  · rw [hdoc.user, huser] at hu
    rw [hdoc.user, huser]
    cases hid : user.userId with
    | none => simp [hid] at hu
    | some id => rfl
  · rw [← hevent]
    exact hdoc.event
  · rw [hdoc.metadata, hmetadata]
    unfold orElse
    cases htruthy : truthy ((p.arrival i).bodyField "metadata") with
    | false => exact .inr ⟨rfl, rfl⟩
    | true =>
      refine .inl ?_
      cases hm : (p.arrival i).bodyField "metadata" with
      | none =>
        rw [hm] at htruthy
        cases htruthy
      | some json => rfl

theorem AskedFor.pair {a : Arrival} {r r' : RewardRequest} (h : p.AskedFor a r)
    (h' : p.AskedFor a r') : r.userId = r'.userId ∧ r.eventId = r'.eventId := by
  obtain ⟨⟨user, hpassport, -, huser⟩, hevent, -⟩ := h
  obtain ⟨⟨user', hpassport', -, huser'⟩, hevent', -⟩ := h'
  cases hpassport.symm.trans hpassport'
  exact ⟨Option.some.inj (huser.symm.trans huser'), Option.some.inj (hevent.symm.trans hevent')⟩

/-- For a text, the event that was found is the one that the request names. -/
theorem found_of_text {a : Arrival} {r : RewardRequest} {events : EventCollection} {found : String}
    (h : p.AskedFor a r) (hselect : p.ids.select events (a.bodyField "eventId") = some (some found))
    {t : String} (htext : a.bodyField "eventId" = some (.str t)) : found = r.eventId := by
  have hcast := h.event
  rw [htext] at hselect hcast
  exact p.agree.found_eq hcast hselect

variable [DecidableEq ι] [DecidableEq μ] {s : ConsumerState} {moves : List (PipelineMove ι μ)}
  {r : RewardRequest}

/-- Where a stored request comes from. -/
theorem origin_of_stored (hr : r ∈ (p.reached s moves).server.shared.consumer.requests.items)
    (hnew : r ∉ s.requests.items) :
    ∃ i n found e, p.AskedFor (p.arrival i) r ∧ p.ReadsOpen s moves i n found e ∧
      (∀ t, (p.arrival i).bodyField "eventId" = some (.str t) → found = r.eventId) ∧
      r.status = if e.type = some .FRIEND_INVITATION then .APPROVED else .FAILED := by
  obtain hold | ⟨hu, i, n, call, found, e, hcall, hdoc, hread⟩ :=
    (p.sound_reached s moves).stored r hr
  · exact absurd hold hnew
  · have hasked := askedFor_of_documents hcall hdoc hu
    have hfound : ∀ t, (p.arrival i).bodyField "eventId" = some (.str t) → found = r.eventId := by
      intro t htext
      obtain ⟨pre, now, newId, post, -, -, hselect, -⟩ := hread
      exact found_of_text hasked hselect htext
    exact ⟨i, n, found, e, hasked, hread, hfound, hdoc.status⟩

/-- Whatever bodies are sent, whatever the broker delivers again and however the turns
interleave: a request is stored only for the authenticated user of an HTTP request that asked for
it before, with an `eventId` for which an event was found that was open when the message was
handled, and approved exactly if that was an invitation event. Where the `eventId` is a text, it is
the event of the request. -/
theorem stored_for_authenticated_user (p : RewardPipeline ι μ) (s : ConsumerState)
    (moves : List (PipelineMove ι μ)) (r : RewardRequest)
    (hr : r ∈ (p.reached s moves).server.shared.consumer.requests.items)
    (hnew : r ∉ s.requests.items) :
    ∃ i n found e, p.AskedFor (p.arrival i) r ∧ p.ReadsOpen s moves i n found e ∧
      (∀ t, (p.arrival i).bodyField "eventId" = some (.str t) → found = r.eventId) ∧
      r.status = if e.type = some .FRIEND_INVITATION then .APPROVED else .FAILED :=
  origin_of_stored hr hnew

/-- Deliveries do not multiply: the requests stored in a run are counted by HTTP requests of
that run, each of which asked for the one it counts and was published. -/
theorem stored_once_per_http_request (p : RewardPipeline ι μ) (s : ConsumerState)
    (moves : List (PipelineMove ι μ)) :
    ∃ origin : {r // r ∈ (p.reached s moves).server.shared.consumer.requests.items ∧
        r ∉ s.requests.items} → ι,
      Function.Injective origin ∧ ∀ r, .http (origin r) ∈ moves ∧
        ((p.arrival (origin r)).message p.routes).isSome ∧
          p.AskedFor (p.arrival (origin r)) r.1 := by
  have hsource : ∀ r : {r // r ∈ (p.reached s moves).server.shared.consumer.requests.items ∧
      r ∉ s.requests.items}, ∃ i, .http i ∈ moves ∧
        ((p.arrival i).message p.routes).isSome ∧ p.AskedFor (p.arrival i) r.1 := by
    intro ⟨r, hr, hnew⟩
    obtain hold | ⟨hu, i, n, call, found, e, hcall, hdoc, hread⟩ :=
      (p.sound_reached s moves).stored r hr
    · exact absurd hold hnew
    · obtain ⟨pre, now, newId, post, rfl, hhttp, -⟩ := hread
      refine ⟨i, List.mem_append_left _ hhttp, ?_, askedFor_of_documents hcall hdoc hu⟩
      obtain ⟨packet, hpacket, -⟩ := Option.bind_eq_some_iff.mp hcall
      rw [hpacket]
      rfl
  choose origin hhttp hmessage hasked using hsource
  refine ⟨origin, ?_, fun r => ⟨hhttp r, hmessage r, hasked r⟩⟩
  intro r r' heq
  have hasked' := hasked r'
  rw [← heq] at hasked'
  by_contra hne
  have hdistinct := (p.reached s moves).server.shared.consumer.requests.unique.forall
    r.2.1 r'.2.1 fun h => hne (Subtype.ext h)
  exact hdistinct ((hasked r).pair hasked')

end Requests

section Sample

def player : JwtUserDto := ⟨some "alice", some "a@x", some [.USER]⟩

/-- A body that names another user beside the event. -/
def asksForReward : Arrival where
  req := ⟨"POST", "/event-requests/rewards", [], none,
    some (.obj [("userId", .str "bob"), ("eventId", .str "e1"),
      ("metadata", .obj [("messageId", .str "m1")])]), none, []⟩
  passport := .ok player
  uuid := "m1"
  timestamp := "t"

def samplePipeline : RewardPipeline Unit Empty where
  env := noEnv
  config := noEnv
  co := Coercions.plain
  ids := .plain
  agree := EventIds.agree_plain
  parse _ := none
  store := .strict
  arrival _ := asksForReward
  mutation j := j.elim

/-- The message is delivered twice, and both handlings have turns. -/
def sampleMoves : List (PipelineMove Unit Empty) :=
  .http () :: [0, 0, 1, 0, 0, 1, 1, 1].map fun n => .handle () n 5 "r1"

theorem samplePipeline_stores :
    (samplePipeline.reached EventServer.invitationState
      sampleMoves).server.shared.consumer.requests.items.isEmpty = false := by
  decide +kernel

theorem stored_for_authenticated_user_sample :
    ∃ r ∈ (samplePipeline.reached EventServer.invitationState
        sampleMoves).server.shared.consumer.requests.items,
      ∃ i n found e, samplePipeline.AskedFor (samplePipeline.arrival i) r ∧
        samplePipeline.ReadsOpen EventServer.invitationState sampleMoves i n found e ∧
        (∀ t, (samplePipeline.arrival i).bodyField "eventId" = some (.str t) →
          found = r.eventId) ∧
        r.status = if e.type = some .FRIEND_INVITATION then .APPROVED else .FAILED := by
  obtain ⟨r, hr⟩ := List.exists_mem_of_ne_nil _ (by simpa using samplePipeline_stores)
  exact ⟨r, hr, samplePipeline.stored_for_authenticated_user EventServer.invitationState sampleMoves
    r hr List.not_mem_nil⟩

end Sample
end RewardPipeline
end MsaTuto
