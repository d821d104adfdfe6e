import MsaTuto.EventMutations
import MsaTuto.RewardOnce

/-! Create calls beside the operators' updates, removals and restores of the events: what an
approval can rely on, and what may have changed under it. -/
namespace MsaTuto
open Js Runs RewardRequestService

/-- The consumer's state, and how far the operators' calls have come. -/
structure EventServerState (μ : Type*) where
  consumer : ConsumerState
  mutations : μ → MutationPhase

/-- A turn of an operator's call, or a Redis key that expires. -/
inductive EventServerMove (μ : Type*) where
  | mutate (j : μ) (now : Int)
  | dropKey (key : String) (now : Int)

/-- The calls there are, and what they are run with. -/
structure EventBackend (κ μ : Type*) (ε : Type) where
  co : Coercions
  ids : EventIds ε
  /-- The id that the text in a path is cast to. -/
  objectId : String → Option String
  parse : String → JsDate
  store : EventStore
  call : κ → RewardCall ε
  mutation : μ → Mutation

/-- The event ids of the calls are texts, as their type is declared. -/
structure EventServer (κ μ : Type*) extends EventBackend κ μ String where
  ids_eq : ids = .ofText objectId

abbrev EventServerWorld (κ μ : Type*) := World κ (EventServerState μ) RewardPhase

abbrev EventServerTurn (κ μ : Type*) := Turn κ Moment (EventServerMove μ)

namespace EventBackend
variable {κ μ : Type*} {ε : Type}

section Model
variable (srv : EventBackend κ μ ε)

/-- A turn of an operator's call, whose id is cast to that of the stored event. -/
def mutate (m : Mutation) (now : Int) (l : MutationPhase) (events : EventCollection) :
    MutationPhase × EventCollection :=
  match srv.objectId m.target with
  | none => (.raised castError, events)
  | some id =>
    let out := m.act srv.parse srv.store now l fun target => (srv.objectId target).bind events
    (out.1, Function.update events id (out.2 m.target))

variable [DecidableEq μ]

def move (s : EventServerState μ) : EventServerMove μ → EventServerState μ
  | .mutate j now =>
    let out := srv.mutate (srv.mutation j) now (s.mutations j) s.consumer.events
    ⟨{ s.consumer with events := out.2 }, Function.update s.mutations j out.1⟩
  | .dropKey key now => { s with consumer := (ConsumerEnv.dropKey key now).act s.consumer }

def pool : Pool κ Moment (EventServerMove μ) (EventServerState μ) RewardPhase where
  act k m l s :=
    let out := createEventRewardRequest srv.co srv.ids (srv.call k) m l s.consumer
    (out.1, { s with consumer := out.2 })
  env e s := srv.move s e

variable [DecidableEq κ] (s : ConsumerState)

/-- Where the turns lead from the state `s`, with no call started yet. -/
def reached (turns : List (EventServerTurn κ μ)) : EventServerWorld κ μ :=
  run srv.pool.step ⟨⟨s, fun _ => .started⟩, fun _ => .started⟩ turns

def Inserts (w : EventServerWorld κ μ) (t : EventServerTurn κ μ) (r : RewardRequest) : Prop :=
  r ∉ w.shared.consumer.requests.items ∧ r ∈ (srv.pool.step w t).shared.consumer.requests.items

/-- In its first turn the call found the event stored, not deleted, active and in its period. -/
def ReadOpen (turns : List (EventServerTurn κ μ)) (k : κ) (eventId : String) (e : Event) : Prop :=
  ∃ pre m post, turns = pre ++ .call k m :: post ∧ (srv.reached s pre).calls k = .started ∧
    (srv.reached s pre).shared.consumer.events eventId = some e ∧ OpenAt m.now e

/-- In the turn of its lookup the validator said yes to the type and condition of the event. -/
def Validated (turns : List (EventServerTurn κ μ)) (k : κ) (e : Event) : Prop :=
  ∃ pre m post, turns = pre ++ .call k m :: post ∧ (srv.reached s pre).calls k = .lookup e ∧
    m.validator (srv.call k).userId e.type e.condition = true

end Model

/-- The event is still stored, and the same unless a write has raised its version. -/
def StillStored (events : EventCollection) (eventId : String) (e : Event) : Prop :=
  ∃ e', events eventId = some e' ∧ e.version ≤ e'.version ∧ (e'.version = e.version → e' = e)

section History

theorem mutate_cases (srv : EventBackend κ μ ε) (m : Mutation) (now : Int) (l : MutationPhase)
    (events : EventCollection) :
    (srv.mutate m now l events).2 = events ∨
    ∃ id e e', events id = some e ∧ e'.version = e.version + 1 ∧
      (srv.mutate m now l events).2 = Function.update events id (some e') := by
  cases hid : srv.objectId m.target with
  | none => exact .inl (by simp [mutate, hid])
  | some id =>
    obtain ⟨hsame, -⟩ | ⟨-, e, e', he, hv, -, hact⟩ :=
      m.act_cases srv.parse srv.store now l fun target => (srv.objectId target).bind events
    · refine .inl ?_
      simp [mutate, hid, hsame]
    · refine .inr ⟨id, e, e', by simpa [hid] using he, hv, ?_⟩
      simp [mutate, hid, hact]

variable {srv : EventBackend κ μ ε}

theorem StillStored.mutate {events : EventCollection} {eventId : String} {e : Event}
    (h : StillStored events eventId e) (m : Mutation) (now : Int) (l : MutationPhase) :
    StillStored (srv.mutate m now l events).2 eventId e := by
  obtain hsame | ⟨id, e₀, e₁, he₀, hv, hnext⟩ := srv.mutate_cases m now l events
  · rwa [hsame]
  · rw [hnext]
    by_cases hid : eventId = id
    · subst hid
      obtain ⟨e', he', hle, -⟩ := h
      rw [he₀] at he'
      cases he'
      refine ⟨e₁, Function.update_self _ _ _, by omega, fun heq => ?_⟩
      omega
    · obtain ⟨e', he', hrest⟩ := h
      exact ⟨e', by rw [Function.update_of_ne hid, he'], hrest⟩

variable [DecidableEq μ]

theorem StillStored.move {s : EventServerState μ} {eventId : String} {e : Event}
    (h : StillStored s.consumer.events eventId e) (move : EventServerMove μ) :
    StillStored (srv.move s move).consumer.events eventId e := by
  cases move with
  | mutate j now => exact h.mutate (srv.mutation j) now (s.mutations j)
  | dropKey key now => exact h

variable [DecidableEq κ] {s : ConsumerState} {turns : List (EventServerTurn κ μ)} {k : κ}
  {eventId : String} {e : Event}

theorem ReadOpen.append (h : srv.ReadOpen s turns k eventId e) (t : EventServerTurn κ μ) :
    srv.ReadOpen s (turns ++ [t]) k eventId e := by
  obtain ⟨pre, m, post, rfl, hread⟩ := h
  exact ⟨pre, m, post ++ [t], by simp, hread⟩

theorem Validated.append (h : srv.Validated s turns k e) (t : EventServerTurn κ μ) :
    srv.Validated s (turns ++ [t]) k e := by
  obtain ⟨pre, m, post, rfl, hval⟩ := h
  exact ⟨pre, m, post ++ [t], by simp, hval⟩

/-- A new document comes from a call that was about to save it. -/
theorem insert_cases {w : EventServerWorld κ μ} {t : EventServerTurn κ μ} {r : RewardRequest}
    (h : srv.Inserts w t r) :
    ∃ k m doc, t = .call k m ∧ w.calls k = .saving doc ∧ r = doc.stamped m.now := by
  obtain ⟨hold, hnew⟩ := h
  cases t with
  | env move =>
    cases move with
    | mutate j now => exact absurd hnew hold
    | dropKey key now => exact absurd hnew hold
  | call k m =>
    change r ∈ (createEventRewardRequest srv.co srv.ids (srv.call k) m (w.calls k)
      w.shared.consumer).2.requests.items at hnew
    obtain ⟨hs, -⟩ | ⟨doc, hnone, hl, -, hs⟩ := turn_cases srv.co srv.ids (srv.call k) m
      (w.calls k) w.shared.consumer
    · rw [hs] at hnew
      exact absurd hnew hold
    · rw [hs] at hnew
      obtain hmem | hmem := List.mem_append.mp hnew
      · exact absurd hmem hold
      · exact ⟨k, m, doc, rfl, hl, List.mem_singleton.mp hmem⟩

end History
end EventBackend

namespace EventServer
open EventBackend
variable {κ μ : Type*}

section History
variable {srv : EventServer κ μ} [DecidableEq μ] [DecidableEq κ] {s : ConsumerState}
  {turns : List (EventServerTurn κ μ)} {k : κ}

variable (srv s) in
/-- What the phase of a call tells of the turns that led to it. -/
def Follows (turns : List (EventServerTurn κ μ)) (k : κ) (l : RewardPhase)
    (events : EventCollection) : Prop :=
  match l with
  | .cacheCheck e _ | .replayLookup e | .lookup e =>
    ∃ eventId, srv.objectId (srv.call k).eventId = some eventId ∧
      srv.ReadOpen s turns k eventId e ∧ StillStored events eventId e
  | .saving doc => doc.userId = (srv.call k).userId ∧ (doc.status = .APPROVED →
      ∃ e, srv.ReadOpen s turns k doc.eventId e ∧ srv.Validated s turns k e ∧
        StillStored events doc.eventId e)
  | _ => True

theorem Follows.append {l : RewardPhase} {events events' : EventCollection}
    (h : srv.Follows s turns k l events)
    (hevents : ∀ id e, StillStored events id e → StillStored events' id e)
    (t : EventServerTurn κ μ) : srv.Follows s (turns ++ [t]) k l events' := by
  have hread : ∀ {e : Event}, (∃ eventId, srv.objectId (srv.call k).eventId = some eventId ∧
      srv.ReadOpen s turns k eventId e ∧ StillStored events eventId e) →
      ∃ eventId, srv.objectId (srv.call k).eventId = some eventId ∧
        srv.ReadOpen s (turns ++ [t]) k eventId e ∧ StillStored events' eventId e := by
    intro e ⟨id, hid, hopen, hstill⟩
    exact ⟨id, hid, hopen.append t, hevents id e hstill⟩
  cases l with
  | cacheCheck e correlationId => exact hread h
  | replayLookup e => exact hread h
  | lookup e => exact hread h
  | saving doc =>
    refine ⟨h.1, fun hstatus => ?_⟩
    obtain ⟨e, hopen, hval, hstill⟩ := h.2 hstatus
    exact ⟨e, hopen.append t, hval.append t, hevents doc.eventId e hstill⟩
  | _ => trivial

theorem follows_turn {l : RewardPhase} {m : Moment} (hl : (srv.reached s turns).calls k = l)
    (h : srv.Follows s turns k l (srv.reached s turns).shared.consumer.events) :
    srv.Follows s (turns ++ [.call k m]) k
      (createEventRewardRequest srv.co srv.ids (srv.call k) m l
        (srv.reached s turns).shared.consumer).1
      (srv.reached s turns).shared.consumer.events := by
  have hkeep := h.append (fun id e h => h) (.call k m)
  have hstep := turn_step srv.co srv.ids (srv.call k) m l (srv.reached s turns).shared.consumer
  generalize createEventRewardRequest srv.co srv.ids (srv.call k) m l
    (srv.reached s turns).shared.consumer = out at hstep ⊢
  obtain ⟨l', s'⟩ := out
  cases hstep with
  | reads e correlationId hcheck =>
    obtain ⟨id, hselect, he, hopen⟩ := openAt_of_checkEvent hcheck
    rw [srv.ids_eq] at hselect
    exact ⟨id, (EventIds.select_ofText.mp hselect).1, ⟨turns, m, [], rfl, hl, he, hopen⟩, e, he,
      le_refl _, fun _ => rfl⟩
  | decides e doc hnone hdoc =>
    obtain ⟨id, hid, hopen, hstill⟩ := hkeep
    obtain ⟨hu, he⟩ := newRequest_pair hdoc
    rw [srv.ids_eq] at he
    cases hid.symm.trans he
    refine ⟨hu, fun hstatus => ⟨e, hopen, ⟨turns, m, [], rfl, hl, ?_⟩, hstill⟩⟩
    exact (newRequest_approved hdoc).mp hstatus
  | stays hended => exact hkeep
  | hits e correlationId => exact hkeep
  | misses e correlationId => exact hkeep
  | proceeds e hnone => exact hkeep
  | _ => trivial

theorem follows_step (h : ∀ k, srv.Follows s turns k ((srv.reached s turns).calls k)
    (srv.reached s turns).shared.consumer.events) (t : EventServerTurn κ μ) (k : κ) :
    srv.Follows s (turns ++ [t]) k ((srv.pool.step (srv.reached s turns) t).calls k)
      (srv.pool.step (srv.reached s turns) t).shared.consumer.events := by
  cases t with
  | env move =>
    rw [step_env_calls]
    exact (h k).append (fun id e hstill => hstill.move move) _
  | call k' m =>
    have hevents : (srv.pool.step (srv.reached s turns) (.call k' m)).shared.consumer.events =
        (srv.reached s turns).shared.consumer.events := by
      obtain ⟨hs, -⟩ | ⟨doc, hnone, -, -, hs⟩ := turn_cases srv.co srv.ids (srv.call k') m
        ((srv.reached s turns).calls k') (srv.reached s turns).shared.consumer
      · simp [pool, hs]
      · simp [pool, hs]
    rw [hevents]
    by_cases hk : k = k'
    · subst hk
      rw [step_call_self]
      exact follows_turn rfl (h k)
    · rw [step_call_other _ _ hk]
      exact (h k).append (fun id e hstill => hstill) _

theorem follows_reached (srv : EventServer κ μ) (s : ConsumerState)
    (turns : List (EventServerTurn κ μ)) (k : κ) :
    srv.Follows s turns k ((srv.reached s turns).calls k)
      (srv.reached s turns).shared.consumer.events := by
  refine run_history (I := fun us (w : EventServerWorld κ μ) => ∀ k, srv.Follows s us k
    (w.calls k) w.shared.consumer.events) ?_ (fun us t h => follows_step h t) turns k
  exact fun k => trivial

/-- An approved request is stored by a call of its user that earlier in the run read the event,
open at that time, and had its type and condition validated; what is stored of the event now
is what was read then, unless a write has raised the version since. -/
theorem approved_as_read (srv : EventServer κ μ) (s : ConsumerState)
    (turns : List (EventServerTurn κ μ)) (t : EventServerTurn κ μ) (r : RewardRequest)
    (hnew : srv.Inserts (srv.reached s turns) t r) (hstatus : r.status = .APPROVED) :
    ∃ k m e, t = .call k m ∧ (srv.call k).userId = r.userId ∧
      srv.ReadOpen s turns k r.eventId e ∧ srv.Validated s turns k e ∧
      StillStored (srv.reached s turns).shared.consumer.events r.eventId e := by
  obtain ⟨k, m, doc, rfl, hl, rfl⟩ := insert_cases hnew
  have hfollows := srv.follows_reached s turns k
  rw [hl] at hfollows
  obtain ⟨e, hopen, hval, hstill⟩ := hfollows.2 hstatus
  exact ⟨k, m, e, rfl, hfollows.1.symm, hopen, hval, hstill⟩

end History

section Sample

/-- Alice asks for the reward of an invitation event that an operator removes. -/
def removingServer : EventServer Unit Unit where
  co := Coercions.plain
  ids := .ofText some
  objectId := some
  parse _ := none
  store := .strict
  call _ := sampleCalls false
  mutation _ := .remove "e1" (some "op")
  ids_eq := rfl

def invitationState : ConsumerState :=
  { sampleState with
    events := fun id =>
      if id = "e1" then some { sampleEvent with type := some .FRIEND_INVITATION } else none }

def asks (now : Int) : EventServerTurn Unit Unit := .call () { now := now, newId := "r1" }

def removes (now : Int) : EventServerTurn Unit Unit := .env (.mutate () now)

def approvedAt (now : Int) : RewardRequest :=
  ⟨"r1", "alice", "e1", .APPROVED, none, .obj [("messageId", .str "m1")], 4, "system", now, now⟩

theorem approved_as_read_sample :
    ∃ k m e, asks 5 = .call k m ∧ (removingServer.call k).userId = (approvedAt 5).userId ∧
      removingServer.ReadOpen invitationState [asks 2, asks 3, asks 4] k
        (approvedAt 5).eventId e ∧
      removingServer.Validated invitationState [asks 2, asks 3, asks 4] k e ∧
      StillStored (removingServer.reached invitationState
        [asks 2, asks 3, asks 4]).shared.consumer.events (approvedAt 5).eventId e :=
  removingServer.approved_as_read invitationState [asks 2, asks 3, asks 4] (asks 5) (approvedAt 5)
    ⟨List.not_mem_nil, List.mem_singleton_self _⟩ rfl

/-- The event is removed after the validator has said yes, and the request approved all
the same. -/
theorem approved_after_removal :
    removingServer.Inserts (removingServer.reached invitationState
      [asks 2, asks 3, asks 4, removes 5]) (asks 6) (approvedAt 6) ∧
    (approvedAt 6).status = .APPROVED ∧
    ¬∃ k m e, asks 6 = .call k m ∧ (removingServer.reached invitationState
      [asks 2, asks 3, asks 4, removes 5]).shared.consumer.events (approvedAt 6).eventId =
        some e ∧ OpenAt m.now e := by
  refine ⟨⟨List.not_mem_nil, List.mem_singleton_self _⟩, rfl, ?_⟩
  intro ⟨k, m, e, _, he, hopen⟩
  cases he
  cases hopen.1

end Sample
end EventServer
end MsaTuto
