import MsaTuto.GameServer

/-! What the calls of the game-event server make of its database, in whatever order they take
their turns. -/
namespace MsaTuto
open Js Runs RewardRequestService

namespace GameServer
variable {κ : Type*} {srv : GameServer κ}

/-- Every reward and every request names a stored event. -/
structure Resolves (s : GameState) : Prop where
  requests : ∀ r ∈ s.consumer.requests.items, (s.consumer.events r.eventId).isSome = true
  rewards : ∀ r ∈ s.rewards.items, (s.consumer.events r.eventId).isSome = true

variable (srv) in
/-- A message of the run asked for the request with an `eventId` that is no text. -/
def AskedWithoutText (turns : List (GameTurn κ)) (r : RewardRequest) : Prop :=
  ∃ k m request, .call k m ∈ turns ∧ srv.call k = .message request ∧
    r.userId = request.userId ∧ srv.ids.objectId request.eventId = some r.eventId ∧
    ∀ t, request.eventId ≠ some (.str t)

variable (srv) in
/-- Every reward names a stored event, and so does every request that was asked for with a text. -/
structure References (turns : List (GameTurn κ)) (s : GameState) : Prop where
  rewards : ∀ r ∈ s.rewards.items, (s.consumer.events r.eventId).isSome = true
  requests : ∀ r ∈ s.consumer.requests.items,
    (s.consumer.events r.eventId).isSome = true ∨ srv.AskedWithoutText turns r

/-- The later state holds all that the earlier one held, as it was. -/
structure Extends (s s' : GameState) : Prop where
  events : ∀ id e, s.consumer.events id = some e → s'.consumer.events id = some e
  requests : s.consumer.requests.items <+: s'.consumer.requests.items
  rewards : s.rewards.items <+: s'.rewards.items

theorem Extends.refl (s : GameState) : Extends s s :=
  ⟨fun _ _ h => h, List.prefix_refl _, List.prefix_refl _⟩

theorem Extends.trans {s s' s'' : GameState} (h : Extends s s') (h' : Extends s' s'') :
    Extends s s'' where
  events id e he := h'.events id e (h.events id e he)
  requests := h.requests.trans h'.requests
  rewards := h.rewards.trans h'.rewards

section Effects
variable {call : GameCall srv.isDateString} {s s' : GameState}

theorem References.append {turns : List (GameTurn κ)} (h : srv.References turns s)
    (t : GameTurn κ) : srv.References (turns ++ [t]) s where
  rewards := h.rewards
  requests r hr := by
    obtain hevent | ⟨k, m, request, hmem, hrest⟩ := h.requests r hr
    · exact .inl hevent
    · exact .inr ⟨k, m, request, List.mem_append_left _ hmem, hrest⟩

theorem References.effect {turns : List (GameTurn κ)} {k : κ} {m : Moment}
    (h : srv.References turns s) (heffect : srv.Effect (srv.call k) s s') :
    srv.References (turns ++ [.call k m]) s' := by
  have hs := h.append (.call k m)
  have hkeep : ∀ id, (s.consumer.events id).isSome = true →
      (s'.consumer.events id).isSome = true := fun id => heffect.keeps_event
  cases heffect with
  | storesReward hcall huser hdoc hevent hfree =>
    refine ⟨fun r hr => ?_, hs.requests⟩
    obtain hmem | hmem := List.mem_append.mp hr
    · exact hs.rewards r hmem
    · rw [List.mem_singleton.mp hmem]
      exact hevent
  | @storesRequest request doc hcall huser hid hevent hfree =>
    refine ⟨hs.rewards, fun r hr => ?_⟩
    obtain hmem | hmem := List.mem_append.mp hr
    · exact hs.requests r hmem
    · rw [List.mem_singleton.mp hmem]
      by_cases htext : ∃ t, request.eventId = some (.str t)
      · obtain ⟨t, ht⟩ := htext
        rw [ht] at hid hevent
        exact .inl (hevent (srv.agree.names hid))
      · exact .inr ⟨k, m, request, List.mem_append_right _ List.mem_cons_self, hcall, huser, hid,
          not_exists.mp htext⟩
  | _ =>
    exact ⟨fun r hr => hkeep _ (hs.rewards r hr),
      fun r hr => (hs.requests r hr).imp_left (hkeep _)⟩

theorem Effect.extends (h : srv.Effect call s s') (hstrict : srv.store = .strict) :
    Extends s s' := by
  cases h with
  | same => exact .refl s
  | createsEvent new doc hcall huser hfree =>
    refine ⟨fun id e he => ?_, List.prefix_refl _, List.prefix_refl _⟩
    have hid : id ≠ new := by
      rintro rfl
      rw [hfree] at he
      cases he
    exact (Function.update_of_ne hid _ _).trans he
  | updatesEvent id e' hcall huser hid hevent hversion hstore => exact absurd hstrict hstore
  | storesReward => exact ⟨fun _ _ h => h, List.prefix_refl _, List.prefix_append _ _⟩
  | storesRequest => exact ⟨fun _ _ h => h, List.prefix_append _ _, List.prefix_refl _⟩

end Effects

section Runs
variable [DecidableEq κ]

/-- References are never left dangling: where each reward and each request names a stored event,
it does so after any run, whatever update documents the store accepts; a request apart that a
message without a text for its event has asked for, which may name another than was looked up. -/
theorem references_resolve (srv : GameServer κ) (s : GameState) (hs : Resolves s)
    (turns : List (GameTurn κ)) : srv.References turns (srv.reached s turns).shared := by
  refine run_history (I := fun us (w : World κ GameState GamePhase) =>
    srv.References us w.shared) ⟨hs.rewards, fun r hr => .inl (hs.requests r hr)⟩ ?_ turns
  intro us t h
  cases t with
  | call k m => exact h.effect (srv.turn_effect (srv.call k) m _ (fits_reached s us k))
  | env d =>
    have hkeep := h.append (.env d)
    exact ⟨hkeep.rewards, hkeep.requests⟩

/-- What every effect and every expiry keeps relates any two moments of a run. -/
theorem reached_rel {R : GameState → GameState → Prop} (hrefl : ∀ s, R s s)
    (htrans : ∀ s s' s'', R s s' → R s' s'' → R s s'')
    (heffect : ∀ k s s', srv.Effect (srv.call k) s s' → R s s')
    (hexpiry : ∀ (s : GameState) (redis : KeyStore.Store String),
      R s ⟨{ s.consumer with redis := redis }, s.rewards⟩)
    (s : GameState) (pre post : List (GameTurn κ)) :
    R (srv.reached s pre).shared (srv.reached s (pre ++ post)).shared := by
  rw [reached, reached, run_append]
  refine run_rel_of_invariant (R := fun w w' : World κ GameState GamePhase => R w.shared w'.shared)
    (I := fun w => ∀ k, Fits (srv.call k) (w.calls k) w.shared.consumer.events) ?_
    (fun w => hrefl w.shared) (fun _ _ _ => htrans _ _ _) ?_ (fits_reached s pre) post
  · intro w t hfits k
    exact ((fits_stable srv).step ⟨trivial, hfits⟩ trivial).2 k
  · intro w t hfits
    cases t with
    | call k m => exact heffect k _ _ (srv.turn_effect (srv.call k) m w.shared (hfits k))
    | env d => exact hexpiry w.shared _

/-- Under MongoDB's rule the database is append-only: between any two moments of a run, no event
changes or goes, and the requests and the rewards keep their places. -/
theorem database_append_only (srv : GameServer κ) (hstrict : srv.store = .strict) (s : GameState)
    (pre post : List (GameTurn κ)) :
    Extends (srv.reached s pre).shared (srv.reached s (pre ++ post)).shared :=
  reached_rel .refl (fun _ _ _ => .trans) (fun _ _ _ h => h.extends hstrict)
    (fun _ _ => ⟨fun _ _ h => h, List.prefix_refl _, List.prefix_refl _⟩) s pre post

end Runs

section Authors
variable (srv)

/-- A call of the run by a user who may write, which creates the event with the text of its body. -/
def CreatesEvent (turns : List (GameTurn κ)) (e : Event) : Prop :=
  ∃ k m user dto, .call k m ∈ turns ∧ GameEventGuards.Operates user ∧
    srv.call k = .createEvent (some user) dto ∧
    EventService.Describes srv.casts srv.parse dto user.userId e

/-- A call of the run by a user who may write, which updates the event. -/
def UpdatesEvent (turns : List (GameTurn κ)) (id : String) : Prop :=
  ∃ k m user target body, .call k m ∈ turns ∧ GameEventGuards.Operates user ∧
    srv.call k = .updateEvent (some user) target body ∧ srv.ids.cast target = some id

/-- A call of the run by a user who may write, for the reward with the text of its body. -/
def StoresReward (turns : List (GameTurn κ)) (r : Reward) : Prop :=
  ∃ k m user dto, .call k m ∈ turns ∧ GameEventGuards.Operates user ∧
    srv.call k = .createReward (some user) dto ∧
    RewardService.Describes srv.casts srv.ids.cast dto user.userId r

/-- A message of the run, for the pair of the request. -/
def StoresRequest (turns : List (GameTurn κ)) (r : RewardRequest) : Prop :=
  ∃ k m request, .call k m ∈ turns ∧ srv.call k = .message request ∧
    r.userId = request.userId ∧ srv.ids.objectId request.eventId = some r.eventId

structure Authored (s : GameState) (turns : List (GameTurn κ)) (s' : GameState) : Prop where
  events : ∀ id, s'.consumer.events id = s.consumer.events id ∨ srv.UpdatesEvent turns id ∨
    s.consumer.events id = none ∧ ∃ e, s'.consumer.events id = some e ∧ srv.CreatesEvent turns e
  rewards : ∀ r ∈ s'.rewards.items, r ∈ s.rewards.items ∨ srv.StoresReward turns r
  requests : ∀ r ∈ s'.consumer.requests.items,
    r ∈ s.consumer.requests.items ∨ srv.StoresRequest turns r

end Authors

variable {s : GameState} {turns : List (GameTurn κ)}

theorem CreatesEvent.append {e : Event} (h : srv.CreatesEvent turns e) (t : GameTurn κ) :
    srv.CreatesEvent (turns ++ [t]) e := by
  obtain ⟨k, m, user, dto, hmem, hrest⟩ := h
  exact ⟨k, m, user, dto, List.mem_append_left _ hmem, hrest⟩

theorem UpdatesEvent.append {id : String} (h : srv.UpdatesEvent turns id) (t : GameTurn κ) :
    srv.UpdatesEvent (turns ++ [t]) id := by
  obtain ⟨k, m, user, target, body, hmem, hrest⟩ := h
  exact ⟨k, m, user, target, body, List.mem_append_left _ hmem, hrest⟩

theorem StoresReward.append {r : Reward} (h : srv.StoresReward turns r) (t : GameTurn κ) :
    srv.StoresReward (turns ++ [t]) r := by
  obtain ⟨k, m, user, dto, hmem, hrest⟩ := h
  exact ⟨k, m, user, dto, List.mem_append_left _ hmem, hrest⟩

theorem StoresRequest.append {r : RewardRequest} (h : srv.StoresRequest turns r)
    (t : GameTurn κ) : srv.StoresRequest (turns ++ [t]) r := by
  obtain ⟨k, m, request, hmem, hrest⟩ := h
  exact ⟨k, m, request, List.mem_append_left _ hmem, hrest⟩

theorem Authored.append {s' : GameState} (h : srv.Authored s turns s') (t : GameTurn κ) :
    srv.Authored s (turns ++ [t]) s' where
  events id := by
    obtain hsame | hupdated | ⟨hnone, e, he, hcreated⟩ := h.events id
    · exact .inl hsame
    · exact .inr (.inl (hupdated.append t))
    · exact .inr (.inr ⟨hnone, e, he, hcreated.append t⟩)
  rewards r hr := (h.rewards r hr).imp_right fun hw => hw.append t
  requests r hr := (h.requests r hr).imp_right fun hw => hw.append t

/-- What a turn of the call `k` has written is written by that call. -/
theorem Authored.effect {s' s'' : GameState} {k : κ} {m : Moment} (h : srv.Authored s turns s')
    (heffect : srv.Effect (srv.call k) s' s'') :
    srv.Authored s (turns ++ [.call k m]) s'' := by
  have hkeep := h.append (.call k m)
  have hturn : Turn.call k m ∈ turns ++ [.call k m] :=
    List.mem_append_right _ List.mem_cons_self
  cases heffect with
  | same => exact hkeep
  | createsEvent new doc hcall huser hfree hdoc =>
    refine ⟨fun id => ?_, hkeep.rewards, hkeep.requests⟩
    dsimp only
    by_cases hid : id = new
    · subst hid
      rw [Function.update_self]
      obtain hsame | hupdated | ⟨-, e, he, -⟩ := hkeep.events id
      · exact .inr (.inr ⟨hsame ▸ hfree, doc, rfl, k, m, _, _, hturn, huser, hcall, hdoc⟩)
      · exact .inr (.inl hupdated)
      · rw [hfree] at he
        cases he
    · rw [Function.update_of_ne hid]
      exact hkeep.events id
  | updatesEvent old e' hcall huser hcast hevent hversion hstore =>
    refine ⟨fun id => ?_, hkeep.rewards, hkeep.requests⟩
    dsimp only
    by_cases hid : id = old
    · subst hid
      exact .inr (.inl ⟨k, m, _, _, _, hturn, huser, hcall, hcast⟩)
    · rw [Function.update_of_ne hid]
      exact hkeep.events id
  | storesReward hcall huser hdoc hevent hfree =>
    refine ⟨hkeep.events, fun r hr => ?_, hkeep.requests⟩
    obtain hmem | hmem := List.mem_append.mp hr
    · exact hkeep.rewards r hmem
    · rw [List.mem_singleton.mp hmem]
      exact .inr ⟨k, m, _, _, hturn, huser, hcall, hdoc⟩
  | storesRequest doc hcall huser hid hevent hfree =>
    refine ⟨hkeep.events, hkeep.rewards, fun r hr => ?_⟩
    obtain hmem | hmem := List.mem_append.mp hr
    · exact hkeep.requests r hmem
    · rw [List.mem_singleton.mp hmem]
      exact .inr ⟨k, m, _, hturn, hcall, huser, hid⟩

theorem authored_reached [DecidableEq κ] (s : GameState) (turns : List (GameTurn κ)) :
    srv.Authored s turns (srv.reached s turns).shared := by
  refine run_history (I := fun us (w : World κ GameState GamePhase) => srv.Authored s us w.shared)
    ⟨fun _ => .inl rfl, fun _ h => .inl h, fun _ h => .inl h⟩ ?_ turns
  intro us t h
  cases t with
  | call k m => exact h.effect (srv.turn_effect (srv.call k) m _ (fits_reached s us k))
  | env d =>
    have hkeep := h.append (.env d)
    exact ⟨hkeep.events, hkeep.rewards, hkeep.requests⟩

section Answers
variable {s : GameState}

/-- A reward that was answered as created is stored, as the body and the caller describe it. -/
def Answered (call : GameCall srv.isDateString) (l : GamePhase) (s : GameState) : Prop :=
  match l with
  | .rewardCreated r => r ∈ s.rewards.items ∧ ∃ user dto, call = .createReward (some user) dto ∧
      GameEventGuards.Operates user ∧
      RewardService.Describes srv.casts srv.ids.cast dto user.userId r
  | _ => True

theorem Answered.mono {call : GameCall srv.isDateString} {l : GamePhase} {s s' : GameState}
    (h : Answered call l s) (hrewards : ∀ r ∈ s.rewards.items, r ∈ s'.rewards.items) :
    Answered call l s' := by
  cases l with
  | rewardCreated r => exact ⟨hrewards r h.1, h.2⟩
  | _ => trivial

end Answers

section Sample

def operatorUser : JwtUserDto := ⟨some "op", some "op@x", some [.OPERATOR]⟩

def playerUser : JwtUserDto := ⟨some "alice", some "alice@x", some [.USER]⟩

def eventKey : String := "000000000000000000000001"

def couponDto : CreateRewardDto where
  name := "coupon"
  type := .COUPON
  quantity := 1
  eventId := eventKey

/-- An operator adds a reward to an event and renames it; a player, too, adds a reward. -/
inductive SampleCall where
  | adds | renames | intrudes
  deriving DecidableEq

def sampleGame : GameServer SampleCall where
  co := Coercions.plain
  ids := .plain
  agree := EventIds.agree_plain
  casts := .plain
  parse _ := none
  isDateString _ := true
  store := .strict
  call
    | .adds => .createReward (some operatorUser) couponDto
    | .renames => .updateEvent (some operatorUser) eventKey newName
    | .intrudes => .createReward (some playerUser) couponDto

def sampleGameState : GameState where
  consumer := ⟨fun id => if id = eventKey then some sampleEvent else none, .empty, fun _ => none⟩
  rewards := .empty

def gameTurns (order : List SampleCall) : List (GameTurn SampleCall) :=
  order.map fun k => .call k { now := 5, newId := "000000000000000000000002" }

theorem references_resolve_sample :
    sampleGame.References (gameTurns [.adds, .renames, .adds, .adds])
      (sampleGame.reached sampleGameState (gameTurns [.adds, .renames, .adds, .adds])).shared :=
  references_resolve sampleGame sampleGameState ⟨fun _ h => (by cases h), fun _ h => by cases h⟩ _

theorem database_append_only_sample : Extends
    (sampleGame.reached sampleGameState (gameTurns [.adds, .adds, .adds])).shared
    (sampleGame.reached sampleGameState (gameTurns [.adds, .adds, .adds] ++
      gameTurns [.renames, .renames, .renames, .intrudes])).shared :=
  database_append_only sampleGame rfl sampleGameState _ _

end Sample
end GameServer
end MsaTuto
