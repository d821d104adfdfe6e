import MsaTuto.Accounts
import MsaTuto.RewardPipeline
import MsaTuto.SessionRenewal
import MsaTuto.Simulation

/-! The three servers together: the gateway reads its callers off the tokens that the auth server
has signed by then, and the game-event server gets what the gateway publishes for them. -/
namespace MsaTuto
open Runs Js

/-- Whom the bearer token of a request stands for at the gateway. -/
def gatewayCaller (sys : AuthSystem) (s : AuthState) (authorization : Option String) :
    Option JwtUserDto :=
  (bearerToken authorization).bind (authenticate sys .gateway s s.now)

def passportOf (info : Option String) : Option JwtUserDto → Passport
  | some user => .ok user
  | none => .error info

theorem gatewayPassport_eq (sys : AuthSystem) (s : AuthState) (info authorization : Option String) :
    gatewayPassport sys s info authorization =
      passportOf info (gatewayCaller sys s authorization) := by
  unfold gatewayPassport gatewayCaller
  cases (bearerToken authorization).bind (authenticate sys .gateway s s.now) <;> rfl

def PipelineMove.isHttp {ι μ : Type*} : PipelineMove ι μ → Bool
  | .http _ => true
  | _ => false

/-- The requests to the auth server are `requests`, those to the gateway `request`. A message is
that of an HTTP request and the caller that the gateway took it to come from. -/
structure ThreeServers (ι κ μ : Type*) where
  auth : AuthSystem
  requests : κ → AuthRequest
  request : ι → HttpRequest
  info : ι → Option String
  game : RewardPipeline (ι × Option JwtUserDto) μ
  arrival : ∀ i caller, (game.arrival (i, caller)).req = request i ∧
    (game.arrival (i, caller)).passport = passportOf (info i) caller

structure SystemState (ι κ μ : Type*) where
  auth : World κ AuthState HttpPhase
  game : PipelineState (ι × Option JwtUserDto) μ

inductive SystemMove (ι κ μ : Type*) where
  | auth (turn : Turn κ AuthMoment AuthEnv)
  /-- The gateway authenticates the request and handles it. -/
  | http (i : ι)
  | game (move : PipelineMove (ι × Option JwtUserDto) μ) (h : move.isHttp = false)

namespace ThreeServers
variable {ι κ μ : Type*}

section Model
variable (w : ThreeServers ι κ μ)

def caller (s : AuthState) (i : ι) : Option JwtUserDto :=
  gatewayCaller w.auth s (authorization (w.request i).headers)

def authTurn : SystemMove ι κ μ → Option (Turn κ AuthMoment AuthEnv)
  | .auth turn => some turn
  | _ => none

def gameMove (st : SystemState ι κ μ) :
    SystemMove ι κ μ → Option (PipelineMove (ι × Option JwtUserDto) μ)
  | .auth _ => none
  | .http i => some (.http (i, w.caller st.auth.shared i))
  | .game move _ => some move

variable [DecidableEq ι] [DecidableEq κ] [DecidableEq μ]

def step (st : SystemState ι κ μ) : SystemMove ι κ μ → SystemState ι κ μ
  | .auth turn => { st with auth := (authHttp w.auth w.requests).step st.auth turn }
  | .http i => { st with game := w.game.step st.game (.http (i, w.caller st.auth.shared i)) }
  | .game move _ => { st with game := w.game.step st.game move }

def start (a : AuthState) (s : ConsumerState) : SystemState ι κ μ :=
  ⟨httpStart a, RewardPipeline.start s⟩

def reached (a : AuthState) (s : ConsumerState) (moves : List (SystemMove ι κ μ)) :
    SystemState ι κ μ :=
  run w.step (start a s) moves

/-- The turns that the auth server takes meanwhile. -/
def authTurns (a : AuthState) (s : ConsumerState) (moves : List (SystemMove ι κ μ)) :
    List (Turn κ AuthMoment AuthEnv) :=
  followed w.step (fun _ => authTurn) (start a s) moves

def gameMoves (a : AuthState) (s : ConsumerState) (moves : List (SystemMove ι κ μ)) :
    List (PipelineMove (ι × Option JwtUserDto) μ) :=
  followed w.step w.gameMove (start a s) moves

/-- An HTTP request of the run asked for it: with a bearer token that the auth server had signed and
that had not expired, which names the user and claims the role `USER`. -/
def AskedBy (a : AuthState) (s : ConsumerState) (moves : List (SystemMove ι κ μ)) (i : ι)
    (r : RewardRequest) : Prop :=
  ∃ us vs token p, moves = us ++ .http i :: vs ∧
    bearerToken (authorization (w.request i).headers) = some token ∧
    w.auth.verify (w.reached a s us).auth.shared.signed (w.reached a s us).auth.shared.now token =
      some p ∧
    p.sub = some r.userId ∧ Role.USER ∈ p.roles.getD [] ∧
    w.game.ids.objectId ((ownFields (w.request i).body).lookup "eventId") = some r.eventId

end Model

section Parts
variable [DecidableEq ι] [DecidableEq κ] [DecidableEq μ] (w : ThreeServers ι κ μ) (a : AuthState)
  (s : ConsumerState) (moves : List (SystemMove ι κ μ))

/-- The auth server runs by itself. -/
theorem auth_run (st : SystemState ι κ μ) :
    (run w.step st moves).auth = run (authHttp w.auth w.requests).step st.auth
      (followed w.step (fun _ => authTurn) st moves) := by
  have hfollows : Simulates w.step (fun _ => authTurn) (authHttp w.auth w.requests).step
      fun st auth => st.auth = auth := by
    intro st auth move h
    subst h
    cases move <;> rfl
  exact hfollows.run (s := st) rfl moves

theorem auth_reached :
    (w.reached a s moves).auth =
      run (authHttp w.auth w.requests).step (httpStart a) (w.authTurns a s moves) :=
  auth_run w moves (start a s)

/-- So does the game-event server, with the callers that the gateway finds. -/
theorem game_follows :
    Simulates w.step w.gameMove w.game.step fun st game => st.game = game := by
  intro st game move h
  subst h
  cases move <;> rfl

theorem game_run (st : SystemState ι κ μ) :
    (run w.step st moves).game = run w.game.step st.game (followed w.step w.gameMove st moves) :=
  (game_follows w).run rfl moves

theorem game_reached : (w.reached a s moves).game = w.game.reached s (w.gameMoves a s moves) :=
  game_run w moves (start a s)

variable {w a s moves}

theorem http_of_gameMoves {i : ι} {caller : Option JwtUserDto}
    (h : .http (i, caller) ∈ w.gameMoves a s moves) :
    ∃ us vs, moves = us ++ .http i :: vs ∧
      caller = w.caller (w.reached a s us).auth.shared i := by
  obtain ⟨us', vs', hsplit⟩ := List.append_of_mem h
  obtain ⟨us, move, vs, rfl, -, himage⟩ := split_followed hsplit
  cases move with
  | auth turn => cases himage
  | http j =>
    cases himage
    exact ⟨us, vs, rfl, rfl⟩
  | game move hmove =>
    cases himage
    cases hmove

omit [DecidableEq ι] [DecidableEq κ] [DecidableEq μ] in
theorem verified_of_caller {st : AuthState} {i : ι} {user : JwtUserDto}
    (h : w.caller st i = some user) :
    ∃ token p, bearerToken (authorization (w.request i).headers) = some token ∧
      w.auth.verify st.signed st.now token = some p ∧ user = JwtStrategy.gatewayValidate p := by
  obtain ⟨token, htoken, hauth⟩ := Option.bind_eq_some_iff.mp h
  rw [authenticate_gateway] at hauth
  obtain ⟨p, hverify, huser⟩ := Option.map_eq_some_iff.mp hauth
  exact ⟨token, p, htoken, hverify, huser.symm⟩

theorem askedBy_of_askedFor {i : ι} {caller : Option JwtUserDto} {r : RewardRequest}
    (hhttp : .http (i, caller) ∈ w.gameMoves a s moves)
    (h : w.game.AskedFor (w.game.arrival (i, caller)) r) : w.AskedBy a s moves i r := by
  obtain ⟨us, vs, rfl, hcaller⟩ := http_of_gameMoves hhttp
  obtain ⟨hreq, hpassport⟩ := w.arrival i caller
  obtain ⟨⟨user, hok, hrole, hid⟩, hevent, -⟩ := h
  rw [hok] at hpassport
  cases caller with
  | none => cases hpassport
  | some user' =>
    cases hpassport
    obtain ⟨token, p, htoken, hverify, rfl⟩ := verified_of_caller hcaller.symm
    refine ⟨us, vs, token, p, rfl, htoken, hverify, hid, hrole, ?_⟩
    rwa [Arrival.bodyField, hreq] at hevent

/-- Whom a token names that the auth server had signed at some moment of a run is stored at every
later one. -/
theorem stored_of_verified {us vs : List (SystemMove ι κ μ)} (ha : SubjectsStored w.auth a)
    {token : String} {p : JwtPayload} {userId : String}
    (hverify : w.auth.verify (w.reached a s us).auth.shared.signed
      (w.reached a s us).auth.shared.now token = some p) (hsub : p.sub = some userId) :
    ∃ v ∈ (w.reached a s (us ++ vs)).auth.shared.users.items, v.id = userId := by
  obtain ⟨hsigned, hdecode, -⟩ := AuthSystem.verify_eq_some.mp hverify
  have hsubjects := (subjects_invariant.reached w.requests ha (w.authTurns a s us)).1
  have hsessions := sessionsFit_run w.auth w.requests a (w.authTurns a s us)
  rw [← auth_reached] at hsubjects hsessions
  obtain ⟨u, hu, hid⟩ := hsubjects token hsigned p hdecode
  have hkeep := accounts_keep w.auth w.requests hsessions
    (followed w.step (fun _ => authTurn) (w.reached a s us) vs)
  rw [← auth_run] at hkeep
  obtain ⟨v, hv, huv⟩ := hkeep u hu
  refine ⟨v, ?_, huv.id.trans (Option.some.inj (hid.symm.trans hsub))⟩
  rwa [reached, run_append]

end Parts

section Accounts
variable [DecidableEq ι] [DecidableEq κ] [DecidableEq μ]

/-- Every request stored in a run belongs to a stored account, which was there at the start or
registered in the run, and somebody asked for it by HTTP with a token of that account. -/
theorem requests_belong_to_accounts (w : ThreeServers ι κ μ) (a : AuthState) (s : ConsumerState)
    (ha : SubjectsStored w.auth a) (moves : List (SystemMove ι κ μ)) (r : RewardRequest)
    (hr : r ∈ (w.reached a s moves).game.server.shared.consumer.requests.items)
    (hnew : r ∉ s.requests.items) :
    (∃ i, w.AskedBy a s moves i r) ∧
      ∃ v ∈ (w.reached a s moves).auth.shared.users.items, v.id = r.userId ∧
        ((∃ u ∈ a.users.items, SameAccount u v) ∨
          ByRegistration w.auth w.requests (w.authTurns a s moves) v) := by
  rw [game_reached] at hr
  obtain hold | ⟨hu, ⟨i, caller⟩, n, call, found, e, hcall, hdoc, hread⟩ :=
    (w.game.sound_reached s (w.gameMoves a s moves)).stored r hr
  · exact absurd hold hnew
  · obtain ⟨pre, now, newId, post, hmoves, hhttp, -⟩ := hread
    have hmem : .http (i, caller) ∈ w.gameMoves a s moves := by
      rw [hmoves]
      exact List.mem_append_left _ hhttp
    have hasked := askedBy_of_askedFor hmem (RewardPipeline.askedFor_of_documents hcall hdoc hu)
    refine ⟨⟨i, hasked⟩, ?_⟩
    obtain ⟨us, vs, token, p, rfl, -, hverify, hsub, -⟩ := hasked
    obtain ⟨v, hv, hid⟩ := stored_of_verified ha hverify hsub
    refine ⟨v, hv, hid, accounts_origin w.auth w.requests a (w.authTurns a s _) v ?_⟩
    rwa [auth_reached] at hv

end Accounts

section Sample

def asksWithToken : HttpRequest :=
  ⟨"POST", "/event-requests/rewards", [], none,
    some (.obj [("eventId", .str "e1"), ("metadata", .obj [("messageId", .str "m1")])]), none,
    [("authorization", .str "Bearer access2")]⟩

/-- Alice logs in, and asks for a reward with the token she gets. -/
def sampleServers : ThreeServers Unit Unit Empty where
  auth := AuthSystem.ofTable aliceTokens
  requests := aliceLogsIn
  request _ := asksWithToken
  info _ := none
  game :=
    { RewardPipeline.samplePipeline with
      arrival := fun k => ⟨asksWithToken, passportOf none k.2, "m1", "t"⟩
      mutation := fun j => j.elim }
  arrival _ _ := ⟨rfl, rfl⟩

def sampleSystemMoves : List (SystemMove Unit Unit Empty) :=
  aliceLogsInTurns.map .auth ++ .http () ::
    List.replicate 5
      (.game (.handle ((), some ⟨some "u1", some "alice@x", some [.USER]⟩) 0 5 "r1") rfl)

theorem aliceState_subjects :
    SubjectsStored (AuthSystem.ofTable aliceTokens) (aliceState [] none) :=
  fun t ht => by cases ht

theorem sampleServers_store :
    (sampleServers.reached (aliceState [] none) EventServer.invitationState
      sampleSystemMoves).game.server.shared.consumer.requests.items.isEmpty = false := by
  decide +kernel

theorem requests_belong_to_accounts_sample :
    ∃ r ∈ (sampleServers.reached (aliceState [] none) EventServer.invitationState
        sampleSystemMoves).game.server.shared.consumer.requests.items,
      (∃ i, sampleServers.AskedBy (aliceState [] none) EventServer.invitationState
        sampleSystemMoves i r) ∧
      ∃ v ∈ (sampleServers.reached (aliceState [] none) EventServer.invitationState
          sampleSystemMoves).auth.shared.users.items, v.id = r.userId ∧
        ((∃ u ∈ (aliceState [] none).users.items, SameAccount u v) ∨
          ByRegistration sampleServers.auth sampleServers.requests (sampleServers.authTurns
            (aliceState [] none) EventServer.invitationState sampleSystemMoves) v) := by
  obtain ⟨r, hr⟩ := List.exists_mem_of_ne_nil _ (by simpa using sampleServers_store)
  exact ⟨r, hr, requests_belong_to_accounts sampleServers (aliceState [] none)
    EventServer.invitationState aliceState_subjects sampleSystemMoves r hr List.not_mem_nil⟩

end Sample
end ThreeServers
end MsaTuto
