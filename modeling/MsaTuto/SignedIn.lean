import MsaTuto.RewardDelivery
import MsaTuto.ThreeServers

/-! What a user who has signed in gets: with the access token of the answer, as long as it lasts,
a reward request in the very name that the answer shows. -/
namespace MsaTuto
open Runs Js GatewayService GatewayController AuthService RewardRequestService

section Gateway
variable (env config : Env)

theorem rewards_routes : ∀ r ∈ setupRoutes env config, r.path = "event-requests/rewards" →
    r.roles = [.USER] ∧ r.permissions = [] ∧ messageRoute r = some rewardsRabbitmq := by
  refine forall_setupRoutes (fun _ _ => Iff.rfl) ?_ env config
  simp [allRoutes, authRoutes, gameEventRoutes, userRoutes, messageRoute]

theorem rewards_route (method : String) : ∃ r,
    getRouteConfigForPath (setupRoutes env config) "event-requests/rewards" method =
      some ⟨r, r.path⟩ ∧
    r.roles = [.USER] ∧ r.permissions = [] ∧ messageRoute r = some rewardsRabbitmq := by
  have htable : ∃ r ∈ allRoutes env, r.path = "event-requests/rewards" ∧ r.methods = [] :=
    ⟨_, List.mem_append_left _ (List.mem_append_right _ (List.mem_cons_of_mem _
      List.mem_cons_self)), rfl, rfl⟩
  obtain ⟨r₁, hr₁, hpath₁, hmethods₁⟩ := htable
  obtain ⟨r, hr, hpath, hfound⟩ :=
    getRouteConfigForPath_exact (mem_setupRoutes.mpr ⟨r₁, hr₁, rfl⟩)
      (show exactly (dropSlash "event-requests/rewards") _ = true by simp [exactly, hpath₁]; decide)
      (show isMethodMatch method _ = true by simp [isMethodMatch, hmethods₁])
  have hpath : r.path = "event-requests/rewards" := of_decide_eq_true hpath
  exact ⟨r, hfound, rewards_routes env config r hr hpath⟩

variable {req : HttpRequest} {user : JwtUserDto}

/-- The gateway publishes what a user with the role `USER` sends there. -/
theorem gateway_rewards (hpath : req.path = "/event-requests/rewards")
    (hrole : Role.USER ∈ userRoles (some user)) (uuid timestamp : String) :
    ∃ params, gateway (setupRoutes env config) req (.ok user) uuid timestamp =
      .published (MsaTuto.handleMessageQueueRequest
        { withParams req params with user := some user.json } rewardsRabbitmq uuid timestamp) := by
  obtain ⟨r, hfound, hroles, hpermissions, hmessage⟩ := rewards_route env config req.method
  have hguard : canActivate req.path (.ok user) = .ok (some user) := by
    rw [hpath]
    rfl
  have hrefusal : refusal r (some user) = none := by
    simp [refusal, hroles, hpermissions, hasRole, hrole]
  have hroute : routePath req.path = "event-requests/rewards" := by
    rw [hpath]
    rfl
  have hhealth : startsWith req.path "/health" = false := by
    rw [hpath]
    decide
  refine ⟨(matchPath r.path "event-requests/rewards").getD [], ?_⟩
  simp [gateway, hguard, handleRequest, hhealth, hroute, hfound, underRoute, hrefusal, passOn,
    hmessage]

/-- The handler of the message calls the service, if the body has metadata. -/
theorem call_of_rewards {a : Arrival}
    (hpath : a.req.path = "/event-requests/rewards") (hpassport : a.passport = .ok user)
    (hrole : Role.USER ∈ userRoles (some user)) (hmeta : nullish (a.bodyField "metadata") = false) :
    (a.message (setupRoutes env config)).isSome = true ∧
      a.call (setupRoutes env config) =
        some ⟨user.userId.getD "", a.bodyField "eventId", a.bodyField "metadata"⟩ := by
  obtain ⟨params, hpublished⟩ := gateway_rewards env config hpath hrole a.uuid a.timestamp
  rw [← hpassport] at hpublished
  have hmessage : a.message (setupRoutes env config) = some (MsaTuto.handleMessageQueueRequest
      { withParams a.req params with user := some user.json } rewardsRabbitmq a.uuid
        a.timestamp) := by
    rw [Arrival.message, hpublished]
  have hread : readCorrelationId ((ownFields a.req.body).lookup "metadata") =
      .ok (optGet ((ownFields a.req.body).lookup "metadata") "messageId") := by
    have hsome : nullish ((ownFields a.req.body).lookup "metadata") = false := hmeta
    simp [readCorrelationId, Js.get, hsome]
  have huser : (EventController.textOf (user.userId.map .str)).getD "" = user.userId.getD "" := by
    cases user.userId <;> rfl
  refine ⟨by rw [hmessage]; rfl, ?_⟩
  rw [Arrival.call, hmessage, Option.bind_some, createRewardRequest_body _ _ _ _ user rfl]
  simp [readDto, withParams, hread, rewardCall, Arrival.bodyField, huser]

end Gateway

section Session
variable {sys : AuthSystem} {s s' : AuthState} {l l' : AuthPhase}

/-- Whom a session with this view is for. -/
def UserView.caller (view : UserView) : JwtUserDto :=
  ⟨some view.id, some view.email, some view.roles.reduceOption⟩

/-- The access token was signed with what the view shows. -/
def ViewSigned (sys : AuthSystem) (s : AuthState) (access : String) (view : UserView) : Prop :=
  access ∈ s.signed ∧ ∃ p, sys.decode access = some p ∧ JwtStrategy.gatewayValidate p = view.caller

def ViewFits (sys : AuthSystem) (l : AuthPhase) (s : AuthState) : Prop :=
  match l with
  | .signing userId user true => userId = user.id
  | .returned (.tokens access _ (some view)) => ViewSigned sys s access view
  | _ => True

theorem ViewFits.mono (h : ViewFits sys l s) (hsigned : s.signed ⊆ s'.signed) :
    ViewFits sys l s' := by
  cases l with
  | signing userId user shown =>
    cases shown with
    | false => trivial
    | true => exact h
  | returned result =>
    cases result with
    | tokens access refresh view =>
      cases view with
      | none => trivial
      | some view => exact ⟨hsigned h.1, h.2⟩
    | _ => trivial
  | _ => trivial

theorem viewFits_step {call : AuthCall} {m : AuthMoment} (h : Step sys call m s l l' s')
    (hl : ViewFits sys l s) : ViewFits sys l' s' := by
  cases h with
  | stays => exact hl
  | logsIn user users hset l' hl' =>
    obtain rfl | ⟨f, rfl⟩ := hl'
    · rfl
    · trivial
  | inserts | insertsUnnamed => trivial
  | saves userId user shown hf hsigns cache hsave =>
    cases shown with
    | false => trivial
    | true =>
      have hid : userId = user.id := hl
      subst hid
      obtain ⟨haccess, -, -⟩ := signsBoth_payloads hsigns
      exact ⟨by simp, _, haccess, rfl⟩
  | _ => trivial

theorem views_invariant (sys : AuthSystem) :
    ServiceInvariant sys (fun _ => True) (fun _ => True) fun _ => ViewFits sys where
  starts call s _ := trivial
  own call m l s _ _ hl := ⟨trivial, viewFits_step (act_step sys call m l s) hl⟩
  other call m l s call' l' _ _ _ hl' := hl'.mono fun t => signed_step (act_step sys call m l s)
  env e s _ := ⟨trivial, fun call l hl => hl.mono (by cases e <;> exact List.Subset.refl _)⟩

end Session

namespace ThreeServers
variable {ι κ μ : Type*} (w : ThreeServers ι κ μ)

/-- The request asks for the event's reward, with the access token. -/
structure AsksReward (i : ι) (access eventId : String) : Prop where
  path : (w.request i).path = "/event-requests/rewards"
  header : bearerToken (authorization (w.request i).headers) = some access
  event : w.game.ids.Names ((ownFields (w.request i).body).lookup "eventId") eventId
  metadata : WellFormed w.game.co ((ownFields (w.request i).body).lookup "metadata")

def isHandling [DecidableEq ι] (k : ι × Option JwtUserDto) (n : Nat) : SystemMove ι κ μ → Bool
  | .game move _ => RewardPipeline.isHandling k n move
  | _ => false

/-- Whenever this handling reads the event, it finds it open. -/
def FindsOpen (k : ι × Option JwtUserDto) (n : Nat) (eventId : String) (st : SystemState ι κ μ) :
    SystemMove ι κ μ → Prop
  | .game move _ => RewardPipeline.FindsOpen k n eventId st.game move
  | _ => True

section Caller
variable {w} {i : ι} {access : String} {view : UserView} {st : AuthState}

/-- The gateway takes the request to come from whom the view shows. -/
theorem caller_of_view (hheader : bearerToken (authorization (w.request i).headers) = some access)
    (hview : ViewSigned w.auth st access view)
    (hlive : ∀ exp, w.auth.expiry access = some exp → st.now < exp * 1000) :
    w.caller st i = some view.caller := by
  obtain ⟨hsigned, p, hdecode, hcaller⟩ := hview
  have hverify : w.auth.verify st.signed st.now access = some p := by
    refine AuthSystem.verify_eq_some.mpr ⟨hsigned, hdecode, fun exp hexp => ?_⟩
    have hlt := hlive exp (by simp [AuthSystem.expiry, hdecode, hexp])
    omega
  rw [caller, gatewayCaller, hheader, Option.bind_some, authenticate_gateway, hverify,
    Option.map_some, hcaller]

variable {eventId : String}

theorem call_of_asksReward (h : w.AsksReward i access eventId)
    (hrole : some Role.USER ∈ view.roles) :
    ((w.game.arrival (i, some view.caller)).message w.game.routes).isSome = true ∧
      ∃ call, w.game.callOf (i, some view.caller) = some call ∧ call.userId = view.id ∧
        w.game.ids.Names call.eventId eventId ∧ WellFormed w.game.co call.metadata := by
  obtain ⟨hreq, hpassport⟩ := w.arrival i (some view.caller)
  have hfield : ∀ name, (w.game.arrival (i, some view.caller)).bodyField name =
      (ownFields (w.request i).body).lookup name := by
    intro name
    rw [Arrival.bodyField, hreq]
  obtain ⟨hmessage, hcall⟩ := call_of_rewards w.game.env w.game.config (by rw [hreq]; exact h.path)
    hpassport (List.reduceOption_mem_iff.mpr hrole) (by rw [hfield]; exact h.metadata.given)
  refine ⟨hmessage, _, hcall, rfl, ?_⟩
  rw [hfield, hfield]
  exact ⟨h.event, h.metadata⟩

end Caller

section Served
variable [DecidableEq ι] [DecidableEq κ] [DecidableEq μ] {w}

theorem view_of_returned (a : AuthState) (s : ConsumerState) (moves : List (SystemMove ι κ μ))
    {k : κ} {call : AuthCall} {access refresh : String} {view : UserView}
    (h : (w.reached a s moves).auth.calls k =
      .serving call (.returned (.tokens access refresh (some view)))) :
    ViewSigned w.auth (w.reached a s moves).auth.shared access view := by
  rw [auth_reached] at h ⊢
  have hserved :=
    ((views_invariant w.auth).reached w.requests (s := a) trivial (w.authTurns a s moves)).2 k
  rw [h] at hserved
  exact hserved.2

omit [DecidableEq κ] [DecidableEq μ] in
theorem isHandling_game {j : ι × Option JwtUserDto} {n : Nat} {st : SystemState ι κ μ}
    {move : SystemMove ι κ μ} (h : isHandling j n move = true) :
    ∃ t, w.gameMove st move = some t ∧ RewardPipeline.isHandling j n t = true := by
  cases move with
  | game t ht => exact ⟨t, rfl, h⟩
  | _ => cases h

/-- What the run finds open, the run of the game-event server in it does. -/
theorem findsOpen_game {j : ι × Option JwtUserDto} {n : Nat} {eventId : String}
    {st : SystemState ι κ μ} {moves : List (SystemMove ι κ μ)}
    (h : Along w.step (FindsOpen j n eventId) st moves) :
    Along w.game.step (RewardPipeline.FindsOpen j n eventId) st.game
      (followed w.step w.gameMove st moves) := by
  refine (game_follows w).along ?_ rfl h
  rintro st game move t rfl hopen himage
  cases move with
  | auth turn => cases himage
  | http i =>
    cases himage
    trivial
  | game move hmove =>
    cases himage
    exact hopen

/-- The gateway has published the request, and the game-event server has not seen it yet. -/
theorem published_of_http {a : AuthState} {s : ConsumerState} (past : List (SystemMove ι κ μ))
    {i : ι} {caller : Option JwtUserDto}
    (hcaller : w.caller (w.reached a s past).auth.shared i = caller)
    (hmessage : ((w.game.arrival (i, caller)).message w.game.routes).isSome = true) :
    (i, caller) ∈ (w.reached a s (past ++ [.http i])).game.published ∧
      (w.reached a s (past ++ [.http i])).game.server = (w.reached a s past).game.server := by
  have hthere : (w.reached a s (past ++ [.http i])).game =
      w.game.step (w.reached a s past).game (.http (i, caller)) := by
    rw [reached, run_append, ← hcaller]
    rfl
  rw [hthere, RewardPipeline.step, if_pos hmessage]
  exact ⟨List.mem_cons_self, rfl⟩

/-- Whoever has signed in and was shown the role `USER` can ask for a reward until the token
expires, at the gateway also after a logout: once the request is there, a handling of its message
that gets its five turns and finds the event open ends with a request stored, in the name that the
answer showed. -/
theorem signed_in_request_is_stored (w : ThreeServers ι κ μ) (a : AuthState) (s : ConsumerState)
    (past rest : List (SystemMove ι κ μ)) (n : Nat) {i : ι} {k : κ} {call : AuthCall}
    {access refresh eventId : String} {view : UserView}
    (hsession : (w.reached a s past).auth.calls k =
      .serving call (.returned (.tokens access refresh (some view))))
    (hrole : some Role.USER ∈ view.roles) (hid : view.id ≠ "")
    (hlive : ∀ exp, w.auth.expiry access = some exp →
      (w.reached a s past).auth.shared.now < exp * 1000)
    (hasks : w.AsksReward i access eventId)
    (hfresh : (w.reached a s past).game.server.calls ((i, some view.caller), n) = .started)
    (hopen : Along w.step (FindsOpen (i, some view.caller) n eventId)
      (w.reached a s (past ++ [.http i])) rest)
    (hturns : 5 ≤ rest.countP (isHandling (i, some view.caller) n)) :
    ∃ r, (w.reached a s (past ++ .http i :: rest)).game.server.shared.consumer.requests.findOne
      view.id eventId = some r := by
  have hcaller : w.caller (w.reached a s past).auth.shared i = some view.caller :=
    caller_of_view hasks.header (view_of_returned a s past hsession) hlive
  obtain ⟨hmessage, pending, hcall, huser, hevent, hmeta⟩ := call_of_asksReward hasks hrole
  obtain ⟨hpublished, hserver⟩ := published_of_http past hcaller hmessage
  have hturns' : 5 ≤ (followed w.step w.gameMove (w.reached a s (past ++ [.http i])) rest).countP
      (RewardPipeline.isHandling (i, some view.caller) n) :=
    Nat.le_trans hturns (countP_followed w.step (fun _ _ => isHandling_game) _ rest)
  obtain ⟨-, r, hr⟩ := RewardPipeline.handled_to_the_end hcall hevent hmeta (huser ▸ hid) hpublished
    (by rw [hserver]; exact hfresh) (findsOpen_game hopen) hturns'
  have hend : w.reached a s (past ++ .http i :: rest) =
      run w.step (w.reached a s (past ++ [.http i])) rest := by
    have hsplit : past ++ .http i :: rest = (past ++ [.http i]) ++ rest := by simp
    rw [hsplit, reached, run_append]
    rfl
  rw [hend, game_run]
  exact ⟨r, huser ▸ hr⟩

/-- No operator's call has a turn, and the event is open at the times of this handling. -/
def LeavesOpen (j : ι × Option JwtUserDto) (n : Nat) (e : Event) : SystemMove ι κ μ → Prop
  | .game move _ => RewardPipeline.LeavesOpen j n e move
  | _ => True

theorem along_findsOpen {j : ι × Option JwtUserDto} {n : Nat} {eventId : String} {e : Event}
    {rest : List (SystemMove ι κ μ)} (hrest : ∀ move ∈ rest, LeavesOpen j n e move)
    {st : SystemState ι κ μ} (he : st.game.server.shared.consumer.events eventId = some e) :
    Along w.step (FindsOpen j n eventId) st rest := by
  refine along_of_invariant (I := fun st : SystemState ι κ μ =>
    st.game.server.shared.consumer.events eventId = some e) ?_ ?_ he (along_of_mem hrest st)
  · intro st move he hmove
    cases move with
    | auth turn => exact he
    | http i => exact RewardPipeline.leavesOpen_step (i := j) (n := n) he trivial
    | game t ht => exact RewardPipeline.leavesOpen_step he hmove
  · intro st move he hmove
    cases move with
    | game t ht => exact RewardPipeline.findsOpen_of_leavesOpen he hmove
    | _ => trivial

end Served

section Sample

/-- Alice asks with the token that her login has just returned. -/
def aliceIsServed : List (SystemMove Unit Unit Empty) :=
  List.replicate 5 (.game (.handle ((), some alice.view.caller) 0 5 "r1") rfl)

theorem signed_in_request_is_stored_sample :
    ∃ r, (sampleServers.reached (aliceState [] none) EventServer.invitationState
      (aliceLogsInTurns.map .auth ++
        .http () :: aliceIsServed)).game.server.shared.consumer.requests.findOne alice.view.id
          "e1" = some r := by
  have hsession : (sampleServers.reached (aliceState [] none) EventServer.invitationState
      (aliceLogsInTurns.map .auth)).auth.calls () = .serving (.login "alice@x" "secret99")
        (.returned (.tokens "access2" "refresh2" (some alice.view))) := rfl
  have hlive : ∀ exp, sampleServers.auth.expiry "access2" = some exp →
      (sampleServers.reached (aliceState [] none) EventServer.invitationState
        (aliceLogsInTurns.map .auth)).auth.shared.now < exp * 1000 := by decide
  have hasks : sampleServers.AsksReward () "access2" "e1" :=
    ⟨rfl, by decide, RewardPipeline.samplePipeline.agree.names rfl, ⟨rfl, rfl⟩⟩
  refine signed_in_request_is_stored sampleServers (aliceState [] none) EventServer.invitationState
    (aliceLogsInTurns.map .auth) aliceIsServed 0 hsession (by decide) (by decide) hlive hasks rfl
    (along_findsOpen (e := { sampleEvent with type := some .FRIEND_INVITATION }) ?_ rfl) (by decide)
  intro move hmove
  rw [List.eq_of_mem_replicate hmove]
  exact fun _ _ => ⟨rfl, rfl, by decide, by decide⟩

end Sample
end ThreeServers
end MsaTuto
