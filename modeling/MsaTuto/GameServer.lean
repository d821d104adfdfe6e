import MsaTuto.AtomicEvents
import MsaTuto.Rewards
import MsaTuto.RoleChecks

/-! The game-event server as a whole: the writing endpoints of `event.controller.ts` and
`reward.controller.ts` behind their guards, and the handler of the reward requests, on one
database. -/
namespace MsaTuto
open Js Runs RewardRequestService

namespace GameEventGuards

/-- `@Roles(UserRole.OPERATOR, UserRole.ADMIN)`. -/
def operatorRoles : List Role := [.OPERATOR, .ADMIN]

/-- `JwtAuthGuard`, for what the strategy makes of the bearer token if anything, and then
`RolesGuard`. -/
def operator (user : Option JwtUserDto) : Except Failure JwtUserDto :=
  match user with
  | none => .error (.http .unauthorized "Unauthorized")
  | some user =>
    if rolesGuard (some operatorRoles) (some user) then .ok user
    else .error (.http .forbidden "Forbidden resource")

/-- The user may write. -/
def Operates (user : JwtUserDto) : Prop :=
  Role.OPERATOR ∈ userRoles (some user) ∨ Role.ADMIN ∈ userRoles (some user)

theorem operator_ok {caller : Option JwtUserDto} {user : JwtUserDto}
    (h : operator caller = .ok user) : caller = some user ∧ Operates user := by
  cases caller with
  | none => cases h
  | some u =>
    by_cases hroles : rolesGuard (some operatorRoles) (some u) = true
    · simp only [operator, hroles, if_true, Except.ok.injEq] at h
      subst h
      exact ⟨rfl, by simpa [rolesGuard, operatorRoles, Operates, userRoles] using hroles⟩
    · simp [operator, hroles] at h

end GameEventGuards

/-- The HTTP calls with the caller they are made by, and the messages of the queue. -/
inductive GameCall (isDateString : String → Bool) where
  | createEvent (user : Option JwtUserDto) (dto : CreateEventDto)
  | updateEvent (user : Option JwtUserDto) (id : String) (body : AcceptedUpdate isDateString)
  | createReward (user : Option JwtUserDto) (dto : CreateRewardDto)
  | message (call : RewardCall Value)

/-- Whom the guards look at; a message has none. -/
def GameCall.caller {isDateString : String → Bool} :
    GameCall isDateString → Option (Option JwtUserDto)
  | .createEvent user _ | .updateEvent user _ _ | .createReward user _ => some user
  | .message _ => none

inductive GamePhase where
  | started
  | raised (failure : Failure)
  | accepted (user : JwtUserDto)
  | eventCreated (event : Event)
  | updating (user : JwtUserDto) (phase : MutationPhase)
  | storingReward (doc : Reward)
  | rewardCreated (reward : Reward)
  | handling (phase : RewardPhase)

structure GameState where
  consumer : ConsumerState
  rewards : RewardCollection

structure KeyDrop where
  key : String
  now : Int

structure GameServer (κ : Type*) where
  co : Coercions
  ids : EventIds Value
  agree : ids.AgreeOnTexts
  casts : Mongoose.Casts
  parse : String → JsDate
  isDateString : String → Bool
  store : EventStore
  call : κ → GameCall isDateString

namespace GameServer
variable {κ : Type*} (srv : GameServer κ)

/-- The server as far as its writes to the events go. -/
def writes : EventBackend Empty Empty Value where
  co := srv.co
  ids := srv.ids
  objectId := srv.ids.cast
  parse := srv.parse
  store := srv.store
  call k := k.elim
  mutation j := j.elim

/-- The update of the handler: `@User('id')` is what it takes its caller from. -/
def updateOf (user : JwtUserDto) (id : String) (body : AcceptedUpdate srv.isDateString) :
    Mutation :=
  .update id body.dto (EventController.textOf (userDecorator "id" (some user.json))) body.version

/-- The guards let the call through, or a message is taken up. -/
def begin (call : GameCall srv.isDateString) : GamePhase :=
  match call.caller with
  | none => .handling .started
  | some caller =>
    match GameEventGuards.operator caller with
    | .ok user => .accepted user
    | .error f => .raised f

/-- One turn of a call. -/
def turn (call : GameCall srv.isDateString) (m : Moment) (l : GamePhase) (s : GameState) :
    GamePhase × GameState :=
  match call, l with
  | call, .started => (srv.begin call, s)
  | .createEvent _ dto, .accepted user =>
    match EventService.create srv.casts srv.parse s.consumer.events dto user.userId m.newId with
    | (events, .ok event) =>
      (.eventCreated event, { s with consumer := { s.consumer with events := events } })
    | (_, .error f) => (.raised f, s)
  | .updateEvent _ id body, .accepted user =>
    let out := srv.writes.mutate (srv.updateOf user id body) m.now .started s.consumer.events
    (.updating user out.1, { s with consumer := { s.consumer with events := out.2 } })
  | .updateEvent _ id body, .updating user l =>
    let out := srv.writes.mutate (srv.updateOf user id body) m.now l s.consumer.events
    (.updating user out.1, { s with consumer := { s.consumer with events := out.2 } })
  | .createReward _ dto, .accepted user =>
    match RewardService.create srv.casts srv.ids.cast s.consumer.events dto user.userId
        m.newId with
    | .ok doc => (.storingReward doc, s)
    | .error f => (.raised f, s)
  | .createReward _ _, .storingReward doc =>
    match s.rewards.save doc with
    | .ok rewards => (.rewardCreated doc, { s with rewards := rewards })
    | .error f => (.raised f, s)
  | .message call, .handling l =>
    let out := createEventRewardRequest srv.co srv.ids call m l s.consumer
    (.handling out.1, { s with consumer := out.2 })
  | _, l => (l, s)

def pool : Pool κ Moment KeyDrop GameState GamePhase where
  act k m l s := srv.turn (srv.call k) m l s
  env d s := { s with consumer := (ConsumerEnv.dropKey d.key d.now).act s.consumer }

abbrev GameTurn (κ : Type*) := Turn κ Moment KeyDrop

def start (s : GameState) : World κ GameState GamePhase := ⟨s, fun _ => .started⟩

def reached [DecidableEq κ] (s : GameState) (turns : List (GameTurn κ)) :
    World κ GameState GamePhase :=
  run srv.pool.step (start s) turns

section Turns
variable {srv} {call : GameCall srv.isDateString} {m : Moment} {l : GamePhase} {s : GameState}

variable (srv) in
/-- What the handler of a request has read, or is about to store. Only where all take its `eventId`
for one id is the event that was found the one of the request. -/
def HandlingFits (request : RewardCall Value) (phase : RewardPhase) (events : EventCollection) :
    Prop :=
  match phase with
  | .cacheCheck _ _ | .replayLookup _ | .lookup _ => ∀ eventId,
      srv.ids.Names request.eventId eventId → (events eventId).isSome = true
  | .saving doc => doc.userId = request.userId ∧
      srv.ids.objectId request.eventId = some doc.eventId ∧
      (srv.ids.Names request.eventId doc.eventId → (events doc.eventId).isSome = true)
  | _ => True

/-- What a call that is under way has passed and read. -/
def Fits (call : GameCall srv.isDateString) (l : GamePhase) (events : EventCollection) : Prop :=
  match l with
  | .accepted user => call.caller = some (some user) ∧ GameEventGuards.Operates user
  | .updating user phase => call.caller = some (some user) ∧ GameEventGuards.Operates user ∧
      ∀ patch, phase = .writing patch → patch.version.isSome = true
  | .storingReward doc => ∃ user dto, call = .createReward (some user) dto ∧
      GameEventGuards.Operates user ∧
      RewardService.Describes srv.casts srv.ids.cast dto user.userId doc ∧
      (events doc.eventId).isSome = true
  | .handling phase => ∃ request, call = .message request ∧
      srv.HandlingFits request phase events
  | _ => True

variable (srv) in
/-- All that one turn can do to the database. -/
inductive Effect (call : GameCall srv.isDateString) (s : GameState) : GameState → Prop
  | same : Effect call s s
  | createsEvent {user : JwtUserDto} {dto : CreateEventDto} (id : String) (e : Event)
      (hcall : call = .createEvent (some user) dto) (huser : GameEventGuards.Operates user)
      (hfree : s.consumer.events id = none)
      (hdoc : EventService.Describes srv.casts srv.parse dto user.userId e) :
    Effect call s ⟨{ s.consumer with
      events := Function.update s.consumer.events id (some e) }, s.rewards⟩
  | updatesEvent {user : JwtUserDto} {target : String} {body : AcceptedUpdate srv.isDateString}
      (id : String) {e : Event} (e' : Event) (hcall : call = .updateEvent (some user) target body)
      (huser : GameEventGuards.Operates user) (hid : srv.ids.cast target = some id)
      (hevent : s.consumer.events id = some e) (hversion : e'.version = e.version + 1)
      (hstore : srv.store ≠ .strict) :
    Effect call s ⟨{ s.consumer with
      events := Function.update s.consumer.events id (some e') }, s.rewards⟩
  | storesReward {user : JwtUserDto} {dto : CreateRewardDto} {doc : Reward}
      (hcall : call = .createReward (some user) dto) (huser : GameEventGuards.Operates user)
      (hdoc : RewardService.Describes srv.casts srv.ids.cast dto user.userId doc)
      (hevent : (s.consumer.events doc.eventId).isSome = true)
      (hfree : doc.id ∉ s.rewards.items.map (·.id)) :
    Effect call s ⟨s.consumer, s.rewards.insert doc hfree⟩
  | storesRequest {request : RewardCall Value} (doc : RewardRequest)
      (hcall : call = .message request) (huser : doc.userId = request.userId)
      (hid : srv.ids.objectId request.eventId = some doc.eventId)
      (hevent : srv.ids.Names request.eventId doc.eventId →
        (s.consumer.events doc.eventId).isSome = true)
      (hfree : s.consumer.requests.findOne doc.userId doc.eventId = none) :
    Effect call s ⟨{ s.consumer with requests := s.consumer.requests.insert doc hfree },
      s.rewards⟩

/-- The document of an update names the version, as the body does. -/
theorem updateRead_version {parse : String → JsDate} {c : EventCollection} {id : String}
    {dto : UpdateEventDto} {u : Option String} {v : Rat} {patch : EventPatch}
    (h : EventService.updateRead parse c id dto u v = .ok patch) : patch.version = dto.version := by
  simp only [EventService.updateRead] at h
  split at h
  · cases h
  · split at h
    · cases h
    · split at h
      · cases h
      · cases h
        rfl

/-- Under MongoDB's rule a document that names the version is never written. -/
theorem strict_keeps (parse : String → JsDate) (id : String) (dto : UpdateEventDto)
    (u : Option String) (v : Rat) (now : Int) {l : MutationPhase} (c : EventCollection)
    (hl : ∀ patch, l = .writing patch → patch.version.isSome = true) :
    ((Mutation.update id dto u v).act parse .strict now l c).2 = c := by
  cases l with
  | started =>
    simp only [Mutation.act]
    cases EventService.updateRead parse c id dto u v <;> rfl
  | writing patch =>
    have hrefuses : EventStore.strict.refuses patch = true := hl patch rfl
    simp [Mutation.act, EventService.updateWrite, EventService.write,
      EventStore.findOneAndUpdate, hrefuses]
  | committed e => rfl
  | removed answer => rfl
  | raised f => rfl

variable (srv) in
/-- What an update does to the events, if its document names the version. -/
theorem update_cases (user : JwtUserDto) (target : String)
    (body : AcceptedUpdate srv.isDateString) (now : Int) {l : MutationPhase}
    (events : EventCollection)
    (hl : ∀ patch, l = .writing patch → patch.version.isSome = true) :
    (srv.writes.mutate (srv.updateOf user target body) now l events).2 = events ∨
    ∃ id e e', srv.ids.cast target = some id ∧ events id = some e ∧
      e'.version = e.version + 1 ∧ srv.store ≠ .strict ∧
      (srv.writes.mutate (srv.updateOf user target body) now l events).2 =
        Function.update events id (some e') := by
  simp only [EventBackend.mutate, writes, updateOf, Mutation.target]
  cases hid : srv.ids.cast target with
  | none => exact .inl rfl
  | some id =>
    let view : EventCollection := fun raw => (srv.ids.cast raw).bind events
    let caller := EventController.textOf (userDecorator "id" (some user.json))
    have hview : view target = events id := by simp [view, hid]
    by_cases hstore : srv.store = .strict
    · have hkeep := strict_keeps srv.parse target body.dto caller body.version now view hl
      rw [← hstore] at hkeep
      refine .inl ?_
      dsimp only
      rw [hkeep, hview, Function.update_eq_self]
    · obtain ⟨hsame, -⟩ | ⟨-, e, e', he, hv, -, hact⟩ :=
        (Mutation.update target body.dto caller body.version).act_cases srv.parse srv.store now l
          view
      · refine .inl ?_
        dsimp only
        rw [hsame, hview, Function.update_eq_self]
      · refine .inr ⟨id, e, e', rfl, hview ▸ he, hv, hstore, ?_⟩
        dsimp only
        rw [hact]
        simp [Mutation.target]

theorem update_writing {user : JwtUserDto} {target : String}
    {body : AcceptedUpdate srv.isDateString} {now : Int} {l : MutationPhase}
    {events : EventCollection} {patch : EventPatch}
    (h : (srv.writes.mutate (srv.updateOf user target body) now l events).1 = .writing patch) :
    patch.version.isSome = true := by
  simp only [EventBackend.mutate, writes, updateOf, Mutation.target] at h
  cases hid : srv.ids.cast target with
  | none => simp [hid] at h
  | some id =>
    simp only [hid] at h
    cases l with
    | started =>
      simp only [Mutation.act] at h
      split at h
      next read hread =>
        cases h
        rw [updateRead_version hread, body.version_given]
        rfl
      next => cases h
    | writing old =>
      simp only [Mutation.act] at h
      cases hout : (EventService.updateWrite srv.store
          (fun raw => (srv.ids.cast raw).bind events) target body.version old).2 <;>
        simp [hout, MutationPhase.ofResult] at h
    | committed e => cases h
    | removed answer => cases h
    | raised f => cases h

variable (srv) in
theorem turn_effect (call : GameCall srv.isDateString) (m : Moment) {l : GamePhase} (s : GameState)
    (h : Fits call l s.consumer.events) : srv.Effect call s (srv.turn call m l s).2 := by
  cases l with
  | started => cases call <;> exact .same
  | raised f => cases call <;> exact .same
  | eventCreated e => cases call <;> exact .same
  | rewardCreated r => cases call <;> exact .same
  | accepted user =>
    obtain ⟨hcaller, huser⟩ := h
    cases call with
    | message request => exact .same
    | createEvent caller dto =>
      cases hcaller
      obtain ⟨f, hout⟩ | ⟨id, e, hfree, hdoc, hout⟩ :=
        EventService.create_cases srv.casts srv.parse s.consumer.events dto user.userId m.newId
      · simp only [turn, hout]
        exact .same
      · simp only [turn, hout]
        exact .createsEvent id e rfl huser hfree hdoc
    | updateEvent caller target body =>
      cases hcaller
      obtain hsame | ⟨id, e, e', hid, he, hv, hstore, hout⟩ :=
        srv.update_cases user target body m.now (l := .started) s.consumer.events
          fun _ h => by cases h
      · simp only [turn, hsame]
        exact .same
      · simp only [turn, hout]
        exact .updatesEvent id e' rfl huser hid he hv hstore
    | createReward caller dto =>
      simp only [turn]
      split <;> exact .same
  | updating user phase =>
    obtain ⟨hcaller, huser, hphase⟩ := h
    cases call with
    | updateEvent caller target body =>
      cases hcaller
      obtain hsame | ⟨id, e, e', hid, he, hv, hstore, hout⟩ :=
        srv.update_cases user target body m.now s.consumer.events hphase
      · simp only [turn, hsame]
        exact .same
      · simp only [turn, hout]
        exact .updatesEvent id e' rfl huser hid he hv hstore
    | _ => exact .same
  | storingReward doc =>
    obtain ⟨user, dto, rfl, huser, hdoc, hevent⟩ := h
    simp only [turn, RewardCollection.save]
    by_cases hfree : doc.id ∉ s.rewards.items.map (·.id)
    · simp only [hfree, not_false_eq_true, dif_pos]
      exact .storesReward rfl huser hdoc hevent hfree
    · simp only [hfree, dif_neg, not_false_eq_true]
      exact .same
  | handling phase =>
    obtain ⟨request, rfl, hphase⟩ := h
    simp only [turn]
    obtain ⟨hs, -⟩ | ⟨doc, hfree, rfl, -, hs⟩ := turn_cases srv.co srv.ids request m phase
      s.consumer
    · rw [hs]
      exact .same
    · rw [hs]
      obtain ⟨huser, hid, hevent⟩ := hphase
      exact .storesRequest (doc.stamped m.now) rfl huser hid hevent hfree

theorem begin_fits (call : GameCall srv.isDateString) (events : EventCollection) :
    Fits call (srv.begin call) events := by
  unfold begin
  cases hcaller : call.caller with
  | none =>
    cases call with
    | message request => exact ⟨request, rfl, trivial⟩
    | _ => cases hcaller
  | some caller =>
    cases hguard : GameEventGuards.operator caller with
    | error f => simp only [hguard]; trivial
    | ok user =>
      obtain ⟨rfl, huser⟩ := GameEventGuards.operator_ok hguard
      simp only [hguard]
      exact ⟨hcaller, huser⟩

/-- A turn of the handler, on events that it does not touch. -/
theorem handlingFits_turn {request : RewardCall Value} {phase : RewardPhase} (m : Moment)
    (s : GameState) (h : srv.HandlingFits request phase s.consumer.events) :
    srv.HandlingFits request
      (createEventRewardRequest srv.co srv.ids request m phase s.consumer).1
      s.consumer.events := by
  have hstep := turn_step srv.co srv.ids request m phase s.consumer
  generalize createEventRewardRequest srv.co srv.ids request m phase s.consumer = out
    at hstep ⊢
  obtain ⟨l', s'⟩ := out
  cases hstep with
  | reads e correlationId hcheck =>
    obtain ⟨found, hselect, he, -⟩ := openAt_of_checkEvent hcheck
    intro id hnames
    rw [hnames.selected, Option.some.injEq] at hselect
    obtain ⟨rfl, -⟩ := EventCollection.live_eq_some.mp hselect
    rw [he, Option.isSome_some]
  | decides e doc hnone hdoc =>
    obtain ⟨hu, he⟩ := newRequest_pair hdoc
    exact ⟨hu, he, h doc.eventId⟩
  | stays hended => exact h
  | hits e correlationId => exact h
  | misses e correlationId => exact h
  | proceeds e hnone => exact h
  | _ => trivial

variable (srv) in
theorem turn_fits (call : GameCall srv.isDateString) (m : Moment) {l : GamePhase} (s : GameState)
    (h : Fits call l s.consumer.events) :
    Fits call (srv.turn call m l s).1 (srv.turn call m l s).2.consumer.events := by
  cases l with
  | started => cases call <;> exact begin_fits _ _
  | accepted user =>
    cases call with
    | message request => exact h
    | createEvent caller dto =>
      simp only [turn]
      split <;> trivial
    | updateEvent caller target body => exact ⟨h.1, h.2, fun patch hp => update_writing hp⟩
    | createReward caller dto =>
      obtain ⟨hcaller, huser⟩ := h
      cases hcaller
      simp only [turn]
      split
      next doc hdoc =>
        obtain ⟨hdescribes, e, he, -⟩ := RewardService.create_ok hdoc
        exact ⟨user, dto, rfl, huser, hdescribes, by simp [he]⟩
      · trivial
  | updating user phase =>
    cases call with
    | updateEvent caller target body => exact ⟨h.1, h.2.1, fun patch hp => update_writing hp⟩
    | _ => exact h
  | storingReward doc =>
    obtain ⟨user, dto, rfl, hrest⟩ := h
    simp only [turn]
    split <;> trivial
  | handling phase =>
    obtain ⟨request, rfl, hphase⟩ := h
    have hevents : (srv.turn (.message request) m (.handling phase) s).2.consumer.events =
        s.consumer.events := by
      simp only [turn]
      obtain ⟨hs, -⟩ | ⟨doc, hfree, -, -, hs⟩ := turn_cases srv.co srv.ids request m phase
        s.consumer <;> rw [hs]
    rw [hevents]
    exact ⟨request, rfl, handlingFits_turn m s hphase⟩
  | _ => cases call <;> exact h

/-- No turn removes an event. -/
theorem Effect.keeps_event {call : GameCall srv.isDateString} {s s' : GameState}
    (h : srv.Effect call s s') {id : String} (he : (s.consumer.events id).isSome = true) :
    (s'.consumer.events id).isSome = true := by
  have hupdate : ∀ (id' : String) (e : Event),
      (Function.update s.consumer.events id' (some e) id).isSome = true := by
    intro id' e
    by_cases hid : id = id'
    · rw [hid, Function.update_self]
      rfl
    · rw [Function.update_of_ne hid, he]
  cases h with
  | createsEvent => exact hupdate _ _
  | updatesEvent => exact hupdate _ _
  | _ => exact he

theorem HandlingFits.mono {request : RewardCall Value} {phase : RewardPhase}
    {events events' : EventCollection} (h : srv.HandlingFits request phase events)
    (hevents : ∀ id, (events id).isSome = true → (events' id).isSome = true) :
    srv.HandlingFits request phase events' := by
  cases phase with
  | saving doc => exact ⟨h.1, h.2.1, fun hnames => hevents _ (h.2.2 hnames)⟩
  | cacheCheck e correlationId => exact fun id hnames => hevents id (h id hnames)
  | replayLookup e => exact fun id hnames => hevents id (h id hnames)
  | lookup e => exact fun id hnames => hevents id (h id hnames)
  | _ => trivial

theorem Fits.mono {call : GameCall srv.isDateString} {events events' : EventCollection}
    (h : Fits call l events)
    (hevents : ∀ id, (events id).isSome = true → (events' id).isSome = true) :
    Fits call l events' := by
  cases l with
  | storingReward doc =>
    obtain ⟨user, dto, hcall, huser, hdoc, he⟩ := h
    exact ⟨user, dto, hcall, huser, hdoc, hevents _ he⟩
  | handling phase =>
    obtain ⟨request, hcall, hphase⟩ := h
    exact ⟨request, hcall, hphase.mono hevents⟩
  | _ => exact h

variable (srv) in
theorem fits_stable : Stable srv.pool (fun _ _ => True) (fun _ => True)
    (fun k l s => Fits (srv.call k) l s.consumer.events) where
  own w k m _ _ h := ⟨trivial, srv.turn_fits (srv.call k) m w.shared h⟩
  other w k m _ _ _ h _ hother :=
    hother.mono fun _ => (srv.turn_effect (srv.call k) m w.shared h).keeps_event
  env _ _ _ _ := ⟨trivial, fun _ h => h⟩

/-- What every call in a run has passed and read. -/
theorem fits_reached [DecidableEq κ] (s : GameState) (turns : List (GameTurn κ)) (k : κ) :
    Fits (srv.call k) ((srv.reached s turns).calls k)
      (srv.reached s turns).shared.consumer.events :=
  ((fits_stable srv).always (w := start s) ⟨trivial, fun _ => trivial⟩
    (along_of_forall (fun _ _ => trivial) _ turns)).last.2 k

end Turns
end GameServer
end MsaTuto
