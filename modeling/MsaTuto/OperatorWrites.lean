import MsaTuto.GameDatabase
import MsaTuto.Provenance
import MsaTuto.Simulation

/-! The auth server and the game-event server together: the guards of the writing endpoints read
their callers off the tokens that the auth server has signed by then, so that every write goes back
to a role that somebody was given. -/
namespace MsaTuto
open Runs

def GamePhase.isStarted : GamePhase → Bool
  | .started => true
  | _ => false

/-- The calls of the game-event server are those of the requests, each by the caller that the guards
take it to come from, and the messages of the queue. -/
structure Backends (κ χ : Type*) where
  auth : AuthSystem
  requests : κ → AuthRequest
  header : χ → Option String
  game : GameServer (χ × Option JwtUserDto)
  caller : ∀ x user, (game.call (x, user)).caller = some user ∨ (game.call (x, user)).caller = none

structure BackendState (κ χ : Type*) where
  auth : World κ AuthState HttpPhase
  game : World (χ × Option JwtUserDto) GameState GamePhase

inductive BackendMove (κ χ : Type*) where
  | auth (turn : Turn κ AuthMoment AuthEnv)
  /-- The request comes in, and passport looks at its token. -/
  | arrives (x : χ) (m : Moment)
  /-- A later turn of its call. -/
  | game (x : χ) (user : Option JwtUserDto) (m : Moment)
  | expires (d : KeyDrop)

namespace Backends
variable {κ χ : Type*}

section Model
variable (w : Backends κ χ)

/-- Whom the bearer token of the request stands for at the game-event server. -/
def callerOf (s : AuthState) (x : χ) : Option JwtUserDto :=
  (bearerToken (w.header x)).bind (authenticate w.auth .gameEvent s s.now)

def authTurn : BackendMove κ χ → Option (Turn κ AuthMoment AuthEnv)
  | .auth turn => some turn
  | _ => none

def gameTurn (st : BackendState κ χ) :
    BackendMove κ χ → Option (GameServer.GameTurn (χ × Option JwtUserDto))
  | .auth _ => none
  | .arrives x m => some (.call (x, w.callerOf st.auth.shared x) m)
  | .game x user m => if (st.game.calls (x, user)).isStarted then none else some (.call (x, user) m)
  | .expires d => some (.env d)

variable [DecidableEq κ] [DecidableEq χ]

def step (st : BackendState κ χ) : BackendMove κ χ → BackendState κ χ
  | .auth turn => { st with auth := (authHttp w.auth w.requests).step st.auth turn }
  | .arrives x m =>
    { st with game := w.game.pool.step st.game (.call (x, w.callerOf st.auth.shared x) m) }
  | .game x user m =>
    if (st.game.calls (x, user)).isStarted then st
    else { st with game := w.game.pool.step st.game (.call (x, user) m) }
  | .expires d => { st with game := w.game.pool.step st.game (.env d) }

def start (a : AuthState) (s : GameState) : BackendState κ χ := ⟨httpStart a, GameServer.start s⟩

def reached (a : AuthState) (s : GameState) (moves : List (BackendMove κ χ)) :
    BackendState κ χ :=
  run w.step (start a s) moves

def authTurns (a : AuthState) (s : GameState) (moves : List (BackendMove κ χ)) :
    List (Turn κ AuthMoment AuthEnv) :=
  followed w.step (fun _ => authTurn) (start a s) moves

def gameTurns (a : AuthState) (s : GameState) (moves : List (BackendMove κ χ)) :
    List (GameServer.GameTurn (χ × Option JwtUserDto)) :=
  followed w.step w.gameTurn (start a s) moves

/-- The request came in while the guards took it to come from this user. -/
def Arrived (a : AuthState) (s : GameState) (moves : List (BackendMove κ χ)) (x : χ)
    (user : Option JwtUserDto) : Prop :=
  ∃ us m vs, moves = us ++ .arrives x m :: vs ∧ w.callerOf (w.reached a s us).auth.shared x = user

/-- The request came with a token that let its caller write, by a role that the token's subject had
at the start, was granted before or sent with its registration, unless the token is older than the
run. -/
def Entitled (a : AuthState) (s : GameState) (moves : List (BackendMove κ χ)) (x : χ)
    (user : JwtUserDto) : Prop :=
  ∃ us m vs token p role, moves = us ++ .arrives x m :: vs ∧
    bearerToken (w.header x) = some token ∧
    w.auth.verify (w.reached a s us).auth.shared.signed (w.reached a s us).auth.shared.now token =
      some p ∧
    user.userId = p.sub ∧ role ∈ p.roles.getD [] ∧ (role = .OPERATOR ∨ role = .ADMIN) ∧
    (token ∈ a.signed ∨ ∃ sub uid, p.sub = some sub ∧ Names w.auth sub uid ∧
      (Held a uid role ∨ Granted w.auth w.requests a (w.authTurns a s us) uid role ∨
        Sent w.auth w.requests a (w.authTurns a s us) uid role))

/-- Every write of the run is that of an entitled request. -/
structure GrantedWrites (a : AuthState) (s : GameState) (moves : List (BackendMove κ χ))
    (s' : GameState) : Prop where
  events : ∀ id, s'.consumer.events id = s.consumer.events id ∨
    (∃ x user target body, w.Entitled a s moves x user ∧
      w.game.call (x, some user) = .updateEvent (some user) target body ∧
      w.game.ids.cast target = some id) ∨
    s.consumer.events id = none ∧ ∃ e x user dto, s'.consumer.events id = some e ∧
      w.Entitled a s moves x user ∧ w.game.call (x, some user) = .createEvent (some user) dto ∧
      EventService.Describes w.game.casts w.game.parse dto user.userId e
  rewards : ∀ r ∈ s'.rewards.items, r ∈ s.rewards.items ∨
    ∃ x user dto, w.Entitled a s moves x user ∧
      w.game.call (x, some user) = .createReward (some user) dto ∧
      RewardService.Describes w.game.casts w.game.ids.cast dto user.userId r

end Model

section Parts
variable [DecidableEq κ] [DecidableEq χ] (w : Backends κ χ) (a : AuthState) (s : GameState)
  (moves : List (BackendMove κ χ))

theorem auth_reached :
    (w.reached a s moves).auth =
      run (authHttp w.auth w.requests).step (httpStart a) (w.authTurns a s moves) := by
  have hfollows : Simulates w.step (fun _ => authTurn) (authHttp w.auth w.requests).step
      fun st auth => st.auth = auth := by
    rintro st auth move rfl
    cases move with
    | game x user m =>
      simp only [step]
      split <;> rfl
    | _ => rfl
  exact hfollows.run (s := start a s) rfl moves

theorem game_reached :
    (w.reached a s moves).game = w.game.reached s (w.gameTurns a s moves) := by
  have hfollows : Simulates w.step w.gameTurn w.game.pool.step fun st game => st.game = game := by
    rintro st game move rfl
    cases move with
    | game x user m =>
      simp only [step, gameTurn]
      split <;> rfl
    | _ => rfl
  exact hfollows.run (s := start a s) rfl moves

end Parts

section History
variable [DecidableEq κ] [DecidableEq χ] {w : Backends κ χ} {a : AuthState} {s : GameState}
  {moves : List (BackendMove κ χ)} {x : χ} {user : Option JwtUserDto}

theorem Arrived.append (h : w.Arrived a s moves x user) (move : BackendMove κ χ) :
    w.Arrived a s (moves ++ [move]) x user := by
  obtain ⟨us, m, vs, rfl, hcaller⟩ := h
  exact ⟨us, m, vs ++ [move], by simp, hcaller⟩

theorem reached_snoc (us : List (BackendMove κ χ)) (move : BackendMove κ χ) :
    w.reached a s (us ++ [move]) = w.step (w.reached a s us) move := by
  rw [reached, run_append]
  rfl

theorem gameTurns_snoc (us : List (BackendMove κ χ)) (move : BackendMove κ χ) :
    w.gameTurns a s (us ++ [move]) =
      w.gameTurns a s us ++ (w.gameTurn (w.reached a s us) move).toList := by
  rw [gameTurns, followed_append]
  simp [gameTurns, reached, followed]

variable (w a s) in
/-- The call is under way, or has had a turn. -/
def Begun (moves : List (BackendMove κ χ)) (x : χ) (user : Option JwtUserDto) : Prop :=
  ((w.reached a s moves).game.calls (x, user)).isStarted = false ∨
    ∃ m, .call (x, user) m ∈ w.gameTurns a s moves

/-- A turn of another call begins no call. -/
theorem begun_other {us : List (BackendMove κ χ)} {move : BackendMove κ χ}
    {y : χ × Option JwtUserDto} {m : Moment} (hy : (x, user) ≠ y)
    (hturn : w.gameTurn (w.reached a s us) move = some (.call y m))
    (hstep : (w.reached a s (us ++ [move])).game =
      w.game.pool.step (w.reached a s us).game (.call y m))
    (h : w.Begun a s (us ++ [move]) x user) : w.Begun a s us x user := by
  rw [Begun, hstep, step_call_other _ _ hy, gameTurns_snoc, hturn] at h
  refine h.imp_right ?_
  rintro ⟨m', hm⟩
  obtain hm | hm := List.mem_append.mp hm
  · exact ⟨m', hm⟩
  · cases List.mem_singleton.mp hm
    exact absurd rfl hy

theorem begun_snoc {us : List (BackendMove κ χ)} {move : BackendMove κ χ}
    (h : w.Begun a s (us ++ [move]) x user) :
    w.Begun a s us x user ∨
      ∃ m, move = .arrives x m ∧ w.callerOf (w.reached a s us).auth.shared x = user := by
  have hstep : w.reached a s (us ++ [move]) = w.step (w.reached a s us) move :=
    reached_snoc us move
  cases move with
  | auth turn =>
    rw [Begun, hstep, gameTurns_snoc] at h
    exact .inl (by simpa [Begun, step, gameTurn] using h)
  | arrives y m =>
    by_cases hy : (x, user) = (y, w.callerOf (w.reached a s us).auth.shared y)
    · cases hy
      exact .inr ⟨m, rfl, rfl⟩
    · exact .inl (begun_other hy rfl (by rw [hstep]; rfl) h)
  | game y user' m =>
    by_cases hstarted : ((w.reached a s us).game.calls (y, user')).isStarted = true
    · rw [Begun, hstep, gameTurns_snoc] at h
      simp only [step, gameTurn, if_pos hstarted] at h
      exact .inl (by simpa [Begun] using h)
    · by_cases hy : (x, user) = (y, user')
      · cases hy
        exact .inl (.inl (Bool.eq_false_iff.mpr hstarted))
      · exact .inl (begun_other (m := m) hy (by simp only [gameTurn, if_neg hstarted])
          (by rw [hstep]; simp only [step, if_neg hstarted]) h)
  | expires d =>
    rw [Begun, hstep, gameTurns_snoc] at h
    exact .inl (by simpa [Begun, step, gameTurn, step_env_calls] using h)

/-- No call begins but that of a request that has come in. -/
theorem arrived_of_begun (moves : List (BackendMove κ χ)) : ∀ x user,
    w.Begun a s moves x user → w.Arrived a s moves x user := by
  refine run_history (I := fun us (st : BackendState κ χ) => ∀ x user,
    ((st.game.calls (x, user)).isStarted = false ∨ ∃ m, .call (x, user) m ∈ w.gameTurns a s us) →
      w.Arrived a s us x user) ?_ ?_ moves
  · rintro x user (h | ⟨m, h⟩)
    · cases h
    · cases h
  · intro us move ih x user h
    have hbegun : w.Begun a s (us ++ [move]) x user := by rwa [Begun, reached_snoc]
    obtain hbefore | ⟨m, rfl, hcaller⟩ := begun_snoc hbegun
    · exact (ih x user hbefore).append move
    · exact ⟨us, m, [], rfl, hcaller⟩

/-- Whoever writes came with a token that the auth server had signed for it. -/
theorem entitled_of_turn {c : Option JwtUserDto} {u : JwtUserDto} {m : Moment}
    (hturn : .call (x, c) m ∈ w.gameTurns a s moves)
    (hcall : (w.game.call (x, c)).caller = some (some u))
    (hoperates : GameEventGuards.Operates u) : c = some u ∧ w.Entitled a s moves x u := by
  have hc : c = some u := by
    obtain hcaller | hcaller := w.caller x c
    · exact Option.some.inj (hcaller.symm.trans hcall)
    · rw [hcaller] at hcall
      cases hcall
  subst hc
  refine ⟨rfl, ?_⟩
  obtain ⟨us, m', vs, rfl, hcaller⟩ := arrived_of_begun moves x (some u) (.inr ⟨m, hturn⟩)
  obtain ⟨token, htoken, hauth⟩ := Option.bind_eq_some_iff.mp hcaller
  rw [authenticate_gameEvent] at hauth
  obtain ⟨p, hverify, rfl⟩ := Option.map_eq_some_iff.mp hauth
  obtain ⟨role, hrole, hwrites⟩ : ∃ role ∈ p.roles.getD [], role = .OPERATOR ∨ role = .ADMIN := by
    obtain h | h := hoperates
    · exact ⟨_, h, .inl rfl⟩
    · exact ⟨_, h, .inr rfl⟩
  refine ⟨us, m', vs, token, p, role, rfl, htoken, hverify, rfl, hrole, hwrites, ?_⟩
  by_cases hold : token ∈ a.signed
  · exact .inl hold
  · obtain ⟨hsigned, hdecode, -⟩ := AuthSystem.verify_eq_some.mp hverify
    rw [auth_reached] at hsigned
    cases hroles : p.roles with
    | none =>
      rw [hroles] at hrole
      cases hrole
    | some roles =>
      rw [hroles] at hrole
      obtain ⟨sub, uid, hsub, hnames, hallowed⟩ :=
        (provenance_run (w.authTurns a s us)).1.tokens token hsigned hold p roles hdecode hroles
      have huser : role ≠ .USER := by
        obtain rfl | rfl := hwrites <;> decide
      exact .inr ⟨sub, uid, hsub, hnames, (hallowed role hrole).resolve_left huser⟩

end History

section Writes
variable [DecidableEq κ] [DecidableEq χ]

/-- Nobody starts out able to write, by a stored role or by a token at large. -/
def NoOperator (sys : AuthSystem) (a : AuthState) : Prop :=
  ∀ role, role = .OPERATOR ∨ role = .ADMIN →
    (∀ u ∈ a.users.items, some role ∉ u.roles) ∧
      ∀ t ∈ a.signed, ∀ p, sys.decode t = some p → role ∉ p.roles.getD []

theorem NoOperator.noAdmin {sys : AuthSystem} {a : AuthState} (h : NoOperator sys a) :
    NoAdmin sys a := by
  obtain ⟨husers, htokens⟩ := h .ADMIN (.inr rfl)
  refine ⟨husers, fun t ht p roles hdecode hroles hadmin => htokens t ht p hdecode ?_⟩
  rw [hroles]
  exact hadmin

variable {w : Backends κ χ} {a : AuthState} {s : GameState} {moves : List (BackendMove κ χ)}

variable (w a s moves) in
/-- The auth server inserts no account whose registration sends a role beyond USER. -/
def PlainRegistrations : Prop :=
  Along (authHttp w.auth w.requests).step (InsertsPlain w.auth) (httpStart a)
    (w.authTurns a s moves)

theorem PlainRegistrations.of_append {us vs : List (BackendMove κ χ)}
    (h : w.PlainRegistrations a s (us ++ vs)) : w.PlainRegistrations a s us := by
  rw [PlainRegistrations, authTurns, followed_append] at h
  exact (along_append.mp h).1

theorem not_entitled (h : NoOperator w.auth a) (hplain : w.PlainRegistrations a s moves) (x : χ)
    (user : JwtUserDto) : ¬w.Entitled a s moves x user := by
  rintro ⟨us, m, vs, token, p, role, rfl, -, hverify, -, hrole, hwrites, hwhy⟩
  have hbefore := hplain.of_append
  obtain ⟨husers, htokens⟩ := h role hwrites
  obtain hold | ⟨sub, uid, -, -, ⟨u, hu, -, hheld⟩ | hgranted | hsent⟩ := hwhy
  · exact htokens token hold p (AuthSystem.verify_eq_some.mp hverify).2.1 hrole
  · exact husers u hu hheld
  · exact not_granted_of_noAdmin h.noAdmin (w.authTurns a s us) hbefore uid role hgranted
  · have huser : role = .USER := user_of_sent hbefore hsent
    subst huser
    obtain hwrites | hwrites := hwrites <;> cases hwrites

/-- Whatever is sent to the two servers, every event that is not as it was and every reward that is
new is written by a request whose caller could write when it came in, by a role that its account had
at the start, sent with its registration or was given by an administrator since (or by a token older
than the run); and where nobody starts out able to write and no registration sends such a role,
nothing is ever written. -/
theorem writes_are_granted (w : Backends κ χ) (a : AuthState) (s : GameState)
    (moves : List (BackendMove κ χ)) :
    w.GrantedWrites a s moves (w.reached a s moves).game.shared ∧
      (NoOperator w.auth a → w.PlainRegistrations a s moves →
        (∀ id, (w.reached a s moves).game.shared.consumer.events id = s.consumer.events id) ∧
        ∀ r ∈ (w.reached a s moves).game.shared.rewards.items, r ∈ s.rewards.items) := by
  have hwrites : w.GrantedWrites a s moves (w.reached a s moves).game.shared := by
    have hauthored : w.game.Authored s (w.gameTurns a s moves)
        (w.reached a s moves).game.shared := by
      rw [game_reached]
      exact GameServer.authored_reached s (w.gameTurns a s moves)
    constructor
    case events =>
      intro id
      obtain hsame | ⟨⟨x, c⟩, m, user, target, body, hmem, huser, hcall, hid⟩ |
        ⟨hnone, e, he, ⟨x, c⟩, m, user, dto, hmem, huser, hcall, hdoc⟩ := hauthored.events id
      · exact .inl hsame
      · obtain ⟨rfl, hentitled⟩ := entitled_of_turn hmem (by rw [hcall]; rfl) huser
        exact .inr (.inl ⟨x, user, target, body, hentitled, hcall, hid⟩)
      · obtain ⟨rfl, hentitled⟩ := entitled_of_turn hmem (by rw [hcall]; rfl) huser
        exact .inr (.inr ⟨hnone, e, x, user, dto, he, hentitled, hcall, hdoc⟩)
    case rewards =>
      intro r hr
      obtain hold | ⟨⟨x, c⟩, m, user, dto, hmem, huser, hcall, hdoc⟩ := hauthored.rewards r hr
      · exact .inl hold
      · obtain ⟨rfl, hentitled⟩ := entitled_of_turn hmem (by rw [hcall]; rfl) huser
        exact .inr ⟨x, user, dto, hentitled, hcall, hdoc⟩
  refine ⟨hwrites, fun hnone hplain => ⟨fun id => ?_, fun r hr => ?_⟩⟩
  · obtain hsame | ⟨x, user, -, -, hentitled, -⟩ | ⟨-, -, x, user, -, -, hentitled, -⟩ :=
      hwrites.events id
    · exact hsame
    · exact absurd hentitled (not_entitled hnone hplain x user)
    · exact absurd hentitled (not_entitled hnone hplain x user)
  · obtain hold | ⟨x, user, -, hentitled, -⟩ := hwrites.rewards r hr
    · exact hold
    · exact absurd hentitled (not_entitled hnone hplain x user)

end Writes

section Sample

def promotedTokens : List (String × JwtPayload) :=
  [("admin", ⟨some "u0", some "root@x", some [.ADMIN], some 3600⟩),
    ("operator", ⟨some "u1", some "alice@x", some [.USER, .OPERATOR], some 3600⟩),
    ("refresh", ⟨some "u1", none, none, some 604800⟩)]

/-- An administrator makes Alice an operator; she logs in, and adds a reward. -/
def promotedBackends : Backends Bool Unit where
  auth := AuthSystem.ofTable promotedTokens
  requests
    | true => .addRole (some "Bearer admin") "u1" .OPERATOR
    | false => .login "alice@x" "secret99"
  header _ := some "Bearer operator"
  game := { GameServer.sampleGame with call := fun k => .createReward k.2 GameServer.couponDto }
  caller _ _ := .inl rfl

def promotedMoves : List (BackendMove Bool Unit) :=
  [.auth (.call true {}), .auth (.call true {}), .auth (.call true {}), .auth (.call false {}),
    .auth (.call false {}), .auth (.call false {}),
    .auth (.call false { accessToken := "operator", refreshToken := "refresh" }),
    .arrives () { now := 5, newId := "r1" }] ++
  List.replicate 2 (.game () (some ⟨some "u1", some "alice@x", some [.USER, .OPERATOR]⟩)
    { now := 5, newId := "r1" })

theorem promotedMoves_store :
    (promotedBackends.reached (aliceState ["admin"] none) GameServer.sampleGameState
      promotedMoves).game.shared.rewards.items.isEmpty = false := by
  decide +kernel

theorem writes_are_granted_sample :
    ∃ r ∈ (promotedBackends.reached (aliceState ["admin"] none) GameServer.sampleGameState
        promotedMoves).game.shared.rewards.items,
      ∃ x user, promotedBackends.Entitled (aliceState ["admin"] none) GameServer.sampleGameState
        promotedMoves x user := by
  obtain ⟨r, hr⟩ := List.exists_mem_of_ne_nil _ (by simpa using promotedMoves_store)
  obtain hold | ⟨x, user, -, hentitled, -⟩ := (writes_are_granted promotedBackends
    (aliceState ["admin"] none) GameServer.sampleGameState promotedMoves).1.rewards r hr
  · cases hold
  · exact ⟨r, hr, x, user, hentitled⟩

end Sample
end Backends
end MsaTuto
