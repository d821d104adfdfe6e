import MsaTuto.Registration

/-! From a registration to a login with the same credentials: the rules of `register.dto.ts` and
`login.dto.ts`, and the account in between. -/
namespace MsaTuto
open Runs AuthService Mongoose

/-- What the DTOs use of class-validator; `MinLength` compares a length of its own. -/
structure Validator where
  isEmail : String → Bool
  length : String → Nat

namespace Validator
variable (v : Validator)

def minLength (min : Nat) (value : String) : Bool := decide (min ≤ v.length value)

def registerDto (dto : RegisterDto) : Bool :=
  v.minLength 2 dto.name && v.isEmail dto.email && v.minLength 4 dto.password

def loginDto (email password : String) : Bool := v.isEmail email && v.minLength 8 password

end Validator

section Accounts
variable {κ : Type*} [DecidableEq κ] (sys : AuthSystem) (call : κ → AuthCall)

/-- In the run call `k` has registered `account`, and has returned. -/
def Registered (s : AuthState) (turns : List (Turn κ AuthMoment AuthEnv)) (k : κ)
    (dto : RegisterDto) (account : User) : Prop :=
  call k = .register dto ∧
  (∃ pre m mid users, turns = pre ++ .call k m :: mid ∧ m.fault = false ∧
    (run (authServer sys call).step (authStart s) pre).calls k = .inserting dto ∧
    (run (authServer sys call).step (authStart s) pre).shared.users.insert account = .ok users ∧
    newUser sys dto m = some account) ∧
  ∃ result, (run (authServer sys call).step (authStart s) turns).calls k = .returned result

/-- The account is stored as it was registered; logins may have moved its last login. -/
def Unchanged (account : User) (users : UserCollection) : Prop :=
  ∃ u ∈ users.items, u = { account with lastLogin := u.lastLogin }

/-- Turns that bring login `k` up to its tokens, whatever others do between and after its two. -/
def LoginRun (k : κ) (turns : List (Turn κ AuthMoment AuthEnv)) : Prop :=
  ∃ m₁ us m₂ vs, turns = .call k m₁ :: (us ++ .call k m₂ :: vs) ∧
    m₁.fault = false ∧ m₂.fault = false ∧ turnsOf k us = 0 ∧ turnsOf k vs = 0

/-- Login `k` is never refused, and returns tokens for the account. -/
structure LoginReturns (account : User) (k : κ) (w : World κ AuthState AuthPhase) : Prop where
  admitted : ∀ turns, LoginRun k turns → ∃ user, user.view = account.view ∧
    (run (authServer sys call).step w turns).calls k = .signing account.id user true
  returned : ∀ turns, LoginRun k turns → ∀ m user,
    (run (authServer sys call).step w turns).calls k = .signing account.id user true →
    Saves sys m (run (authServer sys call).step w turns).shared account.id user →
    (run (authServer sys call).step w (turns ++ [.call k m])).calls k =
      .returned (.tokens m.accessToken m.refreshToken (some account.view)) ∧
    ∃ payload, sys.decode m.accessToken = some payload ∧ payload.sub = some account.id ∧
      payload.roles = some account.roles.reduceOption

/-- Accounts are never deleted. -/
theorem id_turn {sys : AuthSystem} {call : AuthCall} {m : AuthMoment} {l l' : AuthPhase}
    {s s' : AuthState}
    (h : Step sys call m s l l' s') {u : User} (hu : u ∈ s.users.items) :
    ∃ v ∈ s'.users.items, v.id = u.id := by
  cases h with
  | logsIn user users hset => exact UserCollection.id_updateOne hset hu
  | pushes user userId role users hf hset => exact UserCollection.id_updateOne hset hu
  | sets user userId roles users hset => exact UserCollection.id_updateOne hset hu
  | inserts dto user users hf hnew hset | insertsUnnamed dto user users hf hnew hset =>
    exact ⟨u, UserCollection.id_insert hset hu, rfl⟩
  | _ => exact ⟨u, hu, rfl⟩

theorem id_step {w : World κ AuthState AuthPhase} {id : String}
    (h : ∃ u ∈ w.shared.users.items, u.id = id)
    (t : Turn κ AuthMoment AuthEnv) :
    ∃ u ∈ ((authServer sys call).step w t).shared.users.items, u.id = id := by
  obtain ⟨u, hu, rfl⟩ := h
  cases t with
  | env e => cases e <;> exact ⟨u, hu, rfl⟩
  | call k m => exact id_turn (act_step sys (call k) m (w.calls k) w.shared) hu

theorem id_run {w : World κ AuthState AuthPhase} {id : String}
    (h : ∃ u ∈ w.shared.users.items, u.id = id)
    (turns : List (Turn κ AuthMoment AuthEnv)) :
    ∃ u ∈ (run (authServer sys call).step w turns).shared.users.items, u.id = id :=
  run_invariant (I := fun w : World κ AuthState AuthPhase =>
    ∃ u ∈ w.shared.users.items, u.id = id) (fun _ t h => id_step sys call h t) h turns

theorem login_saves {w : World κ AuthState AuthPhase} {k : κ} {m : AuthMoment}
    {u : User} (hl : w.calls k = .savingLogin u) (hf : m.fault = false)
    (hid : ∃ v ∈ w.shared.users.items, v.id = u.id) :
    ((authServer sys call).step w (.call k m)).calls k =
      if u.isActive then .signing u.id u true
      else .raised (.http .unauthorized "이 계정은 비활성화되었습니다") := by
  obtain ⟨v, hv, hvu⟩ := hid
  obtain ⟨users, hset⟩ := UserCollection.updateOne_isSome hv
    ⟨fun u => { u with lastLogin := some w.shared.now }, fun _ => rfl, fun _ => rfl⟩
  have hset : w.shared.users.setLastLogin u.id w.shared.now = some users := hvu ▸ hset
  simp [authServer, hl, act, hf, proceed, hset]

variable {sys call} {w : World κ AuthState AuthPhase}

theorem login_starts {k : κ} {email password : String} {m : AuthMoment} {u : User}
    (hcall : call k = .login email password) (hl : w.calls k = .started) (hf : m.fault = false)
    (hu : u ∈ w.shared.users.items) (hemail : u.email = email)
    (hcompare : sys.compare password u.password = true) :
    ((authServer sys call).step w (.call k m)).calls k = .savingLogin u := by
  have hfound : w.shared.users.findByEmail email = some u := by
    cases hfound : w.shared.users.findByEmail email with
    | none => exact absurd hemail (UserCollection.findByEmail_eq_none.mp hfound u hu)
    | some v =>
      obtain ⟨hv, hve⟩ := UserCollection.mem_of_findByEmail hfound
      rw [UserCollection.eq_of_email hv hu (hve.trans hemail.symm)]
  simp [authServer, hl, hcall, act, hf, proceed, start, hfound, hcompare]

theorem login_run {k : κ} {email password : String} {u : User}
    (hcall : call k = .login email password) (hl : w.calls k = .started)
    (hu : u ∈ w.shared.users.items) (hemail : u.email = email)
    (hcompare : sys.compare password u.password = true) {turns : List (Turn κ AuthMoment AuthEnv)}
    (hturns : LoginRun k turns) :
    (run (authServer sys call).step w turns).calls k =
      if u.isActive then .signing u.id u true
      else .raised (.http .unauthorized "이 계정은 비활성화되었습니다") := by
  obtain ⟨m₁, us, m₂, vs, rfl, hf₁, hf₂, hus, hvs⟩ := hturns
  have hsaving := login_starts hcall hl hf₁ hu hemail hcompare
  have hknown := id_step sys call ⟨u, hu, rfl⟩ (.call k m₁)
  have hwaiting := (calls_of_no_turn (authServer sys call) hus _).trans hsaving
  have hsigning := login_saves sys call hwaiting hf₂ (id_run sys call hknown us)
  have hdone := (calls_of_no_turn (authServer sys call) hvs _).trans hsigning
  simpa only [run, run_append] using hdone

/-- Such a login returns tokens for the account it has found if that is active. -/
theorem loginReturns_iff {k : κ} {account u : User} (hview : u.view = account.view)
    (hrun : ∀ turns, LoginRun k turns → (run (authServer sys call).step w turns).calls k =
      if u.isActive then .signing u.id u true
      else .raised (.http .unauthorized "이 계정은 비활성화되었습니다")) :
    LoginReturns sys call account k w ↔ u.isActive = true := by
  have hid : u.id = account.id := congrArg UserView.id hview
  have hroles : u.roles = account.roles := congrArg UserView.roles hview
  constructor
  · intro hreturns
    have hturns : LoginRun k [.call k {}, .call k {}] := ⟨{}, [], {}, [], rfl, rfl, rfl, rfl, rfl⟩
    obtain ⟨user, -, hsigning⟩ := hreturns.admitted _ hturns
    rw [hrun _ hturns] at hsigning
    by_contra hinactive
    rw [if_neg hinactive] at hsigning
    cases hsigning
  · intro hactive
    simp only [hactive, if_true, hid] at hrun
    refine ⟨fun turns hturns => ⟨u, hview, hrun turns hturns⟩, ?_⟩
    intro turns hturns m user hsigning hsaves
    have huser := hrun turns hturns
    rw [hsigning] at huser
    injection huser with _ huser
    subst huser
    obtain ⟨haccess, -⟩ := signsBoth_payloads hsaves.2.1
    refine ⟨?_, _, haccess, rfl, by rw [accessPayload, hroles]⟩
    have hsaved := (act_saves (call k) true hsaves).1
    rw [run_append, ← hview]
    simp only [run, step_call_self]
    rw [hsigning]
    exact hsaved

theorem loginDto_iff {v : Validator} {dto : RegisterDto} (hvalid : v.registerDto dto = true) :
    v.loginDto dto.email dto.password = true ↔ 8 ≤ v.length dto.password := by
  simp only [Validator.registerDto, Bool.and_eq_true] at hvalid
  simp [Validator.loginDto, Validator.minLength, hvalid.1.2]

variable {s : AuthState} {turns : List (Turn κ AuthMoment AuthEnv)} {k₁ k₂ : κ} {dto : RegisterDto}
  {account : User}

/-- The body does not name `isActive`, or gives it a value that Mongoose takes for `true`. -/
def RegisterDto.StaysActive (dto : RegisterDto) : Prop :=
  ∀ v, dto.undeclared.lookup "isActive" = some v → castBoolean v = some (.bool true)

theorem isActive_iff {m : AuthMoment} (h : Makes sys dto m account) :
    account.isActive = true ↔ dto.StaysActive := by
  obtain ⟨value, hstart, hactive⟩ := h.isActive
  rw [hactive]
  simp only [SchemaField.start, isActiveField] at hstart
  cases hsent : dto.undeclared.lookup "isActive" with
  | none =>
    rw [hsent] at hstart
    cases hstart
    simp [RegisterDto.StaysActive, hsent, Js.truthy]
  | some v =>
    rw [hsent] at hstart
    obtain ⟨b, hcast, rfl⟩ := Option.map_eq_some_iff.mp hstart
    rw [castBoolean_truthy hcast]
    simp [RegisterDto.StaysActive, hsent, hcast]

/-- A login with the credentials that `account` was registered with passes the validation of its
body and is never refused, and returns tokens for the account, exactly if the password is as long
as a login wants it and the registration has not made the account inactive. -/
theorem register_then_login_iff (v : Validator)
    (hcompare : ∀ password salt, sys.compare password (sys.hash password salt) = true)
    (hvalid : v.registerDto dto = true)
    (hregistered : Registered sys call s turns k₁ dto account)
    (hunchanged : Unchanged account
      (run (authServer sys call).step (authStart s) turns).shared.users)
    (hlogin : call k₂ = .login dto.email dto.password)
    (hfresh : turnsOf k₂ turns = 0) :
    (v.loginDto dto.email dto.password = true ∧
      LoginReturns sys call account k₂ (run (authServer sys call).step (authStart s) turns)) ↔
    8 ≤ v.length dto.password ∧ dto.StaysActive := by
  obtain ⟨-, ⟨pre, m, mid, users, -, -, -, -, haccount⟩, -⟩ := hregistered
  obtain ⟨u, hu, hsame⟩ := hunchanged
  have hmakes := makes_of_newUser haccount
  have hview : u.view = account.view := by rw [hsame]; rfl
  have hemail : u.email = dto.email := by rw [hsame]; exact hmakes.email
  have hpassword : sys.compare dto.password u.password = true := by
    rw [hsame, hmakes.password]
    exact hcompare dto.password m.salt
  have hactive : u.isActive = account.isActive := by rw [hsame]
  have hstarted : (run (authServer sys call).step (authStart s) turns).calls k₂ = .started :=
    calls_of_no_turn (authServer sys call) hfresh (authStart s)
  have hreturns := loginReturns_iff hview fun turns' hturns =>
    login_run hlogin hstarted hu hemail hpassword hturns
  rw [loginDto_iff hvalid, hreturns, hactive, isActive_iff hmakes]

end Accounts

section Sample

/-- Takes for emails those of one name at one domain, in letters, with a top-level domain. -/
def plainValidator : Validator where
  isEmail value :=
    match value.toList.splitOn '@' with
    | [name, host] =>
      match host.splitOn '.' with
      | [domain, top] => name ≠ [] && domain ≠ [] && decide (2 ≤ top.length) &&
          (name ++ domain ++ top).all Char.isAlpha
      | _ => false
    | _ => false
  length := String.length

/-- `false` registers, `true` logs in. -/
def bobCalls (dto : RegisterDto) (login : Bool) : AuthCall :=
  if login then .login dto.email dto.password else .register dto

def bobSignsUp : List (Turn Bool AuthMoment AuthEnv) :=
  [bobTurn false, bobTurn false, bobTurn false]

def bobAccount (dto : RegisterDto) : User :=
  { id := "u2", name := dto.name, email := dto.email, password := dto.password,
    roles := [some .USER] }

theorem bob_logs_in :
    plainValidator.loginDto bobEmail "secret99" = true ∧
      LoginReturns (AuthSystem.ofTable bobTokens) (bobCalls (bob false)) (bobAccount (bob false))
        true (run (authServer (AuthSystem.ofTable bobTokens) (bobCalls (bob false))).step
          (authStart (aliceState [] none)) bobSignsUp) := by
  have hregistered : Registered (AuthSystem.ofTable bobTokens) (bobCalls (bob false))
      (aliceState [] none) bobSignsUp false (bob false) (bobAccount (bob false)) :=
    ⟨rfl, ⟨[bobTurn false], _, [bobTurn false], _, rfl, rfl, rfl, rfl, rfl⟩, _, rfl⟩
  refine (register_then_login_iff plainValidator (fun _ _ => decide_eq_true rfl) (by decide)
    hregistered ?_ rfl rfl).mpr ⟨by decide, fun _ h => by cases h⟩
  exact ⟨bobAccount (bob false), List.mem_cons_of_mem _ List.mem_cons_self, rfl⟩

def shortPassword : RegisterDto := { bob false with password := "abcd" }

/-- Four characters are enough to register with, and too few to log in with. -/
theorem short_password_never_logs_in :
    plainValidator.registerDto shortPassword = true ∧
    Registered (AuthSystem.ofTable bobTokens) (bobCalls shortPassword) (aliceState [] none)
      bobSignsUp false shortPassword (bobAccount shortPassword) ∧
    Unchanged (bobAccount shortPassword)
      (run (authServer (AuthSystem.ofTable bobTokens) (bobCalls shortPassword)).step
        (authStart (aliceState [] none)) bobSignsUp).shared.users ∧
    ¬(plainValidator.loginDto shortPassword.email shortPassword.password = true ∧
      LoginReturns (AuthSystem.ofTable bobTokens) (bobCalls shortPassword)
        (bobAccount shortPassword) true
        (run (authServer (AuthSystem.ofTable bobTokens) (bobCalls shortPassword)).step
          (authStart (aliceState [] none)) bobSignsUp)) := by
  refine ⟨by decide, ?_, ?_, fun h => absurd h.1 (by decide)⟩
  · exact ⟨rfl, ⟨[bobTurn false], _, [bobTurn false], _, rfl, rfl, rfl, rfl, rfl⟩, _, rfl⟩
  · exact ⟨bobAccount shortPassword, List.mem_cons_of_mem _ List.mem_cons_self, rfl⟩

end Sample
end MsaTuto
