import MsaTuto.AuthServer

/-! What a failed account operation leaves in the user collection, wherever one of its MongoDB
or Redis calls fails. -/
namespace MsaTuto
open Runs AuthService

/-- The one write of the operation to the user collection, on the users it started from. -/
def OwnWrite (sys : AuthSystem) (before : UserCollection) : AuthCall → UserCollection → Prop
  | .login email password, after => ∃ user now, before.findByEmail email = some user ∧
      sys.compare password user.password = true ∧ before.setLastLogin user.id now = some after
  | .register dto, after => ∃ m user, newUser sys dto m = some user ∧
      before.insert user = .ok after
  | .addRole userId role, after => ∃ user, findById sys before userId = .ok user ∧
      some role ∉ user.roles ∧ before.pushRole user.id role = some after
  | .removeRole userId role, after => ∃ user, findById sys before userId = .ok user ∧
      user.roles.length ≠ 1 ∧
      before.setRoles user.id user.version
        (user.roles.filter fun r => r.map Role.value ≠ some role) = some after
  | .refreshToken _ _, _ | .logout _ _, _ => False

def AuthPhase.pastWrite : AuthPhase → Bool
  | .unnamed | .signing _ _ true | .clearingId _ _ | .clearingEmail _ => true
  | _ => false

/-- Where the operation has got to, and what it has made of the users it started from. -/
def WriteFits (sys : AuthSystem) (before : UserCollection) (call : AuthCall) (l : AuthPhase)
    (users : UserCollection) : Prop :=
  match l with
  | .savingLogin user => users = before ∧ ∃ email password, call = .login email password ∧
      before.findByEmail email = some user ∧ sys.compare password user.password = true
  | .inserting dto => users = before ∧ call = .register dto
  | .pushing user userId role => users = before ∧ call = .addRole userId role ∧
      findById sys before userId = .ok user ∧ some role ∉ user.roles
  | .setting user userId roles => users = before ∧ ∃ role, call = .removeRole userId role ∧
      findById sys before userId = .ok user ∧ user.roles.length ≠ 1 ∧
      roles = user.roles.filter fun r => r.map Role.value ≠ some role
  | .unnamed | .signing _ _ true => OwnWrite sys before call users
  | .clearingId _ _ | .clearingEmail _ | .returned _ | .raised _ =>
      users = before ∨ OwnWrite sys before call users
  | _ => users = before

section Turns
variable {sys : AuthSystem} {before : UserCollection} {call : AuthCall} {m : AuthMoment}
  {l : AuthPhase} {s : AuthState}

/-- Short of the write, nothing has changed yet. -/
theorem WriteFits.unchanged (h : WriteFits sys before call l s.users) (hl : l.pastWrite = false)
    (hend : l.ended = false) : s.users = before := by
  cases l with
  | started => exact h
  | savingLogin user => exact h.1
  | inserting dto => exact h.1
  | unnamed => cases hl
  | validated userId => exact h
  | signing userId user shown =>
    cases shown with
    | true => cases hl
    | false => exact h
  | blacklisting userId token ttl => exact h
  | removing userId => exact h
  | pushing user userId role => exact h.1
  | setting user userId roles => exact h.1
  | clearingId user userId => cases hl
  | clearingEmail user => cases hl
  | returned result => cases hend
  | raised f => cases hend

theorem WriteFits.settled (h : WriteFits sys before call l s.users) :
    s.users = before ∨ OwnWrite sys before call s.users := by
  cases l with
  | unnamed => exact .inr h
  | signing userId user shown =>
    cases shown with
    | true => exact .inr h
    | false => exact .inl h
  | clearingId user userId => exact h
  | clearingEmail user => exact h
  | returned result => exact h
  | raised f => exact h
  | _ => exact .inl (WriteFits.unchanged h rfl rfl)

theorem start_fits (h : s.users = before) :
    WriteFits sys before call (start sys s call) s.users := by
  subst h
  cases call with
  | login email password =>
    simp only [start]
    split
    next user huser =>
      split
      next hcompare => exact ⟨rfl, email, password, rfl, huser, hcompare⟩
      next => exact .inl rfl
    next => exact .inl rfl
  | register dto =>
    simp only [start]
    split
    · exact .inl rfl
    · exact ⟨rfl, rfl⟩
  | refreshToken userId token =>
    simp only [start]
    split
    · rfl
    · exact .inl rfl
  | logout userId token =>
    simp only [start]
    split
    · split <;> rfl
    · rfl
  | addRole userId role =>
    simp only [start]
    split
    next user huser =>
      split
      · exact .inl rfl
      next hnew => exact ⟨rfl, rfl, huser, hnew⟩
    next => exact .inl rfl
  | removeRole userId role =>
    simp only [start]
    split
    next user huser =>
      split
      · exact .inl rfl
      next hlast => exact ⟨rfl, role, rfl, huser, hlast, rfl⟩
    next => exact .inl rfl

theorem failing_fits (h : WriteFits sys before call l s.users) :
    WriteFits sys before call (failing sys call s l) s.users := by
  cases l with
  | started =>
    cases call with
    | logout userId token => exact start_fits h
    | _ => exact .inl h
  | returned result => exact h
  | raised f => exact h
  | _ => exact h.settled

theorem proceed_fits (h : WriteFits sys before call l s.users) :
    WriteFits sys before call (proceed sys call m l s).1 (proceed sys call m l s).2.users := by
  cases l with
  | started => exact start_fits h
  | savingLogin user =>
    obtain ⟨hsame, email, password, rfl, huser, hcompare⟩ := h
    subst hsame
    simp only [proceed]
    split
    next users hset =>
      have hown : OwnWrite sys s.users (.login email password) users :=
        ⟨user, s.now, huser, hcompare, hset⟩
      dsimp only
      split
      · exact hown
      · exact .inr hown
    next => exact .inl rfl
  | inserting dto =>
    obtain ⟨hsame, rfl⟩ := h
    subst hsame
    simp only [proceed]
    split
    next user hnew =>
      split
      next users hset =>
        have hown : OwnWrite sys s.users (.register dto) users := ⟨m, user, hnew, hset⟩
        dsimp only
        split
        · exact hown
        · exact hown
      next => exact .inl rfl
    next => exact .inl rfl
  | unnamed => exact .inr h
  | validated userId =>
    simp only [proceed]
    split
    · dsimp only
      split
      · exact h
      · exact .inl h
    · exact .inl h
  | signing userId user shown =>
    simp only [proceed]
    split
    · split
      · exact h.settled
      · exact h.settled
    · exact h
  | blacklisting userId token ttl =>
    simp only [proceed]
    split
    · exact h
    · exact .inl h
  | removing userId => exact .inl h
  | pushing user userId role =>
    obtain ⟨hsame, rfl, huser, hnew⟩ := h
    subst hsame
    simp only [proceed]
    split
    next users hset => exact .inr ⟨user, huser, hnew, hset⟩
    next => exact .inl rfl
  | setting user userId roles =>
    obtain ⟨hsame, role, rfl, huser, hlast, rfl⟩ := h
    subst hsame
    simp only [proceed]
    split
    · exact .inl rfl
    · split
      next users hset => exact .inr ⟨user, huser, hlast, hset⟩
      next => exact .inl rfl
  | clearingId user userId => exact h
  | clearingEmail user => exact h
  | returned result => exact h
  | raised f => exact h

theorem act_fits (m : AuthMoment) (h : WriteFits sys before call l s.users) :
    WriteFits sys before call (AuthService.act sys call m l s).1
      (AuthService.act sys call m l s).2.users := by
  simp only [AuthService.act]
  split
  · exact failing_fits h
  · exact proceed_fits h

/-- An error at the write or before it leaves the users alone; only the login of an inactive
account writes and fails in one turn. -/
theorem raise_early {f : Failure} (h : WriteFits sys before call l s.users)
    (hl : l.pastWrite = false) (hend : l.ended = false)
    (hactive : ∀ user, l = .savingLogin user → user.isActive = true ∨ m.fault = true)
    (hraised : (AuthService.act sys call m l s).1 = .raised f) :
    (AuthService.act sys call m l s).2.users = before := by
  have hsame : (AuthService.act sys call m l s).2 = s := by
    have hstep := act_step sys call m l s
    cases l with
    | savingLogin user =>
      obtain hactive | hf := hactive user rfl
      · cases hf : m.fault with
        | true => simp [AuthService.act, hf]
        | false =>
          cases hset : s.users.setLastLogin user.id s.now with
          | none => simp [AuthService.act, hf, proceed, hset]
          | some users => simp [AuthService.act, hf, proceed, hset, hactive] at hraised
      · simp [AuthService.act, hf]
    | returned result => cases hend
    | raised f => cases hend
    | _ =>
      rw [hraised] at hstep
      generalize (AuthService.act sys call m _ s).2 = s' at hstep
      cases hstep
      rfl
  rw [hsame]
  exact h.unchanged hl hend

end Turns

section Runs
variable (sys : AuthSystem) (call : AuthCall) (s : AuthState)

/-- The operation alone, with whatever of its calls failing. -/
def operation : World Unit AuthState AuthPhase → Turn Unit AuthMoment AuthEnv →
    World Unit AuthState AuthPhase :=
  (authServer sys fun _ => call).step

structure FailsCleanly (turns : List (Turn Unit AuthMoment AuthEnv)) : Prop where
  /-- After an error the users are those from before, or those with the operation's own write. -/
  own_write : ∀ f, (run (operation sys call) (authStart s) turns).calls () = .raised f →
    (run (operation sys call) (authStart s) turns).shared.users = s.users ∨
      OwnWrite sys s.users call (run (operation sys call) (authStart s) turns).shared.users
  /-- An error no later than the write leaves the users as they were. -/
  before_write : ∀ pre m f, turns = pre ++ [.call () m] →
    (run (operation sys call) (authStart s) turns).calls () = .raised f →
    ((run (operation sys call) (authStart s) pre).calls ()).pastWrite = false →
    ((run (operation sys call) (authStart s) pre).calls ()).ended = false →
    (∀ user, (run (operation sys call) (authStart s) pre).calls () = .savingLogin user →
      user.isActive = true ∨ m.fault = true) →
    (run (operation sys call) (authStart s) turns).shared.users = s.users

variable {sys call s}

theorem writeFits_run (turns : List (Turn Unit AuthMoment AuthEnv)) :
    WriteFits sys s.users call ((run (operation sys call) (authStart s) turns).calls ())
      (run (operation sys call) (authStart s) turns).shared.users := by
  refine run_invariant (I := fun w : World Unit AuthState AuthPhase =>
    WriteFits sys s.users call (w.calls ()) w.shared.users) (fun w t h => ?_) ?_ turns
  · cases t with
    | call k m => exact act_fits m h
    | env e => cases e <;> exact h
  · exact rfl

/-- Whichever calls of an operation fail, an error leaves the user collection as it was, or with
the one write of the operation done in full if the error came after it. -/
theorem operation_fails_cleanly (sys : AuthSystem) (call : AuthCall) (s : AuthState)
    (turns : List (Turn Unit AuthMoment AuthEnv)) : FailsCleanly sys call s turns := by
  constructor
  case own_write =>
    intro f _
    exact (writeFits_run turns).settled
  case before_write =>
    rintro pre m f rfl hraised hl hend hactive
    rw [run_append] at hraised ⊢
    exact raise_early (writeFits_run pre) hl hend hactive hraised

end Runs

section Sample

def bobRegisters : AuthCall := .register ⟨"bob", "bob@example.com", "secret99", []⟩

def bobTurns : List (Turn Unit AuthMoment AuthEnv) :=
  [.call () {}, .call () { newId := "u2" }, .call () { fault := true }]

/-- Redis fails when the new refresh token is saved: the registration is answered with an error,
and the account is there. -/
theorem failed_registration_leaves_account :
    ∃ f, (run (operation (AuthSystem.ofTable []) bobRegisters) (authStart (aliceState [] none))
        bobTurns).calls () = .raised f ∧
      (run (operation (AuthSystem.ofTable []) bobRegisters) (authStart (aliceState [] none))
        bobTurns).shared.users.items.map User.email = ["alice@x", "bob@example.com"] ∧
      (run (operation (AuthSystem.ofTable []) bobRegisters) (authStart (aliceState [] none))
        bobTurns).shared.users ≠ (aliceState [] none).users := by
  refine ⟨_, rfl, rfl, fun h => ?_⟩
  have hitems := congrArg (fun users => users.items.length) h
  exact absurd hitems (by decide)

end Sample
end MsaTuto
