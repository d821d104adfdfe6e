import MsaTuto.AuthServer

/-! Registrations of one email side by side: `UsersService.create` looks the email up, and later
inserts under the unique index. -/
namespace MsaTuto
open Runs AuthService

def registers {κ : Type*} (dto : κ → RegisterDto) (k : κ) : AuthCall := .register (dto k)

def emailTaken : Failure := .http .conflict "이미 존재하는 이메일입니다"

/-- Some account has the email. -/
def Stored (email : String) (users : UserCollection) : Prop := ∃ u ∈ users.items, u.email = email

def AuthPhase.succeeded : AuthPhase → Bool
  | .returned _ => true
  | _ => false

/-- The account of the call is in. -/
def AuthPhase.inserted : AuthPhase → Bool
  | .signing _ _ _ | .returned _ => true
  | _ => false

section Registering
variable {κ : Type*} (sys : AuthSystem) (dto : κ → RegisterDto) (email : String)

/-- The account of the registration is one that Mongoose lets through, under an id that is free. -/
def Insertable (users : UserCollection) (dto : RegisterDto) (m : AuthMoment) : Prop :=
  dto.nullId = false ∧ ∃ user, newUser sys dto m = some user ∧ ∀ u ∈ users.items, u.id ≠ user.id

/-- Nothing fails in the turn but an insert for its email: no call of a store, no insert for its
id or for a field that Mongoose refuses, no signing and no save of the new tokens. -/
def NothingElseFails (w : World κ AuthState AuthPhase) : Turn κ AuthMoment AuthEnv → Prop
  | .call k m => m.fault = false ∧
      (∀ dto, w.calls k = .inserting dto → Insertable sys w.shared.users dto m) ∧
      ∀ userId user shown, w.calls k = .signing userId user shown → Saves sys m w.shared userId user
  | .env _ => True

/-- No call comes to its insert when the email is stored by then. -/
def InsertsFree (w : World κ AuthState AuthPhase) : Turn κ AuthMoment AuthEnv → Prop
  | .call k _ => ∀ dto, w.calls k = .inserting dto → ¬Stored email w.shared.users
  | .env _ => True

/-- The contract of concurrent registration, for an email that was `known` before or was not. -/
structure OneRegistration (known : Prop) (w : World κ AuthState AuthPhase) : Prop where
  one_account : ∀ u ∈ w.shared.users.items, ∀ v ∈ w.shared.users.items,
    u.email = email → v.email = email → u = v
  one_success : ∀ k k', (w.calls k).succeeded = true → (w.calls k').succeeded = true → k = k'
  none_if_known : known → ∀ k, (w.calls k).succeeded = false
  some_success : ¬known → Nonempty κ → (∀ k, (w.calls k).ended = true) →
    ∃ k, (w.calls k).succeeded = true
  conflict : ∀ k f, w.calls k = .raised f → f = emailTaken

/-- What the phases of the calls say about the collection. -/
def PhaseFits (known : Prop) (dto : RegisterDto) (l : AuthPhase) (users : UserCollection) : Prop :=
  match l with
  | .started => True
  | .inserting d => d = dto
  | .signing _ _ _ | .returned _ => Stored email users ∧ ¬known
  | .raised f => Stored email users ∧ f = emailTaken
  | _ => False

structure RegistrationFits (known : Prop) (w : World κ AuthState AuthPhase) : Prop where
  phases : ∀ k, PhaseFits email known (dto k) (w.calls k) w.shared.users
  one : ∀ k k', (w.calls k).inserted = true → (w.calls k').inserted = true → k = k'
  stored : Stored email w.shared.users ↔ known ∨ ∃ k, (w.calls k).inserted = true

variable {sys dto email} {known : Prop} {w : World κ AuthState AuthPhase}

theorem PhaseFits.mono {d : RegisterDto} {l : AuthPhase} {users users' : UserCollection}
    (h : PhaseFits email known d l users) (hstored : Stored email users → Stored email users') :
    PhaseFits email known d l users' := by
  cases l with
  | started => trivial
  | inserting d' => exact h
  | signing userId user shown => exact ⟨hstored h.1, h.2⟩
  | returned result => exact ⟨hstored h.1, h.2⟩
  | raised f => exact ⟨hstored h.1, h.2⟩
  | _ => exact h.elim

theorem inserted_of_succeeded {l : AuthPhase} (h : l.succeeded = true) : l.inserted = true := by
  cases l <;> first | rfl | cases h

theorem RegistrationFits.contract (h : RegistrationFits dto email known w) :
    OneRegistration email known w := by
  constructor
  case one_account =>
    intro u hu v hv heu hev
    exact UserCollection.eq_of_email hu hv (heu.trans hev.symm)
  case one_success =>
    intro k k' hk hk'
    exact h.one k k' (inserted_of_succeeded hk) (inserted_of_succeeded hk')
  case none_if_known =>
    intro hknown k
    have hfit := h.phases k
    cases hl : w.calls k with
    | returned result =>
      rw [hl] at hfit
      exact absurd hknown hfit.2
    | _ => rfl
  case some_success =>
    intro hnew ⟨k⟩ hended
    have hstored : Stored email w.shared.users := by
      have hfit := h.phases k
      obtain ⟨result, hl⟩ | ⟨f, hl⟩ := AuthPhase.ended_iff.mp (hended k)
      · rw [hl] at hfit
        exact hfit.1
      · rw [hl] at hfit
        exact hfit.1
    obtain hknown | ⟨k', hk'⟩ := h.stored.mp hstored
    · exact absurd hknown hnew
    · refine ⟨k', ?_⟩
      obtain ⟨result, hl⟩ | ⟨f, hl⟩ := AuthPhase.ended_iff.mp (hended k')
      · rw [hl]
        rfl
      · rw [hl] at hk'
        cases hk'
  case conflict =>
    intro k f hl
    have hfit := h.phases k
    rw [hl] at hfit
    exact hfit.2

theorem registrationFits_start (s : AuthState) :
    RegistrationFits dto email (Stored email s.users) (authStart s) := by
  constructor
  case phases => exact fun _ => trivial
  case one => exact fun _ _ hk => by cases hk
  case stored =>
    refine ⟨.inl, fun h => ?_⟩
    obtain hknown | ⟨k, hk⟩ := h
    · exact hknown
    · cases hk

section Turn
variable {m : AuthMoment} {d : RegisterDto} {l : AuthPhase} {s : AuthState}

theorem stored_of_insert {users users' : UserCollection} {user : User}
    (h : users.insert user = .ok users') (hemail : user.email = email) : Stored email users' := by
  simp only [UserCollection.insert] at h
  split at h
  · cases h
    exact ⟨user, by simp, hemail⟩
  · cases h

/-- A turn of a registration leaves the users alone and the call on its side of the insert, or it
is the insert of an email that was free. -/
theorem register_turn (hd : d.email = email) (hl : PhaseFits email known d l s.users)
    (hf : m.fault = false)
    (hid : ∀ d', l = .inserting d' → Insertable sys s.users d' m)
    (hsaves : ∀ userId user shown, l = .signing userId user shown → Saves sys m s userId user)
    (hfree : ∀ d', l = .inserting d' → ¬Stored email s.users) :
    ((act sys (.register d) m l s).2.users = s.users ∧
      (act sys (.register d) m l s).1.inserted = l.inserted ∧
      PhaseFits email known d (act sys (.register d) m l s).1 s.users) ∨
    (¬Stored email s.users ∧ Stored email (act sys (.register d) m l s).2.users ∧
      ∃ userId user, (act sys (.register d) m l s).1 = .signing userId user true) := by
  cases l with
  | started =>
    refine .inl ?_
    simp only [act, hf, proceed, start]
    cases hfound : s.users.findByEmail d.email with
    | none => exact ⟨rfl, rfl, rfl⟩
    | some u =>
      obtain ⟨hmem, hemail⟩ := UserCollection.mem_of_findByEmail hfound
      exact ⟨rfl, rfl, ⟨u, hmem, hemail.trans hd⟩, rfl⟩
  | inserting d' =>
    have hsame : d' = d := hl
    subst hsame
    have hnew := hfree d' rfl
    obtain ⟨hnull, user, huser, hfree⟩ := hid d' rfl
    have hsame : user.email = email := (makes_of_newUser huser).email.trans hd
    have hemail : ∀ u ∈ s.users.items, u.email ≠ user.email := by
      intro u hu hue
      exact hnew ⟨u, hu, hue.trans hsame⟩
    obtain ⟨users, hinsert, -⟩ := UserCollection.insert_ok hfree hemail
    refine .inr ⟨hnew, ?_, user.id, user, ?_⟩
    · simp only [act, hf, proceed, huser, hinsert]
      exact stored_of_insert hinsert hsame
    · simp [act, hf, proceed, huser, hinsert, hnull]
  | signing userId user shown =>
    obtain ⟨-, hsigns, cache, hsave⟩ := hsaves userId user shown rfl
    refine .inl ?_
    simp only [act, hf, proceed, hsigns, hsave]
    exact ⟨rfl, rfl, hl⟩
  | returned result =>
    simp only [act, hf, proceed]
    exact .inl ⟨rfl, rfl, hl⟩
  | raised f =>
    simp only [act, hf, proceed]
    exact .inl ⟨rfl, rfl, hl⟩
  | _ => exact hl.elim

/-- The unique index answers with an error that neither `catch` block takes for a conflict. -/
theorem late_insert_raises (hd : d.email = email) (hf : m.fault = false)
    (hstored : Stored email s.users) :
    (act sys (.register d) m (.inserting d) s).1 =
      .raised (.http .internalServerError "회원가입 처리 중 오류가 발생했습니다") := by
  obtain ⟨u, hu, hue⟩ := hstored
  cases huser : newUser sys d m with
  | none => simp [act, hf, proceed, huser, AuthCall.caught, Failure.isConflict]
  | some user =>
    have hemail : user.email = d.email := (makes_of_newUser huser).email
    have hinsert := UserCollection.insert_duplicate user hu (hue.trans (hemail.trans hd).symm)
    simp [act, hf, proceed, huser, hinsert, AuthCall.caught, Failure.isConflict]

end Turn

section Runs
variable [DecidableEq κ] {t : Turn κ AuthMoment AuthEnv}

/-- A turn of call `k` that leaves the users alone, and the call on its side of the insert. -/
theorem RegistrationFits.turn {w' : World κ AuthState AuthPhase} {k : κ}
    (h : RegistrationFits dto email known w) (hother : ∀ k', k' ≠ k → w'.calls k' = w.calls k')
    (husers : w'.shared.users = w.shared.users)
    (hflag : (w'.calls k).inserted = (w.calls k).inserted)
    (hfit : PhaseFits email known (dto k) (w'.calls k) w.shared.users) :
    RegistrationFits dto email known w' := by
  have hflags : ∀ k', (w'.calls k').inserted = (w.calls k').inserted := by
    intro k'
    by_cases hk : k' = k
    · rw [hk, hflag]
    · rw [hother k' hk]
  constructor
  case phases =>
    intro k'
    rw [husers]
    by_cases hk : k' = k
    · rw [hk]
      exact hfit
    · rw [hother k' hk]
      exact h.phases k'
  case one =>
    intro k' k''
    rw [hflags, hflags]
    exact h.one k' k''
  case stored =>
    rw [husers, h.stored]
    simp only [hflags]

/-- The insert of call `k`, the first to find the email free. -/
theorem RegistrationFits.insert {w' : World κ AuthState AuthPhase} {k : κ} {userId : String}
    {user : User} (h : RegistrationFits dto email known w)
    (hother : ∀ k', k' ≠ k → w'.calls k' = w.calls k') (hnew : ¬Stored email w.shared.users)
    (hstored : Stored email w'.shared.users) (hphase : w'.calls k = .signing userId user true) :
    RegistrationFits dto email known w' := by
  have hunknown : ¬known := fun hk => hnew (h.stored.mpr (.inl hk))
  have hnone : ∀ k', (w.calls k').inserted = false := by
    intro k'
    by_contra hk'
    exact hnew (h.stored.mpr (.inr ⟨k', by simpa using hk'⟩))
  have honly : ∀ k', (w'.calls k').inserted = true → k' = k := by
    intro k' hk'
    by_contra hk
    rw [hother k' hk, hnone k'] at hk'
    cases hk'
  constructor
  case phases =>
    intro k'
    by_cases hk : k' = k
    · rw [hk, hphase]
      exact ⟨hstored, hunknown⟩
    · rw [hother k' hk]
      exact (h.phases k').mono fun hst => absurd hst hnew
  case one => exact fun k' k'' hk' hk'' => (honly k' hk').trans (honly k'' hk'').symm
  case stored =>
    refine ⟨fun _ => .inr ⟨k, ?_⟩, fun _ => hstored⟩
    rw [hphase]
    rfl

theorem registrationFits_step (hdto : ∀ k, (dto k).email = email)
    (h : RegistrationFits dto email known w) (hR : NothingElseFails sys w t)
    (hP : InsertsFree email w t) :
    RegistrationFits dto email known ((authServer sys (registers dto)).step w t) := by
  cases t with
  | env e =>
    have husers : (e.act w.shared).users = w.shared.users := by cases e <;> rfl
    refine ⟨fun k => ?_, h.one, ?_⟩
    · rw [step_env_shared]
      exact husers ▸ h.phases k
    · rw [step_env_shared]
      exact husers ▸ h.stored
  | call k m =>
    obtain ⟨hf, hid, hsaves⟩ := hR
    have hother : ∀ k', k' ≠ k →
        ((authServer sys (registers dto)).step w (.call k m)).calls k' = w.calls k' :=
      fun k' hk => step_call_other _ w hk m
    have hself := step_call_self (authServer sys (registers dto)) w k m
    obtain ⟨husers, hflag, hfit⟩ | ⟨hnew, hstored, userId, user, hphase⟩ :=
      register_turn (hdto k) (h.phases k) hf hid hsaves hP
    · exact h.turn hother husers (hself ▸ hflag) (hself ▸ hfit)
    · exact h.insert hother hnew hstored (hself.trans hphase)

theorem insertsFree_of_contract (hdto : ∀ k, (dto k).email = email)
    (h : RegistrationFits dto email known w) (hR : NothingElseFails sys w t)
    (hnext : OneRegistration email known ((authServer sys (registers dto)).step w t)) :
    InsertsFree email w t := by
  cases t with
  | env e => trivial
  | call k m =>
    intro d hl hstored
    have hfit := h.phases k
    rw [hl] at hfit
    have hsame : d = dto k := hfit
    subst hsame
    have hraised := hnext.conflict k _ (by
      rw [step_call_self, hl]
      exact late_insert_raises (hdto k) hR.1 hstored)
    cases hraised

/-- Registrations of one email, however interleaved, have one winner and a conflict for every
other exactly if none comes to its insert when the email is stored by then. -/
theorem one_registration_iff (hdto : ∀ k, (dto k).email = email) (s : AuthState)
    {turns : List (Turn κ AuthMoment AuthEnv)}
    (hR : Along (authServer sys (registers dto)).step (NothingElseFails sys) (authStart s) turns) :
    Always (authServer sys (registers dto)).step (OneRegistration email (Stored email s.users))
        (authStart s) turns ↔
      Along (authServer sys (registers dto)).step (InsertsFree email) (authStart s) turns :=
  always_iff_along (fun _ h => h.contract)
    (fun _ _ h hR hP => registrationFits_step hdto h hR hP)
    (fun _ _ h hR hnext => insertsFree_of_contract hdto h hR hnext)
    (registrationFits_start s) hR

end Runs

end Registering

section Sample

def bobEmail : String := "bob@example.com"

def bob (_ : Bool) : RegisterDto := ⟨"bob", "bob@example.com", "secret99", []⟩

def bobTokens : List (String × JwtPayload) :=
  [("access2", ⟨some "u2", some "bob@example.com", some [.USER], some 3600⟩),
    ("refresh2", ⟨some "u2", none, none, some 604800⟩)]

def bobTurn (k : Bool) : Turn Bool AuthMoment AuthEnv :=
  .call k { newId := if k then "u3" else "u2",
            accessToken := "access2", refreshToken := "refresh2" }

theorem bob_registers_once :
    Always (authServer (AuthSystem.ofTable bobTokens) (registers bob)).step
      (OneRegistration bobEmail (Stored bobEmail (aliceState [] none).users))
      (authStart (aliceState [] none))
      [bobTurn false, bobTurn false, bobTurn false, bobTurn true] := by
  have hfree : ¬Stored bobEmail (aliceState [] none).users := by
    intro ⟨u, hu, hemail⟩
    rw [List.mem_singleton.mp hu] at hemail
    exact absurd hemail (by decide)
  refine (one_registration_iff (fun _ => rfl) (aliceState [] none) ?_).mpr ?_
  · refine ⟨⟨rfl, ?_, ?_⟩, ⟨rfl, ?_, ?_⟩, ⟨rfl, ?_, ?_⟩, ⟨rfl, ?_, ?_⟩, trivial⟩
    case refine_3 =>
      intro dto hl
      cases hl
      refine ⟨rfl, _, rfl, fun u hu => ?_⟩
      rw [List.mem_singleton.mp hu]
      decide
    case refine_6 =>
      intro userId user shown hl
      cases hl
      exact ⟨rfl, by decide, _, rfl⟩
    all_goals exact fun _ => by intros; contradiction
  · refine ⟨?_, ?_, ?_, ?_, trivial⟩
    case refine_2 => exact fun _ _ => hfree
    all_goals exact fun _ hl => by cases hl

/-- Both look the email up before either inserts: the second is refused by the index, and
answered with 500. -/
theorem second_bob_gets_500 :
    Along (authServer (AuthSystem.ofTable bobTokens) (registers bob)).step
      (NothingElseFails (AuthSystem.ofTable bobTokens)) (authStart (aliceState [] none))
      [bobTurn false, bobTurn true, bobTurn false, bobTurn true] ∧
    ¬Always (authServer (AuthSystem.ofTable bobTokens) (registers bob)).step
      (OneRegistration bobEmail (Stored bobEmail (aliceState [] none).users))
      (authStart (aliceState [] none))
      [bobTurn false, bobTurn true, bobTurn false, bobTurn true] := by
  refine ⟨⟨⟨rfl, ?_, ?_⟩, ⟨rfl, ?_, ?_⟩, ⟨rfl, ?_, ?_⟩, ⟨rfl, ?_, ?_⟩, trivial⟩, fun h => ?_⟩
  case refine_5 =>
    intro dto hl
    cases hl
    refine ⟨rfl, _, rfl, fun u hu => ?_⟩
    rw [List.mem_singleton.mp hu]
    decide
  case refine_7 =>
    intro dto hl
    cases hl
    refine ⟨rfl, _, rfl, ?_⟩
    decide
  case refine_9 =>
    have hraised := h.last.conflict true _ rfl
    cases hraised
  all_goals exact fun _ => by intros; contradiction

end Sample
end MsaTuto
