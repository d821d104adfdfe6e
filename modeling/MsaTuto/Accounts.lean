import MsaTuto.AuthInvariants
import MsaTuto.Provenance
import MsaTuto.RedeemableToken

/-! The accounts of the auth server over whole runs of its endpoints: none is lost or taken over,
and a session is given out only for what entitles to it. -/
namespace MsaTuto
open Runs AuthService

/-- One account at two times: all that may have changed are the last login and, with the version,
the roles. -/
structure SameAccount (u v : User) : Prop where
  id : v.id = u.id
  name : v.name = u.name
  email : v.email = u.email
  password : v.password = u.password
  isActive : v.isActive = u.isActive
  version : u.version ≤ v.version
  roles : v.version = u.version → v.roles = u.roles

section Accounts
variable {u v w : User} {c c' : UserCollection}

theorem SameAccount.refl (u : User) : SameAccount u u :=
  ⟨rfl, rfl, rfl, rfl, rfl, Int.le_refl _, fun _ => rfl⟩

theorem SameAccount.trans (h : SameAccount u v) (h' : SameAccount v w) : SameAccount u w where
  id := h'.id.trans h.id
  name := h'.name.trans h.name
  email := h'.email.trans h.email
  password := h'.password.trans h.password
  isActive := h'.isActive.trans h.isActive
  version := Int.le_trans h.version h'.version
  roles hversion := by
    have hv := h.version
    have hw := h'.version
    exact (h'.roles (by omega)).trans (h.roles (by omega))

theorem sameAccount_roles (u : User) (roles : List (Option Role)) :
    SameAccount u { u with roles := roles, version := u.version + 1 } where
  id := rfl
  name := rfl
  email := rfl
  password := rfl
  isActive := rfl
  version := Int.le_add_one (Int.le_refl _)
  roles hversion := by
    dsimp only at hversion
    omega

theorem sameAccount_lastLogin (u : User) (now : Int) :
    SameAccount u { u with lastLogin := some now } :=
  ⟨rfl, rfl, rfl, rfl, rfl, Int.le_refl _, fun _ => rfl⟩

/-- Every account of `c` is in `c'`. -/
def KeepsAccounts (c c' : UserCollection) : Prop := ∀ u ∈ c.items, ∃ v ∈ c'.items, SameAccount u v

theorem KeepsAccounts.refl (c : UserCollection) : KeepsAccounts c c := fun u hu => ⟨u, hu, .refl u⟩

theorem KeepsAccounts.trans {c'' : UserCollection} (h : KeepsAccounts c c')
    (h' : KeepsAccounts c' c'') : KeepsAccounts c c'' := by
  intro u hu
  obtain ⟨v, hv, huv⟩ := h u hu
  obtain ⟨w, hw, hvw⟩ := h' v hv
  exact ⟨w, hw, huv.trans hvw⟩

/-- An update changes accounts in place. -/
theorem sameAccount_updateOne {id : String} {guard : User → Bool} {change : UserCollection.Change}
    (hchange : ∀ u, SameAccount u (change.apply u)) (h : c.updateOne id guard change = some c') :
    KeepsAccounts c c' ∧ ∀ v ∈ c'.items, ∃ u ∈ c.items, SameAccount u v := by
  have hupdate : ∀ u, SameAccount u (UserCollection.updateAt id change u) := by
    intro u
    unfold UserCollection.updateAt
    split
    · exact hchange u
    · exact .refl u
  rw [KeepsAccounts, UserCollection.items_updateOne h]
  constructor
  · exact fun u hu => ⟨_, List.mem_map_of_mem hu, hupdate u⟩
  · intro v hv
    obtain ⟨u, hu, rfl⟩ := List.mem_map.mp hv
    exact ⟨u, hu, hupdate u⟩

/-- A turn keeps the accounts there are, and adds none but that of a registration. -/
theorem accounts_step {sys : AuthSystem} {call : AuthCall} {m : AuthMoment} {s s' : AuthState}
    {l l' : AuthPhase} (h : Step sys call m s l l' s') :
    KeepsAccounts s.users s'.users ∧ ∀ v ∈ s'.users.items,
      (∃ u ∈ s.users.items, SameAccount u v) ∨
        ∃ dto, l = .inserting dto ∧ newUser sys dto m = some v := by
  cases h with
  | logsIn user users hset =>
    obtain ⟨hkeeps, hfrom⟩ := sameAccount_updateOne (fun u => sameAccount_lastLogin u _) hset
    exact ⟨hkeeps, fun v hv => .inl (hfrom v hv)⟩
  | pushes user userId role users hf hset =>
    obtain ⟨hkeeps, hfrom⟩ := sameAccount_updateOne (fun u => sameAccount_roles u _) hset
    exact ⟨hkeeps, fun v hv => .inl (hfrom v hv)⟩
  | sets user userId roles users hset =>
    obtain ⟨hkeeps, hfrom⟩ := sameAccount_updateOne (fun u => sameAccount_roles u _) hset
    exact ⟨hkeeps, fun v hv => .inl (hfrom v hv)⟩
  | inserts dto user users hf hnew hset | insertsUnnamed dto user users hf hnew hset =>
    refine ⟨fun u hu => ⟨u, UserCollection.id_insert hset hu, .refl u⟩, fun v hv => ?_⟩
    obtain hold | rfl := UserCollection.mem_insert hset hv
    · exact .inl ⟨v, hold, .refl v⟩
    · exact .inr ⟨dto, rfl, hnew⟩
  | _ => exact ⟨.refl _, fun v hv => .inl ⟨v, hv, .refl v⟩⟩

end Accounts

section Sessions
variable (sys : AuthSystem)

/-- What a call shows to get a session of the account. -/
def Shows (s : AuthState) (v : User) : AuthCall → Prop
  | .login email password => v.email = email ∧ sys.compare password v.password = true
  | .register dto => ∃ m user, newUser sys dto m = some user ∧ SameAccount user v
  | .refreshToken userId refreshToken => sys.objectId userId = some v.id ∧
      refreshToken ∈ s.signed ∧ ∃ p, sys.decode refreshToken = some p ∧ p.sub = some userId
  | _ => False

/-- A registration looks at no flag, and no other call passes a deactivated account. -/
def LetsIn (v : User) : AuthCall → Prop
  | .register _ => True
  | _ => v.isActive = true

/-- The two tokens name the account, and so do the access token's email and the view beside. -/
structure Session (s : AuthState) (access refresh : String) (view : Option UserView) (v : User) :
    Prop where
  signed : access ∈ s.signed ∧ refresh ∈ s.signed
  claims : ∃ sub p p', sys.decode access = some p ∧ sys.decode refresh = some p' ∧
    p.sub = some sub ∧ p'.sub = some sub ∧ Names sys sub v.id ∧ p.email = some v.email
  view : ∀ shown, view = some shown →
    shown.id = v.id ∧ shown.email = v.email ∧ shown.name = v.name

/-- What a call has shown by the time it is at the phase. -/
def SessionFits (call : AuthCall) (l : AuthPhase) (s : AuthState) : Prop :=
  match l with
  | .savingLogin user => ∃ email password, call = .login email password ∧
      ∃ v ∈ s.users.items, SameAccount user v ∧ Shows sys s v call
  | .inserting dto => call = .register dto
  | .validated userId => ∃ refreshToken, call = .refreshToken userId refreshToken ∧
      refreshToken ∈ s.signed ∧ ∃ p, sys.decode refreshToken = some p ∧ p.sub = some userId
  | .signing userId user _ => Names sys userId user.id ∧
      ∃ v ∈ s.users.items, SameAccount user v ∧ Shows sys s v call ∧ LetsIn v call
  | .returned (.tokens access refresh view) =>
      ∃ v ∈ s.users.items, Session sys s access refresh view v ∧ Shows sys s v call ∧ LetsIn v call
  | _ => True

variable {sys} {s s' : AuthState} {call : AuthCall} {l l' : AuthPhase} {v v' : User}

theorem Shows.mono (h : Shows sys s v call) (hv : SameAccount v v')
    (hsigned : s.signed ⊆ s'.signed) : Shows sys s' v' call := by
  cases call with
  | login email password => exact ⟨hv.email.trans h.1, hv.password ▸ h.2⟩
  | register dto =>
    obtain ⟨m, user, hnew, hsame⟩ := h
    exact ⟨m, user, hnew, hsame.trans hv⟩
  | refreshToken userId refreshToken => exact ⟨hv.id ▸ h.1, hsigned h.2.1, h.2.2⟩
  | _ => exact h

theorem LetsIn.mono (h : LetsIn v call) (hv : SameAccount v v') : LetsIn v' call := by
  cases call with
  | register dto => trivial
  | _ => exact hv.isActive.trans h

theorem Session.mono {access refresh : String} {view : Option UserView}
    (h : Session sys s access refresh view v) (hv : SameAccount v v')
    (hsigned : s.signed ⊆ s'.signed) : Session sys s' access refresh view v' where
  signed := ⟨hsigned h.signed.1, hsigned h.signed.2⟩
  claims := by
    rw [hv.id, hv.email]
    exact h.claims
  view := by
    rw [hv.id, hv.email, hv.name]
    exact h.view

theorem SessionFits.mono (h : SessionFits sys call l s) (hkeeps : KeepsAccounts s.users s'.users)
    (hsigned : s.signed ⊆ s'.signed) : SessionFits sys call l s' := by
  cases l with
  | savingLogin user =>
    obtain ⟨email, password, hcall, v, hv, hsame, hshows⟩ := h
    obtain ⟨v', hv', hvv'⟩ := hkeeps v hv
    exact ⟨email, password, hcall, v', hv', hsame.trans hvv', hshows.mono hvv' hsigned⟩
  | validated userId =>
    obtain ⟨refreshToken, hcall, hmem, hsub⟩ := h
    exact ⟨refreshToken, hcall, hsigned hmem, hsub⟩
  | signing userId user shown =>
    obtain ⟨hnames, v, hv, hsame, hshows, hlets⟩ := h
    obtain ⟨v', hv', hvv'⟩ := hkeeps v hv
    exact ⟨hnames, v', hv', hsame.trans hvv', hshows.mono hvv' hsigned, hlets.mono hvv'⟩
  | returned result =>
    cases result with
    | tokens access refresh view =>
      obtain ⟨v, hv, hsession, hshows, hlets⟩ := h
      obtain ⟨v', hv', hvv'⟩ := hkeeps v hv
      exact ⟨v', hv', hsession.mono hvv' hsigned, hshows.mono hvv' hsigned, hlets.mono hvv'⟩
    | _ => trivial
  | inserting dto => exact h
  | _ => trivial

theorem sessionFits_start (call : AuthCall) (s : AuthState) :
    SessionFits sys call (start sys s call) s := by
  cases call with
  | login email password =>
    simp only [start]
    split
    next user hfind =>
      split
      next hcompare =>
        obtain ⟨hmem, hemail⟩ := UserCollection.mem_of_findByEmail hfind
        exact ⟨email, password, rfl, user, hmem, .refl user, hemail, hcompare⟩
      next => trivial
    next => trivial
  | register dto =>
    simp only [start]
    split
    · trivial
    · rfl
  | refreshToken userId refreshToken =>
    simp only [start]
    split
    next hvalid =>
      obtain ⟨value, -, -, -, p, hverify, hsub⟩ := validateRefreshToken_iff.mp hvalid
      obtain ⟨hsigned, hdecode, -⟩ := AuthSystem.verify_eq_some.mp hverify
      exact ⟨refreshToken, rfl, hsigned, p, hdecode, hsub⟩
    next => trivial
  | logout userId accessToken =>
    simp only [start]
    split
    · split <;> trivial
    · trivial
  | addRole userId role =>
    simp only [start]
    split
    · split <;> trivial
    · trivial
  | removeRole userId role =>
    simp only [start]
    split
    · split <;> trivial
    · trivial

theorem sessionFits_failing (h : SessionFits sys call l s) :
    SessionFits sys call (failing sys call s l) s := by
  cases l with
  | started =>
    cases call with
    | logout userId accessToken => exact sessionFits_start _ s
    | _ => trivial
  | returned result => exact h
  | _ => trivial

theorem sessionFits_savingLogin {user : User} (m : AuthMoment)
    (h : SessionFits sys call (.savingLogin user) s) :
    SessionFits sys call (proceed sys call m (.savingLogin user) s).1
      (proceed sys call m (.savingLogin user) s).2 := by
  obtain ⟨email, password, rfl, v, hv, hsame, hshows⟩ := h
  simp only [proceed]
  split
  next users hset =>
    obtain ⟨hkeeps, -⟩ := sameAccount_updateOne (fun u => sameAccount_lastLogin u _) hset
    obtain ⟨v', hv', hvv'⟩ := hkeeps v hv
    dsimp only
    split
    next hactive =>
      refine ⟨.inl rfl, v', hv', hsame.trans hvv', ?_, ?_⟩
      · exact hshows.mono hvv' (List.Subset.refl _)
      · exact (hsame.trans hvv').isActive.trans hactive
    next => trivial
  next => trivial

theorem sessionFits_inserting {dto : RegisterDto} (m : AuthMoment)
    (h : SessionFits sys call (.inserting dto) s) :
    SessionFits sys call (proceed sys call m (.inserting dto) s).1
      (proceed sys call m (.inserting dto) s).2 := by
  obtain rfl : call = .register dto := h
  simp only [proceed]
  split
  next user hnew =>
    split
    next users hset =>
      dsimp only
      split
      · trivial
      · exact ⟨.inl rfl, user, UserCollection.self_mem_insert hset, .refl _,
          ⟨m, user, hnew, .refl _⟩, trivial⟩
    next => trivial
  next => trivial

theorem sessionFits_validated {userId : String} (m : AuthMoment)
    (h : SessionFits sys call (.validated userId) s) :
    SessionFits sys call (proceed sys call m (.validated userId) s).1
      (proceed sys call m (.validated userId) s).2 := by
  obtain ⟨refreshToken, rfl, hsigned, hsub⟩ := h
  simp only [proceed]
  split
  next user huser =>
    obtain ⟨hmem, hid⟩ := findById_ok huser
    dsimp only
    split
    next hactive => exact ⟨.inr hid, user, hmem, .refl user, ⟨hid, hsigned, hsub⟩, hactive⟩
    next => trivial
  next => trivial

theorem sessionFits_signing {userId : String} {user : User} {shown : Bool} (m : AuthMoment)
    (h : SessionFits sys call (.signing userId user shown) s) :
    SessionFits sys call (proceed sys call m (.signing userId user shown) s).1
      (proceed sys call m (.signing userId user shown) s).2 := by
  simp only [proceed]
  split
  next hsigns =>
    split
    next cache hsave =>
      obtain ⟨hnames, v, hv, hsame, hshows, hlets⟩ := h
      obtain ⟨haccess, -, hrefresh⟩ := signsBoth_payloads hsigns
      refine ⟨v, hv, ?_, hshows.mono (.refl v) ?_, hlets⟩
      · constructor
        case signed => exact ⟨List.mem_cons_of_mem _ List.mem_cons_self, List.mem_cons_self⟩
        case claims =>
          refine ⟨userId, _, _, haccess, hrefresh, rfl, rfl, ?_, ?_⟩
          · rwa [hsame.id]
          · rw [hsame.email]
            rfl
        case view =>
          intro view hview
          cases shown with
          | false => cases hview
          | true =>
            cases hview
            exact ⟨hsame.id.symm, hsame.email.symm, hsame.name.symm⟩
      · exact fun t ht => List.mem_cons_of_mem _ (List.mem_cons_of_mem _ ht)
    next => trivial
  next => exact h

theorem sessionFits_act (m : AuthMoment) (h : SessionFits sys call l s) :
    SessionFits sys call (act sys call m l s).1 (act sys call m l s).2 := by
  unfold act
  by_cases hf : m.fault = true
  · rw [if_pos hf]
    exact sessionFits_failing h
  · rw [if_neg hf]
    cases l with
    | started => exact sessionFits_start call s
    | savingLogin user => exact sessionFits_savingLogin m h
    | inserting dto => exact sessionFits_inserting m h
    | validated userId => exact sessionFits_validated m h
    | signing userId user shown => exact sessionFits_signing m h
    | blacklisting userId accessToken ttl =>
      simp only [proceed]
      split <;> trivial
    | pushing user userId role =>
      simp only [proceed]
      split <;> trivial
    | setting user userId roles =>
      simp only [proceed]
      split
      · trivial
      · split <;> trivial
    | returned result => exact h
    | _ => trivial

theorem sessions_invariant :
    ServiceInvariant sys (fun _ => True) (fun _ => True) (SessionFits sys) where
  starts call s _ := trivial
  own call m l s _ _ h := ⟨trivial, sessionFits_act m h⟩
  other call m l s call' l' _ _ _ h' := by
    have hstep := act_step sys call m l s
    exact h'.mono (accounts_step hstep).1 fun t => signed_step hstep
  env e s _ := by
    refine ⟨trivial, fun call l h => ?_⟩
    cases e <;> exact h.mono (.refl _) (List.Subset.refl _)

end Sessions

section Subjects
variable (sys : AuthSystem)

/-- Every token that was signed names a stored account. -/
def SubjectsStored (s : AuthState) : Prop :=
  ∀ t ∈ s.signed, ∀ p, sys.decode t = some p → ∃ u ∈ s.users.items, p.sub = some u.id

/-- A call that is going to sign does so for the id of a stored account. -/
def SubjectFits (l : AuthPhase) (s : AuthState) : Prop :=
  match l with
  | .validated userId | .signing userId _ _ => ∃ u ∈ s.users.items, u.id = userId
  | _ => True

variable {sys} {s s' : AuthState} {call : AuthCall} {m : AuthMoment} {l l' : AuthPhase}

theorem SubjectsStored.mono (h : SubjectsStored sys s) (hkeeps : KeepsAccounts s.users s'.users)
    (hsigned : s'.signed = s.signed) : SubjectsStored sys s' := by
  intro t ht p hp
  obtain ⟨u, hu, hsub⟩ := h t (hsigned ▸ ht) p hp
  obtain ⟨v, hv, huv⟩ := hkeeps u hu
  exact ⟨v, hv, by rw [hsub, huv.id]⟩

theorem SubjectFits.mono (h : SubjectFits l s) (hkeeps : KeepsAccounts s.users s'.users) :
    SubjectFits l s' := by
  have hstored : ∀ {userId}, (∃ u ∈ s.users.items, u.id = userId) →
      ∃ u ∈ s'.users.items, u.id = userId := by
    rintro userId ⟨u, hu, rfl⟩
    obtain ⟨v, hv, huv⟩ := hkeeps u hu
    exact ⟨v, hv, huv.id⟩
  cases l with
  | validated userId => exact hstored h
  | signing userId user shown => exact hstored h
  | _ => trivial

theorem subjectsStored_step (h : Step sys call m s l l' s') (hs : SubjectsStored sys s)
    (hl : SubjectFits l s) : SubjectsStored sys s' := by
  obtain ⟨hkeeps, -⟩ := accounts_step h
  cases h with
  | saves userId user shown hf hsigns cache hsave =>
    obtain ⟨u, hu, rfl⟩ := hl
    obtain ⟨haccess, -, hrefresh⟩ := signsBoth_payloads hsigns
    intro t ht p hp
    obtain rfl | ht := List.mem_cons.mp ht
    · cases hrefresh.symm.trans hp
      exact ⟨u, hu, rfl⟩
    · obtain rfl | ht := List.mem_cons.mp ht
      · cases haccess.symm.trans hp
        exact ⟨u, hu, rfl⟩
      · exact hs t ht p hp
  | _ => exact hs.mono hkeeps rfl

theorem subjectFits_step (h : Step sys call m s l l' s') (hs : SubjectsStored sys s)
    (hsession : SessionFits sys call l s) (hl : SubjectFits l s) : SubjectFits l' s' := by
  obtain ⟨hkeeps, -⟩ := accounts_step h
  cases h with
  | stays => exact hl
  | validates userId token hcall hvalid =>
    obtain ⟨value, -, -, -, p, hverify, hsub⟩ := validateRefreshToken_iff.mp hvalid
    obtain ⟨hsigned, hdecode, -⟩ := AuthSystem.verify_eq_some.mp hverify
    obtain ⟨u, hu, hid⟩ := hs token hsigned p hdecode
    exact ⟨u, hu, Option.some.inj (hid.symm.trans hsub)⟩
  | logsIn user users hset l' hl' =>
    obtain rfl | ⟨f, rfl⟩ := hl'
    · obtain ⟨-, -, -, v, hv, hsame, -⟩ := hsession
      obtain ⟨v', hv', hvv'⟩ := hkeeps v hv
      exact ⟨v', hv', (hsame.trans hvv').id⟩
    · trivial
  | inserts dto user users hf hnew hset => exact ⟨user, UserCollection.self_mem_insert hset, rfl⟩
  | resumes userId user => exact hl
  | _ => trivial

theorem subjects_invariant : ServiceInvariant sys (fun _ => True) (SubjectsStored sys)
    (fun call l s => SessionFits sys call l s ∧ SubjectFits l s) where
  starts call s _ := ⟨trivial, trivial⟩
  own call m l s _ hs h := by
    have hstep := act_step sys call m l s
    exact ⟨subjectsStored_step hstep hs h.2, sessionFits_act m h.1,
      subjectFits_step hstep hs h.1 h.2⟩
  other call m l s call' l' _ _ _ h' := by
    have hstep := act_step sys call m l s
    obtain ⟨hkeeps, -⟩ := accounts_step hstep
    exact ⟨h'.1.mono hkeeps fun t => signed_step hstep, h'.2.mono hkeeps⟩
  env e s hs := by
    cases e with
    | tick ms => exact ⟨hs, fun call l h => ⟨h.1.mono (.refl _) (List.Subset.refl _), h.2⟩⟩
    | dropKey key => exact ⟨hs, fun call l h => ⟨h.1.mono (.refl _) (List.Subset.refl _), h.2⟩⟩

end Subjects

section Runs
variable {κ : Type*} [DecidableEq κ] (sys : AuthSystem) (requests : κ → AuthRequest)
  (s : AuthState)

/-- The account is that of a registration of the run. -/
def ByRegistration (turns : List (Turn κ AuthMoment AuthEnv)) (v : User) : Prop :=
  ∃ k m dto user, .call k m ∈ turns ∧ requests k = .register dto ∧
    newUser sys dto m = some user ∧ SameAccount user v

/-- All calls under way are as `SessionFits` says. -/
def SessionsFit (w : World κ AuthState HttpPhase) : Prop :=
  Runs.Holds (fun _ => True) (fun k => Served (SessionFits sys) (requests k)) w

/-- A turn of the endpoints keeps the accounts, and adds none but that of a registration. -/
theorem accounts_turn {w : World κ AuthState HttpPhase} (t : Turn κ AuthMoment AuthEnv)
    (h : SessionsFit sys requests w) :
    KeepsAccounts w.shared.users ((authHttp sys requests).step w t).shared.users ∧
      ∀ v ∈ ((authHttp sys requests).step w t).shared.users.items,
        (∃ u ∈ w.shared.users.items, SameAccount u v) ∨ ByRegistration sys requests [t] v := by
  have hsame : ∀ v ∈ w.shared.users.items,
      (∃ u ∈ w.shared.users.items, SameAccount u v) ∨ ByRegistration sys requests [t] v :=
    fun v hv => .inl ⟨v, hv, .refl v⟩
  cases t with
  | env e => cases e <;> exact ⟨.refl _, hsame⟩
  | call k m =>
    rw [step_call_shared]
    obtain ⟨call, -, -, hact⟩ | ⟨cls, hact⟩ | ⟨call, l, hl, hact⟩ :=
      http_act_cases sys (requests k) m (w.calls k) w.shared
    · simp only [authHttp, hact]
      exact ⟨.refl _, hsame⟩
    · simp only [authHttp, hact]
      exact ⟨.refl _, hsame⟩
    · simp only [authHttp, hact]
      obtain ⟨hkeeps, hfrom⟩ := accounts_step (act_step sys call m l w.shared)
      refine ⟨hkeeps, fun v hv => (hfrom v hv).imp_right ?_⟩
      rintro ⟨dto, rfl, hnew⟩
      have hserved := h.2 k
      rw [hl] at hserved
      obtain ⟨hasks, rfl⟩ := hserved
      exact ⟨k, m, dto, v, List.mem_singleton_self _, asks_register hasks, hnew, .refl v⟩

variable {sys requests}

omit [DecidableEq κ] in
theorem ByRegistration.mono {us vs : List (Turn κ AuthMoment AuthEnv)} {v v' : User}
    (h : ByRegistration sys requests us v) (hsub : us ⊆ vs) (hv : SameAccount v v') :
    ByRegistration sys requests vs v' := by
  obtain ⟨k, m, dto, user, hmem, hrequest, hnew, hsame⟩ := h
  exact ⟨k, m, dto, user, hsub hmem, hrequest, hnew, hsame.trans hv⟩

variable (sys requests)

theorem sessionsFit_run (turns : List (Turn κ AuthMoment AuthEnv)) :
    SessionsFit sys requests (run (authHttp sys requests).step (httpStart s) turns) :=
  sessions_invariant.reached requests trivial turns

theorem accounts_keep {w : World κ AuthState HttpPhase} (h : SessionsFit sys requests w)
    (turns : List (Turn κ AuthMoment AuthEnv)) :
    KeepsAccounts w.shared.users (run (authHttp sys requests).step w turns).shared.users :=
  run_rel_of_invariant (I := SessionsFit sys requests)
    (R := fun w w' => KeepsAccounts w.shared.users w'.shared.users)
    (fun _ _ h => (sessions_invariant.stable requests).step h (asksOnly_true requests _))
    (fun w => .refl w.shared.users) (fun _ _ _ h h' => h.trans h')
    (fun _ t h => (accounts_turn sys requests t h).1) h turns

theorem accounts_origin (turns : List (Turn κ AuthMoment AuthEnv)) :
    ∀ v ∈ (run (authHttp sys requests).step (httpStart s) turns).shared.users.items,
      (∃ u ∈ s.users.items, SameAccount u v) ∨ ByRegistration sys requests turns v := by
  refine run_history (I := fun us (w : World κ AuthState HttpPhase) => ∀ v ∈ w.shared.users.items,
    (∃ u ∈ s.users.items, SameAccount u v) ∨ ByRegistration sys requests us v) ?_ ?_ turns
  · exact fun v hv => .inl ⟨v, hv, .refl v⟩
  · intro us t h v hv
    have hturn := accounts_turn sys requests t (sessionsFit_run sys requests s us)
    obtain ⟨u, hu, huv⟩ | hnew := hturn.2 v hv
    · obtain ⟨u₀, hu₀, hsame⟩ | hold := h u hu
      · exact .inl ⟨u₀, hu₀, hsame.trans huv⟩
      · exact .inr (hold.mono (List.subset_append_left _ _) huv)
    · exact .inr (hnew.mono (List.subset_append_right _ _) (.refl v))

/-- From any moment of a run to any later one, every account is still there, with its name, its
email, its password and its flag as they were; and every account of the run that was not there at
its start is the document of a registration. -/
theorem accounts_persist (past more : List (Turn κ AuthMoment AuthEnv)) :
    KeepsAccounts (run (authHttp sys requests).step (httpStart s) past).shared.users
        (run (authHttp sys requests).step (httpStart s) (past ++ more)).shared.users ∧
      ∀ v ∈ (run (authHttp sys requests).step (httpStart s) past).shared.users.items,
        (∃ u ∈ s.users.items, SameAccount u v) ∨ ByRegistration sys requests past v := by
  rw [run_append]
  exact ⟨accounts_keep sys requests (sessionsFit_run sys requests s past) more,
    accounts_origin sys requests s past⟩

/-- A call that has returned a pair of tokens has returned it for a stored account that both name:
for its password, at its registration, or for a refresh token that was signed before; and a
deactivated account gets one at its registration only. -/
theorem sessions_are_earned (turns : List (Turn κ AuthMoment AuthEnv)) (k : κ) (call : AuthCall)
    (access refresh : String) (view : Option UserView)
    (h : (run (authHttp sys requests).step (httpStart s) turns).calls k =
      .serving call (.returned (.tokens access refresh view))) :
    (requests k).Asks call ∧
      ∃ v ∈ (run (authHttp sys requests).step (httpStart s) turns).shared.users.items,
        Session sys (run (authHttp sys requests).step (httpStart s) turns).shared access refresh
            view v ∧
          Shows sys (run (authHttp sys requests).step (httpStart s) turns).shared v call ∧
          LetsIn v call := by
  have hserved := (sessionsFit_run sys requests s turns).2 k
  rwa [h] at hserved

end Runs

section Sample

def aliceLogsIn : Unit → AuthRequest := fun _ => .login "alice@x" "secret99"

def aliceLogsInTurns : List (Turn Unit AuthMoment AuthEnv) :=
  [.call () {}, .call () {}, .call () {},
    .call () { accessToken := "access2", refreshToken := "refresh2" }]

theorem sessions_are_earned_sample :
    AuthRequest.Asks (aliceLogsIn ()) (.login "alice@x" "secret99") ∧
      ∃ v ∈ (run (authHttp (AuthSystem.ofTable aliceTokens) aliceLogsIn).step
          (httpStart (aliceState [] none)) aliceLogsInTurns).shared.users.items,
        Session (AuthSystem.ofTable aliceTokens)
            (run (authHttp (AuthSystem.ofTable aliceTokens) aliceLogsIn).step
              (httpStart (aliceState [] none)) aliceLogsInTurns).shared "access2" "refresh2"
            (some alice.view) v ∧
          Shows (AuthSystem.ofTable aliceTokens)
            (run (authHttp (AuthSystem.ofTable aliceTokens) aliceLogsIn).step
              (httpStart (aliceState [] none)) aliceLogsInTurns).shared v
            (.login "alice@x" "secret99") ∧
          LetsIn v (.login "alice@x" "secret99") :=
  sessions_are_earned (AuthSystem.ofTable aliceTokens) aliceLogsIn (aliceState [] none)
    aliceLogsInTurns () (.login "alice@x" "secret99") "access2" "refresh2" (some alice.view) rfl

end Sample
end MsaTuto
