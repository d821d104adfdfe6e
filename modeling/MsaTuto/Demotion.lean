import MsaTuto.Accounts
import MsaTuto.Gateway

/-! What taking a role away comes to. No server asks the store which roles a caller has: the tokens
that were signed before go on claiming the role, and it takes their lifetime until none does. -/
namespace MsaTuto
open Runs AuthService

/-- Every user may have any role, but for this one. -/
def Without (uid : String) (role : Role) (uid' : String) (role' : Role) : Prop :=
  ¬(uid' = uid ∧ role' = role)

/-- A token that claims roles expires within its lifetime. -/
def ShortLived (sys : AuthSystem) (s : AuthState) : Prop :=
  ∀ t ∈ s.signed, ∀ p roles, sys.decode t = some p → p.roles = some roles →
    ∃ exp, p.exp = some exp ∧ exp ≤ s.now / 1000 + sys.accessLifetime

/-- A call under way is about to sign or store the role for the user. -/
def HoldsRole (uid : String) (role : Role) : AuthPhase → Prop
  | .savingLogin user => user.id = uid ∧ some role ∈ user.roles
  | .signing _ user _ => user.id = uid ∧ some role ∈ user.roles
  | .pushing user _ role' => user.id = uid ∧ role' = role
  | .setting user _ roles => user.id = uid ∧ some role ∈ roles
  | _ => False

/-- The request is one to give the user the role. -/
def Promotes (sys : AuthSystem) (uid : String) (role : Role) : AuthRequest → Prop
  | .addRole _ id role' => sys.objectId id = some uid ∧ role' = role
  | _ => False

/-- The turn is one of a request to give the user the role. -/
def GivesBack {κ : Type*} (sys : AuthSystem) (requests : κ → AuthRequest) (uid : String)
    (role : Role) : Turn κ AuthMoment AuthEnv → Prop
  | .call k _ => Promotes sys uid role (requests k)
  | .env _ => False

section Claims
variable {sys : AuthSystem} {s s' : AuthState}

theorem shortLived_step {call : AuthCall} {m : AuthMoment} {l l' : AuthPhase}
    (h : Step sys call m s l l' s') (hs : ShortLived sys s) : ShortLived sys s' := by
  cases h with
  | saves userId user shown hf hsigns cache hsave =>
    obtain ⟨haccess, -, hrefresh⟩ := signsBoth_payloads hsigns
    intro t ht p roles hdecode hroles
    obtain rfl | ht := List.mem_cons.mp ht
    · rw [hrefresh] at hdecode
      cases hdecode
      cases hroles
    · obtain rfl | ht := List.mem_cons.mp ht
      · rw [haccess] at hdecode
        cases hdecode
        exact ⟨_, rfl, Int.le_refl _⟩
      · exact hs t ht p roles hdecode hroles
  | _ => exact hs

theorem shortLived_env (e : AuthEnv) (hs : ShortLived sys s) : ShortLived sys (e.act s) := by
  cases e with
  | tick ms =>
    intro t ht p roles hdecode hroles
    obtain ⟨exp, hexp, hle⟩ := hs t ht p roles hdecode hroles
    refine ⟨exp, hexp, ?_⟩
    simp only [AuthEnv.act]
    omega
  | dropKey key => exact hs

theorem shortLived_invariant (sys : AuthSystem) :
    ServiceInvariant sys (fun _ => True) (ShortLived sys) fun _ _ _ => True where
  starts _ _ _ := trivial
  own call m l s _ hs _ := ⟨shortLived_step (act_step sys call m l s) hs, trivial⟩
  other _ _ _ _ _ _ _ _ _ _ := trivial
  env e _ hs := ⟨shortLived_env e hs, fun _ _ _ => trivial⟩

/-- What a caller may do is what the token claims, to whichever server. -/
theorem claims_of_authenticate {server : Server} {t : Int} {token : String} {user : JwtUserDto}
    (h : authenticate sys server s t token = some user) :
    ∃ p, sys.verify s.signed t token = some p ∧ user.userId = p.sub ∧
      userRoles (some user) = p.roles.getD [] := by
  cases server with
  | auth =>
    obtain ⟨p, hverify, rfl⟩ := verified_of_authenticate h
    exact ⟨p, hverify, rfl, rfl⟩
  | gateway =>
    rw [authenticate_gateway] at h
    obtain ⟨p, hverify, rfl⟩ := Option.map_eq_some_iff.mp h
    exact ⟨p, hverify, rfl, rfl⟩
  | gameEvent =>
    rw [authenticate_gameEvent] at h
    obtain ⟨p, hverify, rfl⟩ := Option.map_eq_some_iff.mp h
    exact ⟨p, hverify, rfl, rfl⟩

end Claims

section Demoted
variable {sys : AuthSystem} {uid : String} {role : Role} {before : List String}

theorem addsWithin_of_asks {request : AuthRequest} {call : AuthCall} (h : request.Asks call)
    (hno : ¬Promotes sys uid role request) : AddsWithin (Without uid role) sys call := by
  rintro userId role' uid' rfl hid ⟨rfl, rfl⟩
  obtain ⟨authorization, rfl⟩ := asks_addRole h
  exact hno ⟨hid, rfl⟩

/-- Registering takes no id that is in use. -/
theorem without_of_insert {user : User} {users users' : UserCollection}
    (hstored : ∃ v ∈ users.items, v.id = uid) (h : users.insert user = .ok users') :
    RolesWithin (Without uid role) user.id user.roles := by
  obtain ⟨v, hv, rfl⟩ := hstored
  rintro role' - ⟨hid, -⟩
  exact (UserCollection.distinct_of_insert h v hv).1 hid.symm

/-- The account is stored without the role, and nothing that was not signed `before` claims it. -/
structure Demoted (sys : AuthSystem) (uid : String) (role : Role) (before : List String)
    (s : AuthState) : Prop where
  stored : ∃ v ∈ s.users.items, v.id = uid
  within : Within (Without uid role) sys before s

variable (sys uid role before) in
theorem demoted_invariant :
    ServiceInvariant sys (AddsWithin (Without uid role) sys) (Demoted sys uid role before)
      fun _ l _ => PhaseWithin (Without uid role) sys l where
  starts _ _ _ := trivial
  own call m l s hcall hs hl := by
    obtain ⟨v, hv, hid⟩ := hs.stored
    obtain ⟨v', hv', hsame⟩ := (accounts_step (act_step sys call m l s)).1 v hv
    obtain ⟨hwithin, hphase⟩ := within_act (m := m)
      (fun _ _ _ _ _ => without_of_insert hs.stored) hs.within hcall hl
    exact ⟨⟨⟨v', hv', hsame.id.trans hid⟩, hwithin⟩, hphase⟩
  other _ _ _ _ _ _ _ _ _ hl' := hl'
  env e s hs := by
    refine ⟨⟨?_, ?_⟩, fun _ _ hl => hl⟩
    · cases e <;> exact hs.stored
    · cases e with
      | tick ms => exact ⟨hs.within.users, hs.within.tokens⟩
      | dropKey key => exact hs.within.of_cache

/-- Nothing that a call under way holds of the user has the role. -/
theorem phaseWithin_of_not_holdsRole {s : AuthState} {call : AuthCall} {l : AuthPhase}
    (hfits : SessionFits sys call l s) (h : ¬HoldsRole uid role l) :
    PhaseWithin (Without uid role) sys l := by
  cases l with
  | savingLogin user =>
    rintro role' hrole ⟨hid, rfl⟩
    exact h ⟨hid, hrole⟩
  | signing userId user shown =>
    refine ⟨hfits.1, ?_⟩
    rintro role' hrole ⟨hid, rfl⟩
    exact h ⟨hid, hrole⟩
  | pushing user userId role' => exact h
  | setting user userId roles =>
    rintro role' hrole ⟨hid, rfl⟩
    exact h ⟨hid, hrole⟩
  | _ => trivial

theorem demoted_of_lacks {s : AuthState} {v : User} (hv : v ∈ s.users.items) (hid : v.id = uid)
    (hrole : some role ∉ v.roles) : Demoted sys uid role s.signed s := by
  refine ⟨⟨v, hv, hid⟩, ⟨?_, fun t ht hnew => absurd ht hnew⟩⟩
  rintro u hu role' hmem ⟨huid, rfl⟩
  rw [UserCollection.eq_of_id hu hv (huid.trans hid.symm)] at hmem
  exact hrole hmem

/-- Of the tokens that were signed before, those that claim a role are dead by then, and no other
token claims this role for the user. -/
theorem claims_of_demoted {p : JwtPayload} {token : String} {t : Int} {s s' : AuthState}
    (h : Demoted sys uid role s.signed s') (hshort : ShortLived sys s)
    (hid : sys.objectId uid = some uid) (hlate : s.now + sys.accessLifetime * 1000 ≤ t)
    (hverify : sys.verify s'.signed t token = some p) (hsub : p.sub = some uid) :
    role ∉ p.roles.getD [] := by
  intro hrole
  obtain ⟨hsigned, hdecode, hlive⟩ := AuthSystem.verify_eq_some.mp hverify
  cases hroles : p.roles with
  | none =>
    rw [hroles] at hrole
    cases hrole
  | some roles =>
    rw [hroles] at hrole
    by_cases hold : token ∈ s.signed
    · obtain ⟨exp, hexp, hle⟩ := hshort token hold p roles hdecode hroles
      have hlt := hlive exp hexp
      omega
    · obtain ⟨sub, uid', hsub', hnames, hwithin⟩ :=
        h.within.tokens token hsigned hold p roles hdecode hroles
      cases hsub.symm.trans hsub'
      have huid : uid' = uid := by
        obtain rfl | hcast := hnames
        · rfl
        · exact Option.some.inj (hcast.symm.trans hid)
      exact hwithin role hrole ⟨huid, rfl⟩

end Demoted

section Run
variable {κ : Type*} {uid : String} {role : Role}

theorem demoted_start {sys : AuthSystem} {requests : κ → AuthRequest}
    {w : World κ AuthState HttpPhase} (hsessions : SessionsFit sys requests w)
    (hstored : ∃ v ∈ w.shared.users.items, v.id = uid ∧ some role ∉ v.roles)
    (hcalls : ∀ k call l, w.calls k = .serving call l → ¬HoldsRole uid role l) :
    Runs.Holds (Demoted sys uid role w.shared.signed)
      (fun k => Served (fun _ l _ => PhaseWithin (Without uid role) sys l) (requests k)) w := by
  obtain ⟨v, hv, hvid, hrole⟩ := hstored
  refine ⟨demoted_of_lacks hv hvid hrole, fun k => ?_⟩
  have hserved := hsessions.2 k
  cases hl : w.calls k with
  | serving call l =>
    rw [hl] at hserved
    exact ⟨hserved.1, phaseWithin_of_not_holdsRole hserved.2 (hcalls k call l hl)⟩
  | _ => trivial

theorem asksOnly_of_rest {sys : AuthSystem} {requests : κ → AuthRequest}
    {t : Turn κ AuthMoment AuthEnv} (ht : ¬GivesBack sys requests uid role t) :
    AsksOnly (AddsWithin (Without uid role) sys) requests t := by
  cases t with
  | call k m => exact fun call hcall => addsWithin_of_asks hcall ht
  | env e => trivial

variable [DecidableEq κ]

/-- Once an account is stored without a role, no call under way carries the role for it, and nobody
gives it back, the account stays without it; and after the lifetime of an access token no server
takes anybody for a caller of that account with the role, whatever token is shown. -/
theorem demotion_takes_effect (sys : AuthSystem) (requests : κ → AuthRequest) (s₀ : AuthState)
    (past rest : List (Turn κ AuthMoment AuthEnv)) (hshort : ShortLived sys s₀)
    (hid : sys.objectId uid = some uid)
    (hstored : ∃ v ∈ (run (authHttp sys requests).step (httpStart s₀) past).shared.users.items,
      v.id = uid ∧ some role ∉ v.roles)
    (hcalls : ∀ k call l, (run (authHttp sys requests).step (httpStart s₀) past).calls k =
      .serving call l → ¬HoldsRole uid role l)
    (hrest : ∀ t ∈ rest, ¬GivesBack sys requests uid role t) :
    (∃ v ∈ (run (authHttp sys requests).step (httpStart s₀) (past ++ rest)).shared.users.items,
      v.id = uid ∧ some role ∉ v.roles) ∧
    ((run (authHttp sys requests).step (httpStart s₀) past).shared.now +
          sys.accessLifetime * 1000 ≤
        (run (authHttp sys requests).step (httpStart s₀) (past ++ rest)).shared.now →
      ∀ server token user, authenticate sys server
          (run (authHttp sys requests).step (httpStart s₀) (past ++ rest)).shared
          (run (authHttp sys requests).step (httpStart s₀) (past ++ rest)).shared.now token =
            some user →
        user.userId = some uid → role ∉ userRoles (some user)) := by
  have hstart := demoted_start (sessionsFit_run sys requests s₀ past) hstored hcalls
  have hmid := ((shortLived_invariant sys).reached requests hshort past).1
  rw [run_append]
  generalize run (authHttp sys requests).step (httpStart s₀) past = w at *
  have hend := (((demoted_invariant sys uid role w.shared.signed).stable requests).always hstart
    (along_of_mem (fun t ht => asksOnly_of_rest (hrest t ht)) w)).last.1
  constructor
  · obtain ⟨v, hv, hid⟩ := hend.stored
    exact ⟨v, hv, hid, fun hrole => hend.within.users v hv role hrole ⟨hid, rfl⟩⟩
  · intro hlate server token user hauth huser
    obtain ⟨p, hverify, hsub, hroles⟩ := claims_of_authenticate hauth
    rw [hroles]
    exact claims_of_demoted hend hmid hid hlate hverify (hsub.symm.trans huser)

end Run

section Sample

def demotionSystem : AuthSystem := AuthSystem.ofTable
  [("admin", ⟨some "u0", some "root@x", some [.ADMIN], some 3600⟩),
    ("before", ⟨some "u1", some "alice@x", some [.USER, .OPERATOR], some 3600⟩),
    ("after", ⟨some "u1", some "alice@x", some [.USER], some 7200⟩),
    ("refresh", ⟨some "u1", none, none, some 608400⟩)]

/-- Alice is an operator, and so her token says. -/
def operatorState : AuthState :=
  { aliceState ["before", "admin"] none with
    users := ⟨[{ alice with roles := [some .USER, some .OPERATOR] }], List.pairwise_singleton _ _⟩ }

def demotionRequests : Bool → AuthRequest
  | true => .removeRole (some "Bearer admin") "u1" "OPERATOR"
  | false => .login "alice@x" "secret99"

def demotesAlice : List (Turn Bool AuthMoment AuthEnv) := List.replicate 5 (.call true {})

/-- An hour passes, and she logs in again. -/
def returnsLater : List (Turn Bool AuthMoment AuthEnv) :=
  [.env (.tick 3600000), .call false {}, .call false {}, .call false {},
    .call false { accessToken := "after", refreshToken := "refresh" }]

def demoted (turns : List (Turn Bool AuthMoment AuthEnv)) : World Bool AuthState HttpPhase :=
  run (authHttp demotionSystem demotionRequests).step (httpStart operatorState) turns

theorem operatorState_shortLived : ShortLived demotionSystem operatorState := by
  intro t ht p roles hdecode hroles
  obtain rfl | ht := List.mem_cons.mp ht
  · cases hdecode
    exact ⟨3600, rfl, by decide⟩
  · obtain rfl := List.mem_singleton.mp ht
    cases hdecode
    exact ⟨3600, rfl, by decide⟩

theorem demotesAlice_over : ∀ k call l,
    (demoted demotesAlice).calls k = .serving call l → ¬HoldsRole "u1" .OPERATOR l := by
  intro k call l hl
  cases k with
  | true =>
    cases hl
    exact id
  | false => cases hl

/-- Right after the demotion the old token still makes her an operator; an hour later no token
does. -/
theorem demotion_takes_effect_sample :
    authenticate demotionSystem .gateway (demoted demotesAlice).shared
        (demoted demotesAlice).shared.now "before" =
      some ⟨some "u1", some "alice@x", some [.USER, .OPERATOR]⟩ ∧
    (authenticate demotionSystem .gateway (demoted (demotesAlice ++ returnsLater)).shared
        (demoted (demotesAlice ++ returnsLater)).shared.now "after").isSome ∧
    ∀ server token user, authenticate demotionSystem server
        (demoted (demotesAlice ++ returnsLater)).shared
        (demoted (demotesAlice ++ returnsLater)).shared.now token = some user →
      user.userId = some "u1" → Role.OPERATOR ∉ userRoles (some user) := by
  refine ⟨rfl, by decide, ?_⟩
  exact (demotion_takes_effect demotionSystem demotionRequests operatorState demotesAlice
    returnsLater operatorState_shortLived rfl
    ⟨{ alice with roles := [some .USER], version := 1 }, List.mem_singleton_self _, rfl, by decide⟩
    demotesAlice_over (by simp [returnsLater, GivesBack, Promotes, demotionRequests])).2 (by decide)

end Sample
end MsaTuto
