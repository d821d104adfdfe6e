import MsaTuto.Blacklist
import MsaTuto.Revocation

/-! Logging out over HTTP: the token that the guard takes from the header, the one that the
`@AuthToken` decorator takes, and which of them is revoked. -/
namespace MsaTuto
open Runs AuthService

theorem mem_words_of_bearerToken {header token : String}
    (h : bearerToken (some header) = some token) : token.toList ∈ words header.toList := by
  cases hwords : words header.toList with
  | nil => simp [bearerToken, hwords] at h
  | cons scheme rest =>
    cases rest with
    | nil => simp [bearerToken, hwords] at h
    | cons value rest =>
      simp only [bearerToken, Option.map_some, hwords, Option.ite_none_right_eq_some] at h
      rw [← Option.some.inj h.2, String.toList_ofList]
      simp

/-- The two readings of a header agree exactly if it is `Bearer `, to the letter, and the token. -/
theorem authToken_eq_iff {header token : String} (h : bearerToken (some header) = some token) :
    authToken (some header) = token ↔ header = "Bearer " ++ token := by
  constructor
  · intro hsame
    refine header_of_clean h ?_
    rw [hsame]
    exact words_clean (mem_words_of_bearerToken h)
  · rintro rfl
    exact authToken_canonical token

/-- A request being served says of its logout what the call alone does, and the call is the one
the header comes to. -/
def HttpLogoutFits (sys : AuthSystem) (request : AuthRequest) (phase : HttpPhase)
    (s : AuthState) : Prop :=
  match phase with
  | .serving call l => LogoutFits sys call l s ∧ ∀ authorization, request = .logout authorization →
      ∃ userId, call = .logout userId (authToken authorization)
  | _ => True

/-- The request was served as a logout, and the client is told so. -/
def HttpPhase.loggedOut : HttpPhase → Prop
  | .serving _ (.returned .loggedOut) => True
  | _ => False

variable {sys : AuthSystem} {request : AuthRequest} {m : AuthMoment} {phase : HttpPhase}
  {s s' : AuthState}

theorem HttpLogoutFits.mono (h : HttpLogoutFits sys request phase s) (hnow : s.now ≤ s'.now)
    (hs : ∀ token, Spent sys s token → Spent sys s' token) :
    HttpLogoutFits sys request phase s' := by
  cases phase with
  | serving call l => exact ⟨h.1.mono hnow hs, h.2⟩
  | _ => trivial

theorem dispatch_fits {call : AuthCall} {fault : Bool}
    (h : AuthHttp.dispatch sys s fault request = .ok call) :
    HttpLogoutFits sys request (.serving call .started) s := by
  refine ⟨trivial, fun authorization hrequest => ?_⟩
  subst hrequest
  obtain ⟨user, -, hcall⟩ := AuthHttp.map_ok h
  exact ⟨AuthHttp.userIdOf user, hcall.symm⟩

/-- One turn of a request: what it leaves of the shared state that logouts rest on, and what its
own phase says after it. -/
theorem http_act_fits (request : AuthRequest) (m : AuthMoment)
    (h : HttpLogoutFits sys request phase s) :
    HttpLogoutFits sys request (AuthHttp.act sys request m phase s).1
        (AuthHttp.act sys request m phase s).2 ∧
      s.now ≤ (AuthHttp.act sys request m phase s).2.now ∧
      ∀ token, Spent sys s token → Spent sys (AuthHttp.act sys request m phase s).2 token := by
  cases phase with
  | arrived =>
    cases hdispatch : AuthHttp.dispatch sys s m.fault request with
    | ok call =>
      simp only [AuthHttp.act, hdispatch]
      exact ⟨dispatch_fits hdispatch, Int.le_refl _, fun _ => id⟩
    | error cls =>
      simp only [AuthHttp.act, hdispatch]
      exact ⟨trivial, Int.le_refl _, fun _ => id⟩
  | serving call l =>
    have hstep := act_step sys call m l s
    exact ⟨⟨logoutFits_step hstep h.1, h.2⟩, Int.le_of_eq (step_now hstep).symm,
      fun _ => spent_step hstep h.1⟩
  | refused cls => exact ⟨trivial, Int.le_refl _, fun _ => id⟩

theorem http_act_signedExpire (request : AuthRequest) (m : AuthMoment) (phase : HttpPhase)
    (hs : SignedExpire sys s) : SignedExpire sys (AuthHttp.act sys request m phase s).2 := by
  cases phase with
  | arrived =>
    cases hdispatch : AuthHttp.dispatch sys s m.fault request with
    | ok call => simpa only [AuthHttp.act, hdispatch] using hs
    | error cls => simpa only [AuthHttp.act, hdispatch] using hs
  | serving call l => exact signedExpire_step (act_step sys call m l s) hs
  | refused cls => exact hs

section Runs
variable {κ : Type*} (sys) (request : κ → AuthRequest)

theorem http_logout_stable : Stable (authHttp sys request) (fun _ _ => True) (SignedExpire sys)
    (fun k => HttpLogoutFits sys (request k)) where
  own w k m _ hs hl := ⟨http_act_signedExpire (request k) m (w.calls k) hs,
    (http_act_fits (request k) m hl).1⟩
  other w k m k' _ _ hl _ hl' := by
    obtain ⟨-, hnow, hspent⟩ := http_act_fits (request k) m hl
    exact hl'.mono hnow hspent
  env w e _ hs := by
    refine ⟨fun t ht => hs t (by rwa [authHttp, env_signed] at ht), fun k hl => ?_⟩
    exact hl.mono (env_now_le e w.shared) fun _ => spent_env e

variable {sys request} [DecidableEq κ]

variable (sys request) in
theorem loggedOut_run {w : World κ AuthState HttpPhase} {k : κ}
    (h : (w.calls k).loggedOut) (turns : List (Turn κ AuthMoment AuthEnv)) :
    ((run (authHttp sys request).step w turns).calls k).loggedOut := by
  refine run_invariant (I := fun w : World κ AuthState HttpPhase => (w.calls k).loggedOut)
    (fun w t hw => ?_) h turns
  cases t with
  | env e => exact hw
  | call k' m =>
    by_cases hk : k = k'
    · subst hk
      rw [step_call_self]
      cases hphase : w.calls k with
      | serving call l =>
        rw [hphase] at hw
        cases l with
        | returned result =>
          have hends : (AuthHttp.act sys (request k) m (.serving call (.returned result))
              w.shared).1 = .serving call (.returned result) := by
            cases hf : m.fault <;> simp [AuthHttp.act, act, hf, proceed, failing]
          simp only [authHttp, hends]
          exact hw
        | _ => exact hw.elim
      | arrived =>
        rw [hphase] at hw
        exact hw.elim
      | refused cls =>
        rw [hphase] at hw
        exact hw.elim
    · rw [step_call_other _ _ hk]
      exact hw

/-- Logging out with the header revokes the token that the guard reads from it: the decorator reads
the same one, and once the client is told, no state that follows accepts it at any later time. -/
structure LogoutRevokes (sys : AuthSystem) (request : κ → AuthRequest) (s : AuthState) (k : κ)
    (header token : String) : Prop where
  extracted : authToken (some header) = token
  revoked : ∀ us vs : List (Turn κ AuthMoment AuthEnv),
    ((run (authHttp sys request).step (httpStart s) us).calls k).loggedOut →
    ∀ t, (run (authHttp sys request).step (httpStart s) (us ++ vs)).shared.now ≤ t →
      sys.validateJwtToken (run (authHttp sys request).step (httpStart s) (us ++ vs)).shared t
        token = none

theorem spent_of_loggedOut {s : AuthState} (hs : SignedExpire sys s) {k : κ} {header : String}
    (hrequest : request k = .logout (some header)) (turns : List (Turn κ AuthMoment AuthEnv))
    (hret : ((run (authHttp sys request).step (httpStart s) turns).calls k).loggedOut) :
    SignedExpire sys (run (authHttp sys request).step (httpStart s) turns).shared ∧
      Spent sys (run (authHttp sys request).step (httpStart s) turns).shared
        (authToken (some header)) := by
  have hstart : Holds (SignedExpire sys) (fun k => HttpLogoutFits sys (request k))
      (httpStart (κ := κ) s) := ⟨hs, fun _ => trivial⟩
  obtain ⟨hexpire, hfits⟩ := ((http_logout_stable sys request).always hstart
    (along_of_forall (fun _ _ => trivial) _ turns)).last
  refine ⟨hexpire, ?_⟩
  have hfit := hfits k
  generalize (run (authHttp sys request).step (httpStart s) turns).calls k = phase at hret hfit
  cases phase with
  | serving call l =>
    cases l with
    | returned result =>
      cases result with
      | loggedOut =>
        obtain ⟨⟨userId, token, hcall, hspent⟩, hheader⟩ := hfit
        obtain ⟨userId', hcall'⟩ := hheader _ hrequest
        rw [hcall] at hcall'
        cases hcall'
        exact hspent
      | _ => exact hret.elim
    | _ => exact hret.elim
  | _ => exact hret.elim

/-- Logging out revokes the token that authenticated the request exactly if the header is `Bearer `,
to the letter, and the token. -/
theorem logout_revokes_iff {s : AuthState} (hs : SignedExpire sys s) {k : κ}
    {header token : String} (hrequest : request k = .logout (some header))
    (htoken : bearerToken (some header) = some token) :
    LogoutRevokes sys request s k header token ↔ header = "Bearer " ++ token := by
  rw [← authToken_eq_iff htoken]
  refine ⟨fun h => h.extracted, fun hsame => ⟨hsame, ?_⟩⟩
  intro us vs hret t ht
  have hlast := loggedOut_run sys request hret vs
  rw [← run_append] at hlast
  obtain ⟨hexpire, hspent⟩ := spent_of_loggedOut hs hrequest (us ++ vs) hlast
  rw [hsame] at hspent
  exact hspent.rejected hexpire ht

/-- Under any other header the request is served, the client is told of a logout, and the token is
as good as before: what the decorator reads is no token, and nothing is revoked. -/
theorem token_survives_logout (hsys : TokensUnbroken sys) {s : AuthState} {k : κ}
    {header token : String} {user : JwtUserDto} (hrequest : request k = .logout (some header))
    (htoken : bearerToken (some header) = some token)
    (hauth : authenticate sys .auth s s.now token = some user)
    (hother : header ≠ "Bearer " ++ token) :
    let w := run (authHttp sys request).step (httpStart s) [.call k {}, .call k {}, .call k {}]
    (w.calls k).loggedOut ∧
      ∀ t, sys.validateJwtToken w.shared t token = sys.validateJwtToken s t token := by
  have hexpiry : sys.expiry (authToken (some header)) = none := by
    obtain hsame | hwhite := authToken_of_bearerToken htoken
    · exact absurd ((authToken_eq_iff htoken).mp hsame) hother
    · rw [AuthSystem.expiry, hsys _ hwhite]
      rfl
  have hdispatch : AuthHttp.dispatch sys s false (.logout (some header)) =
      .ok (.logout (AuthHttp.userIdOf user) (authToken (some header))) := by
    simp [AuthHttp.dispatch, AuthHttp.guards, AuthHttp.jwtAuthGuard, htoken, hauth,
      AuthHttp.rolesGuard, Except.map]
  have hstart : start sys s (.logout (AuthHttp.userIdOf user) (authToken (some header))) =
      .removing (AuthHttp.userIdOf user) := by
    simp [start, timeLeft, hexpiry]
  have hrun : run (authHttp sys request).step (httpStart s)
      [.call k {}, .call k {}, .call k {}] =
      ⟨{ s with cache := KeyStore.del s.cache (refreshKey (AuthHttp.userIdOf user)) },
        Function.update (fun _ => .arrived) k
          (.serving (.logout (AuthHttp.userIdOf user) (authToken (some header)))
            (.returned .loggedOut))⟩ := by
    simp [run, Pool.step, authHttp, httpStart, hrequest, AuthHttp.act, hdispatch, act, proceed,
      hstart]
  intro w
  have hw : w = _ := hrun
  rw [hw]
  refine ⟨by simp [HttpPhase.loggedOut], fun t => ?_⟩
  have hkey := KeyStore.del_other s.cache
    (refreshKey_ne_blacklistKey (AuthHttp.userIdOf user) token).symm
  simp [AuthSystem.validateJwtToken, KeyStore.get, hkey]

end Runs

section Sample

def aliceLogsOut (header : String) : Unit → AuthRequest := fun _ => .logout (some header)

def aliceTwoTokens : AuthState := aliceState ["access1", "refresh1"] (some "refresh1")

theorem alice_signedExpire : SignedExpire (AuthSystem.ofTable aliceTokens) aliceTwoTokens := by
  unfold SignedExpire
  decide

theorem logout_revokes_canonical :
    LogoutRevokes (AuthSystem.ofTable aliceTokens) (aliceLogsOut "Bearer access1") aliceTwoTokens ()
      "Bearer access1" "access1" :=
  (logout_revokes_iff (κ := Unit) alice_signedExpire (k := ()) rfl (by decide)).mpr (by decide)

/-- Logged out with `bearer access1`, Alice's token is accepted as before. -/
theorem lower_case_logout_revokes_nothing :
    ((AuthSystem.ofTable aliceTokens).validateJwtToken
      (run (authHttp (AuthSystem.ofTable aliceTokens) (aliceLogsOut "bearer access1")).step
        (httpStart aliceTwoTokens) [.call () {}, .call () {}, .call () {}]).shared 0
      "access1").isSome = true ∧
    ¬∀ (header token : String) (user : JwtUserDto), bearerToken (some header) = some token →
      authenticate (AuthSystem.ofTable aliceTokens) .auth aliceTwoTokens aliceTwoTokens.now token =
        some user →
      LogoutRevokes (AuthSystem.ofTable aliceTokens) (aliceLogsOut header) aliceTwoTokens () header
        token := by
  have hvalid : ((AuthSystem.ofTable aliceTokens).validateJwtToken aliceTwoTokens 0
      "access1").isSome = true := by decide
  have hauth : authenticate (AuthSystem.ofTable aliceTokens) .auth aliceTwoTokens
      aliceTwoTokens.now "access1" = some ⟨some "u1", some "alice@x", some [.USER]⟩ := by decide
  have hrequest : aliceLogsOut "bearer access1" () = .logout (some "bearer access1") := rfl
  obtain ⟨hout, hsame⟩ :=
    token_survives_logout ofTable_unbroken hrequest (by decide) hauth (by decide)
  have haccepted := (congrArg Option.isSome (hsame 0)).trans hvalid
  refine ⟨haccepted, fun h => ?_⟩
  have hrevoked := (h "bearer access1" "access1" _ (by decide) hauth).revoked
    [.call () {}, .call () {}, .call () {}] [] hout 0 (by decide)
  rw [List.append_nil] at hrevoked
  rw [hrevoked] at haccepted
  cases haccepted

end Sample
end MsaTuto
