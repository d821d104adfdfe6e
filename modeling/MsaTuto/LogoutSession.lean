import MsaTuto.Blacklist
import MsaTuto.RefreshTokens

/-! The session after a logout: when the refresh token of the user stays gone. -/
namespace MsaTuto
open Runs AuthService

section Tokens
variable {sys : AuthSystem} {call : AuthCall} {m : AuthMoment} {s : AuthState} {userId : String}
  {user : User}

theorem validateRefreshToken_of_none (h : s.cache (refreshKey userId) = none) (now : Int)
    (token : String) : sys.validateRefreshToken s now userId token = false := by
  simp [AuthSystem.validateRefreshToken, KeyStore.get, h]

theorem validateRefreshToken_of_saves (call : AuthCall) (hlife : 0 < sys.refreshLifetime)
    (shown : Bool) (h : Saves sys m s userId user) :
    sys.validateRefreshToken (act sys call m (.signing userId user shown) s).2 s.now userId
      m.refreshToken = true := by
  obtain ⟨-, hsigned, hkey⟩ := act_saves call shown h
  obtain ⟨-, hne, hdecode⟩ := signsBoth_payloads h.2.1
  have hverify : sys.verify (act sys call m (.signing userId user shown) s).2.signed s.now
      m.refreshToken = some (refreshPayload sys userId s.now) := by
    have hlive : ¬s.now / 1000 + sys.refreshLifetime ≤ s.now / 1000 := by omega
    simp [AuthSystem.verify, hsigned, hdecode, refreshPayload, hlive]
  simp [AuthSystem.validateRefreshToken, hkey, CacheValue.text, hne, hverify, refreshPayload]

end Tokens

section Runs
variable {κ : Type*} (sys : AuthSystem) (userId : String) (k₀ : κ)

/-- Once logout `k₀` has returned, no token validates for the user. -/
def SessionEnded (w : World κ AuthState AuthPhase) : Prop :=
  w.calls k₀ = .returned .loggedOut →
    ∀ token now, sys.validateRefreshToken w.shared now userId token = false

/-- The user does not log in or register again after the logout has returned. -/
def NoNewLogin (w : World κ AuthState AuthPhase) : Turn κ AuthMoment AuthEnv → Prop
  | .call k m => ∀ user, w.calls k = .signing userId user true → Saves sys m w.shared userId user →
      w.calls k₀ ≠ .returned .loggedOut
  | .env _ => True

/-- No refresh call of the user saves its token after the logout has returned. -/
def SavesInTime (w : World κ AuthState AuthPhase) : Turn κ AuthMoment AuthEnv → Prop
  | .call k m => ∀ user, w.calls k = .signing userId user false →
      Saves sys m w.shared userId user → w.calls k₀ ≠ .returned .loggedOut
  | .env _ => True

/-- After the logout the user's key is gone, which is more than that no token validates. -/
def KeyGone (w : World κ AuthState AuthPhase) : Prop :=
  w.calls k₀ = .returned .loggedOut → w.shared.cache (refreshKey userId) = none

variable {sys userId k₀} {call : κ → AuthCall} {w : World κ AuthState AuthPhase}

theorem loggedOut_step {m : AuthMoment} {token : String} (hcall : call k₀ = .logout userId token)
    (hfit : LogoutFits sys (call k₀) (w.calls k₀) w.shared) (hgone : KeyGone userId k₀ w)
    (hret : (act sys (call k₀) m (w.calls k₀) w.shared).1 = .returned .loggedOut) :
    (act sys (call k₀) m (w.calls k₀) w.shared).2.cache (refreshKey userId) = none := by
  have hstep := act_step sys (call k₀) m (w.calls k₀) w.shared
  rw [hret] at hstep
  unfold KeyGone at hgone
  generalize (act sys (call k₀) m (w.calls k₀) w.shared).2 = s' at hstep
  generalize w.calls k₀ = l at hstep hfit hgone
  cases hstep with
  | stays => exact hgone rfl
  | removes u =>
    obtain ⟨token', hsame, -⟩ := hfit
    cases hcall.symm.trans hsame
    exact KeyStore.del_self _ _
  | logsIn user users hset l' hl' =>
    obtain hl' | ⟨f, hl'⟩ := hl'
    · cases hl'
    · cases hl'

variable [DecidableEq κ]

theorem keyGone_step {token : String} (hcall : call k₀ = .logout userId token)
    (hfit : LogoutFits sys (call k₀) (w.calls k₀) w.shared) (hgone : KeyGone userId k₀ w)
    {t : Turn κ AuthMoment AuthEnv} (hlogin : NoNewLogin sys userId k₀ w t)
    (hp : SavesInTime sys userId k₀ w t) :
    KeyGone userId k₀ ((authServer sys call).step w t) := by
  intro hret
  cases t with
  | env e =>
    have hnone := hgone hret
    cases e with
    | tick ms => exact hnone
    | dropKey key => exact KeyStore.drop_none _ _ _ _ hnone
  | call k m =>
    by_cases hk : k₀ = k
    · subst hk
      rw [step_call_self] at hret
      exact loggedOut_step hcall hfit hgone hret
    · rw [step_call_other _ _ hk] at hret
      obtain hkey | ⟨-, hkey⟩ | ⟨user, shown, hl, hsaves, -⟩ :=
        refreshKey_step (act_step sys (call k) m (w.calls k) w.shared) userId
      · exact hkey.trans (hgone hret)
      · exact hkey
      · cases shown with
        | true => exact absurd hret (hlogin user hl hsaves)
        | false => exact absurd hret (hp user hl hsaves)

theorem late_save_revives (hlife : 0 < sys.refreshLifetime) {t : Turn κ AuthMoment AuthEnv}
    (hnext : SessionEnded sys userId k₀ ((authServer sys call).step w t)) :
    SavesInTime sys userId k₀ w t := by
  cases t with
  | env e => trivial
  | call k m =>
    intro user hl hsaves hret
    have hne : k₀ ≠ k := by
      rintro rfl
      rw [hl] at hret
      cases hret
    have hfalse := hnext (by rw [step_call_other _ _ hne, hret]) m.refreshToken w.shared.now
    rw [step_call_shared, hl] at hfalse
    have htrue := validateRefreshToken_of_saves (call k) hlife false hsaves
    exact absurd (htrue.symm.trans hfalse) (by decide)

/-- A logout ends the session for good, whatever is interleaved with it, if no refresh call of
the user saves its new token after the logout has returned; and where refresh tokens are valid
for any time at all, only then. -/
theorem session_ended_iff {token : String} (hcall : call k₀ = .logout userId token)
    (s : AuthState) (turns : List (Turn κ AuthMoment AuthEnv))
    (hlogin : Along (authServer sys call).step (NoNewLogin sys userId k₀) (authStart s) turns) :
    (Along (authServer sys call).step (SavesInTime sys userId k₀) (authStart s) turns →
      Always (authServer sys call).step (SessionEnded sys userId k₀) (authStart s) turns) ∧
    (0 < sys.refreshLifetime →
      Always (authServer sys call).step (SessionEnded sys userId k₀) (authStart s) turns →
      Along (authServer sys call).step (SavesInTime sys userId k₀) (authStart s) turns) := by
  let I (w : World κ AuthState AuthPhase) : Prop :=
    Holds (fun _ => True) (fun k => LogoutFits sys (call k)) w ∧ KeyGone userId k₀ w
  have hstart : I (authStart s) := ⟨⟨trivial, fun _ => trivial⟩, fun hret => by cases hret⟩
  have hstep : ∀ w t, I w → NoNewLogin sys userId k₀ w t → SavesInTime sys userId k₀ w t →
      I ((authServer sys call).step w t) := by
    intro w t ⟨hw, hgone⟩ ho hp
    exact ⟨(logout_stable sys call).step hw trivial, keyGone_step hcall (hw.2 k₀) hgone ho hp⟩
  constructor
  · refine always_of_along ?_ hstep hstart hlogin
    intro w ⟨_, hgone⟩ hret tok now
    exact validateRefreshToken_of_none (hgone hret) now tok
  · intro hlife
    exact along_of_always hstep (fun w t _ _ hnext => late_save_revives hlife hnext) hstart hlogin

end Runs

section Sample

def sampleSession (refreshing : Bool) : AuthCall :=
  if refreshing then .refreshToken "u1" "refresh1" else .logout "u1" "access1"

theorem session_ended_in_sequence :
    Always (authServer (AuthSystem.ofTable aliceTokens) sampleSession).step
      (SessionEnded (AuthSystem.ofTable aliceTokens) "u1" false) (authStart aliceSession)
      [pairTurn true "", pairTurn true "", pairTurn true "2",
        pairTurn false "", pairTurn false "", pairTurn false ""] := by
  have hcall : sampleSession false = .logout "u1" "access1" := rfl
  refine (session_ended_iff hcall aliceSession _ ?_).1 ?_
  · refine ⟨?_, ?_, ?_, ?_, ?_, ?_, trivial⟩
    all_goals exact fun _ h => by cases h
  · refine ⟨?_, ?_, ?_, ?_, ?_, ?_, trivial⟩
    case refine_3 => exact fun _ _ _ h => by cases h
    all_goals exact fun _ h => by cases h

/-- The refresh has validated its token when the logout starts, and saves when it is over: the
session is back, with a token that validates. -/
theorem refresh_outlives_logout :
    Along (authServer (AuthSystem.ofTable aliceTokens) sampleSession).step
      (NoNewLogin (AuthSystem.ofTable aliceTokens) "u1" false) (authStart aliceSession)
      [pairTurn true "", pairTurn true "", pairTurn false "", pairTurn false "",
        pairTurn false "", pairTurn true "2"] ∧
    ¬Always (authServer (AuthSystem.ofTable aliceTokens) sampleSession).step
      (SessionEnded (AuthSystem.ofTable aliceTokens) "u1" false) (authStart aliceSession)
      [pairTurn true "", pairTurn true "", pairTurn false "", pairTurn false "",
        pairTurn false "", pairTurn true "2"] := by
  refine ⟨⟨?_, ?_, ?_, ?_, ?_, ?_, trivial⟩, fun h => ?_⟩
  case refine_7 => exact absurd (h.last rfl "refresh2" 0) (by decide)
  all_goals exact fun _ h => by cases h

end Sample
end MsaTuto
