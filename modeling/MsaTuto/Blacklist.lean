import MsaTuto.AuthServer

/-! The blacklist of logged-out access tokens: its entries outlive the tokens, and no
other operation reaches them. -/
namespace MsaTuto
open Runs AuthService

/-- The token has expired, or its blacklist entry stays until it has. -/
def Spent (sys : AuthSystem) (s : AuthState) (token : String) : Prop :=
  ∀ exp, sys.expiry token = some exp →
    exp * 1000 ≤ s.now ∨ KeyStore.Lasts s.cache (blacklistKey token) (exp * 1000)

/-- What the phase of a logout says about its token. -/
def LogoutFits (sys : AuthSystem) (call : AuthCall) (l : AuthPhase) (s : AuthState) : Prop :=
  match l with
  | .blacklisting userId token ttl => call = .logout userId token ∧
      ∀ exp, sys.expiry token = some exp → exp * 1000 ≤ s.now + ttl * 1000
  | .removing userId => ∃ token, call = .logout userId token ∧ Spent sys s token
  | .returned .loggedOut => ∃ userId token, call = .logout userId token ∧ Spent sys s token
  | _ => True

variable {sys : AuthSystem} {call : AuthCall} {m : AuthMoment} {l l' : AuthPhase}
  {s s' : AuthState} {token : String}

theorem le_ceilSeconds (ms : Int) : ms ≤ ceilSeconds ms * 1000 := by
  unfold ceilSeconds
  omega

theorem Spent.congr (h : Spent sys s token) (hnow : s.now ≤ s'.now)
    (hkey : s'.cache (blacklistKey token) = s.cache (blacklistKey token)) :
    Spent sys s' token := by
  intro exp hexp
  obtain hdead | hlast := h exp hexp
  · exact .inl (by omega)
  · exact .inr (hlast.congr hkey)

theorem spent_of_cacheSet {v : CacheValue} {ttl : Int} {cache : KeyStore.Store CacheValue}
    (hset : cacheSet s.cache (blacklistKey token) v ttl s.now = .ok cache)
    (hcover : ∀ exp, sys.expiry token = some exp → exp * 1000 ≤ s.now + ttl * 1000) :
    Spent sys { s with cache := cache } token := by
  intro exp hexp
  obtain ⟨-, hcache⟩ := cacheSet_ok hset
  have hlasts : KeyStore.Lasts cache (blacklistKey token) (exp * 1000) := by
    rw [hcache]
    refine KeyStore.lasts_set _ _ _ fun n hn => ?_
    have hle := hcover exp hexp
    split at hn
    · cases hn
    · cases hn
      exact hle
  exact .inr hlasts

theorem spent_step (h : Step sys call m s l l' s') (hl : LogoutFits sys call l s)
    (hs : Spent sys s token) : Spent sys s' token := by
  cases h with
  | saves userId user shown hf hsigns cache hsave =>
    obtain ⟨ttl, hcache⟩ := saveRefreshToken_ok hsave
    have hkey := KeyStore.set_other hcache (refreshKey_ne_blacklistKey userId token).symm
    exact hs.congr (Int.le_refl _) hkey
  | blacklists userId token' ttl cache hset =>
    by_cases ht : token = token'
    · subst ht
      exact spent_of_cacheSet hset hl.2
    · have hkey := KeyStore.set_other (cacheSet_ok hset).2 (mt blacklistKey_inj.mp ht)
      exact hs.congr (Int.le_refl _) hkey
  | removes userId =>
    have hkey := KeyStore.del_other s.cache (refreshKey_ne_blacklistKey userId token).symm
    exact hs.congr (Int.le_refl _) hkey
  | clearsId user userId =>
    have hkey := KeyStore.del_other s.cache (userIdKey_ne_blacklistKey userId token).symm
    exact hs.congr (Int.le_refl _) hkey
  | clearsEmail user =>
    have hkey := KeyStore.del_other s.cache (userEmailKey_ne_blacklistKey user.email token).symm
    exact hs.congr (Int.le_refl _) hkey
  | _ => exact hs

theorem env_now_le (e : AuthEnv) (s : AuthState) : s.now ≤ (e.act s).now := by
  cases e with
  | tick ms =>
    change s.now ≤ s.now + ms
    omega
  | dropKey key => exact Int.le_refl _

theorem spent_env (e : AuthEnv) (hs : Spent sys s token) : Spent sys (e.act s) token := by
  intro exp hexp
  cases e with
  | tick ms =>
    obtain hdead | hlast := hs exp hexp
    · exact .inl (by change exp * 1000 ≤ s.now + ms; omega)
    · exact .inr hlast
  | dropKey key =>
    obtain hdead | hlast := hs exp hexp
    · exact .inl hdead
    · by_cases hnow : exp * 1000 ≤ s.now
      · exact .inl hnow
      · exact .inr (hlast.drop (by omega) key)

theorem logoutFits_step (h : Step sys call m s l l' s') (hl : LogoutFits sys call l s) :
    LogoutFits sys call l' s' := by
  have hspent : ∀ token, Spent sys s token → Spent sys s' token := fun _ => spent_step h hl
  cases h with
  | stays => exact hl
  | outlives userId token exp hcall hexp hlive =>
    refine ⟨hcall, fun exp' hexp' => ?_⟩
    have heq : exp = exp' := Option.some.inj (hexp.symm.trans hexp')
    have hceil := le_ceilSeconds (exp * 1000 - s.now)
    rw [← heq]
    omega
  | skips userId token hcall hexp => exact ⟨token, hcall, fun exp he => .inl (hexp exp he)⟩
  | blacklists userId token ttl cache hset => exact ⟨token, hl.1, spent_of_cacheSet hset hl.2⟩
  | removes userId =>
    obtain ⟨token, hcall, hs⟩ := hl
    exact ⟨userId, token, hcall, hspent token hs⟩
  | logsIn user users hset l' hl' =>
    obtain rfl | ⟨f, rfl⟩ := hl'
    · trivial
    · trivial
  | _ => trivial

theorem LogoutFits.mono (hl : LogoutFits sys call l s) (hnow : s.now ≤ s'.now)
    (hs : ∀ token, Spent sys s token → Spent sys s' token) : LogoutFits sys call l s' := by
  cases l with
  | blacklisting userId token ttl =>
    refine ⟨hl.1, fun exp hexp => ?_⟩
    have := hl.2 exp hexp
    omega
  | removing userId =>
    obtain ⟨token, hcall, hspent⟩ := hl
    exact ⟨token, hcall, hs token hspent⟩
  | returned result =>
    cases result with
    | loggedOut =>
      obtain ⟨userId, token, hcall, hspent⟩ := hl
      exact ⟨userId, token, hcall, hs token hspent⟩
    | _ => trivial
  | _ => trivial

/-- Every token signed so far says when it expires, as signing sees to. -/
def SignedExpire (sys : AuthSystem) (s : AuthState) : Prop :=
  ∀ t ∈ s.signed, (sys.expiry t).isSome

theorem signedExpire_step (h : Step sys call m s l l' s') (hs : SignedExpire sys s) :
    SignedExpire sys s' := by
  cases h with
  | saves userId user shown hf hsigns cache hsave =>
    obtain ⟨haccess, -, hrefresh⟩ := signsBoth_payloads hsigns
    intro t ht
    obtain rfl | ht := List.mem_cons.mp ht
    · simp [AuthSystem.expiry, hrefresh, refreshPayload]
    · obtain rfl | ht := List.mem_cons.mp ht
      · simp [AuthSystem.expiry, haccess, accessPayload]
      · exact hs t ht
  | _ => exact hs

theorem Spent.rejected (hs : Spent sys s token) (hsigned : SignedExpire sys s) {t : Int}
    (ht : s.now ≤ t) : sys.validateJwtToken s t token = none := by
  unfold AuthSystem.validateJwtToken
  split
  · rfl
  next hfree =>
    by_cases hmem : token ∈ s.signed
    · obtain ⟨exp, hexp⟩ := Option.isSome_iff_exists.mp (hsigned token hmem)
      obtain hdead | hlast := hs exp hexp
      · rw [AuthSystem.verify_expired hexp (by omega)]
        rfl
      · exact absurd hlast.get_isSome hfree
    · simp [AuthSystem.verify, hmem]

section Runs
variable {κ : Type*} (sys : AuthSystem) (call : κ → AuthCall)

theorem logout_stable : Stable (authServer sys call) (fun _ _ => True) (fun _ => True)
    (fun k => LogoutFits sys (call k)) where
  own w k m _ _ hl := ⟨trivial, logoutFits_step (act_step sys (call k) m (w.calls k) w.shared) hl⟩
  other w k m k' _ _ hl _ hl' := by
    have hstep := act_step sys (call k) m (w.calls k) w.shared
    exact hl'.mono (Int.le_of_eq (step_now hstep).symm) fun _ => spent_step hstep hl
  env w e _ _ := ⟨trivial, fun k hl => hl.mono (env_now_le e w.shared) fun _ => spent_env e⟩

variable {sys call} [DecidableEq κ]

theorem signedExpire_run {w : World κ AuthState AuthPhase} (hs : SignedExpire sys w.shared)
    (turns : List (Turn κ AuthMoment AuthEnv)) :
    SignedExpire sys (run (authServer sys call).step w turns).shared := by
  refine run_invariant (I := fun w : World κ AuthState AuthPhase => SignedExpire sys w.shared)
    (fun w t hw => ?_) hs turns
  cases t with
  | env e => cases e <;> exact hw
  | call k m => exact signedExpire_step (act_step sys (call k) m (w.calls k) w.shared) hw

/-- Once a logout of `token` has returned, the token is rejected in every state that follows
and at every later time. -/
theorem logged_out_token_rejected (s : AuthState) (hs : SignedExpire sys s) (k : κ)
    {userId token : String} (hcall : call k = .logout userId token)
    (us vs : List (Turn κ AuthMoment AuthEnv))
    (hret : (run (authServer sys call).step (authStart s) us).calls k = .returned .loggedOut)
    (t : Int) (ht : (run (authServer sys call).step (authStart s) (us ++ vs)).shared.now ≤ t) :
    sys.validateJwtToken (run (authServer sys call).step (authStart s) (us ++ vs)).shared t
      token = none := by
  have hstart : Holds (fun _ => True) (fun k => LogoutFits sys (call k)) (authStart s) :=
    ⟨trivial, fun _ => trivial⟩
  have hfit := ((logout_stable sys call).always hstart
    (along_of_forall (fun _ _ => trivial) _ (us ++ vs))).last.2 k
  rw [run_append, returned_run hret vs, hcall] at hfit
  obtain ⟨userId', token', hsame, hspent⟩ := hfit
  cases hsame
  rw [run_append] at ht ⊢
  refine hspent.rejected ?_ ht
  rw [← run_append]
  exact signedExpire_run (w := authStart s) hs (us ++ vs)

end Runs

section Sample

def sampleLogout : Unit → AuthCall := fun _ => .logout "u1" "access1"

/-- Logged out at once, the token is rejected the moment before it would expire. -/
theorem logged_out_token_rejected_sample :
    (AuthSystem.ofTable aliceTokens).validateJwtToken
      (run (authServer (AuthSystem.ofTable aliceTokens) sampleLogout).step
        (authStart (aliceState ["access1", "refresh1"] (some "refresh1")))
        ([.call () {}, .call () {}, .call () {}] ++ [.env (.tick 3599999)])).shared
      3599999 "access1" = none :=
  logged_out_token_rejected _ (by unfold SignedExpire; decide) () rfl
    [.call () {}, .call () {}, .call () {}] [.env (.tick 3599999)] rfl 3599999 (by decide)

end Sample
end MsaTuto
