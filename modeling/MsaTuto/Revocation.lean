import MsaTuto.AuthHttp
import MsaTuto.Blacklist

/-! Revoked tokens at the three servers: the blacklist is written and read by the auth
server alone. -/
namespace MsaTuto
open Runs AuthService

/-- The three servers take the same tokens for valid, in this state and at its time. -/
def Agree (sys : AuthSystem) (s : AuthState) : Prop :=
  ∀ server token, (authenticate sys server s s.now token).isSome =
    (authenticate sys .auth s s.now token).isSome

/-- The blacklist names only tokens that were signed once and verify no longer. -/
def Settled (sys : AuthSystem) (s : AuthState) : Prop :=
  ∀ token, s.cache (blacklistKey token) ≠ none →
    token ∈ s.signed ∧ sys.verify s.signed s.now token = none

/-- A logout about to be carried out names a signed token, or no token at all. -/
def RevokesSigned (sys : AuthSystem) (call : AuthCall) (l : AuthPhase) (s : AuthState) : Prop :=
  match l with
  | .started => ∀ userId token, call = .logout userId token → sys.decode token ≠ none →
      token ∈ s.signed
  | .blacklisting _ token _ => token ∈ s.signed
  | _ => True

def HttpRevokes (sys : AuthSystem) (phase : HttpPhase) (s : AuthState) : Prop :=
  match phase with
  | .serving call l => RevokesSigned sys call l s
  | _ => True

variable {sys : AuthSystem} {call : AuthCall} {m : AuthMoment} {l l' : AuthPhase}
  {s s' : AuthState} {token : String}

/-- With a settled blacklist the auth server, too, looks at the signature and the expiry alone. -/
theorem Settled.authenticate_auth (h : Settled sys s) (token : String) :
    (authenticate sys .auth s s.now token).isSome = (sys.verify s.signed s.now token).isSome := by
  rw [MsaTuto.authenticate_auth]
  split
  next hlisted =>
    have hkey : s.cache (blacklistKey token) ≠ none := by
      intro hnone
      simp [KeyStore.get, hnone] at hlisted
    rw [(h token hkey).2]
    rfl
  next => exact Option.isSome_map

theorem Settled.agree (h : Settled sys s) : Agree sys s := by
  intro server token
  rw [h.authenticate_auth]
  cases server with
  | auth => exact h.authenticate_auth token
  | gateway => rw [authenticate_gateway, Option.isSome_map]
  | gameEvent => rw [authenticate_gameEvent, Option.isSome_map]

/-- A blacklist entry is written in one phase only, and only without a failure. -/
theorem blacklist_act (h : (act sys call m l s).2.cache (blacklistKey token) ≠ none) :
    s.cache (blacklistKey token) ≠ none ∨
      ∃ userId ttl, l = .blacklisting userId token ttl ∧ m.fault = false ∧ 0 ≤ ttl := by
  by_cases hf : m.fault = true
  · left
    simpa [act, hf] using h
  · have hstep := act_step sys call m l s
    generalize (act sys call m l s).1 = l' at hstep
    generalize (act sys call m l s).2 = s' at hstep h
    cases hstep with
    | saves userId user shown hf hsigns cache hsave =>
      obtain ⟨ttl, hcache⟩ := saveRefreshToken_ok hsave
      have hkey := KeyStore.set_other hcache (refreshKey_ne_blacklistKey userId token).symm
      exact .inl (hkey ▸ h)
    | blacklists userId token' ttl cache hset =>
      obtain ⟨httl, hcache⟩ := cacheSet_ok hset
      by_cases ht : token = token'
      · subst ht
        exact .inr ⟨userId, ttl, rfl, by simpa using hf, httl⟩
      · have hkey := KeyStore.set_other hcache (mt blacklistKey_inj.mp ht)
        exact .inl (hkey ▸ h)
    | removes userId =>
      have hkey := KeyStore.del_other s.cache (refreshKey_ne_blacklistKey userId token).symm
      exact .inl (hkey ▸ h)
    | clearsId user userId =>
      have hkey := KeyStore.del_other s.cache (userIdKey_ne_blacklistKey userId token).symm
      exact .inl (hkey ▸ h)
    | clearsEmail user =>
      have hkey := KeyStore.del_other s.cache (userEmailKey_ne_blacklistKey user.email token).symm
      exact .inl (hkey ▸ h)
    | _ => exact .inl h

theorem blacklisted_act (call : AuthCall) (s : AuthState) (userId token : String) {ttl : Int}
    (hf : m.fault = false) (httl : 0 ≤ ttl) :
    KeyStore.get (act sys call m (.blacklisting userId token ttl) s).2.cache (blacklistKey token) =
        some (.blacklisted userId) ∧
      (act sys call m (.blacklisting userId token ttl) s).2.signed = s.signed ∧
      (act sys call m (.blacklisting userId token ttl) s).2.now = s.now := by
  have hnot : ¬ttl < 0 := by omega
  simp [act, hf, proceed, cacheSet, hnot, KeyStore.get]

theorem RevokesSigned.mono (h : RevokesSigned sys call l s)
    (hsigned : ∀ t ∈ s.signed, t ∈ s'.signed) : RevokesSigned sys call l s' := by
  cases l with
  | started => exact fun userId token hcall hdecode => hsigned _ (h userId token hcall hdecode)
  | blacklisting userId token ttl => exact hsigned _ h
  | _ => trivial

theorem revokesSigned_step (h : Step sys call m s l l' s') (hl : RevokesSigned sys call l s) :
    RevokesSigned sys call l' s' := by
  have hmono : RevokesSigned sys call l s' := hl.mono fun _ => signed_step h
  cases h with
  | stays => exact hmono
  | outlives userId token exp hcall hexp hlive =>
    refine hl userId token hcall fun hnone => ?_
    rw [AuthSystem.expiry, hnone] at hexp
    cases hexp
  | logsIn user users hset l' hl' =>
    obtain rfl | ⟨f, rfl⟩ := hl'
    · trivial
    · trivial
  | _ => trivial

/-- No string with white space in it is a token. -/
def TokensUnbroken (sys : AuthSystem) : Prop :=
  ∀ t, (∃ c ∈ t.toList, Js.isWhite c = true) → sys.decode t = none

theorem revokesSigned_dispatch (hsys : TokensUnbroken sys) {request : AuthRequest} {fault : Bool}
    (h : AuthHttp.dispatch sys s fault request = .ok call) :
    RevokesSigned sys call .started s := by
  intro userId token hcall hdecode
  subst hcall
  obtain ⟨authorization, user, -, hguards, rfl⟩ := AuthHttp.dispatch_logout h
  obtain ⟨bearer, hbearer, hauth, -⟩ := AuthHttp.guards_ok hguards
  obtain ⟨payload, hverify, -⟩ := verified_of_authenticate hauth
  obtain hsame | hwhite := authToken_of_bearerToken hbearer
  · rw [hsame]
    exact AuthSystem.verify_signed hverify
  · exact absurd (hsys _ hwhite) hdecode

section Runs
variable {κ : Type*}

/-- Where a turn writes a blacklist entry, its token verifies no longer. -/
def LandsAfterExpiry (sys : AuthSystem) (w : World κ AuthState HttpPhase) :
    Turn κ AuthMoment AuthEnv → Prop
  | .call k m => ∀ call userId token ttl,
      w.calls k = .serving call (.blacklisting userId token ttl) → m.fault = false → 0 ≤ ttl →
      sys.verify w.shared.signed w.shared.now token = none
  | .env _ => True

theorem settled_act {k : κ} {w : World κ AuthState HttpPhase}
    (hl : w.calls k = .serving call l) (hfit : RevokesSigned sys call l w.shared)
    (hs : Settled sys w.shared) (hlands : LandsAfterExpiry sys w (.call k m)) :
    Settled sys (act sys call m l w.shared).2 := by
  have hstep := act_step sys call m l w.shared
  intro token hkey
  have hold : token ∈ w.shared.signed ∧
      sys.verify w.shared.signed w.shared.now token = none := by
    obtain hkey | ⟨userId, ttl, hphase, hf, httl⟩ := blacklist_act hkey
    · exact hs token hkey
    · subst hphase
      exact ⟨hfit, hlands call userId token ttl hl hf httl⟩
  have hsigned := signed_step hstep hold.1
  exact ⟨hsigned, AuthSystem.verify_none_later hold.1 (Int.le_of_eq (step_now hstep).symm) hold.2⟩

theorem settled_env (e : AuthEnv) (hs : Settled sys s) : Settled sys (e.act s) := by
  intro token hkey
  have hold : token ∈ s.signed ∧ sys.verify s.signed s.now token = none := by
    cases e with
    | tick ms => exact hs token hkey
    | dropKey key => exact hs token fun hnone => hkey (KeyStore.drop_none _ _ _ _ hnone)
  refine ⟨by cases e <;> exact hold.1, ?_⟩
  exact AuthSystem.verify_none_later hold.1 (env_now_le e s) hold.2

theorem env_signed (e : AuthEnv) (s : AuthState) : (e.act s).signed = s.signed := by
  cases e <;> rfl

theorem revocation_stable (hsys : TokensUnbroken sys) (request : κ → AuthRequest) :
    Stable (authHttp sys request) (LandsAfterExpiry sys) (Settled sys)
      (fun _ => HttpRevokes sys) where
  own w k m hlands hs hfit := by
    simp only [authHttp]
    generalize hphase : w.calls k = phase at hfit ⊢
    cases phase with
    | arrived =>
      simp only [AuthHttp.act]
      split
      next call hcall => exact ⟨hs, revokesSigned_dispatch hsys hcall⟩
      next => exact ⟨hs, trivial⟩
    | serving call l =>
      exact ⟨settled_act hphase hfit hs hlands,
        revokesSigned_step (act_step sys call m l w.shared) hfit⟩
    | refused cls => exact ⟨hs, trivial⟩
  other w k m k' _ _ _ _ hfit := by
    have hsigned : ∀ t ∈ w.shared.signed,
        t ∈ ((authHttp sys request).act k m (w.calls k) w.shared).2.signed := by
      intro t ht
      simp only [authHttp]
      cases w.calls k with
      | arrived =>
        simp only [AuthHttp.act]
        split
        · exact ht
        · exact ht
      | serving call l => exact signed_step (act_step sys call m l w.shared) ht
      | refused cls => exact ht
    cases hphase : w.calls k' with
    | serving call l =>
      rw [hphase] at hfit
      exact RevokesSigned.mono hfit hsigned
    | _ => trivial
  env w e _ hs := by
    refine ⟨settled_env e hs, fun k hfit => ?_⟩
    cases hphase : w.calls k with
    | serving call l =>
      rw [hphase] at hfit
      exact RevokesSigned.mono hfit fun t ht => by rwa [authHttp, env_signed]
    | _ => trivial

variable [DecidableEq κ] {request : κ → AuthRequest}

/-- A blacklist entry for a token that still verifies shuts it out of the auth server only. -/
theorem lands_of_agree {w : World κ AuthState HttpPhase} {turn : Turn κ AuthMoment AuthEnv}
    (h : Agree sys ((authHttp sys request).step w turn).shared) : LandsAfterExpiry sys w turn := by
  cases turn with
  | env e => trivial
  | call k m =>
    intro call userId token ttl hphase hf httl
    have hshared : ((authHttp sys request).step w (.call k m)).shared =
        (act sys call m (.blacklisting userId token ttl) w.shared).2 := by
      simp only [step_call_shared, authHttp, hphase, AuthHttp.act]
    rw [hshared] at h
    obtain ⟨hkey, hsigned, hnow⟩ := blacklisted_act call w.shared userId token hf httl
    have hagree := h .gateway token
    rw [authenticate_auth, hkey, authenticate_gateway, hsigned, hnow] at hagree
    simpa using hagree

/-- The three servers agree on every token all along a run exactly when each blacklist
entry is written after its token has expired, when it matters no more. -/
theorem servers_agree_iff (hsys : TokensUnbroken sys) (s : AuthState) (hs : Settled sys s)
    (turns : List (Turn κ AuthMoment AuthEnv)) :
    Always (authHttp sys request).step (fun w => Agree sys w.shared) (httpStart s) turns ↔
      Along (authHttp sys request).step (LandsAfterExpiry sys) (httpStart s) turns := by
  have hstart : Holds (Settled sys) (fun _ => HttpRevokes sys) (httpStart (κ := κ) s) :=
    ⟨hs, fun _ => trivial⟩
  refine always_iff_along (I := Holds (Settled sys) fun _ => HttpRevokes sys)
    (R := fun _ _ => True) (fun w hw => hw.1.agree)
    (fun w turn hw _ hlands => (revocation_stable hsys request).step hw hlands)
    (fun w turn _ _ hagree => lands_of_agree hagree) hstart ?_
  exact along_of_forall (fun _ _ => trivial) _ turns

end Runs

section Sample

theorem ofTable_unbroken : TokensUnbroken (AuthSystem.ofTable aliceTokens) := by
  intro t hwhite
  by_contra hdecode
  obtain ⟨payload, hpayload⟩ := Option.ne_none_iff_exists'.mp hdecode
  have hnames : aliceTokens.all (fun p => p.1.toList.all (!Js.isWhite ·)) = true := by decide
  obtain ⟨before, after, hsplit, -⟩ := List.lookup_eq_some_iff.mp hpayload
  have hmem : (t, payload) ∈ aliceTokens := by
    rw [hsplit]
    exact List.mem_append_right before List.mem_cons_self
  obtain ⟨c, hc, hw⟩ := hwhite
  have hclean := List.all_eq_true.mp (List.all_eq_true.mp hnames _ hmem) c hc
  rw [hw] at hclean
  cases hclean

def logoutRequest : Unit → AuthRequest := fun _ => .logout (some "Bearer access1")

def aliceServer : World Unit AuthState HttpPhase :=
  httpStart (aliceState ["access1", "refresh1"] (some "refresh1"))

theorem aliceServer_settled : Settled (AuthSystem.ofTable aliceTokens) aliceServer.shared := by
  intro token hkey
  have hnone : aliceServer.shared.cache (blacklistKey token) = none := by
    simp [aliceServer, httpStart, aliceState, (refreshKey_ne_blacklistKey "u1" token).symm]
  exact absurd hnone hkey

/-- A logout whose blacklist entry comes an hour late, when its token has expired. -/
theorem servers_agree_on_late_logout :
    Always (authHttp (AuthSystem.ofTable aliceTokens) logoutRequest).step
      (fun w => Agree (AuthSystem.ofTable aliceTokens) w.shared) aliceServer
      [.call () {}, .call () {}, .env (.tick 3600000), .call () {}] := by
  refine (servers_agree_iff ofTable_unbroken _ aliceServer_settled _).mpr
    ⟨?_, ?_, trivial, ?_, trivial⟩
  · intro call userId token ttl hphase
    cases hphase
  · intro call userId token ttl hphase
    cases hphase
  · intro call userId token ttl hphase _ _
    cases hphase
    decide

/-- After a logout in time the gateway and the game-event server still take the token. -/
theorem gateway_accepts_logged_out_token :
    ¬∀ (request : Unit → AuthRequest) (turns : List (Turn Unit AuthMoment AuthEnv)),
      Always (authHttp (AuthSystem.ofTable aliceTokens) request).step
        (fun w => Agree (AuthSystem.ofTable aliceTokens) w.shared) aliceServer turns := by
  intro h
  have hagree := (h logoutRequest [.call () {}, .call () {}, .call () {}, .call () {}]).last
    .gateway "access1"
  exact absurd hagree (by decide)

end Sample
end MsaTuto
