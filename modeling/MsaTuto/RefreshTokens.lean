import MsaTuto.AuthServer

/-! Redeeming refresh tokens: what keeps two calls from both getting a new pair for one. -/
namespace MsaTuto
open Runs AuthService

/-- Redis holds the token for the user, by the comparison of `validateRefreshToken`. -/
def StoresToken (s : AuthState) (userId token : String) : Prop :=
  ∃ v, KeyStore.get s.cache (refreshKey userId) = some v ∧ Js.trim v.text = Js.trim token

/-- Signed tokens have no white space around them, as signing sees to. -/
def SignedTrimmed (s : AuthState) : Prop := ∀ t ∈ s.signed, Js.trim t = t

def AuthPhase.underway : AuthPhase → Bool
  | .validated _ | .signing _ _ _ => true
  | _ => false

/-- What the phase of a refresh says about the token presented. -/
def RefreshFits (call : AuthCall) (l : AuthPhase) (s : AuthState) : Prop :=
  ∀ userId token, call = .refreshToken userId token →
    match l with
    | .started | .raised _ => True
    | .validated u | .signing u _ _ => u = userId ∧ token ∈ s.signed
    | .returned (.tokens _ _ _) => token ∈ s.signed ∧ ¬StoresToken s userId token
    | _ => False

variable {sys : AuthSystem} {call call' : AuthCall} {m : AuthMoment} {l l' : AuthPhase}
  {s s' : AuthState} {userId token : String} {user : User}

theorem RefreshFits.signed_of_underway (h : RefreshFits (.refreshToken userId token) l s)
    (hway : l.underway = true) : token ∈ s.signed := by
  have hfit := h userId token rfl
  cases l with
  | validated u => exact hfit.2
  | signing u user shown => exact hfit.2
  | _ => cases hway

theorem signedTrimmed_step (h : Step sys call m s l l' s') (hs : SignedTrimmed s) :
    SignedTrimmed s' := by
  cases h with
  | saves userId user shown hf hsigns cache hsave =>
    intro t ht
    obtain rfl | ht := List.mem_cons.mp ht
    · exact (signsBoth_fresh hsigns).2.1
    · obtain rfl | ht := List.mem_cons.mp ht
      · exact (signsBoth_fresh hsigns).2.2
      · exact hs t ht
  | _ => exact hs

theorem StoresToken.congr (h : StoresToken s' userId token)
    (hkey : s'.cache (refreshKey userId) = s.cache (refreshKey userId)) :
    StoresToken s userId token := by
  obtain ⟨v, hv, htrim⟩ := h
  exact ⟨v, by rwa [← KeyStore.get_congr hkey], htrim⟩

theorem not_storesToken_of_none (h : s.cache (refreshKey userId) = none) :
    ¬StoresToken s userId token := by
  intro ⟨v, hv, _⟩
  rw [KeyStore.get, h] at hv
  cases hv

theorem not_storesToken_of_saves (hs : SignedTrimmed s) (htok : token ∈ s.signed)
    (h : Saves sys m s userId user)
    (hkey : KeyStore.get s'.cache (refreshKey userId) = some (.refreshToken m.refreshToken)) :
    ¬StoresToken s' userId token := by
  intro ⟨v, hv, htrim⟩
  rw [hkey] at hv
  cases hv
  obtain ⟨hfresh, htr, -⟩ := signsBoth_fresh h.2.1
  rw [hs token htok] at htrim
  have hsame : m.refreshToken = token := htr.symm.trans htrim
  exact hfresh (hsame ▸ htok)

theorem not_storesToken_step (h : Step sys call m s l l' s') (hs : SignedTrimmed s)
    (htok : token ∈ s.signed) (hgone : ¬StoresToken s userId token) :
    ¬StoresToken s' userId token := by
  obtain hkey | ⟨-, hkey⟩ | ⟨user, shown, -, hsaves, hkey⟩ := refreshKey_step h userId
  · exact fun hst => hgone (hst.congr hkey)
  · exact not_storesToken_of_none hkey
  · exact not_storesToken_of_saves hs htok hsaves hkey

theorem refreshFits_step (h : Step sys call m s l l' s') (hs : SignedTrimmed s)
    (hl : RefreshFits call l s) : RefreshFits call l' s' := by
  intro userId token hcall
  subst hcall
  have hfit := hl userId token rfl
  cases h with
  | stays => exact hfit
  | validates userId' token' hcall hvalid =>
    cases hcall
    obtain ⟨v, -, -, hmem⟩ := AuthSystem.of_validateRefreshToken hvalid
    exact ⟨rfl, hmem⟩
  | resumes userId' user => exact hfit
  | saves userId' user shown hf hsigns cache hsave =>
    obtain ⟨rfl, hmem⟩ := hfit
    refine ⟨List.mem_cons_of_mem _ (List.mem_cons_of_mem _ hmem), ?_⟩
    obtain ⟨ttl, hcache⟩ := saveRefreshToken_ok hsave
    refine not_storesToken_of_saves hs hmem ⟨hf, hsigns, cache, hsave⟩ ?_
    rw [hcache, KeyStore.get_set_self]
  | fails => trivial
  | finds _ _ hcall => cases hcall
  | admits _ hcall => cases hcall
  | outlives _ _ _ hcall => cases hcall
  | skips _ _ hcall => cases hcall
  | holds _ _ _ hcall => cases hcall
  | lacks _ _ _ hcall => cases hcall
  | filters _ _ _ hcall => cases hcall
  | _ => exact hfit.elim

theorem RefreshFits.of_signed (hl : RefreshFits call l s) (hsigned : ∀ t ∈ s.signed, t ∈ s'.signed)
    (hgone : ∀ userId token, token ∈ s.signed → ¬StoresToken s userId token →
      ¬StoresToken s' userId token) : RefreshFits call l s' := by
  intro userId token hcall
  have hfit := hl userId token hcall
  cases l with
  | validated u => exact ⟨hfit.1, hsigned _ hfit.2⟩
  | signing u user shown => exact ⟨hfit.1, hsigned _ hfit.2⟩
  | returned result =>
    cases result with
    | tokens a r v => exact ⟨hsigned _ hfit.1, hgone _ _ hfit.1 hfit.2⟩
    | _ => exact hfit
  | _ => exact hfit

theorem not_storesToken_env (e : AuthEnv) (h : ¬StoresToken s userId token) :
    ¬StoresToken (e.act s) userId token := by
  cases e with
  | tick ms => exact h
  | dropKey key =>
    obtain hs | hs := KeyStore.drop_cases s.cache (refreshKey userId) key s.now
    · exact fun hst => h (hst.congr hs)
    · exact not_storesToken_of_none hs

section Runs
variable {κ : Type*} (sys : AuthSystem) (call : κ → AuthCall)

theorem refresh_stable : Stable (authServer sys call) (fun _ _ => True) SignedTrimmed
    (fun k => RefreshFits (call k)) where
  own w k m _ hs hl := by
    have hstep := act_step sys (call k) m (w.calls k) w.shared
    exact ⟨signedTrimmed_step hstep hs, refreshFits_step hstep hs hl⟩
  other w k m k' _ hs _ _ hl' := by
    have hstep := act_step sys (call k) m (w.calls k) w.shared
    exact hl'.of_signed (fun _ => signed_step hstep)
      fun _ _ htok hgone => not_storesToken_step hstep hs htok hgone
  env w e _ hs := by
    have hsigned : (e.act w.shared).signed = w.shared.signed := by cases e <;> rfl
    refine ⟨?_, fun k hl => hl.of_signed ?_ fun _ _ _ => not_storesToken_env e⟩
    · intro t ht
      change t ∈ (e.act w.shared).signed at ht
      exact hs t (hsigned ▸ ht)
    · intro t ht
      change t ∈ (e.act w.shared).signed
      rwa [hsigned]

def Redeemed (w : World κ AuthState AuthPhase) (k : κ) : Prop :=
  ∃ a r v, w.calls k = .returned (.tokens a r v)

/-- No two refresh calls have redeemed the same token of the same user. -/
def RedeemedOnce (w : World κ AuthState AuthPhase) : Prop :=
  ∀ k k' userId token, k ≠ k' → call k = .refreshToken userId token →
    call k' = .refreshToken userId token → Redeemed w k → ¬Redeemed w k'

/-- A refresh call that saves finds the token presented to it still in Redis. -/
def SavesWhileStored (w : World κ AuthState AuthPhase) : Turn κ AuthMoment AuthEnv → Prop
  | .call k m => ∀ userId token user shown, call k = .refreshToken userId token →
      w.calls k = .signing userId user shown → Saves sys m w.shared userId user →
      StoresToken w.shared userId token
  | .env _ => True

variable {sys call} [DecidableEq κ]

theorem redeemed_step {w : World κ AuthState AuthPhase} {t : Turn κ AuthMoment AuthEnv} {k : κ}
    (h : Redeemed ((authServer sys call).step w t) k) :
    Redeemed w k ∨ ∃ m userId user shown, t = .call k m ∧ w.calls k = .signing userId user shown ∧
      Saves sys m w.shared userId user := by
  obtain ⟨a, r, v, h⟩ := h
  cases t with
  | env e => exact .inl ⟨a, r, v, h⟩
  | call k' m =>
    by_cases hk : k = k'
    · subst hk
      rw [step_call_self] at h
      have hstep := act_step sys (call k) m (w.calls k) w.shared
      change (act sys (call k) m (w.calls k) w.shared).1 = _ at h
      generalize (act sys (call k) m (w.calls k) w.shared).2 = s' at hstep
      rw [h] at hstep
      generalize hl : w.calls k = l at hstep
      cases hstep with
      | stays => exact .inl ⟨a, r, v, hl⟩
      | logsIn user users hset l' hl' =>
        obtain hl' | ⟨f, hl'⟩ := hl'
        · cases hl'
        · cases hl'
      | saves userId user shown hf hsigns cache hsave =>
        exact .inr ⟨m, userId, user, shown, rfl, rfl, hf, hsigns, cache, hsave⟩
    · rw [step_call_other _ _ hk] at h
      exact .inl ⟨a, r, v, h⟩

theorem redeemedOnce_step {w : World κ AuthState AuthPhase} {t : Turn κ AuthMoment AuthEnv}
    (hw : Holds SignedTrimmed (fun k => RefreshFits (call k)) w) (honce : RedeemedOnce call w)
    (hp : SavesWhileStored sys call w t) :
    RedeemedOnce call ((authServer sys call).step w t) := by
  intro k k' userId token hne hk hk' hred hred'
  -- whoever saves by this turn finds its token in Redis, so no other call has redeemed it
  have hsole : ∀ k₁ k₂ m userId' user shown, k₁ ≠ k₂ → call k₁ = .refreshToken userId token →
      call k₂ = .refreshToken userId token → t = .call k₁ m →
      w.calls k₁ = .signing userId' user shown → Saves sys m w.shared userId' user →
      ¬Redeemed w k₂ := by
    rintro k₁ k₂ m userId' user shown - h₁ h₂ rfl hl hsaves ⟨a, r, v, hred⟩
    have hfit₁ := hw.2 k₁ userId token h₁
    rw [hl] at hfit₁
    obtain ⟨rfl, -⟩ := hfit₁
    have hfit₂ := hw.2 k₂ userId' token h₂
    rw [hred] at hfit₂
    exact hfit₂.2 (hp userId' token user shown h₁ hl hsaves)
  obtain hold | ⟨m, u, user, shown, ht, hl, hsaves⟩ := redeemed_step hred
  · obtain hold' | ⟨m, u, user, shown, ht, hl, hsaves⟩ := redeemed_step hred'
    · exact honce k k' userId token hne hk hk' hold hold'
    · exact hsole k' k m u user shown hne.symm hk' hk ht hl hsaves hold
  · obtain hold' | ⟨m', u', user', shown', ht', hl', hsaves'⟩ := redeemed_step hred'
    · exact hsole k k' m u user shown hne hk hk' ht hl hsaves hold'
    · rw [ht] at ht'
      cases ht'
      exact hne rfl

/-- Whatever else goes on, no token is redeemed twice as long as every save of a refresh call
finds its token still stored. -/
theorem redeemed_once (s : AuthState) (hs : SignedTrimmed s)
    {turns : List (Turn κ AuthMoment AuthEnv)}
    (h : Along (authServer sys call).step (SavesWhileStored sys call) (authStart s) turns) :
    Always (authServer sys call).step (RedeemedOnce call) (authStart s) turns := by
  have hstart : RedeemedOnce call (authStart (κ := κ) s) := by
    intro k k' userId token _ _ _ ⟨a, r, v, hred⟩
    cases hred
  have hall := always_of_step
    (I := fun w => Holds SignedTrimmed (fun k => RefreshFits (call k)) w ∧ RedeemedOnce call w)
    (fun w t hw hp => ⟨(refresh_stable sys call).step hw.1 trivial, redeemedOnce_step hw.1 hw.2 hp⟩)
    ⟨⟨hs, fun k userId token _ => trivial⟩, hstart⟩ h
  exact hall.mono fun w hw => hw.2

theorem redeemed_mono {w : World κ AuthState AuthPhase} {k : κ} (h : Redeemed w k)
    (t : Turn κ AuthMoment AuthEnv) : Redeemed ((authServer sys call).step w t) k := by
  obtain ⟨a, r, v, h⟩ := h
  exact ⟨a, r, v, returned_run h [t]⟩

end Runs

section OneUser
variable {κ : Type*} (sys : AuthSystem) (userId : String) (token : κ → String)

def refreshes (k : κ) : AuthCall := .refreshToken userId (token k)

/-- Where a call under way does not find its token any more, another has redeemed it. -/
def Covered (w : World κ AuthState AuthPhase) : Prop :=
  ∀ k, (w.calls k).underway = true → StoresToken w.shared userId (token k) ∨
    ∃ k', k' ≠ k ∧ token k' = token k ∧ Redeemed w k'

variable {sys userId token} {w : World κ AuthState AuthPhase}

theorem covered_own {k : κ} {m : AuthMoment} (hc : Covered userId token w)
    (hfit : RefreshFits (refreshes userId token k) (w.calls k) w.shared)
    (hway : (act sys (refreshes userId token k) m (w.calls k) w.shared).1.underway = true) :
    StoresToken (act sys (refreshes userId token k) m (w.calls k) w.shared).2 userId (token k) ∨
      ∃ k', k' ≠ k ∧ token k' = token k ∧ Redeemed w k' := by
  have hstep := act_step sys (refreshes userId token k) m (w.calls k) w.shared
  have hfit := hfit userId (token k) rfl
  have hck := hc k
  generalize (act sys (refreshes userId token k) m (w.calls k) w.shared).1 = l' at hstep hway
  generalize (act sys (refreshes userId token k) m (w.calls k) w.shared).2 = s' at hstep
  generalize w.calls k = l at hstep hfit hck
  cases hstep with
  | stays => exact hck hway
  | validates u t hcall hvalid =>
    cases hcall
    obtain ⟨v, hv, htrim, -⟩ := AuthSystem.of_validateRefreshToken hvalid
    exact .inl ⟨v, hv, htrim⟩
  | resumes u user => exact hck rfl
  | logsIn => exact hfit.elim
  | inserts => exact hfit.elim
  | _ => cases hway

variable [DecidableEq κ]

theorem redeemed_of_saves {k : κ} {m : AuthMoment} {u : String} {user : User} {shown : Bool}
    (hl : w.calls k = .signing u user shown) (h : Saves sys m w.shared u user) :
    Redeemed ((authServer sys (refreshes userId token)).step w (.call k m)) k := by
  refine ⟨m.accessToken, m.refreshToken, if shown then some user.view else none, ?_⟩
  rw [step_call_self, hl]
  exact (act_saves _ shown h).1

theorem covered_other {k k' : κ} {m : AuthMoment} (hkk : k' ≠ k) (hc : Covered userId token w)
    (hw : Holds SignedTrimmed (fun k => RefreshFits (refreshes userId token k)) w)
    (hp : SavesWhileStored sys (refreshes userId token) w (.call k m))
    (hway : (w.calls k').underway = true) :
    StoresToken ((authServer sys (refreshes userId token)).step w (.call k m)).shared userId
        (token k') ∨
      ∃ k'', k'' ≠ k' ∧ token k'' = token k' ∧
        Redeemed ((authServer sys (refreshes userId token)).step w (.call k m)) k'' := by
  obtain hst | ⟨k'', hne, htok, hred⟩ := hc k' hway
  · obtain hkey | ⟨hl, -⟩ | ⟨user, shown, hl, hsaves, -⟩ :=
      refreshKey_step (act_step sys (refreshes userId token k) m (w.calls k) w.shared) userId
    · exact .inl (hst.congr hkey.symm)
    · have hfit := hw.2 k userId (token k) rfl
      rw [hl] at hfit
      exact hfit.elim
    · refine .inr ⟨k, hkk.symm, ?_, redeemed_of_saves hl hsaves⟩
      obtain ⟨v, hv, htrim⟩ := hst
      obtain ⟨v', hv', htrim'⟩ := hp userId (token k) user shown rfl hl hsaves
      rw [hv] at hv'
      cases hv'
      have hmem : token k ∈ w.shared.signed := (hw.2 k).signed_of_underway (by rw [hl]; rfl)
      have hmem' : token k' ∈ w.shared.signed := (hw.2 k').signed_of_underway hway
      calc
        token k = Js.trim (token k) := (hw.1 _ hmem).symm
        _ = Js.trim (token k') := htrim'.symm.trans htrim
        _ = token k' := hw.1 _ hmem'
  · exact .inr ⟨k'', hne, htok, redeemed_mono hred _⟩

theorem covered_step {t : Turn κ AuthMoment AuthEnv} (hc : Covered userId token w)
    (hw : Holds SignedTrimmed (fun k => RefreshFits (refreshes userId token k)) w)
    (hkeep : t ≠ .env (.dropKey (refreshKey userId)))
    (hp : SavesWhileStored sys (refreshes userId token) w t) :
    Covered userId token ((authServer sys (refreshes userId token)).step w t) := by
  intro k' hway
  cases t with
  | env e =>
    refine (hc k' hway).imp_left fun hst => ?_
    cases e with
    | tick ms => exact hst
    | dropKey key =>
      have hne : refreshKey userId ≠ key := by
        rintro rfl
        exact hkeep rfl
      exact hst.congr (KeyStore.drop_other w.shared.cache w.shared.now hne).symm
  | call k m =>
    by_cases hkk : k' = k
    · subst hkk
      rw [step_call_self] at hway
      refine (covered_own hc (hw.2 k') hway).imp_right ?_
      intro ⟨k'', hne, htok, hred⟩
      exact ⟨k'', hne, htok, redeemed_mono hred _⟩
    · rw [step_call_other _ _ hkk] at hway
      exact covered_other hkk hc hw hp hway

theorem late_save_redeems {t : Turn κ AuthMoment AuthEnv} (hc : Covered userId token w)
    (honce : RedeemedOnce (refreshes userId token)
      ((authServer sys (refreshes userId token)).step w t)) :
    SavesWhileStored sys (refreshes userId token) w t := by
  cases t with
  | env e => trivial
  | call k m =>
    intro u tok user shown hcall hl hsaves
    cases hcall
    obtain hst | ⟨k', hne, htok, hred⟩ := hc k (by rw [hl]; rfl)
    · exact hst
    · exact absurd (redeemed_mono hred _) (honce k k' userId (token k) hne.symm rfl
        (by rw [refreshes, htok]) (redeemed_of_saves hl hsaves))

/-- Refresh calls of one user never redeem a token twice if every save finds the token
presented still stored; and unless Redis drops the key, only then. -/
theorem redeemed_once_iff (s : AuthState) (hs : SignedTrimmed s)
    (turns : List (Turn κ AuthMoment AuthEnv)) :
    (Along (authServer sys (refreshes userId token)).step
        (SavesWhileStored sys (refreshes userId token)) (authStart s) turns →
      Always (authServer sys (refreshes userId token)).step
        (RedeemedOnce (refreshes userId token)) (authStart s) turns) ∧
    ((∀ t ∈ turns, t ≠ .env (.dropKey (refreshKey userId))) →
      Always (authServer sys (refreshes userId token)).step
        (RedeemedOnce (refreshes userId token)) (authStart s) turns →
      Along (authServer sys (refreshes userId token)).step
        (SavesWhileStored sys (refreshes userId token)) (authStart s) turns) := by
  refine ⟨redeemed_once s hs, fun hkeep honce => ?_⟩
  have hR : Along (authServer sys (refreshes userId token)).step
      (fun _ t => t ≠ .env (.dropKey (refreshKey userId))) (authStart s) turns :=
    along_of_mem hkeep _
  refine along_of_always
    (I := fun w => Holds SignedTrimmed (fun k => RefreshFits (refreshes userId token k)) w ∧
      Covered userId token w)
    ?_ (fun w t h _ hnext => late_save_redeems h.2 hnext) ?_ hR honce
  · intro w t ⟨hw, hc⟩ hkeep hp
    exact ⟨(refresh_stable sys _).step hw trivial, covered_step hc hw hkeep hp⟩
  · exact ⟨⟨hs, fun _ _ _ _ => trivial⟩, fun k hway => by cases hway⟩

end OneUser

section Sample

def pairTurn (k : Bool) (n : String) : Turn Bool AuthMoment AuthEnv :=
  .call k { accessToken := "access" ++ n, refreshToken := "refresh" ++ n }

def aliceSession : AuthState := aliceState ["access1", "refresh1"] (some "refresh1")

theorem aliceSession_trimmed : SignedTrimmed aliceSession := by
  unfold SignedTrimmed
  decide

theorem redeemed_once_in_sequence :
    Always (authServer (AuthSystem.ofTable aliceTokens)
        (refreshes "u1" fun _ : Bool => "refresh1")).step
      (RedeemedOnce (refreshes "u1" fun _ => "refresh1")) (authStart aliceSession)
      [pairTurn false "", pairTurn false "", pairTurn false "2", pairTurn true ""] := by
  refine (redeemed_once_iff _ aliceSession_trimmed _).1 ⟨?_, ?_, ?_, ?_, trivial⟩
  case refine_3 =>
    intro u t user shown hcall hl _
    cases hcall
    exact ⟨.refreshToken "refresh1", rfl, rfl⟩
  all_goals exact fun _ _ _ _ _ h => by cases h

/-- Both calls compare before either rotates: the token is redeemed twice. -/
theorem refresh_token_redeemed_twice :
    SignedTrimmed aliceSession ∧
    ¬Always (authServer (AuthSystem.ofTable aliceTokens)
        (refreshes "u1" fun _ : Bool => "refresh1")).step
      (RedeemedOnce (refreshes "u1" fun _ => "refresh1")) (authStart aliceSession)
      [pairTurn false "", pairTurn true "", pairTurn false "", pairTurn true "",
        pairTurn false "2", pairTurn true "3"] := by
  refine ⟨aliceSession_trimmed, fun h => ?_⟩
  exact h.last false true "u1" "refresh1" (by decide) rfl rfl
    ⟨"access2", "refresh2", none, rfl⟩ ⟨"access3", "refresh3", none, rfl⟩

end Sample
end MsaTuto
