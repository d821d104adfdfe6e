import MsaTuto.AuthHttp

/-! Invariants of the service calls, taken over to the endpoints: what every turn of a service
call keeps holds in every run of the HTTP requests. -/
namespace MsaTuto
open Runs

/-- The service call is one that the request can come to. -/
def AuthRequest.Asks : AuthRequest → AuthCall → Prop
  | .login email password, call => call = .login email password
  | .register dto, call => call = .register dto
  | .refresh _ refreshToken, call => ∃ userId, call = .refreshToken userId refreshToken
  | .logout authorization, call => ∃ userId, call = .logout userId (authToken authorization)
  | .addRole _ id role, call => call = .addRole id role
  | .removeRole _ id role, call => call = .removeRole id role

/-- `S` of the shared state and `J` of each service call and its phase are kept by the turns of all
calls that are as `C` says. -/
structure ServiceInvariant (sys : AuthSystem) (C : AuthCall → Prop) (S : AuthState → Prop)
    (J : AuthCall → AuthPhase → AuthState → Prop) : Prop where
  starts : ∀ call s, S s → J call .started s
  own : ∀ call m l s, C call → S s → J call l s → S (AuthService.act sys call m l s).2 ∧
    J call (AuthService.act sys call m l s).1 (AuthService.act sys call m l s).2
  other : ∀ call m l s call' l', C call → S s → J call l s → J call' l' s →
    J call' l' (AuthService.act sys call m l s).2
  env : ∀ (e : AuthEnv) s, S s → S (e.act s) ∧ ∀ call l, J call l s → J call l (e.act s)

/-- A request that is served is served by a call of its own, of which `J` holds. -/
def Served (J : AuthCall → AuthPhase → AuthState → Prop) (request : AuthRequest) :
    HttpPhase → AuthState → Prop
  | .serving call l, s => request.Asks call ∧ J call l s
  | _, _ => True

/-- A turn of a request comes to calls only that are as `C` says. -/
def AsksOnly {κ : Type*} (C : AuthCall → Prop) (requests : κ → AuthRequest) :
    Turn κ AuthMoment AuthEnv → Prop
  | .call k _ => ∀ call, (requests k).Asks call → C call
  | .env _ => True

section Lift
variable {sys : AuthSystem} {C : AuthCall → Prop} {S : AuthState → Prop}
  {J : AuthCall → AuthPhase → AuthState → Prop} {s : AuthState} {request : AuthRequest}

theorem asks_of_dispatch {fault : Bool} {call : AuthCall}
    (h : AuthHttp.dispatch sys s fault request = .ok call) : request.Asks call := by
  cases request with
  | login email password => exact (Except.ok.inj h).symm
  | register dto => exact (Except.ok.inj h).symm
  | refresh authorization refreshToken =>
    obtain ⟨user, -, hcall⟩ := AuthHttp.map_ok h
    exact ⟨_, hcall.symm⟩
  | logout authorization =>
    obtain ⟨user, -, hcall⟩ := AuthHttp.map_ok h
    exact ⟨_, hcall.symm⟩
  | addRole authorization id role =>
    obtain ⟨user, -, hcall⟩ := AuthHttp.map_ok h
    exact hcall.symm
  | removeRole authorization id role =>
    obtain ⟨user, -, hcall⟩ := AuthHttp.map_ok h
    exact hcall.symm

theorem asks_register {dto : RegisterDto} (h : request.Asks (.register dto)) :
    request = .register dto := by
  cases request with
  | register dto' =>
    cases h
    rfl
  | login email password => cases h
  | addRole authorization id role => cases h
  | removeRole authorization id role => cases h
  | refresh authorization refreshToken =>
    obtain ⟨_, h⟩ := h
    cases h
  | logout authorization =>
    obtain ⟨_, h⟩ := h
    cases h

theorem asks_addRole {userId : String} {role : Role} (h : request.Asks (.addRole userId role)) :
    ∃ authorization, request = .addRole authorization userId role := by
  cases request with
  | addRole authorization id role =>
    cases h
    exact ⟨authorization, rfl⟩
  | login email password => cases h
  | register dto => cases h
  | removeRole authorization id role => cases h
  | refresh authorization refreshToken =>
    obtain ⟨_, h⟩ := h
    cases h
  | logout authorization =>
    obtain ⟨_, h⟩ := h
    cases h

/-- A turn of a request is its dispatch, which leaves the state alone, or one of its call. -/
theorem http_act_cases (sys : AuthSystem) (request : AuthRequest) (m : AuthMoment)
    (phase : HttpPhase) (s : AuthState) :
    (∃ call, phase = .arrived ∧ request.Asks call ∧
      AuthHttp.act sys request m phase s = (.serving call .started, s)) ∨
    (∃ cls, AuthHttp.act sys request m phase s = (.refused cls, s)) ∨
    ∃ call l, phase = .serving call l ∧ AuthHttp.act sys request m phase s =
      (.serving call (AuthService.act sys call m l s).1, (AuthService.act sys call m l s).2) := by
  cases phase with
  | arrived =>
    cases hdispatch : AuthHttp.dispatch sys s m.fault request with
    | ok call =>
      exact .inl ⟨call, rfl, asks_of_dispatch hdispatch, by simp only [AuthHttp.act, hdispatch]⟩
    | error cls => exact .inr (.inl ⟨cls, by simp only [AuthHttp.act, hdispatch]⟩)
  | serving call l => exact .inr (.inr ⟨call, l, rfl, rfl⟩)
  | refused cls => exact .inr (.inl ⟨cls, rfl⟩)

variable {κ : Type*} (requests : κ → AuthRequest)

theorem ServiceInvariant.stable (h : ServiceInvariant sys C S J) :
    Stable (authHttp sys requests) (fun _ => AsksOnly C requests) S
      (fun k => Served J (requests k)) where
  own w k m hC hS hJ := by
    change S (AuthHttp.act sys (requests k) m (w.calls k) w.shared).2 ∧ _
    obtain ⟨call, -, hasks, hact⟩ | ⟨cls, hact⟩ | ⟨call, l, hl, hact⟩ :=
      http_act_cases sys (requests k) m (w.calls k) w.shared
    · simp only [authHttp, hact]
      exact ⟨hS, hasks, h.starts call w.shared hS⟩
    · simp only [authHttp, hact]
      exact ⟨hS, trivial⟩
    · rw [hl] at hJ
      obtain ⟨hS', hJ'⟩ := h.own call m l w.shared (hC call hJ.1) hS hJ.2
      simp only [authHttp, hact]
      exact ⟨hS', hJ.1, hJ'⟩
  other w k m k' hC hS hJ _ hJ' := by
    obtain ⟨call, -, -, hact⟩ | ⟨cls, hact⟩ | ⟨call, l, hl, hact⟩ :=
      http_act_cases sys (requests k) m (w.calls k) w.shared
    · simpa only [authHttp, hact] using hJ'
    · simpa only [authHttp, hact] using hJ'
    · rw [hl] at hJ
      simp only [authHttp, hact]
      cases hl' : w.calls k' with
      | serving call' l' =>
        rw [hl'] at hJ'
        exact ⟨hJ'.1, h.other call m l w.shared call' l' (hC call hJ.1) hS hJ.2 hJ'.2⟩
      | _ => trivial
  env w e _ hS := by
    obtain ⟨hS', hJ'⟩ := h.env e w.shared hS
    refine ⟨hS', fun k hJ => ?_⟩
    cases hl : w.calls k with
    | serving call l =>
      rw [hl] at hJ
      exact ⟨hJ.1, hJ' call l hJ.2⟩
    | _ => trivial

variable [DecidableEq κ]

omit [DecidableEq κ] in
theorem asksOnly_true (t : Turn κ AuthMoment AuthEnv) : AsksOnly (fun _ => True) requests t := by
  cases t with
  | call k m => exact fun _ _ => trivial
  | env e => trivial

/-- In every state of every run. -/
theorem ServiceInvariant.reached (h : ServiceInvariant sys (fun _ => True) S J) (hs : S s)
    (turns : List (Turn κ AuthMoment AuthEnv)) :
    Runs.Holds S (fun k => Served J (requests k))
      (run (authHttp sys requests).step (httpStart s) turns) :=
  ((h.stable requests).always (w := httpStart s) ⟨hs, fun _ => trivial⟩
    (along_of_forall (fun _ => asksOnly_true requests) _ turns)).last

end Lift
end MsaTuto
