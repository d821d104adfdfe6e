import MsaTuto.AuthServer

/-! Role lists under interleaved role changes: when every user keeps a list that is
neither empty nor holds a role twice. -/
namespace MsaTuto
open Runs AuthService

def RolesOk (roles : List (Option Role)) : Prop := roles ≠ [] ∧ roles.Nodup

def AllRolesOk (s : AuthState) : Prop := ∀ u ∈ s.users.items, RolesOk u.roles

def AuthPhase.RolesFit : AuthPhase → Prop
  | .setting _ _ roles => RolesOk roles
  | _ => True

theorem rolesOk_filter {roles : List (Option Role)} (h : RolesOk roles) (hlen : roles.length ≠ 1)
    (role : String) : RolesOk (roles.filter fun r => r.map Role.value ≠ some role) := by
  refine ⟨?_, h.2.filter _⟩
  obtain ⟨hne, hnodup⟩ := h
  match roles, hne, hlen, hnodup with
  | a :: b :: rest, _, _, hnodup =>
    have hab : a ≠ b := by
      rintro rfl
      simp at hnodup
    intro hempty
    rw [List.filter_eq_nil_iff] at hempty
    have ha : a.map Role.value = some role := by simpa using hempty a (by simp)
    have hb : b.map Role.value = some role := by simpa using hempty b (by simp)
    exact hab (Option.map_injective Role.value_injective (ha.trans hb.symm))

variable {sys : AuthSystem} {call : AuthCall} {m : AuthMoment} {l l' : AuthPhase}
  {s s' : AuthState}

/-- The turn is no push of a role that the stored list holds at that moment. -/
def PushIsNew (m : AuthMoment) (l : AuthPhase) (s : AuthState) : Prop :=
  ∀ user userId role, l = .pushing user userId role → m.fault = false →
    ∀ v ∈ s.users.items, v.id = user.id → some role ∉ v.roles

/-- The turn is no insert of an account whose registration has put its list out of order. -/
def InsertIsOk (sys : AuthSystem) (m : AuthMoment) (l : AuthPhase) (s : AuthState) : Prop :=
  ∀ dto user users, l = .inserting dto → m.fault = false → newUser sys dto m = some user →
    s.users.insert user = .ok users → RolesOk user.roles

theorem rolesFit_step (h : Step sys call m s l l' s') (hall : AllRolesOk s) (hl : l.RolesFit) :
    l'.RolesFit := by
  cases h with
  | stays => exact hl
  | filters user userId role hcall hu hlast => exact rolesOk_filter (hall user hu) hlast role
  | logsIn user users hset l' hl' =>
    obtain rfl | ⟨f, rfl⟩ := hl'
    · trivial
    · trivial
  | _ => trivial

theorem allRolesOk_step (h : Step sys call m s l l' s') (hall : AllRolesOk s) (hl : l.RolesFit)
    (hfresh : PushIsNew m l s) (hinsert : InsertIsOk sys m l s) : AllRolesOk s' := by
  cases h with
  | logsIn user users hset l' hl' =>
    intro u hu
    obtain hold | ⟨v, hv, -, rfl⟩ := UserCollection.mem_updateOne hset hu
    · exact hall u hold
    · exact hall v hv
  | inserts dto user users hf hnew hset | insertsUnnamed dto user users hf hnew hset =>
    intro u hu
    obtain hold | rfl := UserCollection.mem_insert hset hu
    · exact hall u hold
    · exact hinsert dto u users rfl hf hnew hset
  | pushes user userId role users hf hset user' =>
    intro u hu
    obtain hold | ⟨v, hv, hid, rfl⟩ := UserCollection.mem_updateOne hset hu
    · exact hall u hold
    · have hlacks := hfresh user userId role rfl hf v hv hid
      exact ⟨by simp, List.nodup_append.mpr ⟨(hall v hv).2, by simp, by
        rintro a ha b hb rfl
        rw [List.mem_singleton.mp hb] at ha
        exact hlacks ha⟩⟩
  | sets user userId roles users hset user' =>
    intro u hu
    obtain hold | ⟨v, -, -, rfl⟩ := UserCollection.mem_updateOne hset hu
    · exact hall u hold
    · exact hl
  | _ => exact hall

theorem push_doubles {user v : User} {userId : String} {role : Role} (hf : m.fault = false)
    (hv : v ∈ s.users.items) (hid : v.id = user.id) (hrole : some role ∈ v.roles) :
    ¬AllRolesOk (act sys call m (.pushing user userId role) s).2 := by
  have hsome : ∃ users, s.users.pushRole user.id role = some users := by
    rw [← hid]
    exact UserCollection.updateOne_isSome hv _
  obtain ⟨users, hset⟩ := hsome
  intro hall
  have hstate : (act sys call m (.pushing user userId role) s).2 = { s with users := users } := by
    simp [act, hf, proceed, hset]
  rw [hstate] at hall
  have hdouble := (hall _ (UserCollection.changed_mem hset hv hid)).2
  exact (List.nodup_append.mp hdouble).2.2 (some role) hrole (some role) (by simp) rfl

theorem insert_stores {dto : RegisterDto} {user : User} {users : UserCollection}
    (hf : m.fault = false) (hnew : newUser sys dto m = some user)
    (hset : s.users.insert user = .ok users) :
    user ∈ (act sys call m (.inserting dto) s).2.users.items := by
  simp only [act, hf, proceed, hnew, hset]
  exact UserCollection.self_mem_insert hset

section Runs
variable {κ : Type*} [DecidableEq κ] (sys : AuthSystem) (call : κ → AuthCall)

/-- The turn pushes no role that is held by then, and registers no list out of order. -/
def PushesNew (w : World κ AuthState AuthPhase) : Turn κ AuthMoment AuthEnv → Prop
  | .call k m => PushIsNew m (w.calls k) w.shared ∧ InsertIsOk sys m (w.calls k) w.shared
  | .env _ => True

theorem env_users (e : AuthEnv) (s : AuthState) : (e.act s).users = s.users := by
  cases e <;> rfl

variable {sys call}

theorem rolesFit_turn (w : World κ AuthState AuthPhase) (t : Turn κ AuthMoment AuthEnv)
    (hl : ∀ k, (w.calls k).RolesFit) (hall : AllRolesOk w.shared) (k' : κ) :
    (((authServer sys call).step w t).calls k').RolesFit := by
  cases t with
  | env e => exact hl k'
  | call k m =>
    by_cases hk : k' = k
    · subst hk
      rw [step_call_self]
      exact rolesFit_step (act_step sys (call k') m (w.calls k') w.shared) hall (hl k')
    · rw [step_call_other _ _ hk]
      exact hl k'

theorem allRolesOk_turn_iff (w : World κ AuthState AuthPhase) (t : Turn κ AuthMoment AuthEnv)
    (hl : ∀ k, (w.calls k).RolesFit) (hall : AllRolesOk w.shared) :
    AllRolesOk ((authServer sys call).step w t).shared ↔ PushesNew sys w t := by
  cases t with
  | env e =>
    refine ⟨fun _ => trivial, fun _ u hu => hall u ?_⟩
    rw [← env_users e w.shared]
    exact hu
  | call k m =>
    constructor
    · intro hnext
      rw [step_call_shared] at hnext
      refine ⟨fun user userId role hpush hf v hv hid hrole => ?_, ?_⟩
      · simp only [authServer, hpush] at hnext
        exact push_doubles hf hv hid hrole hnext
      · intro dto user users hinserting hf hnew hset
        simp only [authServer, hinserting] at hnext
        exact hnext user (insert_stores hf hnew hset)
    · intro ⟨hfresh, hinsert⟩
      exact allRolesOk_step (act_step sys (call k) m (w.calls k) w.shared) hall (hl k) hfresh
        hinsert

/-- In every run from users with role lists in order, the lists stay in order exactly if no
push adds a role that the stored list holds by then. -/
theorem role_lists_iff (s : AuthState) (hs : AllRolesOk s)
    (turns : List (Turn κ AuthMoment AuthEnv)) :
    Always (authServer sys call).step (fun w => AllRolesOk w.shared) (authStart s) turns ↔
      Along (authServer sys call).step (PushesNew sys) (authStart s) turns :=
  always_iff_along
    (I := fun w => (∀ k, (w.calls k).RolesFit) ∧ AllRolesOk w.shared) (R := fun _ _ => True)
    (fun _ h => h.2)
    (fun w t h _ hnew => ⟨rolesFit_turn w t h.1 h.2, (allRolesOk_turn_iff w t h.1 h.2).mpr hnew⟩)
    (fun w t h _ hnext => (allRolesOk_turn_iff w t h.1 h.2).mp hnext) ⟨fun _ => trivial, hs⟩
    (along_of_forall (fun _ _ => trivial) _ _)

end Runs

section Sample

def sampleRoleCalls : Fin 4 → AuthCall
  | 0 | 1 => .addRole "u1" .OPERATOR
  | 2 => .removeRole "u1" "USER"
  | 3 => .removeRole "u1" "OPERATOR"

def sampleRoleTurns (order : List (Fin 4)) : List (Turn (Fin 4) AuthMoment AuthEnv) :=
  order.map fun k => .call k {}

theorem aliceState_rolesOk : AllRolesOk (aliceState [] none) := by
  intro u hu
  rw [List.mem_singleton.mp hu]
  exact ⟨by decide, by decide⟩

theorem role_lists_in_sequence :
    Always (authServer (AuthSystem.ofTable []) sampleRoleCalls).step
      (fun w => AllRolesOk w.shared) (authStart (aliceState [] none))
      (sampleRoleTurns [0, 0, 1, 2, 2, 3]) := by
  refine (role_lists_iff _ aliceState_rolesOk _).mpr ⟨?_, ?_, ?_, ?_, ?_, ?_, trivial⟩
  case refine_2 =>
    refine ⟨?_, fun _ _ _ h => by cases h⟩
    intro user userId role h _ v hv _
    cases h
    rw [List.mem_singleton.mp hv]
    decide
  all_goals exact ⟨fun _ _ _ h => (by cases h), fun _ _ _ h => by cases h⟩

/-- Both grants read before either saves: the role is there twice, and the last removal
leaves Alice without any. -/
theorem role_lists_break :
    AllRolesOk (aliceState [] none) ∧
    ((run (authServer (AuthSystem.ofTable []) sampleRoleCalls).step (authStart (aliceState [] none))
      (sampleRoleTurns [0, 1, 0, 1])).shared.users.items.map User.roles) =
        [[some .USER, some .OPERATOR, some .OPERATOR]] ∧
    ((run (authServer (AuthSystem.ofTable []) sampleRoleCalls).step (authStart (aliceState [] none))
      (sampleRoleTurns [0, 1, 0, 1, 2, 2, 3, 3])).shared.users.items.map User.roles) = [[]] ∧
    ¬Always (authServer (AuthSystem.ofTable []) sampleRoleCalls).step
      (fun w => AllRolesOk w.shared) (authStart (aliceState [] none))
      (sampleRoleTurns [0, 1, 0, 1, 2, 2, 3, 3]) := by
  refine ⟨aliceState_rolesOk, rfl, rfl, fun h => ?_⟩
  exact (h.last { alice with roles := [], version := 4 } (List.mem_singleton.mpr rfl)).1 rfl

end Sample
end MsaTuto
