import MsaTuto.AtomicEvents

/-! Interleaved event calls as one history of whole calls, and what it says of the versions of an
event: each of them has been the answer to one caller. -/
namespace MsaTuto
open Runs

/-- What a call is answered that has left this event. -/
def Mutation.outcome (mutation : Mutation) (e : Event) : EventOutcome :=
  match mutation with
  | .remove id _ => .removed { id := id }
  | _ => .committed e

theorem Mutation.outcome_ne_refused (mutation : Mutation) (e : Event) :
    mutation.outcome e ≠ .refused := by
  cases mutation <;> exact fun h => by cases h

/-- A removal leaves the event deleted. -/
def Mutation.Leaves (mutation : Mutation) (e : Event) : Prop :=
  match mutation with
  | .remove _ _ => e.deletedAt ≠ none
  | _ => True

section Calls
variable {casts : Mongoose.Casts} {parse : String → JsDate} {store : EventStore}

theorem commit_cases {α : Type} {c : EventCollection} {mutation : Mutation}
    {change : Event → Event → Prop} {answer : Event → α} {out : EventCollection × Except Failure α}
    (outcome : Except Failure α → EventOutcome)
    (h : EventService.CommitsOrRaises c mutation.target change answer out)
    (hok : ∀ e, outcome (.ok (answer e)) = mutation.outcome e)
    (herror : ∀ f, outcome (.error f) = .refused)
    (hleaves : ∀ e e', change e e' → mutation.Leaves e') :
    (outcome out.2, out.1) = (.refused, c) ∨
    ∃ e e', c mutation.target = some e ∧ e'.version = e.version + 1 ∧ mutation.Leaves e' ∧
      (outcome out.2, out.1) =
        (mutation.outcome e', Function.update c mutation.target (some e')) := by
  obtain ⟨e, e', he, hchange, hv, rfl⟩ | ⟨f, rfl⟩ := h
  · exact .inr ⟨e, e', he, hv, hleaves e e' hchange, by rw [hok]⟩
  · exact .inl (by rw [herror])

/-- All that a mutation done in one go can come to. -/
theorem mutation_cases (mutation : Mutation) (m : EventMoment) (c : EventCollection) :
    (EventCall.mutate mutation).atomic casts parse store m c = (.refused, c) ∨
    ∃ e e', c mutation.target = some e ∧ e'.version = e.version + 1 ∧ mutation.Leaves e' ∧
      (EventCall.mutate mutation).atomic casts parse store m c =
        (mutation.outcome e', Function.update c mutation.target (some e')) := by
  cases mutation with
  | update id dto u v =>
    cases hread : EventService.updateRead parse c id dto u v with
    | error f =>
      exact .inl (by simp [EventCall.atomic, EventService.update, hread, EventOutcome.ofCommit])
    | ok patch =>
      simp only [EventCall.atomic, EventService.update, hread]
      exact commit_cases .ofCommit (EventService.updateWrite_spec store c id v patch)
        (fun _ => rfl) (fun _ => rfl) fun _ _ _ => trivial
  | remove id u =>
    exact commit_cases .ofRemove (EventService.remove_spec store c id u m.now) (fun _ => rfl)
      (fun _ => rfl) fun _ e' hchange => by simp [Mutation.Leaves, hchange.2]
  | restore id u =>
    exact commit_cases .ofCommit (EventService.restore_spec store c id u) (fun _ => rfl)
      (fun _ => rfl) fun _ _ _ => trivial

variable (casts parse store) in
/-- All that a call done in one go can come to. -/
theorem atomic_cases {call : EventCall} (hkeep : ∀ id, call ≠ .permanentlyRemove id)
    (m : EventMoment) (c : EventCollection) :
    call.atomic casts parse store m c = (.refused, c) ∨
    (∃ id e, call.target = none ∧ c id = none ∧ e.version = 0 ∧
      call.atomic casts parse store m c = (.created e, Function.update c id (some e))) ∨
    ∃ mutation e e', call = .mutate mutation ∧ c mutation.target = some e ∧
      e'.version = e.version + 1 ∧ mutation.Leaves e' ∧ call.atomic casts parse store m c =
        (mutation.outcome e', Function.update c mutation.target (some e')) := by
  cases call with
  | permanentlyRemove id => exact absurd rfl (hkeep id)
  | create dto createdBy =>
    obtain ⟨f, h⟩ | ⟨id, e, hfree, hdoc, h⟩ :=
      EventService.create_cases casts parse c dto createdBy m.newId
    · exact .inl (by simp [EventCall.atomic, h, EventOutcome.ofCreate])
    · exact .inr (.inl ⟨id, e, rfl, hfree, hdoc.version, by
        simp [EventCall.atomic, h, EventOutcome.ofCreate]⟩)
  | mutate mutation =>
    obtain h | ⟨e, e', he, hv, hleaves, h⟩ := mutation_cases mutation m c
    · exact .inl h
    · exact .inr (.inr ⟨mutation, e, e', rfl, he, hv, hleaves, h⟩)

end Calls

section Audit
variable {κ : Type*} (calls : κ → EventCall)

abbrev EventRecord (κ : Type*) := World κ EventCollection (Option EventOutcome)

/-- The call is an update, removal or restore of the event that has succeeded. -/
def Done (v : EventRecord κ) (k : κ) (mutation : Mutation) (id : String) : Prop :=
  calls k = .mutate mutation ∧ mutation.target = id ∧
    ∃ r, v.calls k = some r ∧ r ≠ .refused

/-- The successful calls account for the stored events: each has left the event at a version of its
own, which it was answered unless it is a removal, and they have left it at every version from 1. -/
structure Audited (v : EventRecord κ) (left : κ → Event) : Prop where
  counted : ∀ id e, v.shared id = some e → 0 ≤ e.version
  answered : ∀ k mutation id, Done calls v k mutation id →
    v.calls k = some (mutation.outcome (left k)) ∧ mutation.Leaves (left k)
  within : ∀ k mutation id, Done calls v k mutation id →
    ∃ e, v.shared id = some e ∧ 1 ≤ (left k).version ∧ (left k).version ≤ e.version ∧
      ((left k).version = e.version → left k = e)
  once : ∀ k k' mutation mutation' id, Done calls v k mutation id →
    Done calls v k' mutation' id → (left k).version = (left k').version → k = k'
  all : ∀ id e n, v.shared id = some e → 1 ≤ n → n ≤ e.version →
    ∃ k mutation, Done calls v k mutation id ∧ (left k).version = n

variable {calls} {v : EventRecord κ} {left : κ → Event} [DecidableEq κ] {k : κ} {id : String}
  {e e' : Event} {mutation : Mutation}

/-- A call that ends without leaving any event changes nothing for the others. -/
theorem done_of_update {c : EventCollection} {r : EventOutcome}
    (hend : ∀ mutation, calls k = .mutate mutation → r = .refused) {k' : κ} {id' : String}
    (h : Done calls ⟨c, Function.update v.calls k (some r)⟩ k' mutation id') :
    k' ≠ k ∧ Done calls v k' mutation id' := by
  obtain ⟨hcall, htarget, r', hr', hne⟩ := h
  have hk : k' ≠ k := by
    rintro rfl
    have hsame : r = r' := by simpa using hr'
    exact hne (hsame ▸ hend mutation hcall)
  exact ⟨hk, hcall, htarget, r', by simpa [hk] using hr', hne⟩

omit [DecidableEq κ] in
theorem Done.ne_of_new (h : Done calls v k mutation id) {k' : κ} (hnew : v.calls k' = none) :
    k ≠ k' := by
  rintro rfl
  obtain ⟨-, -, r, hr, -⟩ := h
  rw [hnew] at hr
  cases hr

theorem Done.update {c : EventCollection} {k' : κ} {r : Option EventOutcome}
    (h : Done calls v k mutation id) (hk : k ≠ k') :
    Done calls ⟨c, Function.update v.calls k' r⟩ k mutation id := by
  obtain ⟨hcall, htarget, r', hr', hne⟩ := h
  exact ⟨hcall, htarget, r', by simpa [hk] using hr', hne⟩

theorem Audited.create (h : Audited calls v left) (hk : (calls k).target = none)
    (hnew : v.calls k = none) (hfree : v.shared id = none) (hv : e.version = 0) :
    Audited calls ⟨Function.update v.shared id (some e),
      Function.update v.calls k (some (.created e))⟩ left := by
  have hend : ∀ mutation, calls k = .mutate mutation → EventOutcome.created e = .refused := by
    intro mutation hcall
    rw [hcall] at hk
    cases hk
  have hstored : ∀ {id' e'}, v.shared id' = some e' → id' ≠ id := by
    rintro id' e' he' rfl
    rw [hfree] at he'
    cases he'
  constructor
  case counted =>
    intro id' e' he'
    by_cases hid : id' = id
    · subst hid
      obtain rfl : e = e' := by simpa using he'
      exact hv.ge
    · exact h.counted id' e' (by simpa [hid] using he')
  case answered =>
    intro k' mutation id' hdone
    obtain ⟨hne, hold⟩ := done_of_update hend hdone
    simpa [hne] using h.answered k' mutation id' hold
  case within =>
    intro k' mutation id' hdone
    obtain ⟨e₀, he₀, hrest⟩ := h.within k' mutation id' (done_of_update hend hdone).2
    exact ⟨e₀, by simpa [hstored he₀] using he₀, hrest⟩
  case once =>
    exact fun k₁ k₂ m₁ m₂ id' h₁ h₂ =>
      h.once k₁ k₂ m₁ m₂ id' (done_of_update hend h₁).2 (done_of_update hend h₂).2
  case all =>
    intro id' e' n he' hn hle
    by_cases hid : id' = id
    · subst hid
      obtain rfl : e = e' := by simpa using he'
      omega
    · obtain ⟨k', mutation, hdone, hn'⟩ := h.all id' e' n (by simpa [hid] using he') hn hle
      exact ⟨k', mutation, hdone.update (hdone.ne_of_new hnew), hn'⟩

theorem Audited.refuse (h : Audited calls v left) (hnew : v.calls k = none) :
    Audited calls ⟨v.shared, Function.update v.calls k (some .refused)⟩ left := by
  have hend : ∀ mutation, calls k = .mutate mutation → EventOutcome.refused = .refused :=
    fun _ _ => rfl
  constructor
  case counted => exact h.counted
  case answered =>
    intro k' mutation id' hdone
    obtain ⟨hne, hold⟩ := done_of_update hend hdone
    simpa [hne] using h.answered k' mutation id' hold
  case within => exact fun k' mutation id' hd => h.within k' mutation id' (done_of_update hend hd).2
  case once =>
    exact fun k₁ k₂ m₁ m₂ id' h₁ h₂ =>
      h.once k₁ k₂ m₁ m₂ id' (done_of_update hend h₁).2 (done_of_update hend h₂).2
  case all =>
    intro id' e' n he' hn hle
    obtain ⟨k', mutation, hdone, hn'⟩ := h.all id' e' n he' hn hle
    exact ⟨k', mutation, hdone.update (hdone.ne_of_new hnew), hn'⟩

/-- Among the successful calls is the one that ends now, and all that were. -/
theorem done_of_commit {c : EventCollection} {r : EventOutcome} (hk : calls k = .mutate mutation)
    {k' : κ} {mutation' : Mutation} {id' : String}
    (h : Done calls ⟨c, Function.update v.calls k (some r)⟩ k' mutation' id') :
    (k' = k ∧ mutation' = mutation ∧ id' = mutation.target) ∨
      (k' ≠ k ∧ Done calls v k' mutation' id') := by
  obtain ⟨hcall, htarget, r', hr, hne⟩ := h
  by_cases hkk : k' = k
  · subst hkk
    cases hk.symm.trans hcall
    exact .inl ⟨rfl, rfl, htarget.symm⟩
  · exact .inr ⟨hkk, hcall, htarget, r', by simpa [hkk] using hr, hne⟩

omit [DecidableEq κ] in
theorem Audited.le_stored (h : Audited calls v left) (he : v.shared id = some e)
    (hdone : Done calls v k mutation id) : (left k).version ≤ e.version := by
  obtain ⟨e₁, he₁, -, hle, -⟩ := h.within k mutation id hdone
  rw [he] at he₁
  cases he₁
  exact hle

/-- The call that ends now has left the event at the version after the stored one. -/
theorem Audited.commit (h : Audited calls v left) (hnew : v.calls k = none)
    (hk : calls k = .mutate mutation) (he : v.shared mutation.target = some e)
    (hv : e'.version = e.version + 1) (hleaves : mutation.Leaves e') :
    Audited calls ⟨Function.update v.shared mutation.target (some e'),
        Function.update v.calls k (some (mutation.outcome e'))⟩
      (Function.update left k e') := by
  have hcount := h.counted mutation.target e he
  have hbelow : ∀ {k' mutation'}, Done calls v k' mutation' mutation.target →
      (left k').version < e'.version := by
    intro k' mutation' hdone
    have hle := h.le_stored he hdone
    omega
  constructor
  case counted =>
    intro id' e₀ he₀
    by_cases hid : id' = mutation.target
    · subst hid
      obtain rfl : e' = e₀ := by simpa using he₀
      omega
    · exact h.counted id' e₀ (by simpa [hid] using he₀)
  case answered =>
    intro k' mutation' id' hdone
    obtain ⟨rfl, rfl, rfl⟩ | ⟨hne, hold⟩ := done_of_commit hk hdone
    · exact ⟨by simp, by simpa using hleaves⟩
    · simpa [hne] using h.answered k' mutation' id' hold
  case within =>
    intro k' mutation' id' hdone
    obtain ⟨rfl, rfl, rfl⟩ | ⟨hne, hold⟩ := done_of_commit hk hdone
    · exact ⟨e', Function.update_self _ _ _, by simp; omega, by simp, by simp⟩
    · simp only [Function.update_of_ne hne]
      obtain ⟨e₁, he₁, hone, hle, hsame⟩ := h.within k' mutation' id' hold
      by_cases hid : id' = mutation.target
      · subst hid
        have hlt := hbelow hold
        exact ⟨e', Function.update_self _ _ _, hone, hlt.le, fun heq => absurd heq hlt.ne⟩
      · exact ⟨e₁, by simpa [hid] using he₁, hone, hle, hsame⟩
  case once =>
    intro k₁ k₂ m₁ m₂ id' h₁ h₂ heq
    obtain ⟨rfl, rfl, rfl⟩ | ⟨hne₁, hold₁⟩ := done_of_commit hk h₁
    · obtain ⟨rfl, -, -⟩ | ⟨hne₂, hold₂⟩ := done_of_commit hk h₂
      · rfl
      · exact absurd heq (by simpa [hne₂] using (hbelow hold₂).ne')
    · obtain ⟨rfl, rfl, rfl⟩ | ⟨hne₂, hold₂⟩ := done_of_commit hk h₂
      · exact absurd heq (by simpa [hne₁] using (hbelow hold₁).ne)
      · exact h.once k₁ k₂ m₁ m₂ id' hold₁ hold₂ (by simpa [hne₁, hne₂] using heq)
  case all =>
    intro id' e₀ n he₀ hn hle
    have hkeep : ∀ {e₁ : Event}, v.shared id' = some e₁ → n ≤ e₁.version →
        ∃ k' mutation', Done calls ⟨Function.update v.shared mutation.target (some e'),
          Function.update v.calls k (some (mutation.outcome e'))⟩ k' mutation' id' ∧
            (Function.update left k e' k').version = n := by
      intro e₁ he₁ hle₁
      obtain ⟨k', mutation', hdone, hn'⟩ := h.all id' e₁ n he₁ hn hle₁
      have hne := hdone.ne_of_new hnew
      exact ⟨k', mutation', hdone.update hne, by rwa [Function.update_of_ne hne]⟩
    by_cases hid : id' = mutation.target
    · subst hid
      obtain rfl : e' = e₀ := by simpa using he₀
      by_cases hlast : n = e'.version
      · exact ⟨k, mutation, ⟨hk, rfl, _, Function.update_self _ _ _,
          mutation.outcome_ne_refused e'⟩, by simp [hlast]⟩
      · exact hkeep he (by omega)
    · exact hkeep (by simpa [hid] using he₀) hle

theorem Audited.step (casts : Mongoose.Casts) (parse : String → JsDate) (store : EventStore)
    (hkeep : KeepsDocuments calls) (v : EventRecord κ) (t : Turn κ EventMoment Empty)
    (h : ∃ left, Audited calls v left) :
    ∃ left, Audited calls ((atomicEvents casts parse store calls).pool.step v t) left := by
  obtain ⟨left, h⟩ := h
  cases t with
  | env e => exact e.elim
  | call k m =>
    cases hnew : v.calls k with
    | some r =>
      have hsame : (atomicEvents casts parse store calls).pool.step v (.call k m) = v := by
        simp only [Pool.step, Atomic.pool, hnew]
        rw [← hnew, Function.update_eq_self]
      exact ⟨left, by rwa [hsame]⟩
    | none =>
      have hstep : (atomicEvents casts parse store calls).pool.step v (.call k m) =
          ⟨((calls k).atomic casts parse store m v.shared).2, Function.update v.calls k
            (some ((calls k).atomic casts parse store m v.shared).1)⟩ := by
        simp only [Pool.step, Atomic.pool, hnew]
        rfl
      rw [hstep]
      obtain hact | ⟨id, e, hk, hfree, hv, hact⟩ | ⟨mutation, e, e', hk, he, hv, hleaves, hact⟩ :=
        atomic_cases casts parse store (hkeep k) m v.shared
      · rw [hact]
        exact ⟨left, h.refuse hnew⟩
      · rw [hact]
        exact ⟨left, h.create hk hnew hfree hv⟩
      · rw [hact]
        exact ⟨_, h.commit hnew hk he hv hleaves⟩

omit [DecidableEq κ] in
theorem Audited.start (left : κ → Event) :
    Audited calls ((eventStart emptyCollection).results EventPhase.outcome) left where
  counted _ _ he := by cases he
  answered _ _ _ h := by
    obtain ⟨-, -, _, hr, -⟩ := h
    cases hr
  within _ _ _ h := by
    obtain ⟨-, -, _, hr, -⟩ := h
    cases hr
  once _ _ _ _ _ h := by
    obtain ⟨-, -, _, hr, -⟩ := h
    cases hr
  all _ _ _ he := by cases he

/-- However creates, updates, removals and restores interleave, the run is seen from outside as
whole calls one after the other, each at most once and at the turn in which it ends. -/
theorem calls_take_effect_at_once (casts : Mongoose.Casts) (parse : String → JsDate)
    (store : EventStore) (hkeep : KeepsDocuments calls) (c : EventCollection)
    (turns : List (Turn κ EventMoment Empty)) :
    ∃ order : List (Turn κ EventMoment Empty), order.Sublist turns ∧
      (∀ k, turnsOf k order ≤ 1) ∧
      (run (eventCalls casts parse store calls).step (eventStart c) turns).results
          EventPhase.outcome =
        run (atomicEvents casts parse store calls).pool.step ⟨c, fun _ => none⟩ order := by
  have h := events_linearize casts parse store hkeep
  have hstart : Holds (fun _ => True) (fun k l c => ReadForWrite parse (calls k) l c)
      (eventStart c) := ⟨trivial, fun _ => trivial⟩
  exact ⟨_, endings_sublist _ _ _ _, fun k => h.ends_once k _ _, h.run_eq hstart turns⟩

/-- From an empty collection, in every state reached: each version of an event from 1 to the
stored one is the one at which exactly one update, removal or restore has left it. An update or
restore was answered the event at its version, a removal only that it is done; and the call of the
stored version has left the event as it is stored. -/
theorem every_version_made_once (casts : Mongoose.Casts) (parse : String → JsDate)
    (store : EventStore) (hkeep : KeepsDocuments calls) (turns : List (Turn κ EventMoment Empty)) :
    ∃ left, Audited calls ((run (eventCalls casts parse store calls).step
      (eventStart emptyCollection) turns).results EventPhase.outcome) left :=
  (events_linearize casts parse store hkeep).invariant (w := eventStart emptyCollection)
    ⟨trivial, fun _ => trivial⟩ (Audited.step casts parse store hkeep)
    ⟨fun _ => { name := none, description := none, type := none, condition := none, startDate := 0
                endDate := 0, status := none, createdBy := none }, Audited.start _⟩ turns

end Audit

section Sample

def sampleEvents : EventCollection := fun id => if id = "e1" then some sampleEvent else none

/-- Two operators rename the event from its version 0; both have read it before either writes. -/
def renames (second : Bool) : EventCall :=
  .mutate (.update "e1" { name := some (some (if second then "b" else "a")) } (some "op") 0)

def renamesTurns : List (Turn Bool EventMoment Empty) :=
  [false, true, true, false].map fun k => .call k ⟨5, "e2"⟩

theorem renames_keep : KeepsDocuments renames := fun _ _ h => by cases h

theorem calls_take_effect_at_once_sample :
    ∃ order : List (Turn Bool EventMoment Empty), order.Sublist renamesTurns ∧
      (∀ k, turnsOf k order ≤ 1) ∧
      (run (eventCalls .plain (fun _ => none) .strict renames).step (eventStart sampleEvents)
          renamesTurns).results EventPhase.outcome =
        run (atomicEvents .plain (fun _ => none) .strict renames).pool.step
          ⟨sampleEvents, fun _ => none⟩ order :=
  calls_take_effect_at_once .plain (fun _ => none) .strict renames_keep sampleEvents renamesTurns

/-- An operator creates an event, and another removes it. -/
def createsAndRemoves (second : Bool) : EventCall :=
  if second then .mutate (.remove "e2" (some "op"))
  else .create ⟨"attendance", "seven days", .LOGIN, some (.obj [("type", .str "days"),
    ("value", .num 7)]), "0", "10", none, []⟩ (some "op")

theorem every_version_made_once_sample :
    ∃ left, Audited createsAndRemoves ((run (eventCalls .plain String.toInt? .strict
      createsAndRemoves).step (eventStart emptyCollection)
        [.call false ⟨5, "e2"⟩, .call true ⟨6, "e3"⟩]).results EventPhase.outcome) left :=
  every_version_made_once .plain String.toInt? .strict
    (fun k _ h => by cases k <;> cases h) [.call false ⟨5, "e2"⟩, .call true ⟨6, "e3"⟩]

end Sample
end MsaTuto
