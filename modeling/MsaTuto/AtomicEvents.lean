import MsaTuto.Approvals
import MsaTuto.EventDates
import MsaTuto.EventUpdate
import MsaTuto.Linearization

/-! The calls of `event.service.ts` as if each were done in one go: what their interleavings
come to, and what the callers have been told of the versions of an event. -/
namespace MsaTuto
open Runs EventBackend

inductive EventOutcome where
  | created (event : Event)
  | committed (event : Event)
  | removed (answer : EventService.Removal)
  | refused

namespace EventOutcome

def ofCreate : Except Failure Event → EventOutcome
  | .ok event => .created event
  | .error _ => .refused

def ofCommit : Except Failure Event → EventOutcome
  | .ok event => .committed event
  | .error _ => .refused

def ofRemove : Except Failure EventService.Removal → EventOutcome
  | .ok answer => .removed answer
  | .error _ => .refused

end EventOutcome

/-- What a call has come to; which of the errors it was is left open. -/
def EventPhase.outcome : EventPhase → Option EventOutcome
  | .created e => some (.created e)
  | .mutating (.committed e) => some (.committed e)
  | .mutating (.raised _) | .raised _ => some .refused
  | .mutating (.removed answer) | .removed answer => some (.removed answer)
  | _ => none

def EventCall.target : EventCall → Option String
  | .mutate m => some m.target
  | _ => none

section Calls
variable (casts : Mongoose.Casts) (parse : String → JsDate) (store : EventStore)

/-- The call in one go. -/
def EventCall.atomic (m : EventMoment) : EventCall → EventCollection →
    EventOutcome × EventCollection
  | .create dto createdBy, c =>
    (.ofCreate (EventService.create casts parse c dto createdBy m.newId).2,
      (EventService.create casts parse c dto createdBy m.newId).1)
  | .mutate (.update id dto u v), c =>
    (.ofCommit (EventService.update parse store c id dto u v).2,
      (EventService.update parse store c id dto u v).1)
  | .mutate (.remove id u), c =>
    (.ofRemove (EventService.remove store c id u m.now).2,
      (EventService.remove store c id u m.now).1)
  | .mutate (.restore id u), c =>
    (.ofCommit (EventService.restore store c id u).2, (EventService.restore store c id u).1)
  | .permanentlyRemove id, c =>
    (.ofRemove (EventService.permanentlyRemove c id).2, (EventService.permanentlyRemove c id).1)

def atomicEvents {κ : Type*} (calls : κ → EventCall) :
    Atomic κ EventMoment Empty EventCollection EventOutcome where
  act k m c := (calls k).atomic casts parse store m c
  env e _ := e.elim

/-- An update about to write has read the event at the version it was given, and whatever
collection holds that event gives the same update document. -/
def ReadForWrite (call : EventCall) (l : EventPhase) (c : EventCollection) : Prop :=
  match l with
  | .mutating (.writing patch) => ∀ id dto u v, call = .mutate (.update id dto u v) →
      ∃ e, StillStored c id e ∧ (e.version : Rat) = v ∧
        ∀ c' : EventCollection, c' id = some e →
          EventService.updateRead parse c' id dto u v = .ok patch
  | _ => True

/-- A turn says nothing and changes nothing, or the call ends in it as if done in one go. -/
def EndsAtOnce (call : EventCall) (m : EventMoment) (c : EventCollection)
    (out : EventPhase × EventCollection) : Prop :=
  (out.1.outcome = none ∧ out.2 = c) ∨
    (out.1.outcome = some (call.atomic casts parse store m c).1 ∧
      out.2 = (call.atomic casts parse store m c).2)

/-- None of the calls is `permanentlyRemove`, which nothing in the repository calls. After it a
body may bring the id back with an event at version 0. -/
def KeepsDocuments {κ : Type*} (calls : κ → EventCall) : Prop :=
  ∀ k id, calls k ≠ .permanentlyRemove id

section Facts
variable {casts parse store} {c : EventCollection} {id : String} {dto : UpdateEventDto}
  {u : Option String} {v : Rat} {patch : EventPatch}

theorem updateRead_congr {c c' : EventCollection} (h : c' id = c id) :
    EventService.updateRead parse c' id dto u v = EventService.updateRead parse c id dto u v := by
  simp only [EventService.updateRead, EventService.findOne, h]

theorem updateRead_ok (h : EventService.updateRead parse c id dto u v = .ok patch) :
    ∃ e, c id = some e ∧ e.deletedAt = none ∧ (e.version : Rat) = v := by
  simp only [EventService.updateRead] at h
  split at h
  · cases h
  next event hfound =>
    obtain ⟨he, hlive⟩ := EventService.findOne_eq_ok hfound
    split at h
    · cases h
    · split at h
      · cases h
      next hversion => exact ⟨event, he, hlive, by simpa using hversion⟩

variable (store) in
/-- Where the read would fail, so does the write. -/
theorem updateWrite_of_stale {f : Failure} {e : Event} (he : StillStored c id e)
    (hversion : (e.version : Rat) = v)
    (hread : ∀ c' : EventCollection, c' id = some e →
      EventService.updateRead parse c' id dto u v = .ok patch)
    (hfail : EventService.updateRead parse c id dto u v = .error f) :
    ∃ g, EventService.updateWrite store c id v patch = (c, .error g) := by
  obtain ⟨e', he', -, hsame⟩ := he
  unfold EventService.updateWrite EventService.write
  obtain ⟨e₀, he₀, hfilter, -, -⟩ | h | h := store.findOneAndUpdate_cases c id
    (fun e => decide ((e.version : Rat) = v) && e.deletedAt.isNone) patch
  · rw [he'] at he₀
    cases he₀
    simp only [Bool.and_eq_true, decide_eq_true_eq] at hfilter
    have hequal : e'.version = e.version := by
      have hcast : (e'.version : Rat) = (e.version : Rat) := hfilter.1.trans hversion.symm
      exact_mod_cast hcast
    rw [hsame hequal] at he'
    rw [hread c he'] at hfail
    cases hfail
  · exact ⟨_, by rw [h]⟩
  · exact ⟨_, by rw [h]⟩

variable (store) in
/-- The write comes to what the whole update comes to at that moment. -/
theorem updateWrite_eq_update {e : Event} (he : StillStored c id e)
    (hversion : (e.version : Rat) = v)
    (hread : ∀ c' : EventCollection, c' id = some e →
      EventService.updateRead parse c' id dto u v = .ok patch) :
    EventOutcome.ofCommit (EventService.update parse store c id dto u v).2 =
        EventOutcome.ofCommit (EventService.updateWrite store c id v patch).2 ∧
      (EventService.update parse store c id dto u v).1 =
        (EventService.updateWrite store c id v patch).1 := by
  cases hnow : EventService.updateRead parse c id dto u v with
  | error f =>
    obtain ⟨g, hg⟩ := updateWrite_of_stale store he hversion hread hnow
    simp [EventService.update, hnow, hg, EventOutcome.ofCommit]
  | ok patch' =>
    obtain ⟨e', he', -, hversion'⟩ := updateRead_ok hnow
    obtain ⟨e₀, he₀, -, hsame⟩ := he
    rw [he'] at he₀
    cases he₀
    have hequal : e'.version = e.version := by
      have hcast : (e'.version : Rat) = (e.version : Rat) := hversion'.trans hversion.symm
      exact_mod_cast hcast
    have hpatch := hread c (by rw [he', hsame hequal])
    rw [hnow] at hpatch
    cases hpatch
    simp [EventService.update, hnow]

variable (casts parse store) in
/-- All that a call can do to the collection in one turn. -/
theorem act_effect {call : EventCall} (hkeep : ∀ id, call ≠ .permanentlyRemove id)
    (m : EventMoment) (l : EventPhase) (c : EventCollection) :
    (call.act casts parse store m l c).2 = c ∨
    (∃ id e, c id = none ∧ (call.act casts parse store m l c).2 = Function.update c id (some e)) ∨
    ∃ id e e', c id = some e ∧ e'.version = e.version + 1 ∧
      (call.act casts parse store m l c).2 = Function.update c id (some e') := by
  have hmutation : ∀ (mutation : Mutation) (l : MutationPhase),
      (mutation.act parse store m.now l c).2 = c ∨
      ∃ id e e', c id = some e ∧ e'.version = e.version + 1 ∧
        (mutation.act parse store m.now l c).2 = Function.update c id (some e') := by
    intro mutation l
    obtain ⟨hsame, -⟩ | ⟨-, e, e', he, hv, -, hact⟩ := mutation.act_cases parse store m.now l c
    · exact .inl hsame
    · exact .inr ⟨mutation.target, e, e', he, hv, by rw [hact]⟩
  cases call with
  | permanentlyRemove id => exact absurd rfl (hkeep id)
  | mutate mutation =>
    cases l with
    | started => exact (hmutation mutation .started).imp_right .inr
    | mutating l => exact (hmutation mutation l).imp_right .inr
    | _ => exact .inl rfl
  | create dto createdBy =>
    cases l with
    | started =>
      obtain ⟨f, h⟩ | ⟨id, event, hfree, -, h⟩ :=
        EventService.create_cases casts parse c dto createdBy m.newId
      · exact .inl (by simp [EventCall.act, h])
      · exact .inr (.inl ⟨id, event, hfree, by simp [EventCall.act, h]⟩)
    | _ => exact .inl rfl

theorem stillStored_act {call : EventCall} (hkeep : ∀ id, call ≠ .permanentlyRemove id)
    (m : EventMoment) (l : EventPhase) {e : Event} (h : StillStored c id e) :
    StillStored (call.act casts parse store m l c).2 id e := by
  obtain ⟨e', he', hle, hsame⟩ := h
  obtain hc | ⟨id₀, e₀, hfree, hc⟩ | ⟨id₀, e₀, e₁, he₀, hv, hc⟩ := act_effect casts parse store
    hkeep m l c
  · rw [hc]
    exact ⟨e', he', hle, hsame⟩
  · rw [hc]
    have hne : id ≠ id₀ := by
      rintro rfl
      rw [he'] at hfree
      cases hfree
    exact ⟨e', by rw [Function.update_of_ne hne, he'], hle, hsame⟩
  · rw [hc]
    by_cases hid : id = id₀
    · subst hid
      rw [he'] at he₀
      cases he₀
      exact ⟨e₁, Function.update_self _ _ _, by omega, fun heq => by omega⟩
    · exact ⟨e', by rw [Function.update_of_ne hid, he'], hle, hsame⟩

theorem ReadForWrite.mono {call : EventCall} {l : EventPhase} {c' : EventCollection}
    (h : ReadForWrite parse call l c)
    (hc : ∀ id e, StillStored c id e → StillStored c' id e) : ReadForWrite parse call l c' := by
  cases l with
  | mutating phase =>
    cases phase with
    | writing patch =>
      intro id dto u v hcall
      obtain ⟨e, hstill, hrest⟩ := h id dto u v hcall
      exact ⟨e, hc id e hstill, hrest⟩
    | _ => trivial
  | _ => trivial

theorem ofResult_ne_writing {out : Except Failure Event} :
    MutationPhase.ofResult out ≠ .writing patch := by
  cases out with
  | ok e => exact fun h => by cases h
  | error f => exact fun h => by cases h

/-- An update is about to write only when it has just read. -/
theorem writing_of_act {m : EventMoment} {l : EventPhase}
    (h : ((EventCall.mutate (.update id dto u v)).act casts parse store m l c).1 =
      .mutating (.writing patch)) :
    EventService.updateRead parse c id dto u v = .ok patch ∧
      ((EventCall.mutate (.update id dto u v)).act casts parse store m l c).2 = c := by
  have hread : ((Mutation.update id dto u v).act parse store m.now .started c).1 =
      .writing patch → EventService.updateRead parse c id dto u v = .ok patch ∧
        ((Mutation.update id dto u v).act parse store m.now .started c).2 = c := by
    intro hw
    cases hok : EventService.updateRead parse c id dto u v with
    | error f => simp [Mutation.act, hok] at hw
    | ok patch' =>
      simp only [Mutation.act, hok, MutationPhase.writing.injEq] at hw
      exact ⟨by rw [hw], by simp [Mutation.act, hok]⟩
  cases l with
  | started => exact hread (by simpa [EventCall.act] using h)
  | mutating phase =>
    simp only [EventCall.act, EventPhase.mutating.injEq] at h
    cases phase with
    | started => exact hread h
    | writing patch' => exact absurd h ofResult_ne_writing
    | committed e => cases h
    | removed answer => cases h
    | raised f => cases h
  | _ => cases h

theorem readForWrite_act (call : EventCall) (m : EventMoment) (l : EventPhase)
    (c : EventCollection) :
    ReadForWrite parse call (call.act casts parse store m l c).1
      (call.act casts parse store m l c).2 := by
  cases hnext : (call.act casts parse store m l c).1 with
  | mutating phase =>
    cases phase with
    | writing patch =>
      intro id dto u v hcall
      subst hcall
      obtain ⟨hread, hsame⟩ := writing_of_act hnext
      obtain ⟨e, he, -, hversion⟩ := updateRead_ok hread
      rw [hsame]
      refine ⟨e, ⟨e, he, le_refl _, fun _ => rfl⟩, hversion, fun c' he' => ?_⟩
      rw [updateRead_congr (he'.trans he.symm), hread]
    | _ => trivial
  | _ => trivial

theorem readForWrite_stable {κ : Type*} {calls : κ → EventCall} (hkeep : KeepsDocuments calls) :
    Stable (eventCalls casts parse store calls) (fun _ _ => True) (fun _ => True)
      (fun k l c => ReadForWrite parse (calls k) l c) where
  own _ k m _ _ _ := ⟨trivial, readForWrite_act (calls k) m _ _⟩
  other _ k m _ _ _ _ _ h := h.mono fun _ _ hstill => stillStored_act (hkeep k) m _ hstill
  env _ e := e.elim

@[simp] theorem outcome_ofResult (out : Except Failure Event) :
    (EventPhase.mutating (.ofResult out)).outcome = some (.ofCommit out) := by
  cases out <;> rfl

@[simp] theorem outcome_ofRemoval (out : Except Failure EventService.Removal) :
    (EventPhase.mutating (.ofRemoval out)).outcome = some (.ofRemove out) := by
  cases out <;> rfl

@[simp] theorem outcome_ofCreate (out : Except Failure Event) :
    (EventPhase.ofCreate out).outcome = some (.ofCreate out) := by
  cases out <;> rfl

theorem mutation_starts (mutation : Mutation) (m : EventMoment) (c : EventCollection) :
    EndsAtOnce casts parse store (.mutate mutation) m c
      (.mutating (mutation.act parse store m.now .started c).1,
        (mutation.act parse store m.now .started c).2) := by
  cases mutation with
  | update id dto u v =>
    cases hread : EventService.updateRead parse c id dto u v with
    | ok patch => exact .inl (by simp [Mutation.act, hread, EventPhase.outcome])
    | error f =>
      refine .inr ?_
      simp [Mutation.act, hread, EventPhase.outcome, EventCall.atomic, EventService.update,
        EventOutcome.ofCommit]
  | remove id u => exact .inr ⟨outcome_ofRemoval _, rfl⟩
  | restore id u => exact .inr ⟨outcome_ofResult _, rfl⟩

variable (store) in
theorem turn_endsAtOnce {call : EventCall} (hkeep : ∀ id, call ≠ .permanentlyRemove id)
    (m : EventMoment) {l : EventPhase} (h : ReadForWrite parse call l c) (hl : l.outcome = none) :
    EndsAtOnce casts parse store call m c (call.act casts parse store m l c) := by
  cases call with
  | permanentlyRemove id => exact absurd rfl (hkeep id)
  | create dto createdBy =>
    cases l with
    | started => exact .inr ⟨outcome_ofCreate _, rfl⟩
    | mutating phase => exact .inl ⟨hl, rfl⟩
    | _ => cases hl
  | mutate mutation =>
    cases l with
    | started => exact mutation_starts mutation m c
    | mutating phase =>
      cases phase with
      | started => exact mutation_starts mutation m c
      | writing patch =>
        cases mutation with
        | update id dto u v =>
          obtain ⟨e, hstill, hversion, hread⟩ := h id dto u v rfl
          obtain ⟨hout, hc⟩ := updateWrite_eq_update store hstill hversion hread
          exact .inr ⟨by rw [EventCall.atomic, hout]; exact outcome_ofResult _, hc.symm⟩
        | remove id u => exact .inl ⟨hl, rfl⟩
        | restore id u => exact .inl ⟨hl, rfl⟩
      | committed e => cases hl
      | removed answer => cases hl
      | raised f => cases hl
    | _ => cases hl

variable (casts parse store) in
theorem over_of_outcome (call : EventCall) (m : EventMoment) {l : EventPhase}
    (hl : l.outcome.isSome) (c : EventCollection) : call.act casts parse store m l c = (l, c) := by
  cases l with
  | started => cases hl
  | mutating phase =>
    cases phase with
    | started => cases hl
    | writing patch => cases hl
    | committed e =>
      cases call with
      | mutate mutation => cases mutation <;> rfl
      | _ => rfl
    | removed answer =>
      cases call with
      | mutate mutation => cases mutation <;> rfl
      | _ => rfl
    | raised f =>
      cases call with
      | mutate mutation => cases mutation <;> rfl
      | _ => rfl
  | _ => cases call <;> rfl

/-- An update whose write goes through has changed the event as if it had read it only then, so
every interleaving of the calls is one of whole calls, each at the turn it ends in. -/
theorem events_linearize {κ : Type*} (casts : Mongoose.Casts) (parse : String → JsDate)
    (store : EventStore)
    {calls : κ → EventCall} (hkeep : KeepsDocuments calls) :
    Linearizes (eventCalls casts parse store calls) (atomicEvents casts parse store calls)
      EventPhase.outcome (fun _ => True) (fun k l c => ReadForWrite parse (calls k) l c) where
  stable := readForWrite_stable hkeep
  silent k m l c _ hread hl hnone := by
    obtain ⟨-, hc⟩ | ⟨hsome, -⟩ := turn_endsAtOnce store (hkeep k) m hread hl
    · exact hc
    · exact absurd (hnone.symm.trans hsome) (by simp)
  ends k m l c r _ hread hl hr := by
    obtain ⟨hnone, -⟩ | ⟨hsome, hc⟩ := turn_endsAtOnce store (hkeep k) m hread hl
    · exact absurd (hnone.symm.trans hr) (by simp)
    · have hresult : ((calls k).atomic casts parse store m c).1 = r :=
        Option.some.inj (hsome.symm.trans hr)
      exact Prod.ext hresult hc.symm
  settled k m l c hl := by
    have hsame := over_of_outcome casts parse store (calls k) m hl c
    exact ⟨congrArg (fun out => EventPhase.outcome out.1) hsame, congrArg Prod.snd hsame⟩
  env := rfl

end Facts
end Calls
end MsaTuto
