import MsaTuto.EventMutations
import MsaTuto.EventSchema

/-! The whole life of an event (`create`, the mutations, `permanentlyRemove`), and what
keeps its start before its end. -/
namespace MsaTuto
open Runs

namespace EventService

def insertEvent (c : EventCollection) (id : String) (event : Event) :
    EventCollection × Except Failure Event :=
  match c id with
  | some _ => (c, .error storeError)
  | none => (Function.update c id (some event), .ok event)

def create (casts : Mongoose.Casts) (parse : String → JsDate) (c : EventCollection)
    (dto : CreateEventDto) (createdBy : Option String) (newId : String) :
    EventCollection × Except Failure Event :=
  match createdEventObject (dateOf parse) (createdBy.map .str) dto.body with
  | none => (c, .error (.http .badRequest datesMessage))
  | some obj =>
    match createdEvent casts newId obj with
    | .error f => (c, .error f)
    | .ok (id, event) => insertEvent c id event

/-- All that `create` can do: an error, or a new event as the body and the caller describe it. -/
theorem create_cases (casts : Mongoose.Casts) (parse : String → JsDate) (c : EventCollection)
    (dto : CreateEventDto) (createdBy : Option String) (newId : String) :
    (∃ f, create casts parse c dto createdBy newId = (c, .error f)) ∨
    ∃ id event, c id = none ∧ Describes casts parse dto createdBy event ∧
      create casts parse c dto createdBy newId =
        (Function.update c id (some event), .ok event) := by
  unfold create
  split
  · exact .inl ⟨_, rfl⟩
  next obj hobj =>
    split
    next f hf => exact .inl ⟨f, rfl⟩
    next id event hevent =>
      unfold insertEvent
      split
      · exact .inl ⟨_, rfl⟩
      next hfree => exact .inr ⟨id, event, hfree, describes_of_createdEvent hobj hevent, rfl⟩

def permanentlyRemove (c : EventCollection) (id : String) :
    EventCollection × Except Failure Removal :=
  match c id with
  | some _ => (Function.update c id none, .ok { id := id })
  | none => (c, .error (unknownEvent id))

end EventService

inductive EventCall where
  | create (dto : CreateEventDto) (createdBy : Option String)
  | mutate (mutation : Mutation)
  | permanentlyRemove (id : String)

inductive EventPhase where
  | started
  | mutating (phase : MutationPhase)
  | created (event : Event)
  | removed (answer : EventService.Removal)
  | raised (failure : Failure)

/-- The clock, and the id of a document that is new. -/
structure EventMoment where
  now : Int
  newId : String

namespace EventPhase

def ofCreate : Except Failure Event → EventPhase
  | .ok event => .created event
  | .error f => .raised f

def ofRemove : Except Failure EventService.Removal → EventPhase
  | .ok answer => .removed answer
  | .error f => .raised f

end EventPhase

section Calls
variable (casts : Mongoose.Casts) (parse : String → JsDate) (store : EventStore)

def EventCall.act (m : EventMoment) : EventCall → EventPhase → EventCollection →
    EventPhase × EventCollection
  | .create dto createdBy, .started, c =>
    (.ofCreate (EventService.create casts parse c dto createdBy m.newId).2,
      (EventService.create casts parse c dto createdBy m.newId).1)
  | .mutate mutation, .started, c =>
    (.mutating (mutation.act parse store m.now .started c).1,
      (mutation.act parse store m.now .started c).2)
  | .mutate mutation, .mutating l, c =>
    (.mutating (mutation.act parse store m.now l c).1, (mutation.act parse store m.now l c).2)
  | .permanentlyRemove id, .started, c =>
    (.ofRemove (EventService.permanentlyRemove c id).2, (EventService.permanentlyRemove c id).1)
  | _, l, c => (l, c)

def eventCalls {κ : Type*} (calls : κ → EventCall) :
    Pool κ EventMoment Empty EventCollection EventPhase where
  act k m l c := (calls k).act casts parse store m l c
  env e _ := e.elim

end Calls

def emptyCollection : EventCollection := fun _ => none

def eventStart {κ : Type*} (c : EventCollection) : World κ EventCollection EventPhase :=
  ⟨c, fun _ => .started⟩

def Event.EndsAfterStart (e : Event) : Prop := e.startDate < e.endDate

def DatesOrdered (c : EventCollection) : Prop := ∀ id e, c id = some e → e.EndsAfterStart

/-- Where the patch can be applied at all, it leaves an event in order. -/
def EventPatch.KeepsOrder (p : EventPatch) : Prop :=
  p.castable = true → ∀ e : Event, e.EndsAfterStart → (p.apply e).EndsAfterStart

/-- The update document waiting to be written keeps the order of whatever it meets. -/
def PatchFits (l : EventPhase) : Prop :=
  match l with
  | .mutating (.writing patch) => patch.KeepsOrder
  | _ => True

section Order
variable {casts : Mongoose.Casts} {parse : String → JsDate} {store : EventStore}
  {c : EventCollection} {id : String}

theorem DatesOrdered.update (hc : DatesOrdered c) {e : Event} (he : e.EndsAfterStart) :
    DatesOrdered (Function.update c id (some e)) := by
  intro id' e' h
  by_cases hid : id' = id
  · subst hid
    rw [Function.update_self] at h
    cases h
    exact he
  · rw [Function.update_of_ne hid] at h
    exact hc id' e' h

theorem DatesOrdered.delete (hc : DatesOrdered c) : DatesOrdered (Function.update c id none) := by
  intro id' e' h
  by_cases hid : id' = id
  · subst hid
    simp at h
  · rw [Function.update_of_ne hid] at h
    exact hc id' e' h

/-- The comparison is false on an invalid date too, and then the cast refuses. -/
theorem lt_of_not_ge {a b : Int} (h : JsDate.ge (some a) (some b) = false) : a < b := by
  simp only [JsDate.ge, decide_eq_false_iff_not] at h
  omega

theorem keepsOrder_of_merged {p : EventPatch} {startDate endDate : JsDate}
    (hs : p.startDate = some startDate) (he : p.endDate = some endDate)
    (hge : JsDate.ge startDate endDate = false) : p.KeepsOrder := by
  intro hcast e _
  cases startDate with
  | none => simp [EventPatch.castable, hs] at hcast
  | some a =>
    cases endDate with
    | none => simp [EventPatch.castable, he] at hcast
    | some b =>
      have hlt := lt_of_not_ge hge
      simpa [Event.EndsAfterStart, EventPatch.apply, hs, he] using hlt

theorem keepsOrder_of_no_dates {p : EventPatch} (hs : p.startDate = none) (he : p.endDate = none) :
    p.KeepsOrder := by
  intro _ e h
  simpa [Event.EndsAfterStart, EventPatch.apply, hs, he] using h

/-- An update writes both dates, the two that it has compared. -/
theorem updateRead_keepsOrder {dto : UpdateEventDto} {u : Option String} {v : Rat}
    {patch : EventPatch} (h : EventService.updateRead parse c id dto u v = .ok patch) :
    patch.KeepsOrder := by
  simp only [EventService.updateRead] at h
  split at h
  · cases h
  · split at h
    · cases h
    next hge =>
      split at h
      · cases h
      · cases h
        exact keepsOrder_of_merged rfl rfl (by simpa using hge)

theorem write_ordered {filter : Event → Bool} {patch : EventPatch} {onNull : Failure}
    (hc : DatesOrdered c) (hp : patch.KeepsOrder) :
    DatesOrdered (EventService.write store c id filter patch onNull).1 := by
  unfold EventService.write
  obtain ⟨e, he, -, hcast, h⟩ | h | h := store.findOneAndUpdate_cases c id filter patch
  · rw [h]
    exact hc.update (hp hcast e (hc id e he))
  · rw [h]
    exact hc
  · rw [h]
    exact hc

theorem create_ordered (hc : DatesOrdered c) (dto : CreateEventDto) (createdBy : Option String)
    (newId : String) : DatesOrdered (EventService.create casts parse c dto createdBy newId).1 := by
  obtain ⟨f, h⟩ | ⟨id, event, -, hevent, h⟩ :=
    EventService.create_cases casts parse c dto createdBy newId
  · rw [h]
    exact hc
  · rw [h]
    exact hc.update hevent.ordered

theorem permanentlyRemove_ordered (hc : DatesOrdered c) (id : String) :
    DatesOrdered (EventService.permanentlyRemove c id).1 := by
  simp only [EventService.permanentlyRemove]
  split
  · exact hc.delete
  · exact hc

theorem ofResult_fits (out : Except Failure Event) :
    PatchFits (.mutating (MutationPhase.ofResult out)) := by
  cases out <;> trivial

theorem ofRemoval_fits (out : Except Failure EventService.Removal) :
    PatchFits (.mutating (MutationPhase.ofRemoval out)) := by
  cases out <;> trivial

theorem mutation_ordered (mutation : Mutation) (now : Int) {l : MutationPhase}
    (hc : DatesOrdered c) (hl : PatchFits (.mutating l)) :
    DatesOrdered (mutation.act parse store now l c).2 ∧
      PatchFits (.mutating (mutation.act parse store now l c).1) := by
  have hdates : ∀ p : EventPatch, p.startDate = none → p.endDate = none → p.KeepsOrder :=
    fun _ => keepsOrder_of_no_dates
  cases l with
  | started =>
    cases mutation with
    | update id dto u v =>
      simp only [Mutation.act]
      split
      next patch hread => exact ⟨hc, updateRead_keepsOrder hread⟩
      next => exact ⟨hc, trivial⟩
    | remove id u => exact ⟨write_ordered hc (hdates _ rfl rfl), ofRemoval_fits _⟩
    | restore id u => exact ⟨write_ordered hc (hdates _ rfl rfl), ofResult_fits _⟩
  | writing patch =>
    cases mutation with
    | update id dto u v => exact ⟨write_ordered hc hl, ofResult_fits _⟩
    | remove id u => exact ⟨hc, hl⟩
    | restore id u => exact ⟨hc, hl⟩
  | committed e => cases mutation <;> exact ⟨hc, trivial⟩
  | removed answer => cases mutation <;> exact ⟨hc, trivial⟩
  | raised f => cases mutation <;> exact ⟨hc, trivial⟩

theorem call_ordered (call : EventCall) (m : EventMoment) {l : EventPhase} (hc : DatesOrdered c)
    (hl : PatchFits l) :
    DatesOrdered (call.act casts parse store m l c).2 ∧
      PatchFits (call.act casts parse store m l c).1 := by
  cases call with
  | create dto createdBy =>
    cases l with
    | started =>
      refine ⟨create_ordered hc dto createdBy m.newId, ?_⟩
      simp only [EventCall.act]
      cases (EventService.create casts parse c dto createdBy m.newId).2 <;> trivial
    | _ => exact ⟨hc, hl⟩
  | mutate mutation =>
    cases l with
    | started => exact mutation_ordered mutation m.now hc trivial
    | mutating l => exact mutation_ordered mutation m.now hc hl
    | _ => exact ⟨hc, hl⟩
  | permanentlyRemove id =>
    cases l with
    | started =>
      refine ⟨permanentlyRemove_ordered hc id, ?_⟩
      simp only [EventCall.act]
      cases (EventService.permanentlyRemove c id).2 <;> trivial
    | _ => exact ⟨hc, hl⟩

end Order

section Interleavings
variable {κ : Type*} (casts : Mongoose.Casts) (parse : String → JsDate) (store : EventStore)
  (calls : κ → EventCall)

theorem dates_stable : Stable (eventCalls casts parse store calls) (fun _ _ => True) DatesOrdered
    (fun _ l _ => PatchFits l) where
  own _ k m _ hc hl := call_ordered (calls k) m hc hl
  other _ _ _ _ _ _ _ _ hl' := hl'
  env _ e := e.elim

variable [DecidableEq κ]

/-- From a collection in order, whatever is created, updated, removed and restored in
whatever interleaving, every event of every state reached ends after it starts. -/
theorem dates_always_ordered {c : EventCollection} (hc : DatesOrdered c)
    (turns : List (Turn κ EventMoment Empty)) :
    Always (eventCalls casts parse store calls).step (fun w => DatesOrdered w.shared)
      (eventStart c) turns := by
  have hstart : Holds DatesOrdered (fun (_ : κ) l (_ : EventCollection) => PatchFits l)
      (eventStart c) := ⟨hc, fun _ => trivial⟩
  exact ((dates_stable casts parse store calls).always hstart
    (along_of_forall (fun _ _ => trivial) _ _)).mono fun _ hw => hw.1

theorem events_end_after_start (turns : List (Turn κ EventMoment Empty)) :
    Always (eventCalls casts parse store calls).step (fun w => DatesOrdered w.shared)
      (eventStart emptyCollection) turns :=
  dates_always_ordered casts parse store calls (fun _ _ h => by cases h) turns

end Interleavings
end MsaTuto
