import MsaTuto.AtomicEvents

/-! Soft deletion: an event from its removal to its restoration, whatever other calls have been
under way since before. -/
namespace MsaTuto
open Runs RewardRequestService

abbrev EventWorld (κ : Type*) := World κ EventCollection EventPhase

abbrev EventTurn (κ : Type*) := Turn κ EventMoment Empty

/-- The event as its removal leaves it. -/
def Event.removed (e : Event) (deletedBy : Option String) (now : Int) : Event :=
  { e with
    deletedAt := some now, version := e.version + 1
    deletedBy := if deletedBy.isSome then deletedBy else e.deletedBy }

/-- The event with its removal undone: its version has been raised twice. -/
def Event.restored (e : Event) (restoredBy : Option String) : Event :=
  { e with
    deletedAt := none, deletedBy := none, version := e.version + 2
    updatedBy := if restoredBy.isSome then restoredBy else e.updatedBy }

section Write
variable {store : EventStore} {c : EventCollection} {id id' : String} {filter : Event → Bool}
  {patch : EventPatch} {onNull : Failure} {e e' : Event}

namespace EventService

theorem write_ok (h : (write store c id filter patch onNull).2 = .ok e') :
    ∃ e, c id = some e ∧ filter e = true ∧ e' = patch.apply e ∧
      (write store c id filter patch onNull).1 = Function.update c id (some e') := by
  unfold write at h ⊢
  obtain ⟨e, he, hf, -, hw⟩ | hw | hw := store.findOneAndUpdate_cases c id filter patch
  · rw [hw] at h ⊢
    cases h
    exact ⟨e, he, hf, rfl, rfl⟩
  · rw [hw] at h
    cases h
  · rw [hw] at h
    cases h

/-- A write leaves alone what its filter does not select. -/
theorem write_keeps (he : c id' = some e) (hfilter : id' = id → filter e = false) :
    (write store c id filter patch onNull).1 id' = some e := by
  unfold write
  obtain ⟨e₀, he₀, hf, -, hw⟩ | hw | hw := store.findOneAndUpdate_cases c id filter patch
  · rw [hw]
    have hne : id' ≠ id := by
      rintro rfl
      rw [he] at he₀
      cases he₀
      rw [hfilter rfl] at hf
      cases hf
    simpa [hne] using he
  · rw [hw]
    exact he
  · rw [hw]
    exact he

theorem remove_ok {u : Option String} {now : Int} {answer : Removal}
    (h : (remove store c id u now).2 = .ok answer) :
    ∃ e, c id = some e ∧ e.deletedAt = none ∧
      (remove store c id u now).1 = Function.update c id (some (e.removed u now)) := by
  unfold remove at h ⊢
  generalize hout : write store c id (fun e => e.deletedAt.isNone)
    { deletedAt := some (some now), deletedBy := u.map some }
    (.http .notFound s!"이벤트 ID {id}를 찾을 수 없거나 이미 삭제되었습니다.") = out at h ⊢
  obtain ⟨c', result⟩ := out
  cases result with
  | error f => cases h
  | ok e' =>
    obtain ⟨e, he, hlive, rfl, hw⟩ := write_ok (congrArg Prod.snd hout)
    rw [hout] at hw
    refine ⟨e, he, Option.isNone_iff_eq_none.mp hlive, hw.trans ?_⟩
    cases u <;> rfl

theorem restore_ok {u : Option String} (h : (restore store c id u).2 = .ok e') :
    ∃ e, c id = some e ∧
      e' = { e with
        deletedAt := none, deletedBy := none, updatedBy := if u.isSome then u else e.updatedBy
        version := e.version + 1 } ∧
      (restore store c id u).1 = Function.update c id (some e') := by
  obtain ⟨e, he, -, rfl, hw⟩ := write_ok h
  refine ⟨e, he, ?_, hw⟩
  cases u <;> rfl

end EventService
end Write

section Calls
variable (casts : Mongoose.Casts) (parse : String → JsDate) (store : EventStore)

/-- The call ends in this turn, with the outcome. -/
def EventCall.EndsWith (call : EventCall) (m : EventMoment) (l : EventPhase)
    (c : EventCollection) (outcome : EventOutcome) : Prop :=
  l.outcome = none ∧ (call.act casts parse store m l c).1.outcome = some outcome

/-- Only a reader that asks for deleted events is shown the event. No update of it gets past its
read, and no reward can be requested for it. -/
structure Hidden (c : EventCollection) (id : String) (removed : Event) : Prop where
  notFound : EventService.findOne c id = .error (EventService.unknownEvent id)
  shown : EventService.findOne c id true = .ok removed
  notUpdated : ∀ dto u v, ∃ f, EventService.updateRead parse c id dto u v = .error f
  notSelected : ∀ (ε : Type) (ids : EventIds ε) (v : ε), ids.select c v ≠ some (some id)
  notRequested : ∀ (ε : Type) (ids : EventIds ε) (call : RewardCall ε) (now : Int),
    ids.Names call.eventId id → ∃ f, checkEvent ids c call now = .error f

section Facts
variable {casts parse store} {c : EventCollection} {id : String} {e e' : Event}
  {m : EventMoment} {l : EventPhase} {u : Option String}

theorem hidden_of_deleted (he : c id = some e) (hdeleted : e.deletedAt ≠ none) :
    Hidden parse c id e where
  notFound := by
    simp [EventService.findOne, he, Option.isSome_iff_ne_none.mpr hdeleted]
  shown := by
    simp [EventService.findOne, he]
  notUpdated dto u v := by
    cases h : EventService.updateRead parse c id dto u v with
    | error f => exact ⟨f, rfl⟩
    | ok patch =>
      obtain ⟨e₀, he₀, hlive, -⟩ := updateRead_ok h
      rw [he] at he₀
      cases he₀
      exact absurd hlive hdeleted
  notSelected ε ids v hselect := by
    obtain ⟨-, e₀, he₀, hlive⟩ := EventCollection.live_eq_some.mp (ids.select_live c v id hselect)
    rw [he] at he₀
    cases he₀
    exact hdeleted hlive
  notRequested ε ids call now hid := by
    cases h : checkEvent ids c call now with
    | error f => exact ⟨f, rfl⟩
    | ok p =>
      obtain ⟨event, correlationId⟩ := p
      obtain ⟨found, hselect, hevent, hopen⟩ := openAt_of_checkEvent h
      rw [hid.selected, Option.some.injEq] at hselect
      obtain ⟨rfl, -⟩ := EventCollection.live_eq_some.mp hselect
      rw [he] at hevent
      cases hevent
      exact absurd hopen.1 hdeleted

variable (parse store) in
/-- A turn of a mutation on a deleted event leaves it as it is, a restoration's last one apart. -/
theorem mutation_keeps_deleted (he : c id = some e) (hdeleted : e.deletedAt ≠ none)
    (mutation : Mutation) (now : Int) (l : MutationPhase) :
    (mutation.act parse store now l c).2 id = some e ∨
      (∃ u, mutation = .restore id u) ∧ l = .started ∧
        ∃ e', (mutation.act parse store now l c).1 = .committed e' := by
  cases l with
  | started =>
    cases mutation with
    | update id₀ dto u v =>
      refine .inl ?_
      simp only [Mutation.act]
      split
      · exact he
      · exact he
    | remove id₀ u =>
      refine .inl (EventService.write_keeps he fun _ => ?_)
      simpa using Option.ne_none_iff_isSome.mp hdeleted
    | restore id₀ u =>
      by_cases hid : id = id₀
      · subst hid
        cases hout : (EventService.restore store c id u).2 with
        | ok e' =>
          exact .inr ⟨⟨u, rfl⟩, rfl, e', by simp [Mutation.act, hout, MutationPhase.ofResult]⟩
        | error f =>
          obtain ⟨_, e', -, -, -, ho⟩ | ⟨g, ho⟩ := EventService.restore_spec store c id u
          · rw [ho] at hout
            cases hout
          · exact .inl (by simp [Mutation.act, ho, he])
      · exact .inl (EventService.write_keeps he fun h => absurd h hid)
  | writing patch =>
    cases mutation with
    | update id₀ dto u v =>
      refine .inl (EventService.write_keeps he fun _ => ?_)
      simp [Option.ne_none_iff_isSome.mp hdeleted]
    | remove id₀ u => exact .inl he
    | restore id₀ u => exact .inl he
  | committed e' => cases mutation <;> exact .inl he
  | removed answer => cases mutation <;> exact .inl he
  | raised f => cases mutation <;> exact .inl he

variable (casts parse store) in
theorem act_keeps_deleted {call : EventCall} (hkeep : ∀ id, call ≠ .permanentlyRemove id)
    (he : c id = some e) (hdeleted : e.deletedAt ≠ none) (m : EventMoment) (l : EventPhase) :
    (call.act casts parse store m l c).2 id = some e ∨
      (∃ u, call = .mutate (.restore id u)) ∧
        ∃ e', call.EndsWith casts parse store m l c (.committed e') := by
  cases call with
  | permanentlyRemove id => exact absurd rfl (hkeep id)
  | create dto createdBy =>
    refine .inl ?_
    cases l with
    | started =>
      obtain ⟨f, h⟩ | ⟨id₀, event, hfree, -, h⟩ :=
        EventService.create_cases casts parse c dto createdBy m.newId
      · simpa [EventCall.act, h] using he
      · have hne : id ≠ id₀ := by
          rintro rfl
          rw [he] at hfree
          cases hfree
        simpa [EventCall.act, h, hne] using he
    | _ => exact he
  | mutate mutation =>
    have hturn := mutation_keeps_deleted parse store he hdeleted mutation m.now
    cases l with
    | started =>
      obtain hsame | ⟨⟨u, rfl⟩, -, e', hc⟩ := hturn .started
      · exact .inl hsame
      · exact .inr ⟨⟨u, rfl⟩, e', rfl, by simp [EventCall.act, hc, EventPhase.outcome]⟩
    | mutating phase =>
      obtain hsame | ⟨⟨u, rfl⟩, hphase, e', hc⟩ := hturn phase
      · exact .inl hsame
      · exact .inr ⟨⟨u, rfl⟩, e', by rw [hphase]; rfl, by simp [EventCall.act, hc,
          EventPhase.outcome]⟩
    | _ => exact .inl he

/-- A mutation with a single turn. -/
theorem ends_as_started {mutation : Mutation} {outcome : EventOutcome}
    {out : MutationPhase × EventCollection}
    (hstart : mutation.act parse store m.now .started c = out)
    (hwait : ∀ patch, mutation.act parse store m.now (.writing patch) c = (.writing patch, c))
    (h : (EventCall.mutate mutation).EndsWith casts parse store m l c outcome) :
    (EventPhase.mutating out.1).outcome = some outcome ∧
      ((EventCall.mutate mutation).act casts parse store m l c).2 = out.2 := by
  obtain ⟨hl, hc⟩ := h
  cases l with
  | started =>
    simp only [EventCall.act, hstart] at hc ⊢
    exact ⟨hc, trivial⟩
  | mutating phase =>
    cases phase with
    | started =>
      simp only [EventCall.act, hstart] at hc ⊢
      exact ⟨hc, trivial⟩
    | writing patch =>
      simp only [EventCall.act, hwait] at hc
      cases hc
    | committed e => cases hl
    | removed answer => cases hl
    | raised f => cases hl
  | _ => cases hl

theorem remove_ends {answer : EventService.Removal}
    (h : (EventCall.mutate (.remove id u)).EndsWith casts parse store m l c (.removed answer)) :
    ∃ e, c id = some e ∧ e.deletedAt = none ∧
      ((EventCall.mutate (.remove id u)).act casts parse store m l c).2 =
        Function.update c id (some (e.removed u m.now)) := by
  have hstart : (Mutation.remove id u).act parse store m.now .started c =
      (.ofRemoval (EventService.remove store c id u m.now).2,
        (EventService.remove store c id u m.now).1) := rfl
  obtain ⟨hout, hc⟩ := ends_as_started hstart (fun _ => rfl) h
  cases hok : (EventService.remove store c id u m.now).2 with
  | ok answer =>
    obtain ⟨e, he, hlive, hw⟩ := EventService.remove_ok hok
    exact ⟨e, he, hlive, hc.trans hw⟩
  | error f =>
    rw [outcome_ofRemoval, hok] at hout
    cases hout

theorem restore_ends
    (h : (EventCall.mutate (.restore id u)).EndsWith casts parse store m l c (.committed e')) :
    ∃ e, c id = some e ∧
      e' = { e with
        deletedAt := none, deletedBy := none, updatedBy := if u.isSome then u else e.updatedBy
        version := e.version + 1 } ∧
      ((EventCall.mutate (.restore id u)).act casts parse store m l c).2 =
        Function.update c id (some e') := by
  have hstart : (Mutation.restore id u).act parse store m.now .started c =
      (.ofResult (EventService.restore store c id u).2,
        (EventService.restore store c id u).1) := rfl
  obtain ⟨hout, hc⟩ := ends_as_started hstart (fun _ => rfl) h
  cases hok : (EventService.restore store c id u).2 with
  | ok e₁ =>
    rw [outcome_ofResult, hok] at hout
    cases hout
    obtain ⟨e, he, hrestored, hw⟩ := EventService.restore_ok hok
    exact ⟨e, he, hrestored, hc.trans hw⟩
  | error f =>
    rw [outcome_ofResult, hok] at hout
    cases hout

end Facts
end Calls

section Runs
variable {κ : Type*} [DecidableEq κ] (casts : Mongoose.Casts) (parse : String → JsDate)
  (store : EventStore) (calls : κ → EventCall) (id : String)

def Restores (w : EventWorld κ) : EventTurn κ → Prop
  | .call k m => (∃ u, calls k = .mutate (.restore id u)) ∧
      ∃ e', (calls k).EndsWith casts parse store m (w.calls k) w.shared (.committed e')
  | .env _ => False

variable {casts parse store calls id} {e : Event}

theorem deleted_until_restored (hkeep : KeepsDocuments calls) (hdeleted : e.deletedAt ≠ none)
    {w : EventWorld κ} (he : w.shared id = some e) {turns : List (EventTurn κ)}
    (hquiet : Along (eventCalls casts parse store calls).step
      (fun w t => ¬Restores casts parse store calls id w t) w turns) :
    Always (eventCalls casts parse store calls).step (fun w => w.shared id = some e) w turns := by
  refine always_of_step (fun w t he ht => ?_) he hquiet
  cases t with
  | env e => exact e.elim
  | call k m =>
    obtain hsame | hrestores := act_keeps_deleted casts parse store (hkeep k) he hdeleted
      m (w.calls k)
    · exact hsame
    · exact absurd hrestores ht

/-- A removal that commits, in whatever state, hides the event for as long as no restoration of it
commits, and nothing that goes on meanwhile touches it; a restoration that then commits brings it
back as it was before the removal. -/
theorem restore_undoes_remove (casts : Mongoose.Casts) (parse : String → JsDate)
    (store : EventStore) (hkeep : KeepsDocuments calls) (w : EventWorld κ) (k : κ)
    (m : EventMoment) {u : Option String} {answer : EventService.Removal}
    (turns : List (EventTurn κ)) (hk : calls k = .mutate (.remove id u))
    (hremoved : (calls k).EndsWith casts parse store m (w.calls k) w.shared (.removed answer))
    (hquiet : Along (eventCalls casts parse store calls).step
      (fun w t => ¬Restores casts parse store calls id w t)
      ((eventCalls casts parse store calls).step w (.call k m)) turns) :
    ∃ e, w.shared id = some e ∧ e.deletedAt = none ∧
      Always (eventCalls casts parse store calls).step
        (fun w => Hidden parse w.shared id (e.removed u m.now))
        ((eventCalls casts parse store calls).step w (.call k m)) turns ∧
      ∀ k' m' u' restored, calls k' = .mutate (.restore id u') →
        (calls k').EndsWith casts parse store m'
          ((run (eventCalls casts parse store calls).step w (.call k m :: turns)).calls k')
          (run (eventCalls casts parse store calls).step w (.call k m :: turns)).shared
          (.committed restored) →
        restored = e.restored u' ∧
        (run (eventCalls casts parse store calls).step w
          (.call k m :: turns ++ [.call k' m'])).shared id = some (e.restored u') := by
  rw [hk] at hremoved
  obtain ⟨e, he, hlive, hafter⟩ := remove_ends hremoved
  have hstored : ((eventCalls casts parse store calls).step w (.call k m)).shared id =
      some (e.removed u m.now) := by
    simp only [step_call_shared, eventCalls, hk, hafter, Function.update_self]
  have hdeleted : (e.removed u m.now).deletedAt ≠ none := by
    simp [Event.removed]
  have hkept := deleted_until_restored hkeep hdeleted hstored hquiet
  refine ⟨e, he, hlive, hkept.mono fun _ h => hidden_of_deleted h hdeleted, ?_⟩
  intro k' m' u' restored hk' hrestored
  rw [hk'] at hrestored
  obtain ⟨e₁, he₁, hrestoration, hlast⟩ := restore_ends hrestored
  have hsame : e₁ = e.removed u m.now := Option.some.inj (he₁.symm.trans hkept.last)
  have hresult : restored = e.restored u' := by
    rw [hrestoration, hsame]
    simp only [Event.restored, Event.removed]
    congr 1
    omega
  refine ⟨hresult, ?_⟩
  rw [run_append, ← hresult]
  simp only [run, step_call_shared, eventCalls, hk'] at hlast ⊢
  rw [hlast, Function.update_self]

end Runs

section Sample

/-- An operator removes the event while another's update of it is under way, and restores it. -/
def removesAndRestores : Option Bool → EventCall
  | some false => .mutate (.remove "e1" (some "op"))
  | some true => .mutate (.restore "e1" (some "boss"))
  | none => .mutate (.update "e1" { name := some (some "b") } (some "op2") 0)

theorem removesAndRestores_keep : KeepsDocuments removesAndRestores := by
  intro k id h
  cases k with
  | none => cases h
  | some k => cases k <;> cases h

def removalPool : Pool (Option Bool) EventMoment Empty EventCollection EventPhase :=
  eventCalls .plain (fun _ => none) .strict removesAndRestores

/-- The update has read the event. -/
def updateUnderWay : EventWorld (Option Bool) :=
  removalPool.step (eventStart fun id => if id = "e1" then some sampleEvent else none)
    (.call none ⟨4, ""⟩)

theorem restore_undoes_remove_sample :
    Always removalPool.step
      (fun w => Hidden (fun _ => none) w.shared "e1" (sampleEvent.removed (some "op") 5))
      (removalPool.step updateUnderWay (.call (some false) ⟨5, ""⟩)) [.call none ⟨6, ""⟩] ∧
    (run removalPool.step updateUnderWay (.call (some false) ⟨5, ""⟩ :: [.call none ⟨6, ""⟩] ++
      [.call (some true) ⟨7, ""⟩])).shared "e1" = some (sampleEvent.restored (some "boss")) := by
  obtain ⟨e, he, -, hhidden, hback⟩ := restore_undoes_remove .plain (fun _ => none)
    .strict removesAndRestores_keep updateUnderWay (some false) ⟨5, ""⟩ [.call none ⟨6, ""⟩]
    (rfl : removesAndRestores (some false) = .mutate (.remove "e1" (some "op")))
    ⟨rfl, rfl⟩ ⟨(fun ⟨⟨_, h⟩, _⟩ => by cases h), trivial⟩
  cases he
  exact ⟨hhidden, (hback (some true) ⟨7, ""⟩ (some "boss") _ rfl ⟨rfl, rfl⟩).2⟩

end Sample
end MsaTuto
