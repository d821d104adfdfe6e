import MsaTuto.RewardConsumer

/-! Calls racing for one user and one event: how many requests get stored, who
creates them, and how the others end. -/
namespace MsaTuto
open Js Runs RewardRequestService

namespace RewardRequestService
variable {ε : Type} {co : Coercions} {ids : EventIds ε} {call : RewardCall ε} {m : Moment}
  {l : RewardPhase} {s : ConsumerState} {eventId : String}

def OpenAt (now : Int) (e : Event) : Prop :=
  e.deletedAt = none ∧ e.status = some .ACTIVE ∧ e.startDate ≤ now ∧ now ≤ e.endDate

/-- There is a message id to be read, and it has a text. -/
structure WellFormed (co : Coercions) (metadata : Value) : Prop where
  given : nullish metadata = false
  printed : (co.toStr (optGet metadata "messageId")).isSome = true

theorem WellFormed.read {metadata : Value} (h : WellFormed co metadata) :
    readCorrelationId metadata = .ok (optGet metadata "messageId") := by
  simp [readCorrelationId, Js.get, h.given]

theorem WellFormed.key (hmeta : WellFormed co call.metadata)
    (hid : ids.Names call.eventId eventId) {correlationId : Value}
    (hread : readCorrelationId call.metadata = .ok correlationId) :
    idempotencyKey co ids.text call correlationId ≠ none := by
  obtain rfl : optGet call.metadata "messageId" = correlationId :=
    Except.ok.inj (hmeta.read.symm.trans hread)
  obtain ⟨text, htext⟩ := Option.isSome_iff_exists.mp hid.printed
  obtain ⟨messageId, hmessageId⟩ := Option.isSome_iff_exists.mp hmeta.printed
  simp [idempotencyKey, htext, hmessageId]

/-- The checks of a call whose event is stored. -/
theorem checkEvent_eq {events : EventCollection} {e : Event} {correlationId : Value}
    (he : ids.Names call.eventId eventId) (hevent : events eventId = some e)
    (hdeleted : e.deletedAt = none)
    (hread : readCorrelationId call.metadata = .ok correlationId) (now : Int) :
    checkEvent ids events call now =
      if e.status ≠ some .ACTIVE then .error (.http .badRequest inactiveMessage)
      else if now < e.startDate ∨ e.endDate < now then .error (.http .badRequest periodMessage)
      else .ok (e, correlationId) := by
  have hlive : events.live eventId = some eventId :=
    EventCollection.live_eq_some.mpr ⟨rfl, e, hevent, hdeleted⟩
  have hfind : findEvent ids events call.eventId = .ok e := by
    simp [findEvent, he.selected, hlive, EventService.findOne, hevent, hdeleted]
  simp only [checkEvent, hread, hfind]

theorem checkEvent_of_openAt {events : EventCollection} {e : Event} {now : Int}
    {correlationId : Value} (he : ids.Names call.eventId eventId)
    (hevent : events eventId = some e) (hopen : OpenAt now e)
    (hread : readCorrelationId call.metadata = .ok correlationId) :
    checkEvent ids events call now = .ok (e, correlationId) := by
  obtain ⟨hd, hst, h1, h2⟩ := hopen
  rw [checkEvent_eq he hevent hd hread]
  simp [hst, h1, h2]

theorem openAt_of_checkEvent {events : EventCollection} {now : Int} {e : Event}
    {correlationId : Value} (h : checkEvent ids events call now = .ok (e, correlationId)) :
    ∃ found, ids.select events call.eventId = some (some found) ∧ events found = some e ∧
      OpenAt now e := by
  simp only [checkEvent] at h
  split at h
  · cases h
  · split at h
    · cases h
    next event hfind =>
      obtain ⟨found, hselect, hevent, hdeleted⟩ := findEvent_eq_ok hfind
      by_cases hstatus : event.status = some .ACTIVE
      · by_cases hperiod : now < event.startDate ∨ event.endDate < now
        · simp [hstatus, hperiod] at h
        · simp only [hstatus, ne_eq, not_true_eq_false, if_false, hperiod] at h
          cases h
          exact ⟨found, hselect, hevent, hdeleted, hstatus, by omega, by omega⟩
      · simp [hstatus] at h

theorem raised_turn {f : Failure} (hid : ids.Names call.eventId eventId)
    (hmeta : WellFormed co call.metadata) (hfits : Fits ids call l s)
    (hcheck : l = .started → ∃ p, checkEvent ids s.events call m.now = .ok p)
    (h : (createEventRewardRequest co ids call m l s).1 = .raised f) :
    l = .raised f ∨
    (f = .http .badRequest duplicateMessage ∧
      (s.requests.findOne call.userId eventId).isSome) ∨
    (∃ doc, l = .saving doc ∧ f = internalError ∧
      (call.userId = "" ∨ (s.requests.findOne call.userId eventId).isSome)) := by
  have hstep := turn_step co ids call m l s
  rw [h] at hstep
  generalize (createEventRewardRequest co ids call m l s).2 = s' at hstep
  cases hstep with
  | stays hl => exact .inl rfl
  | refuses hrefused =>
    obtain ⟨p, hp⟩ := hcheck rfl
    rw [hrefused] at hp
    cases hp
  | unprintable event correlationId hkey => exact absurd hkey (hmeta.key hid hfits)
  | uncast event hl hnone =>
    rw [hid.cast] at hnone
    cases hnone
  | duplicates event hr =>
    rw [stored, hid.cast] at hr
    exact .inr (.inl ⟨rfl, Option.isSome_iff_exists.mpr ⟨_, hr⟩⟩)
  | unsaved doc hwhy =>
    obtain ⟨hu, hev⟩ := hfits
    have hpair : doc.eventId = eventId := Option.some.inj (hev.symm.trans hid.cast)
    rw [hu, hpair, ← Option.isSome_iff_ne_none] at hwhy
    exact .inr (.inr ⟨doc, rfl, rfl, hwhy⟩)

theorem save_refused (co : Coercions) (m : Moment) {doc : RewardRequest}
    (hid : ids.objectId call.eventId = some eventId)
    (hfits : Fits ids call (.saving doc) s)
    (h : s.requests.findOne call.userId eventId ≠ none) :
    (createEventRewardRequest co ids call m (.saving doc) s).1 = .raised internalError := by
  obtain ⟨hu, hev⟩ := hfits
  have hpair : doc.eventId = eventId := Option.some.inj (hev.symm.trans hid)
  simp only [createEventRewardRequest]
  obtain ⟨-, hnone, -⟩ | ⟨-, name, hs⟩ := s.requests.save_cases (doc.stamped m.now)
  · exact absurd (by simpa [hu, hpair] using hnone) h
  · rw [hs]
    rfl

end RewardRequestService

section Race
variable {κ : Type*} (co : Coercions) (objectId : String → Option String) (call : κ → RewardCall)
  (userId eventId : String)

/-- The call is one for the pair; its event id may be spelled in any way that casts to it. -/
def OnPair (k : κ) : Prop :=
  (call k).userId = userId ∧ objectId (call k).eventId = some eventId

/-- The metadata of the calls for the pair are well formed. -/
def Readable (co : Coercions) (objectId : String → Option String) (call : κ → RewardCall)
    (userId eventId : String) : Prop :=
  ∀ k, OnPair objectId call userId eventId k → WellFormed co (call k).metadata

/-- Whenever a call for the pair reads the event, it is active and in its period. -/
def ReadsOpen (w : World κ ConsumerState RewardPhase) : Turn κ Moment ConsumerEnv → Prop
  | .call k m => OnPair objectId call userId eventId k → w.calls k = .started →
      ∃ e, w.shared.events eventId = some e ∧ OpenAt m.now e
  | .env _ => True

/-- A call for the pair that comes to save finds no request of the pair stored. -/
def SavesFirst (w : World κ ConsumerState RewardPhase) : Turn κ Moment ConsumerEnv → Prop
  | .call k _ => OnPair objectId call userId eventId k → ∀ doc, w.calls k = .saving doc →
      w.shared.requests.findOne userId eventId = none
  | .env _ => True

/-- One request for the pair at most, with exactly one creator, and every other call that has
ended returned it or was refused with a BadRequestException because of it. -/
structure OneRequest (w : World κ ConsumerState RewardPhase) : Prop where
  atMostOne : ∀ r ∈ w.shared.requests.items, ∀ r' ∈ w.shared.requests.items,
    r.userId = userId → r.eventId = eventId → r'.userId = userId → r'.eventId = eventId → r = r'
  oneCreator : ∀ r, w.shared.requests.findOne userId eventId = some r →
    ∃! k, OnPair objectId call userId eventId k ∧ w.calls k = .created r
  created : ∀ k r, OnPair objectId call userId eventId k → w.calls k = .created r →
    w.shared.requests.findOne userId eventId = some r
  returned : ∀ k r, OnPair objectId call userId eventId k → w.calls k = .returned r →
    w.shared.requests.findOne userId eventId = some r
  refused : ∀ k f, OnPair objectId call userId eventId k → w.calls k = .raised f →
    f.isBadRequest = true ∧ (w.shared.requests.findOne userId eventId).isSome

/-- What holds in any case: a call may also have been turned away with the wrong exception. -/
structure RaceInvariant (w : World κ ConsumerState RewardPhase) : Prop where
  fits : ∀ k, Fits objectId (call k) (w.calls k) w.shared
  oneCreator : ∀ r, w.shared.requests.findOne userId eventId = some r →
    ∃! k, OnPair objectId call userId eventId k ∧ w.calls k = .created r
  ended : ∀ k f, OnPair objectId call userId eventId k → w.calls k = .raised f →
    (w.shared.requests.findOne userId eventId).isSome

variable {co objectId call userId eventId} {w : World κ ConsumerState RewardPhase}

theorem OnPair.names {k : κ} (hk : OnPair objectId call userId eventId k) :
    (EventIds.ofText objectId).Names (call k).eventId eventId :=
  EventIds.names_ofText hk.2

theorem stored_of_onPair {k : κ} (hk : OnPair objectId call userId eventId k)
    (requests : RequestCollection) :
    stored objectId requests (call k) = requests.findOne userId eventId := by
  rw [stored, hk.1, EventIds.ofText_objectId, hk.2]
  rfl

theorem RaceInvariant.oneRequest (h : RaceInvariant objectId call userId eventId w)
    (hclean : ∀ k f, OnPair objectId call userId eventId k → w.calls k = .raised f →
      f.isBadRequest = true) : OneRequest objectId call userId eventId w where
  atMostOne := by
    rintro r hr r' hr' rfl rfl hu he
    have h1 := RequestCollection.findOne_of_mem hr
    have h2 := RequestCollection.findOne_of_mem hr'
    rw [hu, he, h1] at h2
    exact Option.some.inj h2
  oneCreator := h.oneCreator
  created k r hk hl := by
    have hf := h.fits k
    rw [hl] at hf
    rw [← stored_of_onPair hk]
    exact hf
  returned k r hk hl := by
    have hf := h.fits k
    rw [hl] at hf
    rw [← stored_of_onPair hk]
    exact hf
  refused k f hk hl := ⟨hclean k f hk hl, h.ended k f hk hl⟩

theorem raised_step {k : κ} {m : Moment} {f : Failure}
    (hread : Readable co objectId call userId eventId)
    (h : RaceInvariant objectId call userId eventId w)
    (hopen : ReadsOpen objectId call userId eventId w (.call k m))
    (hk : OnPair objectId call userId eventId k)
    (hf : (createEventRewardRequest co objectId (call k) m (w.calls k) w.shared).1 = .raised f) :
    w.calls k = .raised f ∨
    (f = .http .badRequest duplicateMessage ∧
      (w.shared.requests.findOne userId eventId).isSome) ∨
    (∃ doc, w.calls k = .saving doc ∧ f = internalError ∧
      (userId = "" ∨ (w.shared.requests.findOne userId eventId).isSome)) := by
  have hraise := raised_turn hk.names (hread k hk) (h.fits k) (fun hstart => by
    obtain ⟨e, he, hopen⟩ := hopen hk hstart
    exact ⟨_, checkEvent_of_openAt hk.names he hopen (hread k hk).read⟩) hf
  rwa [hk.1] at hraise

theorem raceInvariant_start {s : ConsumerState}
    (hnone : s.requests.findOne userId eventId = none) :
    RaceInvariant objectId call userId eventId (consumerStart (κ := κ) s) where
  fits _ := trivial
  oneCreator r hr := by
    change s.requests.findOne userId eventId = some r at hr
    rw [hnone] at hr
    cases hr
  ended k f _ hf := by cases hf

variable [DecidableEq κ]

theorem created_quiet {k : κ} {m : Moment}
    (hq : ∀ r, (createEventRewardRequest co objectId (call k) m (w.calls k) w.shared).1 =
      .created r → w.calls k = .created r) (k' : κ) (r : RewardRequest) :
    ((consumer co objectId call).step w (.call k m)).calls k' = .created r ↔
      w.calls k' = .created r := by
  by_cases hk : k' = k
  · subst hk
    rw [step_call_self]
    refine ⟨hq r, fun h => ?_⟩
    rw [h]
    rfl
  · rw [step_call_other _ _ hk]

theorem creator_of_save {k : κ} {m : Moment} {doc : RewardRequest}
    (h : RaceInvariant objectId call userId eventId w) (hl : w.calls k = .saving doc)
    (hnone : w.shared.requests.findOne userId eventId = none)
    (hp : doc.userId = userId ∧ doc.eventId = eventId)
    (hcreated : ((consumer co objectId call).step w (.call k m)).calls k =
      .created (doc.stamped m.now)) :
    ∃! k', OnPair objectId call userId eventId k' ∧
      ((consumer co objectId call).step w (.call k m)).calls k' =
        .created (doc.stamped m.now) := by
  have hfit := h.fits k
  rw [hl] at hfit
  have hpair : OnPair objectId call userId eventId k :=
    ⟨hfit.1.symm.trans hp.1, hfit.2.trans (congrArg some hp.2)⟩
  refine ⟨k, ⟨hpair, hcreated⟩, ?_⟩
  intro k' ⟨hk', hc⟩
  by_contra hne
  rw [step_call_other _ _ hne] at hc
  have hstored := h.fits k'
  rw [hc] at hstored
  have hsome : w.shared.requests.findOne userId eventId = some (doc.stamped m.now) :=
    (stored_of_onPair hk' _).symm.trans hstored
  rw [hnone] at hsome
  cases hsome

theorem creator_beside_save {k : κ} {m : Moment} {doc r : RewardRequest}
    (h : RaceInvariant objectId call userId eventId w) (hl : w.calls k = .saving doc)
    (hp : ¬(doc.userId = userId ∧ doc.eventId = eventId))
    (hr : w.shared.requests.findOne userId eventId = some r) :
    ∃! k', OnPair objectId call userId eventId k' ∧
      ((consumer co objectId call).step w (.call k m)).calls k' = .created r := by
  have hfit := h.fits k
  rw [hl] at hfit
  have hother : ∀ k', OnPair objectId call userId eventId k' → k' ≠ k := by
    intro k' ⟨hu, he⟩ hk
    subst hk
    exact hp ⟨hfit.1.trans hu, Option.some.inj (hfit.2.symm.trans he)⟩
  obtain ⟨k₀, ⟨hk₀, hc⟩, huniq⟩ := h.oneCreator r hr
  refine ⟨k₀, ⟨hk₀, by rwa [step_call_other _ _ (hother k₀ hk₀)]⟩, ?_⟩
  intro k' ⟨hk', hc'⟩
  rw [step_call_other _ _ (hother k' hk')] at hc'
  exact huniq k' ⟨hk', hc'⟩

theorem oneCreator_step (h : RaceInvariant objectId call userId eventId w)
    (t : Turn κ Moment ConsumerEnv) (r : RewardRequest)
    (hr : ((consumer co objectId call).step w t).shared.requests.findOne userId eventId = some r) :
    ∃! k, OnPair objectId call userId eventId k ∧
      ((consumer co objectId call).step w t).calls k = .created r := by
  cases t with
  | env e =>
    rw [step_env_shared, env_requests] at hr
    exact h.oneCreator r hr
  | call k m =>
    change (createEventRewardRequest co objectId (call k) m (w.calls k)
      w.shared).2.requests.findOne userId eventId = some r at hr
    obtain ⟨hs, hq⟩ | ⟨doc, hnone, hl, -, hs⟩ :=
      turn_cases co objectId (call k) m (w.calls k) w.shared
    · rw [hs] at hr
      simpa only [created_quiet hq] using h.oneCreator r hr
    · rw [hs, RequestCollection.findOne_insert] at hr
      by_cases hp : doc.userId = userId ∧ doc.eventId = eventId
      · have hdoc : doc.stamped m.now = r := by simpa [hp] using hr
        have hcreated : ((consumer co objectId call).step w (.call k m)).calls k =
            .created (doc.stamped m.now) := by
          rw [step_call_self]
          exact congrArg Prod.fst hs
        have hnone' : w.shared.requests.findOne userId eventId = none := by
          rw [← hp.1, ← hp.2]
          exact hnone
        rw [← hdoc]
        exact creator_of_save h hl hnone' hp hcreated
      · rw [if_neg (by simpa using hp)] at hr
        exact creator_beside_save h hl hp hr

theorem raceInvariant_step (co : Coercions) (hu : userId ≠ "")
    (hread : Readable co objectId call userId eventId)
    (w : World κ ConsumerState RewardPhase) (t : Turn κ Moment ConsumerEnv)
    (h : RaceInvariant objectId call userId eventId w)
    (hopen : ReadsOpen objectId call userId eventId w t) :
    RaceInvariant objectId call userId eventId ((consumer co objectId call).step w t) where
  fits := ((consumer_fits co objectId call).step ⟨trivial, h.fits⟩ trivial).2
  oneCreator := oneCreator_step h t
  ended := by
    intro k' f hk' hf
    cases t with
    | env e =>
      rw [step_env_shared, env_requests]
      exact h.ended k' f hk' hf
    | call k m =>
      have hgrow : (w.shared.requests.findOne userId eventId).isSome →
          (((consumer co objectId call).step w (.call k m)).shared.requests.findOne
            userId eventId).isSome := by
        intro hsome
        obtain ⟨r, hr⟩ := Option.isSome_iff_exists.mp hsome
        rw [← stored_of_onPair hk'] at hr ⊢
        exact Option.isSome_iff_exists.mpr ⟨r, stored_turn hr⟩
      by_cases hkk : k' = k
      · subst hkk
        rw [step_call_self] at hf
        obtain hold | ⟨-, hsome⟩ | ⟨-, -, -, hwhy⟩ := raised_step hread h hopen hk' hf
        · exact hgrow (h.ended k' f hk' hold)
        · exact hgrow hsome
        · exact hgrow (hwhy.resolve_left hu)
      · rw [step_call_other _ _ hkk] at hf
        exact hgrow (h.ended k' f hk' hf)

theorem oneRequest_step_iff (hu : userId ≠ "") (hread : Readable co objectId call userId eventId)
    (w : World κ ConsumerState RewardPhase) (t : Turn κ Moment ConsumerEnv)
    (h : RaceInvariant objectId call userId eventId w)
    (hone : OneRequest objectId call userId eventId w)
    (hopen : ReadsOpen objectId call userId eventId w t) :
    OneRequest objectId call userId eventId ((consumer co objectId call).step w t) ↔
      SavesFirst objectId call userId eventId w t := by
  have hnext := raceInvariant_step co hu hread w t h hopen
  constructor
  · intro hclean
    cases t with
    | env e => trivial
    | call k m =>
      intro hk doc hl
      by_contra hne
      have hfit := h.fits k
      rw [hl] at hfit
      have hraised := save_refused co m hk.2 hfit (by rwa [hk.1])
      have hbad := (hclean.refused k internalError hk (by
        rw [step_call_self, hl]
        exact hraised)).1
      cases hbad
  · intro hfirst
    refine hnext.oneRequest fun k' f hk' hf => ?_
    cases t with
    | env e => exact (hone.refused k' f hk' hf).1
    | call k m =>
      by_cases hkk : k' = k
      · subst hkk
        rw [step_call_self] at hf
        obtain hold | ⟨rfl, -⟩ | ⟨doc, hl, -, hwhy⟩ := raised_step hread h hopen hk' hf
        · exact (hone.refused k' f hk' hold).1
        · rfl
        · rw [hfirst hk' doc hl] at hwhy
          exact absurd hwhy (by simp [hu])
      · rw [step_call_other _ _ hkk] at hf
        exact (hone.refused k' f hk' hf).1

def LeavesOpen (eventId : String) (e : Event) : Turn κ Moment ConsumerEnv → Prop
  | .call _ m => OpenAt m.now e
  | .env (.editEvents events) => events eventId = some e
  | .env _ => True

theorem along_readsOpen (co : Coercions) (objectId : String → Option String)
    (call : κ → RewardCall) (userId : String) {e : Event} {turns : List (Turn κ Moment ConsumerEnv)}
    (hts : ∀ t ∈ turns, LeavesOpen eventId e t) {w : World κ ConsumerState RewardPhase}
    (he : w.shared.events eventId = some e) :
    Along (consumer co objectId call).step (ReadsOpen objectId call userId eventId) w turns := by
  induction turns generalizing w with
  | nil => trivial
  | cons t ts ih =>
    have ht := hts t List.mem_cons_self
    refine ⟨?_, ih (fun t' h' => hts t' (List.mem_cons_of_mem t h')) ?_⟩
    · cases t with
      | call k m => exact fun _ _ => ⟨e, he, ht⟩
      | env e' => trivial
    · cases t with
      | call k m =>
        change (createEventRewardRequest co objectId (call k) m (w.calls k)
          w.shared).2.events eventId = some e
        obtain ⟨hs, -⟩ | ⟨doc, hnone, -, -, hs⟩ :=
          turn_cases co objectId (call k) m (w.calls k) w.shared
        · rwa [hs]
        · rwa [hs]
      | env e' =>
        cases e' with
        | editEvents events => exact ht
        | dropKey key now => exact he

/-- Any number of calls for one user and one event, from a state without a request of theirs:
the outcome is clean all along exactly if no call comes to save when another has saved. -/
theorem one_request_iff (hu : userId ≠ "") (hread : Readable co objectId call userId eventId)
    (s : ConsumerState) (hnone : s.requests.findOne userId eventId = none)
    (turns : List (Turn κ Moment ConsumerEnv))
    (hopen : Along (consumer co objectId call).step (ReadsOpen objectId call userId eventId)
      (consumerStart s) turns) :
    Always (consumer co objectId call).step (OneRequest objectId call userId eventId)
        (consumerStart s) turns ↔
      Along (consumer co objectId call).step (SavesFirst objectId call userId eventId)
        (consumerStart s) turns := by
  have hstart : RaceInvariant objectId call userId eventId (consumerStart s) :=
    raceInvariant_start hnone
  refine always_iff_along (I := fun w => RaceInvariant objectId call userId eventId w ∧
    OneRequest objectId call userId eventId w) (fun _ h => h.2) ?_ ?_
    ⟨hstart, hstart.oneRequest fun k f _ hf => by cases hf⟩ hopen
  · intro w t ⟨hinv, hone⟩ ho hfirst
    exact ⟨raceInvariant_step co hu hread w t hinv ho,
      (oneRequest_step_iff hu hread w t hinv hone ho).mpr hfirst⟩
  · intro w t ⟨hinv, hone⟩ ho hnext
    exact (oneRequest_step_iff hu hread w t hinv hone ho).mp hnext

end Race

section Sample

def sampleEvent : Event :=
  { name := some "attendance", description := none, type := some .LOGIN, condition := none
    startDate := 0, endDate := 10, status := some .ACTIVE, createdBy := some "op" }

def sampleCalls (second : Bool) : RewardCall :=
  ⟨"alice", "e1", some (literal [("messageId", some (.str (if second then "m2" else "m1")))])⟩

def sampleState : ConsumerState :=
  ⟨fun id => if id = "e1" then some sampleEvent else none, .empty, fun _ => none⟩

def sampleTurns (order : List Bool) : List (Turn Bool Moment ConsumerEnv) :=
  order.map fun k => .call k { now := 5, newId := "r1" }

theorem sampleTurns_open (order : List Bool) :
    Along (consumer Coercions.plain (.ofText some) sampleCalls).step
      (ReadsOpen some sampleCalls "alice" "e1") (consumerStart sampleState)
      (sampleTurns order) := by
  refine along_readsOpen _ _ _ _ (e := sampleEvent) ?_ rfl
  intro t ht
  obtain ⟨k, -, rfl⟩ := List.mem_map.mp ht
  exact ⟨rfl, rfl, by decide, by decide⟩

theorem sampleCalls_wellFormed (second : Bool) :
    WellFormed Coercions.plain (sampleCalls second).metadata := ⟨rfl, rfl⟩

theorem sampleCalls_readable : Readable Coercions.plain some sampleCalls "alice" "e1" :=
  fun _ _ => sampleCalls_wellFormed _

theorem one_request_in_sequence :
    Always (consumer Coercions.plain (.ofText some) sampleCalls).step
      (OneRequest some sampleCalls "alice" "e1") (consumerStart sampleState)
      (sampleTurns [false, false, false, false, true, true, true]) := by
  refine (one_request_iff (by decide) sampleCalls_readable sampleState rfl _
    (sampleTurns_open _)).mpr ⟨?_, ?_, ?_, fun _ _ _ => rfl, ?_, ?_, ?_, trivial⟩
  all_goals exact fun _ _ h => by cases h

/-- Both look up before either saves: the second save meets the unique index, and its caller
is told of an internal error. -/
theorem late_save_is_internal_error :
    Readable Coercions.plain some sampleCalls "alice" "e1" ∧
    sampleState.requests.findOne "alice" "e1" = none ∧
    Along (consumer Coercions.plain (.ofText some) sampleCalls).step
      (ReadsOpen some sampleCalls "alice" "e1") (consumerStart sampleState)
      (sampleTurns [false, false, false, true, true, true, false, true]) ∧
    ¬Always (consumer Coercions.plain (.ofText some) sampleCalls).step
      (OneRequest some sampleCalls "alice" "e1") (consumerStart sampleState)
      (sampleTurns [false, false, false, true, true, true, false, true]) := by
  refine ⟨sampleCalls_readable, rfl, sampleTurns_open _, fun h => ?_⟩
  have hbad := (h.last.refused true internalError ⟨rfl, rfl⟩ rfl).1
  cases hbad

end Sample
end MsaTuto
