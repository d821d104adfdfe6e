import MsaTuto.RewardReplay

/-! A user who asks again: what an earlier request leaves of the reward once the condition
is met. -/
namespace MsaTuto
open Js Runs RewardRequestService

/-- Turns taken so far by a call, at least; none takes more than five. -/
def RewardPhase.rank : RewardPhase → Nat
  | .started => 0
  | .cacheCheck _ _ => 1
  | .replayLookup _ => 2
  | .lookup _ => 3
  | .saving _ => 4
  | .created _ | .returned _ | .raised _ => 5

theorem RewardPhase.ended_iff_rank {l : RewardPhase} : l.ended = true ↔ 5 ≤ l.rank := by
  cases l <;> simp [ended, rank]

namespace RewardRequestService
variable {ε : Type} {co : Coercions} {ids : EventIds ε} {call : RewardCall ε} {m : Moment}
  {l : RewardPhase} {s : ConsumerState}

theorem turn_rank (co : Coercions) (ids : EventIds ε) (call : RewardCall ε)
    (m : Moment) (l : RewardPhase) (s : ConsumerState) :
    min 5 (l.rank + 1) ≤ (createEventRewardRequest co ids call m l s).1.rank := by
  have hstep := turn_step co ids call m l s
  generalize createEventRewardRequest co ids call m l s = out at hstep ⊢
  obtain ⟨l', s'⟩ := out
  cases hstep with
  | stays hl => exact (Nat.min_le_left _ _).trans (RewardPhase.ended_iff_rank.mp hl)
  | _ => simp [RewardPhase.rank]

/-- A document to save is made by the lookup that found none. -/
theorem saving_turn {doc : RewardRequest}
    (h : (createEventRewardRequest co ids call m l s).1 = .saving doc) :
    ∃ event, l = .lookup event ∧ newRequest ids call event m = .ok doc := by
  have hstep := turn_step co ids call m l s
  rw [h] at hstep
  generalize (createEventRewardRequest co ids call m l s).2 = s' at hstep
  cases hstep with
  | stays hl => cases hl
  | decides event doc hnone hdoc => exact ⟨event, rfl, hdoc⟩

end RewardRequestService

section Again
variable {κ : Type*} (co : Coercions) (objectId : String → Option String)
  (call : κ → RewardCall) (userId eventId : String) (k : κ)

/-- Nothing but an approved request of the pair is stored. -/
def OnlyApproved (requests : RequestCollection) : Prop :=
  ∀ r, requests.findOne userId eventId = some r → r.status = .APPROVED

/-- The way of a call to an approved request, its own or another's. -/
def Awaits (l : RewardPhase) (requests : RequestCollection) : Prop :=
  match l with
  | .saving doc => doc.status = .APPROVED
  | .created _ | .returned _ | .raised _ => (requests.findOne userId eventId).isSome
  | _ => True

structure Favoured (w : World κ ConsumerState RewardPhase) : Prop where
  fits : ∀ k, Fits objectId (call k) (w.calls k) w.shared
  approved : OnlyApproved userId eventId w.shared.requests
  awaits : Awaits userId eventId (w.calls k) w.shared.requests

variable {co objectId call userId eventId k} {w : World κ ConsumerState RewardPhase} {m : Moment}

theorem ended_finds_stored (hu : userId ≠ "") (hk : OnPair objectId call userId eventId k)
    (hmeta : WellFormed co (call k).metadata)
    (h : Favoured objectId call userId eventId k w)
    (hopen : w.calls k = .started → OpenTo objectId (call k) m.now w.shared.events)
    {f : Failure} (hf : (createEventRewardRequest co objectId (call k) m (w.calls k)
      w.shared).1 = .raised f) : (w.shared.requests.findOne userId eventId).isSome := by
  have hraise := raised_turn hk.names hmeta (h.fits k) (fun hl => by
    obtain ⟨id, e, hid, he, hop⟩ := hopen hl
    exact ⟨_, checkEvent_of_openAt (EventIds.names_ofText hid) he hop hmeta.read⟩) hf
  rw [hk.1] at hraise
  obtain hold | ⟨-, hsome⟩ | ⟨-, -, -, hwhy⟩ := hraise
  · have hawaits := h.awaits
    rw [hold] at hawaits
    exact hawaits
  · exact hsome
  · exact hwhy.resolve_left hu

theorem Awaits.of_ended {l : RewardPhase} {requests : RequestCollection}
    (h : Awaits userId eventId l requests) (hl : l.ended = true) :
    (requests.findOne userId eventId).isSome := by
  cases l with
  | created r => exact h
  | returned r => exact h
  | raised f => exact h
  | _ => cases hl

theorem Awaits.mono {l : RewardPhase} {requests requests' : RequestCollection}
    (h : Awaits userId eventId l requests)
    (hgrow : (requests.findOne userId eventId).isSome →
      (requests'.findOne userId eventId).isSome) : Awaits userId eventId l requests' := by
  cases l with
  | saving doc => exact h
  | created r => exact hgrow h
  | returned r => exact hgrow h
  | raised f => exact hgrow h
  | _ => trivial

variable [DecidableEq κ]

variable (co objectId call userId eventId k) in
/-- The call `k` reads the event when it is open, the validator says yes when asked, and no
other call stores a request of the pair that is not approved. -/
def Favours (w : World κ ConsumerState RewardPhase) : Turn κ Moment ConsumerEnv → Prop
  | .call k' m =>
    (k' = k → w.calls k = .started → OpenTo objectId (call k) m.now w.shared.events) ∧
    (k' = k → ∀ e, w.calls k = .lookup e → m.validator userId e.type e.condition = true) ∧
    (k' ≠ k → OnlyApproved userId eventId
      ((consumer co objectId call).step w (.call k' m)).shared.requests)
  | .env _ => True

theorem stored_grows (hk : OnPair objectId call userId eventId k) (k' : κ)
    (h : (w.shared.requests.findOne userId eventId).isSome) :
    (((consumer co objectId call).step w (.call k' m)).shared.requests.findOne
      userId eventId).isSome := by
  obtain ⟨r, hr⟩ := Option.isSome_iff_exists.mp h
  rw [← stored_of_onPair hk] at hr ⊢
  exact Option.isSome_iff_exists.mpr ⟨r, stored_turn hr⟩

theorem onlyApproved_turn (h : Favoured objectId call userId eventId k w) (m : Moment) :
    OnlyApproved userId eventId
      ((consumer co objectId call).step w (.call k m)).shared.requests := by
  intro r hr
  change (createEventRewardRequest co objectId (call k) m (w.calls k)
    w.shared).2.requests.findOne userId eventId = some r at hr
  obtain ⟨hs, -⟩ | ⟨doc, hnone, hl, -, hs⟩ :=
    turn_cases co objectId (call k) m (w.calls k) w.shared
  · rw [hs] at hr
    exact h.approved r hr
  · rw [hs, RequestCollection.findOne_insert] at hr
    split at hr
    · cases hr
      have hawaits := h.awaits
      rw [hl] at hawaits
      exact hawaits
    · exact h.approved r hr

theorem awaits_turn (hu : userId ≠ "") (hk : OnPair objectId call userId eventId k)
    (hmeta : WellFormed co (call k).metadata)
    (h : Favoured objectId call userId eventId k w)
    (hfav : Favours co objectId call userId eventId k w (.call k m)) :
    Awaits userId eventId (((consumer co objectId call).step w (.call k m)).calls k)
      ((consumer co objectId call).step w (.call k m)).shared.requests := by
  have hfits := ((consumer_fits co objectId call).step (t := .call k m)
    ⟨trivial, h.fits⟩ trivial).2 k
  have hstored : ∀ r, stored objectId
      ((consumer co objectId call).step w (.call k m)).shared.requests (call k) = some r →
      (((consumer co objectId call).step w (.call k m)).shared.requests.findOne
        userId eventId).isSome := by
    intro r hr
    rw [stored_of_onPair hk] at hr
    exact Option.isSome_iff_exists.mpr ⟨r, hr⟩
  cases hnext : ((consumer co objectId call).step w (.call k m)).calls k with
  | saving doc =>
    rw [step_call_self] at hnext
    obtain ⟨e, hl, hdoc⟩ := saving_turn hnext
    refine (newRequest_approved hdoc).mpr ?_
    rw [hk.1]
    exact hfav.2.1 rfl e hl
  | created r =>
    rw [hnext] at hfits
    exact hstored r hfits
  | returned r =>
    rw [hnext] at hfits
    exact hstored r hfits
  | raised f =>
    rw [step_call_self] at hnext
    exact stored_grows hk k (ended_finds_stored hu hk hmeta h (hfav.1 rfl) hnext)
  | _ => trivial

theorem favoured_step (hu : userId ≠ "") (hk : OnPair objectId call userId eventId k)
    (hmeta : WellFormed co (call k).metadata) (w : World κ ConsumerState RewardPhase)
    (t : Turn κ Moment ConsumerEnv) (h : Favoured objectId call userId eventId k w)
    (hfav : Favours co objectId call userId eventId k w t) :
    Favoured objectId call userId eventId k ((consumer co objectId call).step w t) := by
  have hfits := ((consumer_fits co objectId call).step (t := t) ⟨trivial, h.fits⟩ trivial).2
  cases t with
  | env e =>
    refine ⟨hfits, ?_, ?_⟩
    · rw [step_env_shared, env_requests]
      exact h.approved
    · rw [step_env_shared, env_requests]
      exact h.awaits
  | call k' m =>
    by_cases hkk : k' = k
    · subst hkk
      exact ⟨hfits, onlyApproved_turn h m, awaits_turn hu hk hmeta h hfav⟩
    · refine ⟨hfits, hfav.2.2 hkk, ?_⟩
      rw [step_call_other _ _ (Ne.symm hkk)]
      exact h.awaits.mono (stored_grows hk k')

/-- After any run, with no request of the pair stored but approved ones: a call for the pair
that meets with the event open and the condition met ends with an approved request stored. -/
theorem early_request_kept (co : Coercions) (hu : userId ≠ "") (s : ConsumerState)
    (past turns : List (Turn κ Moment ConsumerEnv))
    (hk : OnPair objectId call userId eventId k) (hmeta : WellFormed co (call k).metadata)
    (hstart : (run (consumer co objectId call).step (consumerStart s) past).calls k = .started)
    (honly : OnlyApproved userId eventId
      (run (consumer co objectId call).step (consumerStart s) past).shared.requests)
    (hfav : Along (consumer co objectId call).step (Favours co objectId call userId eventId k)
      (run (consumer co objectId call).step (consumerStart s) past) turns)
    (hturns : 5 ≤ turnsOf k turns) :
    ((run (consumer co objectId call).step (consumerStart s) (past ++ turns)).calls
      k).ended = true ∧
    ∃ r, (run (consumer co objectId call).step (consumerStart s)
      (past ++ turns)).shared.requests.findOne userId eventId = some r ∧
        r.status = .APPROVED := by
  rw [run_append]
  have hinv : Favoured objectId call userId eventId k
      (run (consumer co objectId call).step (consumerStart s) past) :=
    ⟨fits_reached co objectId call s past, honly, by rw [hstart]; trivial⟩
  have hend := (always_of_step (favoured_step hu hk hmeta) hinv hfav).last
  have hrank := rank_run (consumer co (.ofText objectId) call) k RewardPhase.rank 5
    (fun m l s => turn_rank co (.ofText objectId) (call k) m l s)
    (run (consumer co objectId call).step (consumerStart s) past) turns
  have hended := RewardPhase.ended_iff_rank.mpr ((le_min le_rfl (by omega)).trans hrank)
  obtain ⟨r, hr⟩ := Option.isSome_iff_exists.mp (hend.awaits.of_ended hended)
  exact ⟨hended, r, hr, hend.approved r hr⟩

end Again

section Sample

/-- Five turns of a call at the time 5, when the validator says yes. -/
def metTurns {κ : Type} (k : κ) : List (Turn κ Moment ConsumerEnv) :=
  List.replicate 5 (.call k { now := 5, newId := "r2", validator := fun _ _ _ => true })

/-- Alice asks twice, and Bob in between. -/
inductive Asks where
  | early | bob | again
  deriving DecidableEq

def threeCalls : Asks → RewardCall
  | .early => sampleCalls false
  | .bob => { sampleCalls false with userId := "bob" }
  | .again => sampleCalls true

/-- Her first call comes before the period, and his request is stored as failed. -/
def pastTurns : List (Turn Asks Moment ConsumerEnv) :=
  .call .early { now := -1, newId := "r0" } ::
    List.replicate 4 (.call .bob { now := 4, newId := "r1" })

theorem metTurns_favour :
    Along (consumer Coercions.plain (.ofText some) threeCalls).step
      (Favours Coercions.plain some threeCalls "alice" "e1" .again)
      (run (consumer Coercions.plain (.ofText some) threeCalls).step (consumerStart sampleState)
        pastTurns) (metTurns .again) := by
  have hopen : OpenTo some (threeCalls .again) 5 sampleState.events :=
    ⟨"e1", sampleEvent, rfl, rfl, rfl, rfl, by decide, by decide⟩
  refine ⟨⟨fun _ _ => hopen, fun _ _ _ => rfl, fun h => absurd rfl h⟩,
    ⟨fun _ h => ?_, fun _ _ _ => rfl, fun h => absurd rfl h⟩,
    ⟨fun _ h => ?_, fun _ _ _ => rfl, fun h => absurd rfl h⟩,
    ⟨fun _ h => ?_, fun _ _ _ => rfl, fun h => absurd rfl h⟩,
    ⟨fun _ h => ?_, fun _ _ _ => rfl, fun h => absurd rfl h⟩, trivial⟩
  all_goals cases h

theorem early_request_kept_sample :
    ((run (consumer Coercions.plain (.ofText some) threeCalls).step (consumerStart sampleState)
      (pastTurns ++ metTurns .again)).calls .again).ended = true ∧
    ∃ r, (run (consumer Coercions.plain (.ofText some) threeCalls).step (consumerStart sampleState)
      (pastTurns ++ metTurns .again)).shared.requests.findOne "alice" "e1" = some r ∧
        r.status = .APPROVED :=
  early_request_kept Coercions.plain (by decide) sampleState pastTurns (metTurns .again) ⟨rfl, rfl⟩
    (sampleCalls_wellFormed _) rfl (fun r h => by cases h) metTurns_favour (by decide)

/-- Alice asks before she meets the condition, and again when she meets it: her first request
is stored as failed, and the second call refused because of it. -/
theorem early_request_forfeits :
    (run (consumer Coercions.plain (.ofText some) sampleCalls).step (consumerStart sampleState)
      (sampleTurns [false, false, false, false])).calls true = .started ∧
    OpenTo some (sampleCalls true) 5
      (run (consumer Coercions.plain (.ofText some) sampleCalls).step (consumerStart sampleState)
        (sampleTurns [false, false, false, false])).shared.events ∧
    (∀ r, (run (consumer Coercions.plain (.ofText some) sampleCalls).step
      (consumerStart sampleState)
      (sampleTurns [false, false, false, false])).shared.requests.findOne "alice" "e1" =
        some r → r.status ≠ .APPROVED) ∧
    ¬∃ r, (run (consumer Coercions.plain (.ofText some) sampleCalls).step
      (consumerStart sampleState)
      (sampleTurns [false, false, false, false] ++ metTurns true)).shared.requests.findOne
        "alice" "e1" = some r ∧ r.status = .APPROVED := by
  refine ⟨rfl, ⟨"e1", sampleEvent, rfl, rfl, rfl, rfl, by decide, by decide⟩, ?_, ?_⟩
  · intro r h
    cases h
    decide
  · intro ⟨r, h, hst⟩
    cases h
    cases hst

end Sample
end MsaTuto
