import MsaTuto.EarlyRequest
import MsaTuto.RewardPipeline

/-! What becomes of a reward request that the gateway has published, once one handling of its
message has had its turns. -/
namespace MsaTuto
open Js Runs RewardRequestService

namespace RewardPipeline
variable {ι μ : Type*} [DecidableEq ι]

def isHandling (i : ι) (n : Nat) : PipelineMove ι μ → Bool
  | .handle j m _ _ => decide (j = i ∧ m = n)
  | _ => false

variable [DecidableEq μ] (p : RewardPipeline ι μ) (i : ι) (n : Nat) (call : RewardCall Value)
  (eventId : String)

/-- Whenever this handling reads the event, it finds it open. -/
def FindsOpen (st : PipelineState ι μ) : PipelineMove ι μ → Prop
  | .handle j m now _ => j = i → m = n → st.server.calls (i, n) = .started →
      ∃ e, st.server.shared.consumer.events eventId = some e ∧ OpenAt now e
  | _ => True

/-- The message is with the broker, and a handling of it that has ended has seen to it that a
request of the user for the event is stored. -/
structure Served (st : PipelineState ι μ) : Prop where
  published : i ∈ st.published
  fits : Fits p.ids call (st.server.calls (i, n)) st.server.shared.consumer
  ended : (st.server.calls (i, n)).ended = true →
    (st.server.shared.consumer.requests.findOne call.userId eventId).isSome

variable {p i n call eventId}

section Turn
variable {co : Coercions} {ids : EventIds Value} {m : Moment} {l : RewardPhase}
  {c : ConsumerState}

theorem findOne_turn_isSome (hid : ids.Names call.eventId eventId) (call' : RewardCall Value)
    (h : (c.requests.findOne call.userId eventId).isSome) :
    ((createEventRewardRequest co ids call' m l c).2.requests.findOne call.userId
      eventId).isSome := by
  obtain ⟨r, hr⟩ := Option.isSome_iff_exists.mp h
  have hstored : stored ids c.requests call = some r := by
    simp [stored, hid.cast, hr]
  have hnext : stored ids (createEventRewardRequest co ids call' m l c).2.requests call =
      some r := stored_turn hstored
  rw [stored, hid.cast] at hnext
  exact Option.isSome_iff_exists.mpr ⟨r, hnext⟩

/-- A turn that ends a call for a user with an id, on an event that is found open, leaves a
request of the pair stored. -/
theorem ended_turn_stores (hid : ids.Names call.eventId eventId) (hu : call.userId ≠ "")
    (hmeta : WellFormed co call.metadata)
    (hopen : l = .started → ∃ e, c.events eventId = some e ∧ OpenAt m.now e)
    (hfits : Fits ids call l c)
    (hended : l.ended = true → (c.requests.findOne call.userId eventId).isSome)
    (hnow : (createEventRewardRequest co ids call m l c).1.ended = true) :
    ((createEventRewardRequest co ids call m l c).2.requests.findOne call.userId
      eventId).isSome := by
  have hnext : Fits ids call (createEventRewardRequest co ids call m l c).1
      (createEventRewardRequest co ids call m l c).2 := fits_turn hfits
  have hstored : ∀ r, stored ids (createEventRewardRequest co ids call m l c).2.requests
      call = some r → ((createEventRewardRequest co ids call m l c).2.requests.findOne
        call.userId eventId).isSome := by
    intro r hr
    rw [stored, hid.cast] at hr
    exact Option.isSome_iff_exists.mpr ⟨r, hr⟩
  cases hphase : (createEventRewardRequest co ids call m l c).1 with
  | created r =>
    rw [hphase] at hnext
    exact hstored r hnext
  | returned r =>
    rw [hphase] at hnext
    exact hstored r hnext
  | raised f =>
    refine findOne_turn_isSome hid call ?_
    obtain hold | ⟨-, hsome⟩ | ⟨-, -, -, hwhy⟩ := raised_turn hid hmeta hfits (fun hl => by
      obtain ⟨e, he, hop⟩ := hopen hl
      exact ⟨_, checkEvent_of_openAt hid he hop hmeta.read⟩) hphase
    · exact hended (by rw [hold]; rfl)
    · exact hsome
    · exact hwhy.resolve_left hu
  | _ =>
    rw [hphase] at hnow
    cases hnow

end Turn

omit [DecidableEq ι] [DecidableEq μ] in
theorem Served.keep {st st' : PipelineState ι μ} (hid : p.ids.Names call.eventId eventId)
    (h : p.Served i n call eventId st) (hpublished : st.published ⊆ st'.published)
    (hcall : st'.server.calls (i, n) = st.server.calls (i, n))
    (hgrow : ∀ r, stored p.ids st.server.shared.consumer.requests call = some r →
      stored p.ids st'.server.shared.consumer.requests call = some r) :
    p.Served i n call eventId st' where
  published := hpublished h.published
  fits := by
    rw [hcall]
    exact h.fits.of_stored hgrow
  ended hl := by
    rw [hcall] at hl
    obtain ⟨r, hr⟩ := Option.isSome_iff_exists.mp (h.ended hl)
    have hstored := hgrow r (by simp [stored, hid.cast, hr])
    rw [stored, hid.cast] at hstored
    exact Option.isSome_iff_exists.mpr ⟨r, hstored⟩

theorem served_step (hcall : p.callOf i = some call) (hid : p.ids.Names call.eventId eventId)
    (hmeta : WellFormed p.co call.metadata) (hu : call.userId ≠ "") (st : PipelineState ι μ)
    (t : PipelineMove ι μ)
    (h : p.Served i n call eventId st) (ht : FindsOpen i n eventId st t) :
    p.Served i n call eventId (p.step st t) := by
  obtain hquiet | ⟨j, m, now, newId, call', rfl, -, hcall', hstep⟩ := p.step_cases st t
  · exact h.keep hid hquiet.kept (by rw [hquiet.calls]) (by rw [hquiet.requests]; exact fun _ => id)
  · rw [hstep]
    by_cases hjm : (i, n) = (j, m)
    · cases hjm
      cases hcall.symm.trans hcall'
      constructor
      case published => exact h.published
      case fits =>
        simp only [handled, Function.update_self]
        exact fits_turn h.fits
      case ended =>
        simp only [handled, Function.update_self]
        exact ended_turn_stores hid hu hmeta (ht rfl rfl) h.fits h.ended
    · refine h.keep hid (List.Subset.refl _) ?_ fun r hr => stored_turn hr
      simp only [handled, Function.update_of_ne hjm]

theorem published_step (st : PipelineState ι μ) (t : PipelineMove ι μ) (h : i ∈ st.published) :
    i ∈ (p.step st t).published := by
  obtain hquiet | ⟨j, m, now, newId, call', -, -, -, hstep⟩ := p.step_cases st t
  · exact hquiet.kept h
  · rw [hstep]
    exact h

theorem rank_step (hcall : p.callOf i = some call) (st : PipelineState ι μ) (t : PipelineMove ι μ)
    (h : i ∈ st.published) :
    min 5 ((st.server.calls (i, n)).rank + if isHandling i n t then 1 else 0) ≤
      ((p.step st t).server.calls (i, n)).rank := by
  by_cases hself : isHandling i n t = true
  · cases t with
    | handle j m now newId =>
      obtain ⟨rfl, rfl⟩ : j = i ∧ m = n := by simpa [isHandling] using hself
      rw [p.step_handle h hcall, if_pos hself]
      simpa [handled] using turn_rank p.co p.ids call { now := now, newId := newId }
        (st.server.calls (j, m)) st.server.shared.consumer
    | _ => cases hself
  · have hother : (p.step st t).server.calls (i, n) = st.server.calls (i, n) := by
      obtain hquiet | ⟨j, m, now, newId, call', rfl, -, -, hstep⟩ := p.step_cases st t
      · rw [hquiet.calls]
      · have hne : (i, n) ≠ (j, m) := by
          rintro h
          cases h
          simp [isHandling] at hself
        rw [hstep]
        simp only [handled, Function.update_of_ne hne]
    rw [hother, if_neg hself]
    exact Nat.min_le_right _ _

/-- A handling of a published message that gets its five turns and finds the event open. -/
theorem handled_to_the_end {st : PipelineState ι μ} {rest : List (PipelineMove ι μ)}
    (hcall : p.callOf i = some call) (hid : p.ids.Names call.eventId eventId)
    (hmeta : WellFormed p.co call.metadata) (hu : call.userId ≠ "") (hpublished : i ∈ st.published)
    (hfresh : st.server.calls (i, n) = .started)
    (hopen : Along p.step (FindsOpen i n eventId) st rest)
    (hturns : 5 ≤ rest.countP (isHandling i n)) :
    ((run p.step st rest).server.calls (i, n)).ended = true ∧
      ∃ r, (run p.step st rest).server.shared.consumer.requests.findOne call.userId eventId =
        some r := by
  have hstart : p.Served i n call eventId st :=
    ⟨hpublished, by rw [hfresh]; trivial, by rw [hfresh]; exact fun h => by cases h⟩
  have hend := (always_of_step (served_step hcall hid hmeta hu) hstart hopen).last
  have hrank := rank_run_of_count published_step (fun st => (st.server.calls (i, n)).rank) 5
    (isHandling i n) (rank_step hcall) hpublished rest
  have hended : ((run p.step st rest).server.calls (i, n)).ended = true :=
    RewardPhase.ended_iff_rank.mpr (by omega)
  exact ⟨hended, Option.isSome_iff_exists.mp (hend.ended hended)⟩

/-- Once the gateway has published the message, a handling of it that gets its five turns, and
finds the event open when it reads it, ends with a request of the user for that event stored,
whatever else is delivered, asked for and edited in between. -/
theorem published_request_is_stored (p : RewardPipeline ι μ) (s : ConsumerState)
    (past rest : List (PipelineMove ι μ)) (n : Nat) (hcall : p.callOf i = some call)
    (hid : p.ids.Names call.eventId eventId) (hmeta : WellFormed p.co call.metadata)
    (hu : call.userId ≠ "") (hpublished : i ∈ (p.reached s past).published)
    (hfresh : (p.reached s past).server.calls (i, n) = .started)
    (hopen : Along p.step (FindsOpen i n eventId) (p.reached s past) rest)
    (hturns : 5 ≤ rest.countP (isHandling i n)) :
    ((p.reached s (past ++ rest)).server.calls (i, n)).ended = true ∧
      ∃ r, (p.reached s (past ++ rest)).server.shared.consumer.requests.findOne call.userId
        eventId = some r := by
  rw [reached, run_append]
  exact handled_to_the_end hcall hid hmeta hu hpublished hfresh hopen hturns

/-- No operator's call has a turn, and the event is open at the times of this handling. -/
def LeavesOpen (i : ι) (n : Nat) (e : Event) : PipelineMove ι μ → Prop
  | .handle j m now _ => j = i → m = n → OpenAt now e
  | .mutate _ _ => False
  | _ => True

theorem leavesOpen_step {e : Event} {st : PipelineState ι μ} {t : PipelineMove ι μ}
    (he : st.server.shared.consumer.events eventId = some e) (ht : LeavesOpen i n e t) :
    (p.step st t).server.shared.consumer.events eventId = some e := by
  cases t with
  | http j =>
    simp only [step]
    split <;> exact he
  | mutate j now => exact ht.elim
  | dropKey key now => exact he
  | handle j m now newId =>
    simp only [step]
    split
    · change (createEventRewardRequest p.co p.ids (p.server.call (j, m)) _ _
        st.server.shared.consumer).2.events eventId = some e
      obtain ⟨hs, -⟩ | ⟨doc, hnone, -, -, hs⟩ := turn_cases p.co p.ids (p.server.call (j, m))
        { now := now, newId := newId } (st.server.calls (j, m)) st.server.shared.consumer
      · rwa [hs]
      · rwa [hs]
    · exact he

omit [DecidableEq ι] [DecidableEq μ] in
theorem findsOpen_of_leavesOpen {e : Event} {st : PipelineState ι μ} {t : PipelineMove ι μ}
    (he : st.server.shared.consumer.events eventId = some e) (ht : LeavesOpen i n e t) :
    FindsOpen i n eventId st t := by
  cases t with
  | handle j m now newId => exact fun hj hm _ => ⟨e, he, ht hj hm⟩
  | _ => trivial

theorem along_findsOpen {e : Event} {rest : List (PipelineMove ι μ)}
    (hrest : ∀ t ∈ rest, LeavesOpen i n e t) {st : PipelineState ι μ}
    (he : st.server.shared.consumer.events eventId = some e) :
    Along p.step (FindsOpen i n eventId) st rest :=
  along_of_invariant (fun _ _ => leavesOpen_step) (fun _ _ => findsOpen_of_leavesOpen) he
    (along_of_mem hrest st)

section Sample

def fiveTurns : List (PipelineMove Unit Empty) := List.replicate 5 (.handle () 0 5 "r1")

theorem published_request_is_stored_sample :
    ∃ call, samplePipeline.callOf () = some call ∧
      ((samplePipeline.reached EventServer.invitationState
        ([.http ()] ++ fiveTurns)).server.calls ((), 0)).ended = true ∧
      ∃ r, (samplePipeline.reached EventServer.invitationState
        ([.http ()] ++ fiveTurns)).server.shared.consumer.requests.findOne call.userId "e1" =
          some r := by
  obtain ⟨call, hcall⟩ := Option.isSome_iff_exists.mp
    (by decide +kernel : (samplePipeline.callOf ()).isSome = true)
  obtain ⟨⟨user, hpassport, -, huser⟩, hevent, hmetadata, -⟩ := Arrival.asksFor_of_call hcall
  cases hpassport
  have hnames : samplePipeline.ids.Names call.eventId "e1" := by
    rw [hevent]
    exact samplePipeline.agree.names rfl
  have hmeta : WellFormed samplePipeline.co call.metadata := by
    rw [hmetadata]
    exact ⟨rfl, rfl⟩
  have hserver : (samplePipeline.reached EventServer.invitationState [.http ()]).server =
      (start EventServer.invitationState : PipelineState Unit Empty).server := by
    simp only [reached, run, step]
    split <;> rfl
  let invitation : Event := { sampleEvent with type := some .FRIEND_INVITATION }
  refine ⟨call, hcall, samplePipeline.published_request_is_stored EventServer.invitationState
    [.http ()] fiveTurns 0 hcall hnames hmeta (by rw [huser]; decide) (by decide +kernel)
    (by rw [hserver]; rfl) (along_findsOpen (e := invitation) ?_ (by rw [hserver]; rfl))
    (by decide)⟩
  intro t ht
  rw [List.eq_of_mem_replicate ht]
  exact fun _ _ => ⟨rfl, rfl, by decide, by decide⟩

end Sample
end RewardPipeline
end MsaTuto
