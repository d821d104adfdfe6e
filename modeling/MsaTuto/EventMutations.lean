import Mathlib.Algebra.Order.Ring.Rat
import Mathlib.Tactic.Linarith
import MsaTuto.Versioned
import MsaTuto.Event

/-! Interleaved `update`, `remove` and `restore` calls on the event collection:
the read and the guarded write of an update are separate turns. -/
namespace MsaTuto
open Runs

inductive Mutation where
  | update (id : String) (dto : UpdateEventDto) (updatedBy : Option String) (version : Rat)
  | remove (id : String) (deletedBy : Option String)
  | restore (id : String) (restoredBy : Option String)

def Mutation.target : Mutation → String
  | .update id _ _ _ | .remove id _ | .restore id _ => id

inductive MutationPhase where
  | started
  | writing (patch : EventPatch)
  | committed (event : Event)
  | removed (answer : EventService.Removal)
  | raised (failure : Failure)

namespace MutationPhase

def ofResult : Except Failure Event → MutationPhase
  | .ok e => .committed e
  | .error f => .raised f

def ofRemoval : Except Failure EventService.Removal → MutationPhase
  | .ok answer => .removed answer
  | .error f => .raised f

def isCommitted : MutationPhase → Bool
  | .committed _ | .removed _ => true
  | _ => false

/-- Turns taken so far by an update, and at least as many by the other two. -/
def rank : MutationPhase → Nat
  | .started => 0
  | .writing _ => 1
  | .committed _ | .removed _ | .raised _ => 2

theorem settled_of_rank {l : MutationPhase} (h : 2 ≤ l.rank) (hc : l.isCommitted = false) :
    ∃ f, l = .raised f := by
  cases l with
  | started => simp [rank] at h
  | writing patch => simp [rank] at h
  | committed e => simp [isCommitted] at hc
  | removed answer => simp [isCommitted] at hc
  | raised f => exact ⟨f, rfl⟩

end MutationPhase

section Calls
variable (parse : String → JsDate) (store : EventStore)

def Mutation.act (now : Int) : Mutation → MutationPhase → EventCollection →
    MutationPhase × EventCollection
  | .update id dto u v, .started, c =>
    match EventService.updateRead parse c id dto u v with
    | .ok patch => (.writing patch, c)
    | .error f => (.raised f, c)
  | .update id _ _ v, .writing patch, c =>
    (.ofResult (EventService.updateWrite store c id v patch).2,
      (EventService.updateWrite store c id v patch).1)
  | .remove id u, .started, c =>
    (.ofRemoval (EventService.remove store c id u now).2, (EventService.remove store c id u now).1)
  | .restore id u, .started, c =>
    (.ofResult (EventService.restore store c id u).2, (EventService.restore store c id u).1)
  | _, l, c => (l, c)

def Mutation.Expects (m : Mutation) (e : Event) : Prop :=
  match m with
  | .update _ _ _ v => (e.version : Rat) = v
  | _ => True

/-- What a call comes to that has left this event. -/
def Mutation.answer (m : Mutation) (e : Event) : MutationPhase :=
  match m with
  | .remove id _ => .removed { id := id }
  | _ => .committed e

@[simp] theorem Mutation.isCommitted_answer (m : Mutation) (e : Event) :
    (m.answer e).isCommitted = true := by
  cases m <;> rfl

theorem Mutation.act_cases (now : Int) (m : Mutation) (l : MutationPhase) (c : EventCollection) :
    ((m.act parse store now l c).2 = c ∧
      (m.act parse store now l c).1.isCommitted = l.isCommitted) ∨
    (l.isCommitted = false ∧ ∃ e e', c m.target = some e ∧ e'.version = e.version + 1 ∧
      m.Expects e ∧
      m.act parse store now l c = (m.answer e', Function.update c m.target (some e'))) := by
  have settle : ∀ {α : Type} {change : Event → Event → Prop} {answer : Event → α}
      {out : EventCollection × Except Failure α} (phase : Except Failure α → MutationPhase),
      EventService.CommitsOrRaises c m.target change answer out →
      (∀ e e', change e e' → m.Expects e) →
      l.isCommitted = false → m.act parse store now l c = (phase out.2, out.1) →
      (∀ e, phase (.ok (answer e)) = m.answer e) →
      (∀ f, (phase (.error f)).isCommitted = false) →
      ((m.act parse store now l c).2 = c ∧
        (m.act parse store now l c).1.isCommitted = l.isCommitted) ∨
      (l.isCommitted = false ∧ ∃ e e', c m.target = some e ∧ e'.version = e.version + 1 ∧
        m.Expects e ∧
        m.act parse store now l c = (m.answer e', Function.update c m.target (some e'))) := by
    intro α change answer out phase hout hg hl ha hok herror
    obtain ⟨e, e', he, hge, hv, ho⟩ | ⟨f, ho⟩ := hout
    · exact .inr ⟨hl, e, e', he, hv, hg e e' hge, by rw [ha, ho, hok]⟩
    · exact .inl (by rw [ha, ho, hl]; exact ⟨rfl, herror f⟩)
  cases l with
  | started =>
    cases m with
    | update id dto u v =>
      refine .inl ?_
      cases h : EventService.updateRead parse c id dto u v <;>
        simp [Mutation.act, h, MutationPhase.isCommitted]
    | remove id u =>
      exact settle .ofRemoval (EventService.remove_spec store c id u now) (fun _ _ _ => trivial)
        rfl rfl (fun _ => rfl) fun _ => rfl
    | restore id u =>
      exact settle .ofResult (EventService.restore_spec store c id u) (fun _ _ _ => trivial) rfl rfl
        (fun _ => rfl) fun _ => rfl
  | writing patch =>
    cases m with
    | update id dto u v =>
      exact settle .ofResult (EventService.updateWrite_spec store c id v patch) (fun _ _ h => h)
        rfl rfl (fun _ => rfl) fun _ => rfl
    | remove id u => exact .inl ⟨rfl, rfl⟩
    | restore id u => exact .inl ⟨rfl, rfl⟩
  | committed e => cases m <;> exact .inl ⟨rfl, rfl⟩
  | removed answer => cases m <;> exact .inl ⟨rfl, rfl⟩
  | raised f => cases m <;> exact .inl ⟨rfl, rfl⟩

theorem Mutation.act_rank (now : Int) {id : String} {dto : UpdateEventDto} {u : Option String}
    {v : Rat} (l : MutationPhase) (c : EventCollection) :
    min 2 (l.rank + 1) ≤ ((Mutation.update id dto u v).act parse store now l c).1.rank := by
  cases l with
  | started =>
    cases h : EventService.updateRead parse c id dto u v <;>
      simp [Mutation.act, h, MutationPhase.rank]
  | writing patch =>
    simp only [Mutation.act]
    cases (EventService.updateWrite store c id v patch).2 <;>
      simp [MutationPhase.ofResult, MutationPhase.rank]
  | committed e => simp [Mutation.act, MutationPhase.rank]
  | removed answer => simp [Mutation.act, MutationPhase.rank]
  | raised f => simp [Mutation.act, MutationPhase.rank]

end Calls

section Interleavings
variable {κ : Type*} [DecidableEq κ]

abbrev MutationWorld (κ : Type*) := World κ EventCollection MutationPhase

abbrev MutationTurn (κ : Type*) := Turn κ Int Empty

variable (parse : String → JsDate) (store : EventStore) (calls : κ → Mutation)

def mutations : Pool κ Int Empty EventCollection MutationPhase where
  act k now l c := (calls k).act parse store now l c
  env e _ := e.elim

def startMutations (c : EventCollection) : MutationWorld κ := ⟨c, fun _ => .started⟩

def versionAt (c : EventCollection) (id : String) : Int := ((c id).map Event.version).getD 0

def CommitsOn (id : String) (w : MutationWorld κ) : MutationTurn κ → Prop
  | .call k now =>
    (calls k).target = id ∧ (w.calls k).isCommitted = false ∧
      ((calls k).act parse store now (w.calls k) w.shared).1.isCommitted = true
  | .env _ => False

variable {parse store calls}

theorem CommitsOn.spec {id : String} {w : MutationWorld κ} {k : κ} {now : Int}
    (h : CommitsOn parse store calls id w (.call k now)) :
    ∃ e e', w.shared id = some e ∧ e'.version = e.version + 1 ∧ (calls k).Expects e ∧
      ((mutations parse store calls).step w (.call k now)).shared id = some e' := by
  obtain ⟨hid, hl, hc⟩ := h
  obtain ⟨-, hsame⟩ | hcommit := (calls k).act_cases parse store now (w.calls k) w.shared
  · rw [hsame, hl] at hc
    cases hc
  · obtain ⟨-, e, e', he, hv, hx, ha⟩ := hcommit
    subst hid
    exact ⟨e, e', he, hv, hx, by simp [mutations, ha]⟩

theorem keeps_of_not_commitsOn {id : String} {w : MutationWorld κ} {t : MutationTurn κ}
    (h : ¬CommitsOn parse store calls id w t) :
    ((mutations parse store calls).step w t).shared id = w.shared id := by
  cases t with
  | env e => exact e.elim
  | call k now =>
    obtain ⟨hsame, -⟩ | hcommit := (calls k).act_cases parse store now (w.calls k) w.shared
    · simp [mutations, hsame]
    · obtain ⟨hl, e, e', -, -, -, ha⟩ := hcommit
      have hid : id ≠ (calls k).target := by
        intro hid
        exact h ⟨hid.symm, hl, by rw [ha]; exact (calls k).isCommitted_answer e'⟩
      simp [mutations, ha, hid]

variable (parse store calls) in
/-- The collection under these calls is optimistic concurrency on each event. -/
def eventVersion (id : String) : Versioned (mutations parse store calls).step where
  version w := versionAt w.shared id
  Commits := CommitsOn parse store calls id
  quiet w t h := by
    simp only [versionAt, keeps_of_not_commitsOn h]
  bump w t h := by
    cases t with
    | env e => exact e.elim
    | call k now =>
      obtain ⟨e, e', he, hv, -, he'⟩ := h.spec
      simp [versionAt, he, he', hv]

theorem shared_of_not_committed {w : MutationWorld κ} {k : κ} {now : Int}
    (h : (((mutations parse store calls).step w (.call k now)).calls k).isCommitted = false) :
    ((mutations parse store calls).step w (.call k now)).shared = w.shared := by
  obtain ⟨hsame, -⟩ | hcommit := (calls k).act_cases parse store now (w.calls k) w.shared
  · simp [mutations, hsame]
  · obtain ⟨-, e, e', -, -, -, ha⟩ := hcommit
    simp [mutations, ha] at h

theorem committed_step {w : MutationWorld κ} (t : MutationTurn κ) {k : κ}
    (h : (w.calls k).isCommitted = true) :
    (((mutations parse store calls).step w t).calls k).isCommitted = true := by
  cases t with
  | env e => exact e.elim
  | call k' now =>
    by_cases hk : k = k'
    · subst hk
      obtain ⟨-, hsame⟩ | ⟨hl, -⟩ := (calls k).act_cases parse store now (w.calls k) w.shared
      · simpa [mutations, hsame] using h
      · rw [h] at hl
        cases hl
    · rw [step_call_other _ w hk]
      exact h

theorem committed_run {w : MutationWorld κ} (ts : List (MutationTurn κ)) {k : κ}
    (h : (w.calls k).isCommitted = true) :
    ((run (mutations parse store calls).step w ts).calls k).isCommitted = true :=
  run_invariant (I := fun w : MutationWorld κ => (w.calls k).isCommitted = true)
    (fun _ t hw => committed_step t hw) h ts

variable (calls) in
/-- A committed update has moved the event past the version it supplied, and no
second call committed with that version. -/
structure OneWinner (id : String) (w : MutationWorld κ) : Prop where
  passed : ∀ k dto u (v : Rat), calls k = .update id dto u v → (w.calls k).isCommitted = true →
    v < (versionAt w.shared id : Rat)
  unique : ∀ k k' dto dto' u u' v, calls k = .update id dto u v → calls k' = .update id dto' u' v →
    (w.calls k).isCommitted = true → (w.calls k').isCommitted = true → k = k'

/-- A call committed after the turn was so before, or commits in it on an event at its version. -/
theorem committed_cases {id : String} {w : MutationWorld κ} {t : MutationTurn κ} {k : κ}
    {dto : UpdateEventDto} {u : Option String} {v : Rat} (hk : calls k = .update id dto u v)
    (hc : (((mutations parse store calls).step w t).calls k).isCommitted = true) :
    (w.calls k).isCommitted = true ∨ ((∃ now, t = .call k now) ∧
      (versionAt w.shared id : Rat) = v ∧
      versionAt ((mutations parse store calls).step w t).shared id =
        versionAt w.shared id + 1) := by
  by_cases hold : (w.calls k).isCommitted = true
  · exact .inl hold
  · have hnew : (w.calls k).isCommitted = false := by simpa using hold
    cases t with
    | env e => exact e.elim
    | call k' now =>
      by_cases hkk : k = k'
      · subst hkk
        have hcommit : CommitsOn parse store calls id w (.call k now) :=
          ⟨by rw [hk]; rfl, hnew, by simpa [mutations] using hc⟩
        obtain ⟨e, e', he, -, hx, -⟩ := hcommit.spec
        have hv : (e.version : Rat) = v := by rwa [hk] at hx
        refine .inr ⟨⟨now, rfl⟩, by simpa [versionAt, he] using hv, ?_⟩
        exact (eventVersion parse store calls id).bump w _ hcommit
      · rw [step_call_other _ w hkk] at hc
        exact absurd hc hold

omit [DecidableEq κ] in
theorem OneWinner.start (c : EventCollection) (id : String) :
    OneWinner calls id (startMutations c) := by
  constructor
  · intro k dto u v _ h
    simp [startMutations, MutationPhase.isCommitted] at h
  · intro k k' dto dto' u u' v _ _ h
    simp [startMutations, MutationPhase.isCommitted] at h

theorem OneWinner.step {id : String} {w : MutationWorld κ} (h : OneWinner calls id w)
    (t : MutationTurn κ) : OneWinner calls id ((mutations parse store calls).step w t) := by
  have hmono := (eventVersion parse store calls id).step_le w t
  constructor
  · intro k dto u v hk hc
    obtain hold | ⟨-, hv, hbump⟩ := committed_cases hk hc
    · have hle : (versionAt w.shared id : Rat) ≤
          (versionAt ((mutations parse store calls).step w t).shared id : Rat) :=
        Int.cast_le.mpr hmono
      exact lt_of_lt_of_le (h.passed k dto u v hk hold) hle
    · rw [hbump, ← hv]
      exact_mod_cast Int.lt_succ _
  · intro k k' dto dto' u u' v hk hk' hc hc'
    obtain hold | ⟨⟨now, ht⟩, hv, -⟩ := committed_cases hk hc
    · obtain hold' | ⟨-, hv', -⟩ := committed_cases hk' hc'
      · exact h.unique k k' dto dto' u u' v hk hk' hold hold'
      · exact absurd hv' (h.passed k dto u v hk hold).ne'
    · obtain hold' | ⟨⟨now', ht'⟩, -, -⟩ := committed_cases hk' hc'
      · exact absurd hv (h.passed k' dto' u' v hk' hold').ne'
      · cases ht.symm.trans ht'
        rfl

theorem quiet_at_version {id : String} {w : MutationWorld κ} {ts : List (MutationTurn κ)}
    {e e₀ : Event} {v : Rat} (he₀ : w.shared id = some e₀) (hv₀ : (e₀.version : Rat) = v)
    (he : (run (mutations parse store calls).step w ts).shared id = some e)
    (hv : (e.version : Rat) = v) :
    Along (mutations parse store calls).step
      (fun w t => ¬CommitsOn parse store calls id w t) w ts := by
  have hsame : e.version = e₀.version := by
    have hcast : (e.version : Rat) = (e₀.version : Rat) := hv.trans hv₀.symm
    exact_mod_cast hcast
  refine (eventVersion parse store calls id).quiet_between ?_
  simp [eventVersion, versionAt, he, he₀, hsame]

variable (parse store calls) in
/-- No lost update on the event `id`, over the run `turns` from the collection `c`. -/
structure NoLostUpdate (c : EventCollection) (id : String) (turns : List (MutationTurn κ)) :
    Prop where
  /-- At most one update call that supplied a given version ever commits. -/
  one_winner : ∀ k k' dto dto' u u' v,
    calls k = .update id dto u v → calls k' = .update id dto' u' v →
    ((run (mutations parse store calls).step (startMutations c) turns).calls k).isCommitted = true →
    ((run (mutations parse store calls).step (startMutations c) turns).calls k').isCommitted =
      true →
    k = k'
  /-- An update commits on an event at the supplied version, and nothing committed on
  the event since it first had that version. -/
  untouched : ∀ pre post k now dto u v,
    turns = pre ++ .call k now :: post → calls k = .update id dto u v →
    CommitsOn parse store calls id
      (run (mutations parse store calls).step (startMutations c) pre) (.call k now) →
    (∃ e, (run (mutations parse store calls).step (startMutations c) pre).shared id = some e ∧
      (e.version : Rat) = v) ∧
    ∀ us vs, pre = us ++ vs →
      (∃ e, (run (mutations parse store calls).step (startMutations c) us).shared id = some e ∧
        (e.version : Rat) = v) →
      Along (mutations parse store calls).step
        (fun w t => ¬CommitsOn parse store calls id w t)
        (run (mutations parse store calls).step (startMutations c) us) vs
  /-- Every committed mutation raises the version by exactly one, and a turn that
  commits nothing leaves the event as it was. -/
  by_one : Along (mutations parse store calls).step
    (fun w t => (CommitsOn parse store calls id w t → ∃ e e', w.shared id = some e ∧
        ((mutations parse store calls).step w t).shared id = some e' ∧
        e'.version = e.version + 1) ∧
      (¬CommitsOn parse store calls id w t →
        ((mutations parse store calls).step w t).shared id = w.shared id))
    (startMutations c) turns
  /-- A version that has been left never becomes valid again. -/
  never_again : ∀ us vs ts, turns = us ++ vs ++ ts →
    versionAt (run (mutations parse store calls).step (startMutations c) (us ++ vs)).shared id ≠
      versionAt (run (mutations parse store calls).step (startMutations c) us).shared id →
    versionAt (run (mutations parse store calls).step (startMutations c) turns).shared id ≠
      versionAt (run (mutations parse store calls).step (startMutations c) us).shared id
  /-- An update that has had its two turns without committing has raised. -/
  raises : ∀ k dto u v, calls k = .update id dto u v → 2 ≤ turnsOf k turns →
    ((run (mutations parse store calls).step (startMutations c) turns).calls k).isCommitted =
      false →
    ∃ f, (run (mutations parse store calls).step (startMutations c) turns).calls k = .raised f
  /-- A call that does not commit never changes the collection. -/
  harmless : ∀ k,
    ((run (mutations parse store calls).step (startMutations c) turns).calls k).isCommitted =
      false →
    Along (mutations parse store calls).step
      (fun w t => ∀ now, t = .call k now →
        ((mutations parse store calls).step w t).shared = w.shared)
      (startMutations c) turns

theorem harmless_run {k : κ} (w : MutationWorld κ) (ts : List (MutationTurn κ))
    (h : ((run (mutations parse store calls).step w ts).calls k).isCommitted = false) :
    Along (mutations parse store calls).step
      (fun w t => ∀ now, t = .call k now →
        ((mutations parse store calls).step w t).shared = w.shared) w ts := by
  induction ts generalizing w with
  | nil => trivial
  | cons t ts ih =>
    refine ⟨?_, ih _ h⟩
    rintro now rfl
    refine shared_of_not_committed ?_
    by_contra hc
    have hc' : (((mutations parse store calls).step w (.call k now)).calls k).isCommitted = true :=
      by simpa using hc
    exact absurd ((committed_run ts hc').symm.trans h) (by decide)

theorem no_lost_update (parse : String → JsDate) (store : EventStore) (calls : κ → Mutation)
    (c : EventCollection) (id : String) (turns : List (MutationTurn κ)) :
    NoLostUpdate parse store calls c id turns := by
  have hend : OneWinner calls id
      (run (mutations parse store calls).step (startMutations c) turns) :=
    run_invariant (fun w t h => h.step t) (OneWinner.start c id) turns
  constructor
  case one_winner => exact hend.unique
  case untouched =>
    intro pre post k now dto u v _ hk hc
    obtain ⟨e, e', he, -, hx, -⟩ := hc.spec
    rw [hk] at hx
    refine ⟨⟨e, he, hx⟩, ?_⟩
    rintro us vs rfl ⟨e₀, he₀, hv₀⟩
    rw [run_append] at he
    exact quiet_at_version he₀ hv₀ he hx
  case by_one =>
    refine along_of_forall ?_ _ _
    intro w t
    refine ⟨fun hc => ?_, keeps_of_not_commitsOn⟩
    cases t with
    | env e => exact e.elim
    | call k now =>
      obtain ⟨e, e', he, hv, -, he'⟩ := hc.spec
      exact ⟨e, e', he, he', hv⟩
  case never_again =>
    rintro us vs ts rfl hne
    rw [run_append] at hne
    have h := (eventVersion parse store calls id).never_again hne ts
    rwa [← run_append, ← List.append_assoc] at h
  case raises =>
    intro k dto u v hk hturns hc
    have h := rank_run (mutations parse store calls) k MutationPhase.rank 2
      (fun now l c => by simpa only [mutations, hk] using Mutation.act_rank parse store now l c)
      (startMutations c) turns
    exact MutationPhase.settled_of_rank (by omega) hc
  case harmless => exact fun k hc => harmless_run _ _ hc

end Interleavings
end MsaTuto
