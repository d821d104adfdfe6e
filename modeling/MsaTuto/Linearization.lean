import MsaTuto.Runs

/-! Calls that take several turns beside operations done in one go: a run of the calls comes
to the same as the operations one after the other, each at the turn in which its call ends.
Independent namespace: nothing here knows what the calls do. -/
namespace Runs
variable {κ ι ω σ ℓ ρ : Type*}

/-- What each call does in one go, and what the environment does. -/
structure Atomic (κ ι ω σ ρ : Type*) where
  act : κ → ι → σ → ρ × σ
  env : ω → σ → σ

namespace Atomic

/-- The operations as calls of a single turn, which keep their result. -/
def pool (a : Atomic κ ι ω σ ρ) : Pool κ ι ω σ (Option ρ) where
  act
    | k, i, none, s => (some (a.act k i s).1, (a.act k i s).2)
    | _, _, some r, s => (some r, s)
  env := a.env

end Atomic

/-- The calls seen from outside: the shared state and the results there are. -/
def World.results (result : ℓ → Option ρ) (w : World κ σ ℓ) : World κ σ (Option ρ) :=
  ⟨w.shared, fun k => result (w.calls k)⟩

/-- Up to its last turn a call changes nothing, and in its last turn it does, and comes to,
what its operation does in one go from the state of that moment. -/
structure Linearizes (p : Pool κ ι ω σ ℓ) (a : Atomic κ ι ω σ ρ) (result : ℓ → Option ρ)
    (S : σ → Prop) (J : κ → ℓ → σ → Prop) : Prop where
  stable : Stable p (fun _ _ => True) S J
  silent : ∀ k i l s, S s → J k l s → result l = none → result (p.act k i l s).1 = none →
    (p.act k i l s).2 = s
  ends : ∀ k i l s r, S s → J k l s → result l = none → result (p.act k i l s).1 = some r →
    a.act k i s = (r, (p.act k i l s).2)
  settled : ∀ k i l s, (result l).isSome → result (p.act k i l s).1 = result l ∧
    (p.act k i l s).2 = s
  env : p.env = a.env

section Endings
variable (p : Pool κ ι ω σ ℓ) (result : ℓ → Option ρ)

/-- The turn is the last one of its call, or the environment's. -/
def endsCall (w : World κ σ ℓ) : Turn κ ι ω → Bool
  | .call k i => (result (w.calls k)).isNone && (result (p.act k i (w.calls k) w.shared).1).isSome
  | .env _ => true

variable [DecidableEq κ]

/-- The run with the turns left out in which no call ends. -/
def endings : World κ σ ℓ → List (Turn κ ι ω) → List (Turn κ ι ω)
  | _, [] => []
  | w, t :: ts =>
    if endsCall p result w t then t :: endings (p.step w t) ts else endings (p.step w t) ts

/-- The order of the run is kept. -/
theorem endings_sublist (w : World κ σ ℓ) (ts : List (Turn κ ι ω)) :
    (endings p result w ts).Sublist ts := by
  induction ts generalizing w with
  | nil => exact List.Sublist.refl []
  | cons t ts ih =>
    simp only [endings]
    split
    · exact (ih _).cons_cons t
    · exact (ih _).cons t

end Endings

section Steps
variable {p : Pool κ ι ω σ ℓ} {a : Atomic κ ι ω σ ρ} {result : ℓ → Option ρ} {S : σ → Prop}
  {J : κ → ℓ → σ → Prop} {w : World κ σ ℓ} [DecidableEq κ]

theorem results_call (k : κ) (i : ι) :
    (p.step w (.call k i)).results result =
      ⟨(p.act k i (w.calls k) w.shared).2, Function.update (w.results result).calls k
        (result (p.act k i (w.calls k) w.shared).1)⟩ := by
  simp only [World.results, Pool.step, World.mk.injEq, true_and]
  funext k'
  by_cases hk : k' = k
  · subst hk
    simp
  · simp [hk]

theorem turnsOf_cons_of_not {k : κ} {t : Turn κ ι ω} (h : t.isBy k = false)
    (ts : List (Turn κ ι ω)) : turnsOf k (t :: ts) = turnsOf k ts := by
  simp [turnsOf, h]

/-- A turn in which no call ends is not seen from outside. -/
theorem Linearizes.stutter (h : Linearizes p a result S J) (hw : Holds S J w) {t : Turn κ ι ω}
    (ht : endsCall p result w t = false) : (p.step w t).results result = w.results result := by
  cases t with
  | env e => cases ht
  | call k i =>
    have hsame : result (p.act k i (w.calls k) w.shared).1 = result (w.calls k) ∧
        (p.act k i (w.calls k) w.shared).2 = w.shared := by
      cases hl : result (w.calls k) with
      | some r =>
        obtain ⟨hr, hs⟩ := h.settled k i (w.calls k) w.shared (by simp [hl])
        exact ⟨hr.trans hl, hs⟩
      | none =>
        have hnone : result (p.act k i (w.calls k) w.shared).1 = none := by
          simpa [endsCall, hl] using ht
        exact ⟨hnone, h.silent k i (w.calls k) w.shared hw.1 (hw.2 k) hl hnone⟩
    rw [results_call, hsame.1, hsame.2]
    simp [World.results]

/-- A turn in which a call ends is the operation done in one go. -/
theorem Linearizes.atomic (h : Linearizes p a result S J) (hw : Holds S J w) {t : Turn κ ι ω}
    (ht : endsCall p result w t = true) :
    (p.step w t).results result = a.pool.step (w.results result) t := by
  cases t with
  | env e => simp [World.results, Pool.step, Atomic.pool, h.env]
  | call k i =>
    simp only [endsCall, Bool.and_eq_true, Option.isNone_iff_eq_none,
      Option.isSome_iff_exists] at ht
    obtain ⟨hl, r, hr⟩ := ht
    have hact := h.ends k i (w.calls k) w.shared r hw.1 (hw.2 k) hl hr
    rw [results_call, hr]
    simp [Pool.step, Atomic.pool, World.results, hl, hact]

/-- Every interleaving of the calls is seen from outside as a run of the operations, in the
order in which the calls end. -/
theorem Linearizes.run_eq (h : Linearizes p a result S J) (hw : Holds S J w)
    (ts : List (Turn κ ι ω)) :
    (run p.step w ts).results result =
      run a.pool.step (w.results result) (endings p result w ts) := by
  induction ts generalizing w with
  | nil => rfl
  | cons t ts ih =>
    have hnext := ih (h.stable.step hw (t := t) trivial)
    simp only [run, endings]
    cases ht : endsCall p result w t with
    | true =>
      rw [h.atomic hw ht] at hnext
      simpa [run] using hnext
    | false =>
      rw [h.stutter hw ht] at hnext
      simpa using hnext

/-- No call ends twice. -/
theorem Linearizes.ends_once (h : Linearizes p a result S J) (k : κ) (w : World κ σ ℓ)
    (ts : List (Turn κ ι ω)) :
    turnsOf k (endings p result w ts) ≤ if (result (w.calls k)).isSome then 0 else 1 := by
  induction ts generalizing w with
  | nil => exact Nat.zero_le _
  | cons t ts ih =>
    have hrest := ih (p.step w t)
    cases t with
    | env e =>
      have hkept : endings p result w (.env e :: ts) =
          .env e :: endings p result (p.step w (.env e)) ts := rfl
      rw [hkept, turnsOf_cons_of_not rfl]
      exact hrest
    | call k' i =>
      by_cases hk : k = k'
      · subst hk
        rw [step_call_self] at hrest
        cases hl : result (w.calls k) with
        | some r =>
          have hsame := (h.settled k i (w.calls k) w.shared (by simp [hl])).1
          simpa [endings, endsCall, hl, hsame] using hrest
        | none =>
          cases hr : result (p.act k i (w.calls k) w.shared).1 with
          | some r =>
            simp only [hr, Option.isSome_some, if_true] at hrest
            have hone : turnsOf k (endings p result w (.call k i :: ts)) =
                turnsOf k (endings p result (p.step w (.call k i)) ts) + 1 := by
              simp [endings, endsCall, hl, hr, turnsOf, Turn.isBy]
            rw [hone]
            exact Nat.succ_le_succ hrest
          | none => simpa [endings, endsCall, hl, hr] using hrest
      · rw [step_call_other _ _ hk] at hrest
        simp only [endings]
        split
        · rw [turnsOf_cons_of_not (by simp [Turn.isBy, Ne.symm hk])]
          exact hrest
        · exact hrest

/-- What the operations keep, one after the other, the interleaved calls keep. -/
theorem Linearizes.invariant (h : Linearizes p a result S J) (hw : Holds S J w)
    {I : World κ σ (Option ρ) → Prop} (hstep : ∀ v t, I v → I (a.pool.step v t))
    (hI : I (w.results result)) (ts : List (Turn κ ι ω)) :
    I ((run p.step w ts).results result) := by
  rw [h.run_eq hw]
  exact run_invariant hstep hI _

end Steps
end Runs
