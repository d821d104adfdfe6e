import Mathlib.Logic.Function.Basic
import Mathlib.Algebra.GroupWithZero.Nat
import Mathlib.Data.List.Basic

/-! Finite runs of a step function, and pools of calls taking turns on one
shared state. Independent namespace: nothing here knows what the calls do. -/
namespace Runs
variable {σ ε : Type*}

def run (step : σ → ε → σ) : σ → List ε → σ
  | s, [] => s
  | s, e :: es => run step (step s e) es

/-- `P` holds of the state before, and the label of, every step of the run. -/
def Along (step : σ → ε → σ) (P : σ → ε → Prop) : σ → List ε → Prop
  | _, [] => True
  | s, e :: es => P s e ∧ Along step P (step s e) es

/-- `Q` holds of every state of the run, both ends included. -/
def Always (step : σ → ε → σ) (Q : σ → Prop) : σ → List ε → Prop
  | s, [] => Q s
  | s, e :: es => Q s ∧ Always step Q (step s e) es

section General
variable {step : σ → ε → σ}

theorem run_append (s : σ) (us vs : List ε) :
    run step s (us ++ vs) = run step (run step s us) vs := by
  induction us generalizing s with
  | nil => rfl
  | cons e us ih => simpa [run] using ih (step s e)

theorem Along.mono {P P' : σ → ε → Prop} (h : ∀ s e, P s e → P' s e) {s : σ} {es : List ε}
    (hP : Along step P s es) : Along step P' s es := by
  induction es generalizing s with
  | nil => trivial
  | cons e es ih => exact ⟨h s e hP.1, ih hP.2⟩

theorem along_of_forall {P : σ → ε → Prop} (h : ∀ s e, P s e) (s : σ) (es : List ε) :
    Along step P s es := by
  induction es generalizing s with
  | nil => trivial
  | cons e es ih => exact ⟨h s e, ih (step s e)⟩

theorem along_of_mem {P : ε → Prop} {es : List ε} (h : ∀ e ∈ es, P e) (s : σ) :
    Along step (fun _ e => P e) s es := by
  induction es generalizing s with
  | nil => trivial
  | cons e es ih =>
    exact ⟨h e List.mem_cons_self, ih (fun e' he' => h e' (List.mem_cons_of_mem e he')) _⟩

theorem along_append {P : σ → ε → Prop} {s : σ} {us vs : List ε} :
    Along step P s (us ++ vs) ↔ Along step P s us ∧ Along step P (run step s us) vs := by
  induction us generalizing s with
  | nil => simp [Along, run]
  | cons e us ih => simp only [List.cons_append, Along, run, ih, and_assoc]

theorem Always.head {Q : σ → Prop} {s : σ} {es : List ε} (h : Always step Q s es) : Q s := by
  cases es with
  | nil => exact h
  | cons e es => exact h.1

theorem Always.last {Q : σ → Prop} {s : σ} {es : List ε} (h : Always step Q s es) :
    Q (run step s es) := by
  induction es generalizing s with
  | nil => exact h
  | cons e es ih => exact ih h.2

theorem Always.mono {Q Q' : σ → Prop} (h : ∀ s, Q s → Q' s) {s : σ} {es : List ε}
    (hQ : Always step Q s es) : Always step Q' s es := by
  induction es generalizing s with
  | nil => exact h s hQ
  | cons e es ih => exact ⟨h s hQ.1, ih hQ.2⟩

/-- The invariant rule: what every step allowed by `P` keeps holds all along a
run whose steps are all allowed. -/
theorem always_of_step {I : σ → Prop} {P : σ → ε → Prop}
    (hstep : ∀ s e, I s → P s e → I (step s e)) {s : σ} {es : List ε}
    (hs : I s) (hP : Along step P s es) : Always step I s es := by
  induction es generalizing s with
  | nil => exact hs
  | cons e es ih => exact ⟨hs, ih (hstep s e hs hP.1) hP.2⟩

theorem run_invariant {I : σ → Prop} (hstep : ∀ s e, I s → I (step s e)) {s : σ}
    (hs : I s) (es : List ε) : I (run step s es) :=
  (always_of_step (fun s e h _ => hstep s e h) hs (along_of_forall (fun _ _ => trivial) s es)).last

/-- The invariant rule for what is said of a state in view of the steps that led to it. -/
theorem run_history {I : List ε → σ → Prop} {s : σ} (hs : I [] s)
    (hstep : ∀ us e, I us (run step s us) → I (us ++ [e]) (step (run step s us) e))
    (es : List ε) : I es (run step s es) := by
  have hext : ∀ us, I us (run step s us) → I (us ++ es) (run step s (us ++ es)) := by
    induction es with
    | nil => simp
    | cons e es ih =>
      intro us hus
      have hnext : I (us ++ [e]) (run step s (us ++ [e])) := by
        rw [run_append]
        exact hstep us e hus
      simpa using ih (us ++ [e]) hnext
  exact hext [] hs

/-- The invariant rule beside a condition `R` that the run is known to meet. -/
theorem always_of_along {I Q : σ → Prop} {P R : σ → ε → Prop} (hQ : ∀ s, I s → Q s)
    (hI : ∀ s e, I s → R s e → P s e → I (step s e)) {s : σ} {es : List ε} (hs : I s)
    (hR : Along step R s es) (h : Along step P s es) : Always step Q s es := by
  induction es generalizing s with
  | nil => exact hQ s hs
  | cons e es ih => exact ⟨hQ s hs, ih (hI s e hs hR.1 h.1) hR.2 h.2⟩

/-- The converse rule: a step that `P` does not allow breaks `Q`. -/
theorem along_of_always {I Q : σ → Prop} {P R : σ → ε → Prop}
    (hI : ∀ s e, I s → R s e → P s e → I (step s e))
    (hP : ∀ s e, I s → R s e → Q (step s e) → P s e) {s : σ} {es : List ε} (hs : I s)
    (hR : Along step R s es) (h : Always step Q s es) : Along step P s es := by
  induction es generalizing s with
  | nil => trivial
  | cons e es ih =>
    have hp := hP s e hs hR.1 h.2.head
    exact ⟨hp, ih (hI s e hs hR.1 hp) hR.2 h.2⟩

/-- Where the steps that `P` allows keep the invariant `I`, and any other step breaks `Q`,
which `I` implies, `Q` holds all along a run exactly when `P` allows all its steps. -/
theorem always_iff_along {I Q : σ → Prop} {P R : σ → ε → Prop} (hQ : ∀ s, I s → Q s)
    (hI : ∀ s e, I s → R s e → P s e → I (step s e))
    (hP : ∀ s e, I s → R s e → Q (step s e) → P s e) {s : σ} {es : List ε}
    (hs : I s) (hR : Along step R s es) : Always step Q s es ↔ Along step P s es :=
  ⟨along_of_always hI hP hs hR, always_of_along hQ hI hs hR⟩

theorem along_of_invariant {I : σ → Prop} {P R : σ → ε → Prop}
    (hI : ∀ s e, I s → R s e → I (step s e)) (hP : ∀ s e, I s → R s e → P s e) {s : σ}
    {es : List ε} (hs : I s) (hR : Along step R s es) : Along step P s es := by
  induction es generalizing s with
  | nil => trivial
  | cons e es ih => exact ⟨hP s e hs hR.1, ih (hI s e hs hR.1) hR.2⟩

/-- What no step can bring back once it is lost held all along if it holds at the end. -/
theorem always_of_last {I Q : σ → Prop} {R : σ → ε → Prop}
    (hI : ∀ s e, I s → R s e → I (step s e))
    (hQ : ∀ s e, I s → R s e → Q (step s e) → Q s) {s : σ} {es : List ε}
    (hs : I s) (hR : Along step R s es) (h : Q (run step s es)) : Always step Q s es := by
  induction es generalizing s with
  | nil => exact h
  | cons e es ih =>
    have hrest := ih (hI s e hs hR.1) hR.2 h
    exact ⟨hQ s e hs hR.1 hrest.head, hrest⟩

/-- Some step of the run meets `P`, and every later one `Q`. -/
def Since (step : σ → ε → σ) (P Q : σ → ε → Prop) (s : σ) (es : List ε) : Prop :=
  ∃ us e vs, es = us ++ e :: vs ∧ P (run step s us) e ∧
    Along step Q (step (run step s us) e) vs

theorem not_since_nil {P Q : σ → ε → Prop} {s : σ} : ¬Since step P Q s [] := by
  intro ⟨us, e, vs, h, _⟩
  cases us <;> cases h

theorem since_snoc {P Q : σ → ε → Prop} {s : σ} {es : List ε} {e : ε} :
    Since step P Q s (es ++ [e]) ↔
      P (run step s es) e ∨ (Since step P Q s es ∧ Q (run step s es) e) := by
  constructor
  · intro ⟨us, e', vs, h, hP, hQ⟩
    obtain rfl | ⟨vs, e'', rfl⟩ := vs.eq_nil_or_concat'
    · obtain ⟨rfl, he⟩ := List.append_inj' h rfl
      cases he
      exact .inl hP
    · rw [← List.cons_append, ← List.append_assoc] at h
      obtain ⟨rfl, he⟩ := List.append_inj' h rfl
      cases he
      obtain ⟨hQ, hlast, -⟩ := along_append.mp hQ
      refine .inr ⟨⟨us, e', vs, rfl, hP, hQ⟩, ?_⟩
      rwa [run_append]
  · rintro (hP | ⟨⟨us, e', vs, rfl, hP, hQ⟩, hlast⟩)
    · exact ⟨es, e, [], rfl, hP, trivial⟩
    · refine ⟨us, e', vs ++ [e], by simp, hP, along_append.mpr ⟨hQ, ?_, trivial⟩⟩
      rwa [run_append] at hlast

/-- Progress: where every step that counts raises the rank, up to `n`, and no step lowers it,
`n` such steps bring it to `n`. -/
theorem rank_run_of_count {I : σ → Prop} (hI : ∀ s e, I s → I (step s e)) (rank : σ → Nat) (n : Nat)
    (counts : ε → Bool)
    (hrank : ∀ s e, I s → min n (rank s + if counts e then 1 else 0) ≤ rank (step s e)) {s : σ}
    (hs : I s) (es : List ε) :
    min n (rank s + es.countP counts) ≤ rank (run step s es) := by
  induction es generalizing s with
  | nil => exact Nat.min_le_right _ _
  | cons e es ih =>
    have hnow := hrank s e hs
    have hrest := ih (hI s e hs)
    rw [List.countP_cons]
    simp only [run]
    omega

/-- A reflexive and transitive relation kept by every step from where the invariant holds relates
the ends of a run from there. -/
theorem run_rel_of_invariant {I : σ → Prop} {R : σ → σ → Prop} (hI : ∀ s e, I s → I (step s e))
    (hrefl : ∀ s, R s s) (htrans : ∀ a b c, R a b → R b c → R a c)
    (hstep : ∀ s e, I s → R s (step s e)) {s : σ} (hs : I s) (es : List ε) :
    R s (run step s es) := by
  induction es generalizing s with
  | nil => exact hrefl s
  | cons e es ih => exact htrans _ _ _ (hstep s e hs) (ih (hI s e hs))

/-- A reflexive and transitive relation kept by every step relates the ends. -/
theorem run_rel {R : σ → σ → Prop} (hrefl : ∀ s, R s s)
    (htrans : ∀ a b c, R a b → R b c → R a c) (hstep : ∀ s e, R s (step s e))
    (s : σ) (es : List ε) : R s (run step s es) :=
  run_rel_of_invariant (I := fun _ => True) (fun _ _ _ => trivial) hrefl htrans
    (fun s e _ => hstep s e) trivial es

/-- What the steps of a run come to, each by itself counted in the state before it. -/
def tally (step : σ → ε → σ) (gain : σ → ε → Nat) : σ → List ε → Nat
  | _, [] => 0
  | s, e :: es => gain s e + tally step gain (step s e) es

variable (step) in
/-- Where every gain is paid for by a potential, which a step raises by its cost at most. -/
theorem tally_le (gain : σ → ε → Nat) (potential : σ → Nat) (cost : ε → Nat) {I : σ → Prop}
    {P : ε → Prop} (hI : ∀ s e, I s → P e → I (step s e))
    (hstep : ∀ s e, I s → P e →
      gain s e + potential (step s e) ≤ potential s + cost e)
    {s : σ} (hs : I s) {es : List ε} (hP : ∀ e ∈ es, P e) :
    tally step gain s es + potential (run step s es) ≤ potential s + (es.map cost).sum := by
  induction es generalizing s with
  | nil => simp [tally, run]
  | cons e es ih =>
    have hhead := hstep s e hs (hP e List.mem_cons_self)
    have htail := ih (hI s e hs (hP e List.mem_cons_self)) fun e' he' =>
      hP e' (List.mem_cons_of_mem e he')
    simp only [tally, run, List.map_cons, List.sum_cons]
    omega

end General

structure World (κ σ ℓ : Type*) where
  shared : σ
  calls : κ → ℓ

/-- A turn of call `k` under the environment's choice `i`, or a move of the
environment on the shared state alone. -/
inductive Turn (κ ι ω : Type*) where
  | call (k : κ) (i : ι)
  | env (e : ω)

/-- What one turn of a call does, and what the environment can do by itself. -/
structure Pool (κ ι ω σ ℓ : Type*) where
  act : κ → ι → ℓ → σ → ℓ × σ
  env : ω → σ → σ

section Pools
variable {κ ι ω ℓ : Type*} [DecidableEq κ]

def Pool.step (p : Pool κ ι ω σ ℓ) (w : World κ σ ℓ) : Turn κ ι ω → World κ σ ℓ
  | .call k i =>
    ⟨(p.act k i (w.calls k) w.shared).2,
      Function.update w.calls k (p.act k i (w.calls k) w.shared).1⟩
  | .env e => ⟨p.env e w.shared, w.calls⟩

variable (p : Pool κ ι ω σ ℓ) (w : World κ σ ℓ)

@[simp] theorem step_call_shared (k : κ) (i : ι) :
    (p.step w (.call k i)).shared = (p.act k i (w.calls k) w.shared).2 := rfl

@[simp] theorem step_call_self (k : κ) (i : ι) :
    (p.step w (.call k i)).calls k = (p.act k i (w.calls k) w.shared).1 := by
  simp [Pool.step]

theorem step_call_other {k k' : κ} (h : k' ≠ k) (i : ι) :
    (p.step w (.call k i)).calls k' = w.calls k' := by
  simp [Pool.step, h]

@[simp] theorem step_env_shared (e : ω) : (p.step w (.env e)).shared = p.env e w.shared := rfl

@[simp] theorem step_env_calls (e : ω) : (p.step w (.env e)).calls = w.calls := rfl

def Holds (S : σ → Prop) (J : κ → ℓ → σ → Prop) (w : World κ σ ℓ) : Prop :=
  S w.shared ∧ ∀ k, J k (w.calls k) w.shared

/-- Interference freedom under the side condition `P`: a call's own turn keeps
`S` and its own `J`, and no turn of another spoils a `J` that held. -/
structure Stable (P : World κ σ ℓ → Turn κ ι ω → Prop) (S : σ → Prop)
    (J : κ → ℓ → σ → Prop) : Prop where
  own : ∀ (w : World κ σ ℓ) k i, P w (.call k i) → S w.shared → J k (w.calls k) w.shared →
    S (p.act k i (w.calls k) w.shared).2 ∧
      J k (p.act k i (w.calls k) w.shared).1 (p.act k i (w.calls k) w.shared).2
  other : ∀ (w : World κ σ ℓ) k i k', P w (.call k i) → S w.shared →
    J k (w.calls k) w.shared → k' ≠ k → J k' (w.calls k') w.shared →
      J k' (w.calls k') (p.act k i (w.calls k) w.shared).2
  env : ∀ (w : World κ σ ℓ) e, P w (.env e) → S w.shared →
    S (p.env e w.shared) ∧ ∀ k, J k (w.calls k) w.shared → J k (w.calls k) (p.env e w.shared)

variable {p w} {P : World κ σ ℓ → Turn κ ι ω → Prop} {S : σ → Prop} {J : κ → ℓ → σ → Prop}

theorem Stable.step (h : Stable p P S J) {t : Turn κ ι ω} (hw : Holds S J w) (ht : P w t) :
    Holds S J (p.step w t) := by
  cases t with
  | call k i =>
    obtain ⟨hS, hJ⟩ := h.own w k i ht hw.1 (hw.2 k)
    refine ⟨hS, fun k' => ?_⟩
    by_cases hk : k' = k
    · subst hk
      simpa using hJ
    · rw [step_call_other p w hk]
      exact h.other w k i k' ht hw.1 (hw.2 k) hk (hw.2 k')
  | env e =>
    obtain ⟨hS, hJ⟩ := h.env w e ht hw.1
    exact ⟨hS, fun k => hJ k (hw.2 k)⟩

theorem Stable.always (h : Stable p P S J) {ts : List (Turn κ ι ω)} (hw : Holds S J w)
    (hP : Along p.step P w ts) : Always p.step (Holds S J) w ts :=
  always_of_step (fun _ _ hI hp => h.step hI hp) hw hP

def Turn.isBy (k : κ) : Turn κ ι ω → Bool
  | .call k' _ => decide (k' = k)
  | .env _ => false

def turnsOf (k : κ) (ts : List (Turn κ ι ω)) : Nat := ts.countP (Turn.isBy k)

theorem calls_of_no_turn (p : Pool κ ι ω σ ℓ) {k : κ} {ts : List (Turn κ ι ω)}
    (h : turnsOf k ts = 0) (w : World κ σ ℓ) : (run p.step w ts).calls k = w.calls k := by
  induction ts generalizing w with
  | nil => rfl
  | cons t ts ih =>
    simp only [turnsOf, List.countP_cons] at h ih
    have hrest := ih (by omega) (p.step w t)
    cases t with
    | env e => exact hrest
    | call k' i =>
      have hk : k ≠ k' := by
        rintro rfl
        simp [Turn.isBy] at h
      exact hrest.trans (step_call_other p w hk i)

/-- Progress: if every turn of `k` raises the rank of its local state, up to `n`,
then after `n` turns of `k` the rank is `n`, whatever the others did. -/
theorem rank_run (p : Pool κ ι ω σ ℓ) (k : κ) (rank : ℓ → Nat) (n : Nat)
    (hact : ∀ i l s, min n (rank l + 1) ≤ rank (p.act k i l s).1) (w : World κ σ ℓ)
    (ts : List (Turn κ ι ω)) :
    min n (rank (w.calls k) + turnsOf k ts) ≤ rank ((run p.step w ts).calls k) := by
  induction ts generalizing w with
  | nil => exact Nat.min_le_right _ _
  | cons t ts ih =>
    have h := ih (p.step w t)
    simp only [turnsOf, List.countP_cons] at h ⊢
    cases t with
    | call k' i =>
      by_cases hk : k' = k
      · subst hk
        have h1 := hact i (w.calls k') w.shared
        simp only [step_call_self] at h
        simp only [Turn.isBy, run]
        simp
        omega
      · rw [step_call_other p w (Ne.symm hk)] at h
        simpa [Turn.isBy, hk, run] using h
    | env e => simpa [Turn.isBy, run] using h

end Pools
end Runs
