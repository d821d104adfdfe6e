import MsaTuto.Runs

/-! Optimistic concurrency in general: a system whose steps are either quiet or
commits, where a commit raises one version counter by exactly one. -/
namespace Runs

structure Versioned {σ ε : Type*} (step : σ → ε → σ) where
  version : σ → Int
  Commits : σ → ε → Prop
  quiet : ∀ s e, ¬Commits s e → version (step s e) = version s
  bump : ∀ s e, Commits s e → version (step s e) = version s + 1

namespace Versioned
variable {σ ε : Type*} {step : σ → ε → σ} (V : Versioned step)

theorem step_le (s : σ) (e : ε) : V.version s ≤ V.version (step s e) := by
  by_cases h : V.Commits s e
  · have := V.bump s e h
    omega
  · have := V.quiet s e h
    omega

theorem run_le (s : σ) (es : List ε) : V.version s ≤ V.version (run step s es) :=
  run_rel (R := fun a b => V.version a ≤ V.version b) (fun _ => Int.le_refl _)
    (fun _ _ _ => Int.le_trans) V.step_le s es

theorem commit_lt_run {s : σ} {e : ε} (h : V.Commits s e) (es : List ε) :
    V.version s < V.version (run step s (e :: es)) := by
  have h1 := V.bump s e h
  have h2 := V.run_le (step s e) es
  simp only [run]
  omega

theorem quiet_between {s : σ} {es : List ε} (h : V.version (run step s es) = V.version s) :
    Along step (fun s e => ¬V.Commits s e) s es := by
  induction es generalizing s with
  | nil => trivial
  | cons e es ih =>
    have hq : ¬V.Commits s e := by
      intro hc
      have := V.commit_lt_run hc es
      omega
    refine ⟨hq, ih ?_⟩
    rw [V.quiet s e hq]
    exact h

/-- A version that has been left never becomes valid again. -/
theorem never_again {s : σ} {es : List ε} (h : V.version (run step s es) ≠ V.version s)
    (fs : List ε) : V.version (run step s (es ++ fs)) ≠ V.version s := by
  have h1 := V.run_le s es
  have h2 := V.run_le (run step s es) fs
  rw [run_append]
  omega

end Versioned
end Runs
