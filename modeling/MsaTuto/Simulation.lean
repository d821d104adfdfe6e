import MsaTuto.Runs

/-! One system followed by another: each step of the first is matched by at most one step of the
second, which may depend on the state the first one was in. -/
namespace Runs
variable {σ τ ε φ : Type*}

/-- The steps that follow those of a run. -/
def followed (step : σ → ε → σ) (image : σ → ε → Option φ) : σ → List ε → List φ
  | _, [] => []
  | s, e :: es => (image s e).toList ++ followed step image (step s e) es

/-- Every step keeps `R` between the state reached and the state that follows it. -/
def Simulates (step : σ → ε → σ) (image : σ → ε → Option φ) (step' : τ → φ → τ)
    (R : σ → τ → Prop) : Prop :=
  ∀ s t e, R s t → R (step s e) (run step' t (image s e).toList)

section General
variable {step : σ → ε → σ} {image : σ → ε → Option φ} {step' : τ → φ → τ} {R : σ → τ → Prop}
  {s : σ} {t : τ}

theorem followed_append (us vs : List ε) :
    followed step image s (us ++ vs) =
      followed step image s us ++ followed step image (Runs.run step s us) vs := by
  induction us generalizing s with
  | nil => rfl
  | cons e us ih =>
    rw [List.cons_append, followed, ih, followed, List.append_assoc]
    rfl

/-- A step of the following run is that of one step of the run. -/
theorem split_followed {es : List ε} {us' vs' : List φ} {f : φ}
    (h : followed step image s es = us' ++ f :: vs') :
    ∃ us e vs, es = us ++ e :: vs ∧ followed step image s us = us' ∧
      image (Runs.run step s us) e = some f := by
  induction es generalizing s us' with
  | nil => simp [followed] at h
  | cons e es ih =>
    rw [followed] at h
    cases himage : image s e with
    | none =>
      rw [himage] at h
      obtain ⟨us, e', vs, rfl, hus, hf⟩ := ih h
      exact ⟨e :: us, e', vs, rfl, by simp [followed, himage, hus], hf⟩
    | some g =>
      rw [himage] at h
      cases us' with
      | nil =>
        obtain ⟨rfl, -⟩ := List.cons.inj h
        exact ⟨[], e, es, rfl, rfl, himage⟩
      | cons g' us' =>
        obtain ⟨rfl, hrest⟩ := List.cons.inj h
        obtain ⟨us, e', vs, rfl, hus, hf⟩ := ih hrest
        exact ⟨e :: us, e', vs, rfl, by simp [followed, himage, hus], hf⟩

theorem Simulates.run (h : Simulates step image step' R) (hst : R s t) (es : List ε) :
    R (run step s es) (Runs.run step' t (followed step image s es)) := by
  induction es generalizing s t with
  | nil => exact hst
  | cons e es ih =>
    rw [followed, run_append]
    exact ih (h s t e hst)

/-- What holds along a run holds along the run that follows it. -/
theorem Simulates.along {P : σ → ε → Prop} {P' : τ → φ → Prop} (h : Simulates step image step' R)
    (hP : ∀ s t e f, R s t → P s e → image s e = some f → P' t f) (hst : R s t) {es : List ε}
    (hes : Along step P s es) : Along step' P' t (followed step image s es) := by
  induction es generalizing s t with
  | nil => trivial
  | cons e es ih =>
    have hhead : Along step' P' t (image s e).toList := by
      cases himage : image s e with
      | none => trivial
      | some f => exact ⟨hP s t e f hst hes.1 himage, trivial⟩
    rw [followed, along_append]
    exact ⟨hhead, ih (h s t e hst) hes.2⟩

/-- The steps that are counted are counted in the run that follows, too. -/
theorem countP_followed (step : σ → ε → σ) {q : ε → Bool} {q' : φ → Bool}
    (hq : ∀ s e, q e = true → ∃ f, image s e = some f ∧ q' f = true) (s : σ) (es : List ε) :
    es.countP q ≤ (followed step image s es).countP q' := by
  induction es generalizing s with
  | nil => exact Nat.zero_le _
  | cons e es ih =>
    have hrest := ih (step s e)
    rw [followed, List.countP_append]
    cases he : q e with
    | false =>
      rw [List.countP_cons_of_neg (by simp [he])]
      omega
    | true =>
      obtain ⟨f, himage, hf⟩ := hq s e he
      rw [List.countP_cons_of_pos he, himage, Option.toList_some, List.countP_singleton, if_pos hf]
      omega

end General
end Runs
