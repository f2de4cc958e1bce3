import Mathlib.Logic.Function.Basic

set_option autoImplicit false

namespace Iteration

variable {σ ρ : Type*}

/-- A loop whose body either goes round again or leaves with a result. `none` means that
the loop had not left after the given number of rounds. -/
def iterate (body : σ → σ ⊕ ρ) : Nat → σ → Option ρ
  | 0, _ => none
  | k+1, s =>
    match body s with
    | .inl t => iterate body k t
    | .inr r => some r

/-- The state at the loop head after the given number of rounds, if the loop gets there. -/
def rounds (body : σ → σ ⊕ ρ) : Nat → σ → Option σ
  | 0, s => some s
  | k+1, s =>
    match body s with
    | .inl t => rounds body k t
    | .inr _ => none

/-- Total correctness from an invariant and a variant: the loop leaves within `μ s + 1`
rounds, with a result that the invariant allows. -/
theorem iterate_total {body : σ → σ ⊕ ρ} (I : σ → Prop) (μ : σ → Nat) (Q : ρ → Prop)
    (hround : ∀ s t, I s → body s = .inl t → I t ∧ μ t < μ s)
    (hleave : ∀ s r, I s → body s = .inr r → Q r) {s : σ} (hs : I s) {k : Nat}
    (hk : μ s < k) : ∃ r, iterate body k s = some r ∧ Q r := by
  induction k generalizing s with
  | zero => omega
  | succ k ih =>
    cases h : body s with
    | inl t =>
      obtain ⟨ht,hlt⟩ := hround s t hs h
      simpa [iterate,h] using ih ht (by omega)
    | inr r => exact ⟨r, by simp [iterate,h], hleave s r hs h⟩

/-- A loop that can always go round never leaves. -/
theorem iterate_eq_none {body : σ → σ ⊕ ρ} (I : σ → Prop)
    (hround : ∀ s, I s → ∃ t, body s = .inl t ∧ I t) {s : σ} (hs : I s) (k : Nat) :
    iterate body k s = none := by
  induction k generalizing s with
  | zero => rfl
  | succ k ih =>
    obtain ⟨t,ht,hi⟩ := hround s hs
    simp only [iterate,ht]
    exact ih hi

/-- What every round keeps holds of the result. -/
theorem iterate_keeps {body : σ → σ ⊕ ρ} (I : σ → Prop) (Q : ρ → Prop)
    (hround : ∀ s t, I s → body s = .inl t → I t) (hleave : ∀ s r, I s → body s = .inr r → Q r)
    {s : σ} (hs : I s) {k : Nat} {r : ρ} (h : iterate body k s = some r) : Q r := by
  induction k generalizing s with
  | zero => simp [iterate] at h
  | succ k ih =>
    unfold iterate at h
    cases hb : body s with
    | inl t =>
      rw [hb] at h
      exact ih (hround s t hs hb) h
    | inr r' =>
      rw [hb] at h
      exact Option.some.inj h ▸ hleave s r' hs hb

end Iteration
