import Librim.Foundation.Transition

/-! Machines that share a medium. What one of them puts on the medium stays there; a step that takes
something from it is admitted only if it is there. -/

set_option autoImplicit false

namespace Medium

open Transition

variable {ι ε μ : Type*} {σ : ι → Type*}

/-- The parts on their own: where they start, what they do and under which condition, what a step
puts on the medium and what it needs there. -/
structure System (σ : ι → Type*) (ε μ : Type*) where
  init : ∀ i, σ i → Prop
  step : ∀ i, σ i → ε → Option (σ i)
  ok : ∀ i, σ i → ε → Prop
  emits : ∀ i, σ i → ε → List μ
  admits : List μ → ι → ε → Bool

structure State (σ : ι → Type*) (μ : Type*) where
  parts : ∀ i, σ i
  medium : List μ

namespace System

variable [DecidableEq ι]

/-- One part takes a step. -/
def move (S : System σ ε μ) (s : State σ μ) (e : ι × ε) : Option (State σ μ) :=
  if S.admits s.medium e.1 e.2 then
    (S.step e.1 (s.parts e.1) e.2).map (fun t =>
      ⟨Function.update s.parts e.1 t, s.medium ++ S.emits e.1 (s.parts e.1) e.2⟩)
  else none

theorem move_eq_some {S : System σ ε μ} {s s' : State σ μ} {e : ι × ε} : S.move s e = some s' ↔
    S.admits s.medium e.1 e.2 = true ∧ ∃ t, S.step e.1 (s.parts e.1) e.2 = some t ∧
      s' = ⟨Function.update s.parts e.1 t, s.medium ++ S.emits e.1 (s.parts e.1) e.2⟩ := by
  simp only [move,Option.ite_none_right_eq_some,Option.map_eq_some_iff]
  exact and_congr_right (fun _ => exists_congr (fun t => and_congr_right (fun _ => eq_comm)))

/-- The runs of one part that it could make alone. -/
abbrev Alone (S : System σ ε μ) (i : ι) : σ i → Prop := Reach (S.init i) (S.step i) (S.ok i)

abbrev Reached (S : System σ ε μ) : State σ μ → Prop :=
  Reach (fun s => (∀ i, S.init i (s.parts i)) ∧ s.medium = []) S.move
    (fun s e => S.ok e.1 (s.parts e.1) e.2)

variable {S : System σ ε μ} {s : State σ μ}

/-- Parts that can do less make no other runs. -/
theorem Reached.restrict {T : System σ ε μ} (hinit : ∀ i s, S.init i s → T.init i s)
    (hstep : ∀ i s e t, S.step i s e = some t → T.step i s e = some t)
    (hok : ∀ i s e, S.ok i s e → T.ok i s e) (hemits : S.emits = T.emits) (hadmits : S.admits = T.admits)
    (h : S.Reached s) : T.Reached s := by
  induction h with
  | start hi => exact .start ⟨fun i => hinit i _ (hi.1 i), hi.2⟩
  | next _ hok' hs ih =>
    obtain ⟨harrived,t,ht,rfl⟩ := move_eq_some.mp hs
    refine .next ih (hok _ _ _ hok') (move_eq_some.mpr ⟨hadmits ▸ harrived, t, hstep _ _ _ _ ht, ?_⟩)
    rw [hemits]

theorem Reached.alone (h : S.Reached s) (i : ι) : S.Alone i (s.parts i) := by
  induction h with
  | start hi => exact .start (hi.1 i)
  | @next s s' e _ hok hs ih =>
    obtain ⟨-,t,ht,rfl⟩ := move_eq_some.mp hs
    by_cases hie : i = e.1
    · subst hie
      simpa using Reach.next ih hok ht
    · simpa [Function.update_of_ne hie] using ih

/-- What is on the medium was put there by a part, and what that part then was in a position to say of
it still holds. -/
theorem Reached.emitted {Q : ∀ i, σ i → μ → Prop}
    (hkeep : ∀ i s e t m, Q i s m → S.step i s e = some t → Q i t m)
    (hemit : ∀ i s e t, S.Alone i s → S.step i s e = some t → ∀ m ∈ S.emits i s e, Q i t m)
    (h : S.Reached s) : ∀ m ∈ s.medium, ∃ i, Q i (s.parts i) m := by
  induction h with
  | start hi => simp [hi.2]
  | @next s s' e hr _ hs ih =>
    obtain ⟨-,t,ht,rfl⟩ := move_eq_some.mp hs
    intro m hm
    rcases List.mem_append.mp hm with hm | hm
    · obtain ⟨i,hq⟩ := ih m hm
      refine ⟨i, ?_⟩
      by_cases hie : i = e.1
      · subst hie
        simpa using hkeep _ _ _ _ _ hq ht
      · simpa [Function.update_of_ne hie] using hq
    · exact ⟨e.1, by simpa using hemit _ _ _ _ (Reached.alone hr e.1) ht m hm⟩

/-- What a part has taken in was on the medium. -/
theorem Reached.taken {α : Type*} (inputs : ∀ i, σ i → List α) (source : ι → α → μ → Prop)
    (h0 : ∀ i s, S.init i s → inputs i s = [])
    (htake : ∀ l i s e t, S.step i s e = some t → S.admits l i e = true →
      ∀ x ∈ inputs i t, x ∈ inputs i s ∨ ∃ m ∈ l, source i x m)
    (h : S.Reached s) (i : ι) : ∀ x ∈ inputs i (s.parts i), ∃ m ∈ s.medium, source i x m := by
  induction h with
  | start hi => simp [h0 i _ (hi.1 i)]
  | @next s s' e _ _ hs ih =>
    obtain ⟨hadmits,t,ht,rfl⟩ := move_eq_some.mp hs
    intro x hx
    have hbefore : x ∈ inputs i (s.parts i) ∨ ∃ m ∈ s.medium, source i x m := by
      by_cases hie : i = e.1
      · subst hie
        exact htake _ _ _ _ _ ht hadmits x (by simpa using hx)
      · exact .inl (by simpa [Function.update_of_ne hie] using hx)
    obtain ⟨m,hm,hsource⟩ := hbefore.elim (ih x) id
    exact ⟨m, List.mem_append_left _ hm, hsource⟩

end System

end Medium
