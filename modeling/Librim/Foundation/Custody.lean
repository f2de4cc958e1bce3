import Mathlib.Logic.ExistsUnique
import Mathlib.Data.List.Nodup
import Mathlib.Data.Finset.Card
import Mathlib.Data.Finset.Range

set_option autoImplicit false

namespace Custody

variable {π : Type*}

/-- Tokens `0, …, n-1`, each in exactly one place; nothing else is anywhere. -/
structure Exclusive (n : Nat) (At : Nat → π → Prop) : Prop where
  placed : ∀ b, b < n → ∃ q, At b q
  token : ∀ b q, At b q → b < n
  single : ∀ b q q', At b q → At b q' → q = q'

theorem Exclusive.existsUnique {n : Nat} {A : Nat → π → Prop} (h : Exclusive n A) {b : Nat}
    (hb : b < n) : ∃! q, A b q := by
  obtain ⟨q,hq⟩ := h.placed b hb
  exact ⟨q, hq, fun q' hq' => h.single b q' q hq' hq⟩

/-- Token `b` goes from `q₀` to `q` and every other token stays where it is. -/
theorem Exclusive.transfer {n : Nat} {A A' : Nat → π → Prop} (h : Exclusive n A) (b : Nat)
    (q₀ q : π) (hb : A b q₀) (hne : q₀ ≠ q) (hfrom : ∀ x, A' x q₀ ↔ x ≠ b ∧ A x q₀)
    (hto : ∀ x, A' x q ↔ x = b ∨ A x q)
    (hother : ∀ x p, p ≠ q₀ → p ≠ q → (A' x p ↔ A x p)) : Exclusive n A' := by
  have hiff : ∀ x p, A' x p ↔ (x = b ∧ p = q) ∨ (x ≠ b ∧ A x p) := by
    intro x p
    by_cases hx : x = b
    · subst hx
      by_cases hp : p = q
      · subst hp; simp [hto]
      · by_cases hp₀ : p = q₀
        · subst hp₀; simp [hfrom,hp]
        · have hn : ¬ A x p := fun ha => hp₀ (h.single x p q₀ ha hb)
          simp [hother x p hp₀ hp,hp,hn]
    · by_cases hp : p = q
      · subst hp; simp [hto,hx]
      · by_cases hp₀ : p = q₀
        · subst hp₀; simp [hfrom,hx]
        · simp [hother x p hp₀ hp,hx]
  refine ⟨?_, ?_, ?_⟩
  · intro x hx
    by_cases hxb : x = b
    · exact ⟨q, (hiff x q).mpr (.inl ⟨hxb,rfl⟩)⟩
    · obtain ⟨p,hp⟩ := h.placed x hx
      exact ⟨p, (hiff x p).mpr (.inr ⟨hxb,hp⟩)⟩
  · intro x p hp
    rcases (hiff x p).mp hp with ⟨rfl,-⟩ | ⟨-,hx⟩
    · exact h.token x q₀ hb
    · exact h.token x p hx
  · intro x p p' hp hp'
    rcases (hiff x p).mp hp with ⟨hx,rfl⟩ | ⟨hx,ha⟩
    · rcases (hiff x p').mp hp' with ⟨-,rfl⟩ | ⟨hx',-⟩
      · rfl
      · exact absurd hx hx'
    · rcases (hiff x p').mp hp' with ⟨hx',-⟩ | ⟨-,ha'⟩
      · exact absurd hx' hx
      · exact h.single x p p' ha ha'

theorem Exclusive.congr {n : Nat} {A A' : Nat → π → Prop} (h : Exclusive n A)
    (hA : ∀ x p, A' x p ↔ A x p) : Exclusive n A' where
  placed b hb := by
    obtain ⟨q,hq⟩ := h.placed b hb
    exact ⟨q, (hA b q).mpr hq⟩
  token b q hq := h.token b q ((hA b q).mp hq)
  single b q q' hq hq' := h.single b q q' ((hA b q).mp hq) ((hA b q').mp hq')

/-- A list of distinct tokens has at most `n` entries. -/
theorem length_le_of_nodup {n : Nat} {l : List Nat} (hl : l.Nodup) (hb : ∀ b ∈ l, b < n) :
    l.length ≤ n := by
  have hsub : l.toFinset ⊆ Finset.range n := by
    intro b hb'
    exact Finset.mem_range.mpr (hb b (List.mem_toFinset.mp hb'))
  simpa [List.toFinset_card_of_nodup hl] using Finset.card_le_card hsub

/-- Of distinct tokens only one contributes. -/
theorem flatMap_of_nodup {α β : Type*} {l : List α} {g : α → List β} {b : α} (hl : l.Nodup) (hb : b ∈ l)
    (hg : ∀ a, a ≠ b → g a = []) : l.flatMap g = g b := by
  induction l with
  | nil => simp at hb
  | cons a l ih =>
    obtain ⟨ha,hl⟩ := List.nodup_cons.mp hl
    rw [List.flatMap_cons]
    rcases List.mem_cons.mp hb with rfl | hb
    · have hrest : l.flatMap g = [] :=
        List.flatMap_eq_nil_iff.mpr (fun x hx => hg x (fun he => ha (he ▸ hx)))
      rw [hrest, List.append_nil]
    · have hne : a ≠ b := fun he => ha (he ▸ hb)
      rw [hg a hne, List.nil_append]
      exact ih hl hb

end Custody
