import Librim.Window

/-! The loop of `process_buffer`, and when it comes to its end. -/

set_option autoImplicit false

namespace Librim

/-- `get_total_size` of the shortest header is not zero, so `process_buffer` gets on. -/
def Framing.Advances (f : Framing) : Prop := 1 ≤ f.headerSize ∨ 1 ≤ f.getTotalSize []

theorem Framing.Advances.pos {f : Framing} (h : f.Advances) {w : Window} {k n : Nat}
    (hs : w.scan f k = .message n) : 1 ≤ n ∧ n ≤ sizeSub w.activeBytes k := by
  simp only [Window.scan] at hs
  split at hs
  · split at hs
    · simp at hs
    · split at hs
      · rename_i hle
        simp only [Scan.message.injEq] at hs
        subst hs
        refine ⟨?_, hle⟩
        rcases h with h | h
        · omega
        · by_cases hz : f.headerSize = 0
          · simpa [Window.span,hz] using h
          · omega
      · simp at hs
  · simp at hs

theorem sizeSub_add {a k n : Nat} (hn : 1 ≤ n) (hle : n ≤ sizeSub a k) :
    sizeSub a (k+n) < sizeSub a k := by
  simp only [sizeSub] at hle ⊢
  split at hle
  · rw [if_pos (by omega), if_pos (by omega)]; omega
  · rw [if_neg (by omega), if_neg (by omega)]; omega

section
variable {κ : Type}

theorem Receiver.activeBytes_deliver (onRecv : Option (Callback κ)) (r : Receiver κ) (offset n : Nat) :
    (r.deliver onRecv offset n).window.activeBytes = r.window.activeBytes := by
  cases onRecv <;> rfl

/-- A round that does not leave the loop has found a message. -/
theorem processRound_eq_inl {f : Framing} {onRecv : Option (Callback κ)} {l l' : Receiver κ × Nat} :
    processRound f onRecv l = .inl l' ↔ ∃ n, l.1.window.scan f l.2 = .message n ∧
      l' = (l.1.deliver onRecv l.2 n, l.2+n) := by
  obtain ⟨r,k⟩ := l
  simp only [processRound]
  cases r.window.scan f k with
  | bad => simp
  | message n => simp [eq_comm]
  | stop => simp

/-- The `while` loop of `process_buffer` stops after at most `active_bytes_ + 1` rounds, and each
round that it comes to leaves it or increases `current_offset`. -/
structure LoopEnds (f : Framing) (onRecv : Option (Callback κ)) (r : Receiver κ) : Prop where
  stops : ∃ r', Iteration.iterate (processRound f onRecv) (r.window.activeBytes+1) (r,0) = some r'
  advances : ∀ n l, Iteration.rounds (processRound f onRecv) n (r,0) = some l →
    (∃ r', processRound f onRecv l = .inr r') ∨ ∃ l', processRound f onRecv l = .inl l' ∧ l.2 < l'.2

theorem Framing.Advances.round {f : Framing} (h : f.Advances) {onRecv : Option (Callback κ)}
    {l l' : Receiver κ × Nat} (hl : processRound f onRecv l = .inl l') :
    l.2 < l'.2 ∧ sizeSub l'.1.window.activeBytes l'.2 < sizeSub l.1.window.activeBytes l.2 := by
  obtain ⟨n,hscan,rfl⟩ := processRound_eq_inl.mp hl
  obtain ⟨hpos,hle⟩ := h.pos hscan
  refine ⟨by simp only; omega, ?_⟩
  rw [Receiver.activeBytes_deliver]
  exact sizeSub_add hpos hle

/-- Without a header and without a size every round finds the empty message. -/
theorem Window.scan_empty {f : Framing} (h : ¬ f.Advances) (w : Window) (k : Nat) :
    w.scan f k = .message 0 := by
  simp only [Framing.Advances,not_or,Nat.not_le,Nat.lt_one_iff] at h
  simp [scan,span,h.1,h.2]

theorem Framing.stuck {f : Framing} (h : ¬ f.Advances) (onRecv : Option (Callback κ))
    (l : Receiver κ × Nat) (k : Nat) : Iteration.iterate (processRound f onRecv) k l = none := by
  refine Iteration.iterate_eq_none (fun _ => True) (fun l _ => ?_) trivial k
  exact ⟨_, processRound_eq_inl.mpr ⟨0, l.1.window.scan_empty h l.2, rfl⟩, trivial⟩

/-- Whatever the window holds, the loop ends just if the framing advances. -/
theorem process_buffer_ends_iff (f : Framing) (onRecv : Option (Callback κ)) (r : Receiver κ) :
    LoopEnds f onRecv r ↔ f.Advances := by
  constructor
  · intro h
    by_contra hf
    obtain ⟨r',hr⟩ := h.stops
    rw [Framing.stuck hf] at hr
    simp at hr
  · intro h
    constructor
    · have hround : ∀ l l', True → processRound f onRecv l = .inl l' →
          True ∧ sizeSub l'.1.window.activeBytes l'.2 < sizeSub l.1.window.activeBytes l.2 :=
        fun _ _ _ hl => ⟨trivial, (h.round hl).2⟩
      have hstart : sizeSub r.window.activeBytes 0 < r.window.activeBytes+1 := by
        rw [sizeSub_of_le (Nat.zero_le _)]; omega
      obtain ⟨r',hr,-⟩ := Iteration.iterate_total (fun _ => True)
        (fun l : Receiver κ × Nat => sizeSub l.1.window.activeBytes l.2) (fun _ => True) hround
        (fun _ _ _ _ => trivial) (s := (r,0)) trivial hstart
      exact ⟨r',hr⟩
    · intro n l _
      cases hl : processRound f onRecv l with
      | inr r' => exact .inl ⟨r',rfl⟩
      | inl l' => exact .inr ⟨l', rfl, (h.round hl).1⟩

end

/-- The header size is left at its default and `get_total_size` returns the size of the header. One
byte has arrived. -/
theorem process_buffer_not_ends :
    ¬ LoopEnds ⟨0, 10*1024*1024, List.length⟩ (some passive)
      ⟨⟨poke Window.initial.recvBuffer 0 [7], 1⟩, (), true, false, []⟩ ∧
    ∀ n, Iteration.iterate (processRound ⟨0, 10*1024*1024, List.length⟩ (some passive)) n
      (⟨⟨poke Window.initial.recvBuffer 0 [7], 1⟩, (), true, false, []⟩, 0) = none := by
  have hf : ¬ Framing.Advances ⟨0, 10*1024*1024, List.length⟩ := by simp [Framing.Advances]
  refine ⟨fun h => ?_, Framing.stuck hf (some passive) _⟩
  obtain ⟨r',hr⟩ := h.stops
  rw [Framing.stuck hf] at hr
  simp at hr

end Librim
