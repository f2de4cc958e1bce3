import Librim.EndpointPipeline

set_option autoImplicit false

namespace Librim

open Pipeline (Owned Serial Flow Place)

variable {κ τ : Type}

theorem Kind.batchLimit_pos (kind : Kind) : 0 < kind.batchLimit := by cases kind <;> decide

namespace Endpoint

/-- What holds of the send pipeline of every endpoint, whatever its history. -/
structure Sound (cfg : Config κ) (s : Endpoint κ τ) : Prop where
  owned : Owned poolSize s.pipeline
  serial : Serial s.pipeline
  flow : Flow s.pipeline
  batch : s.out.batch ≤ cfg.kind.batchLimit

theorem initial_pipeline (kind : Kind) (u : κ) :
    (initial kind u : Endpoint κ τ).pipeline =
      ⟨.fresh poolSize ⟨[],none⟩, [], .idle, (Core.initial kind u).socket.isOpen,
        (Core.initial kind u).socket.conn⟩ := rfl

theorem Sound.initial (cfg : Config κ) (u : κ) : Sound cfg (initial cfg.kind u : Endpoint κ τ) where
  owned := by rw [initial_pipeline]; exact Owned.initial _ _ _
  serial := ⟨rfl, .inl rfl, by intro n failed hn; cases hn⟩
  flow := rfl
  batch := Nat.zero_le _

theorem Sound.outstanding {cfg : Config κ} {s : Endpoint κ τ} (h : Sound cfg s) {w : Pipeline.Write}
    (hw : w ∈ s.pipeline.outstanding) : s.pipeline.outstanding = [w] ∧ s.pipeline.phase = .idle ∧
      w.bufs = s.out.queue.take s.out.batch ∧ 0 < s.out.batch ∧ s.out.batch ≤ s.out.queue.length := by
  rcases h.serial.writing with ho | ⟨w',ho,hrest⟩
  · rw [ho] at hw; simp at hw
  · rw [ho, List.mem_singleton] at hw
    subst hw
    exact ⟨ho,hrest⟩

variable [DecidableEq τ]

theorem Sound.step {cfg : Config κ} {s t : Endpoint κ τ} {e : Event τ} (h : Sound cfg s)
    (hs : step cfg s e = some t) : Sound cfg t := by
  obtain ⟨ho,hser,hf,hb⟩ := h
  rcases step_simulates hs with heq | ⟨l,hl,-,-,-⟩
  · refine ⟨heq ▸ ho, heq ▸ hser, heq ▸ hf, ?_⟩
    have hbatch : t.out = s.out := congrArg Pipeline.State.toStore heq
    rw [hbatch]
    exact hb
  · exact ⟨ho.step hl, hser.step cfg.kind.batchLimit_pos ho hl, hf.step ho hl,
      Pipeline.batch_le_step hb hl⟩

theorem Reached.sound {cfg : Config κ} {s : Endpoint κ τ} (h : Reached cfg s) : Sound cfg s := by
  refine Transition.Reach.invariant (Sound cfg) ?_ ?_ h
  · rintro _ ⟨u,rfl⟩
    exact Sound.initial cfg u
  · intro s e t hi _ hs
    exact hi.step hs

/-- Each of the 8192 buffers is in one place and in it once; the ring never overwrites; one
write at most is outstanding, on the front of the queue, and what it reads stays as it is
until its handler runs; no handler takes the front of an empty queue. -/
theorem buffers_owned (cfg : Config κ) (s : Endpoint κ τ) (h : Reached cfg s) :
    (∀ b, b < poolSize → ∃! q : Place (Option τ), s.pipeline.At b q) ∧
    (∀ b q, s.pipeline.At b q → b < poolSize) ∧
    s.out.pool.Nodup ∧ (s.pipeline.posted.map Prod.snd).Nodup ∧ s.out.queue.Nodup ∧
    s.out.deleted.Nodup ∧ s.out.queue.length ≤ poolSize ∧ s.out.overwritten = [] ∧
    s.pipeline.outstanding.length ≤ 1 ∧
    (∀ w ∈ s.pipeline.outstanding,
      w.bufs = s.out.queue.take s.out.batch ∧ w.bufs.length = s.out.batch ∧
      0 < s.out.batch ∧ s.out.batch ≤ cfg.kind.batchLimit ∧
      (∀ b ∈ w.bufs, b ∉ s.out.pool) ∧
      ∀ e t, step cfg s e = some t → ∀ b ∈ w.bufs, t.out.mem b = s.out.mem b) ∧
    s.out.fault = false := by
  have hs := h.sound
  refine ⟨?_, hs.owned.exclusive.token, hs.owned.pool_nodup, hs.owned.posted_nodup,
    hs.owned.queue_nodup, hs.owned.deleted_nodup, hs.owned.queue_length_le, hs.owned.no_overwrite,
    ?_, ?_, hs.serial.no_fault⟩
  · intro b hb
    exact hs.owned.exclusive.existsUnique hb
  · rcases hs.serial.writing with ho | ⟨w,ho,-⟩ <;> simp [ho]
  · intro w hw
    obtain ⟨-,-,hbufs,hpos,hle⟩ := hs.outstanding hw
    have hqueue : ∀ b ∈ w.bufs, b ∈ s.out.queue := fun b hb => List.mem_of_mem_take (hbufs ▸ hb)
    refine ⟨hbufs, ?_, hpos, hs.batch, ?_, ?_⟩
    · rw [hbufs, List.length_take]; omega
    · intro b hb
      exact hs.owned.not_at .pool (show s.pipeline.At b .queue from hqueue b hb) (by simp)
    · intro e t he b hb
      rcases step_simulates he with heq | ⟨l,hl,-,-,-⟩
      · exact congrArg (fun p => p.mem b) heq
      · exact Pipeline.mem_step hs.owned hl (hqueue b hb)

/-- After one payload was sent and its closure has run. -/
theorem buffers_owned_first_write : ∃ s : Endpoint Unit Unit,
    Transition.run (step (.bare .tcpConnection)) (initial .tcpConnection ())
      [.send () ⟨[1,2],.implicit⟩, .pop (some ()), .fill (some ()), .post (some ()), .run] = some s ∧
    s.pipeline.outstanding.length = 1 ∧
    (∀ b, b < poolSize → ∃! q : Place (Option Unit), s.pipeline.At b q) ∧ s.out.fault = false := by
  have hrun : (Transition.run (step (.bare .tcpConnection)) (initial .tcpConnection ())
      [.send () ⟨[1,2],.implicit⟩, .pop (some ()), .fill (some ()), .post (some ()), .run]).map
      (fun s : Endpoint Unit Unit => s.pipeline.outstanding.length) = some 1 := by
    decide +kernel
  obtain ⟨s,hs,hlen⟩ := Option.map_eq_some_iff.mp hrun
  obtain ⟨hplace,-,-,-,-,-,-,-,-,-,hfault⟩ :=
    buffers_owned (.bare .tcpConnection) s (reached_of_run hs)
  exact ⟨s,hs,hlen,hplace,hfault⟩

end Endpoint

end Librim
