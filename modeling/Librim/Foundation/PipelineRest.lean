import Librim.Foundation.PipelineWire
import Mathlib.Algebra.BigOperators.Group.Finset.Basic

/-! A pipeline that has come to rest: nothing waits on the executor and no write is outstanding. -/

set_option autoImplicit false

namespace Pipeline

variable {τ ρ μ ω : Type} {cap limit : Nat} {units : μ → List ω} {first : Nat}

/-- Up to the end of the session `first`, before which nothing was asked for, the queue of an open
transport is served by a write of this session, which has not taken more than it was given. -/
structure Working (units : μ → List ω) (first : Nat) (p : State τ ρ μ ω) : Prop where
  served : p.session ≤ first → p.isOpen = true → Served p
  native : p.session ≤ first → Native p
  bounded : ∀ w ∈ p.writes, w.written ≤ (p.toStore.data units w).length

theorem Store.bounded_startWrite {s : Store τ ρ μ ω} {k : Nat}
    (h : ∀ w ∈ s.writes, w.written ≤ (s.data units w).length) :
    ∀ w ∈ (s.startWrite limit k).writes, w.written ≤ ((s.startWrite limit k).data units w).length := by
  intro w hw
  rcases List.mem_append.mp hw with hw | hw
  · exact h w hw
  · rw [List.mem_singleton.mp hw]
    exact Nat.zero_le _

section step
variable [DecidableEq τ] {p p' : State τ ρ μ ω} {l : Label τ ρ μ}

theorem Serial.bounded_step (ho : Owned cap p) (h : Serial p)
    (hb : ∀ w ∈ p.writes, w.written ≤ (p.toStore.data units w).length) (hs : Step cap limit units p l p') :
    ∀ w ∈ p'.writes, w.written ≤ (p'.toStore.data units w).length := by
  cases hs with
  | call _ _ | post _ | begin _ _ | finishEmpty _ _ | finishFailed _ | close | reopen => exact hb
  | pop hp =>
    obtain ⟨r,b,rest,-,-,rfl⟩ := Store.pop_eq_some.mp hp
    exact hb
  | @fill t b r m hpc =>
    intro w hw
    obtain ⟨i,hi⟩ := List.getElem?_of_mem hw
    obtain ⟨-,-,-,-,hbufs,-,-⟩ := h.of_writes hi
    have hnot : b ∉ w.bufs := fun hm => ho.hand_not_mem_queue hpc (List.mem_of_mem_take (hbufs ▸ hm))
    rw [Store.data_fill hnot]
    exact hb w hw
  | @enqueue t b rest _ _ =>
    have hpush : (p.toStore.push cap b).writes = p.writes ∧ (p.toStore.push cap b).mem = p.mem := by
      unfold Store.push
      split
      · exact ⟨rfl,rfl⟩
      · split <;> exact ⟨rfl,rfl⟩
    simp only [Store.enqueue]
    split
    · refine Store.bounded_startWrite ?_
      simpa only [Store.data,hpush] using hb
    · simpa only [Store.data,hpush] using hb
  | @progress i n w s hi _ _ hp =>
    obtain ⟨w',hi',hle,rfl⟩ := Store.progress_eq_some.mp hp
    intro v hv
    rcases List.mem_or_eq_of_mem_set hv with hv | rfl
    · exact hb v hv
    · exact hle
  | complete _ _ => exact fun w hw => hb w (List.mem_of_mem_eraseIdx hw)
  | release hph =>
    obtain ⟨hout,-⟩ := h.releasing _ _ hph
    have hnone : p.writes = [] := (List.append_eq_nil_iff.mp hout).1
    simp only [Store.release]
    split <;> simp [hnone]
  | finishMore _ _ => exact Store.bounded_startWrite hb

/-- Only a new session can end what the writes of the old one were for, and until the first it is clean. -/
theorem Working.step (ho : Owned cap p) (h : Serial p) (hw : Wired units first p) (hworking : Working units first p)
    (hs : Step cap limit units p l p') : Working units first p' where
  served := by
    intro hle hopen
    refine Served.step h (hworking.served (Nat.le_trans (session_le_step hs) hle)) ?_ hs hopen
    rintro rfl
    have hnext := reopen_session hs
    exact .inl (hw.pristine (by omega)).queue
  native := by
    intro hle
    by_cases hsame : p'.session = p.session
    · exact (hworking.native (by omega)).step hs hsame
    · cases hs with
      | reopen =>
        have hpristine := hw.pristine (by simp only at hle; omega)
        exact ⟨by simp [hpristine.writes], by simp [hpristine.ready]⟩
      | _ => exact absurd rfl hsame
  bounded := h.bounded_step ho hworking.bounded hs

end step

variable {p : State τ ρ μ ω}

/-- The transport can take more of the outstanding write, or the write is complete. -/
theorem Working.of_write (h : Working units first p) (hle : p.session ≤ first) {w : Write} (hw : w ∈ p.writes) :
    w.session = p.session ∧
      (w.written+1 ≤ (p.toStore.data units w).length ∨ w.written = (p.toStore.data units w).length) := by
  have hbounded := h.bounded w hw
  exact ⟨(h.native hle).writes w hw, by omega⟩

/-- All that entered the queue of a pipeline at rest has gone through. -/
theorem Working.exhausted (h : Working units first p) (hw : Wired units first p) (hf : Flow p)
    (hle : p.session ≤ first) (hopen : p.isOpen = true) (hph : p.phase = .idle) (hready : p.ready = [])
    (hwrites : p.writes = []) : p.queue = [] ∧ p.wire = (p.entered.map Prod.snd).flatMap units := by
  have hout : p.outstanding = [] := by simp [State.outstanding,hwrites,hready]
  have hqueue : p.queue = [] := by
    rcases h.served hle hopen with hn | ho | hp
    · exact hn
    · exact absurd hout ho
    · exact absurd hph hp
  refine ⟨hqueue, ?_⟩
  have hhealthy : Healthy p := ⟨by simp [hready], by simp [hph]⟩
  have hflow : p.entered.map Prod.snd = p.flushed ++ p.queue.map p.mem := hf
  rw [hw.exact hle hopen hhealthy, State.inflight_of_none hph hout, hflow, hqueue]
  simp

/-- With every call at rest and no buffer deleted, there is a buffer in the pool. -/
theorem Owned.pool_ne_nil (h : Owned cap p) (hcap : 0 < cap) (hslot : ∀ t, (p.pc t).slot = none)
    (hready : p.ready = []) (hqueue : p.queue = []) (hdeleted : p.deleted = []) : p.pool ≠ [] := by
  obtain ⟨q,hq⟩ := h.exclusive.placed 0 hcap
  cases q with
  | pool => exact List.ne_nil_of_mem hq
  | hand t => simp [State.At,hslot t] at hq
  | job => simp [State.At,State.posted,hready] at hq
  | queue => simp [State.At,hqueue] at hq
  | deleted => simp [State.At,hdeleted] at hq

/-- Steps that a call in progress, and then its buffer, have to take to get into the queue. -/
def Pc.left : Pc ρ → Nat
  | .idle => 0
  | .waiting _ => 4
  | .holding _ _ => 3
  | .filled _ _ => 2

theorem Store.enqueue_pc (s : Store τ ρ μ ω) (k : Nat) (t : τ) (b : Nat) :
    (s.enqueue cap limit k t b).pc = s.pc := by
  have hpush : (s.push cap b).pc = s.pc := by
    unfold Store.push
    split
    · rfl
    · split <;> rfl
  unfold Store.enqueue
  split <;> exact hpush

theorem Store.release_pc (s : Store τ ρ μ ω) (kept : Bool) : (s.release kept).pc = s.pc := by
  unfold Store.release
  split <;> rfl

section callers
variable [DecidableEq τ]

theorem sum_left_update {callers : Finset τ} (pc : τ → Pc ρ) {t : τ} (ht : t ∈ callers) (c : Pc ρ) :
    callers.sum (fun u => (Function.update pc t c u).left) + (pc t).left =
      callers.sum (fun u => (pc u).left) + c.left := by
  have hothers : (callers.erase t).sum (fun u => (Function.update pc t c u).left) =
      (callers.erase t).sum (fun u => (pc u).left) := by
    refine Finset.sum_congr rfl (fun u hu => ?_)
    rw [Function.update_of_ne (Finset.ne_of_mem_erase hu)]
  rw [← Finset.add_sum_erase callers _ ht, ← Finset.add_sum_erase callers (fun u => (pc u).left) ht, hothers,
    Function.update_self]
  omega

/-- At any time finitely many calls are in progress. -/
theorem Step.finite_callers {p p' : State τ ρ μ ω} {l : Label τ ρ μ} (hs : Step cap limit units p l p')
    (h : ∃ callers : Finset τ, ∀ t, t ∉ callers → p.pc t = .idle) :
    ∃ callers : Finset τ, ∀ t, t ∉ callers → p'.pc t = .idle := by
  obtain ⟨callers,h⟩ := h
  have hupdate : ∀ t c, ∃ callers : Finset τ, ∀ u, u ∉ callers → Function.update p.pc t c u = .idle := by
    intro t c
    refine ⟨insert t callers, fun u hu => ?_⟩
    rw [Finset.mem_insert, not_or] at hu
    rw [Function.update_of_ne hu.1]
    exact h u hu.2
  cases hs with
  | call _ _ | fill _ | post _ => exact hupdate _ _
  | pop hp =>
    obtain ⟨_,_,_,-,-,rfl⟩ := Store.pop_eq_some.mp hp
    exact hupdate _ _
  | enqueue _ _ => exact ⟨callers, by rw [Store.enqueue_pc]; exact h⟩
  | progress _ _ _ hp =>
    obtain ⟨_,_,_,rfl⟩ := Store.progress_eq_some.mp hp
    exact ⟨callers, h⟩
  | release _ => exact ⟨callers, by rw [Store.release_pc]; exact h⟩
  | _ => exact ⟨callers, h⟩

end callers

end Pipeline
