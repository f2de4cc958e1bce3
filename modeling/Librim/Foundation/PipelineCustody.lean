import Librim.Foundation.Pipeline

set_option autoImplicit false

namespace Pipeline

variable {τ ρ μ ω : Type}

def Job.posted : Job τ → Option (τ × Nat)
  | .enqueue t b => some (t,b)
  | .written _ _ => none

def Job.write : Job τ → Option Write
  | .enqueue _ _ => none
  | .written w _ => some w

/-- The posted buffers that the executor has not yet appended to the queue. -/
def State.posted (p : State τ ρ μ ω) : List (τ × Nat) := p.ready.filterMap Job.posted

/-- The writes that were started and whose completion handler has not begun. -/
def State.outstanding (p : State τ ρ μ ω) : List Write :=
  p.writes ++ p.ready.filterMap Job.write

inductive Place (τ : Type) where
  | pool
  | hand (t : τ)
  | job
  | queue
  | deleted
  deriving DecidableEq, Repr

def State.At (p : State τ ρ μ ω) (b : Nat) : Place τ → Prop
  | .pool => b ∈ p.pool
  | .hand t => (p.pc t).slot = some b
  | .job => b ∈ p.posted.map Prod.snd
  | .queue => b ∈ p.queue
  | .deleted => b ∈ p.deleted

/-- Each buffer is in one place, once. -/
structure Owned (cap : Nat) (p : State τ ρ μ ω) : Prop where
  exclusive : Custody.Exclusive cap p.At
  pool_nodup : p.pool.Nodup
  posted_nodup : (p.posted.map Prod.snd).Nodup
  queue_nodup : p.queue.Nodup
  deleted_nodup : p.deleted.Nodup
  no_overwrite : p.overwritten = []

theorem Owned.not_at {cap : Nat} {p : State τ ρ μ ω} (h : Owned cap p) {b : Nat} {q : Place τ}
    (q' : Place τ) (hb : p.At b q) (hne : q ≠ q') : ¬ p.At b q' := fun hb' => hne (h.exclusive.single b q q' hb hb')

theorem Owned.queue_length_le {cap : Nat} {p : State τ ρ μ ω} (h : Owned cap p) :
    p.queue.length ≤ cap :=
  Custody.length_le_of_nodup h.queue_nodup (fun b hb => h.exclusive.token b .queue hb)

/-- There is room in the ring for a buffer that is not in it. -/
theorem Owned.queue_length_lt {cap : Nat} {p : State τ ρ μ ω} (h : Owned cap p) {b : Nat}
    {q : Place τ} (hq : q ≠ .queue) (hb : p.At b q) : p.queue.length < cap := by
  have hn : b ∉ p.queue := h.not_at .queue hb hq
  have hl := Custody.length_le_of_nodup (n := cap) (List.nodup_cons.mpr ⟨hn,h.queue_nodup⟩) (by
    intro x hx
    rcases List.mem_cons.mp hx with rfl | hx
    · exact h.exclusive.token x q hb
    · exact h.exclusive.token x .queue hx)
  exact hl

/-- The buffers that the pipeline has in its own hands, or has had. -/
def Store.inner (s : Store τ ρ μ ω) : List Nat := s.deleted ++ s.pool ++ s.queue

theorem Owned.inner_nodup {cap : Nat} {p : State τ ρ μ ω} (h : Owned cap p) : p.toStore.inner.Nodup := by
  refine List.nodup_append.mpr ⟨List.nodup_append.mpr ⟨h.deleted_nodup, h.pool_nodup, ?_⟩, h.queue_nodup, ?_⟩
  · intro b hb c hc heq
    exact h.not_at .pool (show p.At b .deleted from hb) (by simp) (heq ▸ hc)
  · intro b hb c hc heq
    rcases List.mem_append.mp hb with hb | hb
    · exact h.not_at .queue (show p.At b .deleted from hb) (by simp) (heq ▸ hc)
    · exact h.not_at .queue (show p.At b .pool from hb) (by simp) (heq ▸ hc)

/-- When no call is in progress, the others are those that were posted. -/
theorem Owned.mem_inner_iff {cap : Nat} {p : State τ ρ μ ω} (h : Owned cap p)
    (hidle : ∀ t, p.pc t = .idle) {b : Nat} (hb : b < cap) :
    b ∈ p.toStore.inner ↔ b ∉ p.posted.map Prod.snd := by
  simp only [Store.inner,List.mem_append]
  constructor
  · intro hin hposted
    have hjob : p.At b .job := hposted
    rcases hin with (hin | hin) | hin
    · exact h.not_at .deleted hjob (by simp) hin
    · exact h.not_at .pool hjob (by simp) hin
    · exact h.not_at .queue hjob (by simp) hin
  · intro hposted
    obtain ⟨q,hq⟩ := h.exclusive.placed b hb
    cases q with
    | pool => exact .inl (.inr hq)
    | hand t => simp [State.At,hidle t,Pc.slot] at hq
    | job => exact absurd hq hposted
    | queue => exact .inr hq
    | deleted => exact .inl (.inl hq)

theorem Owned.initial {cap : Nat} (blank : μ) (op : Bool) (n : Nat) :
    Owned cap (State.mk (Store.fresh cap blank) [] .idle op n : State τ ρ μ ω) where
  exclusive := by
    refine ⟨fun b hb => ⟨.pool, List.mem_range.mpr hb⟩, ?_, ?_⟩
    · intro b q hq
      cases q <;> simp [State.At,State.posted,Store.fresh,Pc.slot] at hq
      exact hq
    · intro b q q' hq hq'
      cases q <;> simp [State.At,State.posted,Store.fresh,Pc.slot] at hq
      cases q' <;> simp [State.At,State.posted,Store.fresh,Pc.slot] at hq'
      rfl
  pool_nodup := List.nodup_range
  posted_nodup := List.nodup_nil
  queue_nodup := List.nodup_nil
  deleted_nodup := List.nodup_nil
  no_overwrite := rfl

section
variable {cap limit : Nat} {units : μ → List ω}

/-- Only the contents, the histories or the call position changed: every buffer stays. -/
theorem Owned.congr {p p' : State τ ρ μ ω} (h : Owned cap p) (hpool : p'.pool = p.pool)
    (hslot : ∀ t, (p'.pc t).slot = (p.pc t).slot) (hposted : p'.posted = p.posted)
    (hqueue : p'.queue = p.queue) (hdel : p'.deleted = p.deleted)
    (hover : p'.overwritten = p.overwritten) : Owned cap p' where
  exclusive := h.exclusive.congr (by
    intro x q
    cases q <;> simp only [State.At,hpool,hslot,hposted,hqueue,hdel])
  pool_nodup := hpool ▸ h.pool_nodup
  posted_nodup := hposted ▸ h.posted_nodup
  queue_nodup := hqueue ▸ h.queue_nodup
  deleted_nodup := hdel ▸ h.deleted_nodup
  no_overwrite := hover ▸ h.no_overwrite

/-- With room in the ring, the closure appends the buffer and touches nothing else that a
buffer can be in. -/
theorem Store.enqueue_frame (limit k : Nat) (t : τ) (b : Nat) {s : Store τ ρ μ ω}
    (hroom : s.queue.length < cap) :
    (s.enqueue cap limit k t b).pool = s.pool ∧ (s.enqueue cap limit k t b).pc = s.pc ∧
      (s.enqueue cap limit k t b).queue = s.queue ++ [b] ∧
      (s.enqueue cap limit k t b).deleted = s.deleted ∧
      (s.enqueue cap limit k t b).overwritten = s.overwritten ∧
      (s.enqueue cap limit k t b).mem = s.mem ∧
      (s.enqueue cap limit k t b).fault = s.fault ∧
      (s.enqueue cap limit k t b).sent = s.sent ∧
      (s.enqueue cap limit k t b).wire = s.wire ∧
      (s.enqueue cap limit k t b).flushed = s.flushed ∧
      (s.enqueue cap limit k t b).entered = s.entered ++ [(t,s.mem b)] := by
  simp only [enqueue,push,hroom,↓reduceIte]
  split <;> simp [startWrite]

theorem Owned.enqueue {p : State τ ρ μ ω} (h : Owned cap p) {t : τ} {b : Nat}
    {rest : List (Job τ)} (hready : p.ready = .enqueue t b :: rest) :
    Owned cap
      (State.mk (p.toStore.enqueue cap limit p.session t b) rest p.phase p.isOpen p.session) := by
  have hposted : p.posted = (t,b) :: rest.filterMap Job.posted := by
    simp [State.posted,hready,Job.posted]
  have hb : p.At b .job := by simp [State.At,hposted]
  have hroom := h.queue_length_lt (by simp) hb
  have hnq : b ∉ p.queue := h.not_at .queue hb (by simp)
  have hnd := h.posted_nodup
  rw [hposted, List.map_cons, List.nodup_cons] at hnd
  obtain ⟨hpool,hpc,hq,hd,ho,-⟩ :=
    Store.enqueue_frame limit p.session t b hroom
  refine ⟨?_, hpool ▸ h.pool_nodup, hnd.2, ?_, hd ▸ h.deleted_nodup, ho ▸ h.no_overwrite⟩
  · refine h.exclusive.transfer b .job .queue hb (by simp) ?_ ?_ ?_
    · intro x
      change x ∈ (rest.filterMap Job.posted).map Prod.snd ↔ x ≠ b ∧ x ∈ p.posted.map Prod.snd
      rw [hposted]
      by_cases hx : x = b
      · subst hx; simpa using hnd.1
      · simp [hx]
    · intro x
      simp [State.At,hq,or_comm]
    · intro x q hq₁ hq₂
      cases q <;> simp_all [State.At,State.posted]
  · simpa [hq] using h.queue_nodup.concat hnq

theorem Owned.release {p : State τ ρ μ ω} (h : Owned cap p) (kept : Bool) (ph : Phase) :
    Owned cap (State.mk (p.toStore.release kept) p.ready ph p.isOpen p.session) := by
  cases hq : p.queue with
  | nil =>
    simp only [Store.release,hq]
    exact h.congr rfl (fun _ => rfl) rfl hq.symm rfl rfl
  | cons b rest =>
    have hb : p.At b .queue := by simp [State.At,hq]
    have hnd := h.queue_nodup
    rw [hq, List.nodup_cons] at hnd
    have hfrom : ∀ x, x ∈ rest ↔ x ≠ b ∧ x ∈ p.queue := by
      intro x
      by_cases hx : x = b
      · subst hx; simp [hnd.1]
      · simp [hq,hx]
    cases kept with
    | true =>
      have hnp : b ∉ p.pool := h.not_at .pool hb (by simp)
      simp only [Store.release,hq,↓reduceIte]
      refine { h with exclusive := ?_, pool_nodup := ?_, queue_nodup := hnd.2 }
      · refine h.exclusive.transfer b .queue .pool hb (by simp) hfrom ?_ ?_
        · intro x
          change x ∈ p.pool ++ [b] ↔ x = b ∨ x ∈ p.pool
          rw [List.mem_append, List.mem_singleton, or_comm]
        · intro x q hq₁ hq₂
          cases q with
          | queue => exact absurd rfl hq₁
          | pool => exact absurd rfl hq₂
          | _ => rfl
      · simpa using h.pool_nodup.concat hnp
    | false =>
      have hnp : b ∉ p.deleted := h.not_at .deleted hb (by simp)
      simp only [Store.release,hq,Bool.false_eq_true,↓reduceIte]
      refine { h with exclusive := ?_, deleted_nodup := ?_, queue_nodup := hnd.2 }
      · refine h.exclusive.transfer b .queue .deleted hb (by simp) hfrom ?_ ?_
        · intro x
          change x ∈ p.deleted ++ [b] ↔ x = b ∨ x ∈ p.deleted
          rw [List.mem_append, List.mem_singleton, or_comm]
        · intro x q hq₁ hq₂
          cases q with
          | queue => exact absurd rfl hq₁
          | deleted => exact absurd rfl hq₂
          | _ => rfl
      · simpa using h.deleted_nodup.concat hnp

variable [DecidableEq τ]

theorem Owned.pop {p : State τ ρ μ ω} (h : Owned cap p) {t : τ} {s : Store τ ρ μ ω}
    (hs : p.toStore.pop t = some s) :
    Owned cap (State.mk s p.ready p.phase p.isOpen p.session) := by
  obtain ⟨r,b,rest,hpc,hpool,rfl⟩ := Store.pop_eq_some.mp hs
  have hnd := h.pool_nodup
  rw [hpool, List.nodup_cons] at hnd
  have hbp : p.At b .pool := by simp [State.At,hpool]
  refine { h with pool_nodup := hnd.2, exclusive := ?_ }
  refine h.exclusive.transfer b .pool (.hand t) hbp (by simp) ?_ ?_ ?_
  · intro x
    by_cases hx : x = b
    · subst hx; simp [State.At,hnd.1]
    · simp [State.At,hpool,hx]
  · intro x
    simp [State.At,Pc.slot,hpc,eq_comm]
  · intro x q hq hq'
    cases q with
    | hand u =>
      have hu : u ≠ t := fun hh => hq' (hh ▸ rfl)
      simp [State.At,Function.update_of_ne hu]
    | _ => simp_all [State.At,State.posted]

theorem Owned.post {p : State τ ρ μ ω} (h : Owned cap p) {t : τ} {b : Nat} {r : ρ}
    (hpc : p.pc t = .filled b r) :
    Owned cap
      (State.mk (p.toStore.setPc t .idle) (p.ready ++ [.enqueue t b]) p.phase p.isOpen p.session) := by
  have hb : p.At b (.hand t) := by simp [State.At,hpc,Pc.slot]
  have hnot : b ∉ p.posted.map Prod.snd := h.not_at .job hb (by simp)
  have hnd := h.posted_nodup.concat hnot
  refine { h with exclusive := ?_, posted_nodup := by simpa [State.posted,Job.posted] using hnd }
  refine h.exclusive.transfer b (.hand t) .job hb (by simp) ?_ ?_ ?_
  · intro x
    simp only [State.At,Store.setPc,Function.update_self,Pc.slot,hpc,reduceCtorEq,Option.some.injEq,
      false_iff]
    exact fun hh => hh.1 hh.2.symm
  · intro x
    simp [State.At,State.posted,Job.posted,or_comm]
  · intro x q hq hq'
    cases q with
    | hand u =>
      have hu : u ≠ t := fun hh => hq (hh ▸ rfl)
      simp [State.At,Store.setPc,Function.update_of_ne hu]
    | job => exact absurd rfl hq'
    | _ => rfl

theorem Owned.step {p p' : State τ ρ μ ω} {l : Label τ ρ μ} (h : Owned cap p)
    (hs : Step cap limit units p l p') : Owned cap p' := by
  cases hs with
  | @call t r hopen hpc =>
    refine h.congr rfl (fun u => ?_) rfl rfl rfl rfl
    by_cases hu : u = t
    · subst hu; simp [Store.call,hpc,Pc.slot]
    · simp [Store.call,Function.update_of_ne hu]
  | pop hp => exact h.pop hp
  | @fill t b r m hpc =>
    refine h.congr rfl (fun u => ?_) rfl rfl rfl rfl
    by_cases hu : u = t
    · subst hu; simp [Store.fill,hpc,Pc.slot]
    · simp [Store.fill,Function.update_of_ne hu]
  | post hpc => exact h.post hpc
  | enqueue _ hready => exact h.enqueue hready
  | progress _ _ _ hp =>
    obtain ⟨w,-,-,rfl⟩ := Store.progress_eq_some.mp hp
    exact h.congr rfl (fun _ => rfl) rfl rfl rfl rfl
  | complete _ _ =>
    exact h.congr rfl (fun _ => rfl) (by simp [State.posted,Job.posted]) rfl rfl rfl
  | begin _ hready =>
    exact h.congr rfl (fun _ => rfl) (by simp [State.posted,hready,List.filterMap_cons,Job.posted])
      rfl rfl rfl
  | release _ => exact h.release _ _
  | finishMore _ _ | finishEmpty _ _ | finishFailed _ | close | reopen =>
    exact h.congr rfl (fun _ => rfl) rfl rfl rfl rfl

end

end Pipeline
