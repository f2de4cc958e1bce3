import Librim.LoggerFile

/-! As long as an `AsyncLogger` is not destroyed, no notification of a producer is lost, and the
worker needs no more than its own steps to bring to the file what was accepted. -/

set_option autoImplicit false

namespace Librim.AsyncLogger

variable {τ : Type}

/-- Who holds the mutex is in a critical section. A worker that is about to block, or blocked, has
found the buffer empty; if it no longer is, the notification of a producer is still to come. -/
structure Attentive (s : State τ) : Prop where
  worker : s.mutex = some .worker → s.worker.inside = true
  destructor : s.mutex = some .destructor → s.destructor = .flushing
  blocking : s.worker = .blocking → s.active = []
  blocked : s.worker = .blocked → s.active ≠ [] → ∃ t, s.producer t = .notifying
  exited : s.worker = .exited → s.running = false

/-- Steps that move neither the mutex nor the bytes, and leave the worker awake or where it was. -/
theorem Attentive.congr {s t : State τ} (h : Attentive s) (hm : t.mutex = s.mutex)
    (hin : s.worker.inside = true → t.worker.inside = true)
    (hd : s.destructor = .flushing → t.destructor = .flushing)
    (hw : t.worker = s.worker ∨ (t.worker ≠ .blocking ∧ t.worker ≠ .blocked ∧ t.worker ≠ .exited))
    (hp : ∀ u, s.producer u = .notifying → t.producer u = .notifying) (ha : t.active = s.active)
    (hr : s.running = false → t.running = false) : Attentive t where
  worker := by
    rw [hm]
    exact fun h' => hin (h.worker h')
  destructor := by
    rw [hm]
    exact fun h' => hd (h.destructor h')
  blocking hb := by
    rcases hw with hw | ⟨hw,-,-⟩
    · rw [ha]
      exact h.blocking (hw ▸ hb)
    · exact absurd hb hw
  blocked hb hne := by
    rcases hw with hw | ⟨-,hw,-⟩
    · obtain ⟨u,hu⟩ := h.blocked (hw ▸ hb) (ha ▸ hne)
      exact ⟨u, hp u hu⟩
    · exact absurd hb hw
  exited he := by
    rcases hw with hw | ⟨-,-,hw⟩
    · exact hr (h.exited (hw ▸ he))
    · exact absurd he hw

theorem Attentive.notifyOne {s : State τ} (h : Attentive s) :
    Attentive s.notifyOne ∧ s.notifyOne.worker ≠ .blocked := by
  rcases notifyOne_cases s with ⟨hw,heq⟩ | ⟨hw,heq⟩
  · rw [heq]
    exact ⟨h,hw⟩
  · rw [heq]
    refine ⟨h.congr rfl ?_ id (.inr ⟨by simp, by simp, by simp⟩) (fun _ => id) rfl id, by simp⟩
    simp [hw,Worker.inside]

variable [DecidableEq τ]

/-- A producer that was not notifying moves on. -/
theorem Attentive.setProducer {s : State τ} (h : Attentive s) {t : τ} (hp : s.producer t ≠ .notifying)
    (p : Producer) : Attentive (s.setProducer t p) := by
  refine h.congr rfl id id (.inl rfl) (fun u hu => ?_) rfl id
  by_cases hut : u = t
  · exact absurd (hut ▸ hu) hp
  · simpa [State.setProducer,Function.update_of_ne hut] using hu

theorem Attentive.step {maxCapacity : Nat} {s t : State τ} {e : Event τ} {history notes : List (Note τ)}
    (hst : Staged s) (hser : Serialized s history) (h : Attentive s) (hs : Step maxCapacity s e notes t) :
    Attentive t := by
  have hinside : s.worker.inside = true → ∀ u, s.mutex ≠ some (.producer u) := by
    intro hin u
    rw [hser.worker hin]
    simp
  cases hs with
  | ignored => exact h
  | called _ hp =>
    exact (h.setProducer (by simp [hp]) _).congr rfl id id (.inl rfl) (fun _ => id) rfl id
  | @locked u r hp hm =>
    have hset := h.setProducer (t := u) (by simp [hp]) (.locked r)
    exact ⟨by simp, by simp, hset.blocking, hset.blocked, hset.exited⟩
  | @dropped u r hp =>
    have hset := h.setProducer (t := u) (by simp [hp]) .idle
    exact ⟨by simp, by simp, hset.blocking, hset.blocked, hset.exited⟩
  | @appended u r hp _ =>
    refine ⟨by simp, by simp, fun hb => ?_, fun _ _ => ⟨u, by simp [State.setProducer]⟩, h.exited⟩
    have hmutex := hser.holds u r hp
    exact absurd hmutex (hinside (by simp only [State.setProducer] at hb; simp [hb,Worker.inside]) u)
  | notified hp =>
    obtain ⟨hn,hw⟩ := h.notifyOne
    exact ⟨hn.worker, hn.destructor, hn.blocking, fun hb => absurd hb hw, hn.exited⟩
  | tested hw =>
    by_cases hr : s.running = true
    · refine h.congr rfl ?_ id (.inr ?_) (fun _ => id) rfl id
      · simp [hw,Worker.inside]
      · simp [hr]
    · refine ⟨fun hm => ?_, h.destructor, by simp [hr], by simp [hr], fun _ => by simpa using hr⟩
      have hin := h.worker hm
      simp [hw,Worker.inside] at hin
  | entered _ _ => exact ⟨fun _ => rfl, by simp, by simp, by simp, by simp⟩
  | passed hw => exact h.congr rfl (fun _ => rfl) id (.inr (by simp)) (fun _ => id) rfl id
  | refused hw ha _ => exact ⟨fun _ => rfl, h.destructor, fun _ => ha, by simp, by simp⟩
  | blocked hw => exact ⟨by simp, by simp, by simp, fun _ hne => absurd (h.blocking hw) hne, by simp⟩
  | swapped _ => exact ⟨by simp, by simp, by simp, by simp, by simp⟩
  | skipped hw _ | cleared hw | woken hw =>
    exact h.congr rfl (by simp [hw,Worker.inside]) id (.inr (by simp)) (fun _ => id) rfl id
  | flushed hw =>
    rw [write_eq hst.opened]
    exact h.congr rfl (by simp [hw,Worker.inside]) id (.inr (by simp)) (fun _ => id) rfl id
  | stopped hd _ | unused hd _ => exact h.congr rfl id (by simp [hd]) (.inl rfl) (fun _ => id) rfl (fun _ => rfl)
  | joined hd _ => exact h.congr rfl id (by simp [hd]) (.inl rfl) (fun _ => id) rfl id
  | announced hd => exact h.notifyOne.1.congr rfl id (by simp [hd]) (.inl rfl) (fun _ => id) rfl id
  | claimed _ hm => exact ⟨by simp, fun _ => rfl, h.blocking, h.blocked, h.exited⟩
  | drained hd =>
    have hw := hst.exited (.inr (.inl hd))
    rw [write_eq hst.opened]
    exact ⟨by simp, by simp, by simp [hw], by simp [hw], h.exited⟩

theorem Reached.attentive {maxCapacity : Nat} {s : State τ} {history : List (Note τ)}
    (h : Reached maxCapacity s history) : Attentive s := by
  have hboth : Recorded maxCapacity s history ∧ Attentive s := by
    refine Transition.Reach.invariant (fun p => Recorded maxCapacity p.1 p.2 ∧ Attentive p.1) ?_ ?_ h
    · rintro ⟨s,history⟩ ⟨rfl,rfl⟩
      exact ⟨recorded_initial maxCapacity,
        ⟨by simp [initial], by simp [initial], by simp [initial], by simp [initial], by simp [initial]⟩⟩
    · rintro p e q ⟨hr,ha⟩ hok hstep
      obtain ⟨hs,hhistory⟩ := Transition.recorded_eq_some.mp hstep
      rw [hhistory]
      exact ⟨hr.step hok (step_cases hs), ha.step hr.staged hr.serialized (step_cases hs)⟩
  exact hboth.2

/-- The worker is asleep, and the file is all that was accepted. -/
structure Flushed (history : List (Note τ)) (t : State τ) : Prop where
  asleep : t.worker = .blocked
  file : t.file = ((accepted history).map Record.encode).flatten

/-- `n` steps of the worker are enough. -/
def Flushes (maxCapacity n : Nat) (history : List (Note τ)) (s : State τ) : Prop :=
  ∃ k ≤ n, ∃ t, Transition.run (step maxCapacity) s (List.replicate k .work) = some t ∧ Flushed history t

theorem Flushes.next {maxCapacity n : Nat} {history : List (Note τ)} {s t : State τ}
    (h : Flushes maxCapacity n history t) (hs : work s = some t) : Flushes maxCapacity (n+1) history s := by
  obtain ⟨k,hk,u,hrun,hflushed⟩ := h
  refine ⟨k+1, by omega, u, ?_, hflushed⟩
  simp only [List.replicate_succ,Transition.run_cons,step,hs,Option.bind_some]
  exact hrun

theorem Flushes.mono {maxCapacity n m : Nat} {history : List (Note τ)} {s : State τ}
    (h : Flushes maxCapacity n history s) (hle : n ≤ m) : Flushes maxCapacity m history s := by
  obtain ⟨k,hk,hrun⟩ := h
  exact ⟨k, by omega, hrun⟩

/-- No call of `log` is in progress, and the logger is not destroyed. -/
structure Undisturbed (s : State τ) : Prop where
  alive : s.destructor = .alive
  idle : ∀ t, s.producer t = .idle

/-- What is known when the worker works undisturbed. -/
structure Alone (maxCapacity : Nat) (history : List (Note τ)) (s : State τ) : Prop where
  recorded : Recorded maxCapacity s history
  attentive : Attentive s
  undisturbed : Undisturbed s

section alone
variable {maxCapacity : Nat} {history : List (Note τ)} {s : State τ}

/-- A step of the worker adds nothing to the record. -/
theorem Alone.work {t : State τ} (h : Alone maxCapacity history s) (hs : work s = some t)
    (hd : t.destructor = s.destructor) (hp : t.producer = s.producer) : Alone maxCapacity history t where
  recorded := by
    have hok : NoOverlap s .work := trivial
    have hnext := h.recorded.step hok (step_work hs)
    rwa [List.append_nil] at hnext
  attentive := by
    have hstep : Step maxCapacity s .work [] t := step_work hs
    exact h.attentive.step h.recorded.staged h.recorded.serialized hstep
  undisturbed := ⟨hd ▸ h.undisturbed.alive, hp ▸ h.undisturbed.idle⟩

/-- Outside its critical section the worker finds the mutex free. -/
theorem Alone.mutex (h : Alone maxCapacity history s) (hw : s.worker.inside = false) : s.mutex = none := by
  cases hm : s.mutex with
  | none => rfl
  | some holder =>
    cases holder with
    | worker => simp [h.attentive.worker hm] at hw
    | destructor =>
      have hd := h.attentive.destructor hm
      simp [h.undisturbed.alive] at hd
    | producer t =>
      rcases h.recorded.serialized.order with ⟨-,hn⟩ | ⟨u,r,-,hl,-⟩
      · exact absurd hm (hn t)
      · simp [h.undisturbed.idle u] at hl

theorem Alone.blocked (h : Alone maxCapacity history s) (hw : s.worker = .blocked) : Flushes maxCapacity 0 history s := by
  have hactive : s.active = [] := by
    by_contra hne
    obtain ⟨t,ht⟩ := h.attentive.blocked hw hne
    simp [h.undisturbed.idle t] at ht
  have hcontent := h.recorded.lossless.content
  refine ⟨0, Nat.le_refl _, s, rfl, hw, ?_⟩
  simpa [State.unwritten,hw,hactive] using hcontent

theorem Alone.blocking (h : Alone maxCapacity history s) (hw : s.worker = .blocking) :
    Flushes maxCapacity 1 history s := by
  have hs : AsyncLogger.work s = some { s with worker := .blocked, mutex := none } := by simp [AsyncLogger.work,hw]
  exact ((h.work hs rfl rfl).blocked rfl).next hs

/-- The worker looks at the buffer, which is empty. -/
theorem Alone.rests (h : Alone maxCapacity history s) (hw : s.worker = .test) (ha : s.active = []) :
    Flushes maxCapacity 4 history s := by
  have hr : s.running = true := h.recorded.staged.alive h.undisturbed.alive
  have hs₁ : AsyncLogger.work s = some { s with worker := .locking } := by simp [AsyncLogger.work,hw,hr]
  have h₁ := h.work hs₁ rfl rfl
  have hm : s.mutex = none := h.mutex (by simp [hw,Worker.inside])
  have hs₂ : AsyncLogger.work { s with worker := .locking } =
      some { s with worker := .checking, mutex := some .worker } := by simp [AsyncLogger.work,hm]
  have h₂ := h₁.work hs₂ rfl rfl
  have hs₃ : AsyncLogger.work { s with worker := .checking, mutex := some .worker } =
      some { s with worker := .blocking, mutex := some .worker } := by simp [AsyncLogger.work,ha,hr]
  have h₃ := h₂.work hs₃ rfl rfl
  exact (((h₃.blocking rfl).next hs₃).next hs₂).next hs₁

/-- The worker has the mutex and steals the buffer. -/
theorem Alone.swapping (h : Alone maxCapacity history s) (hw : s.worker = .swapping) :
    Flushes maxCapacity 7 history s := by
  have hflush : s.flush = [] := h.recorded.lossless.flushed (by simp [hw]) (by simp [hw])
  have hopen := h.recorded.staged.opened
  have hs : AsyncLogger.work s =
      some { s with worker := .flushing, mutex := none, active := [], flush := s.active } := by
    simp [AsyncLogger.work,hw,hflush]
  have h₁ := h.work hs rfl rfl
  refine Flushes.next ?_ hs
  by_cases ha : s.active = []
  · have hs₁ : AsyncLogger.work { s with worker := .flushing, mutex := none, active := [], flush := s.active } =
        some { s with worker := .test, mutex := none, active := [], flush := s.active } := by
      simp [AsyncLogger.work,ha]
    exact (((h₁.work hs₁ rfl rfl).rests rfl rfl).next hs₁).mono (by omega)
  · have hs₁ : AsyncLogger.work { s with worker := .flushing, mutex := none, active := [], flush := s.active } =
        some { s with
          worker := .clearing, mutex := none, active := [], flush := s.active, file := s.file ++ s.active } := by
      simp [AsyncLogger.work,ha,State.write,hopen]
    have h₂ := h₁.work hs₁ rfl rfl
    have hs₂ : AsyncLogger.work { s with
        worker := .clearing, mutex := none, active := [], flush := s.active, file := s.file ++ s.active } =
          some { s with worker := .test, mutex := none, active := [], flush := [], file := s.file ++ s.active } := rfl
    exact (((h₂.work hs₂ rfl rfl).rests rfl rfl).next hs₂).next hs₁

theorem Alone.checking (h : Alone maxCapacity history s) (hw : s.worker = .checking) :
    Flushes maxCapacity 8 history s := by
  have hr : s.running = true := h.recorded.staged.alive h.undisturbed.alive
  by_cases ha : s.active = []
  · have hs : AsyncLogger.work s = some { s with worker := .blocking } := by simp [AsyncLogger.work,hw,ha,hr]
    exact (((h.work hs rfl rfl).blocking rfl).next hs).mono (by omega)
  · have hs : AsyncLogger.work s = some { s with worker := .swapping } := by simp [AsyncLogger.work,hw,ha]
    exact ((h.work hs rfl rfl).swapping rfl).next hs

theorem Alone.locking (h : Alone maxCapacity history s) (hw : s.worker = .locking ∨ s.worker = .woken) :
    Flushes maxCapacity 9 history s := by
  have hin : s.worker.inside = false := by rcases hw with hw | hw <;> simp [hw,Worker.inside]
  have hm := h.mutex hin
  have hs : AsyncLogger.work s = some { s with worker := .checking, mutex := some .worker } := by
    rcases hw with hw | hw <;> simp [AsyncLogger.work,hw,hm]
  exact ((h.work hs rfl rfl).checking rfl).next hs

/-- From the head of its loop. -/
theorem Alone.test (h : Alone maxCapacity history s) (hw : s.worker = .test) : Flushes maxCapacity 10 history s := by
  have hr : s.running = true := h.recorded.staged.alive h.undisturbed.alive
  by_cases ha : s.active = []
  · exact (h.rests hw ha).mono (by omega)
  · have hs₁ : AsyncLogger.work s = some { s with worker := .locking } := by simp [AsyncLogger.work,hw,hr]
    have h₁ := h.work hs₁ rfl rfl
    exact ((h₁.locking (.inl rfl)).next hs₁).mono (by omega)

/-- Wherever the worker is, it comes to rest with everything written. -/
theorem Alone.flushes (h : Alone maxCapacity history s) : Flushes maxCapacity 12 history s := by
  have hopen := h.recorded.staged.opened
  have hclearing : ∀ {t : State τ}, Alone maxCapacity history t → t.worker = .clearing →
      Flushes maxCapacity 11 history t := by
    intro t ht hw
    have hs : AsyncLogger.work t = some { t with worker := .test, flush := [] } := by simp [AsyncLogger.work,hw]
    exact ((ht.work hs rfl rfl).test rfl).next hs
  cases hw : s.worker with
  | test => exact (h.test hw).mono (by omega)
  | locking => exact (h.locking (.inl hw)).mono (by omega)
  | woken => exact (h.locking (.inr hw)).mono (by omega)
  | checking => exact (h.checking hw).mono (by omega)
  | blocking => exact (h.blocking hw).mono (by omega)
  | blocked => exact (h.blocked hw).mono (by omega)
  | swapping => exact (h.swapping hw).mono (by omega)
  | clearing => exact (hclearing h hw).mono (by omega)
  | flushing =>
    by_cases hf : s.flush = []
    · have hs : AsyncLogger.work s = some { s with worker := .test } := by simp [AsyncLogger.work,hw,hf]
      exact (((h.work hs rfl rfl).test rfl).next hs).mono (by omega)
    · have hs : AsyncLogger.work s = some { s with worker := .clearing, file := s.file ++ s.flush } := by
        simp [AsyncLogger.work,hw,hf,State.write,hopen]
      exact (hclearing (h.work hs rfl rfl) rfl).next hs
  | exited =>
    have hr := h.recorded.staged.alive h.undisturbed.alive
    simp [h.attentive.exited hw] at hr

end alone

/-- While a logger is not destroyed, a worker that sleeps although there is something to write is
about to be notified, and as soon as no call of `log` is in progress the worker, by at most
twelve steps of its own, brings everything to the file that was accepted so far. -/
theorem worker_flushes (maxCapacity : Nat) (s : State τ) (history : List (Note τ))
    (h : Reached maxCapacity s history) (halive : s.destructor = .alive) :
    (s.worker = .blocked → s.active ≠ [] → ∃ t, s.producer t = .notifying) ∧
    ((∀ t, s.producer t = .idle) → Flushes maxCapacity 12 history s) :=
  ⟨h.attentive.blocked, fun hidle => Alone.flushes ⟨h.recorded, h.attentive, ⟨halive,hidle⟩⟩⟩

/-- The worker writes one record while the next two come in. -/
def lateRun : List (Event Unit) :=
  [.log () ⟨1,2,[7]⟩, .lock (), .append (), .notify (), .work, .work, .work, .work,
    .log () ⟨3,4,[8,9]⟩, .lock (), .append (), .notify ()]

theorem worker_flushes_late : ∃ (s : State Unit) (history : List (Note Unit)),
    undisturbed 20 lateRun = some (s,history) ∧ Reached 20 s history ∧ s.worker = .flushing ∧ s.active ≠ [] ∧
    accepted history = [⟨1,2,[7]⟩, ⟨3,4,[8,9]⟩] ∧ Flushes 20 12 history s := by
  have hrun : (undisturbed 20 lateRun).map (fun p => (p.1.destructor, p.1.worker, p.1.active.length, p.1.producer (),
      accepted p.2)) = some (.alive, .flushing, 18, .idle, [⟨1,2,[7]⟩,⟨3,4,[8,9]⟩]) := by decide +kernel
  obtain ⟨⟨s,history⟩,hs,hv⟩ := Option.map_eq_some_iff.mp hrun
  simp only [Prod.mk.injEq] at hv
  obtain ⟨hd,hw,ha,hp,hacc⟩ := hv
  have hreach := reached_undisturbed hs
  refine ⟨s, history, hs, hreach, hw, ?_, hacc, (worker_flushes 20 s history hreach hd).2 (fun _ => hp)⟩
  intro hnil
  simp [hnil] at ha

end Librim.AsyncLogger
