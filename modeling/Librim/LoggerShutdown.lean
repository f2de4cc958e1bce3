import Librim.AsyncLogger

/-! The destructor of `AsyncLogger` waits for the worker. It changes `running_` and notifies
without the mutex, so its one notification can fall between the worker's test of the predicate
and its blocking. -/

set_option autoImplicit false

namespace Librim.AsyncLogger

variable {τ : Type}

/-- The destructor notifies at a moment when the worker is not about to block. -/
def Heard (s : State τ) : Event τ → Prop
  | .destroy => s.destructor = .notifying → s.worker ≠ .blocking
  | _ => True

instance (s : State τ) (e : Event τ) : Decidable (Heard s e) :=
  match e with
  | .destroy => inferInstanceAs (Decidable (s.destructor = .notifying → s.worker ≠ .blocking))
  | .log _ _ | .lock _ | .append _ | .notify _ | .work | .spurious => isTrue trivial

/-- The destructor is in `join`, the worker is blocked, and nobody is left to notify it. -/
structure Hung (s : State τ) : Prop where
  joining : s.destructor = .joining
  blocked : s.worker = .blocked
  stopped : s.running = false
  idle : ∀ t, s.producer t = .idle

/-- Once the destructor has exchanged `running_`, the predicate of `cv_.wait` is true, and
after its notification the worker is past the wait. -/
structure Leaving (s : State τ) : Prop where
  stopped : s.destructor ≠ .alive → s.running = false
  joining : s.destructor = .joining → s.worker ≠ .blocking ∧ s.worker ≠ .blocked

variable [DecidableEq τ]

theorem Leaving.step {maxCapacity : Nat} {s t : State τ} {e : Event τ} {notes : List (Note τ)} (h : Leaving s)
    (hok : Heard s e) (hs : Step maxCapacity s e notes t) : Leaving t := by
  obtain ⟨hstop,hjoin⟩ := h
  cases hs with
  | ignored | called _ _ | locked _ _ | dropped _ | appended _ _ => exact ⟨hstop,hjoin⟩
  | notified _ =>
    rcases notifyOne_cases s with ⟨-,heq⟩ | ⟨-,heq⟩
    · rw [heq]
      exact ⟨hstop,hjoin⟩
    · rw [heq]
      exact ⟨hstop,fun _ => by simp [State.setProducer]⟩
  | tested _ =>
    refine ⟨hstop,fun _ => ?_⟩
    simp only
    split <;> simp
  | entered _ _ | passed _ | swapped _ | skipped _ _ | cleared _ | woken _ =>
    exact ⟨hstop,fun _ => by simp⟩
  | flushed _ =>
    refine ⟨?_,fun _ => by simp⟩
    unfold State.write
    split <;> exact hstop
  | refused _ _ hr =>
    -- the predicate was false, so the destructor has not yet exchanged `running_`
    have hd : s.destructor = .alive := by
      by_contra hd
      simp [hstop hd] at hr
    exact ⟨hstop,fun hj => by simp [hd] at hj⟩
  | blocked hw => exact ⟨hstop,fun hj => absurd hw (hjoin hj).1⟩
  | stopped _ _ | unused _ _ => exact ⟨fun _ => rfl,by simp⟩
  | announced hd =>
    have hr := hstop (by rw [hd]; simp)
    rcases notifyOne_cases s with ⟨hw,heq⟩ | ⟨-,heq⟩
    · rw [heq]
      exact ⟨fun _ => hr,fun _ => ⟨hok hd,hw⟩⟩
    · rw [heq]
      exact ⟨fun _ => hr,fun _ => by simp⟩
  | joined hd _ | claimed hd _ => exact ⟨fun _ => hstop (by rw [hd]; simp),by simp⟩
  | drained hd =>
    refine ⟨fun _ => ?_,by simp⟩
    have hr := hstop (by rw [hd]; simp)
    unfold State.write
    split <;> exact hr

/-- When the destructor's notification is always heard, it never waits in `join` for a worker
that is blocked. -/
theorem shutdown_never_hangs (maxCapacity : Nat) (s : State τ)
    (h : Transition.Reach (fun s => ∃ opened, s = initial opened) (step maxCapacity) Heard s) :
    ¬ (s.destructor = .joining ∧ s.worker = .blocked) := by
  have hleaving : Leaving s := by
    refine h.invariant _ ?_ (fun s e t ih hok hstep => ih.step hok (step_cases hstep))
    rintro s ⟨opened,rfl⟩
    exact ⟨by simp [initial],by simp [initial]⟩
  rintro ⟨hd,hw⟩
  exact (hleaving.joining hd).2 hw

/-- The worker is already blocked when the destructor notifies; it is woken, and the destructor waits
for it. -/
def joiningRun : List (Event Unit) := [.work, .work, .work, .work, .destroy, .destroy]

theorem shutdown_never_hangs_blocked : ∃ s : State Unit,
    Transition.run (Transition.guarded (step 64) (fun s e => decide (Heard s e))) (initial true) joiningRun = some s ∧
    Transition.Reach (fun s => ∃ opened, s = initial opened) (step 64) Heard s ∧
    s.destructor = .joining ∧ ¬ (s.destructor = .joining ∧ s.worker = .blocked) := by
  have hrun : (Transition.run (Transition.guarded (step 64) (fun s e => decide (Heard s e))) (initial true)
      joiningRun).map State.destructor = some .joining := by decide +kernel
  obtain ⟨s,hs,hd⟩ := Option.map_eq_some_iff.mp hrun
  have hreach : Transition.Reach (fun s => ∃ opened, s = initial opened) (step 64) Heard s :=
    .run_guarded (fun _ _ => of_decide_eq_true) (.start ⟨true,rfl⟩) hs
  exact ⟨s, hs, hreach, hd, shutdown_never_hangs 64 s hreach⟩

/-- Without spurious wakeups a hung logger stays hung. -/
theorem Hung.step {maxCapacity : Nat} {s t : State τ} {e : Event τ} (h : Hung s)
    (he : e ≠ .spurious) (hstep : step maxCapacity s e = some t) : Hung t := by
  cases e with
  | log u r =>
    simp only [AsyncLogger.step,log,h.stopped,Bool.not_false,Bool.true_or,if_true,
      Option.ite_none_right_eq_some,Option.some.injEq] at hstep
    exact hstep.2 ▸ h
  | lock u | append u | notify u => simp [AsyncLogger.step,h.idle u] at hstep
  | work => simp [AsyncLogger.step,work,h.blocked] at hstep
  | spurious => exact absurd rfl he
  | destroy => simp [AsyncLogger.step,destroy,h.joining,h.blocked] at hstep

theorem Hung.run {maxCapacity : Nat} {s t : State τ} {es : List (Event τ)} (h : Hung s)
    (hes : ∀ e ∈ es, e ≠ .spurious) (hrun : Transition.run (AsyncLogger.step maxCapacity) s es = some t) :
    Hung t := by
  induction es generalizing s with
  | nil =>
    simp only [Transition.run_nil,Option.some.injEq] at hrun
    exact hrun ▸ h
  | cons e es ih =>
    simp only [Transition.run_cons,Option.bind_eq_some_iff] at hrun
    obtain ⟨u,hu,hrun⟩ := hrun
    have hhung := h.step (hes e List.mem_cons_self) hu
    exact ih hhung (fun e' he' => hes e' (List.mem_cons_of_mem _ he')) hrun

/-- A notification in the worker's window is lost, and the logger hangs. -/
theorem hung_of_unheard (maxCapacity : Nat) {s : State τ} (hd : s.destructor = .notifying)
    (hw : s.worker = .blocking) (hr : s.running = false) (hidle : ∀ t, s.producer t = .idle) :
    ∃ t, Transition.run (step maxCapacity) s [.destroy,.work] = some t ∧ Hung t := by
  let t := { s with destructor := .joining, worker := .blocked, mutex := none }
  refine ⟨t, ?_, ⟨rfl,rfl,hr,hidle⟩⟩
  simp [AsyncLogger.step,destroy,work,hd,hw,State.notifyOne,t]

theorem shutdown_hangs : ∃ s : State Unit,
    Transition.Reachable (fun s => ∃ opened, s = initial opened) (step 64) s ∧ Hung s ∧
    ∀ es t, (∀ e ∈ es, e ≠ .spurious) → Transition.run (step 64) s es = some t → Hung t := by
  -- the worker finds the predicate false, the destructor exchanges `running_` and notifies,
  -- and only then does the worker block
  let es : List (Event Unit) := [.work,.work,.work,.destroy]
  obtain ⟨s,hs⟩ : ∃ s, Transition.run (step 64) (initial true) es = some s :=
    Option.isSome_iff_exists.mp (by decide +kernel)
  have hrun : (Transition.run (step 64) (initial true) es).map
      (fun s => (s.destructor,s.worker,s.running,s.producer ())) =
      some (.notifying,.blocking,false,.idle) := by decide +kernel
  simp only [hs,Option.map_some,Option.some.injEq,Prod.mk.injEq] at hrun
  obtain ⟨hd,hw,hr,hidle⟩ := hrun
  obtain ⟨t,ht,hhung⟩ := hung_of_unheard 64 hd hw hr (fun _ => hidle)
  refine ⟨t, Transition.reachable_run (.start ⟨true,rfl⟩) (Transition.run_trans hs ht), hhung, ?_⟩
  exact fun fs u hfs hu => hhung.run hfs hu

end Librim.AsyncLogger
