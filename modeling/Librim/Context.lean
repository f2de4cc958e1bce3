import Librim.Foundation.Transition
import Mathlib.Algebra.GroupWithZero.Nat
import Mathlib.Data.List.Basic

/-! `Context`: an `io_context` with a work guard and a pool of threads that run it. `start` and `stop`
are called by one thread at a time, which is none of the pool. -/

set_option autoImplicit false

namespace Librim

variable {η : Type}

/-- A thread of the pool is in `io_context_.run()` until it returns. -/
inductive PoolThread (η : Type) where
  | waiting
  | executing (h : η)
  | returned
  deriving DecidableEq

def PoolThread.isExecuting : PoolThread η → Bool
  | .executing _ => true
  | _ => false

/-- Where the caller of `stop` is: before `io_context_.stop()`, or at `join` of thread `i`. -/
inductive Stopping where
  | idle
  | halting
  | joining (i : Nat)
  deriving DecidableEq, Repr

/-- `operations` counts the asynchronous operations under way. `ran` is history: the handlers that
were taken up. -/
structure Context (η : Type) where
  guarded : Bool
  stopped : Bool
  operations : Nat
  queue : List η
  threads : List (PoolThread η)
  stopping : Stopping
  ran : List η
  deriving DecidableEq

/-- `next` is the next line of `stop`. Handlers are posted, and operations begun and completed, by
anyone. Thread `i` takes up one of the handlers that are queued, the `k`-th or any other, comes to
its end, or leaves `run()`. -/
inductive ContextEvent (η : Type) where
  | start (numThreads : Nat)
  | stop
  | next
  | post (h : η)
  | begin
  | complete (h : η)
  | take (i k : Nat)
  | finish (i : Nat)
  | leave (i : Nat)

/-- A line of `stop`, or a thread of the pool that goes on. -/
def ContextEvent.isProgress : ContextEvent η → Bool
  | .next | .finish _ | .leave _ => true
  | _ => false

/-- A call of `start` or of `stop`. -/
def ContextEvent.isCall : ContextEvent η → Bool
  | .start _ | .stop => true
  | _ => false

/-- The steps that a thread has before it at most when the context is stopped. -/
def PoolThread.cost : PoolThread η → Nat
  | .waiting => 1
  | .executing _ => 2
  | .returned => 0

namespace Context

def initial : Context η where
  guarded := true
  stopped := false
  operations := 0
  queue := []
  threads := []
  stopping := .idle
  ran := []

/-- What `io_context` counts as outstanding work. -/
def outstanding (c : Context η) : Nat :=
  c.guarded.toNat+c.operations+c.queue.length+c.threads.countP PoolThread.isExecuting

/-- An `io_context` that runs out of work stops. -/
def settle (c : Context η) : Context η := if c.outstanding = 0 then { c with stopped := true } else c

/-- `Context::start`. -/
def start (numThreads : Nat) (c : Context η) : Context η :=
  if c.threads ≠ [] then c else { c with threads := List.replicate numThreads .waiting }

/-- A line of `Context::stop` after the first. -/
def next (c : Context η) : Option (Context η) :=
  match c.stopping with
  | .idle => none
  | .halting => some { c with stopped := true, stopping := .joining 0 }
  | .joining i =>
    match c.threads[i]? with
    | some .returned => some { c with stopping := .joining (i+1) }
    | some _ => none
    | none => some { c with threads := [], stopping := .idle }

def enqueue (h : η) (c : Context η) : Context η := { c with queue := c.queue ++ [h] }

def step (c : Context η) : ContextEvent η → Option (Context η)
  | .start numThreads => if c.stopping = .idle then some (c.start numThreads) else none
  | .stop =>
    if c.stopping = .idle then some (settle { c with guarded := false, stopping := .halting }) else none
  | .next => c.next
  | .post h => some (c.enqueue h)
  | .begin => some { c with operations := c.operations+1 }
  | .complete h =>
    if 0 < c.operations then some ({ c with operations := c.operations-1 }.enqueue h) else none
  | .take i k =>
    match c.threads[i]?, c.queue[k]? with
    | some .waiting, some h =>
      if c.stopped then none
      else some { c with
        queue := c.queue.eraseIdx k, threads := c.threads.set i (.executing h), ran := c.ran ++ [h] }
    | _, _ => none
  | .finish i =>
    match c.threads[i]? with
    | some (.executing _) => some (settle { c with threads := c.threads.set i .waiting })
    | _ => none
  | .leave i =>
    match c.threads[i]? with
    | some .waiting => if c.stopped then some { c with threads := c.threads.set i .returned } else none
    | _ => none

/-- The runs of a context from its construction on. -/
abbrev Reached (c : Context η) : Prop := Transition.Reachable (fun c₀ => c₀ = initial) step c

section settle
variable (c : Context η)

@[simp] theorem settle_guarded : (settle c).guarded = c.guarded := by unfold settle; split <;> rfl

@[simp] theorem settle_queue : (settle c).queue = c.queue := by unfold settle; split <;> rfl

@[simp] theorem settle_threads : (settle c).threads = c.threads := by unfold settle; split <;> rfl

@[simp] theorem settle_stopping : (settle c).stopping = c.stopping := by unfold settle; split <;> rfl

@[simp] theorem settle_ran : (settle c).ran = c.ran := by unfold settle; split <;> rfl

theorem settle_stopped (h : c.stopped = true) : (settle c).stopped = true := by
  unfold settle
  split
  · rfl
  · exact h

/-- The work guard keeps an `io_context` from stopping. -/
theorem settle_of_guarded (h : c.guarded = true) : settle c = c := by
  have hwork : c.outstanding ≠ 0 := by
    simp only [outstanding,h,Bool.toNat_true]
    omega
  simp [settle,hwork]

end settle

/-- Everything a step can do, with the test that it passed. -/
inductive Step (c : Context η) : ContextEvent η → Context η → Prop where
  | started {numThreads : Nat} : c.stopping = .idle → c.threads = [] →
      Step c (.start numThreads) { c with threads := List.replicate numThreads .waiting }
  | running {numThreads : Nat} : Step c (.start numThreads) c
  | unguarded : c.stopping = .idle →
      Step c .stop (settle { c with guarded := false, stopping := .halting })
  | halted : c.stopping = .halting → Step c .next { c with stopped := true, stopping := .joining 0 }
  | joined {i : Nat} : c.stopping = .joining i → c.threads[i]? = some .returned →
      Step c .next { c with stopping := .joining (i+1) }
  | cleared {i : Nat} : c.stopping = .joining i → c.threads[i]? = none →
      Step c .next { c with threads := [], stopping := .idle }
  | posted {h : η} : Step c (.post h) (c.enqueue h)
  | begun : Step c .begin { c with operations := c.operations+1 }
  | completed {h : η} : Step c (.complete h) ({ c with operations := c.operations-1 }.enqueue h)
  | taken {i k : Nat} {h : η} : c.threads[i]? = some .waiting → c.queue[k]? = some h →
      c.stopped = false → Step c (.take i k) { c with
        queue := c.queue.eraseIdx k, threads := c.threads.set i (.executing h), ran := c.ran ++ [h] }
  | finished {i : Nat} {h : η} : c.threads[i]? = some (.executing h) →
      Step c (.finish i) (settle { c with threads := c.threads.set i .waiting })
  | left {i : Nat} : c.threads[i]? = some .waiting → c.stopped = true →
      Step c (.leave i) { c with threads := c.threads.set i .returned }

theorem step_cases {c d : Context η} {e : ContextEvent η} (h : step c e = some d) : Step c e d := by
  cases e with
  | start numThreads =>
    simp only [step,Option.ite_none_right_eq_some,Option.some.injEq] at h
    obtain ⟨hidle,rfl⟩ := h
    unfold start
    split
    · exact .running
    · rename_i hnil
      exact .started hidle (not_not.mp hnil)
  | stop =>
    simp only [step,Option.ite_none_right_eq_some,Option.some.injEq] at h
    exact h.2 ▸ .unguarded h.1
  | next =>
    simp only [step,next] at h
    split at h
    · simp at h
    · rename_i hs
      exact Option.some.inj h ▸ .halted hs
    · rename_i i hs
      split at h
      · rename_i hi
        exact Option.some.inj h ▸ .joined hs hi
      · simp at h
      · rename_i hi
        exact Option.some.inj h ▸ .cleared hs hi
  | post k => exact Option.some.inj h ▸ .posted
  | begin => exact Option.some.inj h ▸ .begun
  | complete k =>
    simp only [step,Option.ite_none_right_eq_some,Option.some.injEq] at h
    exact h.2 ▸ .completed
  | take i j =>
    simp only [step] at h
    split at h
    · rename_i k hi hq
      simp only [Option.ite_none_left_eq_some,Bool.not_eq_true,Option.some.injEq] at h
      exact h.2 ▸ .taken hi hq h.1
    · simp at h
  | finish i =>
    simp only [step] at h
    split at h
    · rename_i k hi
      exact Option.some.inj h ▸ .finished hi
    · simp at h
  | leave i =>
    simp only [step] at h
    split at h
    · rename_i hi
      simp only [Option.ite_none_right_eq_some,Option.some.injEq] at h
      exact h.2 ▸ .left hi h.1
    · simp at h

/-- The context is stopped for good, and no handler is in progress. -/
structure Final (c : Context η) : Prop where
  guarded : c.guarded = false
  stopped : c.stopped = true
  quiet : ∀ t ∈ c.threads, t.isExecuting = false

theorem Final.step {c d : Context η} {e : ContextEvent η} (h : Final c) (hs : Step c e d) :
    Final d ∧ d.ran = c.ran := by
  obtain ⟨hguarded,hstopped,hquiet⟩ := h
  have hset : ∀ (i : Nat) {t : PoolThread η}, t.isExecuting = false →
      ∀ u ∈ c.threads.set i t, u.isExecuting = false := by
    intro i t ht u hu
    rcases List.mem_or_eq_of_mem_set hu with hu | rfl
    · exact hquiet u hu
    · exact ht
  cases hs with
  | started _ _ =>
    refine ⟨⟨hguarded, hstopped, fun t ht => ?_⟩, rfl⟩
    rw [List.eq_of_mem_replicate ht]
    rfl
  | running | halted _ | joined _ _ | posted | begun | completed =>
    exact ⟨⟨hguarded, by first | exact hstopped | rfl, hquiet⟩, rfl⟩
  | unguarded _ => exact ⟨⟨by simp, settle_stopped _ hstopped, by simpa using hquiet⟩, by simp⟩
  | cleared _ _ => exact ⟨⟨hguarded, hstopped, by simp⟩, rfl⟩
  | taken _ _ hrunning => simp [hstopped] at hrunning
  | finished hi => simpa [PoolThread.isExecuting] using hquiet _ (List.mem_of_getElem? hi)
  | left _ _ => exact ⟨⟨hguarded, hstopped, hset _ rfl⟩, rfl⟩

/-- The phases of a context: serving until `stop` is called, stopping, and stopped for good. -/
structure Phased (c : Context η) : Prop where
  serving : c.guarded = true → c.stopped = false ∧ c.stopping = .idle ∧ .returned ∉ c.threads
  joining : ∀ i, c.stopping = .joining i →
    c.stopped = true ∧ ∀ j, j < i → c.threads[j]? = some .returned
  ended : c.guarded = false → c.stopping = .idle → Final c

/-- A thread that is not past its `join` changes. -/
theorem Phased.set {c : Context η} (h : Phased c) {i : Nat} {t u : PoolThread η}
    (hi : c.threads[i]? = some t) (ht : t ≠ .returned) :
    (u ≠ .returned → .returned ∉ c.threads → .returned ∉ c.threads.set i u) ∧
    ∀ k, c.stopping = .joining k → ∀ j, j < k → (c.threads.set i u)[j]? = some .returned := by
  refine ⟨fun hu hnone hmem => ?_, fun k hk j hj => ?_⟩
  · rcases List.mem_or_eq_of_mem_set hmem with hmem | rfl
    · exact hnone hmem
    · exact hu rfl
  · have hreturned := (h.joining k hk).2 j hj
    have hne : i ≠ j := by
      rintro rfl
      rw [hi, Option.some.injEq] at hreturned
      exact ht hreturned
    rw [List.getElem?_set_ne hne]
    exact hreturned

theorem Phased.step {c d : Context η} {e : ContextEvent η} (h : Phased c) (hs : Step c e d) : Phased d := by
  have hserved := h.serving
  have hover : c.guarded = false → c.stopping = .idle → Final d := by
    intro hg hi
    exact ((h.ended hg hi).step hs).1
  cases hs with
  | running => exact h
  | started hidle hnil =>
    refine ⟨fun hg => ⟨(hserved hg).1, hidle, ?_⟩, fun i hi => ?_, hover⟩
    · intro hmem
      simp [List.mem_replicate] at hmem
    · simp [hidle] at hi
  | unguarded hidle =>
    exact ⟨by simp, by simp, by simp⟩
  | halted hs =>
    refine ⟨fun hg => ?_, fun i hi => ?_, by simp⟩
    · simp [(hserved hg).2.1] at hs
    · obtain rfl : i = 0 := by simpa using hi.symm
      exact ⟨rfl, fun j hj => absurd hj (Nat.not_lt_zero j)⟩
  | @joined i hs hi =>
    obtain ⟨hstopped,hreturned⟩ := h.joining i hs
    refine ⟨fun hg => ?_, fun k hk => ⟨hstopped, fun j hj => ?_⟩, by simp⟩
    · simp [(hserved hg).2.1] at hs
    · obtain rfl : k = i+1 := by simpa using hk.symm
      rcases Nat.lt_succ_iff_lt_or_eq.mp hj with hj | rfl
      · exact hreturned j hj
      · exact hi
  | @cleared i hs hi =>
    have hg : c.guarded = false := by
      by_contra hg
      simp only [Bool.not_eq_false] at hg
      simp [(hserved hg).2.1] at hs
    exact ⟨fun hg' => by simp [hg] at hg', by simp, fun _ _ => ⟨hg, (h.joining i hs).1, by simp⟩⟩
  | posted | completed | begun => exact ⟨hserved, h.joining, hover⟩
  | @taken i _ k hi hq hrunning =>
    obtain ⟨hkept,hjoined⟩ := h.set (u := .executing k) hi (by simp)
    refine ⟨fun hg => ?_, fun j hj => ?_, hover⟩
    · obtain ⟨hstopped,hidle,hnone⟩ := hserved hg
      exact ⟨hstopped, hidle, hkept (by simp) hnone⟩
    · exact ⟨(h.joining j hj).1, hjoined j hj⟩
  | @finished i k hi =>
    obtain ⟨hkept,hjoined⟩ := h.set (u := .waiting) hi (by simp)
    refine ⟨fun hg => ?_, fun j hj => ?_, ?_⟩
    · simp only [settle_guarded] at hg
      obtain ⟨hstopped,hidle,hnone⟩ := hserved hg
      rw [settle_of_guarded { c with threads := c.threads.set i .waiting } hg]
      exact ⟨hstopped, hidle, hkept (by simp) hnone⟩
    · simp only [settle_stopping] at hj
      exact ⟨settle_stopped _ (h.joining j hj).1, by simpa using hjoined j hj⟩
    · simpa using hover
  | @left i hi hstopped =>
    obtain ⟨-,hjoined⟩ := h.set (u := .returned) hi (by simp)
    refine ⟨fun hg => ?_, fun j hj => ⟨hstopped, hjoined j hj⟩, hover⟩
    simp [(hserved hg).1] at hstopped

theorem Reached.phased {c : Context η} (h : Reached c) : Phased c := by
  refine h.invariant Phased ?_ (fun c e d hc _ hs => hc.step (step_cases hs))
  rintro c rfl
  exact ⟨fun _ => ⟨rfl, rfl, List.not_mem_nil⟩, by simp [initial], by simp [initial]⟩

/-- As long as `stop` is not called, the `io_context` does not stop and no thread leaves its loop, not
even when there is nothing to do; and `start` on a context that has threads adds none. -/
structure Serving (c : Context η) : Prop where
  unstopped : c.stopped = false
  staying : .returned ∉ c.threads
  fixed : c.threads ≠ [] → ∀ es d, Transition.run step c es = some d → d.guarded = true →
    d.threads.length = c.threads.length

/-- Once unguarded, always so. -/
theorem guarded_back {c d : Context η} {e : ContextEvent η} (hs : Step c e d) (h : d.guarded = true) :
    c.guarded = true := by
  cases hs with
  | unguarded _ => simp at h
  | finished _ => simpa using h
  | _ => exact h

theorem guarded_back_run {c d : Context η} {es : List (ContextEvent η)}
    (hr : Transition.run step c es = some d) (h : d.guarded = true) : c.guarded = true := by
  induction es generalizing c with
  | nil =>
    simp only [Transition.run_nil,Option.some.injEq] at hr
    exact hr ▸ h
  | cons e es ih =>
    simp only [Transition.run_cons,Option.bind_eq_some_iff] at hr
    obtain ⟨b,hb,hr⟩ := hr
    exact guarded_back (step_cases hb) (ih hr)

theorem Step.length {c d : Context η} {e : ContextEvent η} (hs : Step c e d) (h : Phased c)
    (hg : d.guarded = true) (hne : c.threads ≠ []) : d.threads.length = c.threads.length := by
  have hidle := (h.serving (guarded_back hs hg)).2.1
  cases hs with
  | started _ hnil => exact absurd hnil hne
  | cleared hs _ => simp [hidle] at hs
  | taken _ _ _ | finished _ | left _ _ => simp
  | unguarded _ => simp
  | running | halted _ | joined _ _ | posted | begun | completed => rfl

theorem pool_serves (c : Context η) (h : Reached c) (hguarded : c.guarded = true) : Serving c := by
  have hphased := h.phased
  obtain ⟨hstopped,-,hnone⟩ := hphased.serving hguarded
  refine ⟨hstopped, hnone, fun hne es d hr hg => ?_⟩
  clear hstopped hnone hphased hguarded
  induction es generalizing c with
  | nil =>
    simp only [Transition.run_nil,Option.some.injEq] at hr
    rw [hr]
  | cons e es ih =>
    simp only [Transition.run_cons,Option.bind_eq_some_iff] at hr
    obtain ⟨b,hb,hr⟩ := hr
    have hlen := (step_cases hb).length h.phased (guarded_back_run hr hg) hne
    have hne' : b.threads ≠ [] := by
      rw [← List.length_pos_iff, hlen, List.length_pos_iff]
      exact hne
    rw [ih b (.next h trivial hb) hne' hr, hlen]

/-- Two threads; one has taken up the second of two handlers. -/
def busyPool : Context Nat where
  guarded := true
  stopped := false
  operations := 0
  queue := [8]
  threads := [.executing 7,.waiting]
  stopping := .idle
  ran := [7]

theorem reached_busyPool : Reached busyPool := by
  have hrun : Transition.run step initial [.start 2, .post 8, .post 7, .take 0 1] = some busyPool := by decide
  exact Transition.reachable_run (.start rfl) hrun

theorem pool_serves_busy : Reached busyPool ∧ Serving busyPool :=
  ⟨reached_busyPool, pool_serves busyPool reached_busyPool rfl⟩

/-! `stop` comes to its end. -/

/-- The steps that `stop` and the threads of the pool have before them. -/
def cost (c : Context η) : Nat :=
  (c.threads.map PoolThread.cost).sum+
    match c.stopping with
    | .idle => 0
    | .halting => c.threads.length+2
    | .joining i => c.threads.length-i+1

theorem sum_cost_set {l : List (PoolThread η)} {i : Nat} {t : PoolThread η} (hi : l[i]? = some t)
    (u : PoolThread η) :
    ((l.set i u).map PoolThread.cost).sum+t.cost = (l.map PoolThread.cost).sum+u.cost := by
  induction l generalizing i with
  | nil => simp at hi
  | cons a l ih =>
    cases i with
    | zero =>
      simp only [List.getElem?_cons_zero,Option.some.injEq] at hi
      subst hi
      simp only [List.set_cons_zero,List.map_cons,List.sum_cons]
      omega
    | succ i =>
      have hrest := ih (by simpa using hi)
      simp only [List.set_cons_succ,List.map_cons,List.sum_cons]
      omega

theorem cost_settle (c : Context η) : (settle c).cost = c.cost := by
  simp only [cost,settle_threads,settle_stopping]

/-- A step while a stopped context winds up. -/
theorem Step.cost_le {c d : Context η} {e : ContextEvent η} (hs : Step c e d) (hstopped : c.stopped = true)
    (he : e.isCall = false) : d.stopped = true ∧ d.cost+e.isProgress.toNat ≤ c.cost := by
  cases hs with
  | started _ _ | running | unguarded _ => simp [ContextEvent.isCall] at he
  | halted hs =>
    refine ⟨rfl, ?_⟩
    simp only [cost,hs,ContextEvent.isProgress,Bool.toNat_true]
    omega
  | @joined i hs hi =>
    have hlt := (List.getElem?_eq_some_iff.mp hi).1
    refine ⟨hstopped, ?_⟩
    simp only [cost,hs,ContextEvent.isProgress,Bool.toNat_true]
    omega
  | cleared hs _ =>
    refine ⟨hstopped, ?_⟩
    simp only [cost,hs,ContextEvent.isProgress,Bool.toNat_true,List.map_nil,List.sum_nil]
    omega
  | posted | begun | completed => exact ⟨hstopped, by simp [cost,enqueue,ContextEvent.isProgress]⟩
  | taken _ _ hrunning => simp [hstopped] at hrunning
  | finished hi =>
    have hsum := sum_cost_set hi .waiting
    refine ⟨settle_stopped _ hstopped, ?_⟩
    rw [cost_settle]
    simp only [cost,List.length_set,ContextEvent.isProgress,Bool.toNat_true]
    simp only [PoolThread.cost] at hsum
    omega
  | left hi _ =>
    have hsum := sum_cost_set hi .returned
    refine ⟨hstopped, ?_⟩
    simp only [cost,List.length_set,ContextEvent.isProgress,Bool.toNat_true]
    simp only [PoolThread.cost] at hsum
    omega

theorem cost_run {c d : Context η} {es : List (ContextEvent η)} (hstopped : c.stopped = true)
    (hes : ∀ e ∈ es, e.isCall = false) (hr : Transition.run step c es = some d) :
    d.cost+es.countP ContextEvent.isProgress ≤ c.cost := by
  induction es generalizing c with
  | nil =>
    simp only [Transition.run_nil,Option.some.injEq] at hr
    simp [hr]
  | cons e es ih =>
    simp only [Transition.run_cons,Option.bind_eq_some_iff] at hr
    obtain ⟨b,hb,hr⟩ := hr
    obtain ⟨hstopped',hle⟩ := (step_cases hb).cost_le hstopped (hes e List.mem_cons_self)
    have hrest := ih hstopped' (fun e' he' => hes e' (List.mem_cons_of_mem _ he')) hr
    simp only [List.countP_cons]
    cases hp : e.isProgress <;> simp [hp] at hle ⊢ <;> omega

theorem cost_le_of_joining {c : Context η} {i : Nat} (hs : c.stopping = .joining i) :
    c.cost ≤ 3*c.threads.length+1 := by
  have hsum : ∀ l : List (PoolThread η), (l.map PoolThread.cost).sum ≤ 2*l.length := by
    intro l
    induction l with
    | nil => simp
    | cons t l ih =>
      have ht : t.cost ≤ 2 := by cases t <;> simp [PoolThread.cost]
      simp only [List.map_cons,List.sum_cons,List.length_cons]
      omega
  have hle := hsum c.threads
  simp only [cost,hs]
  omega

/-- A caller in `stop` can go on, or the thread that it waits for can. -/
theorem Phased.progress {c : Context η} (h : Phased c) (hs : c.stopping ≠ .idle) :
    ∃ e d, ContextEvent.isProgress e = true ∧ Context.step c e = some d := by
  cases hstop : c.stopping with
  | idle => exact absurd hstop hs
  | halting => exact ⟨.next, _, rfl, by simp only [Context.step,next,hstop]; rfl⟩
  | joining i =>
    obtain ⟨hstopped,-⟩ := h.joining i hstop
    cases hi : c.threads[i]? with
    | none => exact ⟨.next, _, rfl, by simp only [Context.step,next,hstop,hi]; rfl⟩
    | some t =>
      cases t with
      | returned => exact ⟨.next, _, rfl, by simp only [Context.step,next,hstop,hi]; rfl⟩
      | waiting => exact ⟨.leave i, _, rfl, by simp only [Context.step,hi,hstopped,↓reduceIte]; rfl⟩
      | executing k => exact ⟨.finish i, _, rfl, by simp only [Context.step,hi]; rfl⟩

/-- `stop` cannot hang: as long as it has not returned, it or a thread of the pool has a step to
take, and past `io_context_.stop()` they take at most three for each thread and one more,
whatever is posted meanwhile. -/
theorem stop_returns (c : Context η) (h : Reached c) (hs : c.stopping ≠ .idle) :
    (∃ e d, ContextEvent.isProgress e = true ∧ step c e = some d) ∧
    ∀ i, c.stopping = .joining i → ∀ es d, (∀ e ∈ es, ContextEvent.isCall e = false) →
      Transition.run step c es = some d → es.countP ContextEvent.isProgress ≤ 3*c.threads.length+1 := by
  refine ⟨h.phased.progress hs, fun i hi es d hes hr => ?_⟩
  have hcost := cost_run (h.phased.joining i hi).1 hes hr
  have hbound := cost_le_of_joining hi
  omega

/-- `stop` waits for the first thread, which is in a handler. -/
def stoppingPool : Context Nat := { busyPool with guarded := false, stopped := true, stopping := .joining 0 }

theorem reached_stoppingPool : Reached stoppingPool := by
  have hrun : Transition.run step busyPool [.stop, .next] = some stoppingPool := by decide
  exact Transition.reachable_run reached_busyPool hrun

theorem stop_returns_busy : Reached stoppingPool ∧
    ∃ e d, ContextEvent.isProgress e = true ∧ step stoppingPool e = some d :=
  ⟨reached_stoppingPool, (stop_returns stoppingPool reached_stoppingPool (by decide)).1⟩

/-- After `stop` has returned no handler is in progress and none is ever taken up again, whatever
is posted and however often `start` and `stop` are called. -/
theorem stop_is_final (c : Context η) (h : Reached c) (hg : c.guarded = false) (hs : c.stopping = .idle)
    (es : List (ContextEvent η)) (d : Context η) (hr : Transition.run step c es = some d) :
    d.ran = c.ran ∧ ∀ t ∈ d.threads, t.isExecuting = false := by
  have hfinal : Final d ∧ d.ran = c.ran := by
    refine Transition.run_preserves (fun b => Final b ∧ b.ran = c.ran) ?_ ⟨h.phased.ended hg hs, rfl⟩ hr
    intro a e b ⟨ha,hran⟩ hb
    obtain ⟨hb,hran'⟩ := ha.step (step_cases hb)
    exact ⟨hb, hran'.trans hran⟩
  exact ⟨hfinal.2, hfinal.1.quiet⟩

/-- The threads have returned, and `stop` after them. -/
def stoppedPool : Context Nat := { stoppingPool with threads := [], stopping := .idle }

theorem stop_is_final_restarted : Reached stoppedPool ∧
    ∃ d, Transition.run step stoppedPool [.post 9, .start 2, .leave 1] = some d ∧ d.queue = [8,9] ∧ d.ran = [7] := by
  have hrun : Transition.run step stoppingPool [.finish 0, .leave 1, .leave 0, .next, .next, .next] =
      some stoppedPool := by decide
  have hagain : Transition.run step stoppedPool [.post 9, .start 2, .leave 1] = some { stoppedPool with
      queue := [8,9], threads := [.waiting,.returned] } := by decide
  have hreached : Reached stoppedPool := Transition.reachable_run reached_stoppingPool hrun
  have hfinal := stop_is_final stoppedPool hreached rfl rfl _ _ hagain
  exact ⟨hreached, _, hagain, rfl, hfinal.1⟩

end Context

end Librim
