import Librim.Context

/-! `RimApplication::run`: the thread that calls it, the pool of its `Context`, and other threads that
call `stop`. -/

set_option autoImplicit false

namespace Librim

variable {η : Type}

/-- The line of `run` that comes next. The `Context` is a local variable of it. -/
inductive RunStage where
  | called
  | setupHandlers
  | setupEndpoint
  | start
  | waitForShutdown
  | teardown
  | contextStop
  | reset
  | returned
  deriving DecidableEq, Repr

/-- `registered` says that `setup_handlers` has returned, `endpoint` that `server_` or `client_` holds an
endpoint. -/
structure ApplicationRun (η : Type) where
  appRunning : Bool
  stage : RunStage
  registered : Bool
  endpoint : Bool
  context : Context η
  deriving DecidableEq

/-- `line` is the next line of `run`, where `created` is what the factory returns; `stop` is called by
anyone. -/
inductive RunEvent (η : Type) where
  | line (created : Bool)
  | stop
  | pool (e : ContextEvent η)

/-- A step of the pool, or of what runs on it. -/
def ContextEvent.isPool : ContextEvent η → Bool
  | .start _ | .stop | .next => false
  | _ => true

def RunEvent.isLine : RunEvent η → Bool
  | .line _ => true
  | _ => false

/-- `run` goes on, or one of the threads that it waits for. -/
def RunEvent.isProgress : RunEvent η → Bool
  | .line _ => true
  | .stop => false
  | .pool e => e.isProgress

/-- What a step on the pool leaves as it is. -/
theorem Context.Step.pool {c d : Context η} {e : ContextEvent η} (hs : Context.Step c e d)
    (he : e.isPool = true) : d.guarded = c.guarded ∧ d.stopping = c.stopping ∧
      d.threads.length = c.threads.length ∧ (c.threads = [] → d.ran = c.ran) := by
  cases hs with
  | started _ _ | running | unguarded _ | halted _ | joined _ _ | cleared _ _ =>
    simp [ContextEvent.isPool] at he
  | posted | begun | completed => exact ⟨rfl, rfl, rfl, fun _ => rfl⟩
  | taken hi _ _ => exact ⟨rfl, rfl, by simp, fun hnil => by simp [hnil] at hi⟩
  | finished _ => simp
  | left _ _ => simp

def RunStage.index : RunStage → Nat
  | .called => 0
  | .setupHandlers => 1
  | .setupEndpoint => 2
  | .start => 3
  | .waitForShutdown => 4
  | .teardown => 5
  | .contextStop => 6
  | .reset => 7
  | .returned => 8

namespace ApplicationRun

/-- Before a call of `run`; `stop` may have been called. -/
def initial (appRunning : Bool) : ApplicationRun η where
  appRunning := appRunning
  stage := .called
  registered := false
  endpoint := false
  context := .initial

def withContext (s : ApplicationRun η) (c : Context η) : ApplicationRun η := { s with context := c }

def line (created : Bool) (s : ApplicationRun η) : Option (ApplicationRun η) :=
  match s.stage with
  | .called => some { s with stage := .setupHandlers }
  | .setupHandlers => some { s with stage := .setupEndpoint, registered := true }
  | .setupEndpoint => some { s with stage := .start, endpoint := created }
  | .start => (s.context.step (.start 4)).map ({ s with stage := .waitForShutdown, context := · })
  | .waitForShutdown => if s.appRunning then none else some { s with stage := .teardown }
  | .teardown => (s.context.step .stop).map ({ s with stage := .contextStop, context := · })
  | .contextStop =>
    if s.context.stopping = .idle then some { s with stage := .reset }
    else (s.context.step .next).map s.withContext
  | .reset => some { s with stage := .returned, endpoint := false }
  | .returned => none

/-- Until `setup_server` or `setup_client` has made an endpoint nobody has work for the context. -/
def step (s : ApplicationRun η) : RunEvent η → Option (ApplicationRun η)
  | .line created => s.line created
  | .stop => some { s with appRunning := false }
  | .pool e =>
    if e.isPool ∧ s.stage ≠ .called ∧ s.stage ≠ .setupHandlers ∧ s.stage ≠ .setupEndpoint then
      (s.context.step e).map s.withContext
    else none

abbrev Reached (s : ApplicationRun η) : Prop :=
  Transition.Reachable (fun s₀ => ∃ appRunning, s₀ = initial appRunning) step s

/-- Everything a step can do, with the test that it passed. -/
inductive Step (s : ApplicationRun η) : RunEvent η → ApplicationRun η → Prop where
  | setupHandlers {created : Bool} : s.stage = .called → Step s (.line created) { s with stage := .setupHandlers }
  | setupEndpoint {created : Bool} : s.stage = .setupHandlers →
      Step s (.line created) { s with stage := .setupEndpoint, registered := true }
  | start {created : Bool} : s.stage = .setupEndpoint →
      Step s (.line created) { s with stage := .start, endpoint := created }
  | waitForShutdown {created : Bool} {c : Context η} : s.stage = .start → s.context.step (.start 4) = some c →
      Step s (.line created) { s with stage := .waitForShutdown, context := c }
  | teardown {created : Bool} : s.stage = .waitForShutdown → s.appRunning = false →
      Step s (.line created) { s with stage := .teardown }
  | contextStop {created : Bool} {c : Context η} : s.stage = .teardown → s.context.step .stop = some c →
      Step s (.line created) { s with stage := .contextStop, context := c }
  | next {created : Bool} {c : Context η} : s.stage = .contextStop → s.context.stopping ≠ .idle →
      s.context.step .next = some c → Step s (.line created) (s.withContext c)
  | reset {created : Bool} : s.stage = .contextStop → s.context.stopping = .idle →
      Step s (.line created) { s with stage := .reset }
  | returned {created : Bool} : s.stage = .reset →
      Step s (.line created) { s with stage := .returned, endpoint := false }
  | stop : Step s .stop { s with appRunning := false }
  | pool {e : ContextEvent η} {c : Context η} : e.isPool = true → 3 ≤ s.stage.index →
      s.context.step e = some c → Step s (.pool e) (s.withContext c)

theorem step_cases {s t : ApplicationRun η} {e : RunEvent η} (h : step s e = some t) : Step s e t := by
  cases e with
  | line created =>
    simp only [step,line] at h
    split at h
    · rename_i hstage
      exact Option.some.inj h ▸ .setupHandlers hstage
    · rename_i hstage
      exact Option.some.inj h ▸ .setupEndpoint hstage
    · rename_i hstage
      exact Option.some.inj h ▸ .start hstage
    · rename_i hstage
      obtain ⟨c,hc,rfl⟩ := Option.map_eq_some_iff.mp h
      exact .waitForShutdown hstage hc
    · rename_i hstage
      simp only [Option.ite_none_left_eq_some,Bool.not_eq_true,Option.some.injEq] at h
      exact h.2 ▸ .teardown hstage h.1
    · rename_i hstage
      obtain ⟨c,hc,rfl⟩ := Option.map_eq_some_iff.mp h
      exact .contextStop hstage hc
    · rename_i hstage
      split at h
      · rename_i hidle
        exact Option.some.inj h ▸ .reset hstage hidle
      · rename_i hidle
        obtain ⟨c,hc,rfl⟩ := Option.map_eq_some_iff.mp h
        exact .next hstage hidle hc
    · rename_i hstage
      exact Option.some.inj h ▸ .returned hstage
    · simp at h
  | stop => exact Option.some.inj h ▸ .stop
  | pool e =>
    simp only [step,Option.ite_none_right_eq_some,Option.map_eq_some_iff] at h
    obtain ⟨⟨hpool,h₀,h₁,h₂⟩,c,hc,rfl⟩ := h
    refine .pool hpool ?_ hc
    cases hstage : s.stage <;> simp [hstage,RunStage.index] at h₀ h₁ h₂ ⊢

/-- Where the context is at each line of `run`. -/
structure Staged (s : ApplicationRun η) : Prop where
  context : Context.Reached s.context
  unstarted : s.stage.index ≤ 3 → s.context.threads = [] ∧ s.context.ran = []
  registered : 2 ≤ s.stage.index → s.registered = true
  guarded : s.context.guarded = true ↔ s.stage.index ≤ 5
  four : 4 ≤ s.stage.index → s.stage.index ≤ 5 ∨ s.context.stopping ≠ .idle → s.context.threads.length = 4
  awaited : 5 ≤ s.stage.index → s.appRunning = false
  ended : 6 ≤ s.stage.index → s.context.stopping = .idle → s.context.threads = []
  idle : 7 ≤ s.stage.index → s.context.stopping = .idle

/-- A line that leaves the context as it is. -/
theorem Staged.line {s t : ApplicationRun η} (h : Staged s) (hc : t.context = s.context)
    (hstage : t.stage.index = s.stage.index+1) (hsix : s.stage.index ≠ 3 ∧ s.stage.index ≠ 5)
    (hr : 2 ≤ t.stage.index → t.registered = true) (ha : 5 ≤ t.stage.index → t.appRunning = false)
    (hidle : 7 ≤ t.stage.index → s.context.stopping = .idle) : Staged t where
  context := hc ▸ h.context
  unstarted hle := by
    rw [hc]
    exact h.unstarted (by omega)
  registered := hr
  guarded := by
    rw [hc, h.guarded]
    omega
  four hle hor := by
    rw [hc] at hor ⊢
    refine h.four (by omega) ?_
    rcases hor with hlt | hne
    · exact .inl (by omega)
    · exact .inr hne
  awaited := ha
  ended hle := by
    rw [hc]
    intro hs
    by_cases hlt : 6 ≤ s.stage.index
    · exact h.ended hlt hs
    · omega
  idle hle := by
    rw [hc]
    exact hidle hle

theorem Staged.step {s t : ApplicationRun η} {e : RunEvent η} (h : Staged s) (hs : Step s e t) : Staged t := by
  have hphased := h.context.phased
  cases hs with
  | setupHandlers hstage =>
    refine h.line rfl ?_ ?_ ?_ ?_ ?_ <;> simp [hstage,RunStage.index]
  | setupEndpoint hstage =>
    refine h.line rfl ?_ ?_ ?_ ?_ ?_ <;> simp [hstage,RunStage.index]
  | start hstage =>
    have hr := h.registered (by simp [hstage,RunStage.index])
    refine h.line rfl ?_ ?_ (fun _ => hr) ?_ ?_ <;> simp [hstage,RunStage.index]
  | @waitForShutdown _ c hstage hc =>
    have hnil := (h.unstarted (by simp [hstage,RunStage.index])).1
    have hguarded := h.guarded.mpr (by simp [hstage,RunStage.index])
    have hr := h.registered (by simp [hstage,RunStage.index])
    have hc' : Context.Step s.context (.start 4) c := Context.step_cases hc
    have hreached : Context.Reached c := .next h.context trivial hc
    cases hc' with
    | running =>
      simp only [Context.step,Context.start,hnil] at hc
      have hthreads := congrArg (Option.map Context.threads) hc
      split at hthreads <;> simp [hnil] at hthreads
    | started hidle _ =>
      refine ⟨hreached, ?_, fun _ => hr, ?_, ?_, ?_, ?_, ?_⟩ <;> simp [RunStage.index,hguarded]
  | teardown hstage hstop =>
    have hr := h.registered (by simp [hstage,RunStage.index])
    refine h.line rfl ?_ ?_ (fun _ => hr) (fun _ => hstop) ?_ <;> simp [hstage,RunStage.index]
  | @contextStop _ c hstage hc =>
    have hr := h.registered (by simp [hstage,RunStage.index])
    have hstop := h.awaited (by simp [hstage,RunStage.index])
    have hfour := h.four (by simp [hstage,RunStage.index]) (.inl (by simp [hstage,RunStage.index]))
    have hc' : Context.Step s.context .stop c := Context.step_cases hc
    have hreached : Context.Reached c := .next h.context trivial hc
    cases hc' with
    | unguarded _ =>
      refine ⟨hreached, ?_, fun _ => hr, ?_, fun _ _ => ?_, fun _ => hstop, ?_, ?_⟩
      · simp [RunStage.index]
      · simp [RunStage.index]
      · simpa using hfour
      · simp
      · simp [RunStage.index]
  | @next _ c hstage hne hc =>
    have hr := h.registered (by simp [hstage,RunStage.index])
    have hstop := h.awaited (by simp [hstage,RunStage.index])
    have hfour := h.four (by simp [hstage,RunStage.index]) (.inr hne)
    have hguarded : s.context.guarded = false := by
      by_contra hg
      have hle := h.guarded.mp (by simpa using hg)
      simp [hstage,RunStage.index] at hle
    have hc' : Context.Step s.context .next c := Context.step_cases hc
    have hreached : Context.Reached c := .next h.context trivial hc
    cases hc' with
    | halted _ | joined _ _ =>
      refine ⟨hreached, ?_, fun _ => hr, ?_, fun _ _ => hfour, fun _ => hstop, ?_, ?_⟩ <;>
        simp [withContext,hstage,RunStage.index,hguarded]
    | cleared _ _ =>
      refine ⟨hreached, ?_, fun _ => hr, ?_, ?_, fun _ => hstop, ?_, ?_⟩ <;>
        simp [withContext,hstage,RunStage.index,hguarded]
  | reset hstage hidle =>
    have hr := h.registered (by simp [hstage,RunStage.index])
    have hstop := h.awaited (by simp [hstage,RunStage.index])
    refine h.line rfl ?_ ?_ (fun _ => hr) (fun _ => hstop) (fun _ => hidle) <;> simp [hstage,RunStage.index]
  | returned hstage =>
    have hr := h.registered (by simp [hstage,RunStage.index])
    have hstop := h.awaited (by simp [hstage,RunStage.index])
    have hidle := h.idle (by simp [hstage,RunStage.index])
    refine h.line rfl ?_ ?_ (fun _ => hr) (fun _ => hstop) (fun _ => hidle) <;> simp [hstage,RunStage.index]
  | stop => exact ⟨h.context, h.unstarted, h.registered, h.guarded, h.four, fun _ => rfl, h.ended, h.idle⟩
  | @pool e c hpool hle hc =>
    obtain ⟨hguarded,hstopping,hlength,hran⟩ := (Context.step_cases hc).pool hpool
    have hnil : s.context.threads = [] → c.threads = [] := by
      intro hnil
      rw [← List.length_eq_zero_iff, hlength, hnil]
      rfl
    refine ⟨.next h.context trivial hc, fun hlt => ?_, h.registered, ?_, ?_, h.awaited, ?_, ?_⟩
    · obtain ⟨hthreads,hnone⟩ := h.unstarted hlt
      exact ⟨hnil hthreads, (hran hthreads).trans hnone⟩
    · simp only [withContext,hguarded]
      exact h.guarded
    · simp only [withContext,hstopping,hlength]
      exact h.four
    · simp only [withContext,hstopping]
      exact fun hlt hidle => hnil (h.ended hlt hidle)
    · simp only [withContext,hstopping]
      exact h.idle

theorem Reached.staged {s : ApplicationRun η} (h : Reached s) : Staged s := by
  refine h.invariant Staged ?_ (fun s e t hi _ hs => hi.step (step_cases hs))
  rintro s ⟨appRunning,rfl⟩
  refine ⟨.start rfl, fun _ => ⟨rfl,rfl⟩, ?_, ?_, ?_, ?_, ?_, ?_⟩ <;>
    simp [initial,RunStage.index,Context.initial]

/-- Past `context.stop()` nothing on the pool moves any more. -/
theorem final_step {s t : ApplicationRun η} {e : RunEvent η} (hs : Step s e t)
    (h : Context.Final s.context ∧ 7 ≤ s.stage.index) :
    (Context.Final t.context ∧ 7 ≤ t.stage.index) ∧ t.context.ran = s.context.ran := by
  obtain ⟨hfinal,hle⟩ := h
  cases hs with
  | setupHandlers hstage | setupEndpoint hstage | start hstage | waitForShutdown hstage _ | teardown hstage _
  | contextStop hstage _ | next hstage _ _ => simp [hstage,RunStage.index] at hle
  | reset hstage _ => simp [hstage,RunStage.index] at hle
  | returned _ => exact ⟨⟨hfinal, by simp [RunStage.index]⟩, rfl⟩
  | stop => exact ⟨⟨hfinal,hle⟩, rfl⟩
  | pool _ _ hc =>
    obtain ⟨hfinal',hran⟩ := hfinal.step (Context.step_cases hc)
    exact ⟨⟨hfinal',hle⟩, hran⟩

/-- No handler runs before `setup_handlers` has returned; four threads run them while `run` waits; it
waits until `stop` is called; and when it drops the endpoints, all threads have returned and
no handler will ever run again. -/
structure Lifecycle (s : ApplicationRun η) : Prop where
  handled : s.context.ran ≠ [] → s.registered = true ∧ 4 ≤ s.stage.index
  serving : s.stage = .waitForShutdown → s.context.threads.length = 4 ∧ .returned ∉ s.context.threads
  awaited : 5 ≤ s.stage.index → s.appRunning = false
  ended : s.stage = .reset ∨ s.stage = .returned → s.context.threads = [] ∧
    ∀ es t, Transition.run step s es = some t → t.context.ran = s.context.ran

theorem run_lifecycle (s : ApplicationRun η) (h : Reached s) : Lifecycle s := by
  have hstaged := h.staged
  refine ⟨fun hran => ?_, fun hstage => ?_, hstaged.awaited, fun hstage => ?_⟩
  · have hle : 4 ≤ s.stage.index := by
      by_contra hlt
      exact hran (hstaged.unstarted (by omega)).2
    exact ⟨hstaged.registered (by omega), hle⟩
  · have hguarded := hstaged.guarded.mpr (by simp [hstage,RunStage.index])
    have hfour := hstaged.four (by simp [hstage,RunStage.index]) (.inl (by simp [hstage,RunStage.index]))
    exact ⟨hfour, (hstaged.context.phased.serving hguarded).2.2⟩
  · have hle : 7 ≤ s.stage.index := by
      rcases hstage with hstage | hstage <;> simp [hstage,RunStage.index]
    have hidle := hstaged.idle hle
    have hguarded : s.context.guarded = false := by
      by_contra hg
      have hlt := hstaged.guarded.mp (by simpa using hg)
      omega
    have hfinal := hstaged.context.phased.ended hguarded hidle
    refine ⟨hstaged.ended (by omega) hidle, fun es t hr => ?_⟩
    have hkept : (Context.Final t.context ∧ 7 ≤ t.stage.index) ∧ t.context.ran = s.context.ran := by
      refine Transition.run_preserves (fun u : ApplicationRun η =>
        (Context.Final u.context ∧ 7 ≤ u.stage.index) ∧ u.context.ran = s.context.ran) ?_ ⟨⟨hfinal,hle⟩,rfl⟩ hr
      intro u e v ⟨hu,hran⟩ hv
      obtain ⟨hv,hran'⟩ := final_step (step_cases hv) hu
      exact ⟨hv, hran'.trans hran⟩
    exact hkept.2

/-- A server that was stopped while a handler runs on one of its threads. -/
def winding : List (RunEvent Nat) :=
  [.line true, .line true, .line true, .pool (.post 7), .line true, .pool (.take 2 0), .stop, .line true, .line true,
    .line true]

/-- The handler comes to its end, the threads return and are joined. -/
def wound : List (RunEvent Nat) :=
  winding ++ [.pool (.finish 2), .pool (.leave 3), .pool (.leave 2), .pool (.leave 1), .pool (.leave 0),
    .line true, .line true, .line true, .line true, .line true, .line true]

theorem run_lifecycle_wound : ∃ s : ApplicationRun Nat, Transition.run step (initial true) wound = some s ∧
    s.stage = .reset ∧ s.context.ran = [7] ∧ Lifecycle s := by
  obtain ⟨s,hs⟩ : ∃ s, Transition.run step (initial true : ApplicationRun Nat) wound = some s :=
    Option.isSome_iff_exists.mp (by decide)
  have hrun : (Transition.run step (initial true : ApplicationRun Nat) wound).map
      (fun s => (s.stage,s.context.ran)) = some (.reset,[7]) := by decide
  simp only [hs,Option.map_some,Option.some.injEq,Prod.mk.injEq] at hrun
  have hreached : Reached s := Transition.reachable_run (.start ⟨true,rfl⟩) hs
  exact ⟨s, hs, hrun.1, hrun.2, run_lifecycle s hreached⟩

/-- Once `stop` was called, `run` can go on, or a thread that it waits for can. -/
theorem Staged.progress {s : ApplicationRun η} (h : Staged s) (hstop : s.appRunning = false)
    (hne : s.stage ≠ .returned) : ∃ e t, RunEvent.isProgress e = true ∧ ApplicationRun.step s e = some t := by
  have hphased := h.context.phased
  have hidle : s.stage.index ≤ 5 → s.context.stopping = .idle := by
    intro hle
    exact (hphased.serving (h.guarded.mpr hle)).2.1
  cases hstage : s.stage with
  | called | setupHandlers | setupEndpoint | reset =>
    exact ⟨.line true, _, rfl, by simp only [ApplicationRun.step,ApplicationRun.line,hstage]; rfl⟩
  | start =>
    have hidle' := hidle (by simp [hstage,RunStage.index])
    exact ⟨.line true, _, rfl, by
      simp only [ApplicationRun.step,ApplicationRun.line,hstage,Context.step,hidle',↓reduceIte]
      rfl⟩
  | waitForShutdown =>
    exact ⟨.line true, _, rfl, by
      simp only [ApplicationRun.step,ApplicationRun.line,hstage,hstop,Bool.false_eq_true,↓reduceIte]
      rfl⟩
  | teardown =>
    have hidle' := hidle (by simp [hstage,RunStage.index])
    exact ⟨.line true, _, rfl, by
      simp only [ApplicationRun.step,ApplicationRun.line,hstage,Context.step,hidle',↓reduceIte]
      rfl⟩
  | returned => exact absurd hstage hne
  | contextStop =>
    by_cases hs : s.context.stopping = .idle
    · exact ⟨.line true, _, rfl, by simp only [ApplicationRun.step,ApplicationRun.line,hstage,hs,↓reduceIte]; rfl⟩
    · obtain ⟨e,c,he,hc⟩ := hphased.progress hs
      cases e with
      | next =>
        exact ⟨.line true, _, rfl, by
          simp only [ApplicationRun.step,ApplicationRun.line,hstage,hs,↓reduceIte,hc,Option.map_some]; rfl⟩
      | finish i =>
        exact ⟨.pool (.finish i), _, rfl, by
          simp only [ApplicationRun.step,hstage,ContextEvent.isPool,hc,Option.map_some]; rfl⟩
      | leave i =>
        exact ⟨.pool (.leave i), _, rfl, by
          simp only [ApplicationRun.step,hstage,ContextEvent.isPool,hc,Option.map_some]; rfl⟩
      | start _ | stop | post _ | begin | complete _ | take _ _ => simp [ContextEvent.isProgress] at he

end ApplicationRun

end Librim
