import Mathlib.Logic.Function.Basic

set_option autoImplicit false

namespace Transition

variable {σ ε : Type*}

/-- States reached by runs in which every step meets `ok`. With `ok` always true
these are the reachable states. -/
inductive Reach (init : σ → Prop) (step : σ → ε → Option σ) (ok : σ → ε → Prop) : σ → Prop where
  | start {s : σ} : init s → Reach init step ok s
  | next {s t : σ} {e : ε} : Reach init step ok s → ok s e → step s e = some t →
      Reach init step ok t

/-- The reachable states: no restriction on the steps. -/
abbrev Reachable (init : σ → Prop) (step : σ → ε → Option σ) : σ → Prop :=
  Reach init step (fun _ _ => True)

/-- Follow a list of steps. -/
def run (step : σ → ε → Option σ) : σ → List ε → Option σ
  | s, [] => some s
  | s, e :: es => (step s e).bind (fun t => run step t es)

section rules
variable {init : σ → Prop} {step : σ → ε → Option σ} {ok : σ → ε → Prop}

theorem Reach.invariant (I : σ → Prop) (h0 : ∀ s, init s → I s)
    (hs : ∀ s e t, I s → ok s e → step s e = some t → I t) {s : σ}
    (h : Reach init step ok s) : I s := by
  induction h with
  | start hi => exact h0 _ hi
  | next _ hok hstep ih => exact hs _ _ _ ih hok hstep

theorem Reach.mono {ok' : σ → ε → Prop} (himp : ∀ s e, ok s e → ok' s e) {s : σ}
    (h : Reach init step ok s) : Reach init step ok' s := by
  induction h with
  | start hi => exact .start hi
  | next _ hok hstep ih => exact .next ih (himp _ _ hok) hstep

theorem Reach.weaken {init' : σ → Prop} (himp : ∀ s, init s → init' s) {s : σ} (h : Reach init step ok s) :
    Reach init' step ok s := by
  induction h with
  | start hi => exact .start (himp _ hi)
  | next _ hok hstep ih => exact .next ih hok hstep

theorem Reach.reachable {s : σ} (h : Reach init step ok s) : Reachable init step s :=
  h.mono (fun _ _ _ => trivial)

@[simp] theorem run_nil (s : σ) : run step s [] = some s := rfl

@[simp] theorem run_cons (s : σ) (e : ε) (es : List ε) :
    run step s (e :: es) = (step s e).bind (fun t => run step t es) := rfl

theorem run_append (s : σ) (es fs : List ε) :
    run step s (es ++ fs) = (run step s es).bind (fun t => run step t fs) := by
  induction es generalizing s with
  | nil => simp
  | cons e es ih => cases h : step s e <;> simp [h,ih]

theorem run_trans {s t u : σ} {es fs : List ε} (h : run step s es = some t)
    (h' : run step t fs = some u) : run step s (es ++ fs) = some u := by
  simp [run_append,h,h']

theorem run_single {s t : σ} {e : ε} (h : step s e = some t) : run step s [e] = some t := by
  simp [h]

/-- Steps that meet `ok` wherever they are taken. -/
theorem Reach.follow {s t : σ} {es : List ε} (h : Reach init step ok s) (hok : ∀ e ∈ es, ∀ s, ok s e)
    (hr : run step s es = some t) : Reach init step ok t := by
  induction es generalizing s with
  | nil => simp only [run_nil,Option.some.injEq] at hr; exact hr ▸ h
  | cons e es ih =>
    simp only [run_cons,Option.bind_eq_some_iff] at hr
    obtain ⟨u,hu,hr⟩ := hr
    exact ih (.next h (hok e List.mem_cons_self s) hu) (fun e he => hok e (List.mem_cons_of_mem _ he)) hr

theorem reachable_run {s t : σ} {es : List ε} (h : Reachable init step s)
    (hr : run step s es = some t) : Reachable init step t :=
  h.follow (fun _ _ _ => trivial) hr

/-- A step that is taken only after a test. -/
def guarded (step : σ → ε → Option σ) (check : σ → ε → Bool) (s : σ) (e : ε) : Option σ :=
  if check s e then step s e else none

theorem Reach.run_guarded {check : σ → ε → Bool} (hcheck : ∀ s e, check s e = true → ok s e)
    {s t : σ} {es : List ε} (h : Reach init step ok s)
    (hr : run (guarded step check) s es = some t) : Reach init step ok t := by
  induction es generalizing s with
  | nil => simp only [run_nil,Option.some.injEq] at hr; exact hr ▸ h
  | cons e es ih =>
    simp only [run_cons,guarded,Option.bind_eq_some_iff,Option.ite_none_right_eq_some] at hr
    obtain ⟨u,⟨hc,hu⟩,hr⟩ := hr
    exact ih (.next h (hcheck s e hc) hu) hr

/-- A property that every step preserves holds after every run from a state that has it. -/
theorem run_preserves (I : σ → Prop) (hs : ∀ s e t, I s → step s e = some t → I t)
    {s t : σ} {es : List ε} (h : I s) (hr : run step s es = some t) : I t := by
  induction es generalizing s with
  | nil => simp only [run_nil,Option.some.injEq] at hr; exact hr ▸ h
  | cons e es ih =>
    simp only [run_cons,Option.bind_eq_some_iff] at hr
    obtain ⟨u,hu,hr⟩ := hr
    exact ih (hs _ _ _ h hu) hr

end rules

/-- A machine that keeps a history: `note` says what a step adds to it. -/
def recorded {α : Type*} (step : σ → ε → Option σ) (note : σ → ε → σ → List α) (p : σ × List α) (e : ε) :
    Option (σ × List α) :=
  (step p.1 e).map (fun t => (t, p.2 ++ note p.1 e t))

theorem recorded_eq_some {α : Type*} {step : σ → ε → Option σ} {note : σ → ε → σ → List α}
    {p q : σ × List α} {e : ε} : recorded step note p e = some q ↔
      step p.1 e = some q.1 ∧ q.2 = p.2 ++ note p.1 e q.1 := by
  obtain ⟨t,h⟩ := q
  simp only [recorded,Option.map_eq_some_iff,Prod.mk.injEq]
  constructor
  · rintro ⟨_,hs,rfl,rfl⟩
    exact ⟨hs,rfl⟩
  · rintro ⟨hs,hh⟩
    exact ⟨t, hs, rfl, hh.symm⟩

theorem run_of_guarded {step : σ → ε → Option σ} {check : σ → ε → Bool} {s t : σ} {es : List ε}
    (hr : run (guarded step check) s es = some t) : run step s es = some t := by
  induction es generalizing s with
  | nil => exact hr
  | cons e es ih =>
    simp only [run_cons,guarded,Option.bind_eq_some_iff,Option.ite_none_right_eq_some] at hr ⊢
    obtain ⟨u,⟨-,hu⟩,hr⟩ := hr
    exact ⟨u, hu, ih hr⟩

/-- Every run has a history. -/
theorem exists_run_recorded {α : Type*} {step : σ → ε → Option σ} (note : σ → ε → σ → List α) {s t : σ}
    {es : List ε} (hr : run step s es = some t) (h : List α) :
    ∃ h', run (recorded step note) (s,h) es = some (t,h') := by
  induction es generalizing s h with
  | nil =>
    simp only [run_nil,Option.some.injEq] at hr
    exact ⟨h, by rw [run_nil, hr]⟩
  | cons e es ih =>
    simp only [run_cons,Option.bind_eq_some_iff] at hr
    obtain ⟨u,hu,hr⟩ := hr
    obtain ⟨h',hh⟩ := ih hr (h ++ note s e u)
    exact ⟨h', by simp [recorded,hu,hh]⟩

section recorded
variable {α : Type*} {init : σ → Prop} {step : σ → ε → Option σ} {note : σ → ε → σ → List α}

/-- The state of a machine with history is reached by the machine without. -/
theorem Reach.of_recorded {p : σ × List α}
    (h : Reachable (fun p : σ × List α => init p.1 ∧ p.2 = []) (recorded step note) p) : Reachable init step p.1 := by
  induction h with
  | start hi => exact .start hi.1
  | next _ _ hs ih => exact .next ih trivial (recorded_eq_some.mp hs).1

/-- And every state that is reached is reached with a history. -/
theorem Reach.exists_recorded {ok : σ → ε → Prop} (note : σ → ε → σ → List α) {s : σ} (h : Reach init step ok s) :
    ∃ history, Reach (fun p : σ × List α => init p.1 ∧ p.2 = []) (recorded step note) (fun p e => ok p.1 e)
      (s,history) := by
  induction h with
  | start hi => exact ⟨[], .start ⟨hi,rfl⟩⟩
  | @next s t e _ hok hs ih =>
    obtain ⟨history,hr⟩ := ih
    exact ⟨history ++ note s e t, .next hr hok (recorded_eq_some.mpr ⟨hs,rfl⟩)⟩

end recorded

/-- A machine that moves on its own comes to a state with `P`. -/
inductive Comes (next : σ → Option σ) (P : σ → Prop) : σ → Prop where
  | here {s : σ} : P s → Comes next P s
  | there {s t : σ} : next s = some t → Comes next P t → Comes next P s

section comes
variable {next : σ → Option σ} {P Q : σ → Prop}

theorem Comes.trans {s : σ} (h : Comes next P s) (hpq : ∀ t, P t → Comes next Q t) :
    Comes next Q s := by
  induction h with
  | here hp => exact hpq _ hp
  | there hn _ ih => exact .there hn ih

theorem Comes.mono {s : σ} (h : Comes next P s) (hpq : ∀ t, P t → Q t) : Comes next Q s :=
  h.trans (fun t hp => .here (hpq t hp))

/-- A machine that never comes to `Q` has still not come to it when it gets to `P`. -/
theorem Comes.avoid {s : σ} (h : Comes next P s) (hn : ¬ Comes next Q s) :
    Comes next (fun t => P t ∧ ¬ Comes next Q t) s := by
  induction h with
  | here hp => exact .here ⟨hp,hn⟩
  | there hs _ ih => exact .there hs (ih (fun hq => hn (.there hs hq)))

theorem Comes.keeps (I : σ → Prop) (hi : ∀ s t, I s → next s = some t → I t) {s : σ}
    (h : Comes next P s) (hs : I s) : Comes next (fun t => P t ∧ I t) s := by
  induction h with
  | here hp => exact .here ⟨hp,hs⟩
  | there hn _ ih => exact .there hn (ih (hi _ _ hs hn))

theorem Comes.exists_run {step : σ → ε → Option σ}
    (hnext : ∀ s t, next s = some t → ∃ e, step s e = some t) {s : σ} (h : Comes next P s) :
    ∃ es t, run step s es = some t ∧ P t := by
  induction h with
  | here hp => exact ⟨[],_,rfl,hp⟩
  | there hn _ ih =>
    obtain ⟨e,he⟩ := hnext _ _ hn
    obtain ⟨es,t,hr,hp⟩ := ih
    exact ⟨e :: es, t, by simp [he,hr], hp⟩

end comes

section decreasing
variable {ι : Type*} {r : ι → ι → Prop} {step : σ → ε → Option σ} {ok : ε → Prop} {I : σ → Prop} {measure : σ → ι}

/-- Steps that decrease a measure do not go on for ever. -/
theorem acc_of_decreasing (hr : WellFounded r)
    (hdec : ∀ s e t, I s → ok e → step s e = some t → I t ∧ r (measure t) (measure s)) {s : σ} (hs : I s) :
    Acc (fun t s => ∃ e, ok e ∧ step s e = some t) s := by
  generalize hm : measure s = m
  induction m using hr.induction generalizing s with
  | _ m ih =>
    refine .intro s (fun t ht => ?_)
    obtain ⟨e,he,ht⟩ := ht
    obtain ⟨hi,hlt⟩ := hdec s e t hs he ht
    exact ih (measure t) (hm ▸ hlt) hi rfl

/-- They come to a state in which none is possible. -/
theorem exists_run_to_end (hr : WellFounded r)
    (hdec : ∀ s e t, I s → ok e → step s e = some t → I t ∧ r (measure t) (measure s)) {s : σ} (hs : I s) :
    ∃ es t, (∀ e ∈ es, ok e) ∧ run step s es = some t ∧ I t ∧ ∀ e, ok e → step t e = none := by
  generalize hm : measure s = m
  induction m using hr.induction generalizing s with
  | _ m ih =>
    by_cases hend : ∀ e, ok e → step s e = none
    · exact ⟨[], s, by simp, rfl, hs, hend⟩
    · simp only [not_forall] at hend
      obtain ⟨e,he,hne⟩ := hend
      obtain ⟨t,ht⟩ := Option.ne_none_iff_exists'.mp hne
      obtain ⟨hi,hlt⟩ := hdec s e t hs he ht
      obtain ⟨es,u,hes,hrun,hu⟩ := ih (measure t) (hm ▸ hlt) hi rfl
      exact ⟨e :: es, u, by simpa [he] using hes, by simp [ht,hrun], hu⟩

end decreasing

end Transition
