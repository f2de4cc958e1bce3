import Librim.Foundation.Transition
import Mathlib.Data.List.Infix

/-! A reliable channel that keeps the order, as a machine of its own, and what it means that another
machine is such a channel. -/

set_option autoImplicit false

namespace Transition

variable {σ ε ρ α : Type*}

/-- As long as `good` holds, what a step of the machine notes down is a run of the machine `next`
between the states that `view` shows. -/
def Implements (init : σ → Prop) (step : σ → ε → Option σ) (note : σ → ε → σ → List α)
    (next : ρ → α → Option ρ) (view : σ → ρ) (good : σ → Prop) : Prop :=
  ∀ s e t, Reachable init step s → step s e = some t → good s → good t →
    run next (view s) (note s e t) = some (view t)

section implements
variable {init : σ → Prop} {step : σ → ε → Option σ} {note : σ → ε → σ → List α}

/-- The history of every run is a run of the machine that is implemented. -/
theorem Implements.history {next : ρ → α → Option ρ} {view : σ → ρ} {good : σ → Prop}
    (himp : Implements init step note next view good) {r : ρ} (h0 : ∀ s, init s → view s = r)
    (hback : ∀ s e t, Reachable init step s → step s e = some t → good t → good s) {p : σ × List α}
    (h : Reachable (fun p : σ × List α => init p.1 ∧ p.2 = []) (recorded step note) p) (hgood : good p.1) :
    run next r p.2 = some (view p.1) := by
  induction h with
  | start hi => rw [hi.2, run_nil, h0 _ hi.1]
  | next hr _ hs ih =>
    have hreach := Reach.of_recorded hr
    obtain ⟨hstep,hnote⟩ := recorded_eq_some.mp hs
    have hgood' := hback _ _ _ hreach hstep hgood
    rw [hnote]
    exact run_trans (ih hgood') (himp _ _ _ hreach hstep hgood' hgood)

end implements

end Transition

namespace Fifo

open Transition

variable {α : Type*}

inductive Event (α : Type*) where
  | send (a : α)
  | deliver (a : α)
  deriving DecidableEq, Repr

def sends : List (Event α) → List α
  | [] => []
  | .send a :: es => a :: sends es
  | .deliver _ :: es => sends es

def deliveries : List (Event α) → List α
  | [] => []
  | .send _ :: es => deliveries es
  | .deliver a :: es => a :: deliveries es

@[simp] theorem sends_append (es fs : List (Event α)) : sends (es ++ fs) = sends es ++ sends fs := by
  induction es with
  | nil => rfl
  | cons e es ih => cases e <;> simp [sends,ih]

@[simp] theorem deliveries_append (es fs : List (Event α)) :
    deliveries (es ++ fs) = deliveries es ++ deliveries fs := by
  induction es with
  | nil => rfl
  | cons e es ih => cases e <;> simp [deliveries,ih]

@[simp] theorem sends_map_send (as : List α) : sends (as.map .send) = as := by
  induction as with
  | nil => rfl
  | cons a as ih => simp [sends,ih]

@[simp] theorem sends_map_deliver (as : List α) : sends (as.map .deliver) = [] := by
  induction as with
  | nil => rfl
  | cons a as ih => simp [sends,ih]

@[simp] theorem deliveries_map_send (as : List α) : deliveries (as.map .send) = [] := by
  induction as with
  | nil => rfl
  | cons a as ih => simp [deliveries,ih]

@[simp] theorem deliveries_map_deliver (as : List α) : deliveries (as.map .deliver) = as := by
  induction as with
  | nil => rfl
  | cons a as ih => simp [deliveries,ih]

variable [DecidableEq α]

/-- The state is what is on its way. -/
def step (queue : List α) : Event α → Option (List α)
  | .send a => some (queue ++ [a])
  | .deliver a =>
    match queue with
    | b :: rest => if b = a then some rest else none
    | [] => none

theorem run_sends (queue as : List α) : run step queue (as.map .send) = some (queue ++ as) := by
  induction as generalizing queue with
  | nil => simp
  | cons a as ih => simp [step,ih]

theorem run_deliveries (as rest : List α) : run step (as ++ rest) (as.map .deliver) = some rest := by
  induction as with
  | nil => simp
  | cons a as ih => simpa [step] using ih

/-- More was sent and more was delivered, and both times the one begins with the other. -/
theorem run_of_prefix {sent sent' got got' : List α} (hsent : sent <+: sent') (hgot : got <+: got')
    (h : got <+: sent) (h' : got' <+: sent') :
    run step (sent.drop got.length)
      ((sent'.drop sent.length).map .send ++ (got'.drop got.length).map .deliver) =
        some (sent'.drop got'.length) := by
  obtain ⟨more,rfl⟩ := hsent
  obtain ⟨new,rfl⟩ := hgot
  obtain ⟨queue,rfl⟩ := h
  obtain ⟨rest,hrest⟩ := h'
  rw [List.append_assoc, List.append_assoc, List.append_cancel_left_eq] at hrest
  rw [List.append_assoc, List.drop_left, ← List.append_assoc, List.drop_left, List.drop_left, run_append,
    run_sends, Option.bind_some, ← hrest, run_deliveries, List.append_assoc, ← hrest, ← List.append_assoc,
    List.drop_left]

end Fifo

/-! Two channels, one in each direction. -/

namespace Duplex

open Transition

variable {α : Type*}

inductive Event (α : Type*) where
  | there (e : Fifo.Event α)
  | back (e : Fifo.Event α)
  deriving DecidableEq, Repr

structure State (α : Type*) where
  there : List α
  back : List α
  deriving DecidableEq, Repr

/-- What happened in one direction. -/
def thereOf : List (Event α) → List (Fifo.Event α)
  | [] => []
  | .there e :: es => e :: thereOf es
  | .back _ :: es => thereOf es

def backOf : List (Event α) → List (Fifo.Event α)
  | [] => []
  | .there _ :: es => backOf es
  | .back e :: es => e :: backOf es

@[simp] theorem thereOf_append (es fs : List (Event α)) : thereOf (es ++ fs) = thereOf es ++ thereOf fs := by
  induction es with
  | nil => rfl
  | cons e es ih => cases e <;> simp [thereOf,ih]

@[simp] theorem backOf_append (es fs : List (Event α)) : backOf (es ++ fs) = backOf es ++ backOf fs := by
  induction es with
  | nil => rfl
  | cons e es ih => cases e <;> simp [backOf,ih]

@[simp] theorem thereOf_map_there (es : List (Fifo.Event α)) : thereOf (es.map .there) = es := by
  induction es with
  | nil => rfl
  | cons e es ih => simp [thereOf,ih]

@[simp] theorem thereOf_map_back (es : List (Fifo.Event α)) : thereOf (es.map .back) = [] := by
  induction es with
  | nil => rfl
  | cons e es ih => simp [thereOf,ih]

@[simp] theorem backOf_map_there (es : List (Fifo.Event α)) : backOf (es.map .there) = [] := by
  induction es with
  | nil => rfl
  | cons e es ih => simp [backOf,ih]

@[simp] theorem backOf_map_back (es : List (Fifo.Event α)) : backOf (es.map .back) = es := by
  induction es with
  | nil => rfl
  | cons e es ih => simp [backOf,ih]

variable [DecidableEq α]

def step (d : State α) : Event α → Option (State α)
  | .there e => (Fifo.step d.there e).map ({ d with there := · })
  | .back e => (Fifo.step d.back e).map ({ d with back := · })

theorem run_there {queue : List α} {es : List (Fifo.Event α)} (d : State α)
    (h : run Fifo.step d.there es = some queue) : run step d (es.map .there) = some { d with there := queue } := by
  induction es generalizing d with
  | nil =>
    simp only [run_nil,Option.some.injEq] at h
    simp [← h]
  | cons e es ih =>
    simp only [run_cons,Option.bind_eq_some_iff] at h
    obtain ⟨next,hnext,hrun⟩ := h
    simpa [step,hnext] using ih { d with there := next } hrun

theorem run_back {queue : List α} {es : List (Fifo.Event α)} (d : State α)
    (h : run Fifo.step d.back es = some queue) : run step d (es.map .back) = some { d with back := queue } := by
  induction es generalizing d with
  | nil =>
    simp only [run_nil,Option.some.injEq] at h
    simp [← h]
  | cons e es ih =>
    simp only [run_cons,Option.bind_eq_some_iff] at h
    obtain ⟨next,hnext,hrun⟩ := h
    simpa [step,hnext] using ih { d with back := next } hrun

end Duplex
