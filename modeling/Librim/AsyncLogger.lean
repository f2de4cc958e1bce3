import Librim.Types
import Librim.Foundation.Transition
import Mathlib.Data.List.Perm.Basic

/-! `AsyncLogger`: producers append to `active_buffer_` under the mutex, the worker swaps it
with `flush_buffer_` and writes that to the file without the mutex, the destructor stops
the worker and writes what is left. -/

set_option autoImplicit false

namespace Librim

/-- `htobe32`, as the bytes in memory. -/
def htobe32 (x : UInt32) : List Byte :=
  [(x >>> 24).toUInt8, (x >>> 16).toUInt8, (x >>> 8).toUInt8, x.toUInt8]

/-- `htobe64`, as the bytes in memory. -/
def htobe64 (x : UInt64) : List Byte :=
  [(x >>> 56).toUInt8, (x >>> 48).toUInt8, (x >>> 40).toUInt8, (x >>> 32).toUInt8,
    (x >>> 24).toUInt8, (x >>> 16).toUInt8, (x >>> 8).toUInt8, x.toUInt8]

/-- One call of `log`, with the timestamp it took. -/
structure Record where
  recordId : UInt32
  timestampNs : UInt64
  data : List Byte
  deriving DecidableEq, Repr

/-- `RimHeader`; the size is cast to 32 bits. -/
def Record.header (r : Record) : List Byte :=
  htobe32 r.recordId ++ htobe32 (UInt32.ofNat r.data.length) ++ htobe64 r.timestampNs

def Record.encode (r : Record) : List Byte := r.header ++ r.data

theorem Record.length_header (r : Record) : r.header.length = 16 := rfl

theorem Record.length_encode (r : Record) : r.encode.length = 16+r.data.length := by
  rw [encode, List.length_append, length_header]

namespace AsyncLogger

/-- The worker in `process_loop`. `checking` holds the mutex and evaluates the predicate of
`cv_.wait`; `blocking` has found it false and is about to block. -/
inductive Worker where
  | test
  | locking
  | checking
  | blocking
  | blocked
  | woken
  | swapping
  | flushing
  | clearing
  | exited
  deriving DecidableEq, Repr

inductive Producer where
  | idle
  | locking (r : Record)
  | locked (r : Record)
  | notifying
  deriving DecidableEq, Repr

inductive Destructor where
  | alive
  | notifying
  | joining
  | locking
  | flushing
  | done
  deriving DecidableEq, Repr

inductive Holder (τ : Type) where
  | worker
  | producer (t : τ)
  | destructor
  deriving DecidableEq, Repr

structure State (τ : Type) where
  running : Bool
  mutex : Option (Holder τ)
  worker : Worker
  producer : τ → Producer
  destructor : Destructor
  opened : Bool
  file : List Byte
  active : List Byte
  flush : List Byte
  dropped : Nat

inductive Event (τ : Type) where
  | log (t : τ) (r : Record)
  | lock (t : τ)
  | append (t : τ)
  | notify (t : τ)
  | work
  | spurious
  | destroy

variable {τ : Type}

/-- The constructor. Without a file there is no worker and `log` discards. -/
def initial (opened : Bool) : State τ where
  running := opened
  mutex := none
  worker := if opened then .test else .exited
  producer _ := .idle
  destructor := .alive
  opened := opened
  file := []
  active := []
  flush := []
  dropped := 0

/-- `cv_.notify_one()`: only a thread that is blocked is woken. -/
def State.notifyOne (s : State τ) : State τ :=
  if s.worker = .blocked then { s with worker := .woken } else s

theorem notifyOne_cases (s : State τ) : (s.worker ≠ .blocked ∧ s.notifyOne = s) ∨
    (s.worker = .blocked ∧ s.notifyOne = { s with worker := .woken }) := by
  unfold State.notifyOne
  split
  · rename_i hw
    exact .inr ⟨hw,rfl⟩
  · rename_i hw
    exact .inl ⟨hw,rfl⟩

/-- `file_.write`. -/
def State.write (s : State τ) (bytes : List Byte) : State τ :=
  if !bytes.isEmpty && s.opened then { s with file := s.file ++ bytes } else s

/-- One step of `process_loop`. -/
def work (s : State τ) : Option (State τ) :=
  match s.worker with
  | .test => some { s with worker := if s.running then .locking else .exited }
  | .locking | .woken =>
    if s.mutex.isNone then some { s with worker := .checking, mutex := some .worker } else none
  | .checking =>
    some { s with worker := if !s.active.isEmpty || !s.running then .swapping else .blocking }
  | .blocking => some { s with worker := .blocked, mutex := none }
  | .blocked => none
  | .swapping =>
    some { s with worker := .flushing, mutex := none, active := s.flush, flush := s.active }
  | .flushing =>
    if s.flush.isEmpty then some { s with worker := .test }
    else some { s.write s.flush with worker := .clearing }
  | .clearing => some { s with worker := .test, flush := [] }
  | .exited => none

/-- One step of the destructor. -/
def destroy (s : State τ) : Option (State τ) :=
  match s.destructor with
  | .alive =>
    some { s with running := false, destructor := if s.running then .notifying else .locking }
  | .notifying => some { s.notifyOne with destructor := .joining }
  | .joining => if s.worker = .exited then some { s with destructor := .locking } else none
  | .locking =>
    if s.mutex.isNone then some { s with destructor := .flushing, mutex := some .destructor } else none
  | .flushing => some { s.write s.active with destructor := .done, mutex := none }
  | .done => none

section
variable [DecidableEq τ]

def State.setProducer (s : State τ) (t : τ) (p : Producer) : State τ :=
  { s with producer := Function.update s.producer t p }

/-- `log` up to the mutex. -/
def log (t : τ) (r : Record) (s : State τ) : State τ :=
  if !s.running || r.data.isEmpty then s
  else s.setProducer t (.locking r)

/-- The critical section of `log`, and the release of the mutex at its end. -/
def append (maxCapacity : Nat) (t : τ) (r : Record) (s : State τ) : State τ :=
  if maxCapacity < s.active.length + r.header.length + r.data.length then
    { s.setProducer t .idle with mutex := none, dropped := s.dropped+1 }
  else
    { s.setProducer t .notifying with mutex := none, active := s.active ++ r.header ++ r.data }

def step (maxCapacity : Nat) (s : State τ) : Event τ → Option (State τ)
  | .log t r => if s.producer t = .idle then some (log t r s) else none
  | .lock t =>
    match s.producer t with
    | .locking r =>
      if s.mutex.isNone then
        some { s.setProducer t (.locked r) with mutex := some (.producer t) }
      else none
    | _ => none
  | .append t =>
    match s.producer t with
    | .locked r => some (append maxCapacity t r s)
    | _ => none
  | .notify t =>
    if s.producer t = .notifying then some (s.notifyOne.setProducer t .idle) else none
  | .work => work s
  | .spurious => if s.worker = .blocked then some { s with worker := .woken } else none
  | .destroy => destroy s

/-- What the record of a run keeps: the calls of `log` with data while running, the calls that
took the mutex, and the capacity checks, each with its outcome and the bytes that came to
`active_buffer_` with it. -/
inductive Note (τ : Type) where
  | called (t : τ) (r : Record)
  | locked (t : τ) (r : Record)
  | checked (t : τ) (r : Record) (fits : Bool) (bytes : List Byte)
  deriving DecidableEq

/-- It is read off the events of the run and the buffer before and after them. -/
def note (maxCapacity : Nat) (s : State τ) (e : Event τ) (s' : State τ) : List (Note τ) :=
  match e with
  | .log t r => if s.running && !r.data.isEmpty then [.called t r] else []
  | .lock t =>
    match s.producer t with
    | .locking r => [.locked t r]
    | _ => []
  | .append t =>
    match s.producer t with
    | .locked r =>
      [.checked t r (s.active.length+16+r.data.length ≤ maxCapacity) (s'.active.drop s.active.length)]
    | _ => []
  | _ => []

/-- Everything a step can do, with the test that it passed. -/
inductive Step (maxCapacity : Nat) (s : State τ) : Event τ → List (Note τ) → State τ → Prop where
  | ignored {t : τ} {r : Record} : Step maxCapacity s (.log t r) [] s
  | called {t : τ} {r : Record} : s.running = true → s.producer t = .idle →
      Step maxCapacity s (.log t r) [.called t r] (s.setProducer t (.locking r))
  | locked {t : τ} {r : Record} : s.producer t = .locking r → s.mutex = none →
      Step maxCapacity s (.lock t) [.locked t r]
        { s.setProducer t (.locked r) with mutex := some (.producer t) }
  | dropped {t : τ} {r : Record} : s.producer t = .locked r →
      Step maxCapacity s (.append t) [.checked t r false []]
        { s.setProducer t .idle with mutex := none, dropped := s.dropped+1 }
  | appended {t : τ} {r : Record} : s.producer t = .locked r →
      s.active.length+16+r.data.length ≤ maxCapacity →
      Step maxCapacity s (.append t) [.checked t r true r.encode]
        { s.setProducer t .notifying with mutex := none, active := s.active ++ r.header ++ r.data }
  | notified {t : τ} : s.producer t = .notifying →
      Step maxCapacity s (.notify t) [] (s.notifyOne.setProducer t .idle)
  | tested : s.worker = .test →
      Step maxCapacity s .work [] { s with worker := if s.running then .locking else .exited }
  | entered : s.worker = .locking ∨ s.worker = .woken → s.mutex = none →
      Step maxCapacity s .work [] { s with worker := .checking, mutex := some .worker }
  | passed : s.worker = .checking → Step maxCapacity s .work [] { s with worker := .swapping }
  | refused : s.worker = .checking → s.active = [] → s.running = true →
      Step maxCapacity s .work [] { s with worker := .blocking }
  | blocked : s.worker = .blocking →
      Step maxCapacity s .work [] { s with worker := .blocked, mutex := none }
  | swapped : s.worker = .swapping →
      Step maxCapacity s .work []
        { s with worker := .flushing, mutex := none, active := s.flush, flush := s.active }
  | skipped : s.worker = .flushing → s.flush = [] →
      Step maxCapacity s .work [] { s with worker := .test }
  | flushed : s.worker = .flushing →
      Step maxCapacity s .work [] { s.write s.flush with worker := .clearing }
  | cleared : s.worker = .clearing →
      Step maxCapacity s .work [] { s with worker := .test, flush := [] }
  | woken : s.worker = .blocked → Step maxCapacity s .spurious [] { s with worker := .woken }
  | stopped : s.destructor = .alive → s.running = true →
      Step maxCapacity s .destroy [] { s with running := false, destructor := .notifying }
  | unused : s.destructor = .alive → s.running = false →
      Step maxCapacity s .destroy [] { s with running := false, destructor := .locking }
  | announced : s.destructor = .notifying →
      Step maxCapacity s .destroy [] { s.notifyOne with destructor := .joining }
  | joined : s.destructor = .joining → s.worker = .exited →
      Step maxCapacity s .destroy [] { s with destructor := .locking }
  | claimed : s.destructor = .locking → s.mutex = none →
      Step maxCapacity s .destroy [] { s with destructor := .flushing, mutex := some .destructor }
  | drained : s.destructor = .flushing →
      Step maxCapacity s .destroy [] { s.write s.active with destructor := .done, mutex := none }

theorem step_work {maxCapacity : Nat} {s t : State τ} (h : work s = some t) :
    Step maxCapacity s .work [] t := by
  cases hw : s.worker with
  | test =>
    simp only [work,hw,Option.some.injEq] at h
    exact h ▸ .tested hw
  | locking =>
    simp only [work,hw,Option.isNone_iff_eq_none,Option.ite_none_right_eq_some,Option.some.injEq] at h
    exact h.2 ▸ .entered (.inl hw) h.1
  | woken =>
    simp only [work,hw,Option.isNone_iff_eq_none,Option.ite_none_right_eq_some,Option.some.injEq] at h
    exact h.2 ▸ .entered (.inr hw) h.1
  | checking =>
    simp only [work,hw,Option.some.injEq] at h
    split at h
    · exact h ▸ .passed hw
    · rename_i hp
      simp only [Bool.or_eq_true,Bool.not_eq_true',not_or,Bool.not_eq_false,List.isEmpty_iff] at hp
      exact h ▸ .refused hw hp.1 hp.2
  | blocking =>
    simp only [work,hw,Option.some.injEq] at h
    exact h ▸ .blocked hw
  | blocked => simp [work,hw] at h
  | swapping =>
    simp only [work,hw,Option.some.injEq] at h
    exact h ▸ .swapped hw
  | flushing =>
    simp only [work,hw] at h
    split at h
    · rename_i hf
      simp only [Option.some.injEq] at h
      exact h ▸ .skipped hw (List.isEmpty_iff.mp hf)
    · simp only [Option.some.injEq] at h
      exact h ▸ .flushed hw
  | clearing =>
    simp only [work,hw,Option.some.injEq] at h
    exact h ▸ .cleared hw
  | exited => simp [work,hw] at h

theorem step_destroy {maxCapacity : Nat} {s t : State τ} (h : destroy s = some t) :
    Step maxCapacity s .destroy [] t := by
  cases hd : s.destructor with
  | alive =>
    simp only [destroy,hd,Option.some.injEq] at h
    split at h
    · rename_i hr
      exact h ▸ .stopped hd hr
    · rename_i hr
      exact h ▸ .unused hd (by simpa using hr)
  | notifying =>
    simp only [destroy,hd,Option.some.injEq] at h
    exact h ▸ .announced hd
  | joining =>
    simp only [destroy,hd,Option.ite_none_right_eq_some,Option.some.injEq] at h
    exact h.2 ▸ .joined hd h.1
  | locking =>
    simp only [destroy,hd,Option.isNone_iff_eq_none,Option.ite_none_right_eq_some,
      Option.some.injEq] at h
    exact h.2 ▸ .claimed hd h.1
  | flushing =>
    simp only [destroy,hd,Option.some.injEq] at h
    exact h ▸ .drained hd
  | done => simp [destroy,hd] at h

theorem step_log {maxCapacity : Nat} {s : State τ} {t : τ} (r : Record) (hidle : s.producer t = .idle) :
    Step maxCapacity s (.log t r) (note maxCapacity s (.log t r) (log t r s)) (log t r s) := by
  by_cases hcall : s.running = true ∧ r.data ≠ []
  · have hlog : log t r s = s.setProducer t (.locking r) := by simp [log,hcall]
    have hnote : note maxCapacity s (.log t r) (log t r s) = [.called t r] := by simp [note,hcall]
    rw [hnote, hlog]
    exact .called hcall.1 hidle
  · rw [not_and,not_not] at hcall
    have hlog : log t r s = s := by
      simp only [log,Bool.or_eq_true,Bool.not_eq_true',List.isEmpty_iff,ite_eq_left_iff,not_or,
        Bool.not_eq_false]
      exact fun h => absurd (hcall h.1) h.2
    have hnote : note maxCapacity s (.log t r) (log t r s) = [] := by
      simp only [note,Bool.and_eq_true,Bool.not_eq_true',List.isEmpty_eq_false_iff,ite_eq_right_iff]
      exact fun h => absurd (hcall h.1) h.2
    rw [hnote, hlog]
    exact .ignored

theorem step_append {maxCapacity : Nat} {s : State τ} {t : τ} {r : Record} (hp : s.producer t = .locked r) :
    Step maxCapacity s (.append t) (note maxCapacity s (.append t) (append maxCapacity t r s))
      (append maxCapacity t r s) := by
  have hnote : ∀ u : State τ, note maxCapacity s (.append t) u = [.checked t r
      (s.active.length+16+r.data.length ≤ maxCapacity) (u.active.drop s.active.length)] := by
    intro u
    simp [note,hp]
  by_cases hfits : s.active.length+16+r.data.length ≤ maxCapacity
  · have happend : append maxCapacity t r s =
        { s.setProducer t .notifying with mutex := none, active := s.active ++ r.header ++ r.data } := by
      simp [append,r.length_header,Nat.not_lt.mpr hfits]
    have hdrop : (s.active ++ r.header ++ r.data).drop s.active.length = r.encode := by
      rw [List.append_assoc, List.drop_left, Record.encode]
    rw [hnote, happend, decide_eq_true hfits, hdrop]
    exact .appended hp hfits
  · have happend : append maxCapacity t r s =
        { s.setProducer t .idle with mutex := none, dropped := s.dropped+1 } := by
      simp [append,r.length_header,Nat.not_le.mp hfits]
    rw [hnote, happend, decide_eq_false hfits]
    simp only [State.setProducer,List.drop_length]
    exact .dropped hp

theorem step_cases {maxCapacity : Nat} {s t : State τ} {e : Event τ}
    (h : step maxCapacity s e = some t) : Step maxCapacity s e (note maxCapacity s e t) t := by
  cases e with
  | log u r =>
    simp only [step,Option.ite_none_right_eq_some,Option.some.injEq] at h
    exact h.2 ▸ step_log r h.1
  | lock u =>
    simp only [step] at h
    split at h
    · rename_i r hp
      simp only [Option.isNone_iff_eq_none,Option.ite_none_right_eq_some,Option.some.injEq] at h
      have hnote : note maxCapacity s (.lock u) t = [.locked u r] := by simp [note,hp]
      rw [hnote]
      exact h.2 ▸ .locked hp h.1
    · simp at h
  | append u =>
    simp only [step] at h
    split at h
    · rename_i r hp
      simp only [Option.some.injEq] at h
      exact h ▸ step_append hp
    · simp at h
  | notify u =>
    simp only [step,Option.ite_none_right_eq_some,Option.some.injEq] at h
    exact h.2 ▸ .notified h.1
  | work => exact step_work h
  | spurious =>
    simp only [step,Option.ite_none_right_eq_some,Option.some.injEq] at h
    exact h.2 ▸ .woken h.1
  | destroy => exact step_destroy h

/-- A run of a logger with its record. -/
abbrev recorder (maxCapacity : Nat) : State τ × List (Note τ) → Event τ → Option (State τ × List (Note τ)) :=
  Transition.recorded (step maxCapacity) (note maxCapacity)

end

/-- The calls of `log` with data while running. -/
def calls (h : List (Note τ)) : List (τ × Record) :=
  h.filterMap (fun
    | .called t r => some (t,r)
    | _ => none)

/-- The calls in the order in which they took the mutex. -/
def locks (h : List (Note τ)) : List (τ × Record) :=
  h.filterMap (fun
    | .locked t r => some (t,r)
    | _ => none)

/-- The calls in the order of their capacity checks. -/
def checks (h : List (Note τ)) : List (τ × Record × Bool) :=
  h.filterMap (fun
    | .checked t r fits _ => some (t,r,fits)
    | _ => none)

/-- The records that passed the check, in order. -/
def accepted (h : List (Note τ)) : List Record := ((checks h).filter (·.2.2)).map (·.2.1)

/-- All the bytes that came to `active_buffer_`. -/
def appended (h : List (Note τ)) : List Byte :=
  (h.filterMap (fun
    | .checked _ _ _ bytes => some bytes
    | _ => none)).flatten

end AsyncLogger

end Librim
