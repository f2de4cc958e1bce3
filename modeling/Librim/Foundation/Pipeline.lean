import Librim.Foundation.Custody
import Mathlib.Logic.Function.Basic
import Mathlib.Data.List.Infix

/-! A pipeline from many callers to one writer. A caller takes a buffer from a pool, fills it
and posts it to a serial executor; the executor appends it to a ring queue and writes the
queue out in batches, one write at a time; a completed write gives its buffers back. -/

set_option autoImplicit false

namespace Pipeline

variable {τ ρ μ ω : Type}

/-- Where a call stands: not in progress, waiting for a buffer, holding one that still has
its old contents, or holding one that is ready to be posted. -/
inductive Pc (ρ : Type) where
  | idle
  | waiting (r : ρ)
  | holding (b : Nat) (r : ρ)
  | filled (b : Nat) (r : ρ)
  deriving DecidableEq, Repr

/-- The buffer in the hands of a call. -/
def Pc.slot : Pc ρ → Option Nat
  | .idle | .waiting _ => none
  | .holding b _ | .filled b _ => some b

/-- The requests that a call has still to post. -/
def Pc.pending : Pc ρ → List ρ
  | .idle => []
  | .waiting r | .holding _ r | .filled _ r => [r]

structure Write where
  bufs : List Nat
  session : Nat
  written : Nat
  deriving DecidableEq, Repr

/-- What callers and executor share. The last four fields are history: what was appended to
the queue and by whom, what has left it, what each caller asked for, and what the
transport has taken. -/
structure Store (τ ρ μ ω : Type) where
  pool : List Nat
  mem : Nat → μ
  deleted : List Nat
  queue : List Nat
  overwritten : List Nat
  batch : Nat
  writes : List Write
  pc : τ → Pc ρ
  fault : Bool
  entered : List (τ × μ)
  flushed : List μ
  sent : τ → List ρ
  wire : List ω

namespace Store

/-- All `cap` buffers are in the pool. -/
def fresh (cap : Nat) (blank : μ) : Store τ ρ μ ω where
  pool := List.range cap
  mem _ := blank
  deleted := []
  queue := []
  overwritten := []
  batch := 0
  writes := []
  pc _ := .idle
  fault := false
  entered := []
  flushed := []
  sent _ := []
  wire := []

/-- A ring buffer that is full overwrites its oldest entry. -/
def push (cap : Nat) (s : Store τ ρ μ ω) (b : Nat) : Store τ ρ μ ω :=
  if s.queue.length < cap then { s with queue := s.queue ++ [b] }
  else
    match s.queue with
    | [] => s
    | old :: rest => { s with queue := rest ++ [b], overwritten := s.overwritten ++ [old] }

/-- A write of the first `limit` entries of the queue, or of all of them. -/
def startWrite (limit session : Nat) (s : Store τ ρ μ ω) : Store τ ρ μ ω :=
  { s with
    batch := (s.queue.take limit).length
    writes := s.writes ++ [⟨s.queue.take limit, session, 0⟩] }

def enqueue (cap limit session : Nat) (t : τ) (b : Nat) (s : Store τ ρ μ ω) : Store τ ρ μ ω :=
  let s' := { s.push cap b with entered := s.entered ++ [(t, s.mem b)] }
  if s.queue.isEmpty then s'.startWrite limit session else s'

/-- The front entry leaves the queue, back to the pool or, if the pool refuses it, deleted. -/
def release (kept : Bool) (s : Store τ ρ μ ω) : Store τ ρ μ ω :=
  match s.queue with
  | [] => { s with fault := true }
  | b :: rest =>
    { s with
      queue := rest
      pool := if kept then s.pool ++ [b] else s.pool
      deleted := if kept then s.deleted else s.deleted ++ [b]
      flushed := s.flushed ++ [s.mem b] }

/-- The units that a write puts on the transport. -/
def data (units : μ → List ω) (s : Store τ ρ μ ω) (w : Write) : List ω :=
  w.bufs.flatMap (fun b => units (s.mem b))

section
variable [DecidableEq τ]

def setPc (s : Store τ ρ μ ω) (t : τ) (c : Pc ρ) : Store τ ρ μ ω :=
  { s with pc := Function.update s.pc t c }

def call (s : Store τ ρ μ ω) (t : τ) (r : ρ) : Store τ ρ μ ω :=
  { s with
    pc := Function.update s.pc t (.waiting r)
    sent := Function.update s.sent t (s.sent t ++ [r]) }

/-- One attempt to pop the pool. -/
def pop (s : Store τ ρ μ ω) (t : τ) : Option (Store τ ρ μ ω) :=
  match s.pc t, s.pool with
  | .waiting r, b :: rest =>
    some { s with pool := rest, pc := Function.update s.pc t (.holding b r) }
  | _, _ => none

/-- The caller writes the message `m` into the buffer in its hands. -/
def fill (s : Store τ ρ μ ω) (t : τ) (b : Nat) (r : ρ) (m : μ) : Store τ ρ μ ω :=
  { s with mem := Function.update s.mem b m, pc := Function.update s.pc t (.filled b r) }

end

/-- The transport takes `n` more units of the write number `i`. -/
def progress (units : μ → List ω) (s : Store τ ρ μ ω) (i n : Nat) : Option (Store τ ρ μ ω) :=
  match s.writes[i]? with
  | some w =>
    if w.written+n ≤ (s.data units w).length then
      some { s with
        writes := s.writes.set i { w with written := w.written+n }
        wire := s.wire ++ ((s.data units w).drop w.written).take n }
    else none
  | none => none

@[simp] theorem enqueue_sent (cap limit session : Nat) (t : τ) (b : Nat) (s : Store τ ρ μ ω) :
    (s.enqueue cap limit session t b).sent = s.sent := by
  have hpush : (s.push cap b).sent = s.sent := by
    unfold push
    split
    · rfl
    · split <;> rfl
  unfold enqueue
  split <;> exact hpush

@[simp] theorem release_sent (kept : Bool) (s : Store τ ρ μ ω) : (s.release kept).sent = s.sent := by
  unfold release
  split <;> rfl

theorem progress_eq_some {units : μ → List ω} {s s' : Store τ ρ μ ω} {i n : Nat} :
    s.progress units i n = some s' ↔ ∃ w, s.writes[i]? = some w ∧
      w.written+n ≤ (s.data units w).length ∧
      s' = { s with
        writes := s.writes.set i { w with written := w.written+n }
        wire := s.wire ++ ((s.data units w).drop w.written).take n } := by
  unfold progress
  cases h : s.writes[i]? with
  | none => simp
  | some w =>
    by_cases hn : w.written+n ≤ (s.data units w).length <;> simp [hn,eq_comm]

theorem pop_eq_some [DecidableEq τ] {s s' : Store τ ρ μ ω} {t : τ} :
    s.pop t = some s' ↔ ∃ r b rest, s.pc t = .waiting r ∧ s.pool = b :: rest ∧
      s' = { s with pool := rest, pc := Function.update s.pc t (.holding b r) } := by
  unfold pop
  split
  · rename_i r b rest hpc hpool
    simp [hpc,hpool,eq_comm]
  · rename_i hno
    simp only [reduceCtorEq,false_iff]
    rintro ⟨r,b,rest,hpc,hpool,-⟩
    exact hno r b rest hpc hpool

end Store

/-- What waits on the executor: a posted buffer, or a completed write. -/
inductive Job (τ : Type) where
  | enqueue (t : τ) (b : Nat)
  | written (w : Write) (failed : Bool)
  deriving DecidableEq, Repr

/-- The completion handler of a write gives buffers back one by one. -/
inductive Phase where
  | idle
  | releasing (n : Nat) (failed : Bool)
  deriving DecidableEq, Repr

structure State (τ ρ μ ω : Type) extends Store τ ρ μ ω where
  ready : List (Job τ)
  phase : Phase
  isOpen : Bool
  session : Nat

inductive Label (τ ρ μ : Type) where
  | call (t : τ) (r : ρ)
  | pop (t : τ)
  | fill (t : τ) (r : ρ) (m : μ)
  | post (t : τ)
  | enqueue
  | progress
  | complete
  | begin (failed : Bool)
  | release
  | finish
  | close
  | reopen

section
variable [DecidableEq τ] (cap limit : Nat) (units : μ → List ω)

/-- The pipeline takes jobs in any order that keeps the posted buffers in order; a failed
write closes the transport, and a transport that was opened again is a new session. -/
inductive Step : State τ ρ μ ω → Label τ ρ μ → State τ ρ μ ω → Prop where
  | call {p : State τ ρ μ ω} {t : τ} {r : ρ} : p.isOpen = true → p.pc t = .idle →
      Step p (.call t r) ⟨p.toStore.call t r, p.ready, p.phase, p.isOpen, p.session⟩
  | pop {p : State τ ρ μ ω} {t : τ} {s : Store τ ρ μ ω} : p.toStore.pop t = some s →
      Step p (.pop t) ⟨s, p.ready, p.phase, p.isOpen, p.session⟩
  | fill {p : State τ ρ μ ω} {t : τ} {b : Nat} {r : ρ} {m : μ} : p.pc t = .holding b r →
      Step p (.fill t r m) ⟨p.toStore.fill t b r m, p.ready, p.phase, p.isOpen, p.session⟩
  | post {p : State τ ρ μ ω} {t : τ} {b : Nat} {r : ρ} : p.pc t = .filled b r →
      Step p (.post t)
        ⟨p.toStore.setPc t .idle, p.ready ++ [.enqueue t b], p.phase, p.isOpen, p.session⟩
  | enqueue {p : State τ ρ μ ω} {t : τ} {b : Nat} {rest : List (Job τ)} : p.phase = .idle →
      p.ready = .enqueue t b :: rest →
      Step p .enqueue
        ⟨p.toStore.enqueue cap limit p.session t b, rest, p.phase, p.isOpen, p.session⟩
  | progress {p : State τ ρ μ ω} {i n : Nat} {w : Write} {s : Store τ ρ μ ω} :
      p.writes[i]? = some w → p.isOpen = true → w.session = p.session →
      p.toStore.progress units i n = some s →
      Step p .progress ⟨s, p.ready, p.phase, p.isOpen, p.session⟩
  | complete {p : State τ ρ μ ω} {i : Nat} {w : Write} {failed : Bool} :
      p.writes[i]? = some w → (failed = false → w.written = (p.toStore.data units w).length) →
      Step p .complete
        ⟨{ p.toStore with writes := p.writes.eraseIdx i }, p.ready ++ [.written w failed],
          p.phase, p.isOpen, p.session⟩
  | begin {p : State τ ρ μ ω} {w : Write} {failed : Bool} {rest : List (Job τ)} :
      p.phase = .idle → p.ready = .written w failed :: rest →
      Step p (.begin failed) ⟨p.toStore, rest, .releasing p.batch failed, p.isOpen, p.session⟩
  | release {p : State τ ρ μ ω} {n : Nat} {failed kept : Bool} :
      p.phase = .releasing (n+1) failed →
      Step p .release
        ⟨p.toStore.release kept, p.ready, .releasing n failed, p.isOpen, p.session⟩
  | finishMore {p : State τ ρ μ ω} : p.phase = .releasing 0 false → p.queue ≠ [] →
      Step p .finish
        ⟨p.toStore.startWrite limit p.session, p.ready, .idle, p.isOpen, p.session⟩
  | finishEmpty {p : State τ ρ μ ω} : p.phase = .releasing 0 false → p.queue = [] →
      Step p .finish ⟨p.toStore, p.ready, .idle, p.isOpen, p.session⟩
  | finishFailed {p : State τ ρ μ ω} : p.phase = .releasing 0 true →
      Step p .finish ⟨p.toStore, p.ready, .idle, false, p.session⟩
  | close {p : State τ ρ μ ω} : Step p .close ⟨p.toStore, p.ready, p.phase, false, p.session⟩
  | reopen {p : State τ ρ μ ω} :
      Step p .reopen ⟨p.toStore, p.ready, p.phase, true, p.session+1⟩

end

end Pipeline
