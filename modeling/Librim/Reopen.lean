import Librim.SendOrder

set_option autoImplicit false

namespace Librim

open Pipeline (Served)

variable {κ τ : Type} [DecidableEq τ]

namespace Endpoint

/-- Every step that opens the socket finds an empty queue, or one whose write is outstanding
or in its completion handler. -/
def OpensServed (cfg : Config κ) (s : Endpoint κ τ) (e : Event τ) : Prop :=
  ∀ t, step cfg s e = some t → t.socket.conn ≠ s.socket.conn → Served s.pipeline

theorem served_of_opensServed {cfg : Config κ} {s : Endpoint κ τ}
    (h : Transition.Reach (fun s₀ => ∃ u, s₀ = initial cfg.kind u) (step cfg) (OpensServed cfg) s) :
    s.socket.isOpen = true → Served s.pipeline := by
  induction h with
  | start hi =>
    obtain ⟨u,rfl⟩ := hi
    exact fun _ => .inl rfl
  | next hr hok hs ih => exact (Reached.sound hr.reachable).served_step ih (hok _ hs) hs

/-- In such runs a payload that is queued on an open endpoint is being written. -/
theorem queue_outstanding (cfg : Config κ) (s : Endpoint κ τ)
    (h : Transition.Reach (fun s₀ => ∃ u, s₀ = initial cfg.kind u) (step cfg) (OpensServed cfg) s)
    (hopen : s.socket.isOpen = true) (hidle : s.idle = true) :
    s.out.queue ≠ [] → s.pipeline.outstanding ≠ [] := by
  intro hq
  have hrun : s.running = .program [] := by
    simp only [idle,Bool.and_eq_true,beq_iff_eq] at hidle
    exact hidle.1
  rcases served_of_opensServed h hopen with hn | ho | hp
  · exact absurd hn hq
  · exact ho
  · exact absurd (by simp [pipeline,hrun,Running.phase]) hp

/-- A step that leaves the descriptor alone, or finds the queue empty. -/
def opensEmpty (cfg : Config κ) (s : Endpoint κ τ) (e : Event τ) : Bool :=
  s.out.queue.isEmpty || (step cfg s e).all (fun t => t.socket.conn == s.socket.conn)

theorem opensServed_of_empty {cfg : Config κ} {s : Endpoint κ τ} {e : Event τ}
    (h : opensEmpty cfg s e = true) : OpensServed cfg s e := by
  intro t hs hconn
  rcases Bool.or_eq_true_iff.mp h with hq | hall
  · exact .inl (List.isEmpty_iff.mp hq)
  · simp [hs] at hall
    exact absurd hall hconn

/-- A thread sends a payload of one byte, and the strand appends it to the queue. -/
def sendOne : List (Event Unit) :=
  [.send () ⟨[1],.implicit⟩, .pop (some ()), .fill (some ()), .post (some ()), .run]

/-- Closed after its only write has completed, opened again, and sending. -/
def sendReopened : List (Event Unit) :=
  .setup .connect .obliging :: sendOne ++ [.write 0 1, .writeDone 0 false, .run, .act true, .act true, .close, .run,
    .act true, .setup .connect .obliging] ++ sendOne

theorem queue_outstanding_reopened : ∃ s : Endpoint Unit Unit,
    Transition.run (Transition.guarded (step (.bare .udpEndpoint)) (opensEmpty (.bare .udpEndpoint)))
      (initial .udpEndpoint ()) sendReopened = some s ∧
    Transition.Reach (fun s₀ => ∃ u, s₀ = initial .udpEndpoint u) (step (.bare .udpEndpoint))
      (OpensServed (.bare .udpEndpoint)) s ∧
    s.socket.isOpen = true ∧ s.socket.conn = 2 ∧ s.idle = true ∧ s.out.queue = [1] ∧
      (s.out.queue ≠ [] → s.pipeline.outstanding ≠ []) := by
  have hrun : (Transition.run
      (Transition.guarded (step (.bare .udpEndpoint)) (opensEmpty (.bare .udpEndpoint)))
      (initial .udpEndpoint ()) sendReopened).map
      (fun s : Endpoint Unit Unit => (s.socket.isOpen, s.socket.conn, s.idle, s.out.queue)) =
      some (true, 2, true, [1]) := by
    decide +kernel
  obtain ⟨s,hs,hv⟩ := Option.map_eq_some_iff.mp hrun
  simp only [Prod.mk.injEq] at hv
  obtain ⟨hopen,hconn,hidle,hq⟩ := hv
  have hreach : Transition.Reach (fun s₀ => ∃ u, s₀ = initial .udpEndpoint u) (step (.bare .udpEndpoint))
      (OpensServed (.bare .udpEndpoint)) s :=
    Transition.Reach.run_guarded (fun _ _ => opensServed_of_empty) (.start ⟨(),rfl⟩) hs
  exact ⟨s, hs, hreach, hopen, hconn, hidle, hq, queue_outstanding (.bare .udpEndpoint) s hreach hopen hidle⟩

/-- The first write fails while a second payload is queued behind it. -/
def failBehind : List (Event Unit) :=
  sendOne ++ sendOne ++ [.writeDone 0 true, .run, .act true, .act true]

/-- A connection attempt that succeeds, with its handler. -/
def connectNow : List (Event Unit) :=
  [.connect (.ok 0) true, .connectDone 0 false false, .run, .act true, .act true]

/-- A failed write gives its own buffers back and closes the socket. What was queued behind
it stays there when the socket is opened again, and nothing writes it. -/
theorem queue_stalls_reopened :
    (∃ s : Endpoint Unit Unit, Reached (.bare .udpEndpoint) s ∧ s.socket.isOpen = true ∧
      s.idle = true ∧ s.out.queue ≠ [] ∧ s.pipeline.outstanding = []) ∧
    ∃ s : Endpoint Unit Unit, Reached (.bare .tcpClient) s ∧ s.socket.isOpen = true ∧
      s.socket.isConnected = true ∧ s.idle = true ∧ s.out.queue ≠ [] ∧
      s.pipeline.outstanding = [] := by
  constructor
  · have hrun : (Transition.run (step (.bare .udpEndpoint)) (initial .udpEndpoint ())
        (.setup .connect .obliging :: failBehind ++ [.setup .connect .obliging])).map
        (fun s : Endpoint Unit Unit =>
          (s.socket.isOpen, s.idle, s.out.queue, s.pipeline.outstanding)) =
        some (true, true, [1], []) := by
      decide +kernel
    obtain ⟨s,hs,hv⟩ := Option.map_eq_some_iff.mp hrun
    simp only [Prod.mk.injEq] at hv
    obtain ⟨hopen,hidle,hq,hout⟩ := hv
    exact ⟨s, reached_of_run hs, hopen, hidle, by simp [hq], hout⟩
  · have hrun : (Transition.run (step (.bare .tcpClient)) (initial .tcpClient ())
        (connectNow ++ failBehind ++ connectNow)).map
        (fun s : Endpoint Unit Unit =>
          (s.socket.isOpen, s.socket.isConnected, s.idle, s.out.queue, s.pipeline.outstanding)) =
        some (true, true, true, [1], []) := by
      decide +kernel
    obtain ⟨s,hs,hv⟩ := Option.map_eq_some_iff.mp hrun
    simp only [Prod.mk.injEq] at hv
    obtain ⟨hopen,hconn,hidle,hq,hout⟩ := hv
    exact ⟨s, reached_of_run hs, hopen, hconn, hidle, by simp [hq], hout⟩

end Endpoint

end Librim
