import Librim.Core
import Librim.Foundation.Pipeline
import Librim.Foundation.Transition

/-! One endpoint as a machine over atomic steps. Handlers run on the strand one at a time and
in the order in which they were posted; the calling threads, the operating system and the
clock step in between. -/

set_option autoImplicit false

namespace Librim

open Pipeline (Store Write)

/-- Buffers created by every constructor. -/
def poolSize : Nat := 8192

/-- How many entries of `send_queue_` one call of `do_write` takes. -/
def Kind.batchLimit : Kind → Nat
  | .tcpConnection | .tcpClient => 512
  | .udpEndpoint => 1

/-- A pooled buffer; only a `UdpSendItem` has a target. -/
structure Item where
  buf : List Byte
  target : Option Address
  deriving DecidableEq, Repr

/-- What a call of `send` or `send_to` fills its buffer with. `UdpEndpoint::send` passes
`remote_endpoint_` on by reference, so it is read here and not at the call. -/
def Item.ofRequest (kind : Kind) (socket : Socket) (request : Request) : Item where
  buf := request.data
  target :=
    match kind, request.target with
    | .udpEndpoint, .implicit => some socket.remote
    | .udpEndpoint, .to address => some address
    | _, _ => none

/-- A call in progress; `asked` is the item as it was at the time of the call. -/
structure Ticket where
  request : Request
  asked : Item
  deriving DecidableEq, Repr

inductive Handler (τ : Type) where
  | enqueue (caller : Option τ) (b : Nat)
  | wrote (w : Write) (failed : Bool)
  | notice (n : Notice)

/-- The callers are the threads `some t` and, for calls made by a callback, the strand. -/
structure Endpoint (κ τ : Type) extends Core κ where
  out : Store (Option τ) Ticket Item Byte
  ready : List (Handler τ)

/-- What a thread, the operating system or the strand does next. -/
inductive Event (τ : Type) where
  | send (t : τ) (request : Request)
  | pop (caller : Option τ)
  | fill (caller : Option τ)
  | post (caller : Option τ)
  | close
  | connect (resolved : Except ErrorCode Nat) (opened : Bool)
  | setup (call : UdpEndpoint.Setup) (os : Os)
  | start
  | run
  | act (kept : Bool)
  | write (i n : Nat)
  | writeDone (i : Nat) (failed : Bool)
  | read (i : Nat) (data : List Byte) (sender : Address)
  | readFail (i : Nat) (ec : ErrorCode)
  | expire (i : Nat)
  | abort (i : Nat)
  | connectDone (i : Nat) (failed reopened : Bool)
  | tick (d : Nat)

/-- The test at the head of `send` and of `send_to`. -/
def sendCheck (kind : Kind) (socket : Socket) (target : Target) : Except ErrorCode Unit :=
  match kind with
  | .tcpConnection => if !socket.isOpen then .error .notConnected else .ok ()
  | .tcpClient => if !socket.isConnected || !socket.isOpen then .error .notConnected else .ok ()
  | .udpEndpoint =>
    if target = .implicit ∧ socket.isConnected = false then .error .notConnected
    else if !socket.isOpen then .error .badDescriptor
    else .ok ()

namespace Endpoint

variable {κ τ : Type}

def initial (kind : Kind) (u : κ) : Endpoint κ τ where
  toCore := .initial kind u
  out := .fresh poolSize ⟨[],none⟩
  ready := []

def withCore (s : Endpoint κ τ) (c : Core κ) : Endpoint κ τ := { s with toCore := c }

/-- A completion handler is posted to the strand. -/
def notify (s : Endpoint κ τ) (c : Core κ × Notice) : Endpoint κ τ :=
  { s with toCore := c.1, ready := s.ready ++ [.notice c.2] }

/-- The strand takes up a handler. -/
def runHandler (cfg : Config κ) (s : Endpoint κ τ) : Handler τ → Endpoint κ τ
  | .enqueue caller b =>
    { s with out := s.out.enqueue poolSize cfg.kind.batchLimit s.socket.conn caller b }
  | .wrote _ failed => { s with running := .releasing s.out.batch failed }
  | .notice n => s.withCore (s.toCore.handle cfg n)

/-- After the loop of the completion handler of a write. -/
def finishWrite (cfg : Config κ) (failed : Bool) (s : Endpoint κ τ) : Endpoint κ τ :=
  if failed then s.withCore (s.toCore.closeBody cfg)
  else if s.out.queue.isEmpty then s
  else { s with out := s.out.startWrite cfg.kind.batchLimit s.socket.conn }

/-- A write makes progress on its own descriptor only; a datagram goes out whole. -/
def write (cfg : Config κ) (i n : Nat) (s : Endpoint κ τ) : Option (Endpoint κ τ) :=
  match s.out.writes[i]? with
  | some w =>
    if s.live w.session ∧ (cfg.kind = .udpEndpoint → n = (s.out.data Item.buf w).length) then
      (s.out.progress Item.buf i n).map ({ s with out := · })
    else none
  | none => none

/-- A write succeeds only if every byte was written. -/
def writeDone (i : Nat) (failed : Bool) (s : Endpoint κ τ) : Option (Endpoint κ τ) :=
  match s.out.writes[i]? with
  | some w =>
    if failed ∨ w.written = (s.out.data Item.buf w).length then
      some { s with
        out := { s.out with writes := s.out.writes.eraseIdx i }
        ready := s.ready ++ [.wrote w failed] }
    else none
  | none => none

section
variable [DecidableEq τ]

/-- `send` up to the loop that waits for a buffer. -/
def call (cfg : Config κ) (caller : Option τ) (request : Request) (s : Endpoint κ τ) :
    Endpoint κ τ :=
  match sendCheck cfg.kind s.socket request.target with
  | .error _ => s
  | .ok () => { s with out := s.out.call caller ⟨request, .ofRequest cfg.kind s.socket request⟩ }

/-- The caller copies its data into the buffer it has. -/
def fill (cfg : Config κ) (caller : Option τ) (s : Endpoint κ τ) : Option (Endpoint κ τ) :=
  match s.out.pc caller with
  | .holding b ticket =>
    some { s with out := s.out.fill caller b ticket (.ofRequest cfg.kind s.socket ticket.request) }
  | _ => none

def post (caller : Option τ) (s : Endpoint κ τ) : Option (Endpoint κ τ) :=
  match s.out.pc caller with
  | .filled b _ =>
    some { s with out := s.out.setPc caller .idle, ready := s.ready ++ [.enqueue caller b] }
  | _ => none

/-- A piece of a handler; a `send` then blocks the strand until its buffer is posted. -/
def perform (cfg : Config κ) (rest : List Act) (s : Endpoint κ τ) (a : Act) : Endpoint κ τ :=
  match a with
  | .call (.send request) => call cfg none request (s.withCore (s.toCore.perform cfg rest a))
  | _ => s.withCore (s.toCore.perform cfg rest a)

/-- The running handler goes on by one piece; `kept` is what `buffer_pool_.push` returns. -/
def act (cfg : Config κ) (kept : Bool) (s : Endpoint κ τ) : Option (Endpoint κ τ) :=
  match s.running with
  | .releasing (left+1) failed =>
    some { s with out := s.out.release kept, running := .releasing left failed }
  | .releasing 0 failed => some (finishWrite cfg failed { s with running := .program [] })
  | .program (a :: rest) => if s.out.pc none = .idle then some (s.perform cfg rest a) else none
  | .program [] => none

/-- The strand is between two handlers. -/
def idle (s : Endpoint κ τ) : Bool := s.running == .program [] && s.out.pc none == .idle

def step (cfg : Config κ) (s : Endpoint κ τ) : Event τ → Option (Endpoint κ τ)
  | .send t request => if s.out.pc (some t) = .idle then some (s.call cfg (some t) request) else none
  | .pop caller => (s.out.pop caller).map ({ s with out := · })
  | .fill caller => s.fill cfg caller
  | .post caller => s.post caller
  | .close => some (s.notify (s.toCore, .close))
  | .connect resolved opened => (s.toCore.connect cfg resolved opened).map s.withCore
  | .setup call os => (s.toCore.setup cfg call os).map s.withCore
  | .start => (s.toCore.start cfg).map s.withCore
  | .run =>
    match s.ready with
    | h :: rest => if s.idle then some (runHandler cfg { s with ready := rest } h) else none
    | [] => none
  | .act kept => s.act cfg kept
  | .write i n => s.write cfg i n
  | .writeDone i failed => s.writeDone i failed
  | .read i data sender => (s.toCore.read cfg i data sender).map s.notify
  | .readFail i ec => (s.toCore.readFail i ec).map s.notify
  | .expire i => (s.toCore.waitDone i false).map s.notify
  | .abort i => (s.toCore.waitDone i true).map s.notify
  | .connectDone i failed reopened => (s.toCore.connectDone i failed reopened).map s.notify
  | .tick d => some { s with now := s.now+d }

/-- Who calls `send` in a step, and with what: a thread, or by `none` the callback whose calls the
running handler makes. -/
def asks (s : Endpoint κ τ) : Event τ → Option (Option τ × Request)
  | .send t request => some (some t,request)
  | .act _ =>
    match s.running with
    | .program (.call (.send request) :: _) => some (none,request)
    | _ => none
  | _ => none

/-- The runs of an endpoint from its construction on. -/
abbrev Reached (cfg : Config κ) (s : Endpoint κ τ) : Prop :=
  Transition.Reachable (fun s₀ => ∃ u, s₀ = initial cfg.kind u) (step cfg) s

theorem reached_of_run {cfg : Config κ} {u : κ} {es : List (Event τ)} {s : Endpoint κ τ}
    (h : Transition.run (step cfg) (initial cfg.kind u) es = some s) : Reached cfg s :=
  Transition.reachable_run (.start ⟨u,rfl⟩) h

end

/-- A `TcpConnection` in its first read. -/
def startedConnection : Endpoint Unit Unit := { (initial .tcpConnection () : Endpoint Unit Unit) with
  boot := .done
  reads := [⟨1,0,65536⟩]
  log := [(0,.read 1)] }

/-- A `TcpClient` in its first read. -/
def joinedClient : Endpoint Unit Unit := { (initial .tcpClient () : Endpoint Unit Unit) with
  socket := { Socket.closed.reopen with isConnected := true }
  reads := [⟨1,0,65536⟩]
  log := [(0,.connected 1),(0,.read 1)] }

theorem run_start (cfg : Config Unit) (hkind : cfg.kind = .tcpConnection) (htimeout : cfg.readTimeout = 0) :
    Transition.run (step cfg) (initial .tcpConnection ()) [.start, .start] = some startedConnection := by
  simp [startedConnection,step,initial,Core.initial,withCore,Core.start,hkind,htimeout,Core.resetReadTimeout,
    Core.startReceive,Core.emit,Core.descriptor,Socket.accepted,Socket.closed,Window.startReceive_initial,
    Window.offered_initial,show Window.initial.activeBytes = 0 from rfl]

end Endpoint

end Librim
