import Librim.Socket
import Librim.Window

/-! An endpoint without its send pipeline: the socket, the receive half, the read timer and
the handler that runs on the strand. `TcpConnection` and `TcpClient` share the receive
loop; `UdpEndpoint` has its own and no timer. -/

set_option autoImplicit false

namespace Librim

inductive Kind where
  | tcpConnection
  | tcpClient
  | udpEndpoint
  deriving DecidableEq, Repr

/-- What an endpoint is constructed with, and its callbacks. -/
structure Config (κ : Type) where
  kind : Kind
  framing : Framing
  readTimeout : Nat
  onRecv : Option (Callback κ)
  onConnect : κ → (connected : Bool) → κ × List Call
  onDisc : κ → κ

/-- Messages of four bytes, no callback and no timeout. -/
def Config.bare (kind : Kind) : Config Unit where
  kind := kind
  framing := ⟨4, 4, fun _ => 4⟩
  readTimeout := 0
  onRecv := none
  onConnect u _ := (u,[])
  onDisc u := u

/-- An outstanding read and the descriptor it was started on (0 if there was none). -/
structure Read where
  conn : Nat
  offset : Nat
  room : Nat
  deriving DecidableEq, Repr

structure Wait where
  id : Nat
  deadline : Nat
  cancelled : Bool
  deriving DecidableEq, Repr

/-- An `async_connect` with `more` endpoints left to try. -/
structure Connecting where
  conn : Nat
  more : Nat
  deriving DecidableEq, Repr

/-- The completion handlers of reads, waits and connection attempts, and the closure that
`close()` dispatches. -/
inductive Notice where
  | received (r : Read) (result : Except ErrorCode Nat)
  | expired (w : Wait) (aborted : Bool)
  | connected (c : Connecting) (failed reopened : Bool)
  | close

/-- The pieces of a handler. `owner` is the connection on whose behalf it runs. -/
inductive Act where
  | scan (owner currentOffset : Nat)
  | datagram (owner n : Nat)
  | call (c : Call)
  | resetReadTimeout (owner : Nat)
  | startReceive (owner : Nat)
  | close
  deriving DecidableEq, Repr

/-- What is left to do of the handler that runs on the strand: the completion handler of a
write has `left` buffers to give back, any other handler is a list of pieces. -/
inductive Running where
  | releasing (left : Nat) (failed : Bool)
  | program (acts : List Act)
  deriving DecidableEq, Repr

def Running.acts : Running → List Act
  | .releasing _ _ => []
  | .program acts => acts

/-- `TcpConnection::start` runs once, on the thread of the acceptor. -/
inductive Boot where
  | resetReadTimeout
  | startReceive
  | done
  deriving DecidableEq, Repr

inductive Obs where
  | connected (conn : Nat)
  | closed (conn : Nat)
  | callback (owner : Nat) (message : List Byte) (sender : Option Address)
  | read (owner : Nat)
  | wait (owner : Nat)
  deriving DecidableEq, Repr

/-- What a successful read brought, and on which descriptor. -/
structure Arrival where
  conn : Nat
  data : List Byte
  sender : Address
  deriving DecidableEq, Repr

/-- `arrived` and `log` are history. -/
structure Core (κ : Type) where
  socket : Socket
  running : Running
  window : Window
  sender : Address
  user : κ
  reads : List Read
  waits : List Wait
  armed : Nat
  connects : List Connecting
  boot : Boot
  now : Nat
  arrived : List Arrival
  log : List (Nat × Obs)

namespace Core

variable {κ : Type}

def initial (kind : Kind) (u : κ) : Core κ where
  socket := if kind = .tcpConnection then .accepted else .closed
  running := .program []
  window := .initial
  sender := ⟨0,0⟩
  user := u
  reads := []
  waits := []
  armed := 0
  connects := []
  boot := .resetReadTimeout
  now := 0
  arrived := []
  log := []

def emit (c : Core κ) (o : Obs) : Core κ := { c with log := c.log ++ [(c.now,o)] }

/-- An operation started on descriptor `conn` can still make progress. -/
def live (c : Core κ) (conn : Nat) : Bool := c.socket.isOpen && c.socket.conn == conn

def descriptor (c : Core κ) : Nat := if c.socket.isOpen then c.socket.conn else 0

/-- The body of `close()`, on the strand. -/
def closeBody (cfg : Config κ) (c : Core κ) : Core κ :=
  let c :=
    if c.socket.isOpen then
      { c.emit (.closed c.socket.conn) with
        socket := c.socket.close
        waits := c.waits.map ({ · with cancelled := true })
        user := if cfg.kind = .tcpConnection then cfg.onDisc c.user else c.user }
    else c
  { c with socket := { c.socket with isConnected := false } }

/-- `expires_after` cancels the waits that have not expired, then the new wait starts. -/
def resetReadTimeout (cfg : Config κ) (owner : Nat) (c : Core κ) : Core κ :=
  if 0 < cfg.readTimeout then
    { c.emit (.wait owner) with
      waits := c.waits.map ({ · with cancelled := true }) ++
        [⟨c.armed, c.now+cfg.readTimeout, false⟩]
      armed := c.armed+1 }
  else c

def startReceive (cfg : Config κ) (owner : Nat) (c : Core κ) : Core κ :=
  match cfg.kind with
  | .udpEndpoint =>
    if cfg.onRecv.isNone || !c.socket.isOpen then c
    else { c.emit (.read owner) with reads := c.reads ++ [⟨c.descriptor, 0, 65536⟩] }
  | _ =>
    let w := c.window.startReceive
    { c.emit (.read owner) with
      window := w
      reads := c.reads ++ [⟨c.descriptor, w.activeBytes, w.offered⟩] }

/-- The receive callback on the `n` bytes at `offset`; `next` is what the handler does after. -/
def deliver (cfg : Config κ) (owner offset n : Nat) (sender : Option Address) (next : List Act)
    (c : Core κ) : Core κ :=
  match cfg.onRecv with
  | none => { c with running := .program next }
  | some callback =>
    let message := c.window.span offset n
    let reply := callback c.user message sender
    { c.emit (.callback owner message sender) with
      window := c.window.scribble offset reply.span
      user := reply.user
      running := .program (reply.calls.map .call ++ next) }

/-- The completion handler of a read. -/
def onReceived (cfg : Config κ) (r : Read) (result : Except ErrorCode Nat) (c : Core κ) : Core κ :=
  match cfg.kind, result with
  | .udpEndpoint, .ok n =>
    if 0 < n then { c with running := .program [.datagram r.conn n, .startReceive r.conn] } else c
  | .udpEndpoint, .error ec =>
    if ec ≠ .operationAborted then { c with running := .program [.startReceive r.conn] } else c
  | _, .ok n =>
    if 0 < n then
      { c with
        window := { c.window with activeBytes := c.window.activeBytes+n }
        running := .program [.scan r.conn 0] }
    else { c with running := .program [.close] }
  | _, .error _ => { c with running := .program [.close] }

/-- `socket_.close()`, and a new descriptor if the system gives one. -/
def reopen (opened : Bool) (more : Nat) (c : Core κ) : Core κ :=
  let socket := if opened then c.socket.close.reopen else c.socket.close
  { c with socket := socket, connects := c.connects ++ [⟨socket.conn, more⟩] }

/-- Both outcomes of `async_connect` in `TcpClient::connect`. A failed attempt goes on to the
next endpoint on a new descriptor; if the socket was closed meanwhile the whole
operation is aborted. -/
def onConnected (cfg : Config κ) (a : Connecting) (failed reopened : Bool) (c : Core κ) : Core κ :=
  if c.socket.isOpen && !failed then
    let reply := cfg.onConnect c.user true
    { c.emit (.connected c.socket.conn) with
      socket := { c.socket with isConnected := true }
      user := reply.1
      running := .program (reply.2.map .call ++
        [.resetReadTimeout c.socket.conn, .startReceive c.socket.conn]) }
  else if c.socket.isOpen && 0 < a.more then c.reopen reopened (a.more-1)
  else
    let reply := cfg.onConnect c.user false
    { c with user := reply.1, running := .program (reply.2.map .call) }

/-- The strand takes up a handler. -/
def handle (cfg : Config κ) (c : Core κ) : Notice → Core κ
  | .received r result => c.onReceived cfg r result
  | .expired _ aborted => if aborted then c else { c with running := .program [.close] }
  | .connected a failed reopened => c.onConnected cfg a failed reopened
  | .close => { c with running := .program [.close] }

/-- One piece of a handler; `rest` comes after it. What a `send` does to the pipeline is not
part of this. -/
def perform (cfg : Config κ) (rest : List Act) (c : Core κ) : Act → Core κ
  | .scan owner currentOffset =>
    match c.window.scan cfg.framing currentOffset with
    | .bad => { c with running := .program (.close :: rest) }
    | .message totalSize =>
      c.deliver cfg owner currentOffset totalSize none (.scan owner (currentOffset+totalSize) :: rest)
    | .stop =>
      { c with
        window := c.window.compact currentOffset
        running := .program (.resetReadTimeout owner :: .startReceive owner :: rest) }
  | .datagram owner n => c.deliver cfg owner 0 n (some c.sender) rest
  | .call (.send _) => { c with running := .program rest }
  | .call .close => closeBody cfg { c with running := .program rest }
  | .resetReadTimeout owner => resetReadTimeout cfg owner { c with running := .program rest }
  | .startReceive owner => startReceive cfg owner { c with running := .program rest }
  | .close => closeBody cfg { c with running := .program rest }

/-- A successful read: at least one byte of a stream, any datagram that fits. -/
def read (cfg : Config κ) (i : Nat) (data : List Byte) (sender : Address) (c : Core κ) :
    Option (Core κ × Notice) :=
  match c.reads[i]? with
  | some r =>
    if c.live r.conn ∧ data.length ≤ r.room ∧ (cfg.kind = .udpEndpoint ∨ data ≠ []) then
      some
        ({ c with
          window := { c.window with recvBuffer := poke c.window.recvBuffer r.offset data }
          sender := sender
          reads := c.reads.eraseIdx i
          arrived := c.arrived ++ [⟨r.conn,data,sender⟩] }, .received r (.ok data.length))
    else none
  | none => none

/-- Reads that lost their descriptor are aborted, those that never had one fail at once, and
the others fail with some other error. -/
def failure (c : Core κ) (r : Read) (ec : ErrorCode) : Bool :=
  if r.conn = 0 then ec == .badDescriptor
  else if c.live r.conn then ec != .operationAborted
  else ec == .operationAborted

def readFail (i : Nat) (ec : ErrorCode) (c : Core κ) : Option (Core κ × Notice) :=
  match c.reads[i]? with
  | some r =>
    if c.failure r ec then some ({ c with reads := c.reads.eraseIdx i }, .received r (.error ec))
    else none
  | none => none

/-- A wait leaves the timer when its deadline has passed, or when it was cancelled. -/
def waitDone (i : Nat) (aborted : Bool) (c : Core κ) : Option (Core κ × Notice) :=
  match c.waits[i]? with
  | some w =>
    if w.cancelled = aborted ∧ (aborted ∨ w.deadline ≤ c.now) then
      some ({ c with waits := c.waits.eraseIdx i }, .expired w aborted)
    else none
  | none => none

def connectDone (i : Nat) (failed reopened : Bool) (c : Core κ) : Option (Core κ × Notice) :=
  match c.connects[i]? with
  | some a =>
    if failed ∨ c.live a.conn then
      some ({ c with connects := c.connects.eraseIdx i }, .connected a failed reopened)
    else none
  | none => none

/-- `TcpClient::connect`: a resolver error is returned, otherwise `async_connect` closes the
socket and opens it for the first of the endpoints found. -/
def connect (cfg : Config κ) (resolved : Except ErrorCode Nat) (opened : Bool) (c : Core κ) :
    Option (Core κ) :=
  match cfg.kind, resolved with
  | .tcpClient, .error _ => some c
  | .tcpClient, .ok more => some (c.reopen opened more)
  | _, _ => none

def setup (cfg : Config κ) (call : UdpEndpoint.Setup) (os : Os) (c : Core κ) : Option (Core κ) :=
  if cfg.kind = .udpEndpoint then some { c with socket := (UdpEndpoint.setup call os c.socket).1 }
  else none

/-- `TcpConnection::start`, line by line, and `UdpEndpoint::start_receive`. -/
def start (cfg : Config κ) (c : Core κ) : Option (Core κ) :=
  match cfg.kind, c.boot with
  | .tcpConnection, .resetReadTimeout =>
    some (resetReadTimeout cfg c.socket.conn { c with boot := .startReceive })
  | .tcpConnection, .startReceive => some (startReceive cfg c.socket.conn { c with boot := .done })
  | .udpEndpoint, _ => some (startReceive cfg c.socket.conn { c with boot := .done })
  | _, _ => none

section shape
variable (cfg : Config κ) (c : Core κ)

/-! Which fields each function touches. -/

theorem closeBody_shape : ∃ socket waits user log,
    closeBody cfg c = { c with socket := socket, waits := waits, user := user, log := log } := by
  unfold closeBody
  split
  · exact ⟨_,_,_,_,rfl⟩
  · exact ⟨_,_,_,_,rfl⟩

theorem resetReadTimeout_shape (owner : Nat) : ∃ waits armed log,
    resetReadTimeout cfg owner c = { c with waits := waits, armed := armed, log := log } := by
  unfold resetReadTimeout
  split
  · exact ⟨_,_,_,rfl⟩
  · exact ⟨_,_,_,rfl⟩

theorem startReceive_shape (owner : Nat) : ∃ window reads log,
    startReceive cfg owner c = { c with window := window, reads := reads, log := log } := by
  unfold startReceive
  split
  · split
    · exact ⟨_,_,_,rfl⟩
    · exact ⟨_,_,_,rfl⟩
  · exact ⟨_,_,_,rfl⟩

theorem deliver_shape (owner offset n : Nat) (sender : Option Address) (next : List Act) :
    ∃ window user acts log, deliver cfg owner offset n sender next c =
      { c with window := window, user := user, running := .program acts, log := log } := by
  unfold deliver
  split
  · exact ⟨_,_,_,_,rfl⟩
  · exact ⟨_,_,_,_,rfl⟩

theorem onReceived_shape (r : Read) (result : Except ErrorCode Nat)
    (hrun : c.running = .program []) : ∃ window acts,
    onReceived cfg r result c = { c with window := window, running := .program acts } := by
  unfold onReceived
  split
  · split
    · exact ⟨_,_,rfl⟩
    · exact ⟨_, [], by rw [← hrun]⟩
  · split
    · exact ⟨_,_,rfl⟩
    · exact ⟨_, [], by rw [← hrun]⟩
  · split
    · exact ⟨_,_,rfl⟩
    · exact ⟨_,_,rfl⟩
  · exact ⟨_,_,rfl⟩

theorem handle_shape (n : Notice) (hrun : c.running = .program []) :
    ∃ socket acts window user connects log, c.handle cfg n =
      { c with
        socket := socket, running := .program acts, window := window, user := user
        connects := connects, log := log } := by
  cases n with
  | received r result =>
    obtain ⟨_,_,hs⟩ := onReceived_shape cfg c r result hrun
    exact ⟨_,_,_,_,_,_,hs⟩
  | expired w aborted =>
    simp only [handle]
    split
    · exact ⟨_, [], _, _, _, _, by rw [← hrun]⟩
    · exact ⟨_,_,_,_,_,_,rfl⟩
  | connected a failed reopened =>
    simp only [handle,onConnected]
    split
    · exact ⟨_,_,_,_,_,_,rfl⟩
    · split
      · exact ⟨_, [], _, _, _, _, by rw [← hrun]; rfl⟩
      · exact ⟨_,_,_,_,_,_,rfl⟩
  | close => exact ⟨_,_,_,_,_,_,rfl⟩

theorem perform_shape (rest : List Act) (a : Act) : ∃ socket acts window user reads waits armed log,
    c.perform cfg rest a =
      { c with
        socket := socket, running := .program acts, window := window, user := user
        reads := reads, waits := waits, armed := armed, log := log } := by
  cases a with
  | scan owner currentOffset =>
    simp only [perform]
    split
    · exact ⟨_,_,_,_,_,_,_,_,rfl⟩
    · obtain ⟨_,_,_,_,h⟩ := deliver_shape cfg c owner currentOffset _ none _
      rw [h]
      exact ⟨_,_,_,_,_,_,_,_,rfl⟩
    · exact ⟨_,_,_,_,_,_,_,_,rfl⟩
  | datagram owner n =>
    obtain ⟨_,_,_,_,h⟩ := deliver_shape cfg c owner 0 n (some c.sender) rest
    simp only [perform,h]
    exact ⟨_,_,_,_,_,_,_,_,rfl⟩
  | call k =>
    cases k with
    | send request => exact ⟨_,_,_,_,_,_,_,_,rfl⟩
    | close =>
      obtain ⟨_,_,_,_,h⟩ := closeBody_shape cfg { c with running := .program rest }
      simp only [perform,h]
      exact ⟨_,_,_,_,_,_,_,_,rfl⟩
  | resetReadTimeout owner =>
    obtain ⟨_,_,_,h⟩ := resetReadTimeout_shape cfg { c with running := .program rest } owner
    simp only [perform,h]
    exact ⟨_,_,_,_,_,_,_,_,rfl⟩
  | startReceive owner =>
    obtain ⟨_,_,_,h⟩ := startReceive_shape cfg { c with running := .program rest } owner
    simp only [perform,h]
    exact ⟨_,_,_,_,_,_,_,_,rfl⟩
  | close =>
    obtain ⟨_,_,_,_,h⟩ := closeBody_shape cfg { c with running := .program rest }
    simp only [perform,h]
    exact ⟨_,_,_,_,_,_,_,_,rfl⟩

end shape

section inversion
variable {cfg : Config κ} {c : Core κ}

theorem connect_shape {c' : Core κ} {resolved : Except ErrorCode Nat} {opened : Bool}
    (h : c.connect cfg resolved opened = some c') :
    ∃ socket connects, c' = { c with socket := socket, connects := connects } := by
  unfold connect at h
  split at h <;> simp only [Option.some.injEq,reduceCtorEq] at h
  · exact ⟨_,_,h.symm⟩
  · exact ⟨_,_,h.symm⟩

theorem setup_shape {c' : Core κ} {call : UdpEndpoint.Setup} {os : Os}
    (h : c.setup cfg call os = some c') : ∃ socket, c' = { c with socket := socket } := by
  simp only [setup,Option.ite_none_right_eq_some,Option.some.injEq] at h
  exact ⟨_,h.2.symm⟩

theorem start_shape {c' : Core κ} (h : c.start cfg = some c') :
    ∃ window reads waits armed boot log, c' =
      { c with
        window := window, reads := reads, waits := waits, armed := armed, boot := boot, log := log } := by
  unfold start at h
  split at h
  · obtain ⟨_,_,_,hs⟩ := resetReadTimeout_shape cfg { c with boot := .startReceive } c.socket.conn
    rw [hs, Option.some.injEq] at h
    exact ⟨_,_,_,_,_,_,h.symm⟩
  · obtain ⟨_,_,_,hs⟩ := startReceive_shape cfg { c with boot := .done } c.socket.conn
    rw [hs, Option.some.injEq] at h
    exact ⟨_,_,_,_,_,_,h.symm⟩
  · obtain ⟨_,_,_,hs⟩ := startReceive_shape cfg { c with boot := .done } c.socket.conn
    rw [hs, Option.some.injEq] at h
    exact ⟨_,_,_,_,_,_,h.symm⟩
  · simp at h

theorem read_eq_some {i : Nat} {data : List Byte} {sender : Address} {x : Core κ × Notice} :
    c.read cfg i data sender = some x ↔ ∃ r, c.reads[i]? = some r ∧ c.live r.conn = true ∧
      data.length ≤ r.room ∧ (cfg.kind = .udpEndpoint ∨ data ≠ []) ∧
      x = ({ c with
          window := { c.window with recvBuffer := poke c.window.recvBuffer r.offset data }
          sender := sender
          reads := c.reads.eraseIdx i
          arrived := c.arrived ++ [⟨r.conn,data,sender⟩] }, .received r (.ok data.length)) := by
  unfold read
  cases hi : c.reads[i]? with
  | none => simp
  | some r =>
    simp only [Option.ite_none_right_eq_some,Option.some.injEq]
    constructor
    · rintro ⟨⟨hlive,hlen,hdata⟩,rfl⟩
      exact ⟨r,rfl,hlive,hlen,hdata,rfl⟩
    · rintro ⟨_,rfl,hlive,hlen,hdata,rfl⟩
      exact ⟨⟨hlive,hlen,hdata⟩,rfl⟩

theorem readFail_eq_some {i : Nat} {ec : ErrorCode} {x : Core κ × Notice} :
    c.readFail i ec = some x ↔ ∃ r, c.reads[i]? = some r ∧ c.failure r ec = true ∧
      x = ({ c with reads := c.reads.eraseIdx i }, .received r (.error ec)) := by
  unfold readFail
  cases hi : c.reads[i]? with
  | none => simp
  | some r =>
    simp only [Option.ite_none_right_eq_some,Option.some.injEq]
    constructor
    · rintro ⟨hf,rfl⟩
      exact ⟨r,rfl,hf,rfl⟩
    · rintro ⟨_,rfl,hf,rfl⟩
      exact ⟨hf,rfl⟩

theorem waitDone_eq_some {i : Nat} {aborted : Bool} {x : Core κ × Notice} :
    c.waitDone i aborted = some x ↔ ∃ w, c.waits[i]? = some w ∧ w.cancelled = aborted ∧
      (aborted = true ∨ w.deadline ≤ c.now) ∧
      x = ({ c with waits := c.waits.eraseIdx i }, .expired w aborted) := by
  unfold waitDone
  cases hi : c.waits[i]? with
  | none => simp
  | some w =>
    simp only [Option.ite_none_right_eq_some,Option.some.injEq]
    constructor
    · rintro ⟨⟨hc,hd⟩,rfl⟩
      exact ⟨w,rfl,hc,hd,rfl⟩
    · rintro ⟨_,rfl,hc,hd,rfl⟩
      exact ⟨⟨hc,hd⟩,rfl⟩

theorem connectDone_eq_some {i : Nat} {failed reopened : Bool} {x : Core κ × Notice} :
    c.connectDone i failed reopened = some x ↔ ∃ a, c.connects[i]? = some a ∧
      (failed = true ∨ c.live a.conn = true) ∧
      x = ({ c with connects := c.connects.eraseIdx i }, .connected a failed reopened) := by
  unfold connectDone
  cases hi : c.connects[i]? with
  | none => simp
  | some a =>
    simp only [Option.ite_none_right_eq_some,Option.some.injEq]
    constructor
    · rintro ⟨ha,rfl⟩
      exact ⟨a,rfl,ha,rfl⟩
    · rintro ⟨_,rfl,ha,rfl⟩
      exact ⟨ha,rfl⟩

end inversion

end Core

end Librim
