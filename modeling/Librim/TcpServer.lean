import Librim.Endpoint
import Mathlib.Data.Finset.Basic

/-! `TcpServer`: the connections that it accepts, the set in which it keeps them, and broadcasts
from any thread. A connection is named by the order in which the connections were made. -/

set_option autoImplicit false

namespace Librim

/-- The state of the callbacks of one connection. `disconnects` counts the calls of `on_disc_`. -/
structure Hooked (κ : Type) where
  user : κ
  disconnects : Nat

/-- What a server is constructed with, and `on_receive_`. -/
structure ServerConfig (κ : Type) where
  framing : Framing
  readTimeout : Nat
  onReceive : Option (Callback κ)

/-- How far the handler in `do_accept` has come with its connection. -/
inductive Accepting where
  | constructed
  | inserted
  | announced
  deriving DecidableEq, Repr

structure Peer (κ τ : Type) where
  conn : Endpoint (Hooked κ) τ
  accepting : Accepting

/-- A thread in the second loop of `broadcast`. -/
structure Broadcast where
  data : List Byte
  left : List Nat
  deriving DecidableEq, Repr

/-- A broadcast that has come to its end is none. -/
def Broadcast.rest (b : Broadcast) : Option Broadcast := if b.left = [] then none else some b

structure TcpServer (κ τ : Type) where
  peers : List (Peer κ τ)
  connections : Finset Nat
  broadcasting : τ → Option Broadcast

/-- What a thread, the acceptor or one of the connections does next. `insert`, `onConnect` and `start`
are the lines of the handler in `do_accept`; what `on_connect_` does with the connection before
it returns is a `send` or a `close`. -/
inductive ServerEvent (κ τ : Type) where
  | accept (u : κ)
  | insert (i : Nat)
  | onConnect (i : Nat)
  | start (i : Nat)
  | send (t : τ) (i : Nat) (data : List Byte)
  | close (i : Nat)
  | conn (i : Nat) (e : Event τ)
  | broadcast (t : τ) (data : List Byte) (order : List Nat)
  | sendNext (t : τ)

/-- The steps of a connection that are not calls from outside. -/
def Event.isOwn {τ : Type} : Event τ → Bool
  | .send _ _ | .close | .start => false
  | _ => true

variable {κ τ : Type}

def ServerConfig.onRecv (cfg : ServerConfig κ) : Option (Callback (Hooked κ)) :=
  cfg.onReceive.map (fun callback u message sender =>
    let reply := callback u.user message sender
    ⟨{ u with user := reply.user }, reply.span, reply.span_length, reply.calls⟩)

/-- The arguments that `do_accept` passes to each `TcpConnection`. -/
def ServerConfig.connection (cfg : ServerConfig κ) : Config (Hooked κ) where
  kind := .tcpConnection
  framing := cfg.framing
  readTimeout := cfg.readTimeout
  onRecv := cfg.onRecv
  onConnect u _ := (u,[])
  onDisc u := { u with disconnects := u.disconnects+1 }

namespace TcpServer

def initial : TcpServer κ τ where
  peers := []
  connections := ∅
  broadcasting _ := none

/-- A connection has taken a step. If that has called `on_disc_`, the connection is erased. -/
def update (s : TcpServer κ τ) (i : Nat) (p : Peer κ τ) (conn : Endpoint (Hooked κ) τ) : TcpServer κ τ :=
  { s with
    peers := s.peers.set i { p with conn := conn }
    connections :=
      if conn.user.disconnects = p.conn.user.disconnects then s.connections
      else s.connections.erase i }

variable [DecidableEq τ]

/-- No call of `send` by this thread is in progress. -/
def idle (s : TcpServer κ τ) (t : τ) : Bool := s.peers.all (fun p => p.conn.out.pc (some t) == .idle)

/-- The thread is not in a call. -/
def free (s : TcpServer κ τ) (t : τ) : Bool := s.idle t && (s.broadcasting t).isNone

def connStep (cfg : ServerConfig κ) (i : Nat) (p : Peer κ τ) (e : Event τ) (s : TcpServer κ τ) :
    Option (TcpServer κ τ) :=
  (p.conn.step cfg.connection e).map (s.update i p)

/-- `conn->send(data)`. -/
def callSend (cfg : ServerConfig κ) (t : τ) (i : Nat) (data : List Byte) (s : TcpServer κ τ) :
    Option (TcpServer κ τ) :=
  match s.peers[i]? with
  | some p => s.connStep cfg i p (.send t ⟨data,.implicit⟩)
  | none => none

/-- Until it is inserted nobody but the accept handler has a pointer to a connection. -/
def step (cfg : ServerConfig κ) (s : TcpServer κ τ) : ServerEvent κ τ → Option (TcpServer κ τ)
  | .accept u => some { s with peers := s.peers ++ [⟨.initial .tcpConnection ⟨u,0⟩, .constructed⟩] }
  | .insert i =>
    match s.peers[i]? with
    | some p =>
      if p.accepting = .constructed then
        some { s with
          peers := s.peers.set i { p with accepting := .inserted }
          connections := insert i s.connections }
      else none
    | none => none
  | .onConnect i =>
    match s.peers[i]? with
    | some p =>
      if p.accepting = .inserted then
        some { s with peers := s.peers.set i { p with accepting := .announced } }
      else none
    | none => none
  | .start i =>
    match s.peers[i]? with
    | some p => if p.accepting = .announced then s.connStep cfg i p .start else none
    | none => none
  | .send t i data =>
    match s.peers[i]? with
    | some p => if p.accepting ≠ .constructed ∧ s.free t then s.callSend cfg t i data else none
    | none => none
  | .close i =>
    match s.peers[i]? with
    | some p => if p.accepting ≠ .constructed then s.connStep cfg i p .close else none
    | none => none
  | .conn i e =>
    match s.peers[i]? with
    | some p => if e.isOwn then s.connStep cfg i p e else none
    | none => none
  | .broadcast t data order =>
    if s.free t ∧ order.Nodup ∧ order.toFinset = s.connections then
      some { s with broadcasting := Function.update s.broadcasting t (Broadcast.rest ⟨data,order⟩) }
    else none
  | .sendNext t =>
    match s.broadcasting t with
    | some ⟨data, i :: left⟩ =>
      if s.idle t then
        (s.callSend cfg t i data).map
          ({ · with broadcasting := Function.update s.broadcasting t (Broadcast.rest ⟨data,left⟩) })
      else none
    | _ => none

/-- The runs of a server from its construction on. -/
abbrev Reached (cfg : ServerConfig κ) (s : TcpServer κ τ) : Prop :=
  Transition.Reachable (fun s₀ => s₀ = initial) (step cfg) s

end TcpServer

/-- A call of `broadcast`: what it found in `connections_`, and the order in which it goes through it. -/
structure Snapshot (τ : Type) where
  thread : τ
  data : List Byte
  tracked : Finset Nat
  order : List Nat
  deriving DecidableEq

/-- The calls of `send` that it is to make. -/
def Snapshot.calls (snap : Snapshot τ) : List (Nat × List Byte) := snap.order.map (·,snap.data)

/-- A call of `send` by a thread, by itself or in a broadcast, or by the callback of the connection
(`none`), and whether it found the socket open. -/
structure SendCall (τ : Type) where
  caller : Option τ
  conn : Nat
  data : List Byte
  isOpen : Bool
  broadcast : Bool
  deriving DecidableEq

/-- What the record of a run keeps. -/
inductive ServerCall (τ : Type) where
  | broadcast (snap : Snapshot τ)
  | send (call : SendCall τ)

namespace TcpServer

def isOpen (s : TcpServer κ τ) (i : Nat) : Bool := (s.peers[i]?).elim false (·.conn.socket.isOpen)

theorem isOpen_of_peer {s : TcpServer κ τ} {i : Nat} {p : Peer κ τ} (hi : s.peers[i]? = some p) :
    s.isOpen i = p.conn.socket.isOpen := by
  rw [isOpen, hi, Option.elim_some]

/-- The call of `send` that a step of connection `i` makes, if it makes one. -/
def sendCalls (p : Peer κ τ) (i : Nat) (broadcast : Bool) (e : Event τ) : List (ServerCall τ) :=
  (p.conn.asks e).toList.map (fun call => .send ⟨call.1,i,call.2.data,p.conn.socket.isOpen,broadcast⟩)

/-- It is read off the events of the run and the state before them. -/
def noted (s : TcpServer κ τ) (e : ServerEvent κ τ) (_ : TcpServer κ τ) : List (ServerCall τ) :=
  match e with
  | .send t i data => [.send ⟨some t,i,data,s.isOpen i,false⟩]
  | .conn i e => (s.peers[i]?).elim [] (sendCalls · i false e)
  | .broadcast t data order => [.broadcast ⟨t,data,s.connections,order⟩]
  | .sendNext t =>
    match s.broadcasting t with
    | some ⟨data, i :: _⟩ => [.send ⟨some t,i,data,s.isOpen i,true⟩]
    | _ => []
  | _ => []

def snapshots (h : List (ServerCall τ)) : List (Snapshot τ) :=
  h.filterMap (fun
    | .broadcast snap => some snap
    | .send _ => none)

def sends (h : List (ServerCall τ)) : List (SendCall τ) :=
  h.filterMap (fun
    | .broadcast _ => none
    | .send call => some call)

theorem snapshots_append (h h' : List (ServerCall τ)) : snapshots (h ++ h') = snapshots h ++ snapshots h' :=
  List.filterMap_append

theorem sends_append (h h' : List (ServerCall τ)) : sends (h ++ h') = sends h ++ sends h' :=
  List.filterMap_append

variable [DecidableEq τ]

/-- The runs of a server with their record. -/
abbrev Recorded (cfg : ServerConfig κ) (p : TcpServer κ τ × List (ServerCall τ)) : Prop :=
  Transition.Reachable (fun p₀ => p₀.1 = initial ∧ p₀.2 = []) (Transition.recorded (step cfg) noted) p

/-- The calls of `send` that thread `t` made in its broadcasts. -/
def forBroadcasts (h : List (ServerCall τ)) (t : τ) : List (Nat × List Byte) :=
  ((sends h).filter (fun c => c.caller = some t ∧ c.broadcast = true)).map (fun c => (c.conn,c.data))

/-- Those that its snapshots ask for. -/
def planned (h : List (ServerCall τ)) (t : τ) : List (Nat × List Byte) :=
  ((snapshots h).filter (·.thread = t)).flatMap Snapshot.calls

/-- The calls of `send` by which a thread, or the callback, got a payload to connection `i`. -/
def taken (h : List (ServerCall τ)) (caller : Option τ) (i : Nat) : List (SendCall τ) :=
  (sends h).filter (fun c => c.caller = caller ∧ c.conn = i ∧ c.isOpen = true)

theorem forBroadcasts_append (h h' : List (ServerCall τ)) (t : τ) :
    forBroadcasts (h ++ h') t = forBroadcasts h t ++ forBroadcasts h' t := by
  simp only [forBroadcasts,sends_append,List.filter_append,List.map_append]

theorem planned_append (h h' : List (ServerCall τ)) (t : τ) :
    planned (h ++ h') t = planned h t ++ planned h' t := by
  simp only [planned,snapshots_append,List.filter_append,List.flatMap_append]

theorem taken_append (h h' : List (ServerCall τ)) (caller : Option τ) (i : Nat) :
    taken (h ++ h') caller i = taken h caller i ++ taken h' caller i := by
  simp only [taken,sends_append,List.filter_append]

end TcpServer

end Librim
