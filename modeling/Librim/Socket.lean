import Librim.Types

/-! The socket of an endpoint, and the three set-up calls of `UdpEndpoint`. -/

set_option autoImplicit false

namespace Librim

/-- The socket together with `is_connected_` and `remote_endpoint_`. `conn` counts how often
it was opened and so names the connection, or the descriptor, that is in use. -/
structure Socket where
  isOpen : Bool
  conn : Nat
  isConnected : Bool
  remote : Address
  bound : Option UInt16
  groups : List UInt32
  deriving DecidableEq, Repr

namespace Socket

/-- Constructed without a descriptor. -/
def closed : Socket := ⟨false, 0, false, ⟨0,0⟩, none, []⟩

/-- Handed over by the acceptor. -/
def accepted : Socket := { closed with isOpen := true, conn := 1 }

def close (s : Socket) : Socket := { s with isOpen := false, bound := none, groups := [] }

/-- A new descriptor. -/
def reopen (s : Socket) : Socket :=
  { s with isOpen := true, conn := s.conn+1, bound := none, groups := [] }

end Socket

/-- A parsed address, of which only version 4 is used. -/
inductive GroupAddress where
  | v4 (ip : UInt32)
  | v6
  deriving DecidableEq, Repr

/-- What the system answers to each step of a set-up call. -/
structure Os where
  resolve : Except ErrorCode (List Address)
  makeAddress : Except ErrorCode GroupAddress
  opening : Option ErrorCode
  setOption : Option ErrorCode
  binding : Option ErrorCode
  connecting : Option ErrorCode
  joining : Option ErrorCode

/-- A system that grants everything. -/
def Os.obliging : Os := ⟨.ok [⟨1,2⟩], .ok (.v4 1), none, none, none, none, none⟩

namespace UdpEndpoint

/-- `socket_.open` fails on a socket that is open. -/
def openSocket (os : Os) (s : Socket) : Socket × Option ErrorCode :=
  if s.isOpen then (s, some .alreadyOpen)
  else
    match os.opening with
    | some ec => (s, some ec)
    | none => (s.reopen, none)

/-- The `if (!socket_.is_open())` of `connect` and `join_multicast`. -/
def ensureOpen (os : Os) (s : Socket) : Socket × Option ErrorCode :=
  if s.isOpen then (s, none) else openSocket os s

def bind (port : UInt16) (os : Os) (s : Socket) : Socket × Option ErrorCode :=
  match openSocket os s with
  | (s, some ec) => (s, some ec)
  | (s, none) =>
    match os.binding with
    | some ec => (s, some ec)
    | none => ({ s with bound := some port }, none)

def connect (os : Os) (s : Socket) : Socket × Option ErrorCode :=
  match os.resolve with
  | .error ec => (s, some ec)
  | .ok [] => (s, some .hostNotFound)
  | .ok (address :: _) =>
    match ensureOpen os s with
    | (s, some ec) => (s, some ec)
    | (s, none) =>
      match os.connecting with
      | some ec => (s, some ec)
      | none => ({ s with remote := address, isConnected := true }, none)

def joinMulticast (port : UInt16) (os : Os) (s : Socket) : Socket × Option ErrorCode :=
  match os.makeAddress with
  | .error ec => (s, some ec)
  | .ok .v6 => (s, some .addressFamilyNotSupported)
  | .ok (.v4 group) =>
    match ensureOpen os s with
    | (s, some ec) => (s, some ec)
    | (s, none) =>
      match os.setOption with
      | some ec => (s, some ec)
      | none =>
        match os.binding with
        | some ec => (s, some ec)
        | none =>
          let s := { s with bound := some port }
          match os.joining with
          | some ec => (s, some ec)
          | none => ({ s with groups := s.groups ++ [group] }, none)

inductive Setup where
  | bind (port : UInt16)
  | connect
  | joinMulticast (port : UInt16)
  deriving DecidableEq, Repr

def setup : Setup → Os → Socket → Socket × Option ErrorCode
  | .bind port => bind port
  | .connect => connect
  | .joinMulticast port => joinMulticast port

/-- `t` has the descriptor of `s`, or is the first to open one. -/
def Opened (s t : Socket) : Prop :=
  (t.isOpen = s.isOpen ∧ t.conn = s.conn) ∨
    (s.isOpen = false ∧ t.isOpen = true ∧ t.conn = s.conn+1)

theorem openSocket_opened (os : Os) (s : Socket) : Opened s (openSocket os s).1 := by
  unfold openSocket
  split
  · exact .inl ⟨rfl,rfl⟩
  · rename_i hopen
    split
    · exact .inl ⟨rfl,rfl⟩
    · exact .inr ⟨by simpa using hopen, rfl, rfl⟩

theorem ensureOpen_opened (os : Os) (s : Socket) : Opened s (ensureOpen os s).1 := by
  unfold ensureOpen
  split
  · exact .inl ⟨rfl,rfl⟩
  · exact openSocket_opened os s

theorem bind_opened (port : UInt16) (os : Os) (s : Socket) : Opened s (bind port os s).1 := by
  have h := openSocket_opened os s
  unfold bind
  split
  · rename_i he; rw [he] at h; exact h
  · rename_i he; rw [he] at h
    split <;> exact h

theorem connect_opened (os : Os) (s : Socket) : Opened s (connect os s).1 := by
  have h := ensureOpen_opened os s
  unfold connect
  split
  · exact .inl ⟨rfl,rfl⟩
  · exact .inl ⟨rfl,rfl⟩
  · split
    · rename_i he; rw [he] at h; exact h
    · rename_i he; rw [he] at h
      split <;> exact h

theorem joinMulticast_opened (port : UInt16) (os : Os) (s : Socket) :
    Opened s (joinMulticast port os s).1 := by
  have h := ensureOpen_opened os s
  unfold joinMulticast
  split
  · exact .inl ⟨rfl,rfl⟩
  · exact .inl ⟨rfl,rfl⟩
  · split
    · rename_i he; rw [he] at h; exact h
    · rename_i he; rw [he] at h
      split
      · exact h
      · split
        · exact h
        · simp only
          split <;> exact h

theorem setup_opened (c : Setup) (os : Os) (s : Socket) : Opened s (setup c os s).1 := by
  cases c with
  | bind port => exact bind_opened port os s
  | connect => exact connect_opened os s
  | joinMulticast port => exact joinMulticast_opened port os s

end UdpEndpoint

end Librim
