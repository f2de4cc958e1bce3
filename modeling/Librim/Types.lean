import Mathlib.Algebra.Group.Nat.Defs
import Mathlib.Data.List.Basic

set_option autoImplicit false

namespace Librim

abbrev Byte := UInt8

/-- A big-endian number, as the framing lambda of the README decodes it. -/
def be32toh (bs : List Byte) : Nat := bs.foldl (fun n b => n*256+b.toNat) 0

theorem foldl_bytes_lt (bs : List Byte) (n : Nat) :
    bs.foldl (fun n b => n*256+b.toNat) n < (n+1)*256^bs.length := by
  induction bs generalizing n with
  | nil => simp
  | cons b bs ih =>
    have hb := b.toNat_lt
    calc (b :: bs).foldl (fun n b => n*256+b.toNat) n
        < (n*256+b.toNat+1)*256^bs.length := ih _
      _ ≤ ((n+1)*256)*256^bs.length := Nat.mul_le_mul_right _ (by omega)
      _ = (n+1)*256^(b :: bs).length := by rw [List.length_cons, Nat.pow_succ']; ac_rfl

theorem be32toh_lt (bs : List Byte) : be32toh bs < 256^bs.length := by
  simpa [be32toh] using foldl_bytes_lt bs 0

/-- The error codes that the modelled functions compare or return themselves; every other
code of the operating system is `other`. -/
inductive ErrorCode where
  | notConnected
  | badDescriptor
  | hostNotFound
  | addressFamilyNotSupported
  | alreadyOpen
  | operationAborted
  | other
  deriving DecidableEq, Repr

structure Address where
  ip : UInt32
  port : UInt16
  deriving DecidableEq, Repr

/-- `send` has no destination of its own, `send_to` gets one. -/
inductive Target where
  | implicit
  | to (address : Address)
  deriving DecidableEq, Repr

structure Request where
  data : List Byte
  target : Target
  deriving DecidableEq, Repr

/-- What a callback may do to its own endpoint. -/
inductive Call where
  | send (request : Request)
  | close
  deriving DecidableEq, Repr

/-- What a receive callback leaves behind: its own state, the bytes of the span it was
given (it can change them, not their number) and the calls it made on the endpoint. -/
structure Reply (κ : Type) (n : Nat) where
  user : κ
  span : List Byte
  span_length : span.length = n
  calls : List Call

/-- `ReceiveCallback`: the message, and for a datagram its sender. -/
abbrev Callback (κ : Type) := κ → (message : List Byte) → Option Address → Reply κ message.length

/-- The callback leaves the span as it is. -/
@[simps]
def Reply.unchanged {κ : Type} (u : κ) (message : List Byte) (calls : List Call) :
    Reply κ message.length :=
  ⟨u, message, rfl, calls⟩

/-- A callback that does nothing. -/
def passive : Callback Unit := fun _ m _ => .unchanged () m []

/-- The TCP framing parameters, as `TcpClient` and `TcpConnection` store them. -/
structure Framing where
  headerSize : Nat
  maxMessageSize : Nat
  getTotalSize : List Byte → Nat

/-- Subtraction on `std::size_t` wraps around. -/
def sizeSub (a b : Nat) : Nat := if b ≤ a then a-b else a+2^64-b

@[simp] theorem sizeSub_of_le {a b : Nat} (h : b ≤ a) : sizeSub a b = a-b := by simp [sizeSub,h]

end Librim
