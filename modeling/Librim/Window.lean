import Librim.Types
import Librim.Foundation.Iteration

/-! The receive half that `TcpClient` and `TcpConnection` share word for word: the sliding
window `recv_buffer_`/`active_bytes_`, `start_receive` and `process_buffer`. -/

set_option autoImplicit false

namespace Librim

/-- `std::vector<char>::resize`: new elements are zero. -/
def resize (buf : List Byte) (n : Nat) : List Byte := buf.take n ++ List.replicate (n-buf.length) 0

/-- The bytes `bs` written over the buffer from position `pos` on. -/
def poke (buf : List Byte) (pos : Nat) (bs : List Byte) : List Byte :=
  buf.take pos ++ bs ++ buf.drop (pos+bs.length)

def memmove (buf : List Byte) (dst src n : Nat) : List Byte := poke buf dst ((buf.drop src).take n)

theorem length_resize {buf : List Byte} {n : Nat} (h : buf.length ≤ n) : (resize buf n).length = n := by
  simp only [resize,List.length_append,List.length_take,List.length_replicate]; omega

theorem take_resize {buf : List Byte} {n k : Nat} (h : buf.length ≤ n) (hk : k ≤ buf.length) :
    (resize buf n).take k = buf.take k := by
  simp only [resize]
  rw [List.take_append_of_le_length (by simp only [List.length_take]; omega), List.take_take]
  congr 1; omega

theorem length_poke {buf bs : List Byte} {pos : Nat} (h : pos+bs.length ≤ buf.length) :
    (poke buf pos bs).length = buf.length := by
  simp only [poke,List.length_append,List.length_take,List.length_drop]; omega

theorem drop_poke {buf bs : List Byte} {pos k : Nat} (h : pos+bs.length ≤ buf.length)
    (hk : pos+bs.length ≤ k) : (poke buf pos bs).drop k = buf.drop k := by
  have hl : (buf.take pos ++ bs).length = pos+bs.length := by
    simp only [List.length_append,List.length_take]; omega
  rw [poke, List.drop_append, List.drop_eq_nil_of_le (by omega), List.nil_append, List.drop_drop]
  congr 1; omega

theorem take_poke {buf bs : List Byte} {pos : Nat} (h : pos+bs.length ≤ buf.length) :
    (poke buf pos bs).take (pos+bs.length) = buf.take pos ++ bs := by
  have hl : (buf.take pos ++ bs).length = pos+bs.length := by
    simp only [List.length_append,List.length_take]; omega
  rw [poke, ← hl, List.take_left]

structure Window where
  recvBuffer : List Byte
  activeBytes : Nat
  deriving DecidableEq, Repr

/-- The constructors resize the buffer to 64 KiB. -/
def Window.initial : Window := ⟨List.replicate 65536 0, 0⟩

/-- `recv_buffer_[0, active_bytes_)`. -/
def Window.content (w : Window) : List Byte := w.recvBuffer.take w.activeBytes

/-- The span of `n` bytes from `offset` on. -/
def Window.span (w : Window) (offset n : Nat) : List Byte := (w.recvBuffer.drop offset).take n

/-- The space check at the head of `start_receive`. -/
def Window.startReceive (w : Window) : Window :=
  if w.recvBuffer.length < w.activeBytes+65536 then
    { w with recvBuffer := resize w.recvBuffer (w.activeBytes+65536) }
  else w

/-- The length of the buffer that `start_receive` offers to `async_read_some`. -/
def Window.offered (w : Window) : Nat := sizeSub w.recvBuffer.length w.activeBytes

/-- What one pass through the loop head of `process_buffer` decides. -/
inductive Scan where
  | bad
  | message (totalSize : Nat)
  | stop
  deriving DecidableEq, Repr

def Window.scan (f : Framing) (w : Window) (currentOffset : Nat) : Scan :=
  if f.headerSize ≤ sizeSub w.activeBytes currentOffset then
    let totalSize := f.getTotalSize (w.span currentOffset f.headerSize)
    if totalSize < f.headerSize ∨ f.maxMessageSize < totalSize then .bad
    else if totalSize ≤ sizeSub w.activeBytes currentOffset then .message totalSize
    else .stop
  else .stop

/-- What a callback wrote into the span it was given at `offset`. -/
def Window.scribble (w : Window) (offset : Nat) (bs : List Byte) : Window :=
  { w with recvBuffer := poke w.recvBuffer offset bs }

/-- The lines after the loop: the unparsed bytes move to the front. -/
def Window.compact (w : Window) (currentOffset : Nat) : Window :=
  let unparsedBytes := sizeSub w.activeBytes currentOffset
  { recvBuffer :=
      if 0 < unparsedBytes ∧ 0 < currentOffset then memmove w.recvBuffer 0 currentOffset unparsedBytes
      else w.recvBuffer
    activeBytes := unparsedBytes }

theorem Window.content_drop (w : Window) (k : Nat) :
    w.content.drop k = (w.recvBuffer.drop k).take (w.activeBytes-k) := by
  rw [content, List.drop_take]

theorem Window.length_content {w : Window} (h : w.activeBytes ≤ w.recvBuffer.length) :
    w.content.length = w.activeBytes := by
  simp only [content,List.length_take]; omega

theorem Window.content_startReceive {w : Window} (h : w.activeBytes ≤ w.recvBuffer.length) :
    w.startReceive.content = w.content := by
  unfold startReceive
  split
  · rename_i hlt
    exact take_resize (by omega) h
  · rfl

theorem Window.room_startReceive (w : Window) :
    w.startReceive.activeBytes+65536 ≤ w.startReceive.recvBuffer.length := by
  unfold startReceive
  split
  · rename_i hlt
    simp only [length_resize (Nat.le_of_lt hlt)]; omega
  · omega

theorem Window.active_add_offered {w : Window} (h : w.activeBytes ≤ w.recvBuffer.length) :
    w.activeBytes+w.offered = w.recvBuffer.length := by
  rw [offered, sizeSub_of_le h]; omega

theorem Window.startReceive_initial : Window.initial.startReceive = Window.initial := by
  have hsize : Window.initial.recvBuffer.length = 65536 := List.length_replicate ..
  have hactive : Window.initial.activeBytes = 0 := rfl
  rw [startReceive, if_neg (by omega)]

theorem Window.offered_initial : Window.initial.offered = 65536 := by
  have hsize : Window.initial.recvBuffer.length = 65536 := List.length_replicate ..
  have hactive : Window.initial.activeBytes = 0 := rfl
  rw [offered, hsize, hactive, sizeSub_of_le (Nat.zero_le _)]

theorem Window.content_compact {w : Window} {k : Nat} (hk : k ≤ w.activeBytes)
    (h : w.activeBytes ≤ w.recvBuffer.length) :
    (w.compact k).content = w.content.drop k := by
  have hl : ((w.recvBuffer.drop k).take (w.activeBytes-k)).length = w.activeBytes-k := by
    simp only [List.length_take,List.length_drop]; omega
  rw [content_drop]
  simp only [compact,content,sizeSub_of_le hk]
  split
  · simp only [memmove,poke,List.take_zero,List.nil_append]
    rw [List.take_append_of_le_length (by omega), List.take_of_length_le (by omega)]
  · rename_i hc
    by_cases hz : k = 0
    · simp [hz]
    · have he : w.activeBytes-k = 0 := by omega
      simp [he]

theorem Window.length_compact {w : Window} {k : Nat} (hk : k ≤ w.activeBytes)
    (h : w.activeBytes ≤ w.recvBuffer.length) :
    (w.compact k).recvBuffer.length = w.recvBuffer.length := by
  simp only [compact,sizeSub_of_le hk]
  split
  · rw [memmove, length_poke]
    simp only [List.length_take,List.length_drop]; omega
  · rfl

theorem Window.fits_compact {w : Window} {k : Nat} (hk : k ≤ w.activeBytes)
    (h : w.activeBytes ≤ w.recvBuffer.length) :
    (w.compact k).activeBytes ≤ (w.compact k).recvBuffer.length := by
  rw [length_compact hk h]
  simp only [compact,sizeSub_of_le hk]; omega

/-- A callback that writes into its own span leaves the bytes behind it alone. -/
theorem Window.content_scribble_drop {w : Window} {offset : Nat} {bs : List Byte}
    (h : offset+bs.length ≤ w.recvBuffer.length) :
    (w.scribble offset bs).content.drop (offset+bs.length) = w.content.drop (offset+bs.length) := by
  rw [content_drop, content_drop]
  simp only [scribble]
  rw [drop_poke h (Nat.le_refl _)]

/-- One pass of the loop looks at exactly the unparsed bytes. -/
theorem Window.span_eq {w : Window} {k n : Nat} (hn : n ≤ w.activeBytes-k) :
    w.span k n = (w.content.drop k).take n := by
  rw [content_drop, span, List.take_take]
  congr 1; omega

/-- The state that the strand handlers of one connection work on. `reading` says that an
`async_read_some` is outstanding; `delivered` is the history of callback calls. -/
structure Receiver (κ : Type) where
  window : Window
  user : κ
  isOpen : Bool
  reading : Bool
  delivered : List (List Byte)

section
variable {κ : Type}

/-- After `start()` of a `TcpConnection`, or the connect handler of a `TcpClient`. -/
def Receiver.started (u : κ) : Receiver κ :=
  ⟨Window.initial.startReceive, u, true, true, []⟩

/-- The call of the receive callback on the message of `n` bytes at `offset`. -/
def Receiver.deliver (onRecv : Option (Callback κ)) (r : Receiver κ) (offset n : Nat) : Receiver κ :=
  match onRecv with
  | none => r
  | some callback =>
    let message := r.window.span offset n
    let reply := callback r.user message none
    { window := r.window.scribble offset reply.span
      user := reply.user
      isOpen := r.isOpen && !reply.calls.contains .close
      reading := r.reading
      delivered := r.delivered ++ [message] }

/-- One round of the loop of `process_buffer`, or one of its two ways out. -/
def processRound (f : Framing) (onRecv : Option (Callback κ)) :
    Receiver κ × Nat → (Receiver κ × Nat) ⊕ Receiver κ
  | (r, currentOffset) =>
    match r.window.scan f currentOffset with
    | .bad => .inr { r with isOpen := false }
    | .message totalSize => .inl (r.deliver onRecv currentOffset totalSize, currentOffset+totalSize)
    | .stop =>
      .inr { r with window := (r.window.compact currentOffset).startReceive, reading := true }

/-- `none` if the loop has not ended after `active_bytes_ + 1` rounds. -/
def processBuffer (f : Framing) (onRecv : Option (Callback κ)) (r : Receiver κ) :
    Option (Receiver κ) :=
  Iteration.iterate (processRound f onRecv) (r.window.activeBytes+1) (r, 0)

/-- The completion handler of `async_read_some` on a successful read of `chunk`. -/
def Receiver.onRead (f : Framing) (onRecv : Option (Callback κ)) (r : Receiver κ)
    (chunk : List Byte) : Option (Receiver κ) :=
  if 0 < chunk.length then
    processBuffer f onRecv
      { r with
        window := ⟨poke r.window.recvBuffer r.window.activeBytes chunk,
          r.window.activeBytes+chunk.length⟩
        reading := false }
  else some { r with isOpen := false, reading := false }

/-- Successive reads, for as long as a read is outstanding. -/
def receiveAll (f : Framing) (onRecv : Option (Callback κ)) :
    Receiver κ → List (List Byte) → Option (Receiver κ)
  | r, [] => some r
  | r, chunk :: chunks =>
    if r.reading then (r.onRead f onRecv chunk).bind (fun r' => receiveAll f onRecv r' chunks)
    else some r

/-- The chunks are what successive reads can return: not empty, and no longer than the
space offered at that moment. -/
def Admissible (f : Framing) (onRecv : Option (Callback κ)) :
    Receiver κ → List (List Byte) → Prop
  | _, [] => True
  | r, chunk :: chunks =>
    r.reading = true → chunk ≠ [] ∧ chunk.length ≤ r.window.offered ∧
      ∀ r', r.onRead f onRecv chunk = some r' → Admissible f onRecv r' chunks

end

end Librim
