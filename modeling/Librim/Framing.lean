import Librim.Window
import Librim.Foundation.SelfDelimiting

set_option autoImplicit false

namespace Librim
open SelfDelimiting

/-- The reference rule for one frame of an unbounded stream: take the header, compute the
total size, refuse it or take that many bytes if they are there. -/
def Framing.cut (f : Framing) (s : List Byte) : Cut :=
  if s.length < f.headerSize then .more
  else
    let t := f.getTotalSize (s.take f.headerSize)
    if t < f.headerSize ∨ f.maxMessageSize < t then .bad
    else if t ≤ s.length then .frame t
    else .more

theorem Framing.cut_eq_bad {f : Framing} {s : List Byte} : f.cut s = .bad ↔
    f.headerSize ≤ s.length ∧ (f.getTotalSize (s.take f.headerSize) < f.headerSize ∨
      f.maxMessageSize < f.getTotalSize (s.take f.headerSize)) := by
  simp only [cut]
  split
  · simp only [reduceCtorEq,false_iff]; omega
  · split
    · simp only [true_iff]; omega
    · split <;> simp only [reduceCtorEq,false_iff] <;> omega

theorem Framing.cut_eq_frame {f : Framing} {s : List Byte} {n : Nat} : f.cut s = .frame n ↔
    f.headerSize ≤ s.length ∧ f.getTotalSize (s.take f.headerSize) = n ∧ f.headerSize ≤ n ∧
      n ≤ f.maxMessageSize ∧ n ≤ s.length := by
  simp only [cut]
  split
  · simp only [reduceCtorEq,false_iff]; omega
  · split
    · simp only [reduceCtorEq,false_iff]; omega
    · split
      · simp only [Cut.frame.injEq]; omega
      · simp only [reduceCtorEq,false_iff]; omega

theorem Framing.cut_lawful {f : Framing} (h : 1 ≤ f.headerSize) : Lawful f.cut where
  nil_more := by simp [cut]; omega
  frame_pos := by
    intro s n hs
    have := cut_eq_frame.mp hs
    omega
  frame_le := by
    intro s n hs
    exact (cut_eq_frame.mp hs).2.2.2.2
  bad_append := by
    intro s t hs
    obtain ⟨hl,hb⟩ := cut_eq_bad.mp hs
    rw [cut_eq_bad, List.take_append_of_le_length hl, List.length_append]
    exact ⟨by omega, hb⟩
  frame_append := by
    intro s n t hs
    obtain ⟨hl,ht,hn⟩ := cut_eq_frame.mp hs
    rw [cut_eq_frame, List.take_append_of_le_length hl, List.length_append]
    exact ⟨by omega, ht, by omega⟩

/-- A payload that is one message of the framing. -/
structure Framing.WellFramed (f : Framing) (payload : List Byte) : Prop where
  header : f.headerSize ≤ payload.length
  size : f.getTotalSize (payload.take f.headerSize) = payload.length
  max : payload.length ≤ f.maxMessageSize

theorem Framing.WellFramed.delimited {f : Framing} {payload : List Byte} (h : f.WellFramed payload) :
    Delimited f.cut payload :=
  Framing.cut_eq_frame.mpr ⟨h.header, h.size, h.header, h.max, Nat.le_refl _⟩

/-- Every message that the framing cuts out of a stream has the size that its own header says. -/
theorem Framing.wellFramed_of_mem {f : Framing} {s m : List Byte} (hm : m ∈ (parse f.cut s).messages) :
    f.WellFramed m := by
  refine parseFuel_messages (P := f.WellFramed) ?_ _ s m hm
  intro s n hcut
  obtain ⟨-,hsize,hheader,hmax,hle⟩ := Framing.cut_eq_frame.mp hcut
  have hlen : (s.take n).length = n := by simp only [List.length_take]; omega
  refine ⟨by omega, ?_, by omega⟩
  rw [List.take_take, Nat.min_eq_left hheader, hlen]
  exact hsize

/-- The loop head of `process_buffer` is the reference rule on the unparsed bytes. -/
def Scan.cut : Scan → Cut
  | .bad => .bad
  | .message n => .frame n
  | .stop => .more

theorem Window.cut_scan (f : Framing) {w : Window} {k : Nat} (hk : k ≤ w.activeBytes)
    (h : w.activeBytes ≤ w.recvBuffer.length) :
    (w.scan f k).cut = f.cut (w.content.drop k) := by
  have hl : (w.content.drop k).length = w.activeBytes-k := by
    rw [List.length_drop, w.length_content h]
  simp only [Window.scan,Framing.cut,sizeSub_of_le hk,hl]
  by_cases hh : f.headerSize ≤ w.activeBytes-k
  · have hlt : ¬ w.activeBytes-k < f.headerSize := by omega
    simp only [if_pos hh,if_neg hlt,Window.span_eq hh]
    split
    · rfl
    · split <;> rfl
  · rw [if_neg hh, if_pos (by omega)]
    rfl

section
variable {κ : Type} {f : Framing} {callback : Callback κ}

/-- What holds at the loop head of `process_buffer`: parsing the unparsed bytes completes
the parse of all the bytes that were in the window when the routine was entered. -/
structure LoopInv (f : Framing) (r₀ r : Receiver κ) (k : Nat) : Prop where
  offset_le : k ≤ r.window.activeBytes
  fits : r.window.activeBytes ≤ r.window.recvBuffer.length
  isOpen : r.isOpen = true
  idle : r.reading = false
  parsed : ∃ ms, r.delivered = r₀.delivered ++ ms ∧
    parse f.cut r₀.window.content = (parse f.cut (r.window.content.drop k)).after ms

/-- What one call of `process_buffer` achieves. -/
structure Processed (f : Framing) (r₀ r : Receiver κ) : Prop where
  delivered : r.delivered = r₀.delivered ++ (parse f.cut r₀.window.content).messages
  isOpen : r.isOpen = !(parse f.cut r₀.window.content).bad
  reading : r.reading = !(parse f.cut r₀.window.content).bad
  content : (parse f.cut r₀.window.content).bad = false →
    r.window.content = (parse f.cut r₀.window.content).rest
  room : r.reading = true → r.window.activeBytes+65536 ≤ r.window.recvBuffer.length

theorem LoopInv.round (hf : 1 ≤ f.headerSize) (hcb : ∀ u m a, .close ∉ (callback u m a).calls)
    {r₀ r : Receiver κ} {k : Nat} {l : Receiver κ × Nat} (h : LoopInv f r₀ r k)
    (hl : processRound f (some callback) (r,k) = .inl l) :
    LoopInv f r₀ l.1 l.2 ∧ l.1.window.activeBytes-l.2 < r.window.activeBytes-k := by
  obtain ⟨hk,hfit,hopen,hidle,ms,hms,hp⟩ := h
  have hscan := r.window.cut_scan f hk hfit
  simp only [processRound] at hl
  split at hl <;> simp only [reduceCtorEq,Sum.inl.injEq] at hl
  rename_i n hn
  rw [hn] at hscan
  have hcut : f.cut (r.window.content.drop k) = .frame n := hscan.symm
  have hc := Framing.cut_eq_frame.mp hcut
  have hlen : (r.window.content.drop k).length = r.window.activeBytes-k := by
    rw [List.length_drop, r.window.length_content hfit]
  rw [hlen] at hc
  subst hl
  set reply := callback r.user (r.window.span k n) none with hreply
  have hspan : (r.window.span k n).length = n := by
    simp only [Window.span,List.length_take,List.length_drop]; omega
  have hrl : reply.span.length = n := by rw [reply.span_length, hspan]
  have hbuf : k+reply.span.length ≤ r.window.recvBuffer.length := by rw [hrl]; omega
  simp only [Receiver.deliver,← hreply]
  refine ⟨⟨?_, ?_, ?_, hidle, ms ++ [r.window.span k n], ?_, ?_⟩, ?_⟩
  · simp only [Window.scribble]; omega
  · simpa only [Window.scribble,length_poke hbuf] using hfit
  · simpa [hreply,hcb] using hopen
  · simp [hms]
  · have hdrop := Window.content_scribble_drop hbuf
    rw [hrl] at hdrop
    rw [hp, parse_frame (Framing.cut_lawful hf) hcut, List.drop_drop, hdrop, Window.span_eq (by omega)]
    simp [Parse.after,Parse.cons]
  · simp only [Window.scribble]; omega

theorem LoopInv.leave {r₀ r' r : Receiver κ} {k : Nat} (h : LoopInv f r₀ r' k)
    (hl : processRound f (some callback) (r',k) = .inr r) : Processed f r₀ r := by
  obtain ⟨hk,hfit,hopen,hidle,ms,hms,hp⟩ := h
  have hscan := r'.window.cut_scan f hk hfit
  simp only [processRound] at hl
  split at hl <;> simp only [reduceCtorEq,Sum.inr.injEq] at hl
  · rename_i hn
    rw [hn] at hscan
    have hcut : f.cut (r'.window.content.drop k) = .bad := hscan.symm
    rw [parse_bad hcut] at hp
    subst hl
    constructor <;> simp_all [Parse.after]
  · rename_i hn
    rw [hn] at hscan
    have hcut : f.cut (r'.window.content.drop k) = .more := hscan.symm
    rw [parse_more hcut] at hp
    subst hl
    have hc := Window.content_startReceive (Window.fits_compact hk hfit)
    rw [Window.content_compact hk hfit] at hc
    constructor
    · simp [hp,hms,Parse.after]
    · simpa [hp,Parse.after] using hopen
    · simp [hp,Parse.after]
    · intro _; simp [hp,hc,Parse.after]
    · intro _; exact Window.room_startReceive _

theorem processBuffer_spec (hf : 1 ≤ f.headerSize)
    (hcb : ∀ u m a, .close ∉ (callback u m a).calls) {r : Receiver κ}
    (hfit : r.window.activeBytes ≤ r.window.recvBuffer.length) (hopen : r.isOpen = true)
    (hidle : r.reading = false) :
    ∃ r', processBuffer f (some callback) r = some r' ∧ Processed f r r' := by
  apply Iteration.iterate_total (fun l => LoopInv f r l.1 l.2)
    (fun l => l.1.window.activeBytes-l.2) (Processed f r)
    (fun _ _ h hl => h.round hf hcb hl) (fun _ _ h hl => h.leave hl)
  · exact ⟨Nat.zero_le _, hfit, hopen, hidle, [], by simp, by simp [Parse.after]⟩
  · simp

/-- The connection has parsed the stream `s`, and no more than it. -/
structure Follows (f : Framing) (s : List Byte) (r : Receiver κ) : Prop where
  delivered : r.delivered = (parse f.cut s).messages
  isOpen : r.isOpen = !(parse f.cut s).bad
  reading : r.reading = !(parse f.cut s).bad
  content : (parse f.cut s).bad = false → r.window.content = (parse f.cut s).rest
  room : r.reading = true → r.window.activeBytes+65536 ≤ r.window.recvBuffer.length

theorem Follows.started (hf : 1 ≤ f.headerSize) (u : κ) : Follows f [] (Receiver.started u) := by
  have hp := parse_nil (Framing.cut_lawful hf)
  have hc : Window.initial.startReceive.content = [] :=
    (Window.content_startReceive (Nat.zero_le _)).trans List.take_zero
  constructor
  · simp [hp,Receiver.started]
  · simp [hp,Receiver.started]
  · simp [hp,Receiver.started]
  · intro _
    simp only [hp,Receiver.started,hc]
  · intro _
    simpa only [Receiver.started] using Window.room_startReceive Window.initial

theorem Follows.offered {s : List Byte} {r : Receiver κ} (h : Follows f s r)
    (hr : r.reading = true) : 65536 ≤ r.window.offered := by
  have hroom := h.room hr
  have hend := Window.active_add_offered (w := r.window) (by omega)
  omega

/-- A read that completes carries the connection from the stream it had parsed to the
stream with the new chunk behind it. -/
theorem Follows.onRead (hf : 1 ≤ f.headerSize) (hcb : ∀ u m a, .close ∉ (callback u m a).calls)
    {s : List Byte} {r : Receiver κ} (h : Follows f s r) (hr : r.reading = true)
    {chunk : List Byte} (hne : chunk ≠ []) (hle : chunk.length ≤ r.window.offered) :
    ∃ r', r.onRead f (some callback) chunk = some r' ∧ Follows f (s ++ chunk) r' := by
  have hbad : (parse f.cut s).bad = false := by simpa [hr] using h.reading
  have hopen : r.isOpen = true := by rw [h.isOpen, hbad]; rfl
  have hroom := h.room hr
  have hend := Window.active_add_offered (w := r.window) (by omega)
  have hfit : r.window.activeBytes+chunk.length ≤ r.window.recvBuffer.length := by omega
  have hpos : 0 < chunk.length := List.length_pos_of_ne_nil hne
  have hcontent : (Window.mk (poke r.window.recvBuffer r.window.activeBytes chunk)
      (r.window.activeBytes+chunk.length)).content = (parse f.cut s).rest ++ chunk := by
    rw [← h.content hbad]
    exact take_poke hfit
  have hparse := parse_append (Framing.cut_lawful hf) s chunk
  rw [hbad] at hparse
  simp only [Bool.false_eq_true,↓reduceIte] at hparse
  rw [← hcontent] at hparse
  simp only [Receiver.onRead,hpos,↓reduceIte]
  obtain ⟨r',hr',hp⟩ := processBuffer_spec hf hcb
    (r := { r with
      window := ⟨poke r.window.recvBuffer r.window.activeBytes chunk,
        r.window.activeBytes+chunk.length⟩
      reading := false })
    (by simp only [length_poke hfit]; exact hfit) hopen rfl
  refine ⟨r', hr', ?_, ?_, ?_, ?_, hp.room⟩
  · rw [hp.delivered, hparse, h.delivered]; rfl
  · rw [hp.isOpen, hparse]; rfl
  · rw [hp.reading, hparse]; rfl
  · intro hb
    rw [hparse] at hb ⊢
    exact hp.content hb

theorem Follows.halted (hf : 1 ≤ f.headerSize) {s : List Byte} {r : Receiver κ}
    (h : Follows f s r) (hr : r.reading = false) (t : List Byte) : Follows f (s ++ t) r := by
  have hbad : (parse f.cut s).bad = true := by simpa [hr] using h.reading
  have hparse := parse_append (Framing.cut_lawful hf) s t
  simp only [hbad,↓reduceIte] at hparse
  constructor
  · rw [hparse, h.delivered]
  · rw [hparse, h.isOpen, hbad]
  · rw [hparse, h.reading, hbad]
  · simp [hparse]
  · exact h.room

theorem Follows.receiveAll (hf : 1 ≤ f.headerSize)
    (hcb : ∀ u m a, .close ∉ (callback u m a).calls) {s : List Byte} {r : Receiver κ}
    (h : Follows f s r) (chunks : List (List Byte)) (ha : Admissible f (some callback) r chunks) :
    ∃ r', receiveAll f (some callback) r chunks = some r' ∧ Follows f (s ++ chunks.flatten) r' := by
  induction chunks generalizing s r with
  | nil => exact ⟨r, rfl, by simpa using h⟩
  | cons chunk chunks ih =>
    cases hr : r.reading with
    | false => exact ⟨r, by simp [Librim.receiveAll,hr], h.halted hf hr _⟩
    | true =>
      obtain ⟨hne,hle,hrest⟩ := ha hr
      obtain ⟨r₁,h₁,hf₁⟩ := h.onRead hf hcb hr hne hle
      obtain ⟨r₂,h₂,hf₂⟩ := ih hf₁ (hrest r₁ h₁)
      refine ⟨r₂, ?_, ?_⟩
      · simp [Librim.receiveAll,hr,h₁,h₂]
      · simpa [List.append_assoc] using hf₂

/-- `start_receive` offers 64 KiB or more, so any cut into smaller pieces can occur. -/
theorem Follows.admissible (hf : 1 ≤ f.headerSize)
    (hcb : ∀ u m a, .close ∉ (callback u m a).calls) {s : List Byte} {r : Receiver κ}
    (h : Follows f s r) (chunks : List (List Byte))
    (hc : ∀ c ∈ chunks, c ≠ [] ∧ c.length ≤ 65536) : Admissible f (some callback) r chunks := by
  induction chunks generalizing s r with
  | nil => trivial
  | cons chunk chunks ih =>
    intro hr
    obtain ⟨hne,hle⟩ := hc chunk (by simp)
    have hoff := Nat.le_trans hle (h.offered hr)
    refine ⟨hne, hoff, ?_⟩
    intro r' hr'
    obtain ⟨r₁,h₁,hf₁⟩ := h.onRead hf hcb hr hne hoff
    rw [h₁] at hr'
    exact Option.some.inj hr' ▸ ih hf₁ (fun c hc' => hc c (by simp [hc']))

end

/-- However the stream is cut into reads, the callback gets the messages of the greedy
parse of the whole stream, the parser closes the connection exactly at a bad header, and
otherwise the window holds the unparsed rest. -/
theorem receiveAll_eq_parse {κ : Type} (f : Framing) (hf : 1 ≤ f.headerSize)
    (callback : Callback κ) (hcb : ∀ u m a, .close ∉ (callback u m a).calls) (u : κ)
    (chunks : List (List Byte))
    (ha : Admissible f (some callback) (Receiver.started u) chunks) :
    ∃ r, receiveAll f (some callback) (Receiver.started u) chunks = some r ∧
      r.delivered = (parse f.cut chunks.flatten).messages ∧
      (r.isOpen = false ↔ (parse f.cut chunks.flatten).bad = true) ∧
      ((parse f.cut chunks.flatten).bad = false →
        r.window.content = (parse f.cut chunks.flatten).rest) := by
  obtain ⟨r,hr,h⟩ := (Follows.started hf u).receiveAll hf hcb chunks ha
  rw [List.nil_append] at h
  refine ⟨r, hr, h.delivered, ?_, h.content⟩
  rw [h.isOpen]
  simp

/-- The framing of the README: four header bytes that hold the total size. -/
def readmeFraming : Framing := ⟨4, 10*1024*1024, be32toh⟩

theorem receiveAll_eq_parse_readme :
    ∃ r, receiveAll readmeFraming (some passive) (Receiver.started ())
        [[0,0,0],[6,1,2,0,0],[0,5,9,0]] = some r ∧
      r.delivered = [[0,0,0,6,1,2],[0,0,0,5,9]] ∧ r.window.content = [0] := by
  have hcb : ∀ u m a, Call.close ∉ (passive u m a).calls := by simp [passive]
  have ha : Admissible readmeFraming (some passive) (Receiver.started ())
      [[0,0,0],[6,1,2,0,0],[0,5,9,0]] :=
    (Follows.started (by decide) ()).admissible (by decide) hcb _ (by simp)
  have hp : parse readmeFraming.cut [[0,0,0],[6,1,2,0,0],[0,5,9,0]].flatten =
      ⟨[[0,0,0,6,1,2],[0,0,0,5,9]], [0], false⟩ := by decide
  obtain ⟨r,hr,hd,-,hc⟩ := receiveAll_eq_parse readmeFraming (by decide) passive hcb () _ ha
  rw [hp] at hd hc
  exact ⟨r, hr, hd, hc rfl⟩

end Librim
