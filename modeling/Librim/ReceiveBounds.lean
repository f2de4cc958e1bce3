import Librim.RoundTrip

/-! The receive buffer stays small, and `process_buffer` inside it. -/

set_option autoImplicit false

namespace Librim

variable {κ τ : Type}

/-- The largest message, or the header where that is larger. -/
def Framing.reach (f : Framing) : Nat := max f.headerSize f.maxMessageSize

/-- The bytes in the window are bytes of the buffer, and the buffer has its bound. -/
structure Window.Bounded (f : Framing) (w : Window) : Prop where
  active : w.activeBytes ≤ w.recvBuffer.length
  size : w.recvBuffer.length ≤ 65535+max f.reach 1

/-- Less than one message. -/
def Window.Partial (f : Framing) (w : Window) : Prop := w.activeBytes < f.reach ∨ w.activeBytes = 0

def Link.Fits (f : Framing) (w : Window) : Link → Prop
  | .reading r => w.Partial f ∧ r.offset = w.activeBytes ∧ 65536 ≤ r.room ∧
      r.offset+r.room = w.recvBuffer.length
  | .received (.ok n) => w.activeBytes+n ≤ w.recvBuffer.length
  | .received (.error _) => True
  | .scanning k => k ≤ w.activeBytes
  | .resuming => w.Partial f
  | .datagram => False

theorem Window.Bounded.startReceive {f : Framing} {w : Window} (h : w.Bounded f) (hp : w.Partial f) :
    w.startReceive.Bounded f ∧ w.startReceive.activeBytes = w.activeBytes := by
  obtain ⟨hactive,hsize⟩ := h
  unfold Window.startReceive
  split
  · rename_i hlt
    have hlen := length_resize (Nat.le_of_lt hlt)
    refine ⟨⟨?_, ?_⟩, rfl⟩
    · simp only [hlen]; omega
    · simp only [hlen]
      rcases hp with hp | hp <;> omega
  · exact ⟨⟨hactive,hsize⟩, rfl⟩

theorem Window.Partial.fits_reading {f : Framing} {w : Window} (hp : w.Partial f)
    (hroom : w.activeBytes+65536 ≤ w.recvBuffer.length) (conn : Nat) :
    (Link.reading ⟨conn, w.activeBytes, w.offered⟩).Fits f w := by
  have hend := Window.active_add_offered (w := w) (by omega)
  exact ⟨hp, rfl, by simp only; omega, hend⟩

/-- What `start_receive` offers to the read. -/
theorem Window.Bounded.fits_reading {f : Framing} {c : Core κ} (h : c.window.Bounded f)
    (hp : c.window.Partial f) : (Link.reading c.nextRead).Fits f c.window.startReceive := by
  obtain ⟨-,hactive⟩ := h.startReceive hp
  have hpartial : c.window.startReceive.Partial f := by simpa only [Window.Partial,hactive] using hp
  rw [Core.nextRead]
  exact hpartial.fits_reading (Window.room_startReceive c.window) _

/-- The message that the loop head found lies within the received bytes. -/
theorem Window.scan_message_le {f : Framing} {w : Window} {k n : Nat} (hk : k ≤ w.activeBytes)
    (h : w.scan f k = .message n) : k+n ≤ w.activeBytes := by
  simp only [Window.scan,sizeSub_of_le hk] at h
  split at h
  · split at h
    · simp at h
    · split at h
      · simp only [Scan.message.injEq] at h
        omega
      · simp at h
  · simp at h

/-- Where the loop stops, less than one message is left. -/
theorem Window.scan_stop_lt {f : Framing} {w : Window} {k : Nat} (hk : k ≤ w.activeBytes)
    (h : w.scan f k = .stop) : w.activeBytes-k < f.reach := by
  simp only [Window.scan,sizeSub_of_le hk] at h
  split at h
  · split at h
    · simp at h
    · rename_i hsize
      split at h
      · simp at h
      · simp only [Framing.reach]; omega
  · simp only [Framing.reach]; omega

theorem Window.Bounded.compact {f : Framing} {w : Window} (h : w.Bounded f) {k : Nat}
    (hk : k ≤ w.activeBytes) (hscan : w.scan f k = .stop) :
    (w.compact k).Bounded f ∧ (w.compact k).Partial f := by
  have hlt := Window.scan_stop_lt hk hscan
  refine ⟨⟨Window.fits_compact hk h.active, ?_⟩, .inl ?_⟩
  · rw [Window.length_compact hk h.active]
    exact h.size
  · simp only [Window.compact,sizeSub_of_le hk]
    exact hlt

theorem Window.Bounded.scribble {f : Framing} {w : Window} (h : w.Bounded f) {k n : Nat}
    {bytes : List Byte} (hk : k ≤ w.activeBytes) (hscan : w.scan f k = .message n)
    (hbytes : bytes.length = (w.span k n).length) : (w.scribble k bytes).Bounded f := by
  have hle := Window.scan_message_le hk hscan
  have hactive := h.active
  have hspan : (w.span k n).length = n := by
    simp only [Window.span,List.length_take,List.length_drop]; omega
  have hlen : (poke w.recvBuffer k bytes).length = w.recvBuffer.length := length_poke (by omega)
  refine ⟨?_, ?_⟩
  · simp only [Window.scribble,hlen]
    exact hactive
  · simp only [Window.scribble,hlen]
    exact h.size

theorem Window.Bounded.hop {cfg : Config κ} {c c' : Core κ} {ls ls' : List Link}
    (hh : Hop cfg c c' ls ls') (h : c.window.Bounded cfg.framing)
    (hfits : ∀ l ∈ ls, l.Fits cfg.framing c.window)
    (hstart : ls = [] → ls' ≠ [] → c.window.activeBytes = 0) :
    c'.window.Bounded cfg.framing ∧ ∀ l ∈ ls', l.Fits cfg.framing c'.window := by
  have hone : ∀ {l : Link}, l.Fits cfg.framing c'.window → ∀ l' ∈ [l], l'.Fits cfg.framing c'.window := by
    simp
  have hnone : ∀ l ∈ ([] : List Link), l.Fits cfg.framing c'.window := by simp
  cases hh with
  | skip hw _ _ => exact hw ▸ ⟨h,hfits⟩
  | connected _ hw _ _ => exact ⟨hw ▸ h, hone (hw ▸ .inr (hstart rfl (by simp)))⟩
  | started hls hw _ _ =>
    have hp : c.window.Partial cfg.framing := by
      rcases hls with rfl | ⟨rfl,-⟩
      · exact hfits .resuming (by simp)
      · exact .inr (hstart rfl (by simp))
    exact ⟨hw ▸ (h.startReceive hp).1, hone (hw ▸ h.fits_reading hp)⟩
  | @read r data sender _ hlen _ hw _ _ =>
    obtain ⟨-,hoff,-,hroom⟩ := hfits (.reading r) (by simp)
    have hpoke : (poke c.window.recvBuffer r.offset data).length = c.window.recvBuffer.length :=
      length_poke (by omega)
    have hactive := h.active
    refine ⟨hw ▸ ⟨?_, ?_⟩, hone ?_⟩
    · simpa only [hpoke] using hactive
    · simpa only [hpoke] using h.size
    · simp only [Link.Fits,hw,hpoke]; omega
  | failed hw _ _ => exact ⟨hw ▸ h, hone trivial⟩
  | @taken n _ hw _ _ =>
    have hn : c.window.activeBytes+n ≤ c.window.recvBuffer.length := hfits (.received (.ok n)) (by simp)
    exact ⟨hw ▸ ⟨hn,h.size⟩, hone (Nat.zero_le _)⟩
  | dropped _ hw _ _ | broken _ hw _ _ => exact ⟨hw ▸ h, hnone⟩
  | @message k n owner bytes hscan hbytes hw _ _ =>
    have hk : k ≤ c.window.activeBytes := hfits (.scanning k) (by simp)
    have hle : k+n ≤ c.window.activeBytes := Window.scan_message_le hk hscan
    exact ⟨hw ▸ h.scribble hk hscan hbytes, hone (by rw [hw]; exact hle)⟩
  | @unheard k n _ hscan hw _ _ =>
    have hk : k ≤ c.window.activeBytes := hfits (.scanning k) (by simp)
    exact ⟨hw ▸ h, hone (hw ▸ Window.scan_message_le hk hscan)⟩
  | @stopped k hscan hw _ _ =>
    have hk : k ≤ c.window.activeBytes := hfits (.scanning k) (by simp)
    obtain ⟨hb,hp⟩ := h.compact hk hscan
    exact ⟨hw ▸ hb, hone (hw ▸ hp)⟩

theorem bounds_rule (cfg : Config κ) : LoopRule cfg
    (fun c => c.window.Bounded cfg.framing ∧ c.window.activeBytes = 0)
    (fun c l => c.window.Bounded cfg.framing ∧ l.Fits cfg.framing c.window)
    (fun c => c.window.Bounded cfg.framing) where
  initial u := by
    have hlen : (Core.initial cfg.kind u).window.recvBuffer.length = 65536 := List.length_replicate
    exact ⟨⟨Nat.zero_le _, by rw [hlen]; omega⟩, rfl⟩
  skip h hw _ _ := hw ▸ h
  past h := h.1
  hop {c c' ls ls'} hh hat hstart l hl := by
    have hne := List.ne_nil_of_mem hl
    have hb : c.window.Bounded cfg.framing := by
      cases ls with
      | nil => exact (hstart rfl hne).1
      | cons l ls => exact (hat l List.mem_cons_self).1
    obtain ⟨hb',hfits⟩ := hb.hop hh (fun l hl => (hat l hl).2) (fun hnil hne => (hstart hnil hne).2)
    exact ⟨hb', hfits l hl⟩
  ended {c c' ls} hh hat hover := by
    have hb : c.window.Bounded cfg.framing := by
      cases ls with
      | nil => exact hover rfl
      | cons l ls => exact (hat l List.mem_cons_self).1
    exact (hb.hop hh (fun l hl => (hat l hl).2) (fun _ hne => absurd rfl hne)).1

/-- What is asked of the buffer, of a read that is outstanding, and of `process_buffer` at the
offset `currentOffset`: no subtraction wraps, and the header, the message and the bytes
that are moved are received bytes. -/
structure Endpoint.InBounds (f : Framing) (s : Endpoint κ τ) : Prop where
  active : s.window.activeBytes ≤ s.window.recvBuffer.length
  size : s.window.recvBuffer.length ≤ 65535+max (max f.headerSize f.maxMessageSize) 1
  reading : ∀ r ∈ s.reads, r.offset = s.window.activeBytes ∧
    (r.offset < max f.headerSize f.maxMessageSize ∨ r.offset = 0) ∧ 65536 ≤ r.room ∧
    r.offset+r.room = s.window.recvBuffer.length
  offset : ∀ owner currentOffset, .scan owner currentOffset ∈ s.running.acts →
    currentOffset ≤ s.window.activeBytes
  subtraction : ∀ owner currentOffset, .scan owner currentOffset ∈ s.running.acts →
    currentOffset+sizeSub s.window.activeBytes currentOffset = s.window.activeBytes
  header : ∀ owner currentOffset, .scan owner currentOffset ∈ s.running.acts →
    f.headerSize ≤ sizeSub s.window.activeBytes currentOffset →
    currentOffset+f.headerSize ≤ s.window.activeBytes
  message : ∀ owner currentOffset totalSize, .scan owner currentOffset ∈ s.running.acts →
    s.window.scan f currentOffset = .message totalSize → currentOffset+totalSize ≤ s.window.activeBytes

/-- Every state of an accepted connection, and of a client that was connected once. -/
theorem Endpoint.receive_in_bounds [DecidableEq τ] (cfg : Config κ) (hk : cfg.kind ≠ .udpEndpoint)
    (s : Endpoint κ τ) (h : Reached cfg s)
    (honce : cfg.kind = .tcpClient → (connections s.log).length ≤ 1) : s.InBounds cfg.framing := by
  have hloop := (bounds_rule cfg).reached hk h honce
  have hbounded : s.window.Bounded cfg.framing := by
    cases hl : s.toCore.links s.notices with
    | nil => exact hloop.after hl
    | cons l ls => exact (hloop.places l (by simp [hl])).1
  have hscan : ∀ owner k, .scan owner k ∈ s.running.acts → k ≤ s.window.activeBytes := by
    intro owner k hm
    refine (hloop.places (.scanning k) ?_).2
    exact List.mem_append_right _ (List.mem_filterMap.mpr ⟨_,hm,rfl⟩)
  refine ⟨hbounded.active, hbounded.size, fun r hr => ?_, hscan, fun owner k hm => ?_,
    fun owner k hm hh => ?_, ?_⟩
  · have hmem : Link.reading r ∈ s.toCore.links s.notices :=
      List.mem_append_left _ (List.mem_append_left _ (List.mem_map_of_mem hr))
    obtain ⟨hp,hoff,hroom,hsum⟩ := (hloop.places _ hmem).2
    refine ⟨hoff, ?_, hroom, hsum⟩
    rw [hoff]
    exact hp
  · have hle := hscan owner k hm
    rw [sizeSub_of_le hle]
    omega
  · have hle := hscan owner k hm
    rw [sizeSub_of_le hle] at hh
    omega
  · exact fun owner k n hm => Window.scan_message_le (hscan owner k hm)

open Net (listening)

/-- A message and the beginning of another; the loop of `process_buffer` has passed on the message. -/
def Endpoint.halfway : List (Event Unit) := [.read 0 [0,0,0,5,9,0,0,0] ⟨0,0⟩, .run, .act true]

theorem Endpoint.receive_in_bounds_halfway : ∃ s : Endpoint Unit Unit,
    Transition.run (step (listening .tcpConnection)) (initial .tcpConnection ()) ([.start, .start] ++ halfway) = some s ∧
    Reached (listening .tcpConnection) s ∧ s.running = .program [.scan 1 5] ∧ s.window.activeBytes = 8 ∧
    s.InBounds readmeFraming := by
  have hrun : (Transition.run (step (listening .tcpConnection)) startedConnection halfway).map
      (fun s => (s.running, s.window.activeBytes)) = some (.program [.scan 1 5], 8) := by decide +kernel
  obtain ⟨s,hs,hv⟩ := Option.map_eq_some_iff.mp hrun
  obtain ⟨hrunning,hactive⟩ := Prod.mk.inj hv
  have hfirst := Transition.run_trans (run_start (listening .tcpConnection) rfl rfl) hs
  have hreach : Reached (listening .tcpConnection) s := reached_of_run hfirst
  exact ⟨s, hfirst, hreach, hrunning, hactive, receive_in_bounds (listening .tcpConnection) (by decide) s hreach
    (by simp [listening,Config.bare])⟩

end Librim
