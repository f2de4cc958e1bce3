import Librim.ReceiveLoop
import Librim.Framing

/-! Wherever the receive loop of a TCP endpoint stands, the window and the callbacks made so
far are those of the greedy parse of the bytes that have arrived. -/

set_option autoImplicit false

namespace Librim

open SelfDelimiting

variable {κ τ : Type}

/-- The bytes that reads have brought. -/
def Core.stream (c : Core κ) : List Byte := c.arrived.flatMap Arrival.data

/-- All that has arrived is parsed: the callback had the messages, the window has the rest. -/
structure Parsed (f : Framing) (c : Core κ) : Prop where
  delivered : callbacks c.log = (parse f.cut c.stream).messages
  good : (parse f.cut c.stream).bad = false
  content : c.window.content = (parse f.cut c.stream).rest
  fits : c.window.activeBytes ≤ c.window.recvBuffer.length

def Link.Holds (f : Framing) (c : Core κ) : Link → Prop
  | .reading r => Parsed f c ∧ r.offset = c.window.activeBytes ∧
      c.window.activeBytes+r.room ≤ c.window.recvBuffer.length
  | .received (.ok n) => 0 < n ∧ c.window.activeBytes+n ≤ c.window.recvBuffer.length ∧
      parse f.cut c.stream =
        (parse f.cut (c.window.recvBuffer.take (c.window.activeBytes+n))).after (callbacks c.log)
  | .received (.error _) => callbacks c.log = (parse f.cut c.stream).messages
  | .scanning k => k ≤ c.window.activeBytes ∧ c.window.activeBytes ≤ c.window.recvBuffer.length ∧
      parse f.cut c.stream = (parse f.cut (c.window.content.drop k)).after (callbacks c.log)
  | .resuming => Parsed f c
  | .datagram => False

structure Chain (kind : Kind) (f : Framing) (c : Core κ) (ns : List Notice) : Prop where
  before : ¬ Begun kind c → c.links ns = [] ∧ Parsed f c
  single : (c.links ns).length ≤ 1
  holds : ∀ l ∈ c.links ns, l.Holds f c
  after : c.links ns = [] → callbacks c.log = (parse f.cut c.stream).messages

/-- The window and the callbacks are where the loop should have brought them. -/
structure Followed (f : Framing) (c : Core κ) (ns : List Notice) : Prop where
  holds : ∀ l ∈ c.links ns, l.Holds f c
  after : c.links ns = [] → callbacks c.log = (parse f.cut c.stream).messages

theorem Chain.followed {kind : Kind} {f : Framing} {c : Core κ} {ns : List Notice}
    (h : Chain kind f c ns) : Followed f c ns := ⟨h.holds, h.after⟩

theorem Parsed.congr {f : Framing} {c c' : Core κ} (h : Parsed f c) (hw : c'.window = c.window)
    (ha : c'.arrived = c.arrived) (hl : callbacks c'.log = callbacks c.log) : Parsed f c' := by
  have hs : c'.stream = c.stream := by simp only [Core.stream,ha]
  exact ⟨by rw [hl, hs]; exact h.delivered, by rw [hs]; exact h.good,
    by rw [hw, hs]; exact h.content, by rw [hw]; exact h.fits⟩

theorem Link.Holds.congr {f : Framing} {c c' : Core κ} {l : Link} (h : l.Holds f c)
    (hw : c'.window = c.window) (ha : c'.arrived = c.arrived)
    (hl : callbacks c'.log = callbacks c.log) : l.Holds f c' := by
  have hs : c'.stream = c.stream := by simp only [Core.stream,ha]
  cases l with
  | reading r => exact ⟨h.1.congr hw ha hl, by rw [hw]; exact h.2⟩
  | received result =>
    cases result with
    | ok n =>
      simp only [Holds,hw,hs,hl] at h ⊢
      exact h
    | error ec =>
      simp only [Holds,hs,hl] at h ⊢
      exact h
  | scanning k =>
    simp only [Holds,hw,hs,hl] at h ⊢
    exact h
  | resuming => exact Parsed.congr h hw ha hl
  | datagram => exact h

/-- The callback never gets more than the parse of what has arrived. -/
theorem Followed.parse_extends {f : Framing} {c : Core κ} {ns : List Notice}
    (h : Followed f c ns) : callbacks c.log <+: (parse f.cut c.stream).messages := by
  cases hlinks : c.links ns with
  | nil => rw [h.after hlinks]
  | cons l ls =>
    have hl := h.holds l (by simp [hlinks])
    cases l with
    | reading r => rw [hl.1.delivered]
    | received result =>
      cases result with
      | ok n =>
        rw [hl.2.2]
        exact List.prefix_append _ _
      | error ec =>
        have hl' : callbacks c.log = (parse f.cut c.stream).messages := hl
        rw [hl']
    | scanning k =>
      rw [hl.2.2]
      exact List.prefix_append _ _
    | resuming =>
      have hl' : Parsed f c := hl
      rw [hl'.delivered]
    | datagram => exact absurd hl id

theorem Parsed.reading {f : Framing} {c : Core κ} (h : Parsed f c) (conn : Nat) :
    (Link.reading ⟨conn, c.window.activeBytes, c.window.offered⟩).Holds f c :=
  ⟨h, rfl, Nat.le_of_eq (Window.active_add_offered h.fits)⟩

/-- `start_receive` leaves the window with room behind its contents and reads into it. -/
theorem Parsed.startReceive {f : Framing} {c c' : Core κ} (h : Parsed f c)
    (hw : c'.window = c.window.startReceive) (ha : c'.arrived = c.arrived)
    (hl : callbacks c'.log = callbacks c.log) : (Link.reading c.nextRead).Holds f c' := by
  have hroom := Window.room_startReceive c.window
  have hs : c'.stream = c.stream := by simp only [Core.stream,ha]
  have hparsed : Parsed f c' := by
    refine ⟨by rw [hl, hs]; exact h.delivered, by rw [hs]; exact h.good, ?_, by rw [hw]; omega⟩
    rw [hw, hs]
    exact (Window.content_startReceive h.fits).trans h.content
  rw [Core.nextRead, ← hw]
  exact hparsed.reading c.descriptor

/-- A chunk comes in behind the contents of the window. -/
theorem Parsed.read {f : Framing} (hf : 1 ≤ f.headerSize) {c c' : Core κ} {data : List Byte}
    (h : Parsed f c) (hfit : c.window.activeBytes+data.length ≤ c.window.recvBuffer.length)
    (hne : data ≠ [])
    (hw : c'.window = ⟨poke c.window.recvBuffer c.window.activeBytes data, c.window.activeBytes⟩)
    (ha : c'.stream = c.stream ++ data) (hl : c'.log = c.log) :
    (Link.received (.ok data.length)).Holds f c' := by
  refine ⟨List.length_pos_of_ne_nil hne, ?_, ?_⟩
  · rw [hw]
    simpa only [length_poke hfit] using hfit
  · have hcontent : c.window.recvBuffer.take c.window.activeBytes = (parse f.cut c.stream).rest := h.content
    rw [hw, hl, ha, parse_append (Framing.cut_lawful hf), h.good, h.delivered, take_poke hfit, hcontent]
    simp

/-- The completion handler takes the chunk into the window. -/
theorem Link.Holds.received {f : Framing} {c c' : Core κ} {n : Nat}
    (h : (Link.received (.ok n)).Holds f c)
    (hw : c'.window = { c.window with activeBytes := c.window.activeBytes+n })
    (ha : c'.arrived = c.arrived) (hl : c'.log = c.log) : (Link.scanning 0).Holds f c' := by
  obtain ⟨-,hfit,hparse⟩ := h
  have hs : c'.stream = c.stream := by simp only [Core.stream,ha]
  refine ⟨Nat.zero_le _, by rw [hw]; exact hfit, ?_⟩
  rw [hw, hs, hl, List.drop_zero]
  exact hparse

/-- One message goes to the callback and the loop gets on behind it. -/
theorem Link.Holds.message {f : Framing} (hf : 1 ≤ f.headerSize) {c c' : Core κ} {k n : Nat}
    {bytes : List Byte} (h : (Link.scanning k).Holds f c) (hscan : c.window.scan f k = .message n)
    (hbytes : bytes.length = (c.window.span k n).length) (hw : c'.window = c.window.scribble k bytes)
    (ha : c'.arrived = c.arrived)
    (hl : callbacks c'.log = callbacks c.log ++ [c.window.span k n]) :
    (Link.scanning (k+n)).Holds f c' := by
  obtain ⟨hk,hfit,hparse⟩ := h
  have hs : c'.stream = c.stream := by simp only [Core.stream,ha]
  have hcut : f.cut (c.window.content.drop k) = .frame n := by
    rw [← Window.cut_scan f hk hfit, hscan]
    rfl
  have hc := Framing.cut_eq_frame.mp hcut
  have hlen : (c.window.content.drop k).length = c.window.activeBytes-k := by
    rw [List.length_drop, c.window.length_content hfit]
  rw [hlen] at hc
  have hspan : (c.window.span k n).length = n := by
    simp only [Window.span,List.length_take,List.length_drop]; omega
  have hbuf : k+bytes.length ≤ c.window.recvBuffer.length := by omega
  have hdrop := Window.content_scribble_drop hbuf
  rw [hbytes, hspan] at hdrop
  refine ⟨?_, ?_, ?_⟩
  · rw [hw]; simp only [Window.scribble]; omega
  · rw [hw]; simpa only [Window.scribble,length_poke hbuf] using hfit
  · rw [hw, hs, hl, hdrop, hparse, parse_frame (Framing.cut_lawful hf) hcut, List.drop_drop,
      Window.span_eq (by omega)]
    simp [Parse.after,Parse.cons]

/-- No further message is complete: the rest stays in the window. -/
theorem Link.Holds.stop {f : Framing} {c c' : Core κ} {k : Nat} (h : (Link.scanning k).Holds f c)
    (hscan : c.window.scan f k = .stop) (hw : c'.window = c.window.compact k)
    (ha : c'.arrived = c.arrived) (hl : callbacks c'.log = callbacks c.log) : Parsed f c' := by
  obtain ⟨hk,hfit,hparse⟩ := h
  have hs : c'.stream = c.stream := by simp only [Core.stream,ha]
  have hcut : f.cut (c.window.content.drop k) = .more := by
    rw [← Window.cut_scan f hk hfit, hscan]
    rfl
  rw [parse_more hcut] at hparse
  refine ⟨?_, ?_, ?_, ?_⟩
  · rw [hl, hs, hparse]; simp [Parse.after]
  · rw [hs, hparse]; rfl
  · rw [hw, hs, hparse, Window.content_compact hk hfit]; rfl
  · rw [hw]; exact Window.fits_compact hk hfit

/-- A bad header ends the parse as well. -/
theorem Link.Holds.bad {f : Framing} {c : Core κ} {k : Nat} (h : (Link.scanning k).Holds f c)
    (hscan : c.window.scan f k = .bad) : callbacks c.log = (parse f.cut c.stream).messages := by
  obtain ⟨hk,hfit,hparse⟩ := h
  have hcut : f.cut (c.window.content.drop k) = .bad := by
    rw [← Window.cut_scan f hk hfit, hscan]
    rfl
  rw [hparse, parse_bad hcut]
  simp [Parse.after]

/-- The place that the loop comes to. -/
theorem Link.Holds.hop {cfg : Config κ} (hf : 1 ≤ cfg.framing.headerSize)
    (hcb : cfg.onRecv.isSome = true) {c c' : Core κ} {ls ls' : List Link}
    (hh : Hop cfg c c' ls ls') (h : ∀ l ∈ ls, l.Holds cfg.framing c)
    (hstart : ls = [] → ls' ≠ [] → Parsed cfg.framing c) : ∀ l ∈ ls', l.Holds cfg.framing c' := by
  have hone : ∀ {l : Link}, l.Holds cfg.framing c' → ∀ l' ∈ [l], l'.Holds cfg.framing c' := by
    simp
  cases hh with
  | skip hw ha hl => exact fun l hm => (h l hm).congr hw ha hl.callbacks
  | connected _ hw ha hl =>
    refine hone (Parsed.congr (hstart rfl (by simp)) hw ha ?_)
    rw [hl, callbacks_append]
    simp [Obs.message]
  | started hls hw ha hl =>
    have hp : Parsed cfg.framing c := by
      rcases hls with rfl | ⟨rfl,-⟩
      · exact h .resuming (by simp)
      · exact hstart rfl (by simp)
    exact hone (hp.startReceive hw ha hl.callbacks)
  | @read r data sender _ hlen hne hw ha hl =>
    obtain ⟨hp,hoff,hroom⟩ := h (.reading r) (by simp)
    refine hone (hp.read hf (by omega) hne (by rw [hw, hoff]) ?_ hl)
    simp [Core.stream,ha]
  | @failed r ec hw ha hl =>
    obtain ⟨hp,-,-⟩ := h (.reading r) (by simp)
    exact hone (hp.congr hw ha (by rw [hl])).delivered
  | taken _ hw ha hl => exact hone ((h _ (by simp)).received hw ha hl)
  | dropped _ _ _ _ | broken _ _ _ _ => simp
  | @message k n owner bytes hscan hbytes hw ha hl =>
    refine hone ((h (.scanning k) (by simp)).message hf hscan hbytes hw ha ?_)
    rw [hl, callbacks_append]
    rfl
  | unheard hnone _ _ _ _ => simp [hnone] at hcb
  | @stopped k hscan hw ha hl => exact hone ((h (.scanning k) (by simp)).stop hscan hw ha (by rw [hl]))

/-- Where the loop ends, or is not there. -/
theorem Hop.after {cfg : Config κ} {c c' : Core κ} {ls : List Link} (hh : Hop cfg c c' ls [])
    (h : ∀ l ∈ ls, l.Holds cfg.framing c)
    (hend : ls = [] → callbacks c.log = (parse cfg.framing.cut c.stream).messages) :
    callbacks c'.log = (parse cfg.framing.cut c'.stream).messages := by
  cases hh with
  | skip _ ha hl =>
    rw [hl.callbacks, Core.stream, ha]
    exact hend rfl
  | @dropped result hzero _ ha hl =>
    rw [hl, Core.stream, ha]
    cases result with
    | error ec => exact h (.received (.error ec)) (by simp)
    | ok n =>
      have hpos := (h (.received (.ok n)) (by simp)).1
      have := hzero n rfl
      omega
  | @broken k hscan _ ha hl =>
    rw [hl, Core.stream, ha]
    exact (h (.scanning k) (by simp)).bad hscan

/-- Once the chunks that were read are processed, the callback has had every message. -/
theorem Followed.callbacks_eq {f : Framing} {c : Core κ} {ns : List Notice}
    (h : Followed f c ns) (hns : ∀ r n, .received r (.ok n) ∉ ns)
    (hacts : ∀ owner k, .scan owner k ∉ c.running.acts) :
    callbacks c.log = (parse f.cut c.stream).messages := by
  cases hlinks : c.links ns with
  | nil => exact h.after hlinks
  | cons l ls =>
    have hmem : l ∈ c.links ns := by simp [hlinks]
    have hl := h.holds l hmem
    simp only [Core.links,List.mem_append,List.mem_map,List.mem_filterMap] at hmem
    cases l with
    | reading r => exact hl.1.delivered
    | received result =>
      cases result with
      | error ec => exact hl
      | ok n =>
        rcases hmem with (⟨r,-,hr⟩ | ⟨x,hx,hlink⟩) | ⟨a,-,hlink⟩
        · simp at hr
        · cases x with
          | received r result =>
            simp only [Notice.link,Option.some.injEq,Link.received.injEq] at hlink
            exact absurd (hlink ▸ hx) (hns r n)
          | _ => simp [Notice.link] at hlink
        · cases a <;> simp [Act.link] at hlink
    | scanning k =>
      rcases hmem with (⟨r,-,hr⟩ | ⟨x,-,hlink⟩) | ⟨a,ha,hlink⟩
      · simp at hr
      · cases x <;> simp [Notice.link] at hlink
      · cases a with
        | scan owner k' => exact absurd ha (hacts owner k')
        | _ => simp [Act.link] at hlink
    | resuming => exact Parsed.delivered hl
    | datagram => exact absurd hl id

/-- Every chunk that was read has been processed. -/
structure Endpoint.Settled (s : Endpoint κ τ) : Prop where
  notices : ∀ r n, .received r (.ok n) ∉ s.notices
  acts : ∀ owner k, .scan owner k ∉ s.running.acts

/-- The parse is what the loop keeps. -/
theorem parse_rule {cfg : Config κ} (hf : 1 ≤ cfg.framing.headerSize)
    (hcb : cfg.onRecv.isSome = true) :
    LoopRule cfg (Parsed cfg.framing) (fun c l => l.Holds cfg.framing c)
      (fun c => callbacks c.log = (parse cfg.framing.cut c.stream).messages) where
  initial u := by
    have hparse : parse cfg.framing.cut (Core.initial cfg.kind u).stream = ⟨[], [], false⟩ :=
      parse_nil (Framing.cut_lawful hf)
    exact ⟨by rw [hparse]; rfl, by rw [hparse], by rw [hparse]; exact List.take_zero, Nat.zero_le _⟩
  skip hp hw ha hl := hp.congr hw ha hl.callbacks
  past hp := hp.delivered
  hop := Link.Holds.hop hf hcb
  ended := Hop.after

/-- The receive loop of an accepted connection, or of a client that was connected at most once. -/
theorem Endpoint.Reached.chain [DecidableEq τ] {cfg : Config κ} (hk : cfg.kind ≠ .udpEndpoint)
    (hf : 1 ≤ cfg.framing.headerSize) (hcb : cfg.onRecv.isSome = true) {s : Endpoint κ τ}
    (h : Reached cfg s) (honce : cfg.kind = .tcpClient → (connections s.log).length ≤ 1) :
    Chain cfg.kind cfg.framing s.toCore s.notices :=
  have hloop := (parse_rule hf hcb).reached hk h honce
  ⟨hloop.before, hloop.steady.single, hloop.places, hloop.after⟩

end Librim
