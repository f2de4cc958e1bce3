import Librim.SendOrder

/-! The receive loop of `UdpEndpoint`: `start_receive` and its completion handler. -/

set_option autoImplicit false

namespace Librim

variable {κ τ : Type}

def Notice.isReceived : Notice → Bool
  | .received _ _ => true
  | _ => false

/-- A completed receive whose handler starts the next one. -/
def Notice.rearms : Notice → Bool
  | .received _ (.ok n) => 0 < n
  | .received _ (.error ec) => ec != .operationAborted
  | _ => false

def Act.rearms : Act → Bool
  | .startReceive _ => true
  | _ => false

/-- The programs that run on the strand of a `UdpEndpoint`. -/
inductive UdpProgram : List Act → Prop where
  | calls {l : List Call} : UdpProgram (l.map .call)
  | close : UdpProgram [.close]
  | rearm {l : List Call} {k : Nat} : UdpProgram (l.map .call ++ [.startReceive k])
  | datagram {k n : Nat} : UdpProgram [.datagram k n, .startReceive k]

/-- Receives outstanding, completed, or about to be started by the running handler. -/
def links (reads : List Read) (ns : List Notice) (acts : List Act) : Nat :=
  reads.length + ns.countP Notice.isReceived + acts.countP Act.rearms

/-- One chain of receives at most; it is intact while the socket is open. -/
structure Loop (boot : Boot) (socket : Socket) (reads : List Read) (ns : List Notice)
    (acts : List Act) : Prop where
  program : UdpProgram acts
  unstarted : boot ≠ .done → links reads ns acts = 0
  single : links reads ns acts ≤ 1
  intact : boot = .done → socket.isOpen = true → links reads ns acts = 1 ∧
    (∀ r ∈ reads, r.conn = socket.conn) ∧ ∀ n ∈ ns, n.isReceived = true → n.rearms = true

theorem countP_calls (cs : List Call) : (cs.map Act.call).countP Act.rearms = 0 := by
  simp [List.countP_eq_zero,Act.rearms]

theorem UdpProgram.uncons {a : Act} {rest : List Act} (h : UdpProgram (a :: rest)) :
    UdpProgram rest ∧ ((∃ k, a = .call k) ∨ a = .close ∨ (∃ k, a = .startReceive k) ∨
      ∃ k n, a = .datagram k n ∧ rest = [.startReceive k]) := by
  generalize hp : a :: rest = acts at h
  cases h with
  | @calls l =>
    cases l with
    | nil => simp at hp
    | cons k l =>
      obtain ⟨rfl,rfl⟩ := List.cons.inj hp
      exact ⟨.calls, .inl ⟨k,rfl⟩⟩
  | close =>
    obtain ⟨rfl,rfl⟩ := List.cons.inj hp
    exact ⟨.calls (l := []), .inr (.inl rfl)⟩
  | @rearm l k =>
    cases l with
    | nil =>
      obtain ⟨rfl,rfl⟩ := List.cons.inj hp
      exact ⟨.calls (l := []), .inr (.inr (.inl ⟨k,rfl⟩))⟩
    | cons c l =>
      obtain ⟨rfl,rfl⟩ := List.cons.inj hp
      exact ⟨.rearm, .inl ⟨c,rfl⟩⟩
  | @datagram k n =>
    obtain ⟨rfl,rfl⟩ := List.cons.inj hp
    exact ⟨.rearm (l := []), .inr (.inr (.inr ⟨k,n,rfl,rfl⟩))⟩

/-- `start_receive()` is called once, on an open socket; no datagram is empty; and the socket
is opened again only while the handler of a completed receive is still to start the next. -/
def LoopStep (c : Core κ) (ns : List Notice) : Event τ → Prop
  | .start => c.boot ≠ .done ∧ c.socket.isOpen = true
  | .read _ data _ => data ≠ []
  | .setup call os => c.boot = .done → c.socket.isOpen = false →
      (UdpEndpoint.setup call os c.socket).1.isOpen = true →
      (∃ n ∈ ns, n.rearms = true) ∨ ∃ k, .startReceive k ∈ c.running.acts
  | _ => True

theorem Notice.isReceived_of_rearms {n : Notice} (h : n.rearms = true) : n.isReceived = true := by
  cases n with
  | received r result => rfl
  | _ => simp [rearms] at h

/-- A notice that is not about a receive. -/
theorem Loop.append {boot : Boot} {socket : Socket} {reads : List Read} {ns : List Notice}
    {acts : List Act} (h : Loop boot socket reads ns acts) {n : Notice} (hn : n.isReceived = false) :
    Loop boot socket reads (ns ++ [n]) acts := by
  have hl : links reads (ns ++ [n]) acts = links reads ns acts := by simp [links,hn]
  refine ⟨h.program, by rw [hl]; exact h.unstarted, by rw [hl]; exact h.single, ?_⟩
  intro hb ho
  obtain ⟨h₁,h₂,h₃⟩ := h.intact hb ho
  refine ⟨by rw [hl]; exact h₁, h₂, fun m hm hr => ?_⟩
  rcases List.mem_append.mp hm with hm | hm
  · exact h₃ m hm hr
  · rw [List.mem_singleton.mp hm, hn] at hr
    simp at hr

/-- A receive completes, well enough for its handler to go on if the socket is open. -/
theorem Loop.complete {boot : Boot} {socket : Socket} {reads : List Read} {ns : List Notice}
    {acts : List Act} (h : Loop boot socket reads ns acts) {i : Nat} {r : Read}
    (hi : reads[i]? = some r) {n : Notice} (hn : n.isReceived = true)
    (hr : socket.isOpen = true → r.conn = socket.conn → n.rearms = true) :
    Loop boot socket (reads.eraseIdx i) (ns ++ [n]) acts := by
  have hlt : i < reads.length := (List.getElem?_eq_some_iff.mp hi).1
  have hl : links (reads.eraseIdx i) (ns ++ [n]) acts = links reads ns acts := by
    simp only [links,List.length_eraseIdx_of_lt hlt,List.countP_append,List.countP_singleton,hn,
      ↓reduceIte]
    omega
  refine ⟨h.program, by rw [hl]; exact h.unstarted, by rw [hl]; exact h.single, ?_⟩
  intro hb ho
  obtain ⟨h₁,h₂,h₃⟩ := h.intact hb ho
  refine ⟨by rw [hl]; exact h₁, fun x hx => h₂ x (List.mem_of_mem_eraseIdx hx), fun m hm hm' => ?_⟩
  rcases List.mem_append.mp hm with hm | hm
  · exact h₃ m hm hm'
  · rw [List.mem_singleton.mp hm]
    exact hr ho (h₂ r (List.mem_of_getElem? hi))

/-- The socket is closed, or loses nothing but its peer. -/
theorem Loop.socket {boot : Boot} {socket socket' : Socket} {reads : List Read} {ns : List Notice}
    {acts : List Act} (h : Loop boot socket reads ns acts)
    (hs : socket'.isOpen = true → socket.isOpen = true ∧ socket'.conn = socket.conn) :
    Loop boot socket' reads ns acts := by
  refine ⟨h.program, h.unstarted, h.single, fun hb ho => ?_⟩
  obtain ⟨ho',hc⟩ := hs ho
  rw [hc]
  exact h.intact hb ho'

/-- The rest of the handler, when the piece before it did not belong to the loop. -/
theorem Loop.tail {boot : Boot} {socket : Socket} {reads : List Read} {ns : List Notice}
    {a : Act} {rest : List Act} (h : Loop boot socket reads ns (a :: rest)) (ha : a.rearms = false) :
    Loop boot socket reads ns rest := by
  have hl : links reads ns (a :: rest) = links reads ns rest := by simp [links,ha]
  have hint := h.intact
  rw [hl] at hint
  exact ⟨h.program.uncons.1, by rw [← hl]; exact h.unstarted, by rw [← hl]; exact h.single, hint⟩

/-- The handler of a completed receive that starts the next one. -/
theorem Loop.resume {boot : Boot} {socket : Socket} {reads : List Read} {n : Notice}
    {ns : List Notice} (h : Loop boot socket reads (n :: ns) []) (hn : n.isReceived = true)
    {acts : List Act} (hp : UdpProgram acts) (ha : acts.countP Act.rearms = 1) :
    Loop boot socket reads ns acts := by
  have hl : links reads ns acts = links reads (n :: ns) [] := by
    simp only [links,ha,List.countP_cons,hn,↓reduceIte,List.countP_nil]
    omega
  have hint := h.intact
  rw [← hl] at hint
  refine ⟨hp, by rw [hl]; exact h.unstarted, by rw [hl]; exact h.single, fun hb ho => ?_⟩
  obtain ⟨h₁,h₂,h₃⟩ := hint hb ho
  exact ⟨h₁, h₂, fun m hm => h₃ m (List.mem_cons_of_mem _ hm)⟩

/-- The handler of a completed receive that does not: the socket is closed. -/
theorem Loop.stop {boot : Boot} {socket : Socket} {reads : List Read} {n : Notice}
    {ns : List Notice} (h : Loop boot socket reads (n :: ns) []) (hn : n.isReceived = true)
    (hr : n.rearms = false) : Loop boot socket reads ns [] := by
  have hl : links reads (n :: ns) [] = links reads ns [] + 1 := by
    simp only [links,List.countP_cons,hn,↓reduceIte]
    omega
  have hs := h.single
  refine ⟨.calls (l := []), fun hb => ?_, by omega, fun hb ho => ?_⟩
  · have := h.unstarted hb
    omega
  · have := (h.intact hb ho).2.2 n List.mem_cons_self hn
    rw [hr] at this
    simp at this

/-- A handler that has nothing to do with the loop. -/
theorem Loop.other {boot : Boot} {socket : Socket} {reads : List Read} {n : Notice}
    {ns : List Notice} (h : Loop boot socket reads (n :: ns) []) (hn : n.isReceived = false)
    {acts : List Act} (hp : UdpProgram acts) (ha : acts.countP Act.rearms = 0) :
    Loop boot socket reads ns acts := by
  have hl : links reads ns acts = links reads (n :: ns) [] := by
    simp [links,ha,hn]
  have hint := h.intact
  rw [← hl] at hint
  refine ⟨hp, by rw [hl]; exact h.unstarted, by rw [hl]; exact h.single, fun hb ho => ?_⟩
  obtain ⟨h₁,h₂,h₃⟩ := hint hb ho
  exact ⟨h₁, h₂, fun m hm => h₃ m (List.mem_cons_of_mem _ hm)⟩

theorem Loop.received {cfg : Config κ} (hk : cfg.kind = .udpEndpoint) {c : Core κ} {socket : Socket}
    {r : Read} {result : Except ErrorCode Nat} {ns : List Notice} (hrun : c.running = .program [])
    (h : Loop c.boot socket c.reads (.received r result :: ns) []) :
    Loop (c.onReceived cfg r result).boot socket (c.onReceived cfg r result).reads ns
      (c.onReceived cfg r result).running.acts := by
  cases result with
  | ok n =>
    simp only [Core.onReceived,hk]
    split
    · exact h.resume rfl .datagram rfl
    · rename_i hn
      rw [hrun]
      exact h.stop rfl (by simpa [Notice.rearms] using hn)
  | error ec =>
    simp only [Core.onReceived,hk]
    split
    · exact h.resume rfl (.rearm (l := [])) rfl
    · rename_i hec
      rw [hrun]
      exact h.stop rfl (by simpa [Notice.rearms] using hec)

/-- An open `socket` is that of the endpoint. Through a closed one the endpoint is seen without
what the loop owes to an open socket. -/
def Seen (socket : Socket) (c : Core κ) : Prop :=
  socket.isOpen = true → c.socket.isOpen = true ∧ c.socket.conn = socket.conn

/-- `start_receive` inside the loop: it keeps it intact, or finds the socket closed. -/
theorem Loop.startReceive {cfg : Config κ} (hk : cfg.kind = .udpEndpoint)
    (hcb : cfg.onRecv.isSome = true) {c : Core κ} {socket : Socket} {k : Nat} {ns : List Notice}
    {rest : List Act} (hs : Seen socket c) (h : Loop c.boot socket c.reads ns (.startReceive k :: rest))
    (hrun : c.running = .program rest) :
    Loop (c.startReceive cfg k).boot socket (c.startReceive cfg k).reads ns
      (c.startReceive cfg k).running.acts := by
  have hnone : cfg.onRecv.isNone = false := by
    cases hr : cfg.onRecv <;> simp_all
  have hl : links c.reads ns (.startReceive k :: rest) = links c.reads ns rest + 1 := by
    simp only [links,List.countP_cons,Act.rearms,↓reduceIte]
    omega
  have hone := h.single
  simp only [Core.startReceive,hk,hnone,Bool.false_or]
  split
  · rename_i hclosed
    rw [hrun]
    refine ⟨h.program.uncons.1, fun hb => ?_, by simp only [Running.acts]; omega, fun hb ho => ?_⟩
    · have := h.unstarted hb
      omega
    · simp [(hs ho).1] at hclosed
  · rename_i hopen
    have hopen' : c.socket.isOpen = true := by simpa using hopen
    simp only [Core.emit,hrun,Running.acts]
    have hl' : links (c.reads ++ [⟨c.descriptor,0,65536⟩]) ns rest = links c.reads ns rest + 1 := by
      simp only [links,List.length_append,List.length_singleton]
      omega
    refine ⟨h.program.uncons.1, fun hb => ?_, by omega, fun hb ho => ?_⟩
    · have := h.unstarted hb
      omega
    · obtain ⟨h₁,h₂,h₃⟩ := h.intact hb ho
      refine ⟨by omega, fun r hr => ?_, h₃⟩
      rcases List.mem_append.mp hr with hr | hr
      · exact h₂ r hr
      · rw [List.mem_singleton.mp hr]
        simp [Core.descriptor,hopen',(hs ho).2]

/-- The first receive. -/
theorem Loop.first {cfg : Config κ} (hk : cfg.kind = .udpEndpoint)
    (hcb : cfg.onRecv.isSome = true) {c : Core κ} {socket : Socket} {ns : List Notice}
    (hs : Seen socket c) (h : Loop c.boot socket c.reads ns c.running.acts) (hboot : c.boot ≠ .done) :
    let c' := Core.startReceive cfg c.socket.conn { c with boot := .done }
    Loop c'.boot socket c'.reads ns c'.running.acts := by
  have hnone : cfg.onRecv.isNone = false := by
    cases hr : cfg.onRecv <;> simp_all
  have hz := h.unstarted hboot
  cases hopen : c.socket.isOpen with
  | false =>
    simp only [Core.startReceive,hk,hnone,hopen,Bool.not_false,Bool.or_true,↓reduceIte]
    refine ⟨h.program, fun _ => hz, h.single, fun _ ho => ?_⟩
    rw [(hs ho).1] at hopen
    simp at hopen
  | true =>
    simp only [links] at hz
    have hreads : c.reads = [] := List.length_eq_zero_iff.mp (by omega)
    have hns : ns.countP Notice.isReceived = 0 := by omega
    simp only [Core.startReceive,hk,hnone,hopen,Bool.not_true,Bool.or_self,Bool.false_eq_true,
      ↓reduceIte,Core.emit,hreads,List.nil_append]
    have hl : links [⟨c.descriptor,0,65536⟩] ns c.running.acts = 1 := by
      simp only [links,List.length_singleton]
      omega
    refine ⟨h.program, fun hb => absurd rfl hb, Nat.le_of_eq hl, fun _ ho => ⟨hl, ?_, ?_⟩⟩
    · intro r hr
      rw [List.mem_singleton.mp hr]
      simp [Core.descriptor,hopen,(hs ho).2]
    · intro m hm hm'
      exact absurd hm' (by simpa using List.countP_eq_zero.mp hns m hm)

theorem Loop.closeBody {cfg : Config κ} {c : Core κ} {socket : Socket} {ns : List Notice}
    {acts : List Act} (h : Loop c.boot socket c.reads ns acts) (hrun : c.running = .program acts) :
    Loop (c.closeBody cfg).boot socket (c.closeBody cfg).reads ns (c.closeBody cfg).running.acts := by
  obtain ⟨_,_,_,_,heq⟩ := Core.closeBody_shape cfg c
  simp only [heq,hrun,Running.acts]
  exact h

theorem Loop.perform {cfg : Config κ} (hk : cfg.kind = .udpEndpoint)
    (hcb : cfg.onRecv.isSome = true) {c : Core κ} {socket : Socket} {ns : List Notice} {a : Act}
    {rest : List Act} (hs : Seen socket c) (h : Loop c.boot socket c.reads ns (a :: rest)) :
    Loop (c.perform cfg rest a).boot socket (c.perform cfg rest a).reads ns
      (c.perform cfg rest a).running.acts := by
  obtain ⟨-,⟨k,rfl⟩ | rfl | ⟨k,rfl⟩ | ⟨k,n,rfl,rfl⟩⟩ := h.program.uncons
  · cases k with
    | send request => exact h.tail rfl
    | close => exact (h.tail rfl).closeBody (c := { c with running := .program rest }) rfl
  · exact (h.tail rfl).closeBody (c := { c with running := .program rest }) rfl
  · exact Loop.startReceive hk hcb (c := { c with running := .program rest }) hs h rfl
  · obtain ⟨callback,hcallback⟩ := Option.isSome_iff_exists.mp hcb
    simp only [Core.perform,Core.deliver,hcallback,Core.emit,Running.acts]
    have htail := h.tail rfl
    have hl : ∀ l : List Call, links c.reads ns (l.map .call ++ [.startReceive k]) =
        links c.reads ns [.startReceive k] := by
      intro l
      simp only [links,List.countP_append,countP_calls]
      omega
    have hint := htail.intact
    rw [← hl] at hint
    exact ⟨.rearm, by rw [hl]; exact htail.unstarted, by rw [hl]; exact htail.single, hint⟩

theorem eq_of_countP_le_one {α : Type} {p : α → Bool} {l : List α} (hl : l.countP p ≤ 1) {x y : α}
    (hx : x ∈ l) (hpx : p x = true) (hy : y ∈ l) (hpy : p y = true) : x = y := by
  rw [List.countP_eq_length_filter] at hl
  have hx' := List.mem_filter.mpr ⟨hx,hpx⟩
  have hy' := List.mem_filter.mpr ⟨hy,hpy⟩
  cases hf : l.filter p with
  | nil => rw [hf] at hx'; simp at hx'
  | cons z l' =>
    rw [hf, List.length_cons] at hl
    have hl' : l' = [] := List.length_eq_zero_iff.mp (by omega)
    rw [hf, hl', List.mem_singleton] at hx' hy'
    rw [hx', hy']

/-- The socket is opened again while the loop can still go on. -/
theorem Loop.opened {boot : Boot} {socket socket' : Socket} {reads : List Read} {ns : List Notice}
    {acts : List Act} (h : Loop boot socket reads ns acts)
    (hp : boot = .done → (∃ n ∈ ns, n.rearms = true) ∨ ∃ k, .startReceive k ∈ acts) :
    Loop boot socket' reads ns acts := by
  refine ⟨h.program, h.unstarted, h.single, fun hb _ => ?_⟩
  have hs := h.single
  rcases hp hb with ⟨n,hn,hr⟩ | ⟨k,hk⟩
  · have hpos : 0 < ns.countP Notice.isReceived :=
      List.countP_pos_iff.mpr ⟨n, hn, n.isReceived_of_rearms hr⟩
    simp only [links] at hs ⊢
    have hreads : reads = [] := List.length_eq_zero_iff.mp (by omega)
    refine ⟨by omega, by simp [hreads], fun m hm hm' => ?_⟩
    rw [eq_of_countP_le_one (by omega) hm hm' hn (n.isReceived_of_rearms hr)]
    exact hr
  · have hpos : 0 < acts.countP Act.rearms := List.countP_pos_iff.mpr ⟨_, hk, rfl⟩
    simp only [links] at hs ⊢
    have hreads : reads = [] := List.length_eq_zero_iff.mp (by omega)
    have hnone : ns.countP Notice.isReceived = 0 := by omega
    refine ⟨by omega, by simp [hreads], fun m hm hm' => ?_⟩
    exact absurd hm' (by simpa using List.countP_eq_zero.mp hnone m hm)

/-- `start_receive()` is called once. -/
def StartStep (c : Core κ) : Event τ → Prop
  | .start => c.boot ≠ .done
  | _ => True

theorem Loop.follow {cfg : Config κ} (hk : cfg.kind = .udpEndpoint) (hcb : cfg.onRecv.isSome = true)
    {c c' : Core κ} {socket : Socket} {ns ns' : List Notice} {e : Event τ}
    (hu : Unconnected c.connects ns) (hs : Seen socket c) (hstart : StartStep c e)
    (hread : socket.isOpen = true → ∀ i data sender, e = .read i data sender → data ≠ [])
    (h : Loop c.boot socket c.reads ns c.running.acts) (hm : Move cfg c ns e c' ns') :
    Loop c'.boot socket c'.reads ns' c'.running.acts := by
  cases hm with
  | stay | tick => exact h
  | wrote hrun | release hrun | finish hrun =>
    rw [hrun] at h
    exact h
  | close => exact h.append rfl
  | connect hc => simp [Core.connect,hk] at hc
  | setup hc =>
    simp only [Core.setup,hk,↓reduceIte,Option.some.injEq] at hc
    exact hc ▸ h
  | start hc =>
    simp only [Core.start,hk,Option.some.injEq] at hc
    exact hc ▸ h.first hk hcb hs hstart
  | @handle n ns hrun =>
    rw [hrun] at h
    cases n with
    | received r result => exact Loop.received hk hrun h
    | expired w aborted =>
      simp only [Core.handle]
      split
      · rw [hrun]
        exact h.other rfl (.calls (l := [])) rfl
      · exact h.other rfl .close rfl
    | connected a failed reopened =>
      exact absurd List.mem_cons_self (hu.notices a failed reopened)
    | close => exact h.other rfl .close rfl
  | fail hrun =>
    rw [hrun] at h
    exact h.closeBody (c := { c with running := .program [] }) rfl
  | perform hrun =>
    rw [hrun] at h
    exact h.perform hk hcb hs
  | read hx =>
    obtain ⟨r,hi,-,-,-,hx⟩ := Core.read_eq_some.mp hx
    obtain ⟨rfl,rfl⟩ := Prod.mk.inj hx
    refine h.complete hi rfl (fun ho _ => ?_)
    simpa [Notice.rearms,List.length_pos_iff] using hread ho _ _ _ rfl
  | readFail hx =>
    obtain ⟨r,hi,hf,hx⟩ := Core.readFail_eq_some.mp hx
    obtain ⟨rfl,rfl⟩ := Prod.mk.inj hx
    refine h.complete hi rfl (fun ho hconn => ?_)
    obtain ⟨hopen,hsame⟩ := hs ho
    simp only [Core.failure,Core.live,hopen,hsame,hconn,Bool.true_and,beq_self_eq_true,↓reduceIte] at hf
    split at hf
    · simp only [beq_iff_eq] at hf
      simp [Notice.rearms,hf]
    · exact hf
  | expire hx | abort hx =>
    obtain ⟨_,-,-,-,hx⟩ := Core.waitDone_eq_some.mp hx
    obtain ⟨rfl,rfl⟩ := Prod.mk.inj hx
    exact h.append rfl
  | connectDone hx =>
    obtain ⟨_,ha,-,-⟩ := Core.connectDone_eq_some.mp hx
    simp [hu.connects] at ha

/-- Only a set-up call opens the socket. -/
theorem Move.seen {cfg : Config κ} (hk : cfg.kind = .udpEndpoint) {c c' : Core κ}
    {ns ns' : List Notice} {e : Event τ} (hu : Unconnected c.connects ns)
    (hsetup : ∀ call os, e = .setup call os → Seen (UdpEndpoint.setup call os c.socket).1 c)
    (hm : Move cfg c ns e c' ns') : Seen c'.socket c := by
  have hsame : c'.socket = c.socket → Seen c'.socket c := by
    intro hsocket ho
    rw [hsocket] at ho ⊢
    exact ⟨ho,rfl⟩
  have hdone := hm.completed
  cases hm with
  | stay | close | wrote _ | release _ | finish _ | tick => exact hsame rfl
  | connect hc => simp [Core.connect,hk] at hc
  | setup hc =>
    simp only [Core.setup,hk,↓reduceIte,Option.some.injEq] at hc
    exact hc ▸ hsetup _ _ rfl
  | start hc =>
    simp only [Core.start,hk,Option.some.injEq] at hc
    exact hsame (by rw [← hc, Core.startReceive_socket])
  | @handle n ns hrun =>
    cases n with
    | received r result => exact hsame (by simp [Core.handle])
    | expired w aborted =>
      simp only [Core.handle]
      split <;> exact fun ho => ⟨ho,rfl⟩
    | connected a failed reopened =>
      exact absurd List.mem_cons_self (hu.notices a failed reopened)
    | close => exact hsame rfl
  | fail _ =>
    intro ho
    simp at ho
  | @perform _ a rest _ _ =>
    cases a with
    | scan owner currentOffset =>
      refine hsame ?_
      simp only [Core.perform]
      split <;> simp
    | datagram owner n | resetReadTimeout owner | startReceive owner => exact hsame (by simp [Core.perform])
    | close =>
      intro ho
      simp [Core.perform] at ho
    | call k =>
      cases k with
      | send request => exact hsame rfl
      | close =>
        intro ho
        simp [Core.perform] at ho
  | read _ | readFail _ | expire _ | abort _ | connectDone _ =>
    obtain ⟨_,_,_,_,_,_,rfl⟩ := hdone rfl
    exact hsame rfl

theorem Loop.move {cfg : Config κ} (hk : cfg.kind = .udpEndpoint) (hcb : cfg.onRecv.isSome = true)
    {c c' : Core κ} {ns ns' : List Notice} {e : Event τ} (hu : Unconnected c.connects ns)
    (hok : LoopStep c ns e) (h : Loop c.boot c.socket c.reads ns c.running.acts)
    (hm : Move cfg c ns e c' ns') : Loop c'.boot c'.socket c'.reads ns' c'.running.acts := by
  have hstart : StartStep c e := by
    cases e with
    | start => exact hok.1
    | _ => trivial
  have hread : c.socket.isOpen = true → ∀ i data sender, e = .read i data sender → data ≠ [] := by
    rintro - i data sender rfl
    exact hok
  have hfollow := h.follow hk hcb hu (fun ho => ⟨ho,rfl⟩) hstart hread hm
  have hseen := hm.seen hk hu
  cases e with
  | setup call os =>
    cases hm with
    | stay => exact h
    | setup hc =>
      simp only [Core.setup,hk,↓reduceIte,Option.some.injEq] at hc
      subst hc
      rcases UdpEndpoint.setup_opened call os c.socket with ⟨hopen,hconn⟩ | ⟨hclosed,hopen,-⟩
      · exact h.socket (fun ho => ⟨hopen ▸ ho, hconn⟩)
      · exact h.opened (fun hb => hok hb hclosed hopen)
  | _ =>
    refine hfollow.socket (fun ho => ?_)
    obtain ⟨hopen,hconn⟩ := hseen (by simp) ho
    exact ⟨hopen, hconn.symm⟩

def Notice.size : Notice → Option Nat
  | .received _ (.ok n) => some n
  | _ => none

def Act.size : Act → Option Nat
  | .datagram _ n => some n
  | _ => none

/-- The lengths of the datagrams that were received and not yet passed to the callback. -/
def pendingSizes (ns : List Notice) (acts : List Act) : List Nat :=
  acts.filterMap Act.size ++ ns.filterMap Notice.size

/-- Every datagram, or every one that is not empty. -/
def kept (all : Bool) (data : List Byte) : Bool := all || !data.isEmpty

/-- The receive buffer holds the datagram that is still to be passed on; those before it were.
The handler drops an empty one, so it counts only where there is none. -/
structure Content (all : Bool) (c : Core κ) (ns : List Notice) : Prop where
  buffer : c.window.recvBuffer.length = 65536
  whole : ∀ r ∈ c.reads, r.offset = 0 ∧ r.room = 65536
  sizes : ∀ n ∈ pendingSizes ns c.running.acts, n ≤ 65536 ∧ (all = true → 0 < n)
  passed : ∀ n ∈ c.running.acts.filterMap Act.size, 0 < n
  history : callbacks c.log ++ ((pendingSizes ns c.running.acts).map (c.window.span 0)).filter (kept all) =
    (c.arrived.map Arrival.data).filter (kept all)

theorem pendingSizes_eq_nil (ns : List Notice) {acts : List Act} (hp : UdpProgram acts)
    (hns : ns.countP Notice.isReceived = 0) (ha : acts.countP Act.rearms = 0) :
    pendingSizes ns acts = [] := by
  have hns' : ns.filterMap Notice.size = [] := by
    rw [List.filterMap_eq_nil_iff]
    intro n hn
    have := List.countP_eq_zero.mp hns n hn
    cases n <;> simp_all [Notice.isReceived,Notice.size]
  have ha' : acts.filterMap Act.size = [] := by
    cases hp with
    | calls => simp [Act.size]
    | close => rfl
    | rearm => simp [Act.rearms] at ha
    | datagram => simp [Act.rearms] at ha
  simp [pendingSizes,hns',ha']

theorem pendingSizes_cons {ns : List Notice} {acts : List Act} {n : Notice} {running : Running}
    (hrun : running = .program []) (hn : n.size = none) (ha : acts.filterMap Act.size = []) :
    pendingSizes ns acts = pendingSizes (n :: ns) running.acts := by
  simp [pendingSizes,hrun,Running.acts,hn,ha]

/-- Neither the log of callbacks nor the buffer nor what is pending changes. -/
theorem Content.congr {all : Bool} {c c' : Core κ} {ns ns' : List Notice} (h : Content all c ns)
    (hw : c'.window = c.window) (hr : ∀ r ∈ c'.reads, r ∈ c.reads ∨ r.offset = 0 ∧ r.room = 65536)
    (hp : pendingSizes ns' c'.running.acts = pendingSizes ns c.running.acts)
    (hpass : ∀ n ∈ c'.running.acts.filterMap Act.size, 0 < n)
    (hl : callbacks c'.log = callbacks c.log) (ha : c'.arrived = c.arrived) : Content all c' ns' where
  buffer := hw ▸ h.buffer
  whole := fun r hm => (hr r hm).elim (h.whole r) id
  sizes := hp ▸ h.sizes
  passed := hpass
  history := by rw [hl, hp, hw, ha]; exact h.history

theorem Content.closeBody {all : Bool} {cfg : Config κ} {c : Core κ} {ns : List Notice}
    (h : Content all c ns) : Content all (c.closeBody cfg) ns := by
  have hl := closeBody_callbacks cfg c
  obtain ⟨_,_,_,_,heq⟩ := Core.closeBody_shape cfg c
  rw [heq] at hl ⊢
  exact h.congr rfl (fun r hr => .inl hr) rfl h.passed hl rfl

theorem Content.startReceive {all : Bool} {cfg : Config κ} (hk : cfg.kind = .udpEndpoint) {c : Core κ}
    {k : Nat} {ns : List Notice} (h : Content all c ns) : Content all (c.startReceive cfg k) ns := by
  simp only [Core.startReceive,hk]
  split
  · exact h
  · refine h.congr rfl (fun r hr => ?_) rfl h.passed (by simp [Core.emit,callbacks_append,Obs.message]) rfl
    rcases List.mem_append.mp hr with hr | hr
    · exact .inl hr
    · rw [List.mem_singleton.mp hr]
      exact .inr ⟨rfl,rfl⟩

theorem span_poke {buf data : List Byte} (n : Nat) (h : data.length ≤ buf.length) :
    (Window.mk (poke buf 0 data) n).span 0 data.length = data := by
  have hfit : 0+data.length ≤ buf.length := by omega
  simpa [Window.span] using take_poke hfit

/-- The system stores a datagram while nothing else is pending. -/
theorem Content.read {all : Bool} {c : Core κ} {socket : Socket} {ns : List Notice} {i : Nat} {r : Read}
    {data : List Byte} {sender : Address} (hloop : Loop c.boot socket c.reads ns c.running.acts)
    (h : Content all c ns) (hi : c.reads[i]? = some r) (hlen : data.length ≤ r.room)
    (hdata : all = true → data ≠ []) :
    Content all { c with
        window := { c.window with recvBuffer := poke c.window.recvBuffer r.offset data }
        sender := sender
        reads := c.reads.eraseIdx i
        arrived := c.arrived ++ [⟨r.conn,data,sender⟩] }
      (ns ++ [.received r (.ok data.length)]) := by
  obtain ⟨hoff,hroom⟩ := h.whole r (List.mem_of_getElem? hi)
  have hlt : i < c.reads.length := (List.getElem?_eq_some_iff.mp hi).1
  have hs := hloop.single
  simp only [links] at hs
  have hnone := pendingSizes_eq_nil ns hloop.program (by omega) (by omega)
  have hone : pendingSizes (ns ++ [.received r (.ok data.length)]) c.running.acts = [data.length] := by
    simp only [pendingSizes,List.append_eq_nil_iff] at hnone
    simp [pendingSizes,hnone,Notice.size]
  have hbuf := h.buffer
  refine ⟨?_, ?_, ?_, h.passed, ?_⟩
  · simp only [hoff]
    rw [length_poke (by omega)]
    exact hbuf
  · exact fun x hx => h.whole x (List.mem_of_mem_eraseIdx hx)
  · rw [hone]
    intro n hn
    rw [List.mem_singleton.mp hn]
    exact ⟨by omega, fun hall => List.length_pos_iff.mpr (hdata hall)⟩
  · rw [hone, hoff]
    simp only [List.map_cons,List.map_nil,List.map_append,List.filter_append]
    rw [span_poke _ (by omega), ← h.history, hnone]
    simp

/-- The callback gets the datagram that is pending. -/
theorem Content.datagram {all : Bool} {cfg : Config κ} (hcb : cfg.onRecv.isSome = true) {c : Core κ}
    {socket : Socket} {ns : List Notice} {k n : Nat}
    (hrun : c.running = .program [.datagram k n, .startReceive k])
    (hloop : Loop c.boot socket c.reads ns c.running.acts) (h : Content all c ns) :
    Content all (c.deliver cfg k 0 n (some c.sender) [.startReceive k]) ns := by
  obtain ⟨callback,hcallback⟩ := Option.isSome_iff_exists.mp hcb
  have hs := hloop.single
  simp only [links,hrun,Running.acts] at hs
  have hrearms : [Act.datagram k n, .startReceive k].countP Act.rearms = 1 := rfl
  have hns : ns.filterMap Notice.size = [] := by
    have := pendingSizes_eq_nil ns (UdpProgram.calls (l := [])) (by omega) rfl
    simpa [pendingSizes] using this
  have hpend : pendingSizes ns c.running.acts = [n] := by
    simp [pendingSizes,hns,hrun,Running.acts,Act.size]
  have hhist := h.history
  have hsizes := h.sizes
  rw [hpend] at hhist hsizes
  have hn := (hsizes n List.mem_cons_self).1
  have hpos : 0 < n := h.passed n (by simp [hrun,Running.acts,Act.size])
  have hspan : (c.window.span 0 n).length = n := by
    simp only [Window.span,List.length_take,List.length_drop,h.buffer]
    omega
  have hkept : kept all (c.window.span 0 n) = true := by
    simp only [kept,Bool.or_eq_true,Bool.not_eq_true',List.isEmpty_eq_false_iff]
    exact .inr (List.ne_nil_of_length_pos (by omega))
  simp only [Core.deliver,hcallback,Core.emit]
  have hnone : ∀ l : List Call, pendingSizes ns (l.map .call ++ [.startReceive k]) = [] := by
    intro l
    simp [pendingSizes,hns,Act.size]
  refine ⟨?_, h.whole, ?_, ?_, ?_⟩
  · simp only [Window.scribble]
    rw [length_poke]
    · exact h.buffer
    · rw [Reply.span_length, hspan, h.buffer]
      omega
  · simp only [Running.acts,hnone]
    simp
  · simp [Running.acts,Act.size]
  · simp only [Running.acts,hnone,callbacks_append,Obs.message,List.map_nil,List.filter_nil,
      List.append_nil,Option.toList_some]
    simpa [hkept] using hhist

theorem Content.perform {all : Bool} {cfg : Config κ} (hk : cfg.kind = .udpEndpoint)
    (hcb : cfg.onRecv.isSome = true) {c : Core κ} {socket : Socket} {ns : List Notice} {a : Act}
    {rest : List Act} (hrun : c.running = .program (a :: rest))
    (hloop : Loop c.boot socket c.reads ns c.running.acts) (h : Content all c ns) :
    Content all (c.perform cfg rest a) ns := by
  have hp := hloop.program
  rw [hrun] at hp
  have htail : a.size = none → Content all { c with running := .program rest } ns := by
    intro hsize
    have hpass := h.passed
    simp only [hrun,Running.acts,List.filterMap_cons,hsize] at hpass
    exact h.congr rfl (fun r hr => .inl hr) (by simp [pendingSizes,hrun,Running.acts,hsize]) hpass rfl rfl
  obtain ⟨-,⟨k,rfl⟩ | rfl | ⟨k,rfl⟩ | ⟨k,n,rfl,rfl⟩⟩ := hp.uncons
  · cases k with
    | send request => exact htail rfl
    | close => exact (htail rfl).closeBody
  · exact (htail rfl).closeBody
  · exact (htail rfl).startReceive hk
  · exact h.datagram hcb hrun hloop

/-- An empty datagram is taken up and dropped. -/
theorem Content.dropped {all : Bool} {c : Core κ} {r : Read} {ns : List Notice}
    (hrun : c.running = .program []) (h : Content all c (.received r (.ok 0) :: ns)) :
    Content all c ns := by
  have hpend : pendingSizes (.received r (.ok 0) :: ns) c.running.acts =
      0 :: pendingSizes ns c.running.acts := by
    simp [pendingSizes,hrun,Running.acts,Notice.size]
  have hhist := h.history
  have hsizes := h.sizes
  rw [hpend] at hhist hsizes
  have hall : all = false := by
    cases all with
    | false => rfl
    | true => exact absurd ((hsizes 0 List.mem_cons_self).2 rfl) (by omega)
  refine ⟨h.buffer, h.whole, fun n hn => hsizes n (List.mem_cons_of_mem _ hn), h.passed, ?_⟩
  have hspan : kept all (c.window.span 0 0) = false := by simp [kept,hall,Window.span]
  simpa [hspan] using hhist

theorem Content.received {all : Bool} {cfg : Config κ} (hk : cfg.kind = .udpEndpoint) {c : Core κ}
    {r : Read} {result : Except ErrorCode Nat} {ns : List Notice} (hrun : c.running = .program [])
    (h : Content all c (.received r result :: ns)) : Content all (c.onReceived cfg r result) ns := by
  cases result with
  | ok n =>
    simp only [Core.onReceived,hk]
    split
    · rename_i hpos
      exact h.congr rfl (fun r hr => .inl hr) (by
        simp [pendingSizes,hrun,Running.acts,Notice.size,Act.size]) (by
        simpa [Running.acts,Act.size] using hpos) rfl rfl
    · rename_i hzero
      obtain rfl : n = 0 := by omega
      exact h.dropped hrun
  | error ec =>
    simp only [Core.onReceived,hk]
    split
    · exact h.congr rfl (fun r hr => .inl hr) (pendingSizes_cons hrun rfl rfl) (by
        simp [Running.acts,Act.size]) rfl rfl
    · refine h.congr rfl (fun r hr => .inl hr) ?_ h.passed rfl rfl
      rw [hrun]
      exact pendingSizes_cons rfl rfl rfl

theorem Content.move {all : Bool} {cfg : Config κ} (hk : cfg.kind = .udpEndpoint)
    (hcb : cfg.onRecv.isSome = true) {c c' : Core κ} {socket : Socket} {ns ns' : List Notice}
    {e : Event τ} (hu : Unconnected c.connects ns)
    (hread : all = true → ∀ i data sender, e = .read i data sender → data ≠ [])
    (hloop : Loop c.boot socket c.reads ns c.running.acts) (h : Content all c ns)
    (hm : Move cfg c ns e c' ns') : Content all c' ns' := by
  have happend : ∀ {n : Notice}, n.size = none → pendingSizes (ns ++ [n]) c.running.acts =
      pendingSizes ns c.running.acts := by
    intro n hn
    simp [pendingSizes,hn]
  cases hm with
  | stay => exact h
  | tick => exact h.congr rfl (fun r hr => .inl hr) rfl h.passed rfl rfl
  | wrote hrun | release hrun | finish hrun =>
    exact h.congr rfl (fun r hr => .inl hr) (by simp [hrun,Running.acts]) (by simp [Running.acts]) rfl rfl
  | close => exact h.congr rfl (fun r hr => .inl hr) (happend rfl) h.passed rfl rfl
  | connect hc => simp [Core.connect,hk] at hc
  | setup hc =>
    simp only [Core.setup,hk,↓reduceIte,Option.some.injEq] at hc
    subst hc
    exact h.congr rfl (fun r hr => .inl hr) rfl h.passed rfl rfl
  | start hc =>
    simp only [Core.start,hk,Option.some.injEq] at hc
    have hboot : Content all { c with boot := .done } ns :=
      h.congr rfl (fun r hr => .inl hr) rfl h.passed rfl rfl
    exact hc ▸ hboot.startReceive hk
  | @handle n ns hrun =>
    have hclose : n.size = none → Content all { c with running := .program [.close] } ns' := fun hn =>
      h.congr rfl (fun r hr => .inl hr) (pendingSizes_cons hrun hn rfl) (by
        simp [Running.acts,Act.size]) rfl rfl
    cases n with
    | received r result => exact h.received hk hrun
    | expired w aborted =>
      simp only [Core.handle]
      split
      · refine h.congr rfl (fun r hr => .inl hr) ?_ h.passed rfl rfl
        rw [hrun]
        exact pendingSizes_cons rfl rfl rfl
      · exact hclose rfl
    | connected a failed reopened =>
      exact absurd List.mem_cons_self (hu.notices a failed reopened)
    | close => exact hclose rfl
  | fail hrun =>
    have hnext : Content all { c with running := .program [] } ns :=
      h.congr rfl (fun r hr => .inl hr) (by simp [hrun,Running.acts]) (by simp [Running.acts]) rfl rfl
    exact hnext.closeBody
  | perform hrun => exact h.perform hk hcb hrun hloop
  | read hx =>
    obtain ⟨r,hi,-,hlen,-,hx⟩ := Core.read_eq_some.mp hx
    obtain ⟨rfl,rfl⟩ := Prod.mk.inj hx
    exact Content.read hloop h hi hlen (fun hall => hread hall _ _ _ rfl)
  | readFail hx =>
    obtain ⟨r,hi,-,hx⟩ := Core.readFail_eq_some.mp hx
    obtain ⟨rfl,rfl⟩ := Prod.mk.inj hx
    exact h.congr rfl (fun x hx => .inl (List.mem_of_mem_eraseIdx hx)) (happend rfl) h.passed rfl rfl
  | expire hx | abort hx =>
    obtain ⟨_,-,-,-,hx⟩ := Core.waitDone_eq_some.mp hx
    obtain ⟨rfl,rfl⟩ := Prod.mk.inj hx
    exact h.congr rfl (fun r hr => .inl hr) (happend rfl) h.passed rfl rfl
  | connectDone hx =>
    obtain ⟨_,ha,-,-⟩ := Core.connectDone_eq_some.mp hx
    simp [hu.connects] at ha

/-- A `UdpEndpoint` that is not started yet. -/
theorem Loop.initial {kind : Kind} {u : κ} (socket : Socket) :
    Loop (Core.initial kind u).boot socket (Core.initial kind u).reads []
      (Core.initial kind u).running.acts := by
  refine ⟨.calls (l := []), fun _ => rfl, Nat.zero_le _, fun hb => ?_⟩
  simp [Core.initial] at hb

theorem Content.initial {all : Bool} {kind : Kind} {u : κ} : Content all (Core.initial kind u) [] := by
  refine ⟨List.length_replicate .., ?_, ?_, ?_, rfl⟩
  · intro r hr
    simp [Core.initial] at hr
  · intro n hn
    simp [Core.initial,pendingSizes,Running.acts] at hn
  · intro n hn
    simp [Core.initial,Running.acts] at hn

namespace Endpoint

variable [DecidableEq τ]

/-- An endpoint that is started once passes on the datagrams that are not empty, in order and
as they came. -/
theorem Reached.content {cfg : Config κ} (hk : cfg.kind = .udpEndpoint) (hcb : cfg.onRecv.isSome = true)
    {init : Endpoint κ τ → Prop} {ok : Endpoint κ τ → Event τ → Prop}
    (hinit : ∀ s, init s → ∃ u, s = initial cfg.kind u) (hok : ∀ s e, ok s e → StartStep s.toCore e)
    {s : Endpoint κ τ} (h : Transition.Reach init (step cfg) ok s) : Content false s.toCore s.notices := by
  have hinv : Unconnected s.connects s.notices ∧
      Loop s.boot Socket.closed s.reads s.notices s.running.acts ∧ Content false s.toCore s.notices := by
    induction h with
    | start hi =>
      obtain ⟨u,rfl⟩ := hinit _ hi
      exact ⟨⟨rfl, by simp [initial,notices]⟩, Loop.initial _, Content.initial⟩
    | @next s t e _ hstep hs ih =>
      obtain ⟨hu,hloop,hcontent⟩ := ih
      have hm := step_move hs
      refine ⟨hu.move (by simp [hk]) hm, ?_, hcontent.move hk hcb hu (by simp) hloop hm⟩
      exact hloop.follow hk hcb hu (by simp [Seen,Socket.closed]) (hok s e hstep)
        (by simp [Socket.closed]) hm
  exact hinv.2.2

/-- Where the steps are as described, an open endpoint between two handlers has one receive
outstanding or completed, and the callback has had every datagram that came before, in
order and once. -/
theorem udp_receive_loop (cfg : Config κ) (hk : cfg.kind = .udpEndpoint)
    (hcb : cfg.onRecv.isSome = true) (s : Endpoint κ τ)
    (h : Transition.Reach (fun s₀ => ∃ u, s₀ = initial cfg.kind u) (step cfg)
      (fun s e => LoopStep s.toCore s.notices e) s) :
    (s.boot = .done → s.socket.isOpen = true → s.idle = true →
      s.reads.length + s.notices.countP Notice.isReceived = 1) ∧
    callbacks s.log ++ (pendingSizes s.notices s.running.acts).map (s.window.span 0) =
      s.arrived.map Arrival.data := by
  have hinv : Loop s.boot s.socket s.reads s.notices s.running.acts ∧
      Content true s.toCore s.notices := by
    induction h with
    | start hi =>
      obtain ⟨u,rfl⟩ := hi
      exact ⟨Loop.initial _, Content.initial⟩
    | @next s t e hr hok hs ih =>
      have hu := Reached.unconnected (by simp [hk]) hr.reachable
      have hm := step_move hs
      have hread : true = true → ∀ i data sender, e = .read i data sender → data ≠ [] := by
        rintro - i data sender rfl
        exact hok
      exact ⟨ih.1.move hk hcb hu hok hm, ih.2.move hk hcb hu hread ih.1 hm⟩
  have hall : ∀ l : List (List Byte), l.filter (kept true) = l := by
    intro l
    simp [kept]
  have hhist := hinv.2.history
  rw [hall, hall] at hhist
  refine ⟨fun hb ho hidle => ?_, hhist⟩
  have hrun : s.running = .program [] := by
    simp only [idle,Bool.and_eq_true,beq_iff_eq] at hidle
    exact hidle.1
  have hone := (hinv.1.intact hb ho).1
  simpa [links,hrun,Running.acts] using hone

/-- An endpoint with a callback that does nothing. -/
def listener : Config Unit := { Config.bare .udpEndpoint with onRecv := some passive }

/-- A test for the steps, which accepts no set-up call after the start. -/
def loopCheck (s : Endpoint κ τ) : Event τ → Bool
  | .start => s.boot != .done && s.socket.isOpen
  | .read _ data _ => !data.isEmpty
  | .setup _ _ => s.boot != .done
  | _ => true

omit [DecidableEq τ] in
theorem loopStep_of_check {s : Endpoint κ τ} {e : Event τ} (h : s.loopCheck e = true) :
    LoopStep s.toCore s.notices e := by
  cases e with
  | start => simpa [loopCheck,LoopStep] using h
  | read i data sender => simpa [loopCheck,LoopStep] using h
  | setup call os =>
    intro hb
    simp [loopCheck,hb] at h
  | _ => trivial

/-- Two datagrams, of which the second is still to be passed on. -/
def twoDatagrams : List (Event Unit) :=
  [.setup (.bind 9) .obliging, .start, .read 0 [7] ⟨1,2⟩, .run, .act true, .act true, .read 0 [8,9] ⟨1,2⟩]

theorem udp_receive_loop_two : ∃ s : Endpoint Unit Unit,
    Transition.run (Transition.guarded (step listener) loopCheck) (initial .udpEndpoint ()) twoDatagrams = some s ∧
    Transition.Reach (fun s₀ => ∃ u, s₀ = initial listener.kind u) (step listener)
      (fun s => LoopStep s.toCore s.notices) s ∧
    s.socket.isOpen = true ∧ callbacks s.log = [[7]] ∧ s.reads.length + s.notices.countP Notice.isReceived = 1 ∧
    callbacks s.log ++ (pendingSizes s.notices s.running.acts).map (s.window.span 0) =
      s.arrived.map Arrival.data := by
  have hrun : (Transition.run (Transition.guarded (step listener) loopCheck) (initial .udpEndpoint ())
      twoDatagrams).map (fun s : Endpoint Unit Unit =>
        (s.boot, s.socket.isOpen, s.idle, callbacks s.log)) = some (.done, true, true, [[7]]) := by
    decide +kernel
  obtain ⟨s,hs,hv⟩ := Option.map_eq_some_iff.mp hrun
  simp only [Prod.mk.injEq] at hv
  obtain ⟨hboot,hopen,hidle,hcalls⟩ := hv
  have hreach : Transition.Reach (fun s₀ => ∃ u, s₀ = initial listener.kind u) (step listener)
      (fun s => LoopStep s.toCore s.notices) s :=
    Transition.Reach.run_guarded (fun _ _ => loopStep_of_check) (.start ⟨(),rfl⟩) hs
  obtain ⟨hone,hhist⟩ := udp_receive_loop listener rfl rfl s hreach
  exact ⟨s, hs, hreach, hopen, hcalls, hone hboot hopen hidle, hhist⟩

/-- An empty datagram is neither an error nor more than zero bytes, and the loop ends. -/
theorem udp_receive_loop_dies : ∃ s : Endpoint Unit Unit,
    Transition.run (step listener) (initial .udpEndpoint ())
      [.setup (.bind 9) .obliging, .start, .read 0 [] ⟨1,2⟩, .run] = some s ∧
    s.boot = .done ∧ s.socket.isOpen = true ∧ s.idle = true ∧
    s.reads.length + s.notices.countP Notice.isReceived = 0 := by
  have hrun : (Transition.run (step listener) (initial .udpEndpoint ())
      [.setup (.bind 9) .obliging, .start, .read 0 [] ⟨1,2⟩, .run]).map
      (fun s : Endpoint Unit Unit => (s.boot, s.socket.isOpen, s.idle,
        s.reads.length + s.notices.countP Notice.isReceived)) = some (.done, true, true, 0) := by
    decide +kernel
  obtain ⟨s,hs,hv⟩ := Option.map_eq_some_iff.mp hrun
  simp only [Prod.mk.injEq] at hv
  exact ⟨s,hs,hv⟩

end Endpoint

end Librim
