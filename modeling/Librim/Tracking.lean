import Librim.Quiescence
import Librim.ReceiveLoop
import Librim.TcpServer

/-! The connections that a `TcpServer` tracks, and what a broadcast does to them. -/

set_option autoImplicit false

namespace Librim

variable {κ τ : Type}

/-- How often the body of `close()` has run on an open socket. -/
def closings (log : List (Nat × Obs)) : List Nat := log.filterMap (·.2.closes)

theorem closings_append (log : List (Nat × Obs)) (t : Nat) (o : Obs) :
    closings (log ++ [(t,o)]) = closings log ++ o.closes.toList := by
  cases o <;> simp [closings,Obs.closes]

/-- What a step of a connection does to its socket: nothing, or it closes it and calls `on_disc_`. -/
inductive Hangs (c c' : Core (Hooked κ)) : Prop where
  | still : c'.socket.isOpen = c.socket.isOpen → c'.user.disconnects = c.user.disconnects →
      closings c'.log = closings c.log → Hangs c c'
  | closed : c.socket.isOpen = true → c'.socket.isOpen = false →
      c'.user.disconnects = c.user.disconnects+1 → closings c'.log = closings c.log ++ [c.socket.conn] →
      Hangs c c'

section hangs
variable {cfg : ServerConfig κ} {c c' : Core (Hooked κ)} {ns ns' : List Notice}

/-- From a state that differs in other fields. -/
theorem Hangs.frame {b : Core (Hooked κ)} (h : Hangs b c') (hs : b.socket = c.socket) (hu : b.user = c.user)
    (hl : b.log = c.log) : Hangs c c' := by
  cases h with
  | still ho hd hc => exact .still (hs ▸ ho) (hu ▸ hd) (hl ▸ hc)
  | closed ho ho' hd hc => exact .closed (hs ▸ ho) ho' (hu ▸ hd) (by rw [hc, hs, hl])

variable (cfg) in
theorem hangs_closeBody : Hangs c (c.closeBody cfg.connection) := by
  by_cases hopen : c.socket.isOpen = true
  · refine .closed hopen (by simp) ?_ ?_
    · simp [Core.closeBody,hopen,ServerConfig.connection]
    · simp [Core.closeBody,hopen,Core.emit,closings_append,Obs.closes]
  · refine .still (by simp [hopen]) ?_ ?_
    · simp [Core.closeBody,hopen]
    · simp [Core.closeBody,hopen]

variable (cfg) in
theorem hangs_deliver (owner offset n : Nat) (sender : Option Address) (next : List Act) :
    Hangs c (c.deliver cfg.connection owner offset n sender next) := by
  refine .still (by simp) ?_ ?_
  · unfold Core.deliver
    split
    · rfl
    · rename_i callback hcb
      simp only [ServerConfig.connection,ServerConfig.onRecv,Option.map_eq_some_iff] at hcb
      obtain ⟨_,-,rfl⟩ := hcb
      rfl
  · unfold Core.deliver
    split
    · rfl
    · simp [Core.emit,closings_append,Obs.closes]

variable (cfg) in
theorem hangs_resetReadTimeout (owner : Nat) : Hangs c (c.resetReadTimeout cfg.connection owner) := by
  unfold Core.resetReadTimeout
  split
  · exact .still rfl rfl (by simp [Core.emit,closings_append,Obs.closes])
  · exact .still rfl rfl rfl

variable (cfg) in
theorem hangs_startReceive (owner : Nat) : Hangs c (c.startReceive cfg.connection owner) := by
  rw [startReceive_tcp (by simp [ServerConfig.connection])]
  exact .still rfl rfl (by simp [Core.emit,closings_append,Obs.closes])

variable (cfg) in
theorem hangs_perform (rest : List Act) (a : Act) : Hangs c (c.perform cfg.connection rest a) := by
  cases a with
  | scan owner currentOffset =>
    simp only [Core.perform]
    split
    · exact .still rfl rfl rfl
    · exact hangs_deliver cfg ..
    · exact .still rfl rfl rfl
  | datagram owner n => exact hangs_deliver cfg ..
  | call k =>
    cases k with
    | send request => exact .still rfl rfl rfl
    | close => exact (hangs_closeBody cfg (c := { c with running := .program rest })).frame rfl rfl rfl
  | resetReadTimeout owner =>
    exact (hangs_resetReadTimeout cfg (c := { c with running := .program rest }) owner).frame rfl rfl rfl
  | startReceive owner =>
    exact (hangs_startReceive cfg (c := { c with running := .program rest }) owner).frame rfl rfl rfl
  | close => exact (hangs_closeBody cfg (c := { c with running := .program rest })).frame rfl rfl rfl

theorem Move.hangs {e : Event τ} (hun : Unconnected c.connects ns) (hm : Move cfg.connection c ns e c' ns') :
    Hangs c c' := by
  have hdone := hm.completed
  cases hm with
  | stay | close | wrote _ | release _ | finish _ | tick => exact .still rfl rfl rfl
  | connect hc => simp [Core.connect,ServerConfig.connection] at hc
  | setup hc => simp [Core.setup,ServerConfig.connection] at hc
  | start hc =>
    unfold Core.start at hc
    split at hc <;> simp only [Option.some.injEq,reduceCtorEq] at hc
    · exact hc ▸ (hangs_resetReadTimeout cfg (c := { c with boot := .startReceive }) _).frame rfl rfl rfl
    · exact hc ▸ (hangs_startReceive cfg (c := { c with boot := .done }) _).frame rfl rfl rfl
    · exact hc ▸ (hangs_startReceive cfg (c := { c with boot := .done }) _).frame rfl rfl rfl
  | @handle n ns hrun =>
    cases n with
    | received r result =>
      obtain ⟨_,_,hshape⟩ := Core.onReceived_shape cfg.connection c r result hrun
      simp only [Core.handle,hshape]
      exact .still rfl rfl rfl
    | expired w aborted =>
      simp only [Core.handle]
      split <;> exact .still rfl rfl rfl
    | connected a failed reopened => exact absurd List.mem_cons_self (hun.notices a failed reopened)
    | close => exact .still rfl rfl rfl
  | fail _ => exact (hangs_closeBody cfg (c := { c with running := .program [] })).frame rfl rfl rfl
  | perform _ => exact hangs_perform cfg ..
  | read _ | readFail _ | expire _ | abort _ | connectDone _ =>
    obtain ⟨_,_,_,_,_,_,rfl⟩ := hdone rfl
    exact .still rfl rfl rfl

end hangs

namespace Endpoint

/-- Nothing was ever started on the connection. -/
structure Untouched (s : Endpoint κ τ) : Prop where
  ready : s.ready = []
  running : s.running = .program []
  callers : ∀ caller, s.out.pc caller = .idle
  writes : s.out.writes = []
  reads : s.reads = []
  waits : s.waits = []
  connects : s.connects = []

variable [DecidableEq τ]

/-- Without a call from outside it stays so. -/
theorem Untouched.step {cfg : Config κ} (hk : cfg.kind = .tcpConnection) {s t : Endpoint κ τ} {e : Event τ}
    (h : Untouched s) (he : e.isOwn = true) (hs : Endpoint.step cfg s e = some t) :
    Untouched t ∧ t.socket = s.socket := by
  cases e with
  | send _ _ | close | start => simp [Event.isOwn] at he
  | pop caller => simp [Endpoint.step,Pipeline.Store.pop,h.callers] at hs
  | fill caller => simp [Endpoint.step,fill,h.callers] at hs
  | post caller => simp [Endpoint.step,post,h.callers] at hs
  | connect resolved opened => simp [Endpoint.step,Core.connect,hk] at hs
  | setup call os => simp [Endpoint.step,Core.setup,hk] at hs
  | run => simp [Endpoint.step,h.ready] at hs
  | act kept => simp [Endpoint.step,act,h.running] at hs
  | write i n => simp [Endpoint.step,write,h.writes] at hs
  | writeDone i failed => simp [Endpoint.step,writeDone,h.writes] at hs
  | read i data sender => simp [Endpoint.step,Core.read,h.reads] at hs
  | readFail i ec => simp [Endpoint.step,Core.readFail,h.reads] at hs
  | expire i | abort i => simp [Endpoint.step,Core.waitDone,h.waits] at hs
  | connectDone i failed reopened => simp [Endpoint.step,Core.connectDone,h.connects] at hs
  | tick d =>
    simp only [Endpoint.step,Option.some.injEq] at hs
    subst hs
    exact ⟨⟨h.ready, h.running, h.callers, h.writes, h.reads, h.waits, h.connects⟩, rfl⟩

end Endpoint

namespace TcpServer

variable [DecidableEq τ]

/-- What a step of a server can be, with the calls that it makes. -/
inductive Deed (cfg : ServerConfig κ) (s : TcpServer κ τ) : List (ServerCall τ) → TcpServer κ τ → Prop where
  | accept {u : κ} :
      Deed cfg s [] { s with peers := s.peers ++ [⟨.initial .tcpConnection ⟨u,0⟩, .constructed⟩] }
  | insert {i : Nat} {p : Peer κ τ} : s.peers[i]? = some p → p.accepting = .constructed →
      Deed cfg s [] { s with
        peers := s.peers.set i { p with accepting := .inserted }
        connections := insert i s.connections }
  | announce {i : Nat} {p : Peer κ τ} : s.peers[i]? = some p → p.accepting = .inserted →
      Deed cfg s [] { s with peers := s.peers.set i { p with accepting := .announced } }
  | conn {i : Nat} {p : Peer κ τ} {e : Event τ} {c : Endpoint (Hooked κ) τ} : s.peers[i]? = some p →
      (p.accepting = .constructed → e.isOwn = true) → p.conn.step cfg.connection e = some c →
      Deed cfg s (sendCalls p i false e) (s.update i p c)
  | broadcast {t : τ} {data : List Byte} {order : List Nat} : s.broadcasting t = none → order.Nodup →
      order.toFinset = s.connections →
      Deed cfg s [.broadcast ⟨t,data,s.connections,order⟩] { s with
        broadcasting := Function.update s.broadcasting t (Broadcast.rest ⟨data,order⟩) }
  | sendNext {t : τ} {i : Nat} {data : List Byte} {left : List Nat} {p : Peer κ τ}
      {c : Endpoint (Hooked κ) τ} : s.broadcasting t = some ⟨data,i :: left⟩ → s.peers[i]? = some p →
      p.conn.step cfg.connection (.send t ⟨data,.implicit⟩) = some c →
      Deed cfg s (sendCalls p i true (.send t ⟨data,.implicit⟩)) { s.update i p c with
        broadcasting := Function.update s.broadcasting t (Broadcast.rest ⟨data,left⟩) }

theorem connStep_eq_some {cfg : ServerConfig κ} {s s' : TcpServer κ τ} {i : Nat} {p : Peer κ τ} {e : Event τ} :
    s.connStep cfg i p e = some s' ↔ ∃ c, p.conn.step cfg.connection e = some c ∧ s' = s.update i p c := by
  simp [connStep,eq_comm]

theorem callSend_eq_some {cfg : ServerConfig κ} {s s' : TcpServer κ τ} {t : τ} {i : Nat} {data : List Byte} :
    s.callSend cfg t i data = some s' ↔ ∃ p c, s.peers[i]? = some p ∧
      p.conn.step cfg.connection (.send t ⟨data,.implicit⟩) = some c ∧ s' = s.update i p c := by
  unfold callSend
  cases hi : s.peers[i]? with
  | none => simp
  | some p => simp [connStep,eq_comm]

theorem step_deed {cfg : ServerConfig κ} {s s' : TcpServer κ τ} {e : ServerEvent κ τ}
    (hs : step cfg s e = some s') : Deed cfg s (noted s e s') s' := by
  cases e with
  | accept u =>
    simp only [step,Option.some.injEq] at hs
    exact hs ▸ .accept
  | insert i =>
    simp only [step] at hs
    split at hs
    · rename_i p hi
      simp only [Option.ite_none_right_eq_some,Option.some.injEq] at hs
      obtain ⟨hacc,rfl⟩ := hs
      exact .insert hi hacc
    · simp at hs
  | onConnect i =>
    simp only [step] at hs
    split at hs
    · rename_i p hi
      simp only [Option.ite_none_right_eq_some,Option.some.injEq] at hs
      obtain ⟨hacc,rfl⟩ := hs
      exact .announce hi hacc
    · simp at hs
  | start i =>
    simp only [step] at hs
    split at hs
    · rename_i p hi
      simp only [Option.ite_none_right_eq_some,connStep_eq_some] at hs
      obtain ⟨hacc,c,hc,rfl⟩ := hs
      exact .conn hi (by simp [hacc]) hc
    · simp at hs
  | send t i data =>
    simp only [step] at hs
    split at hs
    · rename_i p hi
      simp only [Option.ite_none_right_eq_some,callSend_eq_some] at hs
      obtain ⟨⟨hacc,-⟩,p',c,hi',hc,rfl⟩ := hs
      obtain rfl : p = p' := Option.some.inj (hi.symm.trans hi')
      simp only [noted,isOpen_of_peer hi]
      exact .conn hi (fun h => absurd h hacc) hc
    · simp at hs
  | close i =>
    simp only [step] at hs
    split at hs
    · rename_i p hi
      simp only [Option.ite_none_right_eq_some,connStep_eq_some] at hs
      obtain ⟨hacc,c,hc,rfl⟩ := hs
      exact .conn hi (fun h => absurd h hacc) hc
    · simp at hs
  | conn i e =>
    simp only [step] at hs
    split at hs
    · rename_i p hi
      simp only [Option.ite_none_right_eq_some,connStep_eq_some] at hs
      obtain ⟨hown,c,hc,rfl⟩ := hs
      simp only [noted,hi,Option.elim_some]
      exact .conn hi (fun _ => hown) hc
    · simp at hs
  | broadcast t data order =>
    simp only [step,Option.ite_none_right_eq_some,Option.some.injEq,free,Bool.and_eq_true,
      Option.isNone_iff_eq_none] at hs
    obtain ⟨⟨⟨-,hfree⟩,hnodup,horder⟩,rfl⟩ := hs
    exact .broadcast hfree hnodup horder
  | sendNext t =>
    simp only [step] at hs
    split at hs
    · rename_i data i left hb
      simp only [Option.ite_none_right_eq_some,Option.map_eq_some_iff,callSend_eq_some] at hs
      obtain ⟨-,_,⟨p,c,hi,hc,rfl⟩,rfl⟩ := hs
      simp only [noted,hb,isOpen_of_peer hi]
      exact .sendNext hb hi hc
    · simp at hs

/-- What is known of one connection: `on_disc_` was called once if it is closed, and until it is
inserted nothing has happened to it. -/
structure Tended (cfg : ServerConfig κ) (p : Peer κ τ) : Prop where
  reached : Endpoint.Reached cfg.connection p.conn
  counted : p.conn.user.disconnects = (closings p.conn.log).length
  once : p.conn.user.disconnects = if p.conn.socket.isOpen then 0 else 1
  untouched : p.accepting = .constructed → p.conn.Untouched ∧ p.conn.socket.isOpen = true

structure Tracked (cfg : ServerConfig κ) (s : TcpServer κ τ) : Prop where
  tended : ∀ (i : Nat) (p : Peer κ τ), s.peers[i]? = some p → Tended cfg p
  live : ∀ i, i ∈ s.connections ↔
    ∃ p, s.peers[i]? = some p ∧ p.accepting ≠ .constructed ∧ p.conn.socket.isOpen = true

section tracked
variable {cfg : ServerConfig κ} {s : TcpServer κ τ} {i : Nat} {p : Peer κ τ} {c : Endpoint (Hooked κ) τ}

omit [DecidableEq τ] in
theorem getElem?_peers_set (hi : s.peers[i]? = some p) (q r : Peer κ τ) (j : Nat) :
    (s.peers.set i q)[j]? = some r ↔ (j = i ∧ r = q) ∨ (j ≠ i ∧ s.peers[j]? = some r) := by
  have hlt := (List.getElem?_eq_some_iff.mp hi).1
  by_cases hj : j = i
  · subst hj
    simp [hlt,eq_comm]
  · simp [List.getElem?_set_ne (Ne.symm hj),hj]

omit [DecidableEq τ] in
theorem getElem?_peers_concat {s' : TcpServer κ τ} {q : Peer κ τ} (hp : s'.peers = s.peers ++ [q]) (j : Nat)
    (r : Peer κ τ) : s'.peers[j]? = some r ↔ s.peers[j]? = some r ∨ (j = s.peers.length ∧ r = q) := by
  rw [hp]
  rcases Nat.lt_trichotomy j s.peers.length with hj | hj | hj
  · rw [List.getElem?_append_left hj]
    simp [Nat.ne_of_lt hj]
  · simp [hj,eq_comm]
  · rw [List.getElem?_append_right (by omega), List.getElem?_eq_none (by simp; omega),
      List.getElem?_eq_none (by omega)]
    simp [Nat.ne_of_gt hj]

theorem Tended.hangs (h : Tended cfg p) {e : Event τ} (hs : p.conn.step cfg.connection e = some c) :
    Hangs p.conn.toCore c.toCore :=
  Move.hangs (h.reached.unconnected (by simp [ServerConfig.connection])) (Endpoint.step_move hs)

theorem Tended.step (h : Tended cfg p) {e : Event τ} (hown : p.accepting = .constructed → e.isOwn = true)
    (hs : p.conn.step cfg.connection e = some c) : Tended cfg { p with conn := c } := by
  refine ⟨.next h.reached trivial hs, ?_, ?_, fun hacc => ?_⟩
  · cases h.hangs hs with
    | still _ hd hc =>
      rw [hd, hc]
      exact h.counted
    | closed _ _ hd hc =>
      rw [hd, hc, h.counted]
      simp
  · cases h.hangs hs with
    | still ho hd _ =>
      rw [hd, ho]
      exact h.once
    | closed ho ho' hd _ =>
      have hzero := h.once
      rw [ho] at hzero
      simp only [hd,ho',hzero]
      rfl
  · obtain ⟨hun,hopen⟩ := h.untouched hacc
    obtain ⟨hun',hsocket⟩ := hun.step rfl (hown hacc) hs
    exact ⟨hun', by rw [hsocket]; exact hopen⟩

/-- `on_disc_` has been called just if the step has closed the connection. -/
theorem Tended.disconnects_iff (h : Tended cfg p) {e : Event τ}
    (hs : p.conn.step cfg.connection e = some c) :
    c.user.disconnects = p.conn.user.disconnects ↔ c.socket.isOpen = p.conn.socket.isOpen := by
  cases h.hangs hs with
  | still ho hd _ => simp [ho,hd]
  | closed ho ho' hd _ => simp [ho,ho',hd]

theorem Tracked.update (h : Tracked cfg s) (hi : s.peers[i]? = some p) {e : Event τ}
    (hown : p.accepting = .constructed → e.isOwn = true) (hs : p.conn.step cfg.connection e = some c) :
    Tracked cfg (s.update i p c) := by
  have htended := h.tended i p hi
  refine ⟨fun j q hq => ?_, fun j => ?_⟩
  · rcases (getElem?_peers_set hi _ q j).mp hq with ⟨-,rfl⟩ | ⟨-,hq⟩
    · exact htended.step hown hs
    · exact h.tended j q hq
  · by_cases hj : j = i
    · subst hj
      have hmem : j ∈ s.connections ↔ p.accepting ≠ .constructed ∧ p.conn.socket.isOpen = true := by
        simp [h.live,hi]
      have hself : ∀ q, (s.peers.set j { p with conn := c })[j]? = some q ↔ q = { p with conn := c } := by
        simp [getElem?_peers_set hi]
      simp only [TcpServer.update,hself,exists_eq_left]
      split
      · rename_i hsame
        rw [hmem, (htended.disconnects_iff hs).mp hsame]
      · rename_i hne
        cases htended.hangs hs with
        | still _ hd _ => exact absurd hd hne
        | closed _ ho' _ _ => simp [ho']
    · have hother : j ∈ (s.update i p c).connections ↔ j ∈ s.connections := by
        unfold TcpServer.update
        split
        · exact Iff.rfl
        · simp [hj]
      rw [hother, h.live]
      simp [TcpServer.update,getElem?_peers_set hi,hj]

/-- The handler in `do_accept` gets on by one line. -/
theorem Tracked.advance (h : Tracked cfg s) (hi : s.peers[i]? = some p) {next : Accepting}
    (hnext : next ≠ .constructed) {connections : Finset Nat}
    (hc : ∀ j, j ∈ connections ↔ j ∈ s.connections ∨ (j = i ∧ p.accepting = .constructed))
    {s' : TcpServer κ τ} (hp : s'.peers = s.peers.set i { p with accepting := next })
    (hs : s'.connections = connections) : Tracked cfg s' := by
  have htended := h.tended i p hi
  refine ⟨fun j q hq => ?_, fun j => ?_⟩
  · rw [hp] at hq
    rcases (getElem?_peers_set hi _ q j).mp hq with ⟨-,rfl⟩ | ⟨-,hq⟩
    · exact ⟨htended.reached, htended.counted, htended.once, fun hacc => absurd hacc hnext⟩
    · exact h.tended j q hq
  · rw [hs, hp, hc]
    by_cases hj : j = i
    · subst hj
      by_cases hacc : p.accepting = .constructed
      · simp [h.live,hi,getElem?_peers_set hi,hacc,hnext,(htended.untouched hacc).2]
      · simp [h.live,hi,getElem?_peers_set hi,hacc,hnext]
    · rw [h.live]
      simp [getElem?_peers_set hi,hj]

theorem Tracked.accept (h : Tracked cfg s) (u : κ) {s' : TcpServer κ τ}
    (hp : s'.peers = s.peers ++ [⟨.initial .tcpConnection ⟨u,0⟩, .constructed⟩])
    (hs : s'.connections = s.connections) : Tracked cfg s' := by
  have hget := getElem?_peers_concat hp
  refine ⟨fun j q hq => ?_, fun j => ?_⟩
  · rcases (hget j q).mp hq with hq | ⟨-,rfl⟩
    · exact h.tended j q hq
    · exact ⟨.start ⟨_,rfl⟩, rfl, rfl, fun _ => ⟨⟨rfl, rfl, fun _ => rfl, rfl, rfl, rfl, rfl⟩, rfl⟩⟩
  · rw [hs, h.live]
    simp only [hget]
    constructor
    · rintro ⟨q,hq,hrest⟩
      exact ⟨q, .inl hq, hrest⟩
    · rintro ⟨q,hq | ⟨-,rfl⟩,hacc,hopen⟩
      · exact ⟨q, hq, hacc, hopen⟩
      · simp at hacc

theorem Tracked.congr (h : Tracked cfg s) {s' : TcpServer κ τ} (hp : s'.peers = s.peers)
    (hs : s'.connections = s.connections) : Tracked cfg s' :=
  ⟨by rw [hp]; exact h.tended, by rw [hp, hs]; exact h.live⟩

end tracked

/-- The connections that a broadcast has still to go to have been inserted. -/
def Visible (s : TcpServer κ τ) : Prop :=
  ∀ t b, s.broadcasting t = some b → ∀ i ∈ b.left, ∃ p, s.peers[i]? = some p ∧ p.accepting ≠ .constructed

theorem rest_eq_some {b b' : Broadcast} : b.rest = some b' ↔ b' = b ∧ b.left ≠ [] := by
  unfold Broadcast.rest
  split
  · rename_i hl
    simp [hl]
  · rename_i hl
    simp [hl,eq_comm]

omit [DecidableEq τ] in
/-- Insertions are never taken back. -/
theorem Visible.mono {s s' : TcpServer κ τ} (h : Visible s)
    (hb : ∀ t b, s'.broadcasting t = some b → ∀ i ∈ b.left,
      (∃ b', s.broadcasting t = some b' ∧ i ∈ b'.left) ∨ i ∈ s.connections)
    (hlive : ∀ i ∈ s.connections, ∃ p, s.peers[i]? = some p ∧ p.accepting ≠ .constructed)
    (hp : ∀ (i : Nat) (p : Peer κ τ), s.peers[i]? = some p → p.accepting ≠ .constructed →
      ∃ q, s'.peers[i]? = some q ∧ q.accepting ≠ .constructed) : Visible s' := by
  intro t b ht i hi
  rcases hb t b ht i hi with ⟨b',hb',hi'⟩ | hi'
  · obtain ⟨p,hpi,hacc⟩ := h t b' hb' i hi'
    exact hp i p hpi hacc
  · obtain ⟨p,hpi,hacc⟩ := hlive i hi'
    exact hp i p hpi hacc

/-- What the second loop of a thread's broadcast has still to do. -/
def remaining (s : TcpServer κ τ) (t : τ) : List (Nat × List Byte) :=
  (s.broadcasting t).elim [] (fun b => b.left.map (·,b.data))

omit [DecidableEq τ] in
theorem rest_elim (b : Broadcast) :
    b.rest.elim [] (fun b' => b'.left.map (·,b'.data)) = b.left.map (·,b.data) := by
  unfold Broadcast.rest
  split
  · rename_i hl
    simp [hl]
  · rfl

/-- A thread makes its broadcasts one after the other, each with one call on each connection of its
snapshot. -/
structure Loops (s : TcpServer κ τ) (h : List (ServerCall τ)) : Prop where
  orders : ∀ snap ∈ snapshots h, snap.order.Nodup ∧ snap.order.toFinset = snap.tracked
  going : ∀ t, forBroadcasts h t ++ s.remaining t = planned h t
  sequential : ∀ h₁ snap h₂, h = h₁ ++ .broadcast snap :: h₂ → forBroadcasts h₁ snap.thread = planned h₁ snap.thread

section loops
variable {s s' : TcpServer κ τ} {h : List (ServerCall τ)}

omit [DecidableEq τ] in
theorem split_concat {α : Type} {h h₁ h₂ : List α} {x y : α} (heq : h ++ [x] = h₁ ++ y :: h₂) :
    (h = h₁ ∧ x = y) ∨ ∃ h₃, h = h₁ ++ y :: h₃ := by
  rcases List.eq_nil_or_concat h₂ with rfl | ⟨h₃,z,rfl⟩
  · obtain ⟨hh,hx⟩ := List.append_inj' heq rfl
    exact .inl ⟨hh, (List.cons.inj hx).1⟩
  · rw [List.concat_eq_append, ← List.cons_append, ← List.append_assoc] at heq
    exact .inr ⟨h₃, (List.append_inj' heq rfl).1⟩

/-- A call of `send`, by a thread or a callback itself or in the loop of a broadcast. -/
theorem Loops.send (hl : Loops s h) (call : SendCall τ)
    (hr : ∀ t, s.remaining t = (if call.caller = some t ∧ call.broadcast = true then [(call.conn,call.data)] else []) ++
      s'.remaining t) : Loops s' (h ++ [.send call]) := by
  refine ⟨?_, fun t => ?_, fun h₁ snap h₂ heq => ?_⟩
  · rw [snapshots_append]
    simpa [snapshots] using hl.orders
  · have hplanned : planned (h ++ [.send call]) t = planned h t := by simp [planned,snapshots]
    rw [hplanned, ← hl.going t, hr t, ← List.append_assoc, forBroadcasts_append]
    congr 2
    by_cases hc : call.caller = some t ∧ call.broadcast = true
    · simp [forBroadcasts,sends,hc]
    · simp [forBroadcasts,sends,hc]
  · rcases split_concat heq with ⟨-,hx⟩ | ⟨h₃,hh⟩
    · simp at hx
    · exact hl.sequential h₁ snap h₃ hh

/-- A thread takes its snapshot. -/
theorem Loops.broadcast (hl : Loops s h) {snap : Snapshot τ} (hfree : s.broadcasting snap.thread = none)
    (hnodup : snap.order.Nodup) (horder : snap.order.toFinset = snap.tracked)
    (hb : s'.broadcasting = Function.update s.broadcasting snap.thread (Broadcast.rest ⟨snap.data,snap.order⟩)) :
    Loops s' (h ++ [.broadcast snap]) := by
  have hrem : s.remaining snap.thread = [] := by simp [remaining,hfree]
  have hbefore : forBroadcasts h snap.thread = planned h snap.thread := by
    rw [← hl.going snap.thread, hrem, List.append_nil]
  have hfor : ∀ t, forBroadcasts (h ++ [.broadcast snap]) t = forBroadcasts h t := by
    intro t
    simp [forBroadcasts,sends]
  refine ⟨?_, fun t => ?_, fun h₁ snap' h₂ heq => ?_⟩
  · rw [snapshots_append]
    intro snap' hm
    rcases List.mem_append.mp hm with hm | hm
    · exact hl.orders snap' hm
    · obtain rfl : snap' = snap := by simpa [snapshots] using hm
      exact ⟨hnodup,horder⟩
  · rw [hfor, planned_append, remaining, hb]
    by_cases ht : t = snap.thread
    · subst ht
      rw [Function.update_self, rest_elim, hbefore]
      simp [planned,snapshots,Snapshot.calls]
    · rw [Function.update_of_ne ht]
      have hnone : planned [.broadcast snap] t = [] := by simp [planned,snapshots,Ne.symm ht]
      rw [hnone, List.append_nil]
      exact hl.going t
  · rcases split_concat heq with ⟨rfl,hx⟩ | ⟨h₃,hh⟩
    · obtain rfl : snap = snap' := by simpa using hx
      exact hbefore
    · exact hl.sequential h₁ snap' h₃ hh

theorem Loops.congr (hl : Loops s h) (hb : s'.broadcasting = s.broadcasting) : Loops s' h := by
  refine ⟨hl.orders, fun t => ?_, hl.sequential⟩
  rw [remaining, hb]
  exact hl.going t

/-- A connection takes a step of its own. -/
theorem Loops.own {p : Peer κ τ} {i : Nat} {e : Event τ} (hl : Loops s h) (hb : s'.broadcasting = s.broadcasting) :
    Loops s' (h ++ sendCalls p i false e) := by
  cases hasks : p.conn.asks e with
  | none =>
    simp only [sendCalls,hasks,Option.toList_none,List.map_nil,List.append_nil]
    exact hl.congr hb
  | some asked =>
    simp only [sendCalls,hasks,Option.toList_some,List.map_cons,List.map_nil]
    exact hl.send _ (by simp [remaining,hb])

end loops

/-- Each caller's payloads are on record at the connection just as the calls of `send` that found it
open. -/
structure Copied (s : TcpServer κ τ) (h : List (ServerCall τ)) : Prop where
  sent : ∀ (i : Nat) (p : Peer κ τ), s.peers[i]? = some p → ∀ caller,
    (p.conn.out.sent caller).map (·.request.data) = (taken h caller i).map (·.data)
  known : ∀ call ∈ sends h, call.conn < s.peers.length

section copied
variable {cfg : ServerConfig κ} {s s' : TcpServer κ τ} {h : List (ServerCall τ)} {i : Nat} {p : Peer κ τ}

/-- Nobody calls `send`. -/
theorem Copied.quiet (hc : Copied s h) (hi : s.peers[i]? = some p) {q : Peer κ τ}
    (hq : ∀ caller, q.conn.out.sent caller = p.conn.out.sent caller) (hp : s'.peers = s.peers.set i q) :
    Copied s' h := by
  refine ⟨fun j r hr caller => ?_, ?_⟩
  · rw [hp] at hr
    rcases (getElem?_peers_set hi q r j).mp hr with ⟨rfl,rfl⟩ | ⟨-,hr⟩
    · rw [hq]
      exact hc.sent j p hi caller
    · exact hc.sent j r hr caller
  · rw [hp, List.length_set]
    exact hc.known

theorem Copied.step (hc : Copied s h) (hi : s.peers[i]? = some p) {c : Endpoint (Hooked κ) τ} {e : Event τ}
    (hs : p.conn.step cfg.connection e = some c) (hp : s'.peers = s.peers.set i { p with conn := c })
    (broadcast : Bool) : Copied s' (h ++ sendCalls p i broadcast e) := by
  cases hasks : p.conn.asks e with
  | none =>
    simp only [sendCalls,hasks,Option.toList_none,List.map_nil,List.append_nil]
    exact hc.quiet hi (fun caller => Endpoint.sent_of_silent hs (by simp [hasks])) hp
  | some asked =>
    obtain ⟨who,request⟩ := asked
    simp only [sendCalls,hasks,Option.toList_some,List.map_cons,List.map_nil]
    refine ⟨fun j r hr caller => ?_, fun call hm => ?_⟩
    · rw [hp] at hr
      rw [taken_append]
      rcases (getElem?_peers_set hi _ r j).mp hr with ⟨rfl,rfl⟩ | ⟨hj,hr⟩
      · by_cases hcaller : caller = who
        · subst hcaller
          have hsent := congrArg (List.map Request.data) (Endpoint.requests_of_asks rfl hs hasks)
          simp only [List.map_append,List.map_map,Function.comp_def] at hsent
          rw [hsent, hc.sent j p hi caller, List.map_append]
          by_cases hopen : p.conn.socket.isOpen = true
          · simp [taken,sends,hopen]
          · simp [taken,sends,hopen]
        · have hsilent : ∀ request, p.conn.asks e ≠ some (caller,request) := by
            intro request' heq
            rw [hasks, Option.some.injEq, Prod.mk.injEq] at heq
            exact hcaller heq.1.symm
          rw [Endpoint.sent_of_silent hs hsilent, hc.sent j p hi caller]
          simp [taken,sends,Ne.symm hcaller]
      · rw [hc.sent j r hr caller]
        simp [taken,sends,Ne.symm hj]
    · rw [hp, List.length_set]
      rw [sends_append] at hm
      rcases List.mem_append.mp hm with hm | hm
      · exact hc.known call hm
      · obtain rfl : call = ⟨who,i,request.data,p.conn.socket.isOpen,broadcast⟩ := by simpa [sends] using hm
        exact (List.getElem?_eq_some_iff.mp hi).1

theorem Copied.accept (hc : Copied s h) (u : κ)
    (hp : s'.peers = s.peers ++ [⟨.initial .tcpConnection ⟨u,0⟩, .constructed⟩]) : Copied s' h := by
  refine ⟨fun j q hq caller => ?_, fun call hm => ?_⟩
  · rcases (getElem?_peers_concat hp j q).mp hq with hq | ⟨rfl,rfl⟩
    · exact hc.sent j q hq caller
    · have hnone : taken h caller s.peers.length = [] := by
        simp only [taken,List.filter_eq_nil_iff,decide_eq_true_eq]
        rintro call hm ⟨-,hconn,-⟩
        have := hc.known call hm
        omega
      rw [hnone]
      rfl
  · have := hc.known call hm
    rw [hp, List.length_append]
    omega

theorem Copied.broadcast (hc : Copied s h) (hp : s'.peers = s.peers) (snap : Snapshot τ) :
    Copied s' (h ++ [.broadcast snap]) := by
  refine ⟨fun i p hi caller => ?_, fun call hm => ?_⟩
  · have hsame : taken (h ++ [.broadcast snap]) caller i = taken h caller i := by simp [taken,sends]
    rw [hsame]
    exact hc.sent i p (hp ▸ hi) caller
  · rw [hp]
    exact hc.known call (by simpa [sends] using hm)

end copied

structure Kept (cfg : ServerConfig κ) (s : TcpServer κ τ) (h : List (ServerCall τ)) : Prop where
  tracked : Tracked cfg s
  visible : Visible s
  loops : Loops s h
  copied : Copied s h

theorem Kept.deed {cfg : ServerConfig κ} {s s' : TcpServer κ τ} {h calls : List (ServerCall τ)}
    (hk : Kept cfg s h) (hd : Deed cfg s calls s') : Kept cfg s' (h ++ calls) := by
  have hset : ∀ {i : Nat} {p : Peer κ τ} {q : Peer κ τ} {peers}, s.peers[i]? = some p →
      peers = s.peers.set i q → (p.accepting ≠ .constructed → q.accepting ≠ .constructed) →
      ∀ (j : Nat) (r : Peer κ τ), s.peers[j]? = some r → r.accepting ≠ .constructed →
        ∃ r', peers[j]? = some r' ∧ r'.accepting ≠ .constructed := by
    intro i p q peers hi hpeers hacc j r hr hracc
    rw [hpeers]
    by_cases hj : j = i
    · subst hj
      obtain rfl := Option.some.inj (hi.symm.trans hr)
      exact ⟨q, (getElem?_peers_set hi q q j).mpr (.inl ⟨rfl,rfl⟩), hacc hracc⟩
    · exact ⟨r, (getElem?_peers_set hi q r j).mpr (.inr ⟨hj,hr⟩), hracc⟩
  have hlive : ∀ i ∈ s.connections, ∃ p, s.peers[i]? = some p ∧ p.accepting ≠ .constructed := by
    intro i hi
    obtain ⟨p,hp,hacc,-⟩ := (hk.tracked.live i).mp hi
    exact ⟨p, hp, hacc⟩
  have hsame : ∀ t b, s.broadcasting t = some b → ∀ i ∈ b.left,
      (∃ b', s.broadcasting t = some b' ∧ i ∈ b'.left) ∨ i ∈ s.connections :=
    fun t b hb i hi => .inl ⟨b, hb, hi⟩
  cases hd with
  | @accept u =>
    rw [List.append_nil]
    refine ⟨hk.tracked.accept u rfl rfl, hk.visible.mono hsame hlive ?_, hk.loops.congr rfl, hk.copied.accept u rfl⟩
    intro i p hi hacc
    exact ⟨p, (getElem?_peers_concat rfl i p).mpr (.inl hi), hacc⟩
  | @insert i p hi hacc =>
    rw [List.append_nil]
    refine ⟨hk.tracked.advance hi (by simp) (fun j => ?_) rfl rfl,
      hk.visible.mono hsame hlive (hset hi rfl (by simp)), hk.loops.congr rfl,
      hk.copied.quiet hi (q := { p with accepting := .inserted }) (fun _ => rfl) rfl⟩
    simp [hacc,or_comm]
  | @announce i p hi hacc =>
    rw [List.append_nil]
    refine ⟨hk.tracked.advance hi (by simp) (fun j => ?_) rfl rfl,
      hk.visible.mono hsame hlive (hset hi rfl (by simp)), hk.loops.congr rfl,
      hk.copied.quiet hi (q := { p with accepting := .announced }) (fun _ => rfl) rfl⟩
    simp [hacc]
  | @conn i p e c hi hown hs =>
    exact ⟨hk.tracked.update hi hown hs, hk.visible.mono hsame hlive (hset hi rfl id), hk.loops.own rfl,
      hk.copied.step hi hs rfl false⟩
  | @broadcast t data order hfree hnodup horder =>
    refine ⟨hk.tracked.congr rfl rfl, hk.visible.mono ?_ hlive (fun i p hi hacc => ⟨p,hi,hacc⟩),
      hk.loops.broadcast hfree hnodup horder rfl, ?_⟩
    · intro u b hu i hi
      replace hu : Function.update s.broadcasting t (Broadcast.rest ⟨data,order⟩) u = some b := hu
      by_cases hut : u = t
      · subst hut
        rw [Function.update_self, rest_eq_some] at hu
        obtain ⟨rfl,-⟩ := hu
        exact .inr (horder ▸ List.mem_toFinset.mpr hi)
      · rw [Function.update_of_ne hut] at hu
        exact .inl ⟨b, hu, hi⟩
    · refine Copied.broadcast hk.copied ?_ _
      rfl
  | @sendNext t i data left p c hgoing hi hs =>
    obtain ⟨p',hi',hacc⟩ := hk.visible t _ hgoing i List.mem_cons_self
    obtain rfl := Option.some.inj (hi.symm.trans hi')
    have htracked := hk.tracked.update hi (fun hc => absurd hc hacc) hs
    refine ⟨htracked.congr rfl rfl, hk.visible.mono ?_ hlive (hset hi rfl (fun hne => hne)),
      hk.loops.send ⟨some t,i,data,p.conn.socket.isOpen,true⟩ (fun u => ?_), hk.copied.step hi hs rfl true⟩
    · intro u b hu j hj
      replace hu : Function.update s.broadcasting t (Broadcast.rest ⟨data,left⟩) u = some b := hu
      by_cases hut : u = t
      · subst hut
        rw [Function.update_self, rest_eq_some] at hu
        obtain ⟨rfl,-⟩ := hu
        exact .inl ⟨_, hgoing, List.mem_cons_of_mem _ hj⟩
      · rw [Function.update_of_ne hut] at hu
        exact .inl ⟨b, hu, hj⟩
    · by_cases hut : u = t
      · subst hut
        simp only [remaining,hgoing,Function.update_self,rest_elim]
        simp
      · simp [remaining,Function.update_of_ne hut,Ne.symm hut]

theorem Recorded.kept {cfg : ServerConfig κ} {s : TcpServer κ τ} {h : List (ServerCall τ)}
    (hr : Recorded cfg (s,h)) : Kept cfg s h := by
  refine Transition.Reach.invariant (fun p : TcpServer κ τ × List (ServerCall τ) => Kept cfg p.1 p.2) ?_ ?_ hr
  · rintro ⟨s,h⟩ ⟨rfl,rfl⟩
    refine ⟨⟨?_, ?_⟩, ?_, ⟨?_, ?_, ?_⟩, ⟨?_, ?_⟩⟩ <;>
      simp [initial,Visible,snapshots,sends,remaining,forBroadcasts,planned]
  · intro p e q ih _ hs
    obtain ⟨hs,hh⟩ := Transition.recorded_eq_some.mp hs
    rw [hh]
    exact ih.deed (step_deed hs)

theorem Reached.tracked {cfg : ServerConfig κ} {s : TcpServer κ τ} (h : Reached cfg s) : Tracked cfg s := by
  obtain ⟨history,hr⟩ := Transition.Reach.exists_recorded noted h
  exact (Recorded.kept hr).tracked

/-- A server tracks its live connections: `connections_` has those that were inserted and whose
`close()` has not run on an open socket; `on_disc_` is called at most once for each, after it
was inserted. From its snapshot on, the calls that a thread makes for broadcasts are one on each
connection of the snapshot, then those of its later broadcasts, and it makes no others. The
payloads of the calls that found a connection open, made by a thread or by the callback of the connection,
are those in its queue or on their way there, of each caller in order. -/
structure Tracking (s : TcpServer κ τ) (h : List (ServerCall τ)) : Prop where
  live : ∀ i, i ∈ s.connections ↔
    ∃ p, s.peers[i]? = some p ∧ p.accepting ≠ .constructed ∧ closings p.conn.log = []
  disconnects : ∀ (i : Nat) (p : Peer κ τ), s.peers[i]? = some p →
    p.conn.user.disconnects = (closings p.conn.log).length ∧ p.conn.user.disconnects ≤ 1 ∧
      (p.accepting = .constructed → p.conn.user.disconnects = 0)
  broadcasts : ∀ h₁ snap h₂, h = h₁ ++ .broadcast snap :: h₂ →
    snap.order.Nodup ∧ snap.order.toFinset = snap.tracked ∧
    forBroadcasts h₂ snap.thread ++ s.remaining snap.thread = snap.calls ++ planned h₂ snap.thread
  only : ∀ t, forBroadcasts h t ++ s.remaining t = planned h t
  copies : ∀ (i : Nat) (p : Peer κ τ), s.peers[i]? = some p → ∀ caller,
    (taken h caller i).map (·.data) = (p.conn.out.entered.filter (·.1 = caller)).map (·.2.buf) ++
      (p.conn.pipeline.posted.filter (·.1 = caller)).map (fun x => (p.conn.out.mem x.2).buf) ++
      (p.conn.out.pc caller).pending.map (·.request.data)

theorem Loops.broadcasts {s : TcpServer κ τ} {h h₁ h₂ : List (ServerCall τ)} {snap : Snapshot τ}
    (hl : Loops s h) (heq : h = h₁ ++ .broadcast snap :: h₂) :
    forBroadcasts h₂ snap.thread ++ s.remaining snap.thread = snap.calls ++ planned h₂ snap.thread := by
  have hgoing := hl.going snap.thread
  have hfor : forBroadcasts (.broadcast snap :: h₂) snap.thread = forBroadcasts h₂ snap.thread := rfl
  have hplanned : planned (.broadcast snap :: h₂) snap.thread = snap.calls ++ planned h₂ snap.thread := by
    simp [planned,snapshots]
  rw [heq, forBroadcasts_append, planned_append, hl.sequential h₁ snap h₂ heq, hfor, hplanned,
    List.append_assoc] at hgoing
  exact List.append_cancel_left hgoing

theorem tracks_live_connections (cfg : ServerConfig κ) (s : TcpServer κ τ) (h : List (ServerCall τ))
    (hr : Recorded cfg (s,h)) : Tracking s h := by
  obtain ⟨htracked,-,hloops,hcopied⟩ := hr.kept
  have hclosed : ∀ {i : Nat} {p : Peer κ τ}, s.peers[i]? = some p →
      (p.conn.socket.isOpen = true ↔ closings p.conn.log = []) := by
    intro i p hi
    have htended := htracked.tended i p hi
    have hlen := htended.counted.symm.trans htended.once
    rw [← List.length_eq_zero_iff, hlen]
    simp
  refine ⟨fun i => ?_, fun i p hi => ?_, fun h₁ snap h₂ heq => ?_, hloops.going, fun i p hi caller => ?_⟩
  · rw [htracked.live]
    constructor
    · rintro ⟨p,hi,hacc,hopen⟩
      exact ⟨p, hi, hacc, (hclosed hi).mp hopen⟩
    · rintro ⟨p,hi,hacc,hnone⟩
      exact ⟨p, hi, hacc, (hclosed hi).mpr hnone⟩
  · have htended := htracked.tended i p hi
    refine ⟨htended.counted, ?_, fun hacc => ?_⟩
    · rw [htended.once]
      split <;> simp
    · rw [htended.once, (htended.untouched hacc).2]
      rfl
  · have hmem : snap ∈ snapshots h := by simp [heq,snapshots]
    obtain ⟨hnodup,horder⟩ := hloops.orders snap hmem
    exact ⟨hnodup, horder, hloops.broadcasts heq⟩
  · rw [← hcopied.sent i p hi caller]
    exact (htracked.tended i p hi).reached.sent_eq (by simp [ServerConfig.connection]) caller

/-- Messages of four bytes and no callback. -/
def bareServer : ServerConfig Unit := ⟨⟨4, 4, fun _ => 4⟩, 0, none⟩

/-- The second connection is closed while a thread goes through both, and then the thread broadcasts
to the first. -/
def broadcastRun : List (ServerEvent Unit Unit) :=
  [.accept (), .insert 0, .onConnect 0, .start 0, .start 0, .accept (), .insert 1, .broadcast () [7] [1,0],
    .close 1, .onConnect 1, .conn 1 .run, .conn 1 (.act true), .start 1, .sendNext (), .sendNext (),
    .conn 0 (.pop (some ())), .conn 0 (.fill (some ())), .conn 0 (.post (some ())), .conn 0 .run,
    .broadcast () [8] [0], .sendNext ()]

theorem tracks_live_connections_closed : ∃ (s : TcpServer Unit Unit) (h : List (ServerCall Unit)),
    Transition.run (Transition.recorded (step bareServer) noted) (initial,[]) broadcastRun = some (s,h) ∧
    Recorded bareServer (s,h) ∧ s.connections = {0} ∧ s.peers.map (·.conn.user.disconnects) = [0,1] ∧
    (snapshots h).map (fun snap => (snap.data,snap.order)) = [([7],[1,0]), ([8],[0])] ∧
    sends h = [⟨some (),1,[7],false,true⟩, ⟨some (),0,[7],true,true⟩, ⟨some (),0,[8],true,true⟩] ∧ Tracking s h := by
  have hrun : (Transition.run (Transition.recorded (step bareServer) noted) (initial,[]) broadcastRun).map
      (fun p : TcpServer Unit Unit × List (ServerCall Unit) => (decide (p.1.connections = {0}),
        p.1.peers.map (·.conn.user.disconnects),
        decide ((snapshots p.2).map (fun snap => (snap.data,snap.order)) = [([7],[1,0]), ([8],[0])]),
        decide (sends p.2 = [⟨some (),1,[7],false,true⟩, ⟨some (),0,[7],true,true⟩, ⟨some (),0,[8],true,true⟩]))) =
      some (true, [0,1], true, true) := by decide +kernel
  obtain ⟨⟨s,h⟩,hs,hv⟩ := Option.map_eq_some_iff.mp hrun
  simp only [Prod.mk.injEq,decide_eq_true_eq] at hv
  obtain ⟨hconns,hdisc,hsnapshots,hsends⟩ := hv
  have hreach : Recorded bareServer (s,h) := Transition.reachable_run (.start ⟨rfl,rfl⟩) hs
  exact ⟨s, h, hs, hreach, hconns, hdisc, hsnapshots, hsends, tracks_live_connections bareServer s h hreach⟩

end TcpServer

end Librim
