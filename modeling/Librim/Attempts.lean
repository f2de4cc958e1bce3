import Librim.ReceiveLoop

/-! The connection attempts of a `TcpClient`: what a step can do to them, to the connections
made so far and to the socket. -/

set_option autoImplicit false

namespace Librim

variable {κ τ : Type}

def Notice.isConnected : Notice → Bool
  | .connected _ _ _ => true
  | _ => false

/-- Connection attempts that are outstanding, or whose handler has not run. -/
def Core.attempts (c : Core κ) (ns : List Notice) : Nat :=
  c.connects.length + ns.countP Notice.isConnected

/-- No attempt begins or ends, and the socket stays as it is or is closed. -/
structure Calm (c : Core κ) (ns : List Notice) (c' : Core κ) (ns' : List Notice) : Prop where
  connects : c'.connects = c.connects
  notices : ns'.filter Notice.isConnected = ns.filter Notice.isConnected
  made : connections c'.log = connections c.log
  conn : c'.socket.conn = c.socket.conn
  isOpen : c'.socket.isOpen = true → c.socket.isOpen = true

inductive Attempt (cfg : Config κ) (c : Core κ) (ns : List Notice) (e : Event τ) (c' : Core κ)
    (ns' : List Notice) : Prop where
  | calm : Calm c ns c' ns' → Attempt cfg c ns e c' ns'
  | begun {more : Nat} {opened : Bool} : e = .connect (.ok more) opened → c' = c.reopen opened more →
      ns' = ns → Attempt cfg c ns e c' ns'
  | done {a : Connecting} {i : Nat} {failed reopened : Bool} : c.connects[i]? = some a →
      failed = true ∨ c.live a.conn = true → c' = { c with connects := c.connects.eraseIdx i } →
      ns' = ns ++ [.connected a failed reopened] → Attempt cfg c ns e c' ns'
  | connected {a : Connecting} {reopened : Bool} : e = .run → c.running = .program [] →
      ns = .connected a false reopened :: ns' → c.socket.isOpen = true →
      c' = { c.emit (.connected c.socket.conn) with
        socket := { c.socket with isConnected := true }
        user := (cfg.onConnect c.user true).1
        running := .program ((cfg.onConnect c.user true).2.map .call ++
          [.resetReadTimeout c.socket.conn, .startReceive c.socket.conn]) } → Attempt cfg c ns e c' ns'
  | again {a : Connecting} {reopened : Bool} : e = .run → c.running = .program [] →
      ns = .connected a true reopened :: ns' → c.socket.isOpen = true → 0 < a.more →
      c' = c.reopen reopened (a.more-1) → Attempt cfg c ns e c' ns'
  | failed {a : Connecting} {failed reopened : Bool} : e = .run → c.running = .program [] →
      ns = .connected a failed reopened :: ns' →
      c' = { c with
        user := (cfg.onConnect c.user false).1
        running := .program ((cfg.onConnect c.user false).2.map .call) } → Attempt cfg c ns e c' ns'

section
variable {cfg : Config κ} {c c' : Core κ} {ns ns' : List Notice}

/-- Only the connect handler makes a connection. -/
theorem perform_connections (rest : List Act) (a : Act) :
    connections (c.perform cfg rest a).log = connections c.log := by
  have hdeliver : ∀ owner offset n sender next,
      connections (c.deliver cfg owner offset n sender next).log = connections c.log := by
    intro owner offset n sender next
    unfold Core.deliver
    split
    · rfl
    · simp [Core.emit,connections_append,Obs.connection]
  cases a with
  | scan owner currentOffset =>
    simp only [Core.perform]
    split
    · rfl
    · exact hdeliver ..
    · rfl
  | datagram owner n => exact hdeliver ..
  | call k =>
    cases k with
    | send request => rfl
    | close => exact (closeBody_silent cfg { c with running := .program rest }).connections
  | resetReadTimeout owner =>
    exact (resetReadTimeout_silent cfg { c with running := .program rest } owner).connections
  | startReceive owner =>
    exact (startReceive_silent cfg { c with running := .program rest } owner).connections
  | close => exact (closeBody_silent cfg { c with running := .program rest }).connections

theorem Calm.same (hc : c'.connects = c.connects)
    (hn : ns'.filter Notice.isConnected = ns.filter Notice.isConnected)
    (hl : connections c'.log = connections c.log) (hs : c'.socket = c.socket) : Calm c ns c' ns' :=
  ⟨hc, hn, hl, by rw [hs], by rw [hs]; exact id⟩

theorem Calm.attempts (h : Calm c ns c' ns') : c'.attempts ns' = c.attempts ns := by
  simp only [Core.attempts,List.countP_eq_length_filter,h.connects,h.notices]

theorem Calm.closeBody (h : Calm c ns c' ns') : Calm c ns (c'.closeBody cfg) ns' := by
  have hconnects : (c'.closeBody cfg).connects = c'.connects := by
    obtain ⟨_,_,_,_,hshape⟩ := Core.closeBody_shape cfg c'
    rw [hshape]
  refine ⟨hconnects.trans h.connects, h.notices, ?_, ?_, ?_⟩
  · rw [(closeBody_silent cfg c').connections]
    exact h.made
  · rw [Core.closeBody_conn]
    exact h.conn
  · simp

theorem Calm.perform (rest : List Act) (a : Act) : Calm c ns (c.perform cfg rest a) ns := by
  have hrest : Calm c ns { c with running := .program rest } ns := .same rfl rfl rfl rfl
  have hsame : (c.perform cfg rest a).socket = c.socket → Calm c ns (c.perform cfg rest a) ns := by
    intro hs
    obtain ⟨_,_,_,_,_,_,_,_,hshape⟩ := Core.perform_shape cfg c rest a
    exact .same (by rw [hshape]) rfl (perform_connections rest a) hs
  cases a with
  | scan owner currentOffset =>
    refine hsame ?_
    simp only [Core.perform]
    split <;> simp
  | datagram owner n | resetReadTimeout owner | startReceive owner => exact hsame (by simp [Core.perform])
  | call k =>
    cases k with
    | send request => exact hsame rfl
    | close => exact hrest.closeBody
  | close => exact hrest.closeBody

theorem Move.attempt (hk : cfg.kind = .tcpClient) {e : Event τ} (hm : Move cfg c ns e c' ns') :
    Attempt cfg c ns e c' ns' := by
  have happend : ∀ {n : Notice}, n.isConnected = false →
      (ns ++ [n]).filter Notice.isConnected = ns.filter Notice.isConnected := by
    intro n hn
    simp [hn]
  cases hm with
  | stay | wrote _ | release _ | finish _ | tick => exact .calm (.same rfl rfl rfl rfl)
  | close => exact .calm (.same rfl (happend rfl) rfl rfl)
  | connect hc =>
    simp only [Core.connect,hk] at hc
    split at hc <;> simp only [Option.some.injEq,reduceCtorEq] at hc
    · exact hc ▸ .calm (.same rfl rfl rfl rfl)
    · exact .begun rfl hc.symm rfl
  | setup hc => simp [Core.setup,hk] at hc
  | start hc => simp [Core.start,hk] at hc
  | @handle n ns hrun =>
    have htaken : n.isConnected = false →
        ns'.filter Notice.isConnected = (n :: ns').filter Notice.isConnected := by
      intro hn
      simp [hn]
    cases n with
    | received r result =>
      obtain ⟨_,_,hshape⟩ := Core.onReceived_shape cfg c r result hrun
      refine .calm ?_
      simp only [Core.handle,hshape]
      exact .same rfl (htaken rfl) rfl rfl
    | expired w aborted =>
      refine .calm ?_
      simp only [Core.handle]
      split <;> exact .same rfl (htaken rfl) rfl rfl
    | connected a failed reopened =>
      simp only [Core.handle,Core.onConnected]
      split
      · rename_i hmade
        simp only [Bool.and_eq_true,Bool.not_eq_true'] at hmade
        obtain ⟨hopen,rfl⟩ := hmade
        exact .connected rfl hrun rfl hopen rfl
      · rename_i hmade
        split
        · rename_i hmore
          simp only [Bool.and_eq_true,decide_eq_true_eq] at hmore
          obtain ⟨hopen,hmore⟩ := hmore
          obtain rfl : failed = true := by simpa [hopen] using hmade
          exact .again rfl hrun rfl hopen hmore rfl
        · exact .failed rfl hrun rfl rfl
    | close => exact .calm (.same rfl (htaken rfl) rfl rfl)
  | fail _ =>
    have hnext : Calm c ns { c with running := .program [] } ns := .same rfl rfl rfl rfl
    exact .calm hnext.closeBody
  | perform _ => exact .calm (.perform ..)
  | read hx =>
    obtain ⟨_,-,-,-,-,hx⟩ := Core.read_eq_some.mp hx
    obtain ⟨rfl,rfl⟩ := Prod.mk.inj hx
    exact .calm (.same rfl (happend rfl) rfl rfl)
  | readFail hx =>
    obtain ⟨_,-,-,hx⟩ := Core.readFail_eq_some.mp hx
    obtain ⟨rfl,rfl⟩ := Prod.mk.inj hx
    exact .calm (.same rfl (happend rfl) rfl rfl)
  | expire hx | abort hx =>
    obtain ⟨_,-,-,-,hx⟩ := Core.waitDone_eq_some.mp hx
    obtain ⟨rfl,rfl⟩ := Prod.mk.inj hx
    exact .calm (.same rfl (happend rfl) rfl rfl)
  | connectDone hx =>
    obtain ⟨a,ha,hlive,hx⟩ := Core.connectDone_eq_some.mp hx
    obtain ⟨rfl,rfl⟩ := Prod.mk.inj hx
    exact .done ha hlive rfl rfl

/-- Only a new descriptor opens the socket. -/
theorem Attempt.isOpen {e : Event τ} (h : Attempt cfg c ns e c' ns')
    (hconn : c'.socket.conn = c.socket.conn) : c'.socket.isOpen = true → c.socket.isOpen = true := by
  have hreopen : ∀ {opened more}, c' = c.reopen opened more → c'.socket.isOpen = true →
      c.socket.isOpen = true := by
    intro opened more hc
    subst hc
    cases opened with
    | true => simp [Core.reopen,Socket.reopen,Socket.close] at hconn
    | false => simp [Core.reopen,Socket.close]
  cases h with
  | calm hcalm => exact hcalm.isOpen
  | begun _ hc _ | again _ _ _ _ _ hc => exact hreopen hc
  | done _ _ hc _ | failed _ _ _ hc | connected _ _ _ _ hc => rw [hc]; exact id

end

end Librim
