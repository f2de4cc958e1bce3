import Librim.Channel
import Librim.ReceiveBounds

/-! The receive loop of a TCP endpoint goes on for as long as its connection is open. -/

set_option autoImplicit false

namespace Librim

open Net (listening)

variable {κ τ : Type}

/-- The loop was started on the descriptor that is in use. -/
def Joined (kind : Kind) (c : Core κ) : Prop :=
  if kind = .tcpConnection then c.boot = .done else connections c.log = [c.socket.conn]

/-- The loop stands somewhere, or the handler that ended it is about to close the socket; a read that is
outstanding is one of this connection. -/
structure Alive (c : Core κ) (ns : List Notice) : Prop where
  going : c.links ns ≠ [] ∨ .close ∈ c.running.acts
  reads : ∀ r ∈ c.reads, r.conn = c.socket.conn

/-- What the loop owes to an open connection. -/
def Owed (kind : Kind) (c : Core κ) (ns : List Notice) : Prop :=
  Joined kind c → c.socket.isOpen = true → Alive c ns

section owed
variable {cfg : Config κ} {c c' : Core κ} {ns ns' : List Notice}

theorem Joined.congr {kind : Kind} (hb : c'.boot = c.boot) (hs : c'.socket.conn = c.socket.conn)
    (hl : connections c'.log = connections c.log) : Joined kind c' ↔ Joined kind c := by
  rw [Joined, hb, hs, hl, Joined]

/-- The loop is where it was, or has moved on. -/
theorem Owed.congr {kind : Kind} (h : Owed kind c ns) (hb : c'.boot = c.boot)
    (hs : c'.socket.conn = c.socket.conn) (ho : c'.socket.isOpen = true → c.socket.isOpen = true)
    (hl : connections c'.log = connections c.log)
    (hgo : c.links ns ≠ [] ∨ .close ∈ c.running.acts → c'.links ns' ≠ [] ∨ .close ∈ c'.running.acts)
    (hr : ∀ r ∈ c'.reads, r ∈ c.reads ∨ r.conn = c.socket.conn) : Owed kind c' ns' := by
  intro hjoined hopen
  obtain ⟨hgoing,hreads⟩ := h ((Joined.congr hb hs hl).mp hjoined) (ho hopen)
  refine ⟨hgo hgoing, fun r hm => ?_⟩
  rw [hs]
  exact (hr r hm).elim (hreads r) id

theorem Owed.closed {kind : Kind} (h : c'.socket.isOpen = false) : Owed kind c' ns' := by
  intro _ hopen
  simp [h] at hopen

/-- A new descriptor is one on which no client was connected yet. -/
theorem Owed.reopen {kind : Kind} (hkind : kind = .tcpClient) (hmade : ∀ j ∈ connections c.log, j ≤ c.socket.conn)
    (opened : Bool) (more : Nat) : Owed kind (c.reopen opened more) ns' := by
  cases opened with
  | false => exact .closed rfl
  | true =>
    intro hjoined _
    rw [Joined, if_neg (by simp [hkind])] at hjoined
    have hle := hmade (c.socket.conn+1) (by
      simp only [Core.reopen,Socket.reopen,Socket.close] at hjoined
      rw [hjoined]
      exact List.mem_singleton_self _)
    omega

theorem Owed.received (hk : cfg.kind ≠ .udpEndpoint) {r : Read} {result : Except ErrorCode Nat}
    (h : Owed cfg.kind c (.received r result :: ns)) :
    Owed cfg.kind (c.onReceived cfg r result) ns := by
  have hclosing : Owed cfg.kind { c with running := .program [.close] } ns :=
    h.congr rfl rfl id rfl (fun _ => .inr (by simp [Running.acts])) (fun r hr => .inl hr)
  cases result with
  | error ec =>
    cases hkind : cfg.kind with
    | udpEndpoint => exact absurd hkind hk
    | tcpConnection | tcpClient => simpa only [Core.onReceived,hkind] using hclosing
  | ok n =>
    by_cases hpos : 0 < n
    · have hscan : Owed cfg.kind { c with
          window := { c.window with activeBytes := c.window.activeBytes+n }
          running := .program [.scan r.conn 0] } ns := by
        refine h.congr rfl rfl id rfl (fun _ => .inl ?_) (fun r hr => .inl hr)
        simp [Core.links,Running.acts,Act.link]
      cases hkind : cfg.kind with
      | udpEndpoint => exact absurd hkind hk
      | tcpConnection | tcpClient => simpa only [Core.onReceived,hkind,hpos,↓reduceIte] using hscan
    · cases hkind : cfg.kind with
      | udpEndpoint => exact absurd hkind hk
      | tcpConnection | tcpClient => simpa only [Core.onReceived,hkind,hpos,↓reduceIte] using hclosing

/-- A piece of a handler that is neither a place of the loop nor a `close`. -/
theorem Owed.skip (h : Owed cfg.kind c ns) {a : Act} {rest : List Act} (hrun : c.running = .program (a :: rest))
    (hlink : a.link = none) (hclose : a ≠ .close) (hrun' : c'.running = .program rest)
    (hr : c'.reads = c.reads) (hb : c'.boot = c.boot) (hs : c'.socket = c.socket)
    (hl : connections c'.log = connections c.log) : Owed cfg.kind c' ns := by
  refine h.congr hb (by rw [hs]) (by rw [hs]; exact id) hl ?_ (fun r hm => .inl (hr ▸ hm))
  simp only [Core.links,hrun,hrun',hr,Running.acts,List.filterMap_cons,hlink,List.mem_cons]
  rintro (hlinks | hmem | hmem)
  · exact .inl hlinks
  · exact absurd hmem.symm hclose
  · exact .inr hmem

theorem Owed.perform (hk : cfg.kind ≠ .udpEndpoint) (hsteady : Steady (c.links ns)) (h : Owed cfg.kind c ns)
    {a : Act} {rest : List Act} (hrun : c.running = .program (a :: rest)) :
    Owed cfg.kind (c.perform cfg rest a) ns := by
  have hmade : connections (c.perform cfg rest a).log = connections c.log := perform_connections rest a
  cases a with
  | scan owner k =>
    simp only [Core.perform] at hmade ⊢
    split
    · exact h.congr rfl rfl id rfl (fun _ => .inr (by simp [Running.acts])) (fun r hr => .inl hr)
    · rename_i n hscan
      rw [hscan] at hmade
      unfold Core.deliver at hmade ⊢
      split
      · refine h.congr rfl rfl id rfl (fun _ => .inl ?_) (fun r hr => .inl hr)
        simp [Core.links,Running.acts,Act.link]
      · rename_i callback hcb
        simp only [hcb] at hmade
        refine h.congr rfl rfl id hmade (fun _ => .inl ?_) (fun r hr => .inl hr)
        simp [Core.links,Running.acts,Act.link]
    · refine h.congr rfl rfl id rfl (fun _ => .inl ?_) (fun r hr => .inl hr)
      simp [Core.links,Running.acts,Act.link]
  | datagram owner n =>
    obtain ⟨hlinks,-,-,-⟩ := hsteady.head hrun rfl
    exact absurd (by rw [hlinks]; exact List.mem_cons_self) hsteady.stream
  | startReceive owner =>
    simp only [Core.perform,startReceive_tcp hk] at hmade ⊢
    intro hjoined hopen
    have hjoined' : Joined cfg.kind c := by
      refine (Joined.congr ?_ ?_ hmade).mp hjoined
      · rfl
      · rfl
    obtain ⟨-,hreads⟩ := h hjoined' hopen
    refine ⟨.inl (by simp [Core.links,Core.emit]), fun r hr => ?_⟩
    rcases List.mem_append.mp hr with hr | hr
    · exact hreads r hr
    · rw [List.mem_singleton.mp hr]
      exact if_pos hopen
  | call k =>
    cases k with
    | send request => exact h.skip hrun rfl (by simp) rfl rfl rfl rfl rfl
    | close => exact .closed (by simp [Core.perform])
  | resetReadTimeout owner =>
    obtain ⟨_,_,_,hshape⟩ := Core.resetReadTimeout_shape cfg { c with running := .program rest } owner
    simp only [Core.perform,hshape] at hmade ⊢
    exact h.skip hrun rfl (by simp) rfl rfl rfl rfl hmade
  | close => exact .closed (by simp [Core.perform])

/-- The connect handler starts the loop of a client, unless another connection was made before. -/
theorem Owed.onConnected (hclient : cfg.kind = .tcpClient) {a : Connecting} {failed reopened : Bool}
    (h : Owed cfg.kind c (.connected a failed reopened :: ns)) (hrun : c.running = .program [])
    (hbefore : ¬ Begun cfg.kind c → c.links (.connected a failed reopened :: ns) = [])
    (hmade : ∀ j ∈ connections c.log, j ≤ c.socket.conn) :
    Owed cfg.kind (c.onConnected cfg a failed reopened) ns := by
  unfold Core.onConnected
  split
  · intro hjoined _
    refine ⟨.inl (by simp [Core.links,Running.acts,Act.link]), ?_⟩
    have hfirst : connections c.log = [] := by
      simpa [Joined,hclient,Core.emit,connections_append,Obs.connection] using hjoined
    have hnil := hbefore (by simp [Begun,hclient,hfirst])
    have hreads : c.reads = [] := (links_eq_nil.mp hnil).1
    simp [Core.emit,hreads]
  · split
    · exact .reopen hclient hmade _ _
    · refine h.congr rfl rfl id rfl ?_ (fun r hr => .inl hr)
      simp only [Core.links,hrun,Running.acts,List.filterMap_nil,List.append_nil,List.filterMap_cons,Notice.link,
        links_calls,List.not_mem_nil,or_false]
      exact .inl

/-- A handler that does not concern the loop, or closes the socket, or does nothing. -/
theorem Owed.other {n : Notice} {acts : List Act} (h : Owed cfg.kind c (n :: ns)) (hrun : c.running = .program [])
    (hn : n.link = none) : Owed cfg.kind { c with running := .program acts } ns := by
  refine h.congr rfl rfl id rfl ?_ (fun r hr => .inl hr)
  simp only [Core.links,hrun,Running.acts,List.filterMap_nil,List.append_nil,List.filterMap_cons,hn,
    List.not_mem_nil,or_false]
  intro hne
  refine .inl (fun hnil => hne ?_)
  exact (List.append_eq_nil_iff.mp hnil).1

theorem Owed.handle (hk : cfg.kind ≠ .udpEndpoint) {n : Notice} (h : Owed cfg.kind c (n :: ns))
    (hrun : c.running = .program []) (hun : cfg.kind ≠ .tcpClient → Unconnected c.connects (n :: ns))
    (hbefore : ¬ Begun cfg.kind c → c.links (n :: ns) = [])
    (hmade : cfg.kind = .tcpClient → ∀ j ∈ connections c.log, j ≤ c.socket.conn) :
    Owed cfg.kind (c.handle cfg n) ns := by
  cases n with
  | received r result => exact h.received hk
  | expired w aborted =>
    simp only [Core.handle]
    split
    · have hsame : { c with running := .program [] } = c := by rw [← hrun]
      exact hsame ▸ h.other hrun rfl
    · exact h.other hrun rfl
  | connected a failed reopened =>
    by_cases hclient : cfg.kind = .tcpClient
    · exact h.onConnected hclient hrun hbefore (hmade hclient)
    · exact absurd List.mem_cons_self ((hun hclient).notices a failed reopened)
  | close => exact h.other hrun rfl

theorem Owed.start (hk : cfg.kind ≠ .udpEndpoint) (hbefore : ¬ Begun cfg.kind c → c.links ns = [])
    (hc : c.start cfg = some c') : Owed cfg.kind c' ns := by
  unfold Core.start at hc
  split at hc
  · rename_i hkind _
    simp only [Option.some.injEq] at hc
    subst hc
    intro hjoined
    obtain ⟨_,_,_,hshape⟩ := Core.resetReadTimeout_shape cfg { c with boot := .startReceive } c.socket.conn
    rw [hshape] at hjoined
    simp [Joined,hkind] at hjoined
  · rename_i hkind hb
    simp only [Option.some.injEq] at hc
    subst hc
    have hnil := hbefore (by simp [Begun,hkind,hb])
    have hreads : c.reads = [] := (links_eq_nil.mp hnil).1
    rw [startReceive_tcp hk]
    intro _ hopen
    refine ⟨.inl (by simp [Core.links]), fun r hr => ?_⟩
    simp only [hreads,List.nil_append,List.mem_singleton] at hr
    rw [hr]
    exact if_pos hopen
  · rename_i hkind
    exact absurd hkind hk
  · simp at hc

/-- The read that is outstanding completes: its handler is now the place of the loop. -/
theorem Owed.completed (hsteady : Steady (c.links ns)) (h : Owed cfg.kind c ns) {i : Nat} {r : Read}
    (hi : c.reads[i]? = some r) (result : Except ErrorCode Nat) (hr : c'.reads = c.reads.eraseIdx i)
    (hb : c'.boot = c.boot) (hs : c'.socket = c.socket) (hl : c'.log = c.log) :
    Owed cfg.kind c' (ns ++ [.received r result]) := by
  obtain ⟨-,herased,-,-⟩ := hsteady.outstanding hi
  refine h.congr hb (by rw [hs]) (by rw [hs]; exact id) (by rw [hl]) (fun _ => .inl ?_) ?_
  · simp [Core.links,Notice.link]
  · simp [hr,herased]

/-- One step of a TCP endpoint. -/
theorem Owed.move (hk : cfg.kind ≠ .udpEndpoint) {e : Event τ} (hm : Move cfg c ns e c' ns')
    (h : Owed cfg.kind c ns) (hsteady : Steady (c.links ns))
    (hun : cfg.kind ≠ .tcpClient → Unconnected c.connects ns)
    (hbefore : ¬ Begun cfg.kind c → c.links ns = [])
    (hmade : cfg.kind = .tcpClient → ∀ j ∈ connections c.log, j ≤ c.socket.conn) : Owed cfg.kind c' ns' := by
  have hposted : ∀ {d : Core κ} {n : Notice}, n.link = none → d.reads = c.reads → d.boot = c.boot →
      d.socket = c.socket → d.log = c.log → d.running = c.running → Owed cfg.kind d (ns ++ [n]) := by
    intro d n hn hr hb hs hl hrun
    refine h.congr hb (by rw [hs]) (by rw [hs]; exact id) (by rw [hl]) ?_ (fun r hm => .inl (hr ▸ hm))
    have hlinks : d.links (ns ++ [n]) = c.links ns := by
      rw [links_posted d ns hn, Core.links, hr, hrun, Core.links]
    rw [hlinks, hrun]
    exact id
  have hidle : ∀ {running : Running}, c.running.acts = [] → running.acts = [] →
      Owed cfg.kind { c with running := running } ns := by
    intro running hnow hthen
    refine h.congr rfl rfl id rfl ?_ (fun r hr => .inl hr)
    simp only [Core.links,hnow,hthen]
    exact id
  cases hm with
  | stay => exact h
  | tick => exact h.congr rfl rfl id rfl id (fun r hr => .inl hr)
  | close => exact hposted rfl rfl rfl rfl rfl rfl
  | connect hc =>
    by_cases hclient : cfg.kind = .tcpClient
    · simp only [Core.connect,hclient] at hc
      split at hc <;> simp only [Option.some.injEq,reduceCtorEq] at hc
      · exact hc ▸ h
      · exact hc ▸ .reopen hclient (hmade hclient) _ _
    · unfold Core.connect at hc
      split at hc <;> simp_all
  | setup hc => simp [Core.setup,hk] at hc
  | start hc => exact .start hk hbefore hc
  | handle hrun => exact h.handle hk hrun hun hbefore hmade
  | wrote hrun | release hrun | finish hrun => exact hidle (by rw [hrun]; rfl) rfl
  | fail hrun => exact .closed (by simp)
  | perform hrun => exact h.perform hk hsteady hrun
  | read hx =>
    obtain ⟨r,hi,-,-,-,hx⟩ := Core.read_eq_some.mp hx
    obtain ⟨rfl,rfl⟩ := Prod.mk.inj hx
    exact h.completed hsteady hi _ rfl rfl rfl rfl
  | readFail hx =>
    obtain ⟨r,hi,-,hx⟩ := Core.readFail_eq_some.mp hx
    obtain ⟨rfl,rfl⟩ := Prod.mk.inj hx
    exact h.completed hsteady hi _ rfl rfl rfl rfl
  | expire hx | abort hx =>
    obtain ⟨_,-,-,-,hx⟩ := Core.waitDone_eq_some.mp hx
    obtain ⟨rfl,rfl⟩ := Prod.mk.inj hx
    exact hposted rfl rfl rfl rfl rfl rfl
  | connectDone hx =>
    obtain ⟨_,-,-,hx⟩ := Core.connectDone_eq_some.mp hx
    obtain ⟨rfl,rfl⟩ := Prod.mk.inj hx
    exact hposted rfl rfl rfl rfl rfl rfl

end owed

namespace Endpoint

variable [DecidableEq τ] {cfg : Config κ} {s : Endpoint κ τ}

theorem Reached.owed (hk : cfg.kind ≠ .udpEndpoint) (h : Reached cfg s)
    (honce : cfg.kind = .tcpClient → (connections s.log).length ≤ 1) : Owed cfg.kind s.toCore s.notices := by
  induction h with
  | start hi =>
    obtain ⟨u,rfl⟩ := hi
    intro hjoined _
    by_cases hkind : cfg.kind = .tcpConnection
    · simp [Joined,hkind,initial,Core.initial] at hjoined
    · simp [Joined,hkind,initial,Core.initial,connections] at hjoined
  | @next s t e hr _ hs ih =>
    have hmove := step_move hs
    have honce' : cfg.kind = .tcpClient → (connections s.log).length ≤ 1 := by
      intro hclient
      exact Nat.le_trans (connections_mono hmove.log_extends).length_le (honce hclient)
    have hloop := (bounds_rule cfg).reached hk hr honce'
    exact (ih honce').move hk hmove hloop.steady (fun hc => Reached.unconnected hc hr)
      (fun hn => (hloop.before hn).1) (fun hclient => Reached.made hclient hr)

section live
variable (hk : cfg.kind ≠ .udpEndpoint) (h : Reached cfg s) (hjoined : Joined cfg.kind s.toCore)
include hjoined

omit [DecidableEq τ] in
theorem once_of_joined (hclient : cfg.kind = .tcpClient) : (connections s.log).length ≤ 1 := by
  rw [Joined, if_neg (by simp [hclient])] at hjoined
  simp [hjoined]

include hk h

theorem Reached.alive (hopen : s.socket.isOpen = true) : Alive s.toCore s.notices :=
  h.owed hk (once_of_joined hjoined) hjoined hopen

theorem Reached.room : ∀ r ∈ s.reads, 65536 ≤ r.room := by
  intro r hr
  have hloop := (bounds_rule cfg).reached hk h (once_of_joined hjoined)
  have hmem : Link.reading r ∈ s.toCore.links s.notices :=
    List.mem_append_left _ (List.mem_append_left _ (List.mem_map_of_mem hr))
  obtain ⟨-,-,hroom,-⟩ := (hloop.places _ hmem).2
  exact hroom

/-- With no handler running or waiting, a read of the present connection is outstanding. -/
theorem Reached.takes (hopen : s.socket.isOpen = true) (hrun : s.running = .program []) (hready : s.ready = [])
    {data : List Byte} (hne : data ≠ []) (hlen : data.length ≤ 65536) (sender : Address) :
    ∃ t, step cfg s (.read 0 data sender) = some t := by
  obtain ⟨hgoing,hconn⟩ := h.alive hk hjoined hopen
  have hlinks : s.reads ≠ [] := by
    rcases hgoing with hgoing | hclose
    · simpa [Core.links,hrun,hready,notices,Running.acts] using hgoing
    · simp [hrun,Running.acts] at hclose
  obtain ⟨r,rest,hreads⟩ := List.exists_cons_of_ne_nil hlinks
  have hr : r ∈ s.reads := by simp [hreads]
  have hlive : s.live r.conn = true := by simp [Core.live,hopen,hconn r hr]
  have hfits : data.length ≤ r.room := Nat.le_trans hlen (h.room hk hjoined r hr)
  have hi : s.reads[0]? = some r := by simp [hreads]
  have hread : s.toCore.read cfg 0 data sender = some _ :=
    Core.read_eq_some.mpr ⟨r,hi,hlive,hfits,.inr hne,rfl⟩
  exact ⟨s.notify _, congrArg (Option.map s.notify) hread⟩

end live

/-- What the receive loop of an open endpoint is like: it stands in one place, unless the handler
that ended it is about to close the socket. An outstanding read is one of the present
connection and offers 64 KiB at least. With no handler running or waiting, whatever the peer
sends is taken. -/
structure Receiving (cfg : Config κ) (s : Endpoint κ τ) : Prop where
  place : (s.toCore.links s.notices).length = 1 ∨ .close ∈ s.running.acts
  reads : ∀ r ∈ s.reads, r.conn = s.socket.conn ∧ 65536 ≤ r.room
  ready : s.running = .program [] → s.ready = [] → ∀ (data : List Byte) (sender : Address), data ≠ [] →
    data.length ≤ 65536 → ∃ t, step cfg s (.read 0 data sender) = some t

/-- As long as the socket of a started connection is open, in whatever way its read and write
handlers, its callbacks, timeouts and calls to `close` and `send` interleave, the endpoint
goes on receiving. The loop of a client is that of its one connection. -/
theorem receive_loop_live (cfg : Config κ) (hk : cfg.kind ≠ .udpEndpoint) (s : Endpoint κ τ)
    (h : Reached cfg s) (hjoined : Joined cfg.kind s.toCore) (hopen : s.socket.isOpen = true) :
    s.Receiving cfg := by
  have hloop := (bounds_rule cfg).reached hk h (once_of_joined hjoined)
  obtain ⟨hgoing,hconn⟩ := h.alive hk hjoined hopen
  refine ⟨hgoing.imp_left (fun hne => ?_), fun r hr => ⟨hconn r hr, h.room hk hjoined r hr⟩, ?_⟩
  · have hpos := List.length_pos_of_ne_nil hne
    have hone := hloop.steady.single
    omega
  · intro hrun hready data sender hne hlen
    exact h.takes hk hjoined hopen hrun hready hne hlen sender

/-- The beginning of a message stays in the buffer, and the next read is outstanding. -/
theorem receive_loop_live_halfway : ∃ s : Endpoint Unit Unit,
    Transition.run (step (listening .tcpConnection)) (initial .tcpConnection ())
      ([.start, .start] ++ (halfway ++ [.act true, .act true, .act true])) = some s ∧
    Reached (listening .tcpConnection) s ∧ s.socket.isOpen = true ∧
    s.stream = [0,0,0,5,9,0,0,0] ∧ callbacks s.log = [[0,0,0,5,9]] ∧ s.Receiving (listening .tcpConnection) := by
  have hrun : (Transition.run (step (listening .tcpConnection)) startedConnection
      (halfway ++ [.act true, .act true, .act true])).map (fun s => (s.socket.isOpen, s.boot, s.stream,
        callbacks s.log)) = some (true, .done, [0,0,0,5,9,0,0,0], [[0,0,0,5,9]]) := by decide +kernel
  obtain ⟨s,hs,hv⟩ := Option.map_eq_some_iff.mp hrun
  simp only [Prod.mk.injEq] at hv
  obtain ⟨hopen,hboot,hstream,hcalls⟩ := hv
  have hfirst := Transition.run_trans (run_start (listening .tcpConnection) rfl rfl) hs
  have hreach : Reached (listening .tcpConnection) s := reached_of_run hfirst
  exact ⟨s, hfirst, hreach, hopen, hstream, hcalls, receive_loop_live (listening .tcpConnection) (by decide) s hreach
    (by simp [Joined,listening,Config.bare,hboot]) hopen⟩

end Endpoint

end Librim
