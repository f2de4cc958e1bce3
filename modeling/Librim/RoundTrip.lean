import Librim.TcpReceive

/-! A `TcpClient` and a `TcpConnection` at the two ends of one connection: the bytes that one
side reads are those that the other has written, in order. -/

set_option autoImplicit false

namespace Librim

open SelfDelimiting
open Pipeline (Wired)

variable {κ τ : Type}

/-- The flag of a client is set on a descriptor on which it was connected, or on a later one. -/
def Flagged (c : Core κ) : Prop :=
  c.socket.isConnected = true → ∃ j ∈ connections c.log, j ≤ c.socket.conn

theorem Flagged.mono {c c' : Core κ} (h : Flagged c)
    (hflag : c'.socket.isConnected = true → c.socket.isConnected = true)
    (hconn : c.socket.conn ≤ c'.socket.conn) (hlog : c.log <+: c'.log) : Flagged c' := by
  intro hf
  obtain ⟨j,hj,hle⟩ := h (hflag hf)
  exact ⟨j, (connections_mono hlog).subset hj, Nat.le_trans hle hconn⟩

theorem closeBody_isConnected (cfg : Config κ) (c : Core κ) :
    (c.closeBody cfg).socket.isConnected = false := by
  unfold Core.closeBody; split <;> rfl

theorem Flagged.closeBody {cfg : Config κ} {c : Core κ} : Flagged (c.closeBody cfg) := by
  intro hf
  simp [closeBody_isConnected] at hf

theorem Flagged.perform {cfg : Config κ} {c : Core κ} {a : Act} {rest : List Act} (h : Flagged c) :
    Flagged (c.perform cfg rest a) := by
  have hlog := perform_log cfg c rest a
  cases a with
  | scan owner currentOffset =>
    have hsocket : (c.perform cfg rest (.scan owner currentOffset)).socket = c.socket := by
      simp only [Core.perform]
      split <;> simp
    exact h.mono (by rw [hsocket]; exact id) (by rw [hsocket]) hlog
  | call k =>
    cases k with
    | send request => exact h.mono id (Nat.le_refl _) hlog
    | close => exact Flagged.closeBody
  | close => exact Flagged.closeBody
  | datagram owner n | resetReadTimeout owner | startReceive owner =>
    exact h.mono (by simp [Core.perform]) (by simp [Core.perform]) hlog

theorem Flagged.move {cfg : Config κ} (hk : cfg.kind = .tcpClient) {c c' : Core κ}
    {ns ns' : List Notice} {e : Event τ} (h : Flagged c) (hm : Move cfg c ns e c' ns') : Flagged c' := by
  have hlog := hm.log_extends
  have hdone := hm.completed
  cases hm with
  | stay | close | wrote _ | release _ | finish _ | tick => exact h.mono id (Nat.le_refl _) hlog
  | connect hc =>
    simp only [Core.connect,hk] at hc
    split at hc <;> simp only [Option.some.injEq,reduceCtorEq] at hc
    · exact hc ▸ h
    · subst hc
      refine h.mono ?_ ?_ hlog
      · simp only [Core.reopen]; split <;> exact id
      · simp only [Core.reopen]; split <;> simp [Socket.close,Socket.reopen]
  | setup hc => simp [Core.setup,hk] at hc
  | start hc => simp [Core.start,hk] at hc
  | @handle n ns hrun =>
    cases n with
    | received r result => exact h.mono (by simp [Core.handle]) (by simp [Core.handle]) hlog
    | expired w aborted =>
      refine h.mono ?_ ?_ hlog
      · simp only [Core.handle]; split <;> exact id
      · simp only [Core.handle]; split <;> exact Nat.le_refl _
    | connected a failed reopened =>
      simp only [Core.handle,Core.onConnected] at hlog ⊢
      split at hlog
      · rw [if_pos ‹_›]
        exact fun _ => ⟨c.socket.conn, by simp [Core.emit,connections_append,Obs.connection], Nat.le_refl _⟩
      · rw [if_neg ‹_›]
        split at hlog
        · rw [if_pos ‹_›]
          refine h.mono ?_ ?_ hlog
          · simp only [Core.reopen]; split <;> exact id
          · simp only [Core.reopen]; split <;> simp [Socket.close,Socket.reopen]
        · rw [if_neg ‹_›]
          exact h.mono id (Nat.le_refl _) hlog
    | close => exact h.mono id (Nat.le_refl _) hlog
  | fail _ => exact Flagged.closeBody
  | perform _ => exact h.perform
  | read _ | readFail _ | expire _ | abort _ | connectDone _ =>
    obtain ⟨_,_,_,_,_,_,rfl⟩ := hdone rfl
    exact h.mono id (Nat.le_refl _) hlog

namespace Endpoint

/-- A client that was connected at most once, and whose socket was not opened again since. -/
def ConnectedOnce (s : Endpoint κ τ) : Prop :=
  connections s.log = [] ∨ connections s.log = [s.socket.conn]

variable [DecidableEq τ]

theorem Reached.flagged {cfg : Config κ} (hk : cfg.kind = .tcpClient) {s : Endpoint κ τ}
    (h : Reached cfg s) : Flagged s.toCore := by
  refine Transition.Reach.invariant (fun s => Flagged s.toCore) ?_ ?_ h
  · rintro _ ⟨u,rfl⟩
    intro hf
    simp [initial,Core.initial,hk,Socket.closed] at hf
  · intro s e t hi _ hs
    exact hi.move hk (step_move hs)

/-- What a client has written since it was connected. -/
theorem Reached.wired_tcpClient {cfg : Config κ} (hk : cfg.kind = .tcpClient) {s : Endpoint κ τ}
    (h : Reached cfg s) {first : Nat} (hfirst : ∀ j ∈ connections s.log, first ≤ j) :
    Wired Item.buf first s.pipeline := by
  refine Reached.wired (fun s => ∀ j ∈ connections s.log, first ≤ j) ?_ ?_ h hfirst
  · intro s e t hs ht j hj
    exact ht j ((connections_mono (step_move hs).log_extends).subset hj)
  · intro s target hr hs hcheck
    have hflag : s.socket.isConnected = true := by
      simp only [sendCheck,hk] at hcheck
      split at hcheck
      · simp at hcheck
      · rename_i hc
        simp only [Bool.or_eq_true,Bool.not_eq_true',not_or,Bool.not_eq_false] at hc
        exact hc.1
    obtain ⟨j,hj,hle⟩ := Reached.flagged hk hr hflag
    exact Nat.le_trans (hs j hj) hle

theorem wire_prefix_step {cfg : Config κ} {s t : Endpoint κ τ} {e : Event τ}
    (hs : step cfg s e = some t) : s.out.wire <+: t.out.wire := by
  rcases step_simulates hs with heq | ⟨l,hl,-,-,-⟩
  · have hwire : t.out.wire = s.out.wire := congrArg (fun p => p.wire) heq
    rw [hwire]
  · exact Pipeline.wire_prefix_step hl

/-- The payloads, in the order in which the strand appended them to its queue. -/
def payloads (s : Endpoint κ τ) : List (List Byte) := s.out.entered.map (·.2.buf)

/-- A payload that entered the queue was passed to `send`. -/
theorem Reached.entered {cfg : Config κ} (hk : cfg.kind ≠ .udpEndpoint) {s : Endpoint κ τ}
    (h : Reached cfg s) {payload : List Byte} (hp : payload ∈ s.payloads) :
    ∃ caller, ∃ ticket ∈ s.out.sent caller, payload = ticket.request.data := by
  obtain ⟨⟨caller,item⟩,hmem,rfl⟩ := List.mem_map.mp hp
  have horder := (h.ordered hk).order caller
  have hitem : item ∈ (s.out.sent caller).map streamItem := by
    rw [show s.out.sent = s.pipeline.sent from rfl, horder, List.mem_append, List.mem_append]
    refine .inl (.inl (List.mem_map.mpr ⟨(caller,item), ?_, rfl⟩))
    exact List.mem_filter.mpr ⟨hmem, by simp⟩
  obtain ⟨ticket,ht,rfl⟩ := List.mem_map.mp hitem
  exact ⟨caller, ticket, ht, rfl⟩

end Endpoint

open Endpoint

/-- What has come through from one end to the other. -/
structure Carried {κ₁ τ₁ κ₂ τ₂ : Type} (sender : Endpoint κ₁ τ₁) (receiver : Endpoint κ₂ τ₂) : Prop where
  ordered : callbacks receiver.log <+: sender.payloads
  whole : sender.out.wire = sender.payloads.flatten → receiver.stream = sender.out.wire →
    receiver.Settled → callbacks receiver.log = sender.payloads

/-- The framing finds the boundaries of the payloads again, wherever the bytes were cut. -/
theorem Chain.carried {κ₁ τ₁ κ₂ τ₂ : Type} {kind : Kind} {f : Framing} (hf : 1 ≤ f.headerSize)
    {sender : Endpoint κ₁ τ₁} {receiver : Endpoint κ₂ τ₂}
    (hchain : Chain kind f receiver.toCore receiver.notices)
    (hstream : receiver.stream <+: sender.out.wire)
    (hwire : sender.out.wire <+: sender.payloads.flatten)
    (hframed : ∀ p ∈ sender.payloads, f.WellFramed p) : Carried sender receiver := by
  have hlawful := Framing.cut_lawful hf
  have hdel : ∀ p ∈ sender.payloads, Delimited f.cut p := fun p hp => (hframed p hp).delimited
  refine ⟨?_, fun hall hread hsettled => ?_⟩
  · exact hchain.followed.parse_extends.trans
      (parse_prefix_flatten hlawful hdel (hstream.trans hwire)).2
  · rw [hchain.followed.callbacks_eq hsettled.notices hsettled.acts, hread, hall,
      parse_flatten hlawful _ hdel]

/-- The two ends of one connection. -/
structure Net (κ₁ τ₁ κ₂ τ₂ : Type) where
  client : Endpoint κ₁ τ₁
  server : Endpoint κ₂ τ₂

namespace Net

inductive Event (τ₁ τ₂ : Type) where
  | client (e : Librim.Event τ₁)
  | server (e : Librim.Event τ₂)

variable {κ₁ τ₁ κ₂ τ₂ : Type} [DecidableEq τ₁] [DecidableEq τ₂]

/-- One end takes a step. The channel is reliable and keeps the order: what an end has read is
a prefix of what the other end has written. -/
def step (client : Config κ₁) (server : Config κ₂) (n : Net κ₁ τ₁ κ₂ τ₂) :
    Event τ₁ τ₂ → Option (Net κ₁ τ₁ κ₂ τ₂)
  | .client e =>
    (Endpoint.step client n.client e).bind (fun s =>
      if s.stream <+: n.server.out.wire then some { n with client := s } else none)
  | .server e =>
    (Endpoint.step server n.server e).bind (fun s =>
      if s.stream <+: n.client.out.wire then some { n with server := s } else none)

abbrev Reached (client : Config κ₁) (server : Config κ₂) (n : Net κ₁ τ₁ κ₂ τ₂) : Prop :=
  Transition.Reachable (fun n₀ => ∃ u v, n₀ = ⟨initial client.kind u, initial server.kind v⟩)
    (step client server) n

/-- Each end is reached by a run of its own, and the channel holds at both. -/
structure Linked (client : Config κ₁) (server : Config κ₂) (n : Net κ₁ τ₁ κ₂ τ₂) : Prop where
  client : Endpoint.Reached client n.client
  server : Endpoint.Reached server n.server
  toClient : n.client.stream <+: n.server.out.wire
  toServer : n.server.stream <+: n.client.out.wire

theorem Reached.linked {client : Config κ₁} {server : Config κ₂} {n : Net κ₁ τ₁ κ₂ τ₂}
    (h : Reached client server n) : Linked client server n := by
  refine Transition.Reach.invariant (Linked client server) ?_ ?_ h
  · rintro _ ⟨u,v,rfl⟩
    exact ⟨.start ⟨u,rfl⟩, .start ⟨v,rfl⟩, List.nil_prefix, List.nil_prefix⟩
  · intro n e n' hi _ hs
    cases e with
    | client e =>
      simp only [step,Option.bind_eq_some_iff,Option.ite_none_right_eq_some,Option.some.injEq] at hs
      obtain ⟨s,hs,hpre,rfl⟩ := hs
      exact ⟨.next hi.client trivial hs, hi.server, hpre, hi.toServer.trans (wire_prefix_step hs)⟩
    | server e =>
      simp only [step,Option.bind_eq_some_iff,Option.ite_none_right_eq_some,Option.some.injEq] at hs
      obtain ⟨s,hs,hpre,rfl⟩ := hs
      exact ⟨hi.client, .next hi.server trivial hs, hi.toClient.trans (wire_prefix_step hs), hpre⟩

/-- The messages that the receive callback of either end gets are, at any moment, the first
of the payloads that the other end has queued, and all of them once the bytes of all were
written, read and processed. -/
theorem tcp_round_trip (client : Config κ₁) (server : Config κ₂) (hclient : client.kind = .tcpClient)
    (hserver : server.kind = .tcpConnection) (hframing : server.framing = client.framing)
    (hf : 1 ≤ client.framing.headerSize) (hcb : client.onRecv.isSome = true)
    (hcb' : server.onRecv.isSome = true) (n : Net κ₁ τ₁ κ₂ τ₂) (h : Reached client server n)
    (honce : n.client.ConnectedOnce) :
    ((∀ caller, ∀ ticket ∈ n.client.out.sent caller, client.framing.WellFramed ticket.request.data) →
      Carried n.client n.server) ∧
    ((∀ caller, ∀ ticket ∈ n.server.out.sent caller, client.framing.WellFramed ticket.request.data) →
      Carried n.server n.client) := by
  obtain ⟨hc,hs,htoClient,htoServer⟩ := h.linked
  have hlen : (connections n.client.log).length ≤ 1 := by
    rcases honce with hnil | hone
    · simp [hnil]
    · simp [hone]
  have hfirst : ∀ j ∈ connections n.client.log, n.client.socket.conn ≤ j := by
    rcases honce with hnil | hone
    · simp [hnil]
    · simp [hone]
  have hflat : ∀ {κ τ : Type} (s : Endpoint κ τ),
      (s.out.entered.map Prod.snd).flatMap Item.buf = s.payloads.flatten := by
    intro κ τ s
    rw [payloads, List.flatMap_map, List.flatMap_def]
  refine ⟨fun hframed => ?_, fun hframed => ?_⟩
  · have hchain := hs.chain (by simp [hserver]) (hframing ▸ hf) hcb' (by simp [hserver])
    have hwire := (hc.wired_tcpClient hclient hfirst).taken (Nat.le_refl _)
    rw [hframing] at hchain
    refine hchain.carried hf htoServer (hflat n.client ▸ hwire) (fun p hp => ?_)
    obtain ⟨caller,ticket,ht,rfl⟩ := hc.entered (by simp [hclient]) hp
    exact hframed caller ticket ht
  · have hchain := hc.chain (by simp [hclient]) hf hcb (fun _ => hlen)
    have hwire := (hs.wired_tcpConnection hserver).taken (Nat.le_of_eq (hs.conn_eq_one hserver))
    refine hchain.carried hf htoClient (hflat n.server ▸ hwire) (fun p hp => ?_)
    obtain ⟨caller,ticket,ht,rfl⟩ := hs.entered (by simp [hserver]) hp
    exact hframed caller ticket ht

/-- The README framing with a callback that only looks at the message. -/
def listening (kind : Kind) : Config Unit :=
  { Config.bare kind with framing := readmeFraming, onRecv := some passive }

/-- Both ends wait for their first byte. -/
def established : Net Unit Unit Unit Unit where
  client := joinedClient
  server := startedConnection

theorem reached_established : Reached (listening .tcpClient) (listening .tcpConnection) established := by
  have hrun : Transition.run (step (listening .tcpClient) (listening .tcpConnection))
      ⟨initial .tcpClient (), initial .tcpConnection ()⟩
      [.client (.connect (.ok 0) true), .client (.connectDone 0 false false), .client .run,
        .client (.act true), .client (.act true), .server .start, .server .start] = some established := by
    simp [step,Endpoint.step,Core.connect,listening,Config.bare,initial,Core.initial,Core.reopen,withCore,
      Socket.close,Socket.reopen,Socket.closed,Socket.accepted,Core.connectDone,Core.live,notify,idle,
      runHandler,Core.handle,Core.onConnected,Core.emit,act,Endpoint.perform,Core.perform,
      Core.resetReadTimeout,Core.startReceive,Core.start,Core.descriptor,Core.stream,
      Window.startReceive_initial,Window.offered_initial,show Window.initial.activeBytes = 0 from rfl,
      established,joinedClient,startedConnection,Pipeline.Store.fresh]
  exact Transition.reachable_run (.start ⟨(),(),rfl⟩) hrun

/-- Two payloads are sent by a thread of the client and written one after the other; the
server reads them together. -/
def twoPayloads : List (Event Unit Unit) :=
  ([.send () ⟨[0,0,0,5,9],.implicit⟩, .pop (some ()), .fill (some ()), .post (some ()), .run,
    .send () ⟨[0,0,0,4],.implicit⟩, .pop (some ()), .fill (some ()), .post (some ()), .run,
    .write 0 5, .writeDone 0 false, .run, .act true, .act true, .write 0 4].map .client) ++
  ([.read 0 [0,0,0,5,9,0,0,0,4] ⟨0,0⟩, .run, .act true, .act true, .act true].map .server)

def afterTwoPayloads : Option (Net Unit Unit Unit Unit) :=
  Transition.run (step (listening .tcpClient) (listening .tcpConnection)) established twoPayloads

theorem tcp_round_trip_two : ∃ n : Net Unit Unit Unit Unit,
    Reached (listening .tcpClient) (listening .tcpConnection) n ∧
    callbacks n.server.log = [[0,0,0,5,9],[0,0,0,4]] := by
  have hclient : afterTwoPayloads.map (fun n =>
      (connections n.client.log, n.client.socket.conn, n.client.payloads, n.client.out.wire)) =
      some ([1], 1, [[0,0,0,5,9],[0,0,0,4]], [0,0,0,5,9,0,0,0,4]) := by decide +kernel
  have hsent : afterTwoPayloads.map (fun n => ((n.client.out.sent none).map (·.request.data),
      (n.client.out.sent (some ())).map (·.request.data))) =
      some ([], [[0,0,0,5,9],[0,0,0,4]]) := by decide +kernel
  have hserver : afterTwoPayloads.map (fun n =>
      (n.server.stream, n.server.ready.length, n.server.running)) =
      some ([0,0,0,5,9,0,0,0,4], 0, .program [.resetReadTimeout 1, .startReceive 1]) := by decide +kernel
  obtain ⟨n,hn,hclient⟩ := Option.map_eq_some_iff.mp hclient
  rw [hn, Option.map_some, Option.some.injEq] at hsent hserver
  simp only [Prod.mk.injEq] at hclient hsent hserver
  obtain ⟨hconn,hsocket,hpay,hwire⟩ := hclient
  obtain ⟨hnone,hsome⟩ := hsent
  obtain ⟨hstream,hready,hidle⟩ := hserver
  have hreach : Reached (listening .tcpClient) (listening .tcpConnection) n :=
    Transition.reachable_run reached_established hn
  obtain ⟨hcarried,-⟩ := tcp_round_trip (listening .tcpClient) (listening .tcpConnection) rfl rfl rfl
    (by decide) rfl rfl n hreach (.inr (by rw [hconn, hsocket]))
  refine ⟨n, hreach, ?_⟩
  rw [← hpay]
  refine (hcarried ?_).whole (by rw [hwire, hpay]; rfl) (hstream.trans hwire.symm) ⟨?_, ?_⟩
  · intro caller ticket ht
    have hmem : ticket.request.data ∈ (n.client.out.sent caller).map (·.request.data) :=
      List.mem_map_of_mem ht
    cases caller with
    | none => simp [hnone] at hmem
    | some u =>
      rw [hsome] at hmem
      simp only [List.mem_cons,List.not_mem_nil,or_false] at hmem
      rcases hmem with hd | hd
      · rw [hd]
        exact ⟨by decide, by decide, by decide⟩
      · rw [hd]
        exact ⟨by decide, by decide, by decide⟩
  · simp [notices,List.length_eq_zero_iff.mp hready]
  · simp [hidle,Running.acts]

end Net

end Librim
