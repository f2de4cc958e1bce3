import Librim.RoundTrip
import Librim.Attempts
import Librim.Foundation.Fifo

/-! What a connection is for: two channels of messages, one in each direction. The client, the
connection and the byte streams between them implement that. -/

set_option autoImplicit false

namespace Librim

variable {κ τ : Type}

section attempt
variable {cfg : Config κ} {c c' : Core κ} {ns ns' : List Notice} {e : Event τ}

theorem reopen_conn_le (opened : Bool) (more : Nat) (c : Core κ) :
    c.socket.conn ≤ (c.reopen opened more).socket.conn := by
  simp only [Core.reopen]
  split <;> simp [Socket.close,Socket.reopen]

theorem Attempt.conn_le (h : Attempt cfg c ns e c' ns') : c.socket.conn ≤ c'.socket.conn := by
  cases h with
  | calm hcalm => exact Nat.le_of_eq hcalm.conn.symm
  | begun _ hc _ => exact hc ▸ reopen_conn_le ..
  | again _ _ _ _ _ hc => exact hc ▸ reopen_conn_le ..
  | done _ _ hc _ => exact hc ▸ Nat.le_refl _
  | connected _ _ _ _ hc => exact hc ▸ Nat.le_refl _
  | failed _ _ _ hc => exact hc ▸ Nat.le_refl _

/-- No connection has a number that the socket has not had. -/
theorem Attempt.made (h : Attempt cfg c ns e c' ns')
    (hmade : ∀ j ∈ connections c.log, j ≤ c.socket.conn) : ∀ j ∈ connections c'.log, j ≤ c'.socket.conn := by
  have hle := h.conn_le
  intro j hj
  have hkept : connections c'.log = connections c.log → j ≤ c'.socket.conn := by
    intro heq
    exact Nat.le_trans (hmade j (heq ▸ hj)) hle
  cases h with
  | calm hcalm => exact hkept hcalm.made
  | begun _ hc _ => exact hkept (by rw [hc]; rfl)
  | again _ _ _ _ _ hc => exact hkept (by rw [hc]; rfl)
  | done _ _ hc _ => exact hkept (by rw [hc])
  | connected _ _ _ _ hc =>
    subst hc
    simp only [Core.emit,connections_append,Obs.connection,Option.toList_some,List.mem_append,
      List.mem_singleton] at hj
    rcases hj with hj | hj
    · exact hmade j hj
    · exact Nat.le_of_eq hj
  | failed _ _ _ hc => exact hkept (by rw [hc])

end attempt

instance (f : Framing) (payload : List Byte) : Decidable (f.WellFramed payload) :=
  decidable_of_iff (f.headerSize ≤ payload.length ∧ f.getTotalSize (payload.take f.headerSize) = payload.length ∧
    payload.length ≤ f.maxMessageSize) ⟨fun h => ⟨h.1,h.2.1,h.2.2⟩, fun h => ⟨h.header,h.size,h.max⟩⟩

namespace Endpoint

/-- With one thread, all that was sent was sent by it or by the strand. -/
theorem forall_sent {P : List Byte → Prop} {s : Endpoint κ Unit} {own others : List (List Byte)}
    (hown : (s.out.sent none).map (·.request.data) = own)
    (hothers : (s.out.sent (some ())).map (·.request.data) = others) (h : ∀ data ∈ own ++ others, P data) :
    ∀ caller, ∀ ticket ∈ s.out.sent caller, P ticket.request.data := by
  intro caller ticket ht
  have hmem : ticket.request.data ∈ (s.out.sent caller).map (·.request.data) := List.mem_map_of_mem ht
  cases caller with
  | none => exact h _ (List.mem_append_left _ (hown ▸ hmem))
  | some u => exact h _ (List.mem_append_right _ (hothers ▸ hmem))

variable [DecidableEq τ]

theorem payloads_prefix_step {cfg : Config κ} {s t : Endpoint κ τ} {e : Event τ}
    (hs : step cfg s e = some t) : s.payloads <+: t.payloads := by
  rcases step_simulates hs with heq | ⟨l,hl,-,-,-⟩
  · have hentered : t.out.entered = s.out.entered := congrArg (fun p => p.entered) heq
    rw [payloads, payloads, hentered]
  · exact (Pipeline.entered_prefix_step hl).map _

omit [DecidableEq τ] in
theorem payloads_flatten (s : Endpoint κ τ) :
    (s.out.entered.map Prod.snd).flatMap Item.buf = s.payloads.flatten := by
  rw [payloads, List.flatMap_map, List.flatMap_def]

theorem callbacks_prefix_step {cfg : Config κ} {s t : Endpoint κ τ} {e : Event τ}
    (hs : step cfg s e = some t) : callbacks s.log <+: callbacks t.log :=
  (step_move hs).log_extends.filterMap _

theorem Reached.made {cfg : Config κ} (hk : cfg.kind = .tcpClient) {s : Endpoint κ τ} (h : Reached cfg s) :
    ∀ j ∈ connections s.log, j ≤ s.socket.conn := by
  refine Transition.Reach.invariant (fun s => ∀ j ∈ connections s.log, j ≤ s.socket.conn) ?_ ?_ h
  · rintro _ ⟨u,rfl⟩
    simp [initial,Core.initial,connections]
  · intro s e t hi _ hs
    exact ((step_move hs).attempt hk).made hi

/-- Who was connected once at the end of a run was so all the time. -/
theorem ConnectedOnce.back {cfg : Config κ} (hk : cfg.kind = .tcpClient) {s t : Endpoint κ τ} {e : Event τ}
    (hr : Reached cfg s) (hs : step cfg s e = some t) (h : t.ConnectedOnce) : s.ConnectedOnce := by
  have hlog := connections_mono (step_move hs).log_extends
  rcases h with hnil | hone
  · rw [hnil] at hlog
    exact .inl (List.prefix_nil.mp hlog)
  · rw [hone] at hlog
    obtain ⟨later,hlater⟩ := hlog
    rcases List.append_eq_singleton_iff.mp hlater with ⟨hnil,-⟩ | ⟨hsame,-⟩
    · exact .inl hnil
    · have hge := hr.made hk t.socket.conn (by simp [hsame])
      have hle := ((step_move hs).attempt hk).conn_le
      exact .inr (by rw [hsame, Nat.le_antisymm hge hle])

end Endpoint

open Endpoint

namespace Net

variable {κ₁ τ₁ κ₂ τ₂ : Type}

/-- What the two ends hand over to the two channels and get from them. -/
def exchanged (m : Net κ₁ τ₁ κ₂ τ₂) (_ : Event τ₁ τ₂) (n : Net κ₁ τ₁ κ₂ τ₂) : List (Duplex.Event (List Byte)) :=
  ((n.client.payloads.drop m.client.payloads.length).map Fifo.Event.send ++
    ((callbacks n.server.log).drop (callbacks m.server.log).length).map Fifo.Event.deliver).map
      Duplex.Event.there ++
  ((n.server.payloads.drop m.server.payloads.length).map Fifo.Event.send ++
    ((callbacks n.client.log).drop (callbacks m.client.log).length).map Fifo.Event.deliver).map
      Duplex.Event.back

/-- Queued at one end and not yet passed to the callback of the other. -/
def underway (n : Net κ₁ τ₁ κ₂ τ₂) : Duplex.State (List Byte) where
  there := n.client.payloads.drop (callbacks n.server.log).length
  back := n.server.payloads.drop (callbacks n.client.log).length

/-- The client was connected once, and all that was sent is framed as both ends expect. -/
structure Proper (f : Framing) (n : Net κ₁ τ₁ κ₂ τ₂) : Prop where
  once : n.client.ConnectedOnce
  client : ∀ caller, ∀ ticket ∈ n.client.out.sent caller, f.WellFramed ticket.request.data
  server : ∀ caller, ∀ ticket ∈ n.server.out.sent caller, f.WellFramed ticket.request.data

variable [DecidableEq τ₁] [DecidableEq τ₂]

theorem Proper.back {client : Config κ₁} {server : Config κ₂} (hclient : client.kind = .tcpClient)
    {f : Framing} {m n : Net κ₁ τ₁ κ₂ τ₂} {e : Event τ₁ τ₂} (hm : Reached client server m)
    (hs : step client server m e = some n) (h : Proper f n) : Proper f m := by
  cases e with
  | client e =>
    simp only [step,Option.bind_eq_some_iff,Option.ite_none_right_eq_some,Option.some.injEq] at hs
    obtain ⟨s,hs,-,rfl⟩ := hs
    refine ⟨h.once.back hclient hm.linked.client hs, fun caller ticket ht => ?_, h.server⟩
    exact h.client caller ticket ((Endpoint.sent_prefix_step hs caller).subset ht)
  | server e =>
    simp only [step,Option.bind_eq_some_iff,Option.ite_none_right_eq_some,Option.some.injEq] at hs
    obtain ⟨s,hs,-,rfl⟩ := hs
    refine ⟨h.once, h.client, fun caller ticket ht => ?_⟩
    exact h.server caller ticket ((Endpoint.sent_prefix_step hs caller).subset ht)

/-- One step changes one end. -/
theorem step_grows {client : Config κ₁} {server : Config κ₂} {m n : Net κ₁ τ₁ κ₂ τ₂} {e : Event τ₁ τ₂}
    (hs : step client server m e = some n) :
    (m.client.payloads <+: n.client.payloads ∧ callbacks m.client.log <+: callbacks n.client.log) ∧
    (m.server.payloads <+: n.server.payloads ∧ callbacks m.server.log <+: callbacks n.server.log) := by
  cases e with
  | client e =>
    simp only [step,Option.bind_eq_some_iff,Option.ite_none_right_eq_some,Option.some.injEq] at hs
    obtain ⟨s,hs,-,rfl⟩ := hs
    exact ⟨⟨payloads_prefix_step hs, callbacks_prefix_step hs⟩, List.prefix_rfl, List.prefix_rfl⟩
  | server e =>
    simp only [step,Option.bind_eq_some_iff,Option.ite_none_right_eq_some,Option.some.injEq] at hs
    obtain ⟨s,hs,-,rfl⟩ := hs
    exact ⟨⟨List.prefix_rfl, List.prefix_rfl⟩, payloads_prefix_step hs, callbacks_prefix_step hs⟩

section duplex
variable {client : Config κ₁} {server : Config κ₂} {n : Net κ₁ τ₁ κ₂ τ₂}

/-- From the client to the server. Only the server looks at these bytes. -/
theorem Linked.forth (h : Linked client server n) (hclient : client.kind = .tcpClient)
    (hserver : server.kind = .tcpConnection) (hf : 1 ≤ server.framing.headerSize)
    (hcb : server.onRecv.isSome = true) (honce : n.client.ConnectedOnce)
    (hframed : ∀ caller, ∀ ticket ∈ n.client.out.sent caller, server.framing.WellFramed ticket.request.data) :
    Carried n.client n.server := by
  have hfirst : ∀ j ∈ connections n.client.log, n.client.socket.conn ≤ j := by
    rcases honce with hnil | hone
    · simp [hnil]
    · simp [hone]
  have hchain := h.server.chain (by simp [hserver]) hf hcb (by simp [hserver])
  have hwire := (h.client.wired_tcpClient hclient hfirst).taken (Nat.le_refl _)
  refine hchain.carried hf h.toServer (payloads_flatten n.client ▸ hwire) (fun p hp => ?_)
  obtain ⟨caller,ticket,ht,rfl⟩ := h.client.entered (by simp [hclient]) hp
  exact hframed caller ticket ht

theorem Linked.there (h : Linked client server n) (hclient : client.kind = .tcpClient)
    (hserver : server.kind = .tcpConnection) (hframing : server.framing = client.framing)
    (hf : 1 ≤ client.framing.headerSize) (hcb : server.onRecv.isSome = true) (honce : n.client.ConnectedOnce)
    (hframed : ∀ caller, ∀ ticket ∈ n.client.out.sent caller, client.framing.WellFramed ticket.request.data) :
    Carried n.client n.server :=
  h.forth hclient hserver (hframing ▸ hf) hcb honce (hframing ▸ hframed)

/-- And from the server to the client. -/
theorem Linked.back (h : Linked client server n) (hclient : client.kind = .tcpClient)
    (hserver : server.kind = .tcpConnection) (hf : 1 ≤ client.framing.headerSize)
    (hcb : client.onRecv.isSome = true) (honce : n.client.ConnectedOnce)
    (hframed : ∀ caller, ∀ ticket ∈ n.server.out.sent caller, client.framing.WellFramed ticket.request.data) :
    Carried n.server n.client := by
  have hlen : (connections n.client.log).length ≤ 1 := by
    rcases honce with hnil | hone
    · simp [hnil]
    · simp [hone]
  have hchain := h.client.chain (by simp [hclient]) hf hcb (fun _ => hlen)
  have hwire := (h.server.wired_tcpConnection hserver).taken (Nat.le_of_eq (h.server.conn_eq_one hserver))
  refine hchain.carried hf h.toClient (payloads_flatten n.server ▸ hwire) (fun p hp => ?_)
  obtain ⟨caller,ticket,ht,rfl⟩ := h.server.entered (by simp [hserver]) hp
  exact hframed caller ticket ht

theorem implements_duplex (hclient : client.kind = .tcpClient) (hserver : server.kind = .tcpConnection)
    (hframing : server.framing = client.framing) (hf : 1 ≤ client.framing.headerSize)
    (hcb : client.onRecv.isSome = true) (hcb' : server.onRecv.isSome = true) :
    Transition.Implements (fun n₀ : Net κ₁ τ₁ κ₂ τ₂ => ∃ u v, n₀ = ⟨initial client.kind u, initial server.kind v⟩)
      (step client server) exchanged Duplex.step underway (Proper client.framing) := by
  intro m e n hm hs hgood hgood'
  have hn : Reached client server n := .next hm trivial hs
  have hthere (n : Net κ₁ τ₁ κ₂ τ₂) (hn : Reached client server n) (hgood : Proper client.framing n) :=
    (hn.linked.there hclient hserver hframing hf hcb' hgood.once hgood.client).ordered
  have hback (n : Net κ₁ τ₁ κ₂ τ₂) (hn : Reached client server n) (hgood : Proper client.framing n) :=
    (hn.linked.back hclient hserver hf hcb hgood.once hgood.server).ordered
  obtain ⟨⟨hpay,hcall⟩,hpay',hcall'⟩ := step_grows hs
  have hrun := Duplex.run_there m.underway
    (Fifo.run_of_prefix hpay hcall' (hthere m hm hgood) (hthere n hn hgood'))
  exact Transition.run_trans hrun
    (Duplex.run_back _ (Fifo.run_of_prefix hpay' hcall (hback m hm hgood) (hback n hn hgood')))

/-- The history of a direction, and how far the ends are. -/
def Noted (history : List (Fifo.Event (List Byte))) (sent received : List (List Byte)) : Prop :=
  Fifo.sends history = sent ∧ Fifo.deliveries history = received

theorem append_drop_of_prefix {α : Type} {l m : List α} (h : l <+: m) : l ++ m.drop l.length = m := by
  obtain ⟨rest,rfl⟩ := h
  rw [List.drop_left]

theorem Noted.step {history : List (Fifo.Event (List Byte))} {sent sent' received received' : List (List Byte)}
    (h : Noted history sent received) (hsent : sent <+: sent') (hreceived : received <+: received') :
    Noted (history ++ ((sent'.drop sent.length).map Fifo.Event.send ++
      (received'.drop received.length).map Fifo.Event.deliver)) sent' received' := by
  constructor
  · rw [Fifo.sends_append, h.1, Fifo.sends_append, Fifo.sends_map_send, Fifo.sends_map_deliver, List.append_nil,
      append_drop_of_prefix hsent]
  · rw [Fifo.deliveries_append, h.2, Fifo.deliveries_append, Fifo.deliveries_map_send,
      Fifo.deliveries_map_deliver, List.nil_append, append_drop_of_prefix hreceived]

/-- The history holds what was queued and what the callbacks got, and nothing else. -/
theorem recorded_exchanged {p : Net κ₁ τ₁ κ₂ τ₂ × List (Duplex.Event (List Byte))}
    (h : Transition.Reachable (fun p => (∃ u v, p.1 = ⟨initial client.kind u, initial server.kind v⟩) ∧ p.2 = [])
      (Transition.recorded (step client server) exchanged) p) :
    Noted (Duplex.thereOf p.2) p.1.client.payloads (callbacks p.1.server.log) ∧
    Noted (Duplex.backOf p.2) p.1.server.payloads (callbacks p.1.client.log) := by
  refine Transition.Reach.invariant (fun p : Net κ₁ τ₁ κ₂ τ₂ × List (Duplex.Event (List Byte)) =>
    Noted (Duplex.thereOf p.2) p.1.client.payloads (callbacks p.1.server.log) ∧
    Noted (Duplex.backOf p.2) p.1.server.payloads (callbacks p.1.client.log)) ?_ ?_ h
  · rintro ⟨n,history⟩ ⟨⟨u,v,rfl⟩,rfl⟩
    exact ⟨⟨rfl,rfl⟩,rfl,rfl⟩
  · intro p e q ⟨hthere,hback⟩ _ hs
    obtain ⟨hstep,hnote⟩ := Transition.recorded_eq_some.mp hs
    obtain ⟨⟨hpay,hcall⟩,hpay',hcall'⟩ := step_grows hstep
    rw [hnote, exchanged]
    constructor
    · simpa only [Duplex.thereOf_append,Duplex.thereOf_map_there,Duplex.thereOf_map_back,List.append_nil]
        using hthere.step hpay hcall'
    · simpa only [Duplex.backOf_append,Duplex.backOf_map_there,Duplex.backOf_map_back,List.nil_append]
        using hback.step hpay' hcall

/-- Every run of the two ends, seen from outside, is a run of two reliable channels of messages
that keep the order. -/
theorem runs_as_duplex (client : Config κ₁) (server : Config κ₂) (hclient : client.kind = .tcpClient)
    (hserver : server.kind = .tcpConnection) (hframing : server.framing = client.framing)
    (hf : 1 ≤ client.framing.headerSize) (hcb : client.onRecv.isSome = true)
    (hcb' : server.onRecv.isSome = true) (p : Net κ₁ τ₁ κ₂ τ₂ × List (Duplex.Event (List Byte)))
    (h : Transition.Reachable (fun p => (∃ u v, p.1 = ⟨initial client.kind u, initial server.kind v⟩) ∧ p.2 = [])
      (Transition.recorded (step client server) exchanged) p)
    (hproper : Proper client.framing p.1) :
    Transition.run Duplex.step ⟨[],[]⟩ p.2 = some p.1.underway ∧
    Noted (Duplex.thereOf p.2) p.1.client.payloads (callbacks p.1.server.log) ∧
    Noted (Duplex.backOf p.2) p.1.server.payloads (callbacks p.1.client.log) := by
  refine ⟨(implements_duplex hclient hserver hframing hf hcb hcb').history ?_
    (fun m e n hm hs hn => hn.back hclient hm hs) h hproper, recorded_exchanged h⟩
  rintro _ ⟨u,v,rfl⟩
  rfl

end duplex

/-- Both payloads were sent, and both have arrived. -/
theorem runs_as_duplex_two : ∃ (n : Net Unit Unit Unit Unit) (history : List (Duplex.Event (List Byte))),
    afterTwoPayloads = some n ∧
    Transition.Reachable (fun p => (∃ u v, p.1 = ⟨initial .tcpClient u, initial .tcpConnection v⟩) ∧ p.2 = [])
      (Transition.recorded (step (listening .tcpClient) (listening .tcpConnection)) exchanged) (n,history) ∧
    Transition.run Duplex.step ⟨[],[]⟩ history = some ⟨[],[]⟩ ∧
    Noted (Duplex.thereOf history) [[0,0,0,5,9],[0,0,0,4]] [[0,0,0,5,9],[0,0,0,4]] := by
  have hclient : afterTwoPayloads.map (fun n => (connections n.client.log, n.client.socket.conn,
      n.client.payloads, callbacks n.client.log)) =
      some ([1], 1, [[0,0,0,5,9],[0,0,0,4]], []) := by decide +kernel
  have hserver : afterTwoPayloads.map (fun n => (n.server.payloads, callbacks n.server.log)) =
      some ([], [[0,0,0,5,9],[0,0,0,4]]) := by decide +kernel
  have hsent : afterTwoPayloads.map (fun n => ((n.client.out.sent none).map (·.request.data),
      (n.client.out.sent (some ())).map (·.request.data), (n.server.out.sent none).map (·.request.data),
      (n.server.out.sent (some ())).map (·.request.data))) =
      some ([], [[0,0,0,5,9],[0,0,0,4]], [], []) := by decide +kernel
  obtain ⟨n,hn,hclient⟩ := Option.map_eq_some_iff.mp hclient
  rw [hn, Option.map_some, Option.some.injEq] at hsent hserver
  simp only [Prod.mk.injEq] at hclient hsent hserver
  obtain ⟨hconn,hsocket,hpay,hback⟩ := hclient
  obtain ⟨hpay',hthere⟩ := hserver
  obtain ⟨hnone,hsome,hnone',hsome'⟩ := hsent
  obtain ⟨history,hreach⟩ := Transition.Reach.exists_recorded exchanged
    (Transition.reachable_run reached_established hn)
  have hproper : Proper readmeFraming n := ⟨.inr (by rw [hconn, hsocket]),
    forall_sent hnone hsome (by decide), forall_sent hnone' hsome' (by decide)⟩
  obtain ⟨hrun,hnoted,-⟩ := runs_as_duplex (listening .tcpClient) (listening .tcpConnection) rfl rfl rfl
    (by decide) rfl rfl (n,history) hreach hproper
  simp only [underway,hpay,hthere,hpay',hback] at hrun hnoted
  exact ⟨n, history, hn, hreach, hrun, hnoted⟩

end Net

end Librim
