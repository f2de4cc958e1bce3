import Librim.RequestResponse
import Librim.Tracking

/-! A `TcpServer` and its clients, each at the other end of one of its connections. -/

set_option autoImplicit false

namespace Librim

open Endpoint

/-- A client is named by the connection that accepts it. -/
structure TcpNetwork (κ₁ τ₁ κ₂ τ₂ : Type) where
  server : TcpServer κ₂ τ₂
  clients : Nat → Endpoint κ₁ τ₁

inductive TcpNetworkEvent (τ₁ κ₂ τ₂ : Type) where
  | client (i : Nat) (e : Event τ₁)
  | server (e : ServerEvent κ₂ τ₂)

namespace TcpServer

variable {κ τ : Type}

/-- What connection `i` has written. -/
def wire (s : TcpServer κ τ) (i : Nat) : List Byte := (s.peers[i]?).elim [] (·.conn.out.wire)

/-- What connection `i` has read. -/
def stream (s : TcpServer κ τ) (i : Nat) : List Byte := (s.peers[i]?).elim [] (·.conn.stream)

variable {cfg : ServerConfig κ} {s t : TcpServer κ τ}

theorem wire_of_peer {i : Nat} {p : Peer κ τ} (hi : s.peers[i]? = some p) : s.wire i = p.conn.out.wire := by
  rw [wire, hi, Option.elim_some]

theorem stream_of_peer {i : Nat} {p : Peer κ τ} (hi : s.peers[i]? = some p) : s.stream i = p.conn.stream := by
  rw [stream, hi, Option.elim_some]

variable [DecidableEq τ]

/-- A step changes connections one at a time, each by a step of its own. -/
theorem Deed.peers {calls : List (ServerCall τ)} (h : Deed cfg s calls t) :
    t.peers = s.peers ∨ (∃ p, t.peers = s.peers ++ [p] ∧ p.conn.out.wire = []) ∨
    ∃ (i : Nat) (p q : Peer κ τ), s.peers[i]? = some p ∧ t.peers = s.peers.set i q ∧
      (q.conn = p.conn ∨ ∃ e, p.conn.step cfg.connection e = some q.conn) := by
  cases h with
  | accept => exact .inr (.inl ⟨_,rfl,rfl⟩)
  | insert hi _ | announce hi _ => exact .inr (.inr ⟨_,_,_,hi,rfl,.inl rfl⟩)
  | conn hi _ hs | sendNext _ hi hs => exact .inr (.inr ⟨_,_,_,hi,rfl,.inr ⟨_,hs⟩⟩)
  | broadcast _ _ _ => exact .inl rfl

theorem Deed.wire_prefix {calls : List (ServerCall τ)} (h : Deed cfg s calls t) (i : Nat) : s.wire i <+: t.wire i := by
  cases hi : s.peers[i]? with
  | none => simp [wire,hi]
  | some p =>
    rw [wire_of_peer hi]
    rcases h.peers with hp | ⟨q,hp,-⟩ | ⟨j,p',q,hj,hp,hq⟩
    · rw [wire_of_peer (hp ▸ hi)]
    · rw [wire_of_peer ((getElem?_peers_concat hp i p).mpr (.inl hi))]
    · by_cases hij : i = j
      · subst hij
        obtain rfl := Option.some.inj (hi.symm.trans hj)
        have hq' : t.peers[i]? = some q := by
          rw [hp]
          exact (getElem?_peers_set hi q q i).mpr (.inl ⟨rfl,rfl⟩)
        rw [wire_of_peer hq']
        rcases hq with hq | ⟨e,hs⟩
        · rw [hq]
        · exact wire_prefix_step hs
      · have hi' : t.peers[i]? = some p := by
          rw [hp]
          exact (getElem?_peers_set hj q p i).mpr (.inr ⟨hij,hi⟩)
        rw [wire_of_peer hi']

theorem Reached.peer (h : Reached cfg s) {i : Nat} {p : Peer κ τ} (hi : s.peers[i]? = some p) :
    Endpoint.Reached cfg.connection p.conn := (h.tracked.tended i p hi).reached

/-- The broadcasts of thread `t` that found connection `i` tracked. -/
def broadcastsTo (h : List (ServerCall τ)) (t : τ) (i : Nat) : List (List Byte) :=
  ((snapshots h).filter (fun snap => snap.thread = t ∧ i ∈ snap.tracked)).map (·.data)

omit [DecidableEq τ] in
/-- A broadcast goes to a connection once or not at all. -/
theorem calls_filter {snap : Snapshot τ} (hnodup : snap.order.Nodup) (horder : snap.order.toFinset = snap.tracked)
    (i : Nat) : (snap.calls.filter (·.1 = i)).map Prod.snd = if i ∈ snap.tracked then [snap.data] else [] := by
  have hfilter : (snap.calls.filter (·.1 = i)).map Prod.snd = (snap.order.filter (· = i)).map (fun _ => snap.data) := by
    simp only [Snapshot.calls,List.filter_map,List.map_map,Function.comp_def]
  rw [hfilter, List.filter_eq, List.map_replicate, ← horder]
  by_cases hi : i ∈ snap.order
  · simp [hi,List.count_eq_one_of_mem hnodup hi]
  · simp [hi,List.count_eq_zero_of_not_mem hi]

theorem planned_filter {h : List (ServerCall τ)}
    (horders : ∀ snap ∈ snapshots h, snap.order.Nodup ∧ snap.order.toFinset = snap.tracked) (t : τ) (i : Nat) :
    ((planned h t).filter (·.1 = i)).map Prod.snd = broadcastsTo h t i := by
  rw [planned, broadcastsTo]
  revert horders
  generalize snapshots h = snaps
  intro horders
  induction snaps with
  | nil => rfl
  | cons snap snaps ih =>
    obtain ⟨hnodup,horder⟩ := horders snap List.mem_cons_self
    have hrest := ih (fun snap' hm => horders snap' (List.mem_cons_of_mem _ hm))
    by_cases ht : snap.thread = t
    · by_cases hi : i ∈ snap.tracked
      · simp only [ht,hi,List.filter_cons,decide_true,↓reduceIte,List.flatMap_cons,List.filter_append,
          List.map_append,calls_filter hnodup horder,hrest,and_self,List.map_cons,List.singleton_append]
      · simp only [ht,hi,List.filter_cons,decide_true,↓reduceIte,List.flatMap_cons,List.filter_append,
          List.map_append,calls_filter hnodup horder,hrest,and_false,decide_false,Bool.false_eq_true,
          List.nil_append]
    · simpa only [List.filter_cons,ht,decide_false,Bool.false_eq_true,↓reduceIte,false_and] using hrest

/-- What a thread has sent to a connection in its broadcasts are the first of those that found it
tracked. -/
theorem Recorded.broadcastsTo_prefix {h : List (ServerCall τ)} (hr : Recorded cfg (s,h)) (u : τ) (i : Nat) :
    ((sends h).filter (fun c => c.caller = some u ∧ c.conn = i ∧ c.broadcast = true)).map (·.data) <+:
      broadcastsTo h u i := by
  have hloops := hr.kept.loops
  have hsent : ((sends h).filter (fun c => c.caller = some u ∧ c.conn = i ∧ c.broadcast = true)).map (·.data) =
      ((forBroadcasts h u).filter (·.1 = i)).map Prod.snd := by
    simp only [forBroadcasts,List.filter_map,List.map_map,List.filter_filter,Function.comp_def]
    congr 2
    funext c
    simp only [Bool.decide_and,Bool.decide_eq_true,← Bool.and_assoc]
    rw [Bool.and_comm (decide (c.conn = i))]
  rw [hsent, ← planned_filter hloops.orders u i, ← hloops.going u, List.filter_append, List.map_append]
  exact List.prefix_append _ _

/-- The messages are those of the first calls by which a thread got a payload to a connection; those
of its broadcasts come in the order in which it made them, each at most once. -/
structure FromThread (h : List (ServerCall τ)) (t : τ) (i : Nat) (messages : List (List Byte))
    (calls : List (SendCall τ)) : Prop where
  taken : calls <+: taken h (some t) i
  messages : messages = calls.map (·.data)
  broadcasts : ((calls.filter (·.broadcast)).map (·.data)).Sublist (broadcastsTo h t i)

theorem eq_map_take_of_prefix {α β : Type} {f : α → β} {l : List α} {m : List β} (h : m <+: l.map f) :
    m = (l.take m.length).map f := by
  rw [List.map_take]
  exact List.prefix_iff_eq_take.mp h

theorem Recorded.fromThread {h : List (ServerCall τ)} (hr : Recorded cfg (s,h)) {u : τ} {i : Nat}
    {messages : List (List Byte)} (hm : messages <+: (taken h (some u) i).map (·.data)) :
    FromThread h u i messages ((taken h (some u) i).take messages.length) := by
  refine ⟨List.take_prefix _ _, eq_map_take_of_prefix hm, ?_⟩
  have hsub : (((taken h (some u) i).take messages.length).filter (·.broadcast)).Sublist
      ((sends h).filter (fun c => c.caller = some u ∧ c.conn = i ∧ c.broadcast = true)) := by
    refine ((List.take_sublist _ _).filter _).trans ?_
    rw [TcpServer.taken, List.filter_filter]
    refine List.monotone_filter_right _ (fun c hc => ?_)
    simp only [Bool.and_eq_true,decide_eq_true_eq] at hc ⊢
    exact ⟨hc.2.1, hc.2.2.1, hc.1⟩
  exact (hsub.map _).trans (hr.broadcastsTo_prefix u i).sublist

end TcpServer

namespace TcpNetwork

variable {κ₁ τ₁ κ₂ τ₂ : Type} [DecidableEq τ₁] [DecidableEq τ₂]

/-- The channels are reliable and keep the order: what an end has read is a prefix of what the other
end has written. -/
def step (client : Nat → Config κ₁) (cfg : ServerConfig κ₂) (n : TcpNetwork κ₁ τ₁ κ₂ τ₂) :
    TcpNetworkEvent τ₁ κ₂ τ₂ → Option (TcpNetwork κ₁ τ₁ κ₂ τ₂)
  | .client i e =>
    (Endpoint.step (client i) (n.clients i) e).bind (fun s =>
      if s.stream <+: n.server.wire i then some { n with clients := Function.update n.clients i s } else none)
  | .server e =>
    (n.server.step cfg e).bind (fun s =>
      if ∀ i < s.peers.length, s.stream i <+: (n.clients i).out.wire then some { n with server := s } else none)

abbrev Reached (client : Nat → Config κ₁) (cfg : ServerConfig κ₂) (n : TcpNetwork κ₁ τ₁ κ₂ τ₂) : Prop :=
  Transition.Reachable (fun n₀ => ∃ u : Nat → κ₁,
    n₀ = ⟨.initial, fun i => initial (client i).kind (u i)⟩) (step client cfg) n

/-- The calls that a step makes at the server. -/
def noted (n : TcpNetwork κ₁ τ₁ κ₂ τ₂) : TcpNetworkEvent τ₁ κ₂ τ₂ → TcpNetwork κ₁ τ₁ κ₂ τ₂ → List (ServerCall τ₂)
  | .client _ _, _ => []
  | .server e, n' => n.server.noted e n'.server

/-- The runs with the record of the server's calls. -/
abbrev Recorded (client : Nat → Config κ₁) (cfg : ServerConfig κ₂)
    (q : TcpNetwork κ₁ τ₁ κ₂ τ₂ × List (ServerCall τ₂)) : Prop :=
  Transition.Reachable (fun q₀ => (∃ u : Nat → κ₁,
    q₀.1 = ⟨.initial, fun i => initial (client i).kind (u i)⟩) ∧ q₀.2 = [])
    (Transition.recorded (step client cfg) noted) q

/-- Every part is reached by a run of its own, and the channels hold. -/
structure Woven (client : Nat → Config κ₁) (cfg : ServerConfig κ₂) (n : TcpNetwork κ₁ τ₁ κ₂ τ₂) : Prop where
  server : TcpServer.Reached cfg n.server
  clients : ∀ i, Endpoint.Reached (client i) (n.clients i)
  toClient : ∀ i, (n.clients i).stream <+: n.server.wire i
  toServer : ∀ i, n.server.stream i <+: (n.clients i).out.wire

section woven
variable {client : Nat → Config κ₁} {cfg : ServerConfig κ₂} {n : TcpNetwork κ₁ τ₁ κ₂ τ₂}

theorem Reached.woven (h : Reached client cfg n) : Woven client cfg n := by
  refine Transition.Reach.invariant (Woven client cfg) ?_ ?_ h
  · rintro _ ⟨u,rfl⟩
    exact ⟨.start rfl, fun i => .start ⟨u i,rfl⟩, fun _ => List.nil_prefix, fun _ => List.nil_prefix⟩
  · intro n e n' hi _ hs
    cases e with
    | client i e =>
      simp only [step,Option.bind_eq_some_iff,Option.ite_none_right_eq_some,Option.some.injEq] at hs
      obtain ⟨s,hs,hpre,rfl⟩ := hs
      refine ⟨hi.server, fun j => ?_, fun j => ?_, fun j => ?_⟩
      · by_cases hj : j = i
        · subst hj
          simp only [Function.update_self]
          exact .next (hi.clients j) trivial hs
        · simp only [Function.update_of_ne hj]
          exact hi.clients j
      · by_cases hj : j = i
        · subst hj
          simpa only [Function.update_self] using hpre
        · simpa only [Function.update_of_ne hj] using hi.toClient j
      · by_cases hj : j = i
        · subst hj
          simp only [Function.update_self]
          exact (hi.toServer j).trans (wire_prefix_step hs)
        · simpa only [Function.update_of_ne hj] using hi.toServer j
    | server e =>
      simp only [step,Option.bind_eq_some_iff,Option.ite_none_right_eq_some,Option.some.injEq] at hs
      obtain ⟨s,hs,hpre,rfl⟩ := hs
      have hdeed := TcpServer.step_deed hs
      refine ⟨.next hi.server trivial hs, hi.clients, fun j => ?_, fun j => ?_⟩
      · exact (hi.toClient j).trans (hdeed.wire_prefix j)
      · by_cases hj : j < s.peers.length
        · exact hpre j hj
        · have hnone : s.peers[j]? = none := List.getElem?_eq_none (by omega)
          simp [TcpServer.stream,hnone]

/-- The record is one of the server's own run. -/
theorem Recorded.server {h : List (ServerCall τ₂)} (hr : Recorded client cfg (n,h)) :
    TcpServer.Recorded cfg (n.server,h) := by
  refine Transition.Reach.invariant (fun q : TcpNetwork κ₁ τ₁ κ₂ τ₂ × List (ServerCall τ₂) =>
    TcpServer.Recorded cfg (q.1.server,q.2)) ?_ ?_ hr
  · rintro ⟨n,h⟩ ⟨⟨u,rfl⟩,rfl⟩
    exact .start ⟨rfl,rfl⟩
  · rintro ⟨n,h⟩ e ⟨n',h'⟩ ih - hs
    obtain ⟨hs,hh⟩ := Transition.recorded_eq_some.mp hs
    cases e with
    | client i e =>
      simp only [step,Option.bind_eq_some_iff,Option.ite_none_right_eq_some,Option.some.injEq] at hs
      obtain ⟨s,-,-,rfl⟩ := hs
      simp only [noted,List.append_nil] at hh
      rw [hh]
      exact ih
    | server e =>
      simp only [step,Option.bind_eq_some_iff,Option.ite_none_right_eq_some,Option.some.injEq] at hs
      obtain ⟨s,hstep,-,rfl⟩ := hs
      exact .next ih trivial (Transition.recorded_eq_some.mpr ⟨hstep,hh⟩)

/-- One connection and its client are the two ends of a `Net`. -/
theorem Woven.linked (h : Woven client cfg n) {i : Nat} {p : Peer κ₂ τ₂} (hi : n.server.peers[i]? = some p) :
    Net.Linked (client i) cfg.connection ⟨n.clients i, p.conn⟩ where
  client := h.clients i
  server := h.server.peer hi
  toClient := TcpServer.wire_of_peer hi ▸ h.toClient i
  toServer := TcpServer.stream_of_peer hi ▸ h.toServer i

end woven

/-- All that was sent on a connection has gone through to its client. -/
structure Delivered (n : TcpNetwork κ₁ τ₁ κ₂ τ₂) (i : Nat) (p : Peer κ₂ τ₂) : Prop where
  posted : p.conn.pipeline.posted = []
  pending : ∀ caller, (p.conn.out.pc caller).pending = []
  written : p.conn.out.wire = p.conn.payloads.flatten
  read : (n.clients i).stream = p.conn.out.wire
  settled : (n.clients i).Settled

/-- What a client hears is put together from what the callback of its connection and each thread of
the server have sent on it, in calls that found the connection open: of each the first messages, in
order, and in the end all of them. What a callback sends that answers every message are the answers to
what the connection has heard. Those of a thread's broadcasts come in the order of the broadcasts. So any
two clients hear the broadcasts of a thread in the same order. -/
theorem multicast (client : Nat → Config κ₁) (cfg : ServerConfig κ₂) (i : Nat)
    (hclient : (client i).kind = .tcpClient) (hframing : (client i).framing = cfg.framing)
    (hf : 1 ≤ cfg.framing.headerSize) (hcb : (client i).onRecv.isSome = true)
    (n : TcpNetwork κ₁ τ₁ κ₂ τ₂) (h : List (ServerCall τ₂)) (hr : Recorded client cfg (n,h)) (p : Peer κ₂ τ₂)
    (hi : n.server.peers[i]? = some p) (honce : (n.clients i).ConnectedOnce)
    (hframed : ∀ caller, ∀ call ∈ TcpServer.taken h caller i, cfg.framing.WellFramed call.data) :
    ∃ origin : List (Option τ₂ × List Byte), origin.map Prod.snd = callbacks (n.clients i).log ∧
      (∀ caller, (origin.filter (·.1 = caller)).map Prod.snd <+: (TcpServer.taken h caller i).map (·.data)) ∧
      (n.Delivered i p → ∀ caller, (origin.filter (·.1 = caller)).map Prod.snd =
        (TcpServer.taken h caller i).map (·.data)) ∧
      (∀ respond, Responds cfg.connection respond →
        (TcpServer.taken h none i).map (·.data) <+: (callbacks p.conn.log).flatMap respond ∧
        (p.conn.socket.isOpen = true → p.conn.running.acts = [] →
          (TcpServer.taken h none i).map (·.data) = (callbacks p.conn.log).flatMap respond)) ∧
      ∀ t, ∃ calls, TcpServer.FromThread h t i ((origin.filter (·.1 = some t)).map Prod.snd) calls ∧
        (n.Delivered i p → calls = TcpServer.taken h (some t) i) := by
  have hserver := hr.server
  have hreached : Reached client cfg n := Transition.Reach.of_recorded (p := (n,h)) hr
  have hwoven := hreached.woven
  have hlinked := hwoven.linked hi
  have hconn := hwoven.server.peer hi
  have hkind : cfg.connection.kind = .tcpConnection := rfl
  have htcp : cfg.connection.kind ≠ .udpEndpoint := by simp [hkind]
  have htaken : ∀ caller, (p.conn.out.sent caller).map (·.request.data) = (TcpServer.taken h caller i).map (·.data) :=
    hserver.kept.copied.sent i p hi
  have hsent : ∀ caller, ∀ ticket ∈ p.conn.out.sent caller, (client i).framing.WellFramed ticket.request.data := by
    intro caller ticket ht
    have hmem : ticket.request.data ∈ (TcpServer.taken h caller i).map (·.data) :=
      htaken caller ▸ List.mem_map_of_mem ht
    obtain ⟨call,hcall,heq⟩ := List.mem_map.mp hmem
    rw [hframing, ← heq]
    exact hframed caller call hcall
  have hcarried := hlinked.back hclient rfl (hframing ▸ hf) hcb honce hsent
  let count := (callbacks (n.clients i).log).length
  let origin := (p.conn.out.entered.take count).map (fun x => (x.1,x.2.buf))
  have hsnd : origin.map Prod.snd = callbacks (n.clients i).log := by
    have htake := List.prefix_iff_eq_take.mp hcarried.ordered
    rw [payloads, ← List.map_take] at htake
    rw [htake, List.map_map]
    rfl
  have hfrom : ∀ caller, (origin.filter (·.1 = caller)).map Prod.snd =
      ((p.conn.out.entered.take count).filter (·.1 = caller)).map (·.2.buf) := by
    intro caller
    simp only [origin,List.filter_map,List.map_map,Function.comp_def]
  have hfirst : ∀ caller, (origin.filter (·.1 = caller)).map Prod.snd <+:
      (TcpServer.taken h caller i).map (·.data) := by
    intro caller
    rw [hfrom, ← htaken]
    exact hconn.entered_prefix htcp count caller
  have hwhole : n.Delivered i p → ∀ caller, (origin.filter (·.1 = caller)).map Prod.snd =
      (TcpServer.taken h caller i).map (·.data) := by
    intro hall caller
    have hcount : p.conn.out.entered.take count = p.conn.out.entered := by
      have hheard := hcarried.whole hall.written hall.read hall.settled
      simp [count,hheard,payloads]
    rw [hfrom, hcount, hconn.entered_eq htcp hall.posted (hall.pending caller), htaken]
  refine ⟨origin, hsnd, hfirst, hwhole, fun respond hresponds => ?_, fun t => ⟨_, hserver.fromThread (hfirst (some t)),
    fun hall => ?_⟩⟩
  · rw [← htaken none]
    exact ⟨(hconn.answering hkind hresponds).begun, hconn.answered_eq hkind hresponds⟩
  · rw [hwhole hall (some t), List.length_map]
    exact List.take_length

/-- A server whose connections use the README framing and look at what they get. -/
def hosting : ServerConfig Unit := ⟨readmeFraming, 0, some passive⟩

/-- Client `0` is connected, and both ends wait for their first byte. -/
def joined : TcpNetwork Unit Unit Unit Unit where
  server := { (.initial : TcpServer Unit Unit) with
    peers := [⟨{ (initial .tcpConnection ⟨(),0⟩ : Endpoint (Hooked Unit) Unit) with
      boot := .done
      reads := [⟨1,0,65536⟩]
      log := [(0,.read 1)] }, .announced⟩]
    connections := {0} }
  clients := Function.update (fun _ => initial .tcpClient ()) 0 Net.established.client

theorem recorded_joined : Recorded (fun _ => Net.listening .tcpClient) hosting (joined,[]) := by
  have hrun : Transition.run (Transition.recorded (step (fun _ => Net.listening .tcpClient) hosting) noted)
      (⟨.initial, fun _ => initial .tcpClient ()⟩,[])
      [.server (.accept ()), .server (.insert 0), .server (.onConnect 0), .server (.start 0), .server (.start 0),
        .client 0 (.connect (.ok 0) true), .client 0 (.connectDone 0 false false), .client 0 .run,
        .client 0 (.act true), .client 0 (.act true)] = some (joined,[]) := by
    simp [Transition.recorded,noted,TcpServer.noted,step,Endpoint.step,Core.connect,Net.listening,Config.bare,
      initial,Core.initial,Core.reopen,withCore,
      Socket.close,Socket.reopen,Socket.closed,Socket.accepted,Core.connectDone,Core.live,notify,idle,
      runHandler,Core.handle,Core.onConnected,Core.emit,act,Endpoint.perform,Core.perform,
      Core.resetReadTimeout,Core.startReceive,Core.start,Core.descriptor,Core.stream,
      Window.startReceive_initial,Window.offered_initial,show Window.initial.activeBytes = 0 from rfl,
      Net.established,joinedClient,Pipeline.Store.fresh,TcpServer.step,TcpServer.initial,TcpServer.connStep,
      TcpServer.update,TcpServer.stream,TcpServer.wire,ServerConfig.connection,hosting,joined]
  exact Transition.reachable_run (.start ⟨⟨fun _ => (),rfl⟩,rfl⟩) hrun

/-- A thread broadcasts `data` to connection `0`, and its client reads it. -/
def announce (data : List Byte) : List (TcpNetworkEvent Unit Unit Unit) :=
  ([.broadcast () data [0], .sendNext (), .conn 0 (.pop (some ())), .conn 0 (.fill (some ())),
    .conn 0 (.post (some ())), .conn 0 .run, .conn 0 (.write 0 data.length)].map .server) ++
  ([.read 0 data ⟨0,0⟩, .run, .act true, .act true, .act true, .act true].map (.client 0))

def afterAnnounce : Option (TcpNetwork Unit Unit Unit Unit × List (ServerCall Unit)) :=
  Transition.run (Transition.recorded (step (fun _ => Net.listening .tcpClient) hosting) noted) (joined,[])
    (announce [0,0,0,5,9])

/-- It has gone through. -/
theorem multicast_one : ∃ (n : TcpNetwork Unit Unit Unit Unit) (h : List (ServerCall Unit))
    (p : Peer Unit Unit) (origin : List (Option Unit × List Byte)), afterAnnounce = some (n,h) ∧
    Recorded (fun _ => Net.listening .tcpClient) hosting (n,h) ∧ n.server.peers[0]? = some p ∧ n.Delivered 0 p ∧
    callbacks (n.clients 0).log = [[0,0,0,5,9]] ∧ origin.map Prod.snd = callbacks (n.clients 0).log ∧
    (origin.filter (·.1 = some ())).map Prod.snd = [[0,0,0,5,9]] ∧
    TcpServer.taken h (some ()) 0 = [⟨some (),0,[0,0,0,5,9],true,true⟩] ∧
    TcpServer.FromThread h () 0 [[0,0,0,5,9]] (TcpServer.taken h (some ()) 0) := by
  have hclient : afterAnnounce.map (fun q => (connections (q.1.clients 0).log, (q.1.clients 0).socket.conn,
      callbacks (q.1.clients 0).log, (q.1.clients 0).stream, (q.1.clients 0).ready.isEmpty &&
        (q.1.clients 0).running.acts.isEmpty)) =
      some ([1], 1, [[0,0,0,5,9]], [0,0,0,5,9], true) := by decide +kernel
  have hrecord : afterAnnounce.map (fun q => decide (TcpServer.sends q.2 = [⟨some (),0,[0,0,0,5,9],true,true⟩])) =
      some true := by decide +kernel
  have hqueue : afterAnnounce.map (fun q => q.1.server.peers.map (fun p => (p.conn.out.wire, p.conn.payloads,
      p.conn.pipeline.posted.isEmpty && (p.conn.out.pc none).pending.isEmpty &&
        (p.conn.out.pc (some ())).pending.isEmpty))) =
      some [([0,0,0,5,9], [[0,0,0,5,9]], true)] := by decide +kernel
  obtain ⟨⟨n,h⟩,hn,hclient⟩ := Option.map_eq_some_iff.mp hclient
  rw [hn, Option.map_some, Option.some.injEq] at hrecord hqueue
  simp only [Prod.mk.injEq,Bool.and_eq_true,List.isEmpty_iff] at hclient
  obtain ⟨hconn,hsocket,hheard,hstream,hready,hacts⟩ := hclient
  obtain ⟨p,hpeers,hpipe⟩ := List.map_eq_singleton_iff.mp hqueue
  simp only [Prod.mk.injEq,Bool.and_eq_true,List.isEmpty_iff] at hpipe
  obtain ⟨hwire,hpayloads,⟨hposted,hpend⟩,hpend'⟩ := hpipe
  have hsends : TcpServer.sends h = [⟨some (),0,[0,0,0,5,9],true,true⟩] := of_decide_eq_true hrecord
  have htaken : TcpServer.taken h (some ()) 0 = [⟨some (),0,[0,0,0,5,9],true,true⟩] := by
    rw [TcpServer.taken, hsends]
    decide
  have hreach : Recorded (fun _ => Net.listening .tcpClient) hosting (n,h) :=
    Transition.reachable_run recorded_joined hn
  have hi : n.server.peers[0]? = some p := by rw [hpeers]; rfl
  have hall : n.Delivered 0 p := by
    refine ⟨hposted, fun caller => ?_, by rw [hwire, hpayloads]; rfl, by rw [hstream, hwire], ?_⟩
    · cases caller with
      | none => exact hpend
      | some u => exact hpend'
    · exact ⟨by simp [notices,hready], by simp [hacts]⟩
  have hframed : ∀ caller, ∀ call ∈ TcpServer.taken h caller 0, readmeFraming.WellFramed call.data := by
    intro caller call hcall
    have hmem := (List.mem_filter.mp hcall).1
    rw [hsends, List.mem_singleton] at hmem
    rw [hmem]
    decide
  obtain ⟨origin,hsnd,-,hwhole,-,hthread⟩ := multicast (fun _ => Net.listening .tcpClient) hosting 0 rfl rfl
    (by decide) rfl n h hreach p hi (.inr (by rw [hconn, hsocket])) hframed
  obtain ⟨calls,hfrom,hcalls⟩ := hthread ()
  have horigin : (origin.filter (·.1 = some ())).map Prod.snd = [[0,0,0,5,9]] := by
    rw [hwhole hall (some ()), htaken]
    rfl
  refine ⟨n, h, p, origin, hn, hreach, hi, hall, hheard, hsnd, horigin, htaken, ?_⟩
  rw [horigin, hcalls hall] at hfrom
  exact hfrom

end TcpNetwork

end Librim
