import Librim.ReceiveLoop
import Librim.UdpSend
import Librim.Foundation.Fifo
import Librim.Foundation.Medium

/-! Hosts with a `UdpEndpoint` each, on a network that can lose, duplicate and reorder datagrams, but
makes none up. -/

set_option autoImplicit false

namespace Librim

open Pipeline (Label)

variable {κ τ : Type}

def Obs.datagram : Obs → Option (List Byte × Address)
  | .callback _ message (some sender) => some (message,sender)
  | _ => none

/-- What the receive callback of a `UdpEndpoint` was called with. -/
def datagrams (log : List (Nat × Obs)) : List (List Byte × Address) := log.filterMap (·.2.datagram)

theorem datagrams_append (log : List (Nat × Obs)) (t : Nat) (o : Obs) :
    datagrams (log ++ [(t,o)]) = datagrams log ++ o.datagram.toList := by
  simp only [datagrams,List.filterMap_append,List.filterMap_cons,List.filterMap_nil]
  cases o.datagram <;> rfl

theorem Silent.datagrams {log log' : List (Nat × Obs)} (h : Silent log log') :
    datagrams log' = datagrams log := by
  obtain ⟨os,rfl,hos⟩ := h
  have hnone : os.filterMap (·.2.datagram) = [] := by
    refine List.filterMap_eq_nil_iff.mpr (fun o ho => ?_)
    have hm := (hos o ho).1
    cases hobs : o.2 with
    | callback owner message sender => simp [hobs,Obs.message] at hm
    | _ => rfl
  rw [Librim.datagrams, List.filterMap_append, hnone, List.append_nil, Librim.datagrams]

def Arrival.datagram (a : Arrival) : List Byte × Address := (a.data,a.sender)

def nonEmpty (d : List Byte × Address) : Bool := !d.1.isEmpty

/-- The datagram in the receive buffer is that of the sender in `remote_sender_endpoint_`. -/
structure Signed (c : Core κ) (ns : List Notice) : Prop where
  history : datagrams c.log ++
    ((pendingSizes ns c.running.acts).map (fun n => (c.window.span 0 n, c.sender))).filter nonEmpty =
      (c.arrived.map Arrival.datagram).filter nonEmpty

theorem Signed.congr {c c' : Core κ} {ns ns' : List Notice} (h : Signed c ns) (hw : c'.window = c.window)
    (hs : c'.sender = c.sender) (hp : pendingSizes ns' c'.running.acts = pendingSizes ns c.running.acts)
    (hl : datagrams c'.log = datagrams c.log) (ha : c'.arrived = c.arrived) : Signed c' ns' where
  history := by rw [hl, hp, hw, hs, ha]; exact h.history

theorem Signed.closeBody {cfg : Config κ} {c : Core κ} {ns : List Notice} (h : Signed c ns) :
    Signed (c.closeBody cfg) ns := by
  have hl := (closeBody_silent cfg c).datagrams
  obtain ⟨_,_,_,_,heq⟩ := Core.closeBody_shape cfg c
  rw [heq] at hl ⊢
  exact h.congr rfl rfl rfl hl rfl

theorem Signed.startReceive {cfg : Config κ} (hk : cfg.kind = .udpEndpoint) {c : Core κ} {k : Nat}
    {ns : List Notice} (h : Signed c ns) : Signed (c.startReceive cfg k) ns := by
  have hl := (startReceive_silent cfg c k).datagrams
  simp only [Core.startReceive,hk] at hl ⊢
  split
  · exact h
  · rw [if_neg ‹_›] at hl
    exact h.congr rfl rfl rfl hl rfl

/-- The system stores a datagram and its sender while nothing else is pending. -/
theorem Signed.read {c : Core κ} {socket : Socket} {ns : List Notice} {i : Nat} {r : Read} {data : List Byte}
    {sender : Address} (hloop : Loop c.boot socket c.reads ns c.running.acts)
    (hcontent : Content false c ns) (h : Signed c ns) (hi : c.reads[i]? = some r)
    (hlen : data.length ≤ r.room) :
    Signed { c with
        window := { c.window with recvBuffer := poke c.window.recvBuffer r.offset data }
        sender := sender
        reads := c.reads.eraseIdx i
        arrived := c.arrived ++ [⟨r.conn,data,sender⟩] }
      (ns ++ [.received r (.ok data.length)]) := by
  obtain ⟨hoff,hroom⟩ := hcontent.whole r (List.mem_of_getElem? hi)
  have hlt : i < c.reads.length := (List.getElem?_eq_some_iff.mp hi).1
  have hs := hloop.single
  simp only [links] at hs
  have hnone := pendingSizes_eq_nil ns hloop.program (by omega) (by omega)
  have hone : pendingSizes (ns ++ [.received r (.ok data.length)]) c.running.acts = [data.length] := by
    simp only [pendingSizes,List.append_eq_nil_iff] at hnone
    simp [pendingSizes,hnone,Notice.size]
  have hbuf := hcontent.buffer
  refine ⟨?_⟩
  rw [hone, hoff]
  simp only [List.map_cons,List.map_nil,List.map_append,List.filter_append]
  rw [span_poke _ (by omega), ← h.history, hnone]
  simp [Arrival.datagram]

/-- The callback gets the datagram that is pending, and its sender. -/
theorem Signed.datagram {cfg : Config κ} (hcb : cfg.onRecv.isSome = true) {c : Core κ} {socket : Socket}
    {ns : List Notice} {k n : Nat} (hrun : c.running = .program [.datagram k n, .startReceive k])
    (hloop : Loop c.boot socket c.reads ns c.running.acts) (hcontent : Content false c ns)
    (h : Signed c ns) : Signed (c.deliver cfg k 0 n (some c.sender) [.startReceive k]) ns := by
  obtain ⟨callback,hcallback⟩ := Option.isSome_iff_exists.mp hcb
  have hs := hloop.single
  simp only [links,hrun,Running.acts] at hs
  have hrearms : [Act.datagram k n, .startReceive k].countP Act.rearms = 1 := rfl
  have hns : ns.filterMap Notice.size = [] := by
    have := pendingSizes_eq_nil ns (UdpProgram.calls (l := [])) (by omega) rfl
    simpa [pendingSizes] using this
  have hpend : pendingSizes ns c.running.acts = [n] := by
    simp [pendingSizes,hns,hrun,Running.acts,Act.size]
  have hsizes := hcontent.sizes
  rw [hpend] at hsizes
  have hn := (hsizes n List.mem_cons_self).1
  have hpos : 0 < n := hcontent.passed n (by simp [hrun,Running.acts,Act.size])
  have hspan : (c.window.span 0 n).length = n := by
    simp only [Window.span,List.length_take,List.length_drop,hcontent.buffer]
    omega
  have hkept : nonEmpty (c.window.span 0 n, c.sender) = true := by
    simp only [nonEmpty,Bool.not_eq_true',List.isEmpty_eq_false_iff]
    exact List.ne_nil_of_length_pos (by omega)
  have hhist := h.history
  rw [hpend, List.map_singleton, List.filter_cons, if_pos hkept, List.filter_nil] at hhist
  have hnone : ∀ l : List Call, pendingSizes ns (l.map .call ++ [.startReceive k]) = [] := by
    intro l
    simp [pendingSizes,hns,Act.size]
  refine ⟨?_⟩
  simp only [Core.deliver,hcallback,Core.emit,Running.acts,hnone,datagrams_append,Obs.datagram,List.map_nil,
    List.filter_nil,List.append_nil,Option.toList_some]
  exact hhist

theorem Signed.perform {cfg : Config κ} (hk : cfg.kind = .udpEndpoint) (hcb : cfg.onRecv.isSome = true)
    {c : Core κ} {socket : Socket} {ns : List Notice} {a : Act} {rest : List Act}
    (hrun : c.running = .program (a :: rest)) (hloop : Loop c.boot socket c.reads ns c.running.acts)
    (hcontent : Content false c ns) (h : Signed c ns) : Signed (c.perform cfg rest a) ns := by
  have hp := hloop.program
  rw [hrun] at hp
  have htail : a.size = none → Signed { c with running := .program rest } ns := by
    intro hsize
    exact h.congr rfl rfl (by simp [pendingSizes,hrun,Running.acts,hsize]) rfl rfl
  obtain ⟨-,⟨k,rfl⟩ | rfl | ⟨k,rfl⟩ | ⟨k,n,rfl,rfl⟩⟩ := hp.uncons
  · cases k with
    | send request => exact htail rfl
    | close => exact (htail rfl).closeBody
  · exact (htail rfl).closeBody
  · exact (htail rfl).startReceive hk
  · exact h.datagram hcb hrun hloop hcontent

theorem Signed.received {cfg : Config κ} (hk : cfg.kind = .udpEndpoint) {c : Core κ} {r : Read}
    {result : Except ErrorCode Nat} {ns : List Notice} (hrun : c.running = .program [])
    (h : Signed c (.received r result :: ns)) : Signed (c.onReceived cfg r result) ns := by
  cases result with
  | ok n =>
    simp only [Core.onReceived,hk]
    split
    · exact h.congr rfl rfl (by simp [pendingSizes,hrun,Running.acts,Notice.size,Act.size]) rfl rfl
    · rename_i hzero
      obtain rfl : n = 0 := by omega
      have hhist := h.history
      have hpend : pendingSizes (.received r (.ok 0) :: ns) c.running.acts =
          0 :: pendingSizes ns c.running.acts := by
        simp [pendingSizes,hrun,Running.acts,Notice.size]
      have hspan : nonEmpty (c.window.span 0 0, c.sender) = false := by simp [nonEmpty,Window.span]
      rw [hpend, List.map_cons, List.filter_cons, hspan] at hhist
      exact ⟨hhist⟩
  | error ec =>
    simp only [Core.onReceived,hk]
    split
    · exact h.congr rfl rfl (pendingSizes_cons hrun rfl rfl) rfl rfl
    · refine h.congr rfl rfl ?_ rfl rfl
      rw [hrun]
      exact pendingSizes_cons rfl rfl rfl

theorem Signed.move {cfg : Config κ} (hk : cfg.kind = .udpEndpoint) (hcb : cfg.onRecv.isSome = true)
    {c c' : Core κ} {socket : Socket} {ns ns' : List Notice} {e : Event τ} (hu : Unconnected c.connects ns)
    (hloop : Loop c.boot socket c.reads ns c.running.acts) (hcontent : Content false c ns) (h : Signed c ns)
    (hm : Move cfg c ns e c' ns') : Signed c' ns' := by
  have happend : ∀ {n : Notice}, n.size = none → pendingSizes (ns ++ [n]) c.running.acts =
      pendingSizes ns c.running.acts := by
    intro n hn
    simp [pendingSizes,hn]
  cases hm with
  | stay => exact h
  | tick => exact h.congr rfl rfl rfl rfl rfl
  | wrote hrun | release hrun | finish hrun => exact h.congr rfl rfl (by simp [hrun,Running.acts]) rfl rfl
  | close => exact h.congr rfl rfl (happend rfl) rfl rfl
  | connect hc => simp [Core.connect,hk] at hc
  | setup hc =>
    simp only [Core.setup,hk,↓reduceIte,Option.some.injEq] at hc
    subst hc
    exact h.congr rfl rfl rfl rfl rfl
  | start hc =>
    simp only [Core.start,hk,Option.some.injEq] at hc
    have hboot : Signed { c with boot := .done } ns := h.congr rfl rfl rfl rfl rfl
    exact hc ▸ hboot.startReceive hk
  | @handle n ns hrun =>
    have hclose : n.size = none → Signed { c with running := .program [.close] } ns' := fun hn =>
      h.congr rfl rfl (pendingSizes_cons hrun hn rfl) rfl rfl
    cases n with
    | received r result => exact h.received hk hrun
    | expired w aborted =>
      simp only [Core.handle]
      split
      · refine h.congr rfl rfl ?_ rfl rfl
        rw [hrun]
        exact pendingSizes_cons rfl rfl rfl
      · exact hclose rfl
    | connected a failed reopened => exact absurd List.mem_cons_self (hu.notices a failed reopened)
    | close => exact hclose rfl
  | fail hrun =>
    have hnext : Signed { c with running := .program [] } ns :=
      h.congr rfl rfl (by simp [hrun,Running.acts]) rfl rfl
    exact hnext.closeBody
  | perform hrun => exact h.perform hk hcb hrun hloop hcontent
  | read hx =>
    obtain ⟨r,hi,-,hlen,-,hx⟩ := Core.read_eq_some.mp hx
    obtain ⟨rfl,rfl⟩ := Prod.mk.inj hx
    exact Signed.read hloop hcontent h hi hlen
  | readFail hx =>
    obtain ⟨r,hi,-,hx⟩ := Core.readFail_eq_some.mp hx
    obtain ⟨rfl,rfl⟩ := Prod.mk.inj hx
    exact h.congr rfl rfl (happend rfl) rfl rfl
  | expire hx | abort hx =>
    obtain ⟨_,-,-,-,hx⟩ := Core.waitDone_eq_some.mp hx
    obtain ⟨rfl,rfl⟩ := Prod.mk.inj hx
    exact h.congr rfl rfl (happend rfl) rfl rfl
  | connectDone hx =>
    obtain ⟨_,ha,-,-⟩ := Core.connectDone_eq_some.mp hx
    simp [hu.connects] at ha

/-- `start_receive()` is called once, and `connect` does not give `remote_endpoint_` another value while
a call of `send` has still to copy it. -/
def Endpoint.HostStep (s : Endpoint κ τ) (e : Event τ) : Prop := StartStep s.toCore e ∧ s.TargetStep e

/-- What was passed to `send` or `send_to`: the same bytes, and the target if there was one. -/
structure Ticket.Intact (t : Ticket) : Prop where
  buf : t.asked.buf = t.request.data
  target : ∀ address, t.request.target = .to address → t.asked.target = some address

namespace Endpoint

/-- The runs of one host. -/
abbrev Host [DecidableEq τ] (cfg : Config κ) : Endpoint κ τ → Prop :=
  Transition.Reach (fun s => ∃ u, s = initial cfg.kind u) (step cfg) HostStep

section host
variable [DecidableEq τ] {cfg : Config κ} {s t : Endpoint κ τ}

theorem Host.signed (hk : cfg.kind = .udpEndpoint) (hcb : cfg.onRecv.isSome = true) (h : Host cfg s) :
    Content false s.toCore s.notices ∧ Signed s.toCore s.notices := by
  have hinv : Unconnected s.connects s.notices ∧ Loop s.boot Socket.closed s.reads s.notices s.running.acts ∧
      Content false s.toCore s.notices ∧ Signed s.toCore s.notices := by
    induction h with
    | start hi =>
      obtain ⟨u,rfl⟩ := hi
      exact ⟨⟨rfl, by simp [initial,notices]⟩, Loop.initial _, Content.initial, ⟨rfl⟩⟩
    | next _ hstep hs ih =>
      obtain ⟨hu,hloop,hcontent,hsigned⟩ := ih
      have hm := step_move hs
      refine ⟨hu.move (by simp [hk]) hm, ?_, hcontent.move hk hcb hu (by simp) hloop hm,
        hsigned.move hk hcb hu hloop hcontent hm⟩
      exact hloop.follow hk hcb hu (by simp [Seen,Socket.closed]) hstep.1 (by simp [Socket.closed]) hm
  exact hinv.2.2

/-- The callback gets the datagrams that are not empty, in the order in which they came and each with
its sender. -/
theorem Host.datagrams (hk : cfg.kind = .udpEndpoint) (hcb : cfg.onRecv.isSome = true) (h : Host cfg s) :
    datagrams s.log <+: (s.arrived.map Arrival.datagram).filter nonEmpty := by
  rw [← (h.signed hk hcb).2.history]
  exact List.prefix_append _ _

/-- Every message has a sender. -/
theorem Host.callbacks (hk : cfg.kind = .udpEndpoint) (hcb : cfg.onRecv.isSome = true) (h : Host cfg s) :
    callbacks s.log = (Librim.datagrams s.log).map Prod.fst := by
  obtain ⟨hcontent,hsigned⟩ := h.signed hk hcb
  have hfirst : ∀ l : List (List Byte × Address),
      (l.filter nonEmpty).map Prod.fst = (l.map Prod.fst).filter (kept false) := by
    intro l
    rw [List.filter_map]
    rfl
  have hhist := congrArg (List.map Prod.fst) hsigned.history
  rw [List.map_append, hfirst, hfirst, List.map_map, List.map_map] at hhist
  have hsame : Librim.callbacks s.log ++ _ = (Librim.datagrams s.log).map Prod.fst ++ _ :=
    hcontent.history.trans hhist.symm
  exact List.append_cancel_right hsame

/-- An item in the queue is what a call asked for. -/
theorem Host.asked (h : Host cfg s) {item : Item} (hitem : item ∈ s.out.entered.map Prod.snd) :
    ∃ caller, ∃ ticket ∈ s.out.sent caller, ticket.asked = item := by
  obtain ⟨history,hr⟩ := Transition.Reach.exists_recorded (fun s _ t => s.out.started t.out) h
  have hands : Hands cfg TargetStep (s,history) := by
    refine Transition.Reach.mono ?_ hr
    exact fun _ _ hok => hok.2
  obtain ⟨⟨caller,entered⟩,hmem,rfl⟩ := List.mem_map.mp hitem
  have horder := hands.ordered.2.order caller
  have hasked : entered ∈ (s.out.sent caller).map Ticket.asked := by
    rw [show s.out.sent = s.pipeline.sent from rfl, horder, List.mem_append, List.mem_append]
    refine .inl (.inl (List.mem_map.mpr ⟨(caller,entered), ?_, rfl⟩))
    exact List.mem_filter.mpr ⟨hmem, by simp⟩
  obtain ⟨ticket,ht,heq⟩ := List.mem_map.mp hasked
  exact ⟨caller, ticket, ht, heq⟩

theorem Host.intact (hk : cfg.kind = .udpEndpoint) (h : Host cfg s) :
    ∀ caller, ∀ ticket ∈ s.out.sent caller, ticket.Intact := by
  induction h with
  | start hi =>
    obtain ⟨u,rfl⟩ := hi
    intro caller ticket ht
    simp [initial,Pipeline.Store.fresh] at ht
  | @next s t e _ _ hs ih =>
    intro caller ticket ht
    cases step_sends hs caller with
    | nothing hsame _ => exact ih caller ticket (hsame ▸ ht)
    | @accepted request _ _ hmore =>
      rw [hmore, List.mem_append, List.mem_singleton] at ht
      rcases ht with ht | rfl
      · exact ih caller ticket ht
      · refine ⟨rfl, fun address haddress => ?_⟩
        replace haddress : request.target = .to address := haddress
        simp only [hk,Item.ofRequest,haddress]

/-- What the transport gets from a step: the items of the write that makes progress. -/
def transmitted (s : Endpoint κ τ) : Event τ → List Item
  | .write i _ =>
    match s.out.writes[i]? with
    | some w => w.bufs.map s.out.mem
    | none => []
  | _ => []

theorem Host.transmitted (h : Host cfg s) {e : Event τ} {item : Item} (hitem : item ∈ s.transmitted e) :
    ∃ caller, ∃ ticket ∈ s.out.sent caller, ticket.asked = item := by
  have hsound : Sound cfg s := Reached.sound h.reachable
  refine h.asked ?_
  cases e with
  | write i n =>
    simp only [Endpoint.transmitted] at hitem
    split at hitem
    · rename_i w hw
      obtain ⟨-,-,-,-,hbufs,-,-⟩ := hsound.serial.of_writes hw
      obtain ⟨b,hb,rfl⟩ := List.mem_map.mp hitem
      rw [show s.out.entered = s.pipeline.entered from rfl, hsound.flow, List.mem_append]
      exact .inr (List.mem_map_of_mem (List.mem_of_mem_take (hbufs ▸ hb)))
    · simp at hitem
  | _ => simp [Endpoint.transmitted] at hitem

end host

end Endpoint

open Endpoint

structure Packet (ι : Type) where
  origin : ι
  item : Item

/-- The address that the datagrams of a host bear, and the hosts that get what is sent to an address:
its own, or that of a group. -/
structure Layout (ι : Type) where
  address : ι → Address
  reaches : Address → ι → Bool

/-- The datagram `data` from `sender` comes in at host `i`. -/
def Packet.comes {ι : Type} (layout : Layout ι) (i : ι) (data : List Byte) (sender : Address)
    (p : Packet ι) : Bool :=
  p.item.buf == data && layout.address p.origin == sender && p.item.target.any (layout.reaches · i)

namespace UdpNetwork

variable {ι : Type} {κ : ι → Type} [DecidableEq τ]

/-- A host can receive what another has transmitted, as often as the network likes. `users` says in which
states the callbacks start. -/
def system (cfg : ∀ i, Config (κ i)) (users : ∀ i, κ i → Prop) (layout : Layout ι) :
    Medium.System (fun i => Endpoint (κ i) τ) (Event τ) (Packet ι) where
  init i s := ∃ u, users i u ∧ s = initial (cfg i).kind u
  step i := Endpoint.step (cfg i)
  ok _ := HostStep
  emits i s e := (s.transmitted e).map (⟨i,·⟩)
  admits packets i
    | .read _ data sender => packets.any (·.comes layout i data sender)
    | _ => true

section network
variable {cfg : ∀ i, Config (κ i)} {users : ∀ i, κ i → Prop} {layout : Layout ι}

theorem host_of_alone {i : ι} {s : Endpoint (κ i) τ} (h : (system cfg users layout).Alone i s) : Host (cfg i) s := by
  refine Transition.Reach.weaken ?_ h
  rintro _ ⟨u,-,rfl⟩
  exact ⟨u,rfl⟩

variable [DecidableEq ι] {n : Medium.State (fun i => Endpoint (κ i) τ) (Packet ι)}

/-- What is on the network was asked for by a call at the host that it comes from. -/
theorem Reached.packets (hk : ∀ i, (cfg i).kind = .udpEndpoint) (h : (system cfg users layout).Reached n)
    {p : Packet ι} (hp : p ∈ n.medium) : ∃ caller, ∃ ticket ∈ (n.parts p.origin).out.sent caller,
      ticket.asked = p.item ∧ ticket.request.data = p.item.buf ∧
      ∀ address, ticket.request.target = .to address → p.item.target = some address := by
  have hasked : ∃ j, p.origin = j ∧ ∃ caller, ∃ ticket ∈ (n.parts j).out.sent caller, ticket.asked = p.item := by
    refine h.emitted (Q := fun j s (p : Packet ι) => p.origin = j ∧ ∃ caller, ∃ ticket ∈ s.out.sent caller,
      ticket.asked = p.item) ?_ ?_ p hp
    · rintro i s e t p ⟨horigin,caller,ticket,ht,hitem⟩ hs
      exact ⟨horigin, caller, ticket, (Endpoint.sent_prefix_step hs caller).subset ht, hitem⟩
    · intro i s e t hr hs p hp
      obtain ⟨item,hitem,rfl⟩ := List.mem_map.mp hp
      obtain ⟨caller,ticket,ht,heq⟩ := (host_of_alone hr).transmitted hitem
      exact ⟨rfl, caller, ticket, (Endpoint.sent_prefix_step hs caller).subset ht, heq⟩
  obtain ⟨j,rfl,caller,ticket,ht,hitem⟩ := hasked
  have hintact := (host_of_alone (h.alone p.origin)).intact (hk p.origin) caller ticket ht
  exact ⟨caller, ticket, ht, hitem, by rw [← hitem, hintact.buf], fun address ha => hitem ▸ hintact.target address ha⟩

/-- What a host has received is on the network. -/
theorem Reached.arrived (h : (system cfg users layout).Reached n) (i : ι) :
    ∀ a ∈ (n.parts i).arrived, ∃ p ∈ n.medium, p.comes layout i a.data a.sender = true := by
  refine Medium.System.Reached.taken (fun _ s => s.arrived)
    (fun i (a : Arrival) (p : Packet ι) => p.comes layout i a.data a.sender = true) ?_ ?_ h i
  · rintro i _ ⟨u,-,rfl⟩
    rfl
  · intro packets i s e t hs hadmits a ha
    rcases (step_move hs).arrived with heq | ⟨j,data,sender,conn,rfl,heq⟩
    · exact .inl (heq ▸ ha)
    · rw [heq, List.mem_append, List.mem_singleton] at ha
      rcases ha with ha | rfl
      · exact .inl ha
      · exact .inr (List.any_eq_true.mp hadmits)

/-- What a receive callback gets is on the network. -/
theorem Reached.received (hk : ∀ i, (cfg i).kind = .udpEndpoint) (h : (system cfg users layout).Reached n) {i : ι}
    (hcb : (cfg i).onRecv.isSome = true) {d : List Byte × Address} (hd : d ∈ datagrams (n.parts i).log) :
    d.1 ≠ [] ∧ ∃ p ∈ n.medium, p.item.buf = d.1 ∧ layout.address p.origin = d.2 ∧
      ∃ target, p.item.target = some target ∧ layout.reaches target i = true := by
  have hhost : Host (cfg i) (n.parts i) := host_of_alone (h.alone i)
  obtain ⟨harrival,hne⟩ := List.mem_filter.mp ((hhost.datagrams (hk i) hcb).subset hd)
  obtain ⟨a,ha,rfl⟩ := List.mem_map.mp harrival
  obtain ⟨p,hp,hcomes⟩ := Reached.arrived h i a ha
  simp only [Packet.comes,Bool.and_eq_true,beq_iff_eq,Option.any_eq_true] at hcomes
  obtain ⟨⟨hdata,hsender⟩,hreach⟩ := hcomes
  exact ⟨by simpa [nonEmpty] using hne, p, hp, hdata, hsender, hreach⟩

end network

variable [DecidableEq ι]

/-- Whatever a receive callback gets, and whatever sender it is told, a host with that address has sent
it there. -/
theorem integrity (cfg : ∀ i, Config (κ i)) (users : ∀ i, κ i → Prop) (layout : Layout ι)
    (hk : ∀ i, (cfg i).kind = .udpEndpoint) (n : Medium.State (fun i => Endpoint (κ i) τ) (Packet ι))
    (h : (system cfg users layout).Reached n) (i : ι) (hcb : (cfg i).onRecv.isSome = true) :
    ∀ d ∈ datagrams (n.parts i).log, d.1 ≠ [] ∧ ∃ j, layout.address j = d.2 ∧
      ∃ caller, ∃ ticket ∈ (n.parts j).out.sent caller, ticket.request.data = d.1 ∧
        (∃ target, ticket.asked.target = some target ∧ layout.reaches target i = true) ∧
        ∀ address, ticket.request.target = .to address → layout.reaches address i = true := by
  intro d hd
  obtain ⟨hne,p,hp,hdata,hsender,target,htarget,hreach⟩ := Reached.received hk h hcb hd
  obtain ⟨caller,ticket,ht,hasked,hbuf,hto⟩ := Reached.packets hk h hp
  refine ⟨hne, p.origin, hsender, caller, ticket, ht, hbuf.trans hdata, ⟨target, by rw [hasked, htarget], hreach⟩, ?_⟩
  intro address haddress
  have heq := hto address haddress
  rw [htarget, Option.some.injEq] at heq
  exact heq ▸ hreach

/-- A sender, and a host that listens. -/
def pair (listens : Bool) : Config Unit := if listens then listener else .bare .udpEndpoint

def pairLayout : Layout Bool where
  address listens := if listens then ⟨5,9⟩ else ⟨1,2⟩
  reaches address listens := listens && address == ⟨5,9⟩

/-- A test for the steps of a host with one thread. -/
def hostCheck {κ : Type} (s : Endpoint κ Unit) : Event Unit → Bool
  | .start => s.boot != .done
  | .setup _ _ => (s.out.pc none).unfilled.isNone && (s.out.pc (some ())).unfilled.isNone
  | _ => true

theorem hostStep_of_check {κ : Type} {s : Endpoint κ Unit} {e : Event Unit} (h : hostCheck s e = true) :
    HostStep s e := by
  cases e with
  | start => exact ⟨by simpa [hostCheck,StartStep] using h, trivial⟩
  | setup call os =>
    refine ⟨trivial, ?_⟩
    rintro ⟨caller,ticket,hpc,-⟩
    simp only [hostCheck,Bool.and_eq_true,Option.isNone_iff_eq_none] at h
    cases caller with
    | none => rw [h.1] at hpc; simp at hpc
    | some t => rw [h.2] at hpc; simp at hpc
  | _ => exact ⟨trivial,trivial⟩

/-- One datagram on its way. -/
def oneDatagram : List (Bool × Event Unit) :=
  [(true, .setup (.bind 9) .obliging), (true, .start), (false, retarget ⟨5,9⟩),
    (false, .send () ⟨[7],.implicit⟩), (false, .pop (some ())), (false, .fill (some ())),
    (false, .post (some ())), (false, .run), (false, .write 0 1), (true, .read 0 [7] ⟨1,2⟩), (true, .run),
    (true, .act true)]

def afterOneDatagram : Option (Medium.State (fun _ : Bool => Endpoint Unit Unit) (Packet Bool)) :=
  Transition.run (Transition.guarded (system pair (fun _ _ => True) pairLayout).move
    (fun n e => hostCheck (n.parts e.1) e.2)) ⟨fun _ => initial .udpEndpoint (), []⟩ oneDatagram

theorem integrity_one : ∃ n : Medium.State (fun _ : Bool => Endpoint Unit Unit) (Packet Bool),
    afterOneDatagram = some n ∧ (system pair (fun _ _ => True) pairLayout).Reached n ∧
    datagrams (n.parts true).log = [([7],⟨1,2⟩)] ∧ ∃ j, pairLayout.address j = ⟨1,2⟩ ∧
      ∃ caller, ∃ ticket ∈ (n.parts j).out.sent caller, ticket.request.data = [7] := by
  have hrun : afterOneDatagram.map (fun n => datagrams (n.parts true).log) = some [([7],⟨1,2⟩)] := by
    decide +kernel
  obtain ⟨n,hn,hlog⟩ := Option.map_eq_some_iff.mp hrun
  have hreach : (system pair (fun _ _ => True) pairLayout).Reached n := by
    refine Transition.Reach.run_guarded (fun s e => hostStep_of_check) (.start ⟨fun i => ⟨(),trivial,?_⟩, rfl⟩) hn
    cases i <;> rfl
  obtain ⟨-,j,haddress,caller,ticket,ht,hdata,-,-⟩ := integrity pair (fun _ _ => True) pairLayout
    (fun i => by cases i <;> rfl) n hreach true rfl ([7],⟨1,2⟩) (by rw [hlog]; exact List.mem_singleton_self _)
  exact ⟨n, hn, hreach, hlog, j, haddress, caller, ticket, ht, hdata⟩

end UdpNetwork

end Librim
