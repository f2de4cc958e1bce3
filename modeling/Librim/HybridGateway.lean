import Librim.SensorNetwork
import Librim.UdpApplication

/-! The hybrid gateway: a user interface commands it over TCP, and it passes each command on to a bus
of UDP hosts. -/

set_option autoImplicit false

namespace Librim

variable {κ τ : Type}

/-- Without a receive callback, what an endpoint that does not connect has sent are the calls of its threads. -/
theorem Endpoint.silent_sent [DecidableEq τ] {cfg : Config κ} (hk : cfg.kind ≠ .tcpClient) (hnone : cfg.onRecv = none)
    {s t : Endpoint κ τ} {e : Event τ} (hr : Reached cfg s) (hs : step cfg s e = some t) {caller : Option τ}
    {ticket : Ticket} (ht : ticket ∈ t.out.sent caller) :
    ticket ∈ s.out.sent caller ∨ ∃ u, e = .send u ticket.request := by
  have hcalls : cfg.Calls (fun call => ∀ request, call ≠ .send request) := by
    intro callback hcb
    simp [hnone] at hcb
  rcases step_accepts hs ht with hold | haccepted
  · exact .inl hold
  · rcases haccepted.source with hthread | hstrand
    · exact .inr hthread
    · exact absurd rfl (hr.calls hk hcalls _ hstrand ticket.request)

namespace HybridGateway

/-- The `StateDirective` that `run_tcp_user_interface` sends. -/
def directive (state : UInt32) : List Byte := DemoApp.header 50 4 ++ htobe32 state

/-- `"STATE_CHANGE_" + std::to_string(state)`. -/
def alert (state : Nat) : List Byte :=
  (['S','T','A','T','E','_','C','H','A','N','G','E','_'] ++ Nat.toDigits 10 state).map (fun c => UInt8.ofNat c.toNat)

theorem length_fit_directive (msg : List Byte) : (DemoApp.fit 12 msg).length = 12 := DemoApp.length_fit 12 msg

/-- What the handler keeps is what it has passed to `relay_client_->send`. -/
def handleStateChange : UserHandler (List (List Byte)) where
  id := 50
  sizeofMsgDef := 12
  call passed msg _ :=
    { user := passed ++ [alert (be32toh ((msg.drop 8).take 4))]
      span := DemoApp.fit 12 msg
      span_length := length_fit_directive msg
      calls := [] }

/-- `HybridRelay`. -/
def hybridRelay : RimApplication Nat (List (List Byte)) Unit where
  role := .server
  protocol := .tcp
  getExtractor := MessageDispatcher.exampleHeader
  setupHandlers := [.member 50 () (fun _ => handleStateChange)]
  onClientConnected passed := (passed,[])

/-- What the dispatcher makes of one message. -/
def alerts (data : List Byte) : List (List Byte) :=
  if data.length < 12 then []
  else if be32toh (data.take 4) = 50 then [alert (be32toh ((data.drop 8).take 4))]
  else []

theorem handler_of_type (type : Nat) : MessageDispatcher.lastRegistered hybridRelay.setupHandlers type =
    if type = 50 then some handleStateChange else none := by
  by_cases hstate : type = 50
  · subst hstate
    rfl
  · simp [MessageDispatcher.lastRegistered,hybridRelay,Registration.type,hstate,Ne.symm hstate]

theorem dispatch_user (passed : List (List Byte)) (data : List Byte) :
    (hybridRelay.dispatcher.dispatch passed data).2.reply.user = passed ++ alerts data := by
  have hsize : hybridRelay.getExtractor.sizeofHeader = 8 := rfl
  have htype : MessageDispatcher.typeOf hybridRelay.getExtractor data = be32toh (data.take 4) :=
    DemoApp.typeOf_example data
  rw [RimApplication.dispatcher, MessageDispatcher.dispatch_build, hsize, htype, handler_of_type, alerts]
  by_cases hshort : data.length < 8
  · simp [hshort,Dispatched.skip,show data.length < 12 by omega]
  · rw [if_neg hshort]
    by_cases hstate : be32toh (data.take 4) = 50
    · by_cases hlen : data.length < 12
      · simp [hstate,UserHandler.raw,handleStateChange,hlen,Dispatched.skip]
      · simp [hstate,UserHandler.raw,handleStateChange,hlen,SensorNetwork.drop_take_of_le]
    · simp [hstate,Dispatched.skip]

theorem records : Records hybridRelay.config (fun s messages => s.user = messages.flatMap alerts) :=
  RimApplication.Appends.records ⟨dispatch_user, fun _ => rfl⟩

theorem directive_wellFramed (state : UInt32) : hybridRelay.framing.WellFramed (directive state) :=
  DemoApp.wellFramed_header .server .tcp rfl (by simp [length_htobe32])

theorem alerts_directive (state : UInt32) : alerts (directive state) = [alert state.toNat] := by
  have hlen : (directive state).length = 12 := rfl
  have htype : be32toh ((directive state).take 4) = 50 := DemoApp.be32toh_type 50 4 _
  have hstate : (directive state).drop 8 = htobe32 state ++ [] := by
    rw [List.append_nil]
    exact DemoApp.drop_header ..
  rw [alerts, hlen, htype, hstate, SensorNetwork.take_htobe32]
  rfl

theorem flatMap_alerts (states : List UInt32) :
    (states.map directive).flatMap alerts = states.map (fun state => alert state.toNat) := by
  induction states with
  | nil => rfl
  | cons state states ih => rw [List.map_cons, List.flatMap_cons, alerts_directive, ih]; rfl

section gateway
variable {κ₁ τ₁ τ₂ ι τ : Type} {κ : ι → Type}

/-- The user interface and its connection, the hosts on the bus, and what `relay_client_->send` was
called with so far. -/
structure Gateway (κ₁ τ₁ τ₂ : Type) {ι : Type} (κ : ι → Type) (τ : Type) where
  net : Net κ₁ τ₁ (AppState (List (List Byte))) τ₂
  bus : Medium.State (fun i => Endpoint (κ i) τ) (Packet ι)
  relayed : List (List Byte)

inductive Event (τ₁ τ₂ ι τ : Type) where
  | tcp (e : Net.Event τ₁ τ₂)
  | udp (i : ι) (e : Librim.Event τ)

variable [DecidableEq ι]

/-- What a call at the relay passes on. -/
def handed (relay i : ι) : Librim.Event τ → List (List Byte)
  | .send _ request => if i = relay then [request.data] else []
  | _ => []

variable [DecidableEq τ₁] [DecidableEq τ₂] [DecidableEq τ]

/-- The relay is called by the handler only, with its alerts one after the other. -/
def step (client : Config κ₁) (cfg : ∀ i, Config (κ i)) (layout : Layout ι) (relay : ι)
    (g : Gateway κ₁ τ₁ τ₂ κ τ) : Event τ₁ τ₂ ι τ → Option (Gateway κ₁ τ₁ τ₂ κ τ)
  | .tcp e => (Net.step client hybridRelay.config g.net e).map ({ g with net := · })
  | .udp i e =>
    if g.relayed ++ handed relay i e <+: g.net.server.user.user then
      ((UdpNetwork.system cfg (fun _ _ => True) layout).move g.bus (i,e)).map
        (fun bus => { g with bus := bus, relayed := g.relayed ++ handed relay i e })
    else none

/-- A set-up call of a host does not fall into one of its sends, and it starts to receive once. -/
def Allowed (g : Gateway κ₁ τ₁ τ₂ κ τ) : Event τ₁ τ₂ ι τ → Prop
  | .tcp _ => True
  | .udp i e => Endpoint.HostStep (g.bus.parts i) e

/-- Nothing has happened yet. -/
structure Initial (client : Config κ₁) (cfg : ∀ i, Config (κ i)) (g : Gateway κ₁ τ₁ τ₂ κ τ) : Prop where
  net : ∃ u, g.net = ⟨Endpoint.initial client.kind u, Endpoint.initial hybridRelay.kind ⟨[],[]⟩⟩
  hosts : ∀ i, ∃ u, g.bus.parts i = Endpoint.initial (cfg i).kind u
  medium : g.bus.medium = []
  relayed : g.relayed = []

/-- The commands are processed, and every call of the handler was made. -/
structure Gateway.Processed (g : Gateway κ₁ τ₁ τ₂ κ τ) : Prop where
  net : g.net.Processed
  relayed : g.relayed = g.net.server.user.user

abbrev Reached (client : Config κ₁) (cfg : ∀ i, Config (κ i)) (layout : Layout ι) (relay : ι)
    (g : Gateway κ₁ τ₁ τ₂ κ τ) : Prop :=
  Transition.Reach (Initial client cfg) (step client cfg layout relay) Allowed g

variable {client : Config κ₁} {cfg : ∀ i, Config (κ i)} {layout : Layout ι} {relay : ι}
  {g : Gateway κ₁ τ₁ τ₂ κ τ}

theorem Reached.net (h : Reached client cfg layout relay g) : Net.Serves client hybridRelay [] g.net := by
  induction h with
  | start hi => exact .start hi.net
  | @next g g' e _ _ hs ih =>
    cases e with
    | tcp e =>
      simp only [step,Option.map_eq_some_iff] at hs
      obtain ⟨net,hnet,rfl⟩ := hs
      exact .next ih trivial hnet
    | udp i e =>
      simp only [step,Option.ite_none_right_eq_some,Option.map_eq_some_iff] at hs
      obtain ⟨-,bus,-,rfl⟩ := hs
      exact ih

theorem Reached.bus (h : Reached client cfg layout relay g) :
    (UdpNetwork.system cfg (fun _ _ => True) layout).Reached g.bus := by
  induction h with
  | start hi =>
    refine .start ⟨fun i => ?_, hi.medium⟩
    obtain ⟨u,hu⟩ := hi.hosts i
    exact ⟨u, trivial, hu⟩
  | @next g g' e _ hok hs ih =>
    cases e with
    | tcp e =>
      simp only [step,Option.map_eq_some_iff] at hs
      obtain ⟨net,-,rfl⟩ := hs
      exact ih
    | udp i e =>
      simp only [step,Option.ite_none_right_eq_some,Option.map_eq_some_iff] at hs
      obtain ⟨-,bus,hbus,rfl⟩ := hs
      exact .next (e := (i,e)) ih hok hbus

/-- The handler has asked for what the relay was called with, in this order. -/
theorem Reached.relayed (h : Reached client cfg layout relay g) : g.relayed <+: g.net.server.user.user := by
  induction h with
  | start hi =>
    rw [hi.relayed]
    exact List.nil_prefix
  | @next g g' e hr _ hs ih =>
    cases e with
    | tcp e =>
      simp only [step,Option.map_eq_some_iff] at hs
      obtain ⟨net,hnet,rfl⟩ := hs
      have hserves := Reached.net hr
      have hbefore : g.net.server.user.user = _ := hserves.records records rfl
      have hafter : net.server.user.user = _ := Net.Serves.records records rfl (.next hserves trivial hnet)
      obtain ⟨later,hlater⟩ := (Net.step_grows hnet).2.2
      refine ih.trans ?_
      rw [hafter, hbefore, ← hlater, List.flatMap_append]
      exact List.prefix_append _ _
    | udp i e =>
      simp only [step,Option.ite_none_right_eq_some,Option.map_eq_some_iff] at hs
      obtain ⟨hpre,bus,-,rfl⟩ := hs
      exact hpre

/-- What the relay has sent is what it was called with. -/
theorem Reached.sent (hk : ∀ i, (cfg i).kind = .udpEndpoint) (hrelay : (cfg relay).onRecv = none)
    (h : Reached client cfg layout relay g) :
    ∀ caller, ∀ ticket ∈ (g.bus.parts relay).out.sent caller, ticket.request.data ∈ g.relayed := by
  induction h with
  | start hi =>
    intro caller ticket ht
    obtain ⟨u,hu⟩ := hi.hosts relay
    simp [hu,Endpoint.initial,Pipeline.Store.fresh] at ht
  | @next g g' e hr _ hs ih =>
    intro caller ticket ht
    cases e with
    | tcp e =>
      simp only [step,Option.map_eq_some_iff] at hs
      obtain ⟨net,-,rfl⟩ := hs
      exact ih caller ticket ht
    | udp i e =>
      simp only [step,Option.ite_none_right_eq_some,Option.map_eq_some_iff] at hs
      obtain ⟨-,bus,hbus,rfl⟩ := hs
      obtain ⟨-,t,hstep,rfl⟩ := Medium.System.move_eq_some.mp hbus
      by_cases hi : relay = i
      · subst hi
        have hreached : Endpoint.Reached (cfg relay) (g.bus.parts relay) :=
          (UdpNetwork.host_of_alone (Reached.bus hr |>.alone relay)).reachable
        simp only [Function.update_self] at ht
        rcases Endpoint.silent_sent (by simp [hk]) hrelay hreached hstep ht with ht | ⟨u,rfl⟩
        · exact List.mem_append_left _ (ih caller ticket ht)
        · simp [handed]
      · simp only [Function.update_of_ne hi] at ht
        exact List.mem_append_left _ (ih caller ticket ht)

/-- Whatever an address on the bus gets from the relay says which state the user interface has asked
for; and the relay is called for the commands in the order in which they were queued, and in the end
for all of them. -/
theorem relay_passes_commands (client : Config κ₁) (cfg : ∀ i, Config (κ i)) (layout : Layout ι) (relay : ι)
    (hclient : client.kind = .tcpClient) (hk : ∀ i, (cfg i).kind = .udpEndpoint)
    (hrelay : (cfg relay).onRecv = none) (g : Gateway κ₁ τ₁ τ₂ κ τ) (h : Reached client cfg layout relay g)
    (honce : g.net.client.ConnectedOnce) (hsent : ∀ caller, ∀ ticket ∈ g.net.client.out.sent caller,
      ∃ state, ticket.request.data = directive state) :
    ∃ states : List UInt32, g.net.client.payloads = states.map directive ∧
      g.relayed <+: states.map (fun state => alert state.toNat) ∧
      (g.Processed → g.relayed = states.map (fun state => alert state.toNat)) ∧
      ∀ i, (cfg i).onRecv.isSome = true → ∀ d ∈ datagrams (g.bus.parts i).log,
        (∀ j, layout.address j = d.2 → j = relay) → ∃ state ∈ states, d.1 = alert state.toNat := by
  have hserves := h.net
  have hpackets : ∀ p ∈ g.net.client.payloads, ∃ state : UInt32, True ∧ directive state = p := by
    intro p hp
    obtain ⟨caller,ticket,ht,rfl⟩ := hserves.reached.linked.client.entered (by simp [hclient]) hp
    obtain ⟨state,heq⟩ := hsent caller ticket ht
    exact ⟨state, trivial, heq.symm⟩
  obtain ⟨states,hstates,-⟩ := exists_map_of_forall hpackets
  have hcarried : Carried g.net.client g.net.server := by
    refine hserves.carried hclient rfl rfl honce (fun caller ticket ht => ?_)
    obtain ⟨state,heq⟩ := hsent caller ticket ht
    rw [heq]
    exact directive_wellFramed state
  have huser : g.net.server.user.user = _ := hserves.records records rfl
  have hpassed : g.relayed <+: states.map (fun state => alert state.toNat) := by
    obtain ⟨later,hlater⟩ := hcarried.ordered
    refine h.relayed.trans ?_
    rw [huser, ← flatMap_alerts, ← hstates, ← hlater, List.flatMap_append]
    exact List.prefix_append _ _
  have hall : g.Processed → g.relayed = states.map (fun state => alert state.toNat) := by
    intro hdone
    have hwhole := hcarried.whole hdone.net.written hdone.net.read hdone.net.settled
    rw [hdone.relayed, huser, hwhole, hstates, flatMap_alerts]
  refine ⟨states, hstates, hpassed, hall, fun i hcb d hd honly => ?_⟩
  obtain ⟨-,p,hp,hdata,hsender,-⟩ := UdpNetwork.Reached.received hk h.bus hcb hd
  obtain ⟨caller,ticket,ht,-,hbuf,-⟩ := UdpNetwork.Reached.packets hk h.bus hp
  rw [honly p.origin hsender] at ht
  have hmem := hpassed.subset (h.sent hk hrelay caller ticket ht)
  obtain ⟨state,hstate,heq⟩ := List.mem_map.mp hmem
  exact ⟨state, hstate, by rw [heq, hbuf, hdata]⟩

/-- As long as nothing happens on the bus, the connection runs on its own. -/
theorem reached_of_serves {n : Net κ₁ τ₁ (AppState (List (List Byte))) τ₂}
    (h : Net.Serves client hybridRelay [] n) {bus : Medium.State (fun i => Endpoint (κ i) τ) (Packet ι)}
    (hhosts : ∀ i, ∃ u, bus.parts i = Endpoint.initial (cfg i).kind u) (hmedium : bus.medium = []) :
    Reached client cfg layout relay ⟨n, bus, []⟩ := by
  induction h with
  | start hi => exact .start ⟨hi, hhosts, hmedium, rfl⟩
  | @next n n' e _ _ hs ih => exact .next (e := .tcp e) ih trivial (by simp [step,hs])

end gateway

/-- The user interface is connected, and the hosts on the bus are still to be set up. -/
def commanded : Gateway Unit Unit Unit (fun _ : Bool => Unit) Unit :=
  ⟨Net.served [], ⟨fun _ => Endpoint.initial .udpEndpoint (), []⟩, []⟩

theorem reached_commanded :
    Reached (Net.asking hybridRelay) UdpNetwork.pair UdpNetwork.pairLayout false commanded := by
  refine reached_of_serves (Net.serves_served _ rfl rfl []) (fun i => ⟨(), ?_⟩) rfl
  cases i <;> rfl

/-- A test for the steps that are allowed. -/
def allowedCheck (g : Gateway Unit Unit Unit (fun _ : Bool => Unit) Unit) : Event Unit Unit Bool Unit → Bool
  | .tcp _ => true
  | .udp i e => UdpNetwork.hostCheck (g.bus.parts i) e

theorem allowed_of_check {g : Gateway Unit Unit Unit (fun _ : Bool => Unit) Unit} {e : Event Unit Unit Bool Unit}
    (h : allowedCheck g e = true) : Allowed g e := by
  cases e with
  | tcp e => trivial
  | udp i e => exact UdpNetwork.hostStep_of_check h

/-- State 7 is asked for, and the relay tells the host that listens. -/
def stateSeven : List (Event Unit Unit Bool Unit) :=
  (Net.request (directive 7)).map .tcp ++
  [.udp true (.setup (.bind 9) .obliging), .udp true .start, .udp false (Endpoint.retarget ⟨5,9⟩),
    .udp false (.send () ⟨alert 7,.implicit⟩), .udp false (.pop (some ())), .udp false (.fill (some ())),
    .udp false (.post (some ())), .udp false .run, .udp false (.write 0 14), .udp true (.read 0 (alert 7) ⟨1,2⟩),
    .udp true .run, .udp true (.act true)]

def afterStateSeven : Option (Gateway Unit Unit Unit (fun _ : Bool => Unit) Unit) :=
  Transition.run (Transition.guarded (step (Net.asking hybridRelay) UdpNetwork.pair UdpNetwork.pairLayout false)
    allowedCheck) commanded stateSeven

theorem relay_passes_commands_seven : ∃ g : Gateway Unit Unit Unit (fun _ : Bool => Unit) Unit,
    afterStateSeven = some g ∧ Reached (Net.asking hybridRelay) UdpNetwork.pair UdpNetwork.pairLayout false g ∧
    g.Processed ∧ g.relayed = [alert 7] ∧ datagrams (g.bus.parts true).log = [(alert 7,⟨1,2⟩)] ∧
    ∃ states : List UInt32, g.net.client.payloads = states.map directive ∧ g.net.client.payloads = [directive 7] ∧
      g.relayed = states.map (fun state => alert state.toNat) ∧ ∃ state ∈ states, alert 7 = alert state.toNat := by
  have hlog : afterStateSeven.map (fun g => (datagrams (g.bus.parts true).log, connections g.net.client.log,
      g.net.client.socket.conn, g.net.client.payloads)) = some ([(alert 7,⟨1,2⟩)], [1], 1, [directive 7]) := by
    decide +kernel
  have hsent : afterStateSeven.map (fun g => ((g.net.client.out.sent none).map (·.request.data),
      (g.net.client.out.sent (some ())).map (·.request.data), g.net.client.out.wire)) =
      some ([], [directive 7], directive 7) := by decide +kernel
  have hserver : afterStateSeven.map (fun g => (g.net.server.stream, g.net.server.ready.length,
      g.net.server.running)) = some (directive 7, 0, .program [.resetReadTimeout 1, .startReceive 1]) := by
    decide +kernel
  have hrelayed : afterStateSeven.map (fun g => (g.relayed, g.net.server.user.user)) =
      some ([alert 7], [alert 7]) := by decide +kernel
  obtain ⟨g,hg,hlog⟩ := Option.map_eq_some_iff.mp hlog
  rw [hg, Option.map_some, Option.some.injEq] at hsent hserver hrelayed
  simp only [Prod.mk.injEq] at hlog hsent hserver hrelayed
  obtain ⟨hlog,hconn,hsocket,hpay⟩ := hlog
  obtain ⟨hnone,hsome,hwire⟩ := hsent
  obtain ⟨hstream,hready,hidle⟩ := hserver
  have hreach : Reached (Net.asking hybridRelay) UdpNetwork.pair UdpNetwork.pairLayout false g :=
    Transition.Reach.run_guarded (fun _ _ => allowed_of_check) reached_commanded hg
  have hdirectives : ∀ caller, ∀ ticket ∈ g.net.client.out.sent caller, ∃ state, ticket.request.data = directive state :=
    Endpoint.forall_sent (P := fun data => ∃ state, data = directive state) hnone hsome (by simp)
  have hprocessed : g.Processed := by
    refine ⟨⟨by rw [hwire, hpay]; rfl, hstream.trans hwire.symm, ⟨?_, ?_⟩⟩, hrelayed.1.trans hrelayed.2.symm⟩
    · simp [Endpoint.notices,List.length_eq_zero_iff.mp hready]
    · simp [hidle,Running.acts]
  obtain ⟨states,hstates,-,hall,htold⟩ := relay_passes_commands (Net.asking hybridRelay) UdpNetwork.pair
    UdpNetwork.pairLayout false rfl (fun i => by cases i <;> rfl) rfl g hreach (.inr (by rw [hconn, hsocket]))
    hdirectives
  have honly : ∀ j, UdpNetwork.pairLayout.address j = ⟨1,2⟩ → j = false := by decide
  have hmem : (alert 7,⟨1,2⟩) ∈ datagrams (g.bus.parts true).log := by
    rw [hlog]
    exact List.mem_singleton_self _
  exact ⟨g, hg, hreach, hprocessed, hrelayed.1, hlog, states, hstates, hpay, hall hprocessed,
    htold true rfl (alert 7,⟨1,2⟩) hmem honly⟩

end HybridGateway

end Librim
