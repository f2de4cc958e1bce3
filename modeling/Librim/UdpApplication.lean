import Librim.Application
import Librim.RequestResponse
import Librim.Tracking
import Librim.UdpNetwork

/-! `RimApplication` over UDP: a server binds a port and a client connects, and `send` names no target. -/

set_option autoImplicit false

namespace Librim

variable {κ τ : Type}

section calls
variable {cfg : Config κ} {c c' : Core κ} {ns ns' : List Notice} {e : Event τ} {P : Call → Prop}

/-- The receive callback makes no other calls. -/
def Config.Calls (cfg : Config κ) (P : Call → Prop) : Prop :=
  ∀ callback, cfg.onRecv = some callback → ∀ u m sender, ∀ call ∈ (callback u m sender).calls, P call

/-- What the running handler has still to call. -/
def Core.Calls (c : Core κ) (P : Call → Prop) : Prop := ∀ call, .call call ∈ c.running.acts → P call

theorem Config.Calls.deliver (hcfg : cfg.Calls P) {owner offset n : Nat} {sender : Option Address} {next : List Act}
    (hnext : ∀ call, .call call ∈ next → P call) : (c.deliver cfg owner offset n sender next).Calls P := by
  intro call hcall
  unfold Core.deliver at hcall
  split at hcall
  · exact hnext call hcall
  · rename_i callback hcb
    rcases List.mem_append.mp hcall with hmem | hmem
    · exact hcfg callback hcb _ _ _ call (by simpa using hmem)
    · exact hnext call hmem

theorem Core.Calls.perform (hcfg : cfg.Calls P) {a : Act} {rest : List Act} (h : c.Calls P)
    (hrun : c.running = .program (a :: rest)) : (c.perform cfg rest a).Calls P := by
  have hrest : ∀ call, .call call ∈ rest → P call := by
    intro call hcall
    refine h call ?_
    rw [hrun]
    exact List.mem_cons_of_mem _ hcall
  have hmore : ∀ acts : List Act, (∀ call, .call call ∉ acts) → ∀ call, .call call ∈ acts ++ rest → P call := by
    intro acts hacts call hcall
    exact hrest call ((List.mem_append.mp hcall).resolve_left (hacts call))
  cases a with
  | scan owner k =>
    simp only [Core.perform]
    split
    · exact hmore [.close] (by simp)
    · exact hcfg.deliver (hmore [.scan owner _] (by simp))
    · exact hmore [.resetReadTimeout owner, .startReceive owner] (by simp)
  | datagram owner n => exact hcfg.deliver hrest
  | call k =>
    cases k with
    | send request => exact hrest
    | close => simpa only [Core.Calls,Core.perform,Core.closeBody_running,Running.acts] using hrest
  | resetReadTimeout owner =>
    simpa only [Core.Calls,Core.perform,Core.resetReadTimeout_running,Running.acts] using hrest
  | startReceive owner => simpa only [Core.Calls,Core.perform,Core.startReceive_running,Running.acts] using hrest
  | close => simpa only [Core.Calls,Core.perform,Core.closeBody_running,Running.acts] using hrest

theorem handle_calls {n : Notice} (hrun : c.running = .program []) (hn : n.isConnected = false) :
    (c.handle cfg n).Calls P := by
  have hnone : c.Calls P := by simp [Core.Calls,hrun,Running.acts]
  cases n with
  | connected a failed reopened => simp [Notice.isConnected] at hn
  | close => simp [Core.Calls,Core.handle,Running.acts]
  | expired w aborted =>
    simp only [Core.handle]
    split
    · exact hnone
    · simp [Core.Calls,Running.acts]
  | received r result =>
    simp only [Core.handle,Core.onReceived]
    split
    · split
      · simp [Core.Calls,Running.acts]
      · exact hnone
    · split
      · simp [Core.Calls,Running.acts]
      · exact hnone
    · split <;> simp [Core.Calls,Running.acts]
    · simp [Core.Calls,Running.acts]

/-- Without an attempt to connect, all that the strand calls is called by the receive callback. -/
theorem Move.calls (hcfg : cfg.Calls P) (hm : Move cfg c ns e c' ns') (hun : Unconnected c.connects ns)
    (h : c.Calls P) : c'.Calls P := by
  have hdone := hm.completed
  cases hm with
  | stay | close | tick => exact h
  | wrote _ | release _ | finish _ => simp [Core.Calls,Running.acts]
  | connect hc =>
    obtain ⟨_,_,rfl⟩ := Core.connect_shape hc
    exact h
  | setup hc =>
    obtain ⟨_,rfl⟩ := Core.setup_shape hc
    exact h
  | start hc =>
    obtain ⟨_,_,_,_,_,_,rfl⟩ := Core.start_shape hc
    exact h
  | @handle n _ hrun =>
    refine handle_calls hrun ?_
    cases n with
    | connected a failed reopened => exact absurd List.mem_cons_self (hun.notices a failed reopened)
    | _ => rfl
  | fail _ => simp [Core.Calls,Running.acts]
  | perform hrun => exact h.perform hcfg hrun
  | read _ | readFail _ | expire _ | abort _ | connectDone _ =>
    obtain ⟨_,_,_,_,_,_,rfl⟩ := hdone rfl
    exact h

end calls

namespace Endpoint

variable [DecidableEq τ] {cfg : Config κ} {s t : Endpoint κ τ} {e : Event τ}

theorem Reached.calls {P : Call → Prop} (hk : cfg.kind ≠ .tcpClient) (hcfg : cfg.Calls P) (h : Reached cfg s) :
    s.toCore.Calls P := by
  induction h with
  | start hi =>
    obtain ⟨u,rfl⟩ := hi
    simp [Core.Calls,initial,Core.initial,Running.acts]
  | next hr _ hs ih => exact (step_move hs).calls hcfg (Reached.unconnected hk hr) ih

/-- A call of `send` that was accepted: it passed the test, its item is what it asked for, and a thread or
the running handler made it. -/
structure Accepted (cfg : Config κ) (s : Endpoint κ τ) (e : Event τ) (ticket : Ticket) : Prop where
  check : sendCheck cfg.kind s.socket ticket.request.target = .ok ()
  asked : ticket.asked = .ofRequest cfg.kind s.socket ticket.request
  source : (∃ u, e = .send u ticket.request) ∨ .call (.send ticket.request) ∈ s.running.acts

omit [DecidableEq τ] in
theorem source_of_asks {caller : Option τ} {request : Request} (hasks : s.asks e = some (caller,request)) :
    (∃ u, e = .send u request) ∨ .call (.send request) ∈ s.running.acts := by
  cases e with
  | send u request' =>
    obtain ⟨-,rfl⟩ := Prod.mk.inj (Option.some.inj hasks)
    exact .inl ⟨u,rfl⟩
  | act kept =>
    simp only [asks] at hasks
    split at hasks
    · rename_i request' rest hrun
      obtain ⟨-,rfl⟩ := Prod.mk.inj (Option.some.inj hasks)
      exact .inr (by simp [hrun,Running.acts])
    · simp at hasks
  | _ => simp [asks] at hasks

theorem step_accepts (hs : step cfg s e = some t) {caller : Option τ} {ticket : Ticket}
    (ht : ticket ∈ t.out.sent caller) : ticket ∈ s.out.sent caller ∨ Accepted cfg s e ticket := by
  cases step_sends hs caller with
  | nothing hsame _ => exact .inl (hsame ▸ ht)
  | accepted hasks hcheck hmore =>
    rw [hmore, List.mem_append, List.mem_singleton] at ht
    refine ht.imp_right (fun heq => ?_)
    subst heq
    exact ⟨hcheck, rfl, source_of_asks hasks⟩

end Endpoint

/-- No set-up call but `connect` sets `is_connected_`. -/
theorem setup_isConnected {call : UdpEndpoint.Setup} {os : Os} {s : Socket} (hcall : call ≠ .connect) :
    (UdpEndpoint.setup call os s).1.isConnected = s.isConnected := by
  have hopening : (UdpEndpoint.openSocket os s).1.isConnected = s.isConnected := by
    unfold UdpEndpoint.openSocket
    split
    · rfl
    · split <;> rfl
  have hensuring : (UdpEndpoint.ensureOpen os s).1.isConnected = s.isConnected := by
    unfold UdpEndpoint.ensureOpen
    split
    · rfl
    · exact hopening
  cases call with
  | connect => exact absurd rfl hcall
  | bind port =>
    simp only [UdpEndpoint.setup,UdpEndpoint.bind]
    split
    · rename_i hopened
      rw [hopened] at hopening
      exact hopening
    · rename_i hopened
      rw [hopened] at hopening
      split <;> exact hopening
  | joinMulticast port =>
    simp only [UdpEndpoint.setup,UdpEndpoint.joinMulticast]
    split
    · rfl
    · rfl
    · split
      · rename_i hopened
        rw [hopened] at hensuring
        exact hensuring
      · rename_i hopened
        rw [hopened] at hensuring
        split
        · exact hensuring
        · split
          · exact hensuring
          · split <;> exact hensuring

/-- No step connects but `connect`. -/
theorem Move.unconnected {cfg : Config κ} {c c' : Core κ} {ns ns' : List Notice} {e : Event τ}
    (hm : Move cfg c ns e c' ns') (hun : Unconnected c.connects ns) (hsetup : ∀ os, e ≠ .setup .connect os)
    (h : c.socket.isConnected = false) : c'.socket.isConnected = false := by
  have hdone := hm.completed
  cases hm with
  | stay | close | wrote _ | release _ | finish _ | tick => exact h
  | connect hc =>
    unfold Core.connect at hc
    split at hc <;> simp only [Option.some.injEq,reduceCtorEq] at hc
    · exact hc ▸ h
    · subst hc
      simp only [Core.reopen]
      split <;> exact h
  | @setup _ _ call os hc =>
    simp only [Core.setup,Option.ite_none_right_eq_some,Option.some.injEq] at hc
    rw [← hc.2]
    exact (setup_isConnected (fun hcall => hsetup os (hcall ▸ rfl))).trans h
  | start hc =>
    obtain ⟨_,_,_,_,_,_,rfl⟩ := Core.start_shape hc
    exact h
  | @handle n ns hrun =>
    cases n with
    | received r result => simpa [Core.handle] using h
    | expired w aborted =>
      simp only [Core.handle]
      split <;> exact h
    | connected a failed reopened => exact absurd List.mem_cons_self (hun.notices a failed reopened)
    | close => exact h
  | fail _ => exact closeBody_isConnected cfg _
  | @perform _ a rest _ _ =>
    cases a with
    | scan owner currentOffset =>
      simp only [Core.perform]
      split <;> simpa using h
    | datagram owner n | resetReadTimeout owner | startReceive owner => simpa [Core.perform] using h
    | close => exact closeBody_isConnected cfg _
    | call k =>
      cases k with
      | send request => exact h
      | close => exact closeBody_isConnected cfg _
  | read _ | readFail _ | expire _ | abort _ | connectDone _ =>
    obtain ⟨_,_,_,_,_,_,rfl⟩ := hdone rfl
    exact h

namespace RimApplication

variable {M ι : Type} [DecidableEq M]

/-- The handlers call `send` of the application, which names no target. -/
def Undirected (app : RimApplication M κ ι) : Prop :=
  ∀ r ∈ app.setupHandlers, ∀ u msg behind, ∀ request, .send request ∈ (r.handler.call u msg behind).calls →
    request.target = .implicit

theorem Undirected.calls {app : RimApplication M κ ι} (h : app.Undirected) :
    app.config.Calls (fun call => ∀ request, call = .send request → request.target = .implicit) := by
  intro callback hcb u m sender call hcall request hsend
  subst hsend
  obtain rfl : app.onReceive = callback := by simpa [config] using hcb
  simp only [onReceive,dispatcher,MessageDispatcher.dispatch_build] at hcall
  split at hcall
  · simp [Dispatched.skip,Reply.unchanged] at hcall
  · cases hlast : MessageDispatcher.lastRegistered app.setupHandlers
        (MessageDispatcher.typeOf app.getExtractor m) with
    | none => simp [hlast,Dispatched.skip,Reply.unchanged] at hcall
    | some handler =>
      obtain ⟨r,hr,rfl⟩ := MessageDispatcher.mem_of_lastRegistered hlast
      simp only [hlast,UserHandler.raw] at hcall
      split at hcall
      · simp [Dispatched.skip,Reply.unchanged] at hcall
      · exact h r hr _ _ _ request hcall

/-- The one set-up call that the factory makes for the application. -/
def SetsUp : AppRole → UdpEndpoint.Setup → Prop
  | .server, call => ∃ port, call = .bind port
  | .client, call => call = .connect

/-- The factory sets the endpoint up before the application can send, and `send` names no target. -/
def HostStep (app : RimApplication M κ ι) (s : Endpoint (AppState κ) τ) : Event τ → Prop
  | .setup call _ => SetsUp app.role call ∧ ∀ caller, s.out.sent caller = []
  | .send _ request => request.target = .implicit
  | _ => True

/-- All that was sent is for the peer of `connect`; a server has none. -/
structure Addressed (app : RimApplication M κ ι) (s : Endpoint (AppState κ) τ) : Prop where
  peer : ∀ caller, ∀ ticket ∈ s.out.sent caller, ticket.asked.target = some s.socket.remote
  server : app.role = .server → s.socket.isConnected = false ∧ ∀ caller, s.out.sent caller = []

variable [DecidableEq τ]

theorem accepted_implicit {app : RimApplication M κ ι} (hudp : app.protocol = .udp) (hsends : app.Undirected)
    {s : Endpoint (AppState κ) τ} (hr : Endpoint.Reached app.config s) {e : Event τ} (hok : app.HostStep s e)
    {ticket : Ticket} (h : Endpoint.Accepted app.config s e ticket) :
    s.socket.isConnected = true ∧ ticket.asked.target = some s.socket.remote := by
  have hk : app.config.kind = .udpEndpoint := by simp [config,kind,hudp]
  have htarget : ticket.request.target = .implicit := by
    rcases h.source with ⟨u,rfl⟩ | hstrand
    · exact hok
    · exact hr.calls (by simp [hk]) hsends.calls _ hstrand _ rfl
  have hcheck := h.check
  simp only [hk,htarget,sendCheck,true_and] at hcheck
  refine ⟨?_, by rw [h.asked, hk]; simp [Item.ofRequest,htarget]⟩
  by_contra hconn
  rw [Bool.not_eq_true] at hconn
  simp [hconn] at hcheck

theorem Addressed.step {app : RimApplication M κ ι} (hudp : app.protocol = .udp) (hsends : app.Undirected)
    {s t : Endpoint (AppState κ) τ} (hr : Endpoint.Reached app.config s) (h : app.Addressed s) {e : Event τ}
    (hok : app.HostStep s e) (hs : Endpoint.step app.config s e = some t) : app.Addressed t := by
  have hk : app.config.kind = .udpEndpoint := by simp [config,kind,hudp]
  have hun := Endpoint.Reached.unconnected (by simp [hk]) hr
  constructor
  · intro caller ticket ht
    have hremote : t.socket.remote = s.socket.remote := by
      refine (Endpoint.step_move hs).remote (fun call os he => ?_)
      subst he
      simp only [Endpoint.step,Option.map_eq_some_iff] at hs
      obtain ⟨c,-,rfl⟩ := hs
      have hnone : s.out.sent caller = [] := hok.2 caller
      simp [Endpoint.withCore,hnone] at ht
    rw [hremote]
    rcases Endpoint.step_accepts hs ht with hold | hnew
    · exact h.peer caller ticket hold
    · exact (accepted_implicit hudp hsends hr hok hnew).2
  · intro hserver
    obtain ⟨hconn,hnone⟩ := h.server hserver
    refine ⟨(Endpoint.step_move hs).unconnected hun (fun os he => ?_) hconn, fun caller => ?_⟩
    · subst he
      have hport := hok.1
      rw [hserver] at hport
      obtain ⟨port,hport⟩ := hport
      simp at hport
    · refine List.eq_nil_iff_forall_not_mem.mpr (fun ticket ht => ?_)
      rcases Endpoint.step_accepts hs ht with hold | hnew
      · simp [hnone] at hold
      · simp [(accepted_implicit hudp hsends hr hok hnew).1] at hconn

section network
variable {σ : Type} {κ : σ → Type} [DecidableEq σ]

/-- Hosts that run an application each. -/
def system (apps : ∀ i, RimApplication M (κ i) ι) (layout : Layout σ) :
    Medium.System (fun i => Endpoint (AppState (κ i)) τ) (Event τ) (Packet σ) :=
  { UdpNetwork.system (fun i => (apps i).config) (fun _ _ => True) layout with
    ok := fun i s e => Endpoint.HostStep s e ∧ (apps i).HostStep s e }

variable {apps : ∀ i, RimApplication M (κ i) ι} {layout : Layout σ}
  {n : Medium.State (fun i => Endpoint (AppState (κ i)) τ) (Packet σ)}

theorem reached_network (h : (system apps layout).Reached n) :
    (UdpNetwork.system (fun i => (apps i).config) (fun _ _ => True) layout).Reached n :=
  Transition.Reach.mono (fun _ _ hok => hok.1) h

omit [DecidableEq σ] in
theorem addressed_of_alone (hudp : ∀ i, (apps i).protocol = .udp) (hsends : ∀ i, (apps i).Undirected) {i : σ}
    {s : Endpoint (AppState (κ i)) τ} (h : (system apps layout).Alone i s) :
    Endpoint.Reached (apps i).config s ∧ (apps i).Addressed s := by
  induction h with
  | start hi =>
    obtain ⟨u,-,rfl⟩ := hi
    refine ⟨.start ⟨u,rfl⟩, fun caller ticket ht => ?_, fun _ => ⟨?_, fun _ => rfl⟩⟩
    · simp [Endpoint.initial,Pipeline.Store.fresh] at ht
    · simp [Endpoint.initial,Core.initial,config,kind,hudp i,Socket.closed]
  | next _ hok hs ih => exact ⟨.next ih.1 trivial hs, ih.2.step (hudp i) (hsends i) ih.1 hok.2 hs⟩

/-- Over UDP an application in the role of a server never sends anything: its calls of `send` are refused.
What an application receives comes from one in the role of a client, which has connected to it. -/
theorem servers_are_silent (apps : ∀ i, RimApplication M (κ i) ι) (layout : Layout σ)
    (hudp : ∀ i, (apps i).protocol = .udp) (hsends : ∀ i, (apps i).Undirected)
    (n : Medium.State (fun i => Endpoint (AppState (κ i)) τ) (Packet σ)) (h : (system apps layout).Reached n) :
    (∀ i, (apps i).role = .server → ∀ caller, (n.parts i).out.sent caller = []) ∧
    ∀ i, ∀ d ∈ datagrams (n.parts i).log, ∃ j, layout.address j = d.2 ∧ (apps j).role = .client ∧
      layout.reaches (n.parts j).socket.remote i = true ∧
      ∃ caller, ∃ ticket ∈ (n.parts j).out.sent caller, ticket.request.data = d.1 := by
  have haddressed : ∀ i, (apps i).Addressed (n.parts i) :=
    fun i => (addressed_of_alone hudp hsends (h.alone i)).2
  have hk : ∀ i, ((apps i).config).kind = .udpEndpoint := fun i => by simp [config,kind,hudp i]
  refine ⟨fun i hserver => ((haddressed i).server hserver).2, fun i d hd => ?_⟩
  obtain ⟨-,p,hp,hdata,hsender,target,htarget,hreach⟩ :=
    UdpNetwork.Reached.received hk (reached_network h) rfl hd
  obtain ⟨caller,ticket,ht,hasked,hbuf,-⟩ := UdpNetwork.Reached.packets hk (reached_network h) hp
  have hpeer := (haddressed p.origin).peer caller ticket ht
  rw [hasked, htarget, Option.some.injEq] at hpeer
  refine ⟨p.origin, hsender, ?_, hpeer ▸ hreach, caller, ticket, ht, hbuf.trans hdata⟩
  cases hrole : (apps p.origin).role with
  | client => rfl
  | server => simp [((haddressed p.origin).server hrole).2 caller] at ht

end network

/-- A server, and a client. -/
def clientAndServer (server : Bool) : RimApplication Nat Unit Unit :=
  demo (if server then .server else .client) .udp swapHeader

/-- A test for the steps of an application with one thread. -/
def hostCheck {κ : Type} (app : RimApplication M κ ι) (s : Endpoint (AppState κ) Unit) : Event Unit → Bool
  | .setup call _ => (s.out.sent none).isEmpty && (s.out.sent (some ())).isEmpty &&
    (match call with
    | .bind _ => app.role == .server
    | .connect => app.role == .client
    | .joinMulticast _ => false)
  | .send _ request => request.target == .implicit
  | _ => true

omit [DecidableEq M] in
theorem hostStep_of_check {κ : Type} {app : RimApplication M κ ι} {s : Endpoint (AppState κ) Unit} {e : Event Unit}
    (h : app.hostCheck s e = true) : app.HostStep s e := by
  cases e with
  | setup call os =>
    simp only [hostCheck,Bool.and_eq_true,List.isEmpty_iff] at h
    refine ⟨?_, fun caller => ?_⟩
    · cases call with
      | bind port =>
        rw [show app.role = .server by simpa using h.2]
        exact ⟨port,rfl⟩
      | connect =>
        rw [show app.role = .client by simpa using h.2]
        exact rfl
      | joinMulticast port => simp at h
    · cases caller with
      | none => exact h.1.1
      | some u => exact h.1.2
  | send u request =>
    have htarget : request.target = .implicit := by simpa [hostCheck] using h
    exact htarget
  | _ => trivial

/-- One datagram, and a call of `send` at the server, which is refused. -/
def refusedAnswer : List (Bool × Event Unit) := UdpNetwork.oneDatagram ++ [(true, .send () ⟨[8],.implicit⟩)]

def afterRefusedAnswer : Option (Medium.State (fun _ : Bool => Endpoint (AppState Unit) Unit) (Packet Bool)) :=
  Transition.run (Transition.guarded (system clientAndServer UdpNetwork.pairLayout).move
    (fun n e => UdpNetwork.hostCheck (n.parts e.1) e.2 && (clientAndServer e.1).hostCheck (n.parts e.1) e.2))
    ⟨fun _ => Endpoint.initial .udpEndpoint ⟨(),[]⟩, []⟩ refusedAnswer

theorem servers_are_silent_one :
    ∃ n : Medium.State (fun _ : Bool => Endpoint (AppState Unit) Unit) (Packet Bool), afterRefusedAnswer = some n ∧
      (system clientAndServer UdpNetwork.pairLayout).Reached n ∧ datagrams (n.parts true).log = [([7],⟨1,2⟩)] ∧
      (∀ caller, (n.parts true).out.sent caller = []) ∧
      ∃ j, UdpNetwork.pairLayout.address j = ⟨1,2⟩ ∧ (clientAndServer j).role = .client := by
  have hlog : afterRefusedAnswer.map (fun n => datagrams (n.parts true).log) = some [([7],⟨1,2⟩)] := by
    decide +kernel
  obtain ⟨n,hn,hlog⟩ := Option.map_eq_some_iff.mp hlog
  have hreach : (system clientAndServer UdpNetwork.pairLayout).Reached n := by
    refine Transition.Reach.run_guarded (fun s e hcheck => ?_) (.start ⟨fun i => ⟨⟨(),[]⟩,trivial,?_⟩, rfl⟩) hn
    · rw [Bool.and_eq_true] at hcheck
      exact ⟨UdpNetwork.hostStep_of_check hcheck.1, hostStep_of_check hcheck.2⟩
    · cases i <;> rfl
  obtain ⟨hsilent,hheard⟩ := servers_are_silent clientAndServer UdpNetwork.pairLayout
    (fun i => by cases i <;> rfl) (fun i => by cases i <;> simp [Undirected,clientAndServer,demo,swapHeader,
      Registration.handler]) n hreach
  obtain ⟨j,haddress,hrole,-,-⟩ := hheard true ([7],⟨1,2⟩) (by rw [hlog]; exact List.mem_singleton_self _)
  exact ⟨n, hn, hreach, hlog, hsilent true rfl, j, haddress, hrole⟩

end RimApplication

end Librim
