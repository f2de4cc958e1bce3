import Librim.Channel
import Librim.Backpressure

/-! A server whose receive callback answers every message, as the echo server of the README does. -/

set_option autoImplicit false

namespace Librim

open SelfDelimiting

variable {κ τ : Type}

/-- The callback sends the payloads `respond m` for a message `m`, and does nothing else with its
connection. -/
def Responds (cfg : Config κ) (respond : List Byte → List (List Byte)) : Prop :=
  ∃ callback, cfg.onRecv = some callback ∧
    ∀ u m sender, (callback u m sender).calls = (respond m).map (fun data => .send ⟨data,.implicit⟩)

/-- What the running handler has still to send. -/
def Act.payload : Act → Option (List Byte)
  | .call (.send request) => some request.data
  | _ => none

def Act.isCall : Act → Bool
  | .call _ => true
  | _ => false

/-- The calls of a callback come before all else that the handler does. -/
def CallsFirst (acts : List Act) : Prop :=
  ∃ (calls : List Call) (tail : List Act), acts = calls.map .call ++ tail ∧ ∀ a ∈ tail, a.isCall = false

theorem filterMap_payload_of_tail {tail : List Act} (h : ∀ a ∈ tail, a.isCall = false) :
    tail.filterMap Act.payload = [] := by
  refine List.filterMap_eq_nil_iff.mpr (fun a ha => ?_)
  have hno := h a ha
  cases a with
  | call c => simp [Act.isCall] at hno
  | _ => rfl

theorem CallsFirst.of_tail {tail : List Act} (h : ∀ a ∈ tail, a.isCall = false) : CallsFirst tail :=
  ⟨[], tail, rfl, h⟩

theorem CallsFirst.rest {a : Act} {rest : List Act} (h : CallsFirst (a :: rest)) : CallsFirst rest := by
  obtain ⟨calls,tail,heq,htail⟩ := h
  cases calls with
  | nil =>
    simp only [List.map_nil,List.nil_append] at heq
    exact .of_tail (fun x hx => htail x (heq ▸ List.mem_cons_of_mem _ hx))
  | cons c calls =>
    simp only [List.map_cons,List.cons_append,List.cons.injEq] at heq
    exact ⟨calls, tail, heq.2, htail⟩

/-- Behind a piece that is no call there is none. -/
theorem CallsFirst.behind {a : Act} {rest : List Act} (h : CallsFirst (a :: rest)) (ha : a.isCall = false) :
    ∀ x ∈ rest, x.isCall = false := by
  obtain ⟨calls,tail,heq,htail⟩ := h
  cases calls with
  | nil =>
    simp only [List.map_nil,List.nil_append] at heq
    exact fun x hx => htail x (heq ▸ List.mem_cons_of_mem _ hx)
  | cons c calls =>
    simp only [List.map_cons,List.cons_append,List.cons.injEq] at heq
    simp [heq.1,Act.isCall] at ha

/-- The running handler of a server that answers, seen from its core: what was answered is `sent`. -/
structure Answering (respond : List Byte → List (List Byte)) (c : Core κ) (sent : List (List Byte)) :
    Prop where
  first : CallsFirst c.running.acts
  begun : sent <+: (callbacks c.log).flatMap respond
  exact : c.socket.isOpen = true →
    (callbacks c.log).flatMap respond = sent ++ c.running.acts.filterMap Act.payload

section core
variable {cfg : Config κ} {respond : List Byte → List (List Byte)} {c : Core κ} {sent : List (List Byte)}

/-- Neither callbacks nor sends. -/
theorem Answering.congr (h : Answering respond c sent) {c' : Core κ} (hfirst : CallsFirst c'.running.acts)
    (hlog : callbacks c'.log = callbacks c.log)
    (hacts : c'.running.acts.filterMap Act.payload = c.running.acts.filterMap Act.payload)
    (hopen : c'.socket.isOpen = true → c.socket.isOpen = true) : Answering respond c' sent := by
  refine ⟨hfirst, by rw [hlog]; exact h.begun, fun ho => ?_⟩
  rw [hlog, hacts]
  exact h.exact (hopen ho)

theorem Answering.closed (h : Answering respond c sent) {c' : Core κ} (hfirst : CallsFirst c'.running.acts)
    (hlog : callbacks c'.log = callbacks c.log) (hclosed : c'.socket.isOpen = false) :
    Answering respond c' sent := by
  refine ⟨hfirst, by rw [hlog]; exact h.begun, fun ho => ?_⟩
  simp [hclosed] at ho

/-- The callback is called, and what it sends comes next. -/
theorem Answering.deliver (hresponds : Responds cfg respond) {a : Act} {rest : List Act}
    (h : Answering respond c sent) (hrun : c.running = .program (a :: rest)) (ha : a.isCall = false)
    (owner offset n : Nat) (sender : Option Address) {next : List Act} (hnext : ∀ x ∈ next, x.isCall = false) :
    Answering respond (c.deliver cfg owner offset n sender next) sent := by
  obtain ⟨callback,hcb,hcalls⟩ := hresponds
  have hfirst : CallsFirst (a :: rest) := by simpa only [hrun,Running.acts] using h.first
  have hrest : rest.filterMap Act.payload = [] := filterMap_payload_of_tail (hfirst.behind ha)
  have hpa : a.payload = none := by
    cases a with
    | call k => simp [Act.isCall] at ha
    | _ => rfl
  have hexact : c.socket.isOpen = true → (callbacks c.log).flatMap respond = sent := by
    intro ho
    have he := h.exact ho
    simpa [hrun,Running.acts,hpa,hrest] using he
  have hpayload : ∀ m : List Byte, (((respond m).map (fun data => Call.send ⟨data,.implicit⟩)).map
      Act.call).filterMap Act.payload = respond m := by
    intro m
    rw [List.map_map, List.filterMap_map]
    exact List.filterMap_some ..
  simp only [Core.deliver,hcb]
  refine ⟨⟨_, next, rfl, hnext⟩, ?_, fun ho => ?_⟩
  · simp only [Core.emit,callbacks_append,Obs.message,Option.toList_some,List.flatMap_append]
    exact h.begun.trans (List.prefix_append _ _)
  · simp only [Core.emit,callbacks_append,Obs.message,Option.toList_some,List.flatMap_append,
      List.flatMap_singleton,Running.acts,List.filterMap_append,hcalls,hpayload,
      filterMap_payload_of_tail hnext,List.append_nil]
    rw [hexact ho]

/-- A piece that is not a `send` of the callback. -/
theorem Answering.perform (hresponds : Responds cfg respond) {a : Act} {rest : List Act}
    (h : Answering respond c sent) (hrun : c.running = .program (a :: rest)) (ha : a.payload = none) :
    Answering respond (c.perform cfg rest a) sent := by
  have hfirst : CallsFirst (a :: rest) := by simpa only [hrun,Running.acts] using h.first
  have hskip : ∀ c' : Core κ, c'.running = .program rest → callbacks c'.log = callbacks c.log →
      (c'.socket.isOpen = true → c.socket.isOpen = true) → Answering respond c' sent := by
    intro c' hrun' hlog hopen
    refine h.congr (by simpa only [hrun',Running.acts] using hfirst.rest) hlog ?_ hopen
    simp only [hrun,hrun',Running.acts,List.filterMap_cons,ha]
  have hclose : Answering respond (Core.closeBody cfg { c with running := .program rest }) sent := by
    refine h.closed ?_ (closeBody_callbacks cfg _) (Core.closeBody_isOpen ..)
    simpa only [Core.closeBody_running,Running.acts] using hfirst.rest
  cases a with
  | scan owner currentOffset =>
    have hbehind := hfirst.behind rfl
    simp only [Core.perform]
    split
    · refine h.congr (.of_tail ?_) rfl ?_ id
      · simpa [Running.acts,Act.isCall] using hbehind
      · simp [hrun,Running.acts,Act.payload,List.filterMap_cons]
    · exact h.deliver hresponds hrun rfl _ _ _ _ (by simpa [Act.isCall] using hbehind)
    · refine h.congr (.of_tail ?_) rfl ?_ id
      · simpa [Running.acts,Act.isCall] using hbehind
      · simp [hrun,Running.acts,Act.payload,List.filterMap_cons]
  | datagram owner n => exact h.deliver hresponds hrun rfl _ _ _ _ (hfirst.behind rfl)
  | call k =>
    cases k with
    | send request => simp [Act.payload] at ha
    | close => exact hclose
  | resetReadTimeout owner =>
    have hlog := (resetReadTimeout_silent cfg { c with running := .program rest } owner).callbacks
    obtain ⟨_,_,_,hshape⟩ := Core.resetReadTimeout_shape cfg { c with running := .program rest } owner
    simp only [Core.perform,hshape] at hlog ⊢
    exact hskip _ rfl hlog id
  | startReceive owner =>
    have hlog := (startReceive_silent cfg { c with running := .program rest } owner).callbacks
    obtain ⟨_,_,_,hshape⟩ := Core.startReceive_shape cfg { c with running := .program rest } owner
    simp only [Core.perform,hshape] at hlog ⊢
    exact hskip _ rfl hlog id
  | close => exact hclose

/-- The strand takes up a handler. -/
theorem Answering.handle (h : Answering respond c sent) (hrun : c.running = .program []) {n : Notice}
    (hn : ∀ a failed reopened, n ≠ .connected a failed reopened) :
    Answering respond (c.handle cfg n) sent := by
  have hacts : ∀ c' : Core κ, (∀ a ∈ c'.running.acts, a.isCall = false) → c'.log = c.log →
      c'.socket = c.socket → Answering respond c' sent := by
    intro c' hno hlog hsocket
    refine h.congr (.of_tail hno) (by rw [hlog]) ?_ (by rw [hsocket]; exact id)
    rw [filterMap_payload_of_tail hno, hrun]
    rfl
  cases n with
  | received r result =>
    obtain ⟨_,_,hshape⟩ := Core.onReceived_shape cfg c r result hrun
    refine hacts _ ?_ (by simp [Core.handle,hshape]) (by simp [Core.handle])
    simp only [Core.handle,Core.onReceived]
    split
    · split <;> simp [Running.acts,Act.isCall,hrun]
    · split <;> simp [Running.acts,Act.isCall,hrun]
    · split <;> simp [Running.acts,Act.isCall]
    · simp [Running.acts,Act.isCall]
  | expired w aborted =>
    simp only [Core.handle]
    split
    · exact h
    · exact hacts _ (by simp [Running.acts,Act.isCall]) rfl rfl
  | connected a failed reopened => exact absurd rfl (hn a failed reopened)
  | close => exact hacts _ (by simp [Core.handle,Running.acts,Act.isCall]) rfl rfl

/-- The strand is not about to call `send` for a callback. -/
def NoSend (c : Core κ) (e : Event τ) : Prop :=
  ∀ request rest, c.running = .program (.call (.send request) :: rest) → ∀ kept, e ≠ .act kept

theorem Answering.move (hk : cfg.kind = .tcpConnection) (hresponds : Responds cfg respond)
    (h : Answering respond c sent) {c' : Core κ} {ns ns' : List Notice} {e : Event τ}
    (hun : Unconnected c.connects ns) (hm : Move cfg c ns e c' ns')
    (hsend : NoSend c e) : Answering respond c' sent := by
  have hdone := hm.completed
  have hnil : ∀ a ∈ ([] : List Act), a.isCall = false := by simp
  cases hm with
  | stay | close | tick => exact h.congr h.first rfl rfl id
  | connect hc => simp [Core.connect,hk] at hc
  | setup hc => simp [Core.setup,hk] at hc
  | start hc =>
    have hlog : callbacks c'.log = callbacks c.log := by
      unfold Core.start at hc
      split at hc <;> simp only [Option.some.injEq,reduceCtorEq] at hc
      · exact hc ▸ (resetReadTimeout_silent cfg { c with boot := .startReceive } _).callbacks
      · exact hc ▸ (startReceive_silent cfg { c with boot := .done } _).callbacks
      · exact hc ▸ (startReceive_silent cfg { c with boot := .done } _).callbacks
    obtain ⟨_,_,_,_,_,_,hshape⟩ := Core.start_shape hc
    subst hshape
    exact h.congr h.first hlog rfl id
  | handle hrun =>
    exact h.handle hrun (fun a failed reopened hn => hun.notices a failed reopened (hn ▸ List.mem_cons_self))
  | wrote hrun => exact h.congr (.of_tail hnil) rfl (by simp [hrun,Running.acts]) id
  | release hrun | finish hrun => exact h.congr (.of_tail hnil) rfl (by simp [hrun,Running.acts]) id
  | fail hrun =>
    refine h.closed ?_ (closeBody_callbacks cfg _) (Core.closeBody_isOpen ..)
    simpa only [Core.closeBody_running,Running.acts] using CallsFirst.of_tail hnil
  | @perform _ a rest kept hrun =>
    refine h.perform hresponds hrun ?_
    cases a with
    | call k =>
      cases k with
      | send request => exact absurd rfl (hsend request rest hrun kept)
      | close => rfl
    | _ => rfl
  | read _ | readFail _ | expire _ | abort _ | connectDone _ =>
    obtain ⟨_,_,_,_,_,_,rfl⟩ := hdone rfl
    exact h.congr h.first rfl rfl id

end core

namespace Endpoint

variable [DecidableEq τ]

omit [DecidableEq τ] in
theorem asks_of_noSend {s : Endpoint κ τ} {e : Event τ} (hsend : NoSend s.toCore e) (request : Request) :
    s.asks e ≠ some (none,request) := by
  cases e with
  | act kept =>
    simp only [asks]
    split
    · rename_i request rest hrun
      exact absurd rfl (hsend request rest hrun kept)
    · simp
  | _ => simp [asks]

/-- A callback calls `send`: the handler is one piece further. -/
theorem act_send {cfg : Config κ} {s t : Endpoint κ τ} {kept : Bool} {request : Request} {rest : List Act}
    (hrun : s.running = .program (.call (.send request) :: rest)) (hs : step cfg s (.act kept) = some t) :
    t.toCore = { s.toCore with running := .program rest } := by
  simp only [step,act,hrun,Option.ite_none_right_eq_some,Option.some.injEq] at hs
  obtain ⟨-,rfl⟩ := hs
  simp only [perform,call,withCore,Core.perform]
  split <;> rfl

/-- What callbacks have asked to send. -/
def answered (s : Endpoint κ τ) : List (List Byte) := (s.out.sent none).map (·.request.data)

theorem Reached.answering {cfg : Config κ} {respond : List Byte → List (List Byte)}
    (hk : cfg.kind = .tcpConnection) (hresponds : Responds cfg respond) {s : Endpoint κ τ} (h : Reached cfg s) :
    Answering respond s.toCore s.answered := by
  induction h with
  | start hi =>
    obtain ⟨u,rfl⟩ := hi
    exact ⟨.of_tail (by simp [initial,Core.initial,Running.acts]), List.nil_prefix, fun _ => rfl⟩
  | @next s t e hr _ hs ih =>
    by_cases hsend : NoSend s.toCore e
    · rw [answered, sent_of_silent hs (asks_of_noSend hsend)]
      exact ih.move hk hresponds (Reached.unconnected (by simp [hk]) hr) (step_move hs) hsend
    · simp only [NoSend,not_forall,not_not] at hsend
      obtain ⟨request,rest,hrun,kept,rfl⟩ := hsend
      have hfirst : CallsFirst (.call (.send request) :: rest) := by
        simpa only [hrun,Running.acts] using ih.first
      have hexact := ih.exact
      simp only [hrun,Running.acts,List.filterMap_cons,Act.payload] at hexact
      have hasks : s.asks (.act kept : Event τ) = some (none,request) := by simp [asks,hrun]
      have hsent : t.answered = s.answered ++ if s.socket.isOpen = true then [request.data] else [] := by
        have hrequests := congrArg (List.map Request.data) (requests_of_asks hk hs hasks)
        rw [List.map_append, List.map_map, List.map_map] at hrequests
        rw [answered, answered,
          show (fun ticket : Ticket => ticket.request.data) = Request.data ∘ Ticket.request from rfl, hrequests]
        split <;> rfl
      rw [act_send hrun hs, hsent]
      by_cases hopen : s.socket.isOpen = true
      · have heq := hexact hopen
        rw [if_pos hopen]
        refine ⟨hfirst.rest, ?_, fun _ => ?_⟩
        · rw [show callbacks ({ s.toCore with running := .program rest } : Core κ).log = callbacks s.log from rfl, heq]
          exact ⟨_, List.append_assoc ..⟩
        · refine heq.trans ?_
          simp only [Running.acts,List.append_assoc,List.singleton_append]
      · -- a connection refuses to send only when its socket is closed
        rw [if_neg hopen, List.append_nil]
        exact ih.closed hfirst.rest rfl (Bool.eq_false_iff.mpr hopen)

/-- As long as the socket is open, and no handler is running, all was answered. -/
theorem Reached.answered_eq {cfg : Config κ} {respond : List Byte → List (List Byte)}
    (hk : cfg.kind = .tcpConnection) (hresponds : Responds cfg respond) {s : Endpoint κ τ} (h : Reached cfg s)
    (hopen : s.socket.isOpen = true) (hacts : s.running.acts = []) :
    s.answered = (callbacks s.log).flatMap respond := by
  have hexact := (h.answering hk hresponds).exact hopen
  rw [hexact, hacts, List.filterMap_nil, List.append_nil]

/-- When only callbacks send, the queue was given what they have sent, up to what is still under way. -/
theorem Reached.payloads_of_quiet {cfg : Config κ} (hk : cfg.kind ≠ .udpEndpoint) {s : Endpoint κ τ}
    (h : Reached cfg s) (hquiet : ∀ t, s.out.sent (some t) = []) :
    s.answered = s.payloads ++ (s.pipeline.posted.filter (·.1 = none)).map (fun x => (s.out.mem x.2).buf) ++
      (s.out.pc none).pending.map (·.request.data) := by
  have hnone : ∀ x ∈ s.out.entered, x.1 = none := by
    rintro ⟨caller,item⟩ hx
    cases caller with
    | none => rfl
    | some t =>
      have heq := h.sent_eq hk (some t)
      rw [hquiet t, List.map_nil] at heq
      have hnil := (List.append_eq_nil_iff.mp (List.append_eq_nil_iff.mp heq.symm).1).1
      have hmem : (some t, item) ∈ s.out.entered.filter (·.1 = some t) :=
        List.mem_filter.mpr ⟨hx, by simp⟩
      simp [List.map_eq_nil_iff.mp hnil] at hmem
  have hall : s.out.entered.filter (·.1 = none) = s.out.entered :=
    List.filter_eq_self.mpr (fun x hx => by simpa using hnone x hx)
  have heq := h.sent_eq hk none
  rwa [hall] at heq

end Endpoint

open Endpoint

namespace Net

variable {κ₁ τ₁ κ₂ τ₂ : Type} [DecidableEq τ₁] [DecidableEq τ₂]

/-- Everything was written, read and processed, on the way to the server and back. -/
structure Complete (n : Net κ₁ τ₁ κ₂ τ₂) : Prop where
  isOpen : n.server.socket.isOpen = true
  requested : n.client.out.wire = n.client.payloads.flatten
  arrived : n.server.stream = n.client.out.wire
  settled : n.server.Settled
  idle : n.server.idle = true
  posted : n.server.pipeline.posted = []
  responded : n.server.out.wire = n.server.payloads.flatten
  returned : n.client.stream = n.server.out.wire
  received : n.client.Settled

/-- The client gets the answers to its requests in the order of the requests: at any moment the
first of them, and in the end all. -/
theorem request_response (client : Config κ₁) (server : Config κ₂) (respond : List Byte → List (List Byte))
    (hclient : client.kind = .tcpClient) (hserver : server.kind = .tcpConnection)
    (hframing : server.framing = client.framing) (hf : 1 ≤ client.framing.headerSize)
    (hcb : client.onRecv.isSome = true) (hresponds : Responds server respond)
    (hresponses : ∀ m, client.framing.WellFramed m → ∀ d ∈ respond m, client.framing.WellFramed d)
    (n : Net κ₁ τ₁ κ₂ τ₂) (h : Reached client server n) (honce : n.client.ConnectedOnce)
    (hrequests : ∀ caller, ∀ ticket ∈ n.client.out.sent caller, client.framing.WellFramed ticket.request.data)
    (hquiet : ∀ t, n.server.out.sent (some t) = []) :
    callbacks n.client.log <+: n.client.payloads.flatMap respond ∧
    (n.Complete → callbacks n.client.log = n.client.payloads.flatMap respond) := by
  have hcb' : server.onRecv.isSome = true := by
    obtain ⟨callback,hcb',-⟩ := hresponds
    rw [hcb', Option.isSome_some]
  have hs := h.linked.server
  have hanswering := hs.answering hserver hresponds
  have htcp : server.kind ≠ .udpEndpoint := by simp [hserver]
  have hthere := h.linked.there hclient hserver hframing hf hcb' honce hrequests
  have hsends : ∀ caller, ∀ ticket ∈ n.server.out.sent caller, client.framing.WellFramed ticket.request.data := by
    intro caller ticket ht
    cases caller with
    | some t => simp [hquiet t] at ht
    | none =>
      have hmem : ticket.request.data ∈ n.server.answered := List.mem_map_of_mem ht
      obtain ⟨m,hm,hd⟩ := List.mem_flatMap.mp (hanswering.begun.subset hmem)
      have hchain := hs.chain htcp (hframing ▸ hf) hcb' (by simp [hserver])
      have hframed := Framing.wellFramed_of_mem (hchain.followed.parse_extends.subset hm)
      exact hresponses m (hframing ▸ hframed) _ hd
  have hback := h.linked.back hclient hserver hf hcb honce hsends
  have hqueue := hs.payloads_of_quiet htcp hquiet
  have hasked : (callbacks n.server.log).flatMap respond <+: n.client.payloads.flatMap respond := by
    obtain ⟨later,hlater⟩ := hthere.ordered
    rw [← hlater, List.flatMap_append]
    exact List.prefix_append _ _
  constructor
  · have hpayloads : n.server.payloads <+: n.server.answered := by
      rw [hqueue, List.append_assoc]
      exact List.prefix_append _ _
    exact hback.ordered.trans (hpayloads.trans (hanswering.begun.trans hasked))
  · intro hall
    have hidle := hall.idle
    simp only [idle,Bool.and_eq_true,beq_iff_eq] at hidle
    have hpayloads : n.server.answered = n.server.payloads := by
      simpa [hall.posted,hidle.2,Pipeline.Pc.pending] using hqueue
    have hanswered := hs.answered_eq hserver hresponds hall.isOpen (by rw [hidle.1, Running.acts])
    rw [hback.whole hall.responded hall.returned hall.received, ← hpayloads, hanswered,
      hthere.whole hall.requested hall.arrived hall.settled]

theorem responds_echo : Responds echo (fun m => [m]) := ⟨_, rfl, fun _ _ _ => rfl⟩

theorem reached_echo : Reached (listening .tcpClient) echo established := by
  have hrun : Transition.run (step (listening .tcpClient) echo) ⟨initial .tcpClient (), initial .tcpConnection ()⟩
      [.client (.connect (.ok 0) true), .client (.connectDone 0 false false), .client .run,
        .client (.act true), .client (.act true), .server .start, .server .start] = some established := by
    simp [step,Endpoint.step,Core.connect,listening,echo,Config.bare,initial,Core.initial,Core.reopen,withCore,
      Socket.close,Socket.reopen,Socket.closed,Socket.accepted,Core.connectDone,Core.live,notify,idle,
      runHandler,Core.handle,Core.onConnected,Core.emit,act,Endpoint.perform,Core.perform,
      Core.resetReadTimeout,Core.startReceive,Core.start,Core.descriptor,Core.stream,
      Window.startReceive_initial,Window.offered_initial,show Window.initial.activeBytes = 0 from rfl,
      established,joinedClient,startedConnection,Pipeline.Store.fresh]
  exact Transition.reachable_run (.start ⟨(),(),rfl⟩) hrun

/-- Two requests come in together. The echo server sends both back, and the client reads them together. -/
def askTwice : List (Event Unit Unit) :=
  ([.send () ⟨[0,0,0,5,9],.implicit⟩, .pop (some ()), .fill (some ()), .post (some ()), .run,
    .send () ⟨[0,0,0,4],.implicit⟩, .pop (some ()), .fill (some ()), .post (some ()), .run,
    .write 0 5, .writeDone 0 false, .run, .act true, .act true, .write 0 4].map .client) ++
  ([.read 0 [0,0,0,5,9,0,0,0,4] ⟨0,0⟩, .run, .act true, .act true, .pop none, .fill none, .post none,
    .act true, .act true, .pop none, .fill none, .post none, .act true, .act true, .act true, .run, .run,
    .write 0 5, .writeDone 0 false, .run, .act true, .act true, .write 0 4].map .server) ++
  ([.read 0 [0,0,0,5,9,0,0,0,4] ⟨0,0⟩, .run, .act true, .act true, .act true].map .client)

def afterAskTwice : Option (Net Unit Unit Unit Unit) :=
  Transition.run (step (listening .tcpClient) echo) established askTwice

theorem request_response_echo : ∃ n : Net Unit Unit Unit Unit, afterAskTwice = some n ∧
    Reached (listening .tcpClient) echo n ∧ n.Complete ∧ n.client.payloads = [[0,0,0,5,9],[0,0,0,4]] ∧
    callbacks n.client.log = [[0,0,0,5,9],[0,0,0,4]] := by
  have hclient : afterAskTwice.map (fun n => (connections n.client.log, n.client.socket.conn,
      (n.client.out.sent none).map (·.request.data), (n.client.out.sent (some ())).map (·.request.data))) =
      some ([1], 1, [], [[0,0,0,5,9],[0,0,0,4]]) := by decide +kernel
  have hthere : afterAskTwice.map (fun n => (n.client.payloads, n.client.out.wire, n.server.stream)) =
      some ([[0,0,0,5,9],[0,0,0,4]], [0,0,0,5,9,0,0,0,4], [0,0,0,5,9,0,0,0,4]) := by decide +kernel
  have hserver : afterAskTwice.map (fun n => (n.server.socket.isOpen, n.server.idle, n.server.running,
      n.server.ready.length)) = some (true, true, .program [], 0) := by decide +kernel
  have hback : afterAskTwice.map (fun n => ((n.server.out.sent (some ())).map (·.request.data), n.server.payloads,
      n.server.out.wire, n.client.stream)) =
      some ([], [[0,0,0,5,9],[0,0,0,4]], [0,0,0,5,9,0,0,0,4], [0,0,0,5,9,0,0,0,4]) := by decide +kernel
  have hend : afterAskTwice.map (fun n => (n.client.running, n.client.ready.length)) =
      some (.program [.resetReadTimeout 1, .startReceive 1], 0) := by decide +kernel
  obtain ⟨n,hn,hclient⟩ := Option.map_eq_some_iff.mp hclient
  rw [hn, Option.map_some, Option.some.injEq] at hthere hserver hback hend
  simp only [Prod.mk.injEq] at hclient hthere hserver hback hend
  obtain ⟨hconn,hsocket,hnone,hsome⟩ := hclient
  obtain ⟨hpay,hwire,hstream⟩ := hthere
  obtain ⟨hopen,hidle,hrunning,hready⟩ := hserver
  obtain ⟨hquiet,hpay',hwire',hstream'⟩ := hback
  have hready' := List.length_eq_zero_iff.mp hready
  have hreach : Reached (listening .tcpClient) echo n := Transition.reachable_run reached_echo hn
  have hcomplete : n.Complete :=
    { isOpen := hopen
      requested := by rw [hwire, hpay]; rfl
      arrived := hstream.trans hwire.symm
      settled := ⟨by simp [notices,hready'], by simp [hrunning,Running.acts]⟩
      idle := hidle
      posted := by simp [Endpoint.pipeline,Pipeline.State.posted,hready']
      responded := by rw [hwire', hpay']; rfl
      returned := hstream'.trans hwire'.symm
      received := ⟨by simp [notices,List.length_eq_zero_iff.mp hend.2], by simp [hend.1,Running.acts]⟩ }
  have hresponses : ∀ m, readmeFraming.WellFramed m → ∀ d ∈ [m], readmeFraming.WellFramed d := by
    intro m hm d hd
    rwa [List.mem_singleton.mp hd]
  obtain ⟨-,hall⟩ := request_response (listening .tcpClient) echo (fun m => [m]) rfl rfl rfl (by decide) rfl
    responds_echo hresponses n hreach (.inr (by rw [hconn, hsocket]))
    (forall_sent (P := readmeFraming.WellFramed) hnone hsome (by decide)) (fun _ => List.map_eq_nil_iff.mp hquiet)
  refine ⟨n, hn, hreach, hcomplete, hpay, ?_⟩
  rw [hall hcomplete, hpay]
  rfl

end Net

end Librim
