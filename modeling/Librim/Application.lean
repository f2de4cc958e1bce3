import Librim.Attempts
import Librim.MessageDispatcher
import Librim.TcpReceive
import Librim.UdpReceive

/-! `RimApplication`: an endpoint whose receive callback is the dispatcher. -/

set_option autoImplicit false

namespace Librim

open SelfDelimiting

variable {M κ ι τ : Type}

/-- `P` relates the state of the callbacks to the messages that they were given. -/
structure Records (cfg : Config κ) (P : κ → List (List Byte) → Prop) : Prop where
  received : ∀ {callback}, cfg.onRecv = some callback → ∀ {u ms} m sender, P u ms →
    P (callback u m sender).user (ms ++ [m])
  connected : ∀ {u ms} b, P u ms → P (cfg.onConnect u b).1 ms
  disconnected : ∀ {u ms}, P u ms → P (cfg.onDisc u) ms

section records
variable {cfg : Config κ} {P : κ → List (List Byte) → Prop} {c : Core κ}

theorem Records.closeBody (h : Records cfg P) (hp : P c.user (callbacks c.log)) :
    P (c.closeBody cfg).user (callbacks (c.closeBody cfg).log) := by
  rw [closeBody_callbacks]
  unfold Core.closeBody
  split
  · dsimp only
    split
    · exact h.disconnected hp
    · exact hp
  · exact hp

theorem Records.deliver (h : Records cfg P) (hp : P c.user (callbacks c.log)) (owner offset n : Nat)
    (sender : Option Address) (next : List Act) :
    P (c.deliver cfg owner offset n sender next).user
      (callbacks (c.deliver cfg owner offset n sender next).log) := by
  unfold Core.deliver
  split
  · exact hp
  · rename_i callback hcb
    simp only [Core.emit,callbacks_append,Obs.message,Option.toList_some]
    exact h.received hcb _ _ hp

theorem Records.perform (h : Records cfg P) (hp : P c.user (callbacks c.log)) (rest : List Act) (a : Act) :
    P (c.perform cfg rest a).user (callbacks (c.perform cfg rest a).log) := by
  cases a with
  | scan owner currentOffset =>
    simp only [Core.perform]
    split
    · exact hp
    · exact h.deliver hp ..
    · exact hp
  | datagram owner n => exact h.deliver hp ..
  | call k =>
    cases k with
    | send request => exact hp
    | close => exact h.closeBody (c := { c with running := .program rest }) hp
  | resetReadTimeout owner =>
    have hlog := (resetReadTimeout_silent cfg { c with running := .program rest } owner).callbacks
    obtain ⟨_,_,_,hshape⟩ := Core.resetReadTimeout_shape cfg { c with running := .program rest } owner
    simp only [Core.perform]
    rw [hlog, hshape]
    exact hp
  | startReceive owner =>
    have hlog := (startReceive_silent cfg { c with running := .program rest } owner).callbacks
    obtain ⟨_,_,_,hshape⟩ := Core.startReceive_shape cfg { c with running := .program rest } owner
    simp only [Core.perform]
    rw [hlog, hshape]
    exact hp
  | close => exact h.closeBody (c := { c with running := .program rest }) hp

theorem Records.start (hp : P c.user (callbacks c.log)) {c' : Core κ} (hc : c.start cfg = some c') :
    P c'.user (callbacks c'.log) := by
  have hlog : callbacks c'.log = callbacks c.log := by
    unfold Core.start at hc
    split at hc <;> simp only [Option.some.injEq,reduceCtorEq] at hc
    · exact hc ▸ (resetReadTimeout_silent cfg { c with boot := .startReceive } _).callbacks
    · exact hc ▸ (startReceive_silent cfg { c with boot := .done } _).callbacks
    · exact hc ▸ (startReceive_silent cfg { c with boot := .done } _).callbacks
  obtain ⟨_,_,_,_,_,_,hshape⟩ := Core.start_shape hc
  rw [hlog, hshape]
  exact hp

theorem Records.move (h : Records cfg P) {c' : Core κ} {ns ns' : List Notice} {e : Event τ}
    (hp : P c.user (callbacks c.log)) (hm : Move cfg c ns e c' ns') : P c'.user (callbacks c'.log) := by
  have hdone := hm.completed
  cases hm with
  | stay | close | wrote _ | release _ | finish _ | tick => exact hp
  | connect hc =>
    obtain ⟨_,_,rfl⟩ := Core.connect_shape hc
    exact hp
  | setup hc =>
    obtain ⟨_,rfl⟩ := Core.setup_shape hc
    exact hp
  | start hc => exact Records.start hp hc
  | @handle n ns hrun =>
    cases n with
    | received r result =>
      obtain ⟨_,_,hshape⟩ := Core.onReceived_shape cfg c r result hrun
      simp only [Core.handle,hshape]
      exact hp
    | expired w aborted =>
      simp only [Core.handle]
      split <;> exact hp
    | connected a failed reopened =>
      simp only [Core.handle,Core.onConnected]
      split
      · simp only [Core.emit,callbacks_append,Obs.message,Option.toList_none,List.append_nil]
        exact h.connected true hp
      · split
        · exact hp
        · exact h.connected false hp
    | close => exact hp
  | fail _ => exact h.closeBody (c := { c with running := .program [] }) hp
  | perform _ => exact h.perform hp ..
  | read _ | readFail _ | expire _ | abort _ | connectDone _ =>
    obtain ⟨_,_,_,_,_,_,rfl⟩ := hdone rfl
    exact hp

end records

/-- What the application calls on its endpoint itself: it starts to receive once, and it
connects once. -/
def AppStep (c : Core κ) (ns : List Notice) : Event τ → Prop
  | .start => c.boot ≠ .done
  | .connect _ _ => c.attempts ns = 0 ∧ connections c.log = []
  | _ => True

/-- One attempt is under way, or one has succeeded. -/
def Core.AtMostOnce (c : Core κ) (ns : List Notice) : Prop :=
  c.attempts ns + (connections c.log).length ≤ 1

section attempts
variable {cfg : Config κ} {c c' : Core κ} {ns ns' : List Notice}

theorem Core.AtMostOnce.move (hk : cfg.kind = .tcpClient) {e : Event τ} (h : c.AtMostOnce ns)
    (hok : AppStep c ns e) (hm : Move cfg c ns e c' ns') : c'.AtMostOnce ns' := by
  cases hm.attempt hk with
  | calm hcalm =>
    rw [Core.AtMostOnce, hcalm.attempts, hcalm.made]
    exact h
  | begun he hc hn =>
    subst he hc hn
    obtain ⟨hnone,hlog⟩ := hok
    simp only [Core.attempts] at hnone
    simp only [Core.AtMostOnce,Core.attempts,Core.reopen,hlog,List.length_append,List.length_singleton,
      List.length_nil]
    omega
  | done ha _ hc hn =>
    subst hc hn
    have hlt := (List.getElem?_eq_some_iff.mp ha).1
    simp only [Core.AtMostOnce,Core.attempts] at h ⊢
    simp only [List.length_eraseIdx_of_lt hlt,List.countP_append,List.countP_singleton,
      Notice.isConnected,↓reduceIte]
    omega
  | connected _ _ hn _ hc =>
    subst hn hc
    simp only [Core.AtMostOnce,Core.attempts,List.countP_cons,Notice.isConnected,↓reduceIte] at h
    simp only [Core.AtMostOnce,Core.attempts,Core.emit,connections_append,Obs.connection,
      Option.toList_some,List.length_append,List.length_singleton]
    omega
  | again _ _ hn _ _ hc =>
    subst hn hc
    simp only [Core.AtMostOnce,Core.attempts,List.countP_cons,Notice.isConnected,↓reduceIte] at h
    simp only [Core.AtMostOnce,Core.attempts,Core.reopen,List.length_append,List.length_singleton]
    omega
  | failed _ _ hn hc =>
    subst hn hc
    simp only [Core.AtMostOnce,Core.attempts,List.countP_cons,Notice.isConnected,↓reduceIte] at h ⊢
    omega

end attempts

inductive AppRole where
  | server
  | client
  deriving DecidableEq, Repr

inductive Protocol where
  | tcp
  | udp
  deriving DecidableEq, Repr

/-- A subclass of `RimApplication`: its configuration, what `get_extractor` returns, the calls
that `setup_handlers` makes, and `on_client_connected`. -/
structure RimApplication (M κ ι : Type) where
  role : AppRole
  protocol : Protocol
  getExtractor : HeaderExtractor M
  setupHandlers : List (Registration M κ ι)
  onClientConnected : κ → κ × List Call

/-- The state of the handlers; `ran` is history. -/
structure AppState (κ : Type) where
  user : κ
  ran : List HandlerCall

namespace RimApplication

/-- `ServerConfig` and `ClientConfig` with their default for `max_message_size`. -/
def framing (app : RimApplication M κ ι) : Framing where
  headerSize := app.getExtractor.sizeofHeader
  maxMessageSize := 10*1024*1024
  getTotalSize := MessageDispatcher.getSizeLambda app.getExtractor

def kind (app : RimApplication M κ ι) : Kind :=
  match app.protocol, app.role with
  | .tcp, .server => .tcpConnection
  | .tcp, .client => .tcpClient
  | .udp, _ => .udpEndpoint

section
variable [DecidableEq M]

def dispatcher (app : RimApplication M κ ι) : MessageDispatcher M κ :=
  MessageDispatcher.build app.getExtractor app.setupHandlers

/-- The lambda that `setup_server` and `setup_client` pass to `on_receive`. -/
def onReceive (app : RimApplication M κ ι) : Callback (AppState κ) := fun s data _ =>
  let done := (app.dispatcher.dispatch s.user data).2
  { user := ⟨done.reply.user, s.ran ++ done.ran⟩
    span := done.reply.span
    span_length := done.reply.span_length
    calls := done.reply.calls }

def config (app : RimApplication M κ ι) : Config (AppState κ) where
  kind := app.kind
  framing := app.framing
  readTimeout := 0
  onRecv := some app.onReceive
  onConnect s connected :=
    if connected then
      let reply := app.onClientConnected s.user
      ({ s with user := reply.1 }, reply.2)
    else (s,[])
  onDisc s := s

/-- The calls that the registrations ask for on each frame of the stream. -/
def interpretation (app : RimApplication M κ ι) (stream : List Byte) : List HandlerCall :=
  (parse app.framing.cut stream).messages.flatMap
    (MessageDispatcher.requested app.getExtractor app.setupHandlers)

/-- The handlers ran as the messages asked for. -/
def Ran (app : RimApplication M κ ι) (s : AppState κ) (messages : List (List Byte)) : Prop :=
  s.ran = messages.flatMap (MessageDispatcher.requested app.getExtractor app.setupHandlers)

theorem Ran.onReceive {app : RimApplication M κ ι} {s : AppState κ} {messages : List (List Byte)}
    (h : app.Ran s messages) (m : List Byte) (sender : Option Address) :
    app.Ran (app.onReceive s m sender).user (messages ++ [m]) := by
  have hran := MessageDispatcher.dispatch_ran app.getExtractor app.setupHandlers s.user m
  simp only [Ran,RimApplication.onReceive,dispatcher,hran,List.flatMap_append,List.flatMap_singleton] at h ⊢
  rw [h]

theorem records (app : RimApplication M κ ι) : Records app.config app.Ran where
  received := by
    intro callback hcb u ms m sender h
    obtain rfl : app.onReceive = callback := by simpa [config] using hcb
    exact h.onReceive m sender
  connected := by
    intro u ms b h
    cases b <;> exact h
  disconnected h := h

variable [DecidableEq τ]

/-- The runs of one endpoint of the application in which every step meets `ok` as well. -/
abbrev Reach (app : RimApplication M κ ι) (ok : Event τ → Prop) : Endpoint (AppState κ) τ → Prop :=
  Transition.Reach (fun s₀ => ∃ u, s₀ = Endpoint.initial app.kind ⟨u,[]⟩) (Endpoint.step app.config)
    (fun s e => AppStep s.toCore s.notices e ∧ ok e)

section reach
variable {app : RimApplication M κ ι} {ok : Event τ → Prop} {s : Endpoint (AppState κ) τ}

theorem Reach.endpoint (h : app.Reach ok s) : Endpoint.Reached app.config s := by
  induction h with
  | start hi =>
    obtain ⟨u,rfl⟩ := hi
    exact .start ⟨_,rfl⟩
  | next _ _ hs ih => exact .next ih trivial hs

theorem Reach.ran (h : app.Reach ok s) : app.Ran s.user (callbacks s.log) := by
  induction h with
  | start hi =>
    obtain ⟨u,rfl⟩ := hi
    rfl
  | next _ _ hs ih => exact app.records.move ih (Endpoint.step_move hs)

theorem Reach.once (hk : app.kind = .tcpClient) (h : app.Reach ok s) : (connections s.log).length ≤ 1 := by
  have honce : s.toCore.AtMostOnce s.notices := by
    induction h with
    | start hi =>
      obtain ⟨u,rfl⟩ := hi
      exact Nat.zero_le _
    | next _ hok hs ih => exact ih.move hk hok.1 (Endpoint.step_move hs)
  simp only [Core.AtMostOnce] at honce
  omega

theorem Reach.chain (htcp : app.protocol = .tcp) (h : app.Reach ok s) :
    Chain app.kind app.framing s.toCore s.notices := by
  have hkind : app.config.kind ≠ .udpEndpoint := by
    simp only [config,kind,htcp]
    cases app.role <;> simp
  exact h.endpoint.chain hkind app.getExtractor.sizeofHeader_pos rfl (fun hclient => h.once hclient)

end reach

/-- No handler closes its endpoint. -/
def KeepsOpen (app : RimApplication M κ ι) : Prop :=
  ∀ r ∈ app.setupHandlers, ∀ u msg behind, .close ∉ (r.handler.call u msg behind).calls

omit [DecidableEq τ] in
theorem KeepsOpen.onReceive {app : RimApplication M κ ι} (h : app.KeepsOpen) (s : AppState κ)
    (m : List Byte) (sender : Option Address) : .close ∉ (app.onReceive s m sender).calls := by
  simp only [RimApplication.onReceive,dispatcher,MessageDispatcher.dispatch_build]
  split
  · exact List.not_mem_nil
  · cases hlast : MessageDispatcher.lastRegistered app.setupHandlers
        (MessageDispatcher.typeOf app.getExtractor m) with
    | none => exact List.not_mem_nil
    | some handler =>
      obtain ⟨r,hr,rfl⟩ := MessageDispatcher.mem_of_lastRegistered hlast
      simp only [UserHandler.raw]
      split
      · exact List.not_mem_nil
      · exact h r hr _ _ _

omit [DecidableEq τ] in
/-- Every call of a handler is on record, however the bytes come in. -/
theorem Ran.receiveAll {app : RimApplication M κ ι} {r r' : Receiver (AppState κ)}
    (h : app.Ran r.user r.delivered) (chunks : List (List Byte))
    (hr : receiveAll app.framing (some app.onReceive) r chunks = some r') :
    app.Ran r'.user r'.delivered := by
  induction chunks generalizing r with
  | nil => exact Option.some.inj hr ▸ h
  | cons chunk chunks ih =>
    simp only [Librim.receiveAll] at hr
    split at hr
    · obtain ⟨r₁,hread,hrest⟩ := Option.bind_eq_some_iff.mp hr
      refine ih ?_ hrest
      unfold Receiver.onRead at hread
      split at hread
      · refine Iteration.iterate_keeps (fun l => app.Ran l.1.user l.1.delivered)
          (fun r => app.Ran r.user r.delivered) ?_ ?_ ?_ hread
        · intro l l' hl hround
          simp only [processRound] at hround
          split at hround <;> simp only [reduceCtorEq,Sum.inl.injEq] at hround
          exact hround ▸ hl.onReceive _ none
        · intro l r hl hround
          simp only [processRound] at hround
          split at hround <;> simp only [reduceCtorEq,Sum.inr.injEq] at hround <;> exact hround ▸ hl
        · exact h
      · exact Option.some.inj hread ▸ h
    · exact Option.some.inj hr ▸ h

/-- Two applications whose handlers differ in nothing but what they do. -/
structure Alike {κ' ι' : Type} (app : RimApplication M κ ι) (app' : RimApplication M κ' ι') : Prop where
  extractor : app'.getExtractor = app.getExtractor
  outline : app'.setupHandlers.map MessageDispatcher.outline =
    app.setupHandlers.map MessageDispatcher.outline

omit [DecidableEq τ] in
theorem Alike.interpretation {κ' ι' : Type} {app : RimApplication M κ ι} {app' : RimApplication M κ' ι'}
    (h : app.Alike app') (stream : List Byte) : app'.interpretation stream = app.interpretation stream := by
  simp only [RimApplication.interpretation,framing,h.extractor]
  congr 1
  funext data
  exact MessageDispatcher.requested_congr _ h.outline data

omit [DecidableEq τ] in
theorem receiveAll_ran {app : RimApplication M κ ι} (hopen : app.KeepsOpen) {u : κ}
    {chunks : List (List Byte)}
    (ha : Admissible app.framing (some app.onReceive) (.started ⟨u,[]⟩) chunks) :
    ∃ r, receiveAll app.framing (some app.onReceive) (.started ⟨u,[]⟩) chunks = some r ∧
      r.user.ran = app.interpretation chunks.flatten := by
  have hf : 1 ≤ app.framing.headerSize := app.getExtractor.sizeofHeader_pos
  obtain ⟨r,hr,hfollows⟩ := (Follows.started hf _).receiveAll hf hopen.onReceive chunks ha
  have hstarted : app.Ran (Receiver.started ⟨u,[]⟩).user (Receiver.started (⟨u,[]⟩ : AppState κ)).delivered :=
    rfl
  have hran : app.Ran r.user r.delivered := hstarted.receiveAll chunks hr
  refine ⟨r, hr, ?_⟩
  rw [hran, hfollows.delivered, List.nil_append]
  rfl

theorem Reach.ran_begins {app : RimApplication M κ ι} {ok : Event τ → Prop}
    {s : Endpoint (AppState κ) τ} (htcp : app.protocol = .tcp) (h : app.Reach ok s) :
    s.user.ran <+: app.interpretation s.stream := by
  have hran : s.user.ran = _ := h.ran
  obtain ⟨later,hlater⟩ := (h.chain htcp).followed.parse_extends
  rw [hran, interpretation, ← hlater, List.flatMap_append]
  exact List.prefix_append _ _

theorem Reach.ran_eq {app : RimApplication M κ ι} {ok : Event τ → Prop} {s : Endpoint (AppState κ) τ}
    (htcp : app.protocol = .tcp) (h : app.Reach ok s) (hs : s.Settled) :
    s.user.ran = app.interpretation s.stream := by
  have hran : s.user.ran = _ := h.ran
  rw [hran, (h.chain htcp).followed.callbacks_eq hs.notices hs.acts]
  rfl

/-- However a stream is cut into reads, the handlers run as its interpretation says. An
endpoint has run the first of these calls in every state that it reaches, and all of them
when the chunks that were read are processed. What the handlers write into their messages
makes no difference. -/
theorem handlers_follow_stream {κ' ι' : Type} (app : RimApplication M κ ι)
    (app' : RimApplication M κ' ι') (htcp : app.protocol = .tcp) (htcp' : app'.protocol = .tcp) :
    (∀ u chunks, app.KeepsOpen →
      Admissible app.framing (some app.onReceive) (.started ⟨u,[]⟩) chunks →
      ∃ r, receiveAll app.framing (some app.onReceive) (.started ⟨u,[]⟩) chunks = some r ∧
        r.user.ran = app.interpretation chunks.flatten) ∧
    (∀ s : Endpoint (AppState κ) τ, app.Reach (fun _ => True) s →
      s.user.ran <+: app.interpretation s.stream ∧
      (s.Settled → s.user.ran = app.interpretation s.stream)) ∧
    (app.Alike app' →
      (∀ u u' chunks chunks', chunks.flatten = chunks'.flatten → app.KeepsOpen → app'.KeepsOpen →
        Admissible app.framing (some app.onReceive) (.started ⟨u,[]⟩) chunks →
        Admissible app'.framing (some app'.onReceive) (.started ⟨u',[]⟩) chunks' →
        (receiveAll app.framing (some app.onReceive) (.started ⟨u,[]⟩) chunks).map (·.user.ran) =
        (receiveAll app'.framing (some app'.onReceive) (.started ⟨u',[]⟩) chunks').map (·.user.ran)) ∧
      ∀ (s : Endpoint (AppState κ) τ) (s' : Endpoint (AppState κ') τ),
        app.Reach (fun _ => True) s → app'.Reach (fun _ => True) s' → s.stream = s'.stream →
        s.Settled → s'.Settled → s.user.ran = s'.user.ran) := by
  refine ⟨fun u chunks hopen ha => receiveAll_ran hopen ha,
    fun s h => ⟨h.ran_begins htcp, h.ran_eq htcp⟩, fun halike => ⟨?_, ?_⟩⟩
  · intro u u' chunks chunks' hsame hopen hopen' ha ha'
    obtain ⟨r,hr,hran⟩ := receiveAll_ran hopen ha
    obtain ⟨r',hr',hran'⟩ := receiveAll_ran hopen' ha'
    rw [hr, hr', Option.map_some, Option.map_some, hran, hran', hsame, halike.interpretation]
  · intro s s' h h' hstream hs hs'
    rw [h.ran_eq htcp hs, h'.ran_eq htcp' hs', hstream, halike.interpretation]

/-- A message that a handler would run on has the length that it declares. -/
def Honest (app : RimApplication M κ ι) (data : List Byte) : Prop :=
  MessageDispatcher.requested app.getExtractor app.setupHandlers data ≠ [] →
    data.length = MessageDispatcher.getSizeLambda app.getExtractor data

/-- Over UDP only honest datagrams arrive. -/
def HonestStep (app : RimApplication M κ ι) : Event τ → Prop
  | .read _ data _ => app.protocol = .udp → app.Honest data
  | _ => True

/-- Every handler call so far saw a message of the size that its own header declares. -/
def SeesDeclaredSize (app : RimApplication M κ ι) (s : AppState κ) : Prop :=
  ∀ call ∈ s.ran, call.span.length = MessageDispatcher.getSizeLambda app.getExtractor call.span

omit [DecidableEq τ] in
theorem Ran.seesDeclaredSize {app : RimApplication M κ ι} {s : AppState κ} {messages : List (List Byte)}
    (h : app.Ran s messages) (hm : ∀ m ∈ messages, app.Honest m) : app.SeesDeclaredSize s := by
  intro call hcall
  rw [h] at hcall
  obtain ⟨m,hmem,hreq⟩ := List.mem_flatMap.mp hcall
  rw [MessageDispatcher.span_of_requested hreq]
  exact hm m hmem (List.ne_nil_of_mem hreq)

omit [DecidableEq τ] in
/-- The framing of a stream goes by the declared sizes. -/
theorem honest_of_wellFramed {app : RimApplication M κ ι} {m : List Byte} (h : app.framing.WellFramed m) :
    app.Honest m := by
  intro _
  have hsize := h.size
  simp only [framing,MessageDispatcher.getSizeLambda,List.take_take,Nat.min_self] at hsize
  exact hsize.symm

theorem Reach.honest_arrivals {app : RimApplication M κ ι} {s : Endpoint (AppState κ) τ}
    (hudp : app.protocol = .udp) (h : app.Reach app.HonestStep s) :
    ∀ a ∈ s.arrived, app.Honest a.data := by
  induction h with
  | start hi =>
    obtain ⟨u,rfl⟩ := hi
    simp [Endpoint.initial,Core.initial]
  | next _ hok hs ih =>
    rcases (Endpoint.step_move hs).arrived with heq | ⟨i,data,sender,conn,rfl,heq⟩
    · rw [heq]
      exact ih
    · rw [heq]
      intro a ha
      rcases List.mem_append.mp ha with ha | ha
      · exact ih a ha
      · rw [List.mem_singleton.mp ha]
        exact hok.2 hudp

/-- Over TCP the handlers see what the framing cut out; over UDP they see what the sender sent,
and no one compares it with what it declares. -/
theorem handlers_see_declared_size (app : RimApplication M κ ι) (s : Endpoint (AppState κ) τ)
    (h : app.Reach app.HonestStep s) : app.SeesDeclaredSize s.user := by
  refine h.ran.seesDeclaredSize (fun m hm => ?_)
  cases hprotocol : app.protocol with
  | tcp =>
    have hpre := (h.chain hprotocol).followed.parse_extends
    exact honest_of_wellFramed (Framing.wellFramed_of_mem (hpre.subset hm))
  | udp =>
    have hkind : app.config.kind = .udpEndpoint := by simp only [config,kind,hprotocol]
    have hcontent : Content false s.toCore s.notices := by
      refine Endpoint.Reached.content hkind rfl ?_ ?_ h
      · rintro _ ⟨u,rfl⟩
        exact ⟨_,rfl⟩
      · rintro s e ⟨hstep,-⟩
        cases e with
        | start => exact hstep
        | _ => trivial
    have hmem : m ∈ (s.arrived.map Arrival.data).filter (kept false) := by
      rw [← hcontent.history]
      exact List.mem_append_left _ hm
    obtain ⟨a,ha,rfl⟩ := List.mem_map.mp (List.mem_filter.mp hmem).1
    exact h.honest_arrivals hprotocol a ha

end

/-- The swap of the two header fields that the handlers of the demo begin with. -/
def swapHeader : UserHandler Unit :=
  ⟨7, 8, fun _ msg _ =>
    ⟨(), ((msg.take 4).reverse ++ (msg.drop 4).reverse ++ List.replicate 8 0).take 8, by simp; omega, []⟩⟩

/-- Messages of type 1 go to one handler. -/
def demo (role : AppRole) (protocol : Protocol) (handler : UserHandler Unit) : RimApplication Nat Unit Unit where
  role := role
  protocol := protocol
  getExtractor := MessageDispatcher.exampleHeader
  setupHandlers := [.callable 1 handler]
  onClientConnected u := (u,[])

/-- Two messages in two reads, the first of them with a byte behind its struct. -/
theorem handlers_follow_stream_demo :
    ∃ r, receiveAll (demo .server .tcp swapHeader).framing (some (demo .server .tcp swapHeader).onReceive)
        (.started ⟨(),[]⟩) [[0,0,0,1,0],[0,0,1,9,0,0,0,1,0,0,0,0]] = some r ∧
      r.user.ran = [⟨7,[0,0,0,1,0,0,0,1],[9]⟩, ⟨7,[0,0,0,1,0,0,0,0],[]⟩] := by
  have hopen : (demo .server .tcp swapHeader).KeepsOpen := by
    intro r hr u msg behind
    rw [List.mem_singleton.mp hr]
    exact List.not_mem_nil
  have hf : 1 ≤ (demo .server .tcp swapHeader).framing.headerSize := by decide
  have ha : Admissible (demo .server .tcp swapHeader).framing (some (demo .server .tcp swapHeader).onReceive)
      (.started ⟨(),[]⟩) [[0,0,0,1,0],[0,0,1,9,0,0,0,1,0,0,0,0]] :=
    (Follows.started hf _).admissible hf hopen.onReceive _ (by simp)
  obtain ⟨hcut,-,-⟩ := handlers_follow_stream (τ := Unit) (demo .server .tcp swapHeader)
    (demo .server .tcp swapHeader) rfl rfl
  obtain ⟨r,hr,hran⟩ := hcut () _ hopen ha
  exact ⟨r, hr, hran.trans (by decide)⟩

/-- A test for the steps of an application that does not connect. -/
def stepCheck (s : Endpoint (AppState κ) τ) : Event τ → Bool
  | .start => s.boot != .done
  | .connect _ _ => false
  | _ => true

theorem appStep_of_check {s : Endpoint (AppState κ) τ} {e : Event τ} (h : stepCheck s e = true) :
    AppStep s.toCore s.notices e := by
  cases e with
  | start => simpa [stepCheck,AppStep] using h
  | connect resolved opened => simp [stepCheck] at h
  | _ => trivial

/-- A test for what arrives. -/
def declares (app : RimApplication M κ ι) : Event τ → Bool
  | .read _ data _ => data.length == MessageDispatcher.getSizeLambda app.getExtractor data
  | _ => true

theorem honestStep_of_declares [DecidableEq M] {app : RimApplication M κ ι} {e : Event τ}
    (h : app.declares e = true) : app.HonestStep e := by
  cases e with
  | read i data sender => exact fun _ _ => by simpa [declares] using h
  | _ => trivial

/-- A server over UDP receives one datagram. -/
def receiveOne (data : List Byte) : List (Event Unit) :=
  [.setup (.bind 9) .obliging, .start, .read 0 data ⟨1,2⟩, .run, .act true]

theorem handlers_see_declared_size_demo : ∃ s : Endpoint (AppState Unit) Unit,
    Transition.run (Endpoint.step (demo .server .udp swapHeader).config) (Endpoint.initial .udpEndpoint ⟨(),[]⟩)
      (receiveOne [0,0,0,1,0,0,0,1,9]) = some s ∧
    (demo .server .udp swapHeader).Reach (demo .server .udp swapHeader).HonestStep s ∧
    s.user.ran = [⟨7,[0,0,0,1,0,0,0,1],[9]⟩] ∧
    (demo .server .udp swapHeader).SeesDeclaredSize s.user := by
  have hrun : (Transition.run (Transition.guarded (Endpoint.step (demo .server .udp swapHeader).config)
      (fun s e => stepCheck s e && (demo .server .udp swapHeader).declares e))
      (Endpoint.initial .udpEndpoint ⟨(),[]⟩)
      (receiveOne [0,0,0,1,0,0,0,1,9])).map (fun s => s.user.ran) =
        some [⟨7,[0,0,0,1,0,0,0,1],[9]⟩] := by
    decide +kernel
  obtain ⟨s,hs,hran⟩ := Option.map_eq_some_iff.mp hrun
  have hreach : (demo .server .udp swapHeader).Reach (demo .server .udp swapHeader).HonestStep s := by
    refine Transition.Reach.run_guarded (fun s e hcheck => ?_) (.start ⟨(),rfl⟩) hs
    simp only [Bool.and_eq_true] at hcheck
    exact ⟨appStep_of_check hcheck.1, honestStep_of_declares hcheck.2⟩
  exact ⟨s, Transition.run_of_guarded hs, hreach, hran, handlers_see_declared_size _ s hreach⟩

/-- A datagram of eight bytes declares 256 bytes behind its header and reaches the handler. -/
theorem handlers_not_see_declared_size : ∃ s : Endpoint (AppState Unit) Unit,
    (demo .server .udp swapHeader).Reach (fun _ => True) s ∧
    s.user.ran = [⟨7,[0,0,0,1,0,0,1,0],[]⟩] ∧
    ¬ (demo .server .udp swapHeader).SeesDeclaredSize s.user := by
  have hrun : (Transition.run (Transition.guarded (Endpoint.step (demo .server .udp swapHeader).config)
      stepCheck) (Endpoint.initial .udpEndpoint ⟨(),[]⟩) (receiveOne [0,0,0,1,0,0,1,0])).map (fun s => s.user.ran) =
        some [⟨7,[0,0,0,1,0,0,1,0],[]⟩] := by
    decide +kernel
  obtain ⟨s,hs,hran⟩ := Option.map_eq_some_iff.mp hrun
  refine ⟨s, Transition.Reach.run_guarded (fun s e hcheck => ⟨appStep_of_check hcheck,trivial⟩)
    (.start ⟨(),rfl⟩) hs, hran, fun hsees => ?_⟩
  have hlength := hsees ⟨7,[0,0,0,1,0,0,1,0],[]⟩ (by rw [hran]; exact List.mem_singleton_self _)
  exact absurd hlength (by decide)

end RimApplication

end Librim
