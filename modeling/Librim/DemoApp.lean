import Librim.ApplicationNet

/-! The basic demo: a client that sends pings and texts, and a server with a handler for each. -/

set_option autoImplicit false

namespace Librim

/-- `be64toh`, on the bytes of the field. -/
def be64toh (bs : List Byte) : Nat := be32toh (bs.take 4)*4294967296+be32toh (bs.drop 4)

theorem be64toh_htobe64 (x : UInt64) : be64toh (htobe64 x) = x.toNat := by
  rw [htobe64_eq, be64toh, List.take_left' (length_htobe32 _), List.drop_left' (length_htobe32 _),
    be32toh_htobe32, be32toh_htobe32]
  simp only [UInt64.toNat_toUInt32,UInt64.toNat_shiftRight,UInt64.reduceToNat,Nat.reduceMod,
    Nat.shiftRight_eq_div_pow,Nat.reducePow]
  have := x.toNat_lt
  omega

/-- A list of values that are all of the form `f b`. -/
theorem exists_map_of_forall {α β : Type} {f : β → α} {P : β → Prop} {l : List α}
    (h : ∀ a ∈ l, ∃ b, P b ∧ f b = a) : ∃ bs : List β, l = bs.map f ∧ ∀ b ∈ bs, P b := by
  induction l with
  | nil => exact ⟨[], rfl, by simp⟩
  | cons a l ih =>
    obtain ⟨b,hb,rfl⟩ := h a List.mem_cons_self
    obtain ⟨bs,rfl,hbs⟩ := ih (fun a ha => h a (List.mem_cons_of_mem _ ha))
    exact ⟨b :: bs, rfl, List.forall_mem_cons.mpr ⟨hb,hbs⟩⟩

namespace DemoApp

inductive Message where
  | ping (timestamp : UInt64)
  | text (bytes : List Byte)
  deriving DecidableEq

/-- An `AppHeader`. -/
def header (type length : UInt32) : List Byte := htobe32 type ++ htobe32 length

/-- The bytes that `run_demo_client` passes to `send`. -/
def Message.packet : Message → List Byte
  | .ping timestamp => header 1 8 ++ htobe64 timestamp
  | .text bytes => header 2 (UInt32.ofNat bytes.length) ++ bytes

section header
variable (type length : UInt32) (body : List Byte)

theorem length_header : (header type length).length = 8 := rfl

theorem take_header : (header type length ++ body).take 8 = header type length :=
  List.take_left' (length_header ..)

theorem drop_header : (header type length ++ body).drop 8 = body := List.drop_left' (length_header ..)

theorem be32toh_type : be32toh ((header type length ++ body).take 4) = type.toNat := by
  rw [header, List.append_assoc, List.take_left' (length_htobe32 _), be32toh_htobe32]

theorem be32toh_length : be32toh (((header type length ++ body).take 8).drop 4) = length.toNat := by
  rw [take_header, header, List.drop_left' (length_htobe32 _), be32toh_htobe32]

end header

/-- What a handler logs. A text is `none` if some of its bytes lie behind the end of the message. -/
inductive Line where
  | ping (timestamp : Nat)
  | text (bytes : Option (List Byte))
  deriving DecidableEq, Repr

def Message.line : Message → Line
  | .ping timestamp => .ping timestamp.toNat
  | .text bytes => .text (some bytes)

/-- The header with both fields in the order of the host, which is little-endian. -/
def swapped (header : List Byte) : List Byte := (header.take 4).reverse ++ ((header.drop 4).take 4).reverse

/-- As many bytes as the struct has. -/
def fit (n : Nat) (bs : List Byte) : List Byte := (bs ++ List.replicate n 0).take n

theorem length_fit (n : Nat) (bs : List Byte) : (fit n bs).length = n := by
  simp [fit]

def handlePing : UserHandler (List Line) where
  id := 1
  sizeofMsgDef := 16
  call lines msg _ :=
    { user := lines ++ [.ping (be64toh (msg.drop 8))]
      span := fit 16 (swapped msg ++ (msg.drop 8).reverse)
      span_length := length_fit _ _
      calls := [] }

def handleText : UserHandler (List Line) where
  id := 2
  sizeofMsgDef := 8
  call lines msg behind :=
    let length := be32toh (msg.drop 4)
    { user := lines ++ [.text (if length ≤ behind.length then some (behind.take length) else none)]
      span := fit 8 (swapped msg)
      span_length := length_fit _ _
      calls := [] }

/-- `DemoApp` with its overrides, in the role and over the protocol of its configuration. -/
def app (role : AppRole) (protocol : Protocol) : RimApplication Nat (List Line) Unit where
  role := role
  protocol := protocol
  getExtractor := MessageDispatcher.exampleHeader
  setupHandlers := [.member 1 () (fun _ => handlePing), .member 2 () (fun _ => handleText)]
  onClientConnected lines := (lines,[])

/-- What the dispatcher makes of one message. -/
def logged (data : List Byte) : List Line :=
  if data.length < 8 then []
  else
    match be32toh (data.take 4) with
    | 1 => if data.length < 16 then [] else [.ping (be64toh ((data.take 16).drop 8))]
    | 2 =>
      let length := be32toh ((data.take 8).drop 4)
      [.text (if length ≤ (data.drop 8).length then some ((data.drop 8).take length) else none)]
    | _ => []

theorem typeOf_example (data : List Byte) :
    MessageDispatcher.typeOf MessageDispatcher.exampleHeader data = be32toh (data.take 4) := by
  simp [MessageDispatcher.typeOf,MessageDispatcher.exampleHeader,List.take_take]

theorem handler_of_type (role : AppRole) (protocol : Protocol) (type : Nat) :
    MessageDispatcher.lastRegistered (app role protocol).setupHandlers type =
      if type = 2 then some handleText else if type = 1 then some handlePing else none := by
  by_cases htext : type = 2
  · subst htext
    rfl
  · by_cases hping : type = 1
    · subst hping
      rfl
    · simp [MessageDispatcher.lastRegistered,app,Registration.type,htext,hping,Ne.symm htext,Ne.symm hping]

/-- The handlers log what is theirs behind what is there. -/
theorem dispatch_user (role : AppRole) (protocol : Protocol) (lines : List Line) (data : List Byte) :
    ((app role protocol).dispatcher.dispatch lines data).2.reply.user = lines ++ logged data := by
  have hsize : (app role protocol).getExtractor.sizeofHeader = 8 := rfl
  have htype : MessageDispatcher.typeOf (app role protocol).getExtractor data = be32toh (data.take 4) :=
    typeOf_example data
  rw [RimApplication.dispatcher, MessageDispatcher.dispatch_build, hsize, htype, handler_of_type, logged]
  by_cases hshort : data.length < 8
  · simp [hshort,Dispatched.skip]
  · rw [if_neg hshort, if_neg hshort]
    by_cases htext : be32toh (data.take 4) = 2
    · simp [htext,UserHandler.raw,handleText,hshort]
    · by_cases hping : be32toh (data.take 4) = 1
      · by_cases hlen : data.length < 16
        · simp [hping,UserHandler.raw,handlePing,hlen,Dispatched.skip]
        · simp [hping,UserHandler.raw,handlePing,hlen]
      · simp [htext,hping,Dispatched.skip]

/-- The handlers have logged what the messages say. -/
def Logged (s : AppState (List Line)) (messages : List (List Byte)) : Prop := s.user = messages.flatMap logged

theorem records (role : AppRole) (protocol : Protocol) : Records (app role protocol).config Logged :=
  RimApplication.Appends.records ⟨dispatch_user role protocol, fun _ => rfl⟩

/-- A message within the limit that the factory sets. -/
def Message.Fits : Message → Prop
  | .ping _ => True
  | .text bytes => 8+bytes.length ≤ 10*1024*1024

theorem toNat_length {bytes : List Byte} (h : 8+bytes.length ≤ 10*1024*1024) :
    (UInt32.ofNat bytes.length).toNat = bytes.length := by
  rw [UInt32.toNat_ofNat', Nat.mod_eq_of_lt (by omega)]

theorem wellFramed_header (role : AppRole) (protocol : Protocol) {type length : UInt32} {body : List Byte}
    (hlength : length.toNat = body.length) (hmax : 8+body.length ≤ 10*1024*1024) :
    (app role protocol).framing.WellFramed (header type length ++ body) := by
  have htotal : (header type length ++ body).length = 8+body.length := by
    rw [List.length_append, length_header]
  refine ⟨?_, ?_, by rw [htotal]; exact hmax⟩
  · show 8 ≤ (header type length ++ body).length
    omega
  · show be32toh ((((header type length ++ body).take 8).take 8).drop 4)+8 = (header type length ++ body).length
    rw [List.take_take, Nat.min_self, be32toh_length, hlength, htotal, Nat.add_comm]

theorem packet_wellFramed (role : AppRole) (protocol : Protocol) {m : Message} (h : m.Fits) :
    (app role protocol).framing.WellFramed m.packet := by
  cases m with
  | ping timestamp => exact wellFramed_header role protocol rfl (by simp [htobe64])
  | text bytes => exact wellFramed_header role protocol (toNat_length h) h

/-- A packet is decoded to what it was made from. -/
theorem logged_packet {m : Message} (h : m.Fits) : logged m.packet = [m.line] := by
  cases m with
  | ping timestamp =>
    have hlen : (Message.ping timestamp).packet.length = 16 := rfl
    have htype : be32toh ((Message.ping timestamp).packet.take 4) = 1 := be32toh_type 1 8 (htobe64 timestamp)
    have htime : ((Message.ping timestamp).packet.take 16).drop 8 = htobe64 timestamp := rfl
    rw [logged, hlen, htype, htime, be64toh_htobe64]
    rfl
  | text bytes =>
    have hlen : (Message.text bytes).packet.length = 8+bytes.length := by
      rw [Message.packet, List.length_append, length_header]
    have htype : be32toh ((Message.text bytes).packet.take 4) = 2 := be32toh_type 2 _ bytes
    have hlength : be32toh (((Message.text bytes).packet.take 8).drop 4) = bytes.length := by
      rw [Message.packet, be32toh_length, toNat_length h]
    have hbody : (Message.text bytes).packet.drop 8 = bytes := drop_header ..
    rw [logged, if_neg (by omega), htype]
    simp only [hlength,hbody,Nat.le_refl,↓reduceIte,List.take_length,Message.line]

theorem flatMap_logged {ms : List Message} (h : ∀ m ∈ ms, m.Fits) :
    (ms.map Message.packet).flatMap logged = ms.map Message.line := by
  induction ms with
  | nil => rfl
  | cons m ms ih =>
    rw [List.map_cons, List.flatMap_cons, logged_packet (h m List.mem_cons_self),
      ih (fun m hm => h m (List.mem_cons_of_mem _ hm))]
    rfl

section
variable {κ τ₁ τ₂ : Type} [DecidableEq τ₁] [DecidableEq τ₂]

/-- The server logs the messages of the client in the order in which their packets were queued,
each with the contents that the client gave it. -/
theorem server_logs_messages (client : Config κ) (hclient : client.kind = .tcpClient)
    (n : Net κ τ₁ (AppState (List Line)) τ₂)
    (h : Net.Serves client (app .server .tcp) [] n) (honce : n.client.ConnectedOnce)
    (hsent : ∀ caller, ∀ ticket ∈ n.client.out.sent caller, ∃ m : Message, m.Fits ∧
      ticket.request.data = m.packet) :
    ∃ ms : List Message, n.client.payloads = ms.map Message.packet ∧
      n.server.user.user <+: ms.map Message.line ∧
      (n.Processed → n.server.user.user = ms.map Message.line) := by
  have hpackets : ∀ p ∈ n.client.payloads, ∃ m : Message, m.Fits ∧ m.packet = p := by
    intro p hp
    obtain ⟨caller,ticket,ht,rfl⟩ := h.reached.linked.client.entered (by simp [hclient]) hp
    obtain ⟨m,hm,heq⟩ := hsent caller ticket ht
    exact ⟨m, hm, heq.symm⟩
  obtain ⟨ms,hms,hfits⟩ := exists_map_of_forall hpackets
  have hcarried : Carried n.client n.server := by
    refine h.carried hclient rfl rfl honce (fun caller ticket ht => ?_)
    obtain ⟨m,hm,heq⟩ := hsent caller ticket ht
    rw [heq]
    exact packet_wellFramed .server .tcp hm
  have hlogged : n.server.user.user = _ := h.records (records .server .tcp) rfl
  refine ⟨ms, hms, ?_, fun hall => ?_⟩
  · obtain ⟨later,hlater⟩ := hcarried.ordered
    rw [hlogged, ← flatMap_logged hfits, ← hms, ← hlater, List.flatMap_append]
    exact List.prefix_append _ _
  · rw [hlogged, hcarried.whole hall.written hall.read hall.settled, hms, flatMap_logged hfits]

end

/-- A ping and a text are queued, written one after the other and read together. -/
def pingAndText : List (Net.Event Unit Unit) :=
  ([.send () ⟨(Message.ping 5).packet,.implicit⟩, .pop (some ()), .fill (some ()), .post (some ()), .run,
    .send () ⟨(Message.text [104,105]).packet,.implicit⟩, .pop (some ()), .fill (some ()), .post (some ()), .run,
    .write 0 16, .writeDone 0 false, .run, .act true, .act true, .write 0 10].map .client) ++
  ([.read 0 ((Message.ping 5).packet ++ (Message.text [104,105]).packet) ⟨0,0⟩, .run, .act true, .act true,
    .act true].map .server)

def afterPingAndText : Option (Net Unit Unit (AppState (List Line)) Unit) :=
  Transition.run (Net.step (Net.asking (app .server .tcp)) (app .server .tcp).config) (Net.served []) pingAndText

theorem server_logs_messages_two : ∃ n : Net Unit Unit (AppState (List Line)) Unit,
    Net.Serves (Net.asking (app .server .tcp)) (app .server .tcp) [] n ∧
    ∃ ms : List Message, n.client.payloads = ms.map Message.packet ∧ ms.length = 2 ∧
      n.server.user.user = ms.map Message.line := by
  have hclient : afterPingAndText.map (fun n => (connections n.client.log, n.client.socket.conn,
      n.client.payloads, n.client.out.wire)) = some ([1], 1,
        [(Message.ping 5).packet,(Message.text [104,105]).packet],
        (Message.ping 5).packet ++ (Message.text [104,105]).packet) := by decide +kernel
  have hsent : afterPingAndText.map (fun n => ((n.client.out.sent none).map (·.request.data),
      (n.client.out.sent (some ())).map (·.request.data))) =
      some ([], [(Message.ping 5).packet,(Message.text [104,105]).packet]) := by decide +kernel
  have hserver : afterPingAndText.map (fun n => (n.server.stream, n.server.ready.length, n.server.running)) =
      some ((Message.ping 5).packet ++ (Message.text [104,105]).packet, 0,
        .program [.resetReadTimeout 1, .startReceive 1]) := by decide +kernel
  obtain ⟨n,hn,hclient⟩ := Option.map_eq_some_iff.mp hclient
  rw [hn, Option.map_some, Option.some.injEq] at hsent hserver
  simp only [Prod.mk.injEq] at hclient hsent hserver
  obtain ⟨hconn,hsocket,hpay,hwire⟩ := hclient
  obtain ⟨hnone,hsome⟩ := hsent
  obtain ⟨hstream,hready,hidle⟩ := hserver
  have hserves := Transition.reachable_run (Net.serves_served (app .server .tcp) rfl rfl []) hn
  have hpackets : ∀ caller, ∀ ticket ∈ n.client.out.sent caller, ∃ m : Message, m.Fits ∧
      ticket.request.data = m.packet := by
    refine Endpoint.forall_sent (P := fun data => ∃ m : Message, m.Fits ∧ data = m.packet) hnone hsome
      (fun data hd => ?_)
    simp only [List.nil_append,List.mem_cons,List.not_mem_nil,or_false] at hd
    rcases hd with hd | hd
    · exact ⟨.ping 5, trivial, hd⟩
    · exact ⟨.text [104,105], by simp [Message.Fits], hd⟩
  obtain ⟨ms,hms,-,hall⟩ := server_logs_messages (Net.asking (app .server .tcp)) rfl n hserves
    (.inr (by rw [hconn, hsocket])) hpackets
  have hlen := congrArg List.length hms
  rw [hpay, List.length_map] at hlen
  refine ⟨n, hserves, ms, hms, hlen.symm, hall ⟨by rw [hwire, hpay]; rfl, hstream.trans hwire.symm, ⟨?_, ?_⟩⟩⟩
  · simp [Endpoint.notices,List.length_eq_zero_iff.mp hready]
  · simp [hidle,Running.acts]

/-- A text that says it is longer than its message. -/
def Overlong (data : List Byte) : Prop :=
  8 ≤ data.length ∧ be32toh (data.take 4) = 2 ∧ data.length < 8+be32toh ((data.take 8).drop 4)

theorem none_mem_logged {data : List Byte} : .text none ∈ logged data ↔ Overlong data := by
  unfold logged Overlong
  by_cases hshort : data.length < 8
  · simp only [if_pos hshort,List.not_mem_nil,false_iff]
    omega
  · rw [if_neg hshort]
    by_cases htext : be32toh (data.take 4) = 2
    · by_cases hle : be32toh ((data.take 8).drop 4) ≤ (data.drop 8).length
      · rw [List.length_drop] at hle
        simp only [htext,List.length_drop,if_pos hle,List.mem_singleton,Line.text.injEq,reduceCtorEq,false_iff]
        omega
      · rw [List.length_drop] at hle
        simp only [htext,List.length_drop,if_neg hle,List.mem_singleton,true_iff]
        exact ⟨by omega, trivial, by omega⟩
    · by_cases hping : be32toh (data.take 4) = 1
      · by_cases hlen : data.length < 16 <;> simp [hping,hlen]
      · simp [htext]

theorem not_overlong_of_wellFramed {role : AppRole} {protocol : Protocol} {data : List Byte}
    (h : (app role protocol).framing.WellFramed data) : ¬ Overlong data := by
  rintro ⟨-,-,hover⟩
  have hsize : be32toh (((data.take 8).take 8).drop 4)+8 = data.length := h.size
  rw [List.take_take, Nat.min_self] at hsize
  omega

/-- `handle_text` reads behind the end of a message if and only if the message says that it is longer than
it is. The framing of a stream lets no such message through; over UDP nothing keeps it out. -/
theorem text_in_bounds {τ : Type} [DecidableEq τ] (role : AppRole) (protocol : Protocol)
    (s : Endpoint (AppState (List Line)) τ)
    (honce : (app role protocol).kind = .tcpClient → (connections s.log).length ≤ 1)
    (h : Transition.Reachable (· = Endpoint.initial (app role protocol).kind ⟨[],[]⟩)
      (Endpoint.step (app role protocol).config) s) :
    (.text none ∈ s.user.user ↔ ∃ m ∈ callbacks s.log, Overlong m) ∧
    (protocol = .tcp → .text none ∉ s.user.user) := by
  have hlogged : s.user.user = (callbacks s.log).flatMap logged := by
    refine Transition.Reach.invariant (fun s : Endpoint (AppState (List Line)) τ =>
      Logged s.user (callbacks s.log)) ?_ ?_ h
    · rintro _ rfl
      rfl
    · intro s e t hi _ hs
      exact (records role protocol).move hi (Endpoint.step_move hs)
  have hiff : .text none ∈ s.user.user ↔ ∃ m ∈ callbacks s.log, Overlong m := by
    rw [hlogged, List.mem_flatMap]
    exact exists_congr (fun m => and_congr_right (fun _ => none_mem_logged))
  refine ⟨hiff, fun htcp hnone => ?_⟩
  obtain ⟨m,hm,hover⟩ := hiff.mp hnone
  have hreached : Endpoint.Reached (app role protocol).config s := by
    refine h.weaken ?_
    rintro _ rfl
    exact ⟨_,rfl⟩
  have hkind : (app role protocol).config.kind ≠ .udpEndpoint := by
    subst htcp
    cases role <;> simp [RimApplication.config,RimApplication.kind,app]
  have hchain := hreached.chain hkind (app role protocol).getExtractor.sizeofHeader_pos rfl honce
  have hframed := Framing.wellFramed_of_mem (hchain.followed.parse_extends.subset hm)
  exact not_overlong_of_wellFramed hframed hover

/-- Over UDP a text that declares nine bytes and has none is passed to the handler. -/
theorem text_in_bounds_datagram : ∃ s : Endpoint (AppState (List Line)) Unit,
    Transition.run (Endpoint.step (app .server .udp).config) (Endpoint.initial .udpEndpoint ⟨[],[]⟩)
      (RimApplication.receiveOne (header 2 9)) = some s ∧
    Transition.Reachable (· = Endpoint.initial (app .server .udp).kind ⟨[],[]⟩)
      (Endpoint.step (app .server .udp).config) s ∧
    s.user.user = [.text none] ∧ ∃ m ∈ callbacks s.log, Overlong m := by
  have hrun : (Transition.run (Endpoint.step (app .server .udp).config) (Endpoint.initial .udpEndpoint ⟨[],[]⟩)
      (RimApplication.receiveOne (header 2 9))).map (fun s => s.user.user) = some [.text none] := by
    decide +kernel
  obtain ⟨s,hs,huser⟩ := Option.map_eq_some_iff.mp hrun
  have hreach : Transition.Reachable (· = Endpoint.initial (app .server .udp).kind ⟨[],[]⟩)
      (Endpoint.step (app .server .udp).config) s := Transition.reachable_run (.start rfl) hs
  obtain ⟨hiff,-⟩ := text_in_bounds .server .udp s (by simp [RimApplication.kind,app]) hreach
  exact ⟨s, hs, hreach, huser, hiff.mp (by rw [huser]; exact List.mem_singleton_self _)⟩

end DemoApp

end Librim
