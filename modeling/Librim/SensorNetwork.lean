import Librim.DemoApp
import Librim.UdpApplication

/-! The sensor network: sensors that send telemetry and alerts over UDP, and the aggregator that logs
what it gets, or ends with an exception. -/

set_option autoImplicit false

namespace Librim

namespace SensorNetwork

/-- The two floats of a telemetry packet are their bit patterns. -/
inductive Message where
  | telemetry (sensorId temperature humidity : UInt32)
  | alert (sensorId : UInt32) (bytes : List Byte)
  deriving DecidableEq

/-- The bytes that `run_sensor_node` passes to `send`. -/
def Message.packet : Message → List Byte
  | .telemetry sensorId temperature humidity =>
    DemoApp.header 100 12 ++ (htobe32 sensorId ++ (htobe32 temperature ++ htobe32 humidity))
  | .alert sensorId bytes =>
    DemoApp.header 101 (UInt32.ofNat (4+bytes.length)) ++ (htobe32 sensorId ++ bytes)

/-- The text of an alert: its bytes, or bytes from behind the end of the message. -/
inductive Text where
  | bytes (bytes : List Byte)
  | behind
  deriving DecidableEq, Repr

/-- What a handler logs. -/
inductive Line where
  | telemetry (sensorId temperature humidity : Nat)
  | alert (sensorId : Nat) (text : Text)
  deriving DecidableEq, Repr

def Message.line : Message → Line
  | .telemetry sensorId temperature humidity => .telemetry sensorId.toNat temperature.toNat humidity.toNat
  | .alert sensorId bytes => .alert sensorId.toNat (.bytes bytes)

/-- What is in the log, and whether an exception has left a handler. -/
structure Journal where
  lines : List Line
  thrown : Bool
  deriving DecidableEq, Repr

/-- `std::string(msg_ptr, str_len)` with `str_len` bytes wanted and `behind` there; `none` is
`std::length_error`. -/
def alertText (strLen : Nat) (behind : List Byte) : Option Text :=
  if 2^63 ≤ strLen then none
  else if strLen ≤ behind.length then some (.bytes (behind.take strLen))
  else some .behind

def handleTelemetry : UserHandler Journal where
  id := 100
  sizeofMsgDef := 20
  call journal msg _ :=
    { user := { journal with lines := journal.lines ++
        [.telemetry (be32toh ((msg.drop 8).take 4)) (be32toh ((msg.drop 12).take 4))
          (be32toh ((msg.drop 16).take 4))] }
      span := DemoApp.fit 20 msg
      span_length := DemoApp.length_fit _ _
      calls := [] }

/-- The string is as long as the header says, less the four bytes of the sensor's id. -/
def handleAlert : UserHandler Journal where
  id := 101
  sizeofMsgDef := 12
  call journal msg behind :=
    { user := match alertText (sizeSub (be32toh ((msg.drop 4).take 4)) 4) behind with
        | some text => { journal with lines := journal.lines ++ [.alert (be32toh ((msg.drop 8).take 4)) text] }
        | none => { journal with thrown := true }
      span := DemoApp.fit 12 msg
      span_length := DemoApp.length_fit _ _
      calls := [] }

/-- `TelemetryAggregator`. -/
def aggregator : RimApplication Nat Journal Unit where
  role := .server
  protocol := .udp
  getExtractor := MessageDispatcher.exampleHeader
  setupHandlers := [.member 100 () (fun _ => handleTelemetry), .member 101 () (fun _ => handleAlert)]
  onClientConnected journal := (journal,[])

/-- What the dispatcher makes of one datagram: lines, or the exception. -/
def logged (data : List Byte) : Option (List Line) :=
  if data.length < 8 then some []
  else if be32toh (data.take 4) = 101 then
    if data.length < 12 then some []
    else (alertText (sizeSub (be32toh ((data.drop 4).take 4)) 4) (data.drop 12)).map
      (fun text => [.alert (be32toh ((data.drop 8).take 4)) text])
  else if be32toh (data.take 4) = 100 then
    if data.length < 20 then some []
    else some [.telemetry (be32toh ((data.drop 8).take 4)) (be32toh ((data.drop 12).take 4))
      (be32toh ((data.drop 16).take 4))]
  else some []

def Journal.add (journal : Journal) (data : List Byte) : Journal :=
  match logged data with
  | some lines => { journal with lines := journal.lines ++ lines }
  | none => { journal with thrown := true }

theorem handler_of_type (type : Nat) : MessageDispatcher.lastRegistered aggregator.setupHandlers type =
    if type = 101 then some handleAlert else if type = 100 then some handleTelemetry else none := by
  by_cases halert : type = 101
  · subst halert
    rfl
  · by_cases htelemetry : type = 100
    · subst htelemetry
      rfl
    · simp [MessageDispatcher.lastRegistered,aggregator,Registration.type,halert,htelemetry,Ne.symm halert,
        Ne.symm htelemetry]

theorem drop_take_of_le {data : List Byte} {n k : Nat} (h : k+4 ≤ n) :
    ((data.take n).drop k).take 4 = (data.drop k).take 4 := by
  rw [List.drop_take, List.take_take, Nat.min_eq_left (by omega)]

/-- The handlers log what is theirs behind what is there. -/
theorem dispatch_user (journal : Journal) (data : List Byte) :
    (aggregator.dispatcher.dispatch journal data).2.reply.user = journal.add data := by
  have hsize : aggregator.getExtractor.sizeofHeader = 8 := rfl
  have htype : MessageDispatcher.typeOf aggregator.getExtractor data = be32toh (data.take 4) :=
    DemoApp.typeOf_example data
  rw [RimApplication.dispatcher, MessageDispatcher.dispatch_build, hsize, htype, handler_of_type, Journal.add, logged]
  by_cases hshort : data.length < 8
  · simp [hshort,Dispatched.skip]
  · rw [if_neg hshort, if_neg hshort]
    by_cases halert : be32toh (data.take 4) = 101
    · by_cases hlen : data.length < 12
      · simp [halert,UserHandler.raw,handleAlert,hlen,Dispatched.skip]
      · cases htext : alertText (sizeSub (be32toh ((data.drop 4).take 4)) 4) (data.drop 12) <;>
          simp [halert,UserHandler.raw,handleAlert,hlen,drop_take_of_le,htext]
    · by_cases htelemetry : be32toh (data.take 4) = 100
      · by_cases hlen : data.length < 20
        · simp [htelemetry,UserHandler.raw,handleTelemetry,hlen,Dispatched.skip]
        · simp [htelemetry,UserHandler.raw,handleTelemetry,hlen,drop_take_of_le]
      · simp [halert,htelemetry,Dispatched.skip]

/-- The handlers have made what is in the journal of the datagrams, one after the other. -/
def Logged (s : AppState Journal) (messages : List (List Byte)) : Prop :=
  s.user = messages.foldl Journal.add ⟨[],false⟩

theorem records : Records aggregator.config Logged :=
  RimApplication.Folds.records ⟨dispatch_user, fun _ => rfl⟩ ⟨[],false⟩

/-- The length of no string is that of an alert that declares less than the id of its sensor. -/
theorem alertText_eq_none {length : Nat} (h : length < 2^32) {behind : List Byte} :
    alertText (sizeSub length 4) behind = none ↔ length < 4 := by
  by_cases hshort : length < 4
  · simp only [alertText,sizeSub,hshort,if_neg (Nat.not_le.mpr hshort),iff_true]
    rw [if_pos (by omega)]
  · simp only [alertText,sizeSub_of_le (Nat.not_lt.mp hshort),hshort,iff_false,if_neg (show ¬ 2^63 ≤ length-4 by omega)]
    split <;> simp

/-- The datagrams at which the aggregator ends. -/
theorem logged_eq_none {data : List Byte} : logged data = none ↔
    12 ≤ data.length ∧ be32toh (data.take 4) = 101 ∧ be32toh ((data.drop 4).take 4) < 4 := by
  have hlength : be32toh ((data.drop 4).take 4) < 2^32 :=
    Nat.lt_of_lt_of_le (be32toh_lt _) (Nat.pow_le_pow_right (by omega : 0 < 256) (List.length_take_le 4 _))
  rw [logged]
  split
  · simp only [reduceCtorEq,false_iff]
    omega
  · split
    · split
      · simp only [reduceCtorEq,false_iff]
        omega
      · rw [Option.map_eq_none_iff, alertText_eq_none hlength]
        exact ⟨fun h => ⟨by omega, ‹_›, h⟩, fun h => h.2.2⟩
    · split <;> try split
      all_goals simp [*]

theorem thrown_foldl (messages : List (List Byte)) (journal : Journal) :
    (messages.foldl Journal.add journal).thrown = (journal.thrown || messages.any (fun m => (logged m).isNone)) := by
  induction messages generalizing journal with
  | nil => simp
  | cons m messages ih =>
    rw [List.foldl_cons, ih, List.any_cons, Journal.add]
    cases logged m <;> simp

/-- The length of an alert can be written down. -/
def Message.Fits : Message → Prop
  | .telemetry _ _ _ => True
  | .alert _ bytes => 4+bytes.length < 2^32

section fields
variable (x : UInt32) (rest : List Byte)

theorem take_htobe32 : be32toh ((htobe32 x ++ rest).take 4) = x.toNat := by
  rw [List.take_left' (length_htobe32 x), be32toh_htobe32]

theorem drop_htobe32 : (htobe32 x ++ rest).drop 4 = rest := List.drop_left' (length_htobe32 x)

end fields

/-- A packet is decoded to what it was made from. -/
theorem logged_packet {m : Message} (h : m.Fits) : logged m.packet = some [m.line] := by
  cases m with
  | telemetry sensorId temperature humidity =>
    have hlen : (Message.telemetry sensorId temperature humidity).packet.length = 20 := rfl
    have htype : be32toh ((Message.telemetry sensorId temperature humidity).packet.take 4) = 100 :=
      DemoApp.be32toh_type 100 12 _
    have hid : (Message.telemetry sensorId temperature humidity).packet.drop 8 =
        htobe32 sensorId ++ (htobe32 temperature ++ htobe32 humidity) := rfl
    have htemperature : (Message.telemetry sensorId temperature humidity).packet.drop 12 =
        htobe32 temperature ++ htobe32 humidity := rfl
    have hhumidity : (Message.telemetry sensorId temperature humidity).packet.drop 16 = htobe32 humidity ++ [] := rfl
    rw [logged, hlen, htype, hid, htemperature, hhumidity, take_htobe32, take_htobe32, take_htobe32]
    rfl
  | alert sensorId bytes =>
    have hlen : (Message.alert sensorId bytes).packet.length = 12+bytes.length := by
      simp only [Message.packet,List.length_append,DemoApp.length_header,length_htobe32]
      omega
    have htype : be32toh ((Message.alert sensorId bytes).packet.take 4) = 101 := DemoApp.be32toh_type 101 _ _
    have hid : (Message.alert sensorId bytes).packet.drop 8 = htobe32 sensorId ++ bytes := DemoApp.drop_header ..
    have htext : (Message.alert sensorId bytes).packet.drop 12 = bytes := by
      rw [show 12 = 8+4 from rfl, ← List.drop_drop, hid, drop_htobe32]
    have hlength : be32toh (((Message.alert sensorId bytes).packet.drop 4).take 4) = 4+bytes.length := by
      rw [Message.packet, DemoApp.header, List.append_assoc, drop_htobe32, take_htobe32, UInt32.toNat_ofNat',
        Nat.mod_eq_of_lt h]
    have hsmall : ¬ 2^63 ≤ bytes.length := by
      simp only [Message.Fits] at h
      omega
    rw [logged, hlen, htype, if_neg (by omega), if_pos rfl, if_neg (by omega), hlength, hid, htext, take_htobe32,
      sizeSub_of_le (Nat.le_add_right 4 _), Nat.add_sub_cancel_left, alertText, if_neg hsmall,
      if_pos (Nat.le_refl _), List.take_length]
    rfl

/-- Packets of the protocol are logged, and nothing is thrown. -/
theorem foldl_packets {ms : List (Message × Address)} (h : ∀ x ∈ ms, x.1.Fits) (journal : Journal) :
    (ms.map (·.1.packet)).foldl Journal.add journal = { journal with lines := journal.lines ++ ms.map (·.1.line) } := by
  induction ms generalizing journal with
  | nil => simp
  | cons x ms ih =>
    rw [List.map_cons, List.foldl_cons, ih (fun x hx => h x (List.mem_cons_of_mem _ hx)), Journal.add,
      logged_packet (h x List.mem_cons_self)]
    simp

section network
variable {σ : Type} {κ : σ → Type} {τ : Type} [DecidableEq τ]

/-- The aggregator, and the sensors. -/
abbrev Site (κ : σ → Type) : Option σ → Type
  | none => AppState Journal
  | some j => κ j

def configs (sensors : ∀ j, Config (κ j)) : ∀ i, Config (Site κ i)
  | none => aggregator.config
  | some j => sensors j

/-- The aggregator starts with an empty log. -/
def users : ∀ i, Site κ i → Prop
  | none, u => u = ⟨⟨[],false⟩,[]⟩
  | some _, _ => True

abbrev Network (κ : σ → Type) (τ : Type) : Type :=
  Medium.State (fun i => Endpoint (Site κ i) τ) (Packet (Option σ))

/-- The exception leaves `io_context::run` and its thread, which ends the process of the aggregator. -/
def siteStep (sensors : ∀ j, Config (κ j)) :
    ∀ i, Endpoint (Site κ i) τ → Event τ → Option (Endpoint (Site κ i) τ)
  | none, s, e => if s.user.user.thrown then none else Endpoint.step aggregator.config s e
  | some j, s, e => Endpoint.step (sensors j) s e

/-- The aggregator is an application, which the factory sets up and whose `send` names no target. -/
def SiteStep : ∀ i, Endpoint (Site κ i) τ → Event τ → Prop
  | none, s, e => Endpoint.HostStep s e ∧ aggregator.HostStep s e
  | some _, s, e => Endpoint.HostStep s e

def system (sensors : ∀ j, Config (κ j)) (layout : Layout (Option σ)) :
    Medium.System (fun i => Endpoint (Site κ i) τ) (Event τ) (Packet (Option σ)) :=
  { UdpNetwork.system (configs sensors) users layout with
    step := siteStep sensors
    ok := SiteStep }

variable {sensors : ∀ j, Config (κ j)} {layout : Layout (Option σ)}

theorem step_of_siteStep (sensors : ∀ j, Config (κ j)) (i : Option σ) {s t : Endpoint (Site κ i) τ} {e : Event τ}
    (h : siteStep sensors i s e = some t) : Endpoint.step (configs sensors i) s e = some t := by
  cases i with
  | none =>
    simp only [siteStep,Option.ite_none_left_eq_some] at h
    exact h.2
  | some j => exact h

theorem undirected_aggregator : aggregator.Undirected := by
  simp [RimApplication.Undirected,aggregator,Registration.handler,handleTelemetry,handleAlert]

/-- The aggregator sends nothing, and its handlers have made what is in its journal. -/
theorem aggregator_of_alone {s : Endpoint (AppState Journal) τ} (h : (system sensors layout).Alone none s) :
    Endpoint.Reached aggregator.config s ∧ aggregator.Addressed s ∧ Logged s.user (callbacks s.log) := by
  induction h with
  | start hi =>
    obtain ⟨u,rfl,rfl⟩ := hi
    refine ⟨.start ⟨_,rfl⟩, ⟨fun caller ticket ht => ?_, fun _ => ⟨rfl, fun _ => rfl⟩⟩, rfl⟩
    simp [Endpoint.initial,Pipeline.Store.fresh] at ht
  | next _ hok hs ih =>
    obtain ⟨hr,haddressed,hlogged⟩ := ih
    have hstep : Endpoint.step aggregator.config _ _ = some _ := step_of_siteStep sensors none hs
    exact ⟨.next hr trivial hstep, haddressed.step rfl undirected_aggregator hr hok.2 hstep,
      records.move hlogged (Endpoint.step_move hstep)⟩

variable [DecidableEq σ] {n : Network κ τ}

/-- The runs of the sensor network are runs of its hosts. -/
theorem reached_network (h : (system sensors layout).Reached n) :
    (UdpNetwork.system (configs sensors) users layout).Reached n := by
  have hok : ∀ i s e, (system (τ := τ) sensors layout).ok i s e → Endpoint.HostStep s e := by
    intro i s e hok
    cases i with
    | none => exact hok.1
    | some j => exact hok
  exact Medium.System.Reached.restrict (S := system sensors layout) (fun _ _ hi => hi)
    (fun i _ _ _ hs => step_of_siteStep sensors i hs) hok rfl rfl h

/-- The aggregator ends if, and only if, it gets an alert that declares less than the id of its sensor. -/
theorem aggregator_ends (h : (system sensors layout).Reached n) : (n.parts none).user.user.thrown = true ↔
    ∃ data ∈ callbacks (n.parts none).log,
      12 ≤ data.length ∧ be32toh (data.take 4) = 101 ∧ be32toh ((data.drop 4).take 4) < 4 := by
  obtain ⟨-,-,hlogged⟩ := aggregator_of_alone (h.alone none)
  rw [show (n.parts none).user.user = _ from hlogged, thrown_foldl]
  simp [logged_eq_none]

/-- As long as the sensors send nothing but packets of the protocol, the aggregator does not end, and every
line that it logs is what a sensor said, however the network loses, repeats and reorders them. -/
theorem aggregator_logs_packets (sensors : ∀ j, Config (κ j)) (layout : Layout (Option σ))
    (hk : ∀ j, (sensors j).kind = .udpEndpoint) (n : Network κ τ) (h : (system sensors layout).Reached n)
    (hsent : ∀ j caller, ∀ ticket ∈ (n.parts (some j)).out.sent caller, ∃ m : Message, m.Fits ∧
      ticket.request.data = m.packet) :
    (n.parts none).user.user.thrown = false ∧
    ∃ ms : List (Message × Address), datagrams (n.parts none).log = ms.map (fun x => (x.1.packet,x.2)) ∧
      (n.parts none).user.user.lines = ms.map (·.1.line) ∧
      ∀ x ∈ ms, ∃ j, layout.address (some j) = x.2 ∧ ∃ caller, ∃ ticket ∈ (n.parts (some j)).out.sent caller,
        ticket.request.data = x.1.packet ∧
        ∃ target, ticket.asked.target = some target ∧ layout.reaches target none = true := by
  have hkind : ∀ i, (configs sensors i).kind = .udpEndpoint := by
    intro i
    cases i with
    | none => rfl
    | some j => exact hk j
  have hnet := reached_network h
  obtain ⟨-,haddressed,hlogged⟩ := aggregator_of_alone (h.alone none)
  have hgenuine : ∀ d ∈ datagrams (n.parts none).log, ∃ x : Message × Address,
      (x.1.Fits ∧ ∃ j, layout.address (some j) = x.2 ∧ ∃ caller,
        ∃ ticket ∈ (n.parts (some j)).out.sent caller, ticket.request.data = x.1.packet ∧
        ∃ target, ticket.asked.target = some target ∧ layout.reaches target none = true) ∧
      (x.1.packet,x.2) = d := by
    intro d hd
    obtain ⟨-,⟨origin,item⟩,hp,hdata,hsender,target,htarget,hreach⟩ :=
      UdpNetwork.Reached.received hkind hnet rfl hd
    obtain ⟨caller,ticket,ht,hasked,hbuf,-⟩ := UdpNetwork.Reached.packets hkind hnet hp
    cases origin with
    | none => simp [(haddressed.server rfl).2 caller] at ht
    | some j =>
      obtain ⟨m,hm,hmdata⟩ := hsent j caller ticket ht
      refine ⟨(m,d.2), ⟨hm, j, hsender, caller, ticket, ht, hmdata, target, by rw [hasked, htarget], hreach⟩, ?_⟩
      rw [← hmdata, hbuf, hdata]
  obtain ⟨ms,hms,hall⟩ := exists_map_of_forall hgenuine
  have hjournal : (n.parts none).user.user = ⟨ms.map (·.1.line),false⟩ := by
    rw [show (n.parts none).user.user = _ from hlogged, (UdpNetwork.host_of_alone (hnet.alone none)).callbacks rfl rfl,
      hms, List.map_map]
    exact foldl_packets (fun x hx => (hall x hx).1) ⟨[],false⟩
  rw [hjournal]
  exact ⟨rfl, ms, hms, rfl, fun x hx => (hall x hx).2⟩

end network

/-- One sensor, which sends to port 9 of the aggregator. -/
def oneSensor : Layout (Option Unit) where
  address i := if i.isNone then ⟨5,9⟩ else ⟨1,2⟩
  reaches address i := i.isNone && address == ⟨5,9⟩

/-- Nothing is set up yet. -/
def switchedOn : Network (fun _ : Unit => Unit) Unit where
  parts
    | none => Endpoint.initial .udpEndpoint ⟨⟨[],false⟩,[]⟩
    | some _ => Endpoint.initial .udpEndpoint ()
  medium := []

/-- The alert with which sensor 3 takes its leave, received twice. -/
def lastAlert : List (Option Unit × Event Unit) :=
  [(none, .setup (.bind 9) .obliging), (none, .start), (some (), Endpoint.retarget ⟨5,9⟩),
    (some (), .send () ⟨(Message.alert 3 [104,105]).packet,.implicit⟩), (some (), .pop (some ())),
    (some (), .fill (some ())), (some (), .post (some ())), (some (), .run), (some (), .write 0 14),
    (none, .read 0 (Message.alert 3 [104,105]).packet ⟨1,2⟩), (none, .run), (none, .act true), (none, .act true),
    (none, .read 0 (Message.alert 3 [104,105]).packet ⟨1,2⟩), (none, .run), (none, .act true)]

/-- A test for the steps of the two. -/
def siteCheck : ∀ i : Option Unit, Endpoint (Site (fun _ : Unit => Unit) i) Unit → Event Unit → Bool
  | none, s, e => UdpNetwork.hostCheck s e && aggregator.hostCheck s e
  | some _, s, e => UdpNetwork.hostCheck s e

theorem siteStep_of_check (i : Option Unit) {s : Endpoint (Site (fun _ : Unit => Unit) i) Unit} {e : Event Unit}
    (h : siteCheck i s e = true) : SiteStep i s e := by
  cases i with
  | none =>
    rw [siteCheck, Bool.and_eq_true] at h
    exact ⟨UdpNetwork.hostStep_of_check h.1, RimApplication.hostStep_of_check h.2⟩
  | some _ => exact UdpNetwork.hostStep_of_check h

def afterLastAlert : Option (Network (fun _ : Unit => Unit) Unit) :=
  Transition.run (Transition.guarded (system (fun _ => .bare .udpEndpoint) oneSensor).move
    (fun n e => siteCheck e.1 (n.parts e.1) e.2)) switchedOn lastAlert

theorem aggregator_logs_packets_alert : ∃ n : Network (fun _ : Unit => Unit) Unit, afterLastAlert = some n ∧
    (system (fun _ => .bare .udpEndpoint) oneSensor).Reached n ∧
    (n.parts none).user.user = ⟨[.alert 3 (.bytes [104,105]), .alert 3 (.bytes [104,105])],false⟩ ∧
    ∃ ms : List (Message × Address), (n.parts none).user.user.lines = ms.map (·.1.line) ∧
      datagrams (n.parts none).log = ms.map (fun x => (x.1.packet,x.2)) := by
  have hlines : afterLastAlert.map (fun n => (n.parts none).user.user) =
      some ⟨[.alert 3 (.bytes [104,105]), .alert 3 (.bytes [104,105])],false⟩ := by decide +kernel
  have hsent : afterLastAlert.map (fun n => (((n.parts (some ())).out.sent none).map (·.request.data),
      ((n.parts (some ())).out.sent (some ())).map (·.request.data))) =
      some ([], [(Message.alert 3 [104,105]).packet]) := by decide +kernel
  obtain ⟨n,hn,hlines⟩ := Option.map_eq_some_iff.mp hlines
  rw [hn, Option.map_some, Option.some.injEq, Prod.mk.injEq] at hsent
  have hreach : (system (fun _ => .bare .udpEndpoint) oneSensor).Reached n := by
    have hstart : (system (fun _ : Unit => .bare .udpEndpoint) oneSensor).Reached switchedOn := by
      refine .start ⟨fun i => ?_, rfl⟩
      cases i with
      | none => exact ⟨⟨⟨[],false⟩,[]⟩, rfl, rfl⟩
      | some u => exact ⟨(), trivial, rfl⟩
    exact Transition.Reach.run_guarded (fun _ e hcheck => siteStep_of_check e.1 hcheck) hstart hn
  have hpackets : ∀ (j : Unit) caller, ∀ ticket ∈ (n.parts (some j)).out.sent caller, ∃ m : Message, m.Fits ∧
      ticket.request.data = m.packet := by
    intro j
    exact Endpoint.forall_sent (P := fun data => ∃ m : Message, m.Fits ∧ data = m.packet) hsent.1 hsent.2
      (by simpa using ⟨.alert 3 [104,105], by simp [Message.Fits], rfl⟩)
  obtain ⟨-,ms,hms,hall,-⟩ := aggregator_logs_packets (fun _ : Unit => .bare .udpEndpoint) oneSensor (fun _ => rfl) n
    hreach hpackets
  exact ⟨n, hn, hreach, hlines, ms, hall, hms⟩

end SensorNetwork

end Librim
