import Librim.TcpLoop
import Librim.StrandProgress
import Librim.Foundation.PipelineRest

/-! When nothing moves any more between a client and its connection, all that was sent has been
delivered, unless a callback waits for a buffer. -/

set_option autoImplicit false

namespace Librim

open Pipeline (Wired Working)

variable {κ τ : Type}

/-- What calls in progress, the strand and the system do of their own accord, as long as nothing fails:
no new call, no expiry, and no operation without effect. -/
def Event.moves : Event τ → Bool
  | .pop _ | .fill _ | .post _ | .run | .act _ => true
  | .write _ n => 0 < n
  | .writeDone _ failed => !failed
  | .read _ data _ => !data.isEmpty
  | _ => false

def Event.isRead : Event τ → Bool
  | .read _ _ _ => true
  | _ => false

namespace Endpoint

variable [DecidableEq τ] {cfg : Config κ} {s : Endpoint κ τ}

/-- Nothing moves at this end, whatever there may be to read. -/
def Still (cfg : Config κ) (s : Endpoint κ τ) : Prop :=
  ∀ e, e.moves = true → e.isRead = false → step cfg s e = none

section still
variable (h : Still cfg s)
include h

/-- A call that is still in progress waits for a buffer, and there is none. -/
theorem Still.caller (caller : Option τ) : s.out.pc caller = .idle ∨
    s.out.pool = [] ∧ ∃ ticket, s.out.pc caller = .waiting ticket := by
  cases hpc : s.out.pc caller with
  | idle => exact .inl rfl
  | waiting ticket =>
    refine .inr ⟨?_, ticket, rfl⟩
    by_contra hpool
    obtain ⟨b,rest,hpool⟩ := List.exists_cons_of_ne_nil hpool
    have hpop : s.out.pop caller = some _ := Pipeline.Store.pop_eq_some.mpr ⟨ticket,b,rest,hpc,hpool,rfl⟩
    have hnone := h (.pop caller) rfl rfl
    simp [step,hpop] at hnone
  | holding b ticket =>
    have hnone := h (.fill caller) rfl rfl
    simp [step,fill,hpc] at hnone
  | filled b ticket =>
    have hnone := h (.post caller) rfl rfl
    simp [step,post,hpc] at hnone

theorem Still.slot (caller : Option τ) : (s.out.pc caller).slot = none := by
  rcases h.caller caller with hpc | ⟨-,ticket,hpc⟩
  · rw [hpc]; rfl
  · rw [hpc]; rfl

/-- The strand has nothing to do, or a callback waits. -/
theorem Still.strand (hpc : s.out.pc none = .idle) : s.running = .program [] ∧ s.ready = [] := by
  have hrun : s.running = .program [] := by
    have hnone := h (.act true) rfl rfl
    simp only [step,act,hpc,↓reduceIte] at hnone
    split at hnone <;> simp_all
  refine ⟨hrun, ?_⟩
  have hnone := h .run rfl rfl
  cases hready : s.ready with
  | nil => rfl
  | cons x rest => simp [step,hready,idle,hrun,hpc] at hnone

/-- The system takes what there is to write. -/
theorem Still.writes (hk : cfg.kind ≠ .udpEndpoint)
    (hworking : Working Item.buf s.socket.conn s.pipeline) (hopen : s.socket.isOpen = true) :
    s.out.writes = [] := by
  by_contra hne
  obtain ⟨w,rest,hw⟩ := List.exists_cons_of_ne_nil hne
  have hi : s.out.writes[0]? = some w := by simp [hw]
  obtain ⟨hsession,hmore | hdone⟩ := hworking.of_write (Nat.le_refl _) (List.mem_of_getElem? hi)
  · have hlive : s.live w.session = true := by simp [Core.live,hopen,show w.session = s.socket.conn from hsession]
    have hprogress : s.out.progress Item.buf 0 1 = some _ :=
      Pipeline.Store.progress_eq_some.mpr ⟨w,hi,hmore,rfl⟩
    have hnone := h (.write 0 1) rfl rfl
    simp [step,Endpoint.write,hi,hlive,hk,hprogress] at hnone
  · have hnone := h (.writeDone 0 false) rfl rfl
    have hall : w.written = (s.out.data Item.buf w).length := hdone
    simp [step,writeDone,hi,hall] at hnone

end still

/-- Before the connection `first` nothing was sent. What excludes that may be known at the end of a run
only. -/
theorem Reached.working {first : Nat} (I : Endpoint κ τ → Prop) (hback : ∀ s e t, step cfg s e = some t → I t → I s)
    (hwired : ∀ s, Reached cfg s → I s → Wired Item.buf first s.pipeline) (h : Reached cfg s) (hi : I s) :
    Working Item.buf first s.pipeline := by
  induction h with
  | start hs =>
    obtain ⟨u,rfl⟩ := hs
    exact ⟨fun _ _ => .inl rfl, fun _ => ⟨by simp [pipeline,initial,Pipeline.Store.fresh], by simp [pipeline,initial]⟩,
      by simp [pipeline,initial,Pipeline.Store.fresh]⟩
  | @next s t e hr _ hs ih =>
    have hi' := hback s e t hs hi
    have hsound : Sound cfg s := Reached.sound hr
    rcases step_simulates hs with heq | ⟨l,hl,-,-,-⟩
    · exact heq ▸ ih hi'
    · exact (ih hi').step hsound.owned hsound.serial (hwired s hr hi') hl

theorem Reached.working_tcpConnection (hk : cfg.kind = .tcpConnection) (h : Reached cfg s) :
    Working Item.buf 1 s.pipeline :=
  Reached.working (fun _ => True) (fun _ _ _ _ _ => trivial) (fun _ hr _ => hr.wired_tcpConnection hk) h trivial

theorem Reached.working_tcpClient (hk : cfg.kind = .tcpClient) (h : Reached cfg s) {first : Nat}
    (hfirst : ∀ j ∈ connections s.log, first ≤ j) : Working Item.buf first s.pipeline := by
  refine Reached.working (fun s => ∀ j ∈ connections s.log, first ≤ j) ?_ (fun _ hr hi => hr.wired_tcpClient hk hi)
    h hfirst
  intro s e t hs ht j hj
  exact ht j ((connections_mono (step_move hs).log_extends).subset hj)

/-- One end at rest: what was accepted from any thread is on the wire, in the order in which it was queued. -/
structure AtRest (s : Endpoint κ τ) : Prop where
  running : s.running = .program []
  ready : s.ready = []
  wire : s.out.wire = s.payloads.flatten
  sent : ∀ caller, (s.out.sent caller).map (·.request.data) =
    (s.out.entered.filter (·.1 = caller)).map (·.2.buf)

theorem AtRest.settled (h : s.AtRest) : s.Settled :=
  ⟨by simp [notices,h.ready], by simp [h.running,Running.acts]⟩

section atRest
variable (hk : cfg.kind ≠ .udpEndpoint) (h : Reached cfg s) (hstill : Still cfg s)
  (hwired : Wired Item.buf s.socket.conn s.pipeline) (hworking : Working Item.buf s.socket.conn s.pipeline)
  (hopen : s.socket.isOpen = true)
include hk h hstill hwired hworking hopen

theorem Still.exhausted (hpc : s.out.pc none = .idle) :
    s.running = .program [] ∧ s.ready = [] ∧ s.out.queue = [] ∧ s.out.wire = s.payloads.flatten := by
  obtain ⟨hrun,hready⟩ := hstill.strand hpc
  obtain ⟨hqueue,hwire⟩ := hworking.exhausted hwired h.sound.flow (Nat.le_refl _) hopen
    (by simp [pipeline,hrun,Running.phase]) (by simp [pipeline,hready]) (hstill.writes hk hworking hopen)
  have hflat : s.out.wire = (s.out.entered.map Prod.snd).flatMap Item.buf := hwire
  exact ⟨hrun, hready, hqueue, by rw [hflat, payloads_flatten]⟩

theorem Still.atRest (hidle : ∀ caller, s.out.pc caller = .idle) : s.AtRest := by
  obtain ⟨hrun,hready,-,hwire⟩ := hstill.exhausted hk h hwired hworking hopen (hidle none)
  refine ⟨hrun, hready, hwire, fun caller => ?_⟩
  have hposted : s.pipeline.posted = [] := by simp [Pipeline.State.posted,pipeline,hready]
  exact (h.entered_eq hk hposted (by rw [hidle caller, Pipeline.Pc.pending])).symm

/-- As long as no buffer was deleted, only a callback can be in want of one. -/
theorem Still.idle (hkept : s.out.deleted = []) (hstarved : ¬ s.Starved) (caller : Option τ) :
    s.out.pc caller = .idle := by
  have hpc : s.out.pc none = .idle := (hstill.caller none).resolve_right hstarved
  obtain ⟨-,hready,hqueue,-⟩ := hstill.exhausted hk h hwired hworking hopen hpc
  have hpool : s.out.pool ≠ [] := h.sound.owned.pool_ne_nil (by decide) hstill.slot (by simp [pipeline,hready])
    hqueue hkept
  exact (hstill.caller caller).resolve_right (fun hwait => hpool hwait.1)

end atRest

end Endpoint

open Endpoint

namespace Net

variable {κ₁ τ₁ κ₂ τ₂ : Type}

def Event.moves : Event τ₁ τ₂ → Bool
  | .client e => e.moves
  | .server e => e.moves

variable [DecidableEq τ₁] [DecidableEq τ₂]

/-- All that either end has accepted was passed to the callback of the other. -/
structure Drained (n : Net κ₁ τ₁ κ₂ τ₂) : Prop where
  toServer : callbacks n.server.log = n.client.payloads
  toClient : callbacks n.client.log = n.server.payloads
  client : ∀ caller, (n.client.out.sent caller).map (·.request.data) =
    (n.client.out.entered.filter (·.1 = caller)).map (·.2.buf)
  server : ∀ caller, (n.server.out.sent caller).map (·.request.data) =
    (n.server.out.entered.filter (·.1 = caller)).map (·.2.buf)

/-- Nothing moves between the two ends. -/
def Stuck (client : Config κ₁) (server : Config κ₂) (n : Net κ₁ τ₁ κ₂ τ₂) : Prop :=
  ∀ e, e.moves = true → step client server n e = none

theorem stream_of_not_read {cfg : Config κ} [DecidableEq τ] {s t : Endpoint κ τ} {e : Librim.Event τ}
    (hs : Endpoint.step cfg s e = some t) (he : e.isRead = false) : t.stream = s.stream := by
  rcases (step_move hs).arrived with heq | ⟨i,data,sender,conn,rfl,-⟩
  · simp only [Core.stream,heq]
  · simp [Event.isRead] at he

theorem stream_of_read {cfg : Config κ} [DecidableEq τ] {s t : Endpoint κ τ} {i : Nat} {data : List Byte}
    {sender : Address} (hs : Endpoint.step cfg s (.read i data sender) = some t) :
    t.stream = s.stream ++ data := by
  simp only [Endpoint.step,Option.map_eq_some_iff] at hs
  obtain ⟨x,hx,rfl⟩ := hs
  obtain ⟨r,-,-,-,-,rfl⟩ := Core.read_eq_some.mp hx
  simp [Core.stream,notify]

section stuck
variable {client : Config κ₁} {server : Config κ₂} {n : Net κ₁ τ₁ κ₂ τ₂}

theorem Stuck.still (h : Stuck client server n) (hlinked : Linked client server n) :
    Still client n.client ∧ Still server n.server := by
  constructor
  · intro e hmoves hread
    by_contra hne
    obtain ⟨s,hs⟩ := Option.ne_none_iff_exists'.mp hne
    have hpre : s.stream <+: n.server.out.wire := stream_of_not_read hs hread ▸ hlinked.toClient
    have hnone := h (.client e) hmoves
    simp [step,hs,hpre] at hnone
  · intro e hmoves hread
    by_contra hne
    obtain ⟨s,hs⟩ := Option.ne_none_iff_exists'.mp hne
    have hpre : s.stream <+: n.client.out.wire := stream_of_not_read hs hread ▸ hlinked.toServer
    have hnone := h (.server e) hmoves
    simp [step,hs,hpre] at hnone

theorem exists_next_of_prefix {α : Type} {l m : List α} (h : l <+: m) (hne : l ≠ m) :
    ∃ a, l ++ [a] <+: m := by
  obtain ⟨rest,rfl⟩ := h
  cases rest with
  | nil => exact absurd (List.append_nil l).symm hne
  | cons a rest => exact ⟨a, rest, by simp⟩

/-- An end that waits for bytes has read all there are. -/
theorem Stuck.read (h : Stuck client server n) (hlinked : Linked client server n)
    (hc : ∀ b sender, ∃ s, Endpoint.step client n.client (.read 0 [b] sender) = some s)
    (hs : ∀ b sender, ∃ s, Endpoint.step server n.server (.read 0 [b] sender) = some s) :
    n.client.stream = n.server.out.wire ∧ n.server.stream = n.client.out.wire := by
  constructor
  · by_contra hne
    obtain ⟨b,hpre⟩ := exists_next_of_prefix hlinked.toClient hne
    obtain ⟨s,hread⟩ := hc b ⟨0,0⟩
    have hnone := h (.client (.read 0 [b] ⟨0,0⟩)) rfl
    simp [step,hread,stream_of_read hread,hpre] at hnone
  · by_contra hne
    obtain ⟨b,hpre⟩ := exists_next_of_prefix hlinked.toServer hne
    obtain ⟨s,hread⟩ := hs b ⟨0,0⟩
    have hnone := h (.server (.read 0 [b] ⟨0,0⟩)) rfl
    simp [step,hread,stream_of_read hread,hpre] at hnone

end stuck

/-- What two ends at rest have said to each other. -/
theorem Stuck.drained {client : Config κ₁} {server : Config κ₂} {n : Net κ₁ τ₁ κ₂ τ₂}
    (hclient : client.kind = .tcpClient) (hserver : server.kind = .tcpConnection)
    (hframing : server.framing = client.framing) (hf : 1 ≤ client.framing.headerSize)
    (hcb : client.onRecv.isSome = true) (hcb' : server.onRecv.isSome = true) (hlinked : Linked client server n)
    (hproper : Proper client.framing n) (hjoined : connections n.client.log = [n.client.socket.conn])
    (hstarted : n.server.boot = .done) (hopen : n.client.socket.isOpen = true)
    (hopen' : n.server.socket.isOpen = true) (hstuck : Stuck client server n) (hrest : n.client.AtRest)
    (hrest' : n.server.AtRest) : n.Drained := by
  obtain ⟨hread,hread'⟩ := hstuck.read hlinked
    (fun b sender => hlinked.client.takes (by simp [hclient]) (by simp [Joined,hclient,hjoined]) hopen hrest.running
      hrest.ready (by simp) (by simp) sender)
    (fun b sender => hlinked.server.takes (by simp [hserver]) (by simp [Joined,hserver,hstarted]) hopen'
      hrest'.running hrest'.ready (by simp) (by simp) sender)
  exact ⟨(hlinked.there hclient hserver hframing hf hcb' hproper.once hproper.client).whole hrest.wire hread'
      hrest'.settled,
    (hlinked.back hclient hserver hf hcb hproper.once hproper.server).whole hrest'.wire hread hrest.settled,
    hrest.sent, hrest'.sent⟩

/-- The pipelines of the two ends of one connection. -/
theorem Linked.piped {client : Config κ₁} {server : Config κ₂} {n : Net κ₁ τ₁ κ₂ τ₂} (h : Linked client server n)
    (hclient : client.kind = .tcpClient) (hserver : server.kind = .tcpConnection)
    (hjoined : connections n.client.log = [n.client.socket.conn]) :
    (Wired Item.buf n.client.socket.conn n.client.pipeline ∧
      Working Item.buf n.client.socket.conn n.client.pipeline) ∧
    Wired Item.buf n.server.socket.conn n.server.pipeline ∧
      Working Item.buf n.server.socket.conn n.server.pipeline := by
  have hfirst : ∀ j ∈ connections n.client.log, n.client.socket.conn ≤ j := by simp [hjoined]
  have hconn := h.server.conn_eq_one hserver
  exact ⟨⟨h.client.wired_tcpClient hclient hfirst, h.client.working_tcpClient hclient hfirst⟩,
    hconn ▸ h.server.wired_tcpConnection hserver, hconn ▸ h.server.working_tcpConnection hserver⟩

/-- A client and its connection, both open, that cannot move any more have delivered to each other all
that their threads and callbacks have sent, unless a callback of one of them waits in `send` for a
buffer and there is none. -/
theorem stuck_drained (client : Config κ₁) (server : Config κ₂) (hclient : client.kind = .tcpClient)
    (hserver : server.kind = .tcpConnection) (hframing : server.framing = client.framing)
    (hf : 1 ≤ client.framing.headerSize) (hcb : client.onRecv.isSome = true)
    (hcb' : server.onRecv.isSome = true) (n : Net κ₁ τ₁ κ₂ τ₂) (h : Reached client server n)
    (hproper : Proper client.framing n) (hjoined : connections n.client.log = [n.client.socket.conn])
    (hstarted : n.server.boot = .done) (hopen : n.client.socket.isOpen = true)
    (hopen' : n.server.socket.isOpen = true) (hkept : n.client.out.deleted = [])
    (hkept' : n.server.out.deleted = []) (hstuck : Stuck client server n) :
    n.Drained ∨ n.client.Starved ∨ n.server.Starved := by
  have hlinked := h.linked
  obtain ⟨hstill,hstill'⟩ := hstuck.still hlinked
  obtain ⟨⟨hwired,hworking⟩,hwired',hworking'⟩ := hlinked.piped hclient hserver hjoined
  have htcp : client.kind ≠ .udpEndpoint := by simp [hclient]
  have htcp' : server.kind ≠ .udpEndpoint := by simp [hserver]
  by_cases hstarved : n.client.Starved
  · exact .inr (.inl hstarved)
  by_cases hstarved' : n.server.Starved
  · exact .inr (.inr hstarved')
  have hidle := hstill.idle htcp hlinked.client hwired hworking hopen hkept hstarved
  have hidle' := hstill'.idle htcp' hlinked.server hwired' hworking' hopen' hkept' hstarved'
  exact .inl (hstuck.drained hclient hserver hframing hf hcb hcb' hlinked hproper hjoined hstarted hopen hopen'
    (hstill.atRest htcp hlinked.client hwired hworking hopen hidle)
    (hstill'.atRest htcp' hlinked.server hwired' hworking' hopen' hidle'))

/-- An end with no call in progress, no handler to run and nothing to write. -/
structure Quiet {κ τ : Type} (s : Endpoint κ τ) : Prop where
  calls : ∀ caller, s.out.pc caller = .idle
  running : s.running = .program []
  ready : s.ready = []
  writes : s.out.writes = []

theorem Quiet.still {κ τ : Type} [DecidableEq τ] {cfg : Config κ} {s : Endpoint κ τ} (h : Quiet s) : Still cfg s := by
  intro e hmoves hread
  cases e with
  | pop caller => simp [Endpoint.step,Pipeline.Store.pop,h.calls]
  | fill caller => simp [Endpoint.step,Endpoint.fill,h.calls]
  | post caller => simp [Endpoint.step,Endpoint.post,h.calls]
  | run => simp [Endpoint.step,h.ready]
  | act kept => simp [Endpoint.step,Endpoint.act,h.running]
  | write i n => simp [Endpoint.step,Endpoint.write,h.writes]
  | writeDone i failed => simp [Endpoint.step,writeDone,h.writes]
  | read i data sender => simp [Event.isRead] at hread
  | _ => simp [Librim.Event.moves] at hmoves

theorem not_prefix_append {data stream : List Byte} (hne : data ≠ []) : ¬ stream ++ data <+: stream := by
  intro hpre
  have hlen := hpre.length_le
  have hpos := List.length_pos_of_ne_nil hne
  rw [List.length_append] at hlen
  omega

/-- A quiet end that has read all of `wire` does not move on that channel. -/
theorem Quiet.refuses {κ τ β : Type} [DecidableEq τ] {cfg : Config κ} {s : Endpoint κ τ} (h : Quiet s)
    {wire : List Byte} (hread : s.stream = wire) {e : Librim.Event τ} (hmoves : e.moves = true)
    (f : Endpoint κ τ → β) :
    (Endpoint.step cfg s e).bind (fun t => if t.stream <+: wire then some (f t) else none) = none := by
  cases hisRead : e.isRead with
  | false => rw [h.still e hmoves hisRead, Option.bind_none]
  | true =>
    cases e with
    | read i data sender =>
      have hne : data ≠ [] := by simpa [Librim.Event.moves] using hmoves
      rw [Option.bind_eq_none_iff]
      intro t ht
      rw [if_neg]
      rw [stream_of_read ht, ← hread]
      exact not_prefix_append hne
    | _ => simp [Librim.Event.isRead] at hisRead

/-- Two quiet ends that have read everything are stuck. -/
theorem stuck_of_quiet {client : Config κ₁} {server : Config κ₂} {n : Net κ₁ τ₁ κ₂ τ₂} (hc : Quiet n.client)
    (hs : Quiet n.server) (hread : n.client.stream = n.server.out.wire)
    (hread' : n.server.stream = n.client.out.wire) : Stuck client server n := by
  intro e hmoves
  cases e with
  | client e => exact hc.refuses hread hmoves _
  | server e => exact hs.refuses hread' hmoves _

/-- Both payloads are written, read and processed. -/
def toTheEnd : List (Event Unit Unit) :=
  twoPayloads ++ [.client (.writeDone 0 false), .client .run, .client (.act true), .client (.act true),
    .server (.act true), .server (.act true)]

def afterTheEnd : Option (Net Unit Unit Unit Unit) :=
  Transition.run (step (listening .tcpClient) (listening .tcpConnection)) established toTheEnd

theorem stuck_drained_two : ∃ n : Net Unit Unit Unit Unit,
    Reached (listening .tcpClient) (listening .tcpConnection) n ∧
    n.client.payloads = [[0,0,0,5,9],[0,0,0,4]] ∧ n.Drained := by
  have hclient : afterTheEnd.map (fun n => (n.client.out.pc none, n.client.out.pc (some ()), n.client.running,
      n.client.ready.length, n.client.out.writes)) = some (.idle, .idle, .program [], 0, []) := by decide +kernel
  have hserver : afterTheEnd.map (fun n => (n.server.out.pc none, n.server.out.pc (some ()), n.server.running,
      n.server.ready.length, n.server.out.writes)) = some (.idle, .idle, .program [], 0, []) := by decide +kernel
  have hstreams : afterTheEnd.map (fun n => (n.client.stream, n.server.out.wire, n.server.stream, n.client.out.wire)) =
      some ([], [], [0,0,0,5,9,0,0,0,4], [0,0,0,5,9,0,0,0,4]) := by decide +kernel
  have hlog : afterTheEnd.map (fun n => (connections n.client.log, n.client.socket.conn, n.client.socket.isOpen,
      n.server.socket.isOpen)) = some ([1], 1, true, true) := by decide +kernel
  have hkept : afterTheEnd.map (fun n => (n.server.boot, n.client.out.deleted, n.server.out.deleted,
      n.client.payloads)) = some (.done, [], [], [[0,0,0,5,9],[0,0,0,4]]) := by decide +kernel
  have hsent : afterTheEnd.map (fun n => ((n.client.out.sent none).map (·.request.data),
      (n.client.out.sent (some ())).map (·.request.data), (n.server.out.sent none).map (·.request.data),
      (n.server.out.sent (some ())).map (·.request.data))) =
      some ([], [[0,0,0,5,9],[0,0,0,4]], [], []) := by decide +kernel
  obtain ⟨n,hn,hclient⟩ := Option.map_eq_some_iff.mp hclient
  rw [hn, Option.map_some, Option.some.injEq] at hserver hstreams hlog hkept hsent
  simp only [Prod.mk.injEq,List.length_eq_zero_iff] at hclient hserver hstreams hlog hkept hsent
  obtain ⟨hown,hthread,hrun,hready,hwrites⟩ := hclient
  obtain ⟨hown',hthread',hrun',hready',hwrites'⟩ := hserver
  obtain ⟨hstream,hwire,hstream',hwire'⟩ := hstreams
  obtain ⟨hconn,hsocket,hopen,hopen'⟩ := hlog
  obtain ⟨hboot,hdeleted,hdeleted',hpay⟩ := hkept
  obtain ⟨hnone,hsome,hnone',hsome'⟩ := hsent
  have hreach : Reached (listening .tcpClient) (listening .tcpConnection) n :=
    Transition.reachable_run reached_established hn
  have hjoined : connections n.client.log = [n.client.socket.conn] := by rw [hconn, hsocket]
  have hproper : Proper readmeFraming n :=
    ⟨.inr hjoined, forall_sent hnone hsome (by decide), forall_sent hnone' hsome' (by decide)⟩
  have hquiet : Quiet n.client := ⟨fun caller => by cases caller <;> assumption, hrun, hready, hwrites⟩
  have hquiet' : Quiet n.server := ⟨fun caller => by cases caller <;> assumption, hrun', hready', hwrites'⟩
  refine ⟨n, hreach, hpay, ?_⟩
  rcases stuck_drained (listening .tcpClient) (listening .tcpConnection) rfl rfl rfl (by decide) rfl rfl n hreach
    hproper hjoined hboot hopen hopen' hdeleted hdeleted'
    (stuck_of_quiet hquiet hquiet' (hstream.trans hwire.symm) (hstream'.trans hwire'.symm)) with
    hdrained | ⟨-,ticket,hwaits⟩ | ⟨-,ticket,hwaits⟩
  · exact hdrained
  · simp [hown] at hwaits
  · simp [hown'] at hwaits

end Net

end Librim
