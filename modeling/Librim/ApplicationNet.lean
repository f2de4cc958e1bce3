import Librim.Application
import Librim.Channel
import Librim.LogFormat

/-! A `RimApplication` as the server of a connection: the requests of the client and the handlers
that run for them. -/

set_option autoImplicit false

namespace Librim

namespace RimApplication

variable {M κ α ι : Type} [DecidableEq M]

/-- Handlers that make `f kept data` of what they keep for a message `data`. -/
structure Folds (app : RimApplication M κ ι) (f : κ → List Byte → κ) : Prop where
  dispatch : ∀ kept data, (app.dispatcher.dispatch kept data).2.reply.user = f kept data
  connected : ∀ kept, (app.onClientConnected kept).1 = kept

theorem Folds.records {app : RimApplication M κ ι} {f : κ → List Byte → κ} (h : app.Folds f) (v : κ) :
    Records app.config (fun s messages => s.user = messages.foldl f v) where
  received := by
    intro callback hcb u ms m sender hu
    obtain rfl : app.onReceive = callback := by simpa [config] using hcb
    simp only [onReceive,h.dispatch,List.foldl_append,List.foldl_cons,List.foldl_nil] at hu ⊢
    rw [hu]
  connected := by
    intro u ms b hu
    cases b with
    | true => exact (h.connected u.user).trans hu
    | false => exact hu
  disconnected hu := hu

/-- Handlers that append `f data` to what they keep for a message `data`. -/
structure Appends (app : RimApplication M (List α) ι) (f : List Byte → List α) : Prop where
  dispatch : ∀ kept data, (app.dispatcher.dispatch kept data).2.reply.user = kept ++ f data
  connected : ∀ kept, (app.onClientConnected kept).1 = kept

theorem Appends.folds {app : RimApplication M (List α) ι} {f : List Byte → List α} (h : app.Appends f) :
    app.Folds (fun kept data => kept ++ f data) :=
  ⟨h.dispatch, h.connected⟩

theorem Appends.records {app : RimApplication M (List α) ι} {f : List Byte → List α} (h : app.Appends f) :
    Records app.config (fun s messages => s.user = messages.flatMap f) := by
  simpa only [List.flatMap_eq_foldl] using h.folds.records []

end RimApplication

namespace Net

open Endpoint

variable {κ₁ τ₁ M κ ι τ₂ : Type} [DecidableEq M] [DecidableEq τ₁] [DecidableEq τ₂]

/-- The server is a connection of `app`, whose handlers start in the state `v`. -/
abbrev Serves (client : Config κ₁) (app : RimApplication M κ ι) (v : κ) (n : Net κ₁ τ₁ (AppState κ) τ₂) :
    Prop :=
  Transition.Reachable (fun n₀ => ∃ u, n₀ = ⟨initial client.kind u, initial app.kind ⟨v,[]⟩⟩)
    (step client app.config) n

section serves
variable {client : Config κ₁} {app : RimApplication M κ ι} {v : κ} {n : Net κ₁ τ₁ (AppState κ) τ₂}

theorem Serves.reached (h : Serves client app v n) : Reached client app.config n := by
  refine h.weaken ?_
  rintro _ ⟨u,rfl⟩
  exact ⟨u,_,rfl⟩

/-- What the callbacks keep is kept by the connection between the other steps too. -/
theorem Serves.records {P : AppState κ → List (List Byte) → Prop} (hrec : Records app.config P)
    (h0 : P ⟨v,[]⟩ []) (h : Serves client app v n) : P n.server.user (callbacks n.server.log) := by
  refine Transition.Reach.invariant (fun n : Net κ₁ τ₁ (AppState κ) τ₂ =>
    P n.server.user (callbacks n.server.log)) ?_ ?_ h
  · rintro _ ⟨u,rfl⟩
    exact h0
  · intro m e n hi _ hs
    cases e with
    | client e =>
      simp only [step,Option.bind_eq_some_iff,Option.ite_none_right_eq_some,Option.some.injEq] at hs
      obtain ⟨s,hs,-,rfl⟩ := hs
      exact hi
    | server e =>
      simp only [step,Option.bind_eq_some_iff,Option.ite_none_right_eq_some,Option.some.injEq] at hs
      obtain ⟨s,hs,-,rfl⟩ := hs
      exact hrec.move hi (step_move hs)

end serves

/-- All that the client has queued was written, read and processed. -/
structure Processed (n : Net κ₁ τ₁ (AppState κ) τ₂) : Prop where
  written : n.client.out.wire = n.client.payloads.flatten
  read : n.server.stream = n.client.out.wire
  settled : n.server.Settled

theorem Serves.carried {client : Config κ₁} {app : RimApplication M κ ι} {v : κ}
    {n : Net κ₁ τ₁ (AppState κ) τ₂} (hclient : client.kind = .tcpClient) (htcp : app.protocol = .tcp)
    (hrole : app.role = .server) (h : Serves client app v n)
    (honce : n.client.ConnectedOnce)
    (hframed : ∀ caller, ∀ ticket ∈ n.client.out.sent caller, app.framing.WellFramed ticket.request.data) :
    Carried n.client n.server := by
  have hkind : app.config.kind = .tcpConnection := by
    simp only [RimApplication.config,RimApplication.kind,htcp,hrole]
  exact h.reached.linked.forth hclient hkind app.getExtractor.sizeofHeader_pos rfl honce hframed

/-- The handlers run for the requests of the client in the order in which they were queued: at
any moment for the first of them, and in the end for all. What the handlers do to the
bytes they are given makes no difference. -/
theorem handlers_run (client : Config κ₁) (app : RimApplication M κ ι) (v : κ)
    (hclient : client.kind = .tcpClient) (htcp : app.protocol = .tcp) (hrole : app.role = .server)
    (n : Net κ₁ τ₁ (AppState κ) τ₂) (h : Serves client app v n)
    (honce : n.client.ConnectedOnce)
    (hframed : ∀ caller, ∀ ticket ∈ n.client.out.sent caller, app.framing.WellFramed ticket.request.data) :
    n.server.user.ran <+:
      n.client.payloads.flatMap (MessageDispatcher.requested app.getExtractor app.setupHandlers) ∧
    (n.Processed → n.server.user.ran =
      n.client.payloads.flatMap (MessageDispatcher.requested app.getExtractor app.setupHandlers)) := by
  have hcarried := h.carried hclient htcp hrole honce hframed
  have hran : n.server.user.ran = _ := h.records app.records rfl
  rw [hran]
  constructor
  · obtain ⟨later,hlater⟩ := hcarried.ordered
    rw [← hlater, List.flatMap_append]
    exact List.prefix_append _ _
  · intro hall
    rw [hcarried.whole hall.written hall.read hall.settled]

/-- A client of `app` that does not look at what it gets. -/
def asking (app : RimApplication M κ ι) : Config Unit :=
  { Config.bare .tcpClient with framing := app.framing, onRecv := some passive }

/-- The two are connected, and the handlers are in the state `v`. -/
def served (v : κ) : Net Unit Unit (AppState κ) Unit where
  client := established.client
  server := { (initial .tcpConnection ⟨v,[]⟩ : Endpoint (AppState κ) Unit) with
    boot := .done
    reads := [⟨1,0,65536⟩]
    log := [(0,.read 1)] }

theorem serves_served (app : RimApplication M κ ι) (htcp : app.protocol = .tcp) (hrole : app.role = .server)
    (v : κ) : Serves (asking app) app v (served v) := by
  have hrun : Transition.run (step (asking app) app.config)
      ⟨initial .tcpClient (), initial app.kind ⟨v,[]⟩⟩
      [.client (.connect (.ok 0) true), .client (.connectDone 0 false false), .client .run,
        .client (.act true), .client (.act true), .server .start, .server .start] = some (served v) := by
    simp [step,Endpoint.step,Core.connect,asking,Config.bare,initial,Core.initial,Core.reopen,withCore,
      Socket.close,Socket.reopen,Socket.closed,Socket.accepted,Core.connectDone,Core.live,notify,idle,
      runHandler,Core.handle,Core.onConnected,Core.emit,act,Endpoint.perform,Core.perform,
      Core.resetReadTimeout,Core.startReceive,Core.start,Core.descriptor,Core.stream,
      Window.startReceive_initial,Window.offered_initial,show Window.initial.activeBytes = 0 from rfl,
      served,established,joinedClient,Pipeline.Store.fresh,RimApplication.config,RimApplication.kind,htcp,hrole]
  exact Transition.reachable_run (.start ⟨(),rfl⟩) hrun

/-- The client sends `data`, and all of it is written and read. -/
def request (data : List Byte) : List (Event Unit Unit) :=
  ([.send () ⟨data,.implicit⟩, .pop (some ()), .fill (some ()), .post (some ()), .run,
    .write 0 data.length].map .client) ++
  ([.read 0 data ⟨0,0⟩, .run, .act true, .act true].map .server)

def afterRequest : Option (Net Unit Unit (AppState Unit) Unit) :=
  Transition.run (step (asking (RimApplication.demo .server .tcp RimApplication.swapHeader))
    (RimApplication.demo .server .tcp RimApplication.swapHeader).config) (served ()) (request [0,0,0,1,0,0,0,1,9])

theorem handlers_run_demo : ∃ n : Net Unit Unit (AppState Unit) Unit,
    Serves (asking (RimApplication.demo .server .tcp RimApplication.swapHeader))
      (RimApplication.demo .server .tcp RimApplication.swapHeader) () n ∧
    n.server.user.ran = [⟨7,[0,0,0,1,0,0,0,1],[9]⟩] := by
  have hclient : afterRequest.map (fun n =>
      (connections n.client.log, n.client.socket.conn, n.client.payloads, n.client.out.wire)) =
      some ([1], 1, [[0,0,0,1,0,0,0,1,9]], [0,0,0,1,0,0,0,1,9]) := by decide +kernel
  have hsent : afterRequest.map (fun n => ((n.client.out.sent none).map (·.request.data),
      (n.client.out.sent (some ())).map (·.request.data))) =
      some ([], [[0,0,0,1,0,0,0,1,9]]) := by decide +kernel
  have hserver : afterRequest.map (fun n => (n.server.stream, n.server.ready.length, n.server.running)) =
      some ([0,0,0,1,0,0,0,1,9], 0, .program [.resetReadTimeout 1, .startReceive 1]) := by decide +kernel
  obtain ⟨n,hn,hclient⟩ := Option.map_eq_some_iff.mp hclient
  rw [hn, Option.map_some, Option.some.injEq] at hsent hserver
  simp only [Prod.mk.injEq] at hclient hsent hserver
  obtain ⟨hconn,hsocket,hpay,hwire⟩ := hclient
  obtain ⟨hnone,hsome⟩ := hsent
  obtain ⟨hstream,hready,hidle⟩ := hserver
  have hserves := Transition.reachable_run
    (serves_served (RimApplication.demo .server .tcp RimApplication.swapHeader) rfl rfl ()) hn
  have hframed : ∀ caller, ∀ ticket ∈ n.client.out.sent caller,
      (RimApplication.demo .server .tcp RimApplication.swapHeader).framing.WellFramed ticket.request.data :=
    forall_sent hnone hsome (by decide)
  obtain ⟨-,hall⟩ := handlers_run (asking (RimApplication.demo .server .tcp RimApplication.swapHeader))
    (RimApplication.demo .server .tcp RimApplication.swapHeader) () rfl rfl rfl n hserves
    (.inr (by rw [hconn, hsocket])) hframed
  refine ⟨n, hserves, ?_⟩
  rw [hall ⟨by rw [hwire, hpay]; rfl, hstream.trans hwire.symm, ⟨?_, ?_⟩⟩, hpay]
  · decide
  · simp [notices,List.length_eq_zero_iff.mp hready]
  · simp [hidle,Running.acts]

end Net

end Librim
