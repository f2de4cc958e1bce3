import Librim.Endpoint
import Librim.Foundation.PipelineWire

/-! Every step of an endpoint is a step of the send pipeline, or one that the pipeline does
not see. -/

set_option autoImplicit false

namespace Librim

open Pipeline (Store Write Phase Job Label)

variable {κ τ : Type}

def Handler.job : Handler τ → Option (Job (Option τ))
  | .enqueue caller b => some (.enqueue caller b)
  | .wrote w failed => some (.written w failed)
  | .notice _ => none

def Running.phase : Running → Phase
  | .releasing left failed => .releasing left failed
  | .program _ => .idle

namespace Core

/-- What can happen to the descriptor in one step: nothing, it is closed, or a new one is
opened. -/
def Shift (c c' : Core κ) : Prop :=
  (c'.socket.isOpen = c.socket.isOpen ∧ c'.socket.conn = c.socket.conn) ∨
    (c'.socket.isOpen = false ∧ c'.socket.conn = c.socket.conn) ∨
    (c'.socket.isOpen = true ∧ c'.socket.conn = c.socket.conn+1)

theorem Shift.refl (c : Core κ) : Shift c c := .inl ⟨rfl,rfl⟩

section
variable (cfg : Config κ) (c : Core κ)

@[simp] theorem closeBody_running : (closeBody cfg c).running = c.running := by
  simp only [closeBody,emit]; split <;> rfl

@[simp] theorem closeBody_conn : (closeBody cfg c).socket.conn = c.socket.conn := by
  simp only [closeBody,emit]; split <;> rfl

@[simp] theorem closeBody_isOpen : (closeBody cfg c).socket.isOpen = false := by
  simp only [closeBody,emit]
  split
  · rfl
  · rename_i h; simpa using h

@[simp] theorem resetReadTimeout_socket (owner : Nat) :
    (resetReadTimeout cfg owner c).socket = c.socket := by
  unfold resetReadTimeout; split <;> rfl

@[simp] theorem resetReadTimeout_running (owner : Nat) :
    (resetReadTimeout cfg owner c).running = c.running := by
  unfold resetReadTimeout; split <;> rfl

@[simp] theorem startReceive_socket (owner : Nat) :
    (startReceive cfg owner c).socket = c.socket := by
  unfold startReceive
  split
  · split <;> rfl
  · rfl

@[simp] theorem startReceive_running (owner : Nat) :
    (startReceive cfg owner c).running = c.running := by
  unfold startReceive
  split
  · split <;> rfl
  · rfl

@[simp] theorem deliver_socket (owner offset n : Nat) (sender : Option Address) (next : List Act) :
    (deliver cfg owner offset n sender next c).socket = c.socket := by
  unfold deliver; split <;> rfl

@[simp] theorem deliver_phase (owner offset n : Nat) (sender : Option Address) (next : List Act) :
    (deliver cfg owner offset n sender next c).running.phase = .idle := by
  unfold deliver; split <;> rfl

@[simp] theorem onReceived_socket (r : Read) (result : Except ErrorCode Nat) :
    (onReceived cfg r result c).socket = c.socket := by
  unfold onReceived
  split
  · split <;> rfl
  · split <;> rfl
  · split <;> rfl
  · rfl

theorem onReceived_phase (r : Read) (result : Except ErrorCode Nat)
    (hph : c.running.phase = .idle) : (onReceived cfg r result c).running.phase = .idle := by
  unfold onReceived
  split
  · split
    · rfl
    · exact hph
  · split
    · rfl
    · exact hph
  · split <;> rfl
  · rfl

theorem reopen_shift (opened : Bool) (more : Nat) : Shift c (c.reopen opened more) := by
  cases opened with
  | true => exact .inr (.inr ⟨rfl,rfl⟩)
  | false => exact .inr (.inl ⟨rfl,rfl⟩)

theorem onConnected_shift (a : Connecting) (failed reopened : Bool) :
    Shift c (c.onConnected cfg a failed reopened) := by
  unfold onConnected
  split
  · exact .inl ⟨rfl,rfl⟩
  · split
    · exact reopen_shift c reopened _
    · exact .inl ⟨rfl,rfl⟩

theorem onConnected_phase (a : Connecting) (failed reopened : Bool)
    (hph : c.running.phase = .idle) : (c.onConnected cfg a failed reopened).running.phase = .idle := by
  unfold onConnected
  split
  · rfl
  · split
    · exact hph
    · rfl

theorem handle_shift (n : Notice) : Shift c (c.handle cfg n) := by
  cases n with
  | received r result => exact .inl ⟨by simp [handle], by simp [handle]⟩
  | expired w aborted =>
    simp only [handle]
    split <;> exact .inl ⟨rfl,rfl⟩
  | connected a failed reopened => exact onConnected_shift cfg c a failed reopened
  | close => exact .inl ⟨rfl,rfl⟩

theorem handle_phase (n : Notice) (hph : c.running.phase = .idle) :
    (c.handle cfg n).running.phase = .idle := by
  cases n with
  | received r result => exact onReceived_phase cfg c r result hph
  | expired w aborted =>
    simp only [handle]
    split
    · exact hph
    · rfl
  | connected a failed reopened => exact onConnected_phase cfg c a failed reopened hph
  | close => rfl

theorem perform_shift (rest : List Act) (a : Act) : Shift c (c.perform cfg rest a) := by
  cases a with
  | scan owner currentOffset =>
    simp only [perform]
    split
    · exact .inl ⟨rfl,rfl⟩
    · exact .inl ⟨by simp, by simp⟩
    · exact .inl ⟨rfl,rfl⟩
  | datagram owner n => exact .inl ⟨by simp [perform], by simp [perform]⟩
  | call k =>
    cases k with
    | send request => exact .inl ⟨rfl,rfl⟩
    | close => exact .inr (.inl ⟨by simp [perform], by simp [perform]⟩)
  | resetReadTimeout owner => exact .inl ⟨by simp [perform], by simp [perform]⟩
  | startReceive owner => exact .inl ⟨by simp [perform], by simp [perform]⟩
  | close => exact .inr (.inl ⟨by simp [perform], by simp [perform]⟩)

theorem perform_phase (rest : List Act) (a : Act) :
    (c.perform cfg rest a).running.phase = .idle := by
  cases a with
  | scan owner currentOffset =>
    simp only [perform]
    split
    · rfl
    · simp
    · rfl
  | datagram owner n => simp [perform]
  | call k => cases k <;> simp [perform,Running.phase]
  | resetReadTimeout owner | startReceive owner | close => simp [perform,Running.phase]

end

theorem connect_spec {cfg : Config κ} {c c' : Core κ} {resolved : Except ErrorCode Nat}
    {opened : Bool} (h : c.connect cfg resolved opened = some c') :
    Shift c c' ∧ c'.running = c.running := by
  unfold connect at h
  split at h
  · simp only [Option.some.injEq] at h
    exact h ▸ ⟨.refl c, rfl⟩
  · simp only [Option.some.injEq] at h
    exact h ▸ ⟨reopen_shift c opened _, rfl⟩
  · simp at h

theorem setup_spec {cfg : Config κ} {c c' : Core κ} {call : UdpEndpoint.Setup} {os : Os}
    (h : c.setup cfg call os = some c') : Shift c c' ∧ c'.running = c.running := by
  unfold setup at h
  split at h
  · simp only [Option.some.injEq] at h
    subst h
    refine ⟨?_, rfl⟩
    rcases UdpEndpoint.setup_opened call os c.socket with hs | ⟨-,hs⟩
    · exact .inl hs
    · exact .inr (.inr hs)
  · simp at h

end Core

namespace Endpoint

/-- The endpoint as its send pipeline sees it. -/
def pipeline (s : Endpoint κ τ) : Pipeline.State (Option τ) Ticket Item Byte where
  toStore := s.out
  ready := s.ready.filterMap Handler.job
  phase := s.running.phase
  isOpen := s.socket.isOpen
  session := s.socket.conn

theorem sendCheck_isOpen {kind : Kind} {socket : Socket} {target : Target}
    (h : sendCheck kind socket target = .ok ()) : socket.isOpen = true := by
  unfold sendCheck at h
  cases hopen : socket.isOpen with
  | true => rfl
  | false => cases kind <;> simp [hopen] at h; split at h <;> simp at h

variable [DecidableEq τ]

/-- The pipeline step `l` together with what it tells about the endpoint. -/
structure Explains (cfg : Config κ) (s t : Endpoint κ τ) (l : Label (Option τ) Ticket Item) : Prop where
  step : Pipeline.Step poolSize cfg.kind.batchLimit Item.buf s.pipeline l t.pipeline
  beginning : ∀ failed, l = .begin failed → ∃ w rest, s.ready = .wrote w failed :: rest
  filling : ∀ caller ticket m, l = .fill caller ticket m →
    m = .ofRequest cfg.kind s.socket ticket.request
  calling : ∀ caller ticket, l = .call caller ticket →
    sendCheck cfg.kind s.socket ticket.request.target = .ok () ∧
      ticket.asked = .ofRequest cfg.kind s.socket ticket.request

theorem Explains.plain {cfg : Config κ} {s t : Endpoint κ τ} {l : Label (Option τ) Ticket Item}
    (h : Pipeline.Step poolSize cfg.kind.batchLimit Item.buf s.pipeline l t.pipeline)
    (hb : ∀ failed, l ≠ .begin failed) (hf : ∀ caller ticket m, l ≠ .fill caller ticket m)
    (hc : ∀ caller ticket, l ≠ .call caller ticket) : Explains cfg s t l :=
  ⟨h, fun failed hl => absurd hl (hb failed), fun c ticket m hl => absurd hl (hf c ticket m),
    fun c ticket hl => absurd hl (hc c ticket)⟩

/-- A step of the endpoint: a step of the pipeline, or one that it does not see. -/
def Simulates (cfg : Config κ) (s t : Endpoint κ τ) : Prop :=
  t.pipeline = s.pipeline ∨ ∃ l, Explains cfg s t l

/-- Steps that touch neither the buffers nor the jobs of the pipeline. -/
theorem simulates_shift {cfg : Config κ} {s t : Endpoint κ τ} (hout : t.out = s.out)
    (hready : t.ready.filterMap Handler.job = s.ready.filterMap Handler.job)
    (hphase : t.running.phase = s.running.phase) (hshift : Core.Shift s.toCore t.toCore) :
    Simulates cfg s t := by
  rcases hshift with ⟨hopen,hconn⟩ | ⟨hopen,hconn⟩ | ⟨hopen,hconn⟩
  · refine .inl ?_
    simp only [pipeline,hout,hready,hphase,hopen,hconn]
  · refine .inr ⟨.close, .plain ?_ (by simp) (by simp) (by simp)⟩
    have h : t.pipeline = ⟨s.pipeline.toStore, s.pipeline.ready, s.pipeline.phase, false,
        s.pipeline.session⟩ := by simp only [pipeline,hout,hready,hphase,hopen,hconn]
    rw [h]
    exact .close
  · refine .inr ⟨.reopen, .plain ?_ (by simp) (by simp) (by simp)⟩
    have h : t.pipeline = ⟨s.pipeline.toStore, s.pipeline.ready, s.pipeline.phase, true,
        s.pipeline.session+1⟩ := by simp only [pipeline,hout,hready,hphase,hopen,hconn]
    rw [h]
    exact .reopen

theorem notify_simulates {cfg : Config κ} {s : Endpoint κ τ} {x : Core κ × Notice}
    (h : x.1.socket = s.socket ∧ x.1.running = s.running) : Simulates cfg s (s.notify x) := by
  refine simulates_shift rfl ?_ ?_ ?_
  · simp [notify,List.filterMap_cons,Handler.job]
  · simp only [notify,h.2]
  · exact .inl ⟨by simp only [notify,h.1], by simp only [notify,h.1]⟩

theorem call_simulates (cfg : Config κ) (caller : Option τ) (request : Request)
    {s s' : Endpoint κ τ} (h : s'.pipeline = s.pipeline) (hsocket : s'.socket = s.socket)
    (hpc : s'.out.pc caller = .idle) : Simulates cfg s (call cfg caller request s') := by
  unfold call
  split
  · exact .inl h
  · rename_i hcheck
    refine .inr ⟨.call caller ⟨request, .ofRequest cfg.kind s'.socket request⟩, ?_, by simp, by simp, ?_⟩
    · rw [← h]
      exact .call (sendCheck_isOpen hcheck) hpc
    · intro caller' ticket hl
      simp only [Label.call.injEq] at hl
      obtain ⟨-,rfl⟩ := hl
      rw [← hsocket]
      exact ⟨hcheck,rfl⟩

theorem runHandler_simulates (cfg : Config κ) {s : Endpoint κ τ} {h : Handler τ}
    {rest : List (Handler τ)} (hready : s.ready = h :: rest) (hph : s.running.phase = .idle) :
    Simulates cfg s (runHandler cfg { s with ready := rest } h) := by
  cases h with
  | enqueue c b =>
    refine .inr ⟨.enqueue, .plain ?_ (by simp) (by simp) (by simp)⟩
    exact Pipeline.Step.enqueue (p := s.pipeline) hph (by rw [pipeline, hready]; rfl)
  | wrote w failed =>
    refine .inr ⟨.begin failed, ?_, ?_, by simp, by simp⟩
    · exact Pipeline.Step.begin (p := s.pipeline) hph (by rw [pipeline, hready]; rfl)
    · intro failed' hl
      simp only [Label.begin.injEq] at hl
      exact ⟨w, rest, hl ▸ hready⟩
  | notice n =>
    refine simulates_shift rfl ?_ ?_ (Core.handle_shift cfg s.toCore n)
    · simp [runHandler,withCore,hready,List.filterMap_cons,Handler.job]
    · exact (Core.handle_phase cfg s.toCore n hph).trans hph.symm

theorem perform_simulates (cfg : Config κ) {s : Endpoint κ τ} {a : Act} {rest : List Act}
    (hrun : s.running = .program (a :: rest)) (hpc : s.out.pc none = .idle) :
    Simulates cfg s (s.perform cfg rest a) := by
  have hph : (s.toCore.perform cfg rest a).running.phase = s.running.phase := by
    rw [Core.perform_phase, hrun]; rfl
  unfold perform
  split
  · refine call_simulates cfg none _ ?_ rfl hpc
    simp only [pipeline,withCore,hph]
    rfl
  · exact simulates_shift rfl rfl hph (Core.perform_shift cfg s.toCore rest a)

theorem finishWrite_simulates (cfg : Config κ) {s : Endpoint κ τ} {failed : Bool}
    (hrun : s.running = .releasing 0 failed) :
    Simulates cfg s (finishWrite cfg failed { s with running := .program [] }) := by
  have hph : s.pipeline.phase = .releasing 0 failed := by simp [pipeline,hrun,Running.phase]
  refine .inr ⟨.finish, .plain ?_ (by simp) (by simp) (by simp)⟩
  cases failed with
  | true =>
    have heq : pipeline (finishWrite cfg true { s with running := .program [] }) =
        ⟨s.pipeline.toStore, s.pipeline.ready, .idle, false, s.pipeline.session⟩ := by
      simp [pipeline,finishWrite,withCore,Running.phase]
    rw [heq]
    exact .finishFailed hph
  | false =>
    simp only [finishWrite,Bool.false_eq_true,↓reduceIte]
    split
    · rename_i hq
      exact .finishEmpty hph (List.isEmpty_iff.mp hq)
    · rename_i hq
      exact .finishMore hph (fun hn => hq (List.isEmpty_iff.mpr hn))

theorem act_simulates {cfg : Config κ} {s t : Endpoint κ τ} {kept : Bool}
    (h : s.act cfg kept = some t) : Simulates cfg s t := by
  unfold act at h
  split at h
  · rename_i left failed hrun
    simp only [Option.some.injEq] at h
    subst h
    refine .inr ⟨.release, .plain (.release ?_) (by simp) (by simp) (by simp)⟩
    simp [pipeline,hrun,Running.phase]
  · rename_i failed hrun
    simp only [Option.some.injEq] at h
    exact h ▸ finishWrite_simulates cfg hrun
  · rename_i a rest hrun
    simp only [Option.ite_none_right_eq_some,Option.some.injEq] at h
    exact h.2 ▸ perform_simulates cfg hrun h.1
  · simp at h

theorem write_simulates {cfg : Config κ} {s t : Endpoint κ τ} {i n : Nat}
    (h : s.write cfg i n = some t) : Simulates cfg s t := by
  unfold write at h
  cases hi : s.out.writes[i]? with
  | none => simp [hi] at h
  | some w =>
    simp only [hi,Option.ite_none_right_eq_some,Option.map_eq_some_iff] at h
    obtain ⟨⟨hlive,-⟩,out,hout,rfl⟩ := h
    simp only [Core.live,Bool.and_eq_true,beq_iff_eq] at hlive
    exact .inr ⟨_, .plain (.progress hi hlive.1 hlive.2.symm hout) (by simp) (by simp) (by simp)⟩

theorem writeDone_simulates {cfg : Config κ} {s t : Endpoint κ τ} {i : Nat} {failed : Bool}
    (h : s.writeDone i failed = some t) : Simulates cfg s t := by
  unfold writeDone at h
  cases hi : s.out.writes[i]? with
  | none => simp [hi] at h
  | some w =>
    simp only [hi,Option.ite_none_right_eq_some,Option.some.injEq] at h
    obtain ⟨hdone,rfl⟩ := h
    refine .inr ⟨.complete, .plain ?_ (by simp) (by simp) (by simp)⟩
    have hw : failed = false → w.written = (s.out.data Item.buf w).length := by
      intro hf; simpa [hf] using hdone
    have hready : (s.ready ++ [Handler.wrote w failed]).filterMap Handler.job =
        s.pipeline.ready ++ [.written w failed] := by simp [pipeline,Handler.job]
    have hstep : Pipeline.Step poolSize cfg.kind.batchLimit Item.buf s.pipeline _ _ :=
      .complete hi hw
    rw [← hready] at hstep
    exact hstep

theorem fill_simulates {cfg : Config κ} {s t : Endpoint κ τ} {caller : Option τ}
    (h : s.fill cfg caller = some t) : Simulates cfg s t := by
  unfold fill at h
  split at h
  · rename_i b ticket hpc
    simp only [Option.some.injEq] at h
    subst h
    refine .inr ⟨_, Pipeline.Step.fill (p := s.pipeline) hpc, by simp, ?_, by simp⟩
    intro caller' ticket' m hl
    simp only [Label.fill.injEq] at hl
    obtain ⟨-,rfl,rfl⟩ := hl
    rfl
  · simp at h

theorem post_simulates {cfg : Config κ} {s t : Endpoint κ τ} {caller : Option τ}
    (h : s.post caller = some t) : Simulates cfg s t := by
  unfold post at h
  split at h
  · rename_i b ticket hpc
    simp only [Option.some.injEq] at h
    subst h
    refine .inr ⟨.post caller, .plain ?_ (by simp) (by simp) (by simp)⟩
    have hready : (s.ready ++ [Handler.enqueue caller b]).filterMap Handler.job =
        s.pipeline.ready ++ [.enqueue caller b] := by simp [pipeline,Handler.job]
    have hstep : Pipeline.Step poolSize cfg.kind.batchLimit Item.buf s.pipeline _ _ := .post hpc
    rw [← hready] at hstep
    exact hstep
  · simp at h

theorem run_simulates {cfg : Config κ} {s t : Endpoint κ τ} (h : step cfg s .run = some t) :
    Simulates cfg s t := by
  simp only [step] at h
  split at h
  · rename_i hd rest hready
    simp only [Option.ite_none_right_eq_some,Option.some.injEq] at h
    obtain ⟨hidle,rfl⟩ := h
    simp only [idle,Bool.and_eq_true,beq_iff_eq] at hidle
    exact runHandler_simulates cfg hready (by rw [hidle.1]; rfl)
  · simp at h

theorem step_simulates {cfg : Config κ} {s t : Endpoint κ τ} {e : Event τ}
    (h : step cfg s e = some t) : Simulates cfg s t := by
  cases e with
  | send u request =>
    simp only [step,Option.ite_none_right_eq_some,Option.some.injEq] at h
    exact h.2 ▸ call_simulates cfg _ _ rfl rfl h.1
  | pop caller =>
    simp only [step,Option.map_eq_some_iff] at h
    obtain ⟨out,hout,rfl⟩ := h
    exact .inr ⟨_, .plain (.pop hout) (by simp) (by simp) (by simp)⟩
  | fill caller => exact fill_simulates h
  | post caller => exact post_simulates h
  | close =>
    simp only [step,Option.some.injEq] at h
    exact h ▸ notify_simulates ⟨rfl,rfl⟩
  | connect resolved opened =>
    simp only [step,Option.map_eq_some_iff] at h
    obtain ⟨c,hc,rfl⟩ := h
    obtain ⟨hshift,hrun⟩ := Core.connect_spec hc
    exact simulates_shift rfl rfl (by simp only [withCore,hrun]) hshift
  | setup call os =>
    simp only [step,Option.map_eq_some_iff] at h
    obtain ⟨c,hc,rfl⟩ := h
    obtain ⟨hshift,hrun⟩ := Core.setup_spec hc
    exact simulates_shift rfl rfl (by simp only [withCore,hrun]) hshift
  | start =>
    simp only [step,Option.map_eq_some_iff] at h
    obtain ⟨c,hc,rfl⟩ := h
    obtain ⟨_,_,_,_,_,_,rfl⟩ := Core.start_shape hc
    exact .inl rfl
  | run => exact run_simulates h
  | act kept => exact act_simulates h
  | write i n => exact write_simulates h
  | writeDone i failed => exact writeDone_simulates h
  | read i data sender =>
    simp only [step,Option.map_eq_some_iff] at h
    obtain ⟨x,hx,rfl⟩ := h
    obtain ⟨_,-,-,-,-,rfl⟩ := Core.read_eq_some.mp hx
    exact notify_simulates ⟨rfl,rfl⟩
  | readFail i ec =>
    simp only [step,Option.map_eq_some_iff] at h
    obtain ⟨x,hx,rfl⟩ := h
    obtain ⟨_,-,-,rfl⟩ := Core.readFail_eq_some.mp hx
    exact notify_simulates ⟨rfl,rfl⟩
  | expire i | abort i =>
    simp only [step,Option.map_eq_some_iff] at h
    obtain ⟨x,hx,rfl⟩ := h
    obtain ⟨_,-,-,-,rfl⟩ := Core.waitDone_eq_some.mp hx
    exact notify_simulates ⟨rfl,rfl⟩
  | connectDone i failed reopened =>
    simp only [step,Option.map_eq_some_iff] at h
    obtain ⟨x,hx,rfl⟩ := h
    obtain ⟨_,-,-,rfl⟩ := Core.connectDone_eq_some.mp hx
    exact notify_simulates ⟨rfl,rfl⟩
  | tick d =>
    simp only [step,Option.some.injEq] at h
    exact .inl (h ▸ rfl)

section sent
variable {cfg : Config κ} {s t : Endpoint κ τ} {e : Event τ}

/-- What a step does to the tickets of a caller: it adds that of the call of `send` which it makes in
the name of the caller and which is not refused. -/
inductive Sends (cfg : Config κ) (s : Endpoint κ τ) (e : Event τ) (caller : Option τ) (sent : List Ticket) : Prop where
  | nothing : sent = s.out.sent caller →
      (∀ request, s.asks e = some (caller,request) → ∃ ec, sendCheck cfg.kind s.socket request.target = .error ec) →
      Sends cfg s e caller sent
  | accepted {request : Request} : s.asks e = some (caller,request) →
      sendCheck cfg.kind s.socket request.target = .ok () →
      sent = s.out.sent caller ++ [⟨request, .ofRequest cfg.kind s.socket request⟩] → Sends cfg s e caller sent

theorem Sends.call {who caller : Option τ} {request : Request} (hasks : s.asks e = some (who,request)) :
    Sends cfg s e caller ((s.call cfg who request).out.sent caller) := by
  cases hcheck : sendCheck cfg.kind s.socket request.target with
  | error ec =>
    refine .nothing (by simp [Endpoint.call,hcheck]) (fun request' heq => ?_)
    obtain ⟨-,rfl⟩ := Prod.mk.inj (Option.some.inj (hasks.symm.trans heq))
    exact ⟨ec, hcheck⟩
  | ok =>
    by_cases hwho : who = caller
    · subst hwho
      exact .accepted hasks hcheck (by simp [Endpoint.call,hcheck,Pipeline.Store.call])
    · refine .nothing ?_ (fun request' heq => ?_)
      · simp [Endpoint.call,hcheck,Pipeline.Store.call,Function.update_of_ne (Ne.symm hwho)]
      · exact absurd (Prod.mk.inj (Option.some.inj (hasks.symm.trans heq))).1 hwho

theorem step_sends (hs : step cfg s e = some t) (caller : Option τ) : Sends cfg s e caller (t.out.sent caller) := by
  have hsilent : s.asks e = none → t.out.sent caller = s.out.sent caller →
      Sends cfg s e caller (t.out.sent caller) :=
    fun hasks hout => .nothing hout (by simp [hasks])
  cases e with
  | send u request =>
    simp only [step,Option.ite_none_right_eq_some,Option.some.injEq] at hs
    exact hs.2 ▸ .call rfl
  | act kept =>
    simp only [step,act] at hs
    split at hs
    · rename_i left failed hrun
      refine hsilent (by simp [asks,hrun]) ?_
      rw [← Option.some.inj hs]
      simp
    · rename_i failed hrun
      refine hsilent (by simp [asks,hrun]) ?_
      rw [← Option.some.inj hs]
      unfold finishWrite
      split
      · rfl
      · split <;> rfl
    · rename_i a rest hrun
      simp only [Option.ite_none_right_eq_some,Option.some.injEq] at hs
      obtain ⟨-,rfl⟩ := hs
      cases a with
      | call c =>
        cases c with
        | send request =>
          have hcall : (s.perform cfg rest (.call (.send request))).out = (s.call cfg none request).out := by
            unfold perform Endpoint.call
            simp only [withCore,Core.perform]
            split <;> rfl
          rw [hcall]
          exact .call (by simp [asks,hrun])
        | close => exact hsilent (by simp [asks,hrun]) rfl
      | _ => exact hsilent (by simp [asks,hrun]) rfl
    · simp at hs
  | pop caller =>
    simp only [step,Option.map_eq_some_iff] at hs
    obtain ⟨out,hout,rfl⟩ := hs
    obtain ⟨_,_,_,-,-,rfl⟩ := Pipeline.Store.pop_eq_some.mp hout
    exact hsilent rfl rfl
  | fill caller =>
    simp only [step,fill] at hs
    split at hs <;> simp only [Option.some.injEq,reduceCtorEq] at hs
    exact hsilent rfl (hs ▸ rfl)
  | post caller =>
    simp only [step,post] at hs
    split at hs <;> simp only [Option.some.injEq,reduceCtorEq] at hs
    exact hsilent rfl (hs ▸ rfl)
  | run =>
    refine hsilent rfl ?_
    simp only [step] at hs
    split at hs
    · rename_i h rest hready
      simp only [Option.ite_none_right_eq_some,Option.some.injEq] at hs
      obtain ⟨-,rfl⟩ := hs
      cases h <;> simp [runHandler,withCore]
    · simp at hs
  | write i n =>
    refine hsilent rfl ?_
    simp only [step,write] at hs
    split at hs
    · simp only [Option.ite_none_right_eq_some,Option.map_eq_some_iff] at hs
      obtain ⟨-,out,hout,rfl⟩ := hs
      obtain ⟨_,-,-,rfl⟩ := Pipeline.Store.progress_eq_some.mp hout
      rfl
    · simp at hs
  | writeDone i failed =>
    refine hsilent rfl ?_
    simp only [step,writeDone] at hs
    split at hs
    · simp only [Option.ite_none_right_eq_some,Option.some.injEq] at hs
      exact hs.2 ▸ rfl
    · simp at hs
  | close | tick d =>
    simp only [step,Option.some.injEq] at hs
    exact hsilent rfl (hs ▸ rfl)
  | connect _ _ | setup _ _ | start | read _ _ _ | readFail _ _ | expire _ | abort _ | connectDone _ _ _ =>
    simp only [step,Option.map_eq_some_iff] at hs
    obtain ⟨_,-,rfl⟩ := hs
    exact hsilent rfl rfl

theorem sent_of_silent (hs : step cfg s e = some t) {caller : Option τ}
    (hsilent : ∀ request, s.asks e ≠ some (caller,request)) : t.out.sent caller = s.out.sent caller := by
  cases step_sends hs caller with
  | nothing hsame _ => exact hsame
  | accepted hasks _ _ => exact absurd hasks (hsilent _)

/-- A connection refuses to send when its socket is closed. -/
theorem requests_of_asks (hk : cfg.kind = .tcpConnection) (hs : step cfg s e = some t) {caller : Option τ}
    {request : Request} (hasks : s.asks e = some (caller,request)) :
    (t.out.sent caller).map (·.request) = (s.out.sent caller).map (·.request) ++
      if s.socket.isOpen = true then [request] else [] := by
  cases step_sends hs caller with
  | nothing hsame hrefused =>
    obtain ⟨ec,hcheck⟩ := hrefused request hasks
    have hclosed : s.socket.isOpen = false := by
      simp only [sendCheck,hk] at hcheck
      split at hcheck <;> simp_all
    simp [hsame,hclosed]
  | @accepted request' hasks' hcheck hmore =>
    obtain ⟨-,rfl⟩ := Prod.mk.inj (Option.some.inj (hasks.symm.trans hasks'))
    have hopen : s.socket.isOpen = true := by
      simp only [sendCheck,hk] at hcheck
      split at hcheck <;> simp_all
    simp [hmore,hopen]

end sent

theorem sent_prefix_step {cfg : Config κ} {s t : Endpoint κ τ} {e : Event τ} (hs : step cfg s e = some t)
    (caller : Option τ) : s.out.sent caller <+: t.out.sent caller := by
  cases step_sends hs caller with
  | nothing hsame _ => rw [hsame]
  | accepted _ _ hmore =>
    rw [hmore]
    exact List.prefix_append _ _

end Endpoint

end Librim
