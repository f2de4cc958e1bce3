import Librim.Ownership
import Librim.EndpointCore

set_option autoImplicit false

namespace Librim

open Pipeline (Wired Served Ordered Pristine)

variable {κ τ : Type}

/-- No connection attempt is outstanding or has completed. -/
structure Unconnected (cs : List Connecting) (ns : List Notice) : Prop where
  connects : cs = []
  notices : ∀ a failed reopened, .connected a failed reopened ∉ ns

theorem Unconnected.append {cs : List Connecting} {ns : List Notice} (h : Unconnected cs ns)
    {n : Notice} (hn : ∀ a failed reopened, n ≠ .connected a failed reopened) :
    Unconnected cs (ns ++ [n]) := by
  refine ⟨h.connects, fun a failed reopened hm => ?_⟩
  rcases List.mem_append.mp hm with hm | hm
  · exact h.notices a failed reopened hm
  · exact hn a failed reopened (List.mem_singleton.mp hm).symm

/-- Only a client makes connection attempts. -/
theorem Unconnected.move {cfg : Config κ} (hk : cfg.kind ≠ .tcpClient) {c c' : Core κ}
    {ns ns' : List Notice} {e : Event τ} (h : Unconnected c.connects ns) (hm : Move cfg c ns e c' ns') :
    Unconnected c'.connects ns' := by
  cases hm with
  | stay | wrote _ | release _ | finish _ | tick => exact h
  | close => exact h.append (by simp)
  | connect hc => unfold Core.connect at hc; split at hc <;> simp_all
  | setup hc =>
    obtain ⟨_,rfl⟩ := Core.setup_shape hc
    exact h
  | start hc =>
    obtain ⟨_,_,_,_,_,_,rfl⟩ := Core.start_shape hc
    exact h
  | @handle n ns hrun =>
    refine ⟨?_, fun a failed reopened hm => h.notices a failed reopened (List.mem_cons_of_mem _ hm)⟩
    cases n with
    | received r result =>
      obtain ⟨_,_,heq⟩ := Core.onReceived_shape cfg c r result hrun
      simp only [Core.handle,heq,h.connects]
    | expired w aborted =>
      simp only [Core.handle]
      split <;> exact h.connects
    | connected a failed reopened =>
      exact absurd List.mem_cons_self (h.notices a failed reopened)
    | close => exact h.connects
  | fail _ =>
    obtain ⟨_,_,_,_,heq⟩ := Core.closeBody_shape cfg { c with running := .program [] }
    rw [heq]
    exact h
  | @perform _ a rest _ _ =>
    obtain ⟨_,_,_,_,_,_,_,_,heq⟩ := Core.perform_shape cfg c rest a
    rw [heq]
    exact h
  | read hx =>
    obtain ⟨_,-,-,-,-,hx⟩ := Core.read_eq_some.mp hx
    obtain ⟨rfl,rfl⟩ := Prod.mk.inj hx
    exact h.append (by simp)
  | readFail hx =>
    obtain ⟨_,-,-,hx⟩ := Core.readFail_eq_some.mp hx
    obtain ⟨rfl,rfl⟩ := Prod.mk.inj hx
    exact h.append (by simp)
  | expire hx | abort hx =>
    obtain ⟨_,-,-,-,hx⟩ := Core.waitDone_eq_some.mp hx
    obtain ⟨rfl,rfl⟩ := Prod.mk.inj hx
    exact h.append (by simp)
  | connectDone hx =>
    obtain ⟨_,ha,-,-⟩ := Core.connectDone_eq_some.mp hx
    simp [h.connects] at ha

/-- The socket of an accepted connection is never opened again. -/
theorem Unconnected.conn {cfg : Config κ} (hk : cfg.kind = .tcpConnection) {c c' : Core κ}
    {ns ns' : List Notice} {e : Event τ} (h : Unconnected c.connects ns) (hm : Move cfg c ns e c' ns') :
    c'.socket.conn = c.socket.conn := by
  have hdone := hm.completed
  cases hm with
  | stay | wrote _ | release _ | finish _ | tick | close => rfl
  | connect hc => unfold Core.connect at hc; split at hc <;> simp_all
  | setup hc => simp [Core.setup,hk] at hc
  | start hc =>
    obtain ⟨_,_,_,_,_,_,rfl⟩ := Core.start_shape hc
    rfl
  | @handle n ns hrun =>
    cases n with
    | received r result => simp [Core.handle]
    | expired w aborted =>
      simp only [Core.handle]
      split <;> rfl
    | connected a failed reopened =>
      exact absurd List.mem_cons_self (h.notices a failed reopened)
    | close => rfl
  | fail _ => simp
  | @perform _ a rest _ _ =>
    cases a with
    | scan owner currentOffset =>
      simp only [Core.perform]
      split <;> simp
    | call k => cases k <;> simp [Core.perform]
    | _ => simp [Core.perform]
  | read _ | readFail _ | expire _ | abort _ | connectDone _ =>
    obtain ⟨_,_,_,_,_,_,rfl⟩ := hdone rfl
    rfl

namespace Endpoint

variable [DecidableEq τ]

theorem Reached.unconnected {cfg : Config κ} (hk : cfg.kind ≠ .tcpClient) {s : Endpoint κ τ}
    (h : Reached cfg s) : Unconnected s.connects s.notices := by
  refine Transition.Reach.invariant (fun s => Unconnected s.connects s.notices) ?_ ?_ h
  · rintro _ ⟨u,rfl⟩
    exact ⟨rfl, by simp [notices,initial]⟩
  · intro s e t hi _ hs
    exact hi.move hk (step_move hs)

theorem Reached.conn_eq_one {cfg : Config κ} (hk : cfg.kind = .tcpConnection) {s : Endpoint κ τ}
    (h : Reached cfg s) : s.socket.conn = 1 := by
  induction h with
  | start hi =>
    obtain ⟨u,rfl⟩ := hi
    simp [initial,Core.initial,hk,Socket.accepted]
  | next hr _ hs ih => rw [(Reached.unconnected (by simp [hk]) hr).conn hk (step_move hs), ih]

omit [DecidableEq τ] in
theorem initial_wired (kind : Kind) (u : κ) (first : Nat) :
    Wired Item.buf first (initial kind u : Endpoint κ τ).pipeline where
  pristine := fun _ => ⟨fun _ => rfl, rfl, rfl, rfl, rfl, rfl, rfl, rfl⟩
  whole := by intro w hw; simp [pipeline,initial] at hw
  taken := fun _ => List.nil_prefix
  exact := fun _ _ _ => rfl

/-- What the transport has taken, if no call of `send` passed its test on a descriptor before
`first`. What excludes that may be known at the end of the run only. -/
theorem Reached.wired {cfg : Config κ} {first : Nat} (I : Endpoint κ τ → Prop)
    (hback : ∀ s e t, step cfg s e = some t → I t → I s)
    (hcall : ∀ s target, Reached cfg s → I s → sendCheck cfg.kind s.socket target = .ok () →
      first ≤ s.socket.conn) {s : Endpoint κ τ} (h : Reached cfg s) (hi : I s) :
    Wired Item.buf first s.pipeline := by
  induction h with
  | start hs =>
    obtain ⟨u,rfl⟩ := hs
    exact initial_wired cfg.kind u first
  | @next s t e hr _ hs ih =>
    have hi' := hback s e t hs hi
    have hsound : Sound cfg s := Reached.sound hr
    have hsound' := hsound.step hs
    rcases step_simulates hs with heq | ⟨l,hl,-,-,hcalls⟩
    · exact heq ▸ ih hi'
    · refine (ih hi').step hsound.owned hsound.serial hsound'.serial hsound'.flow ?_ hl
      exact fun caller ticket hlab => hcall s _ hr hi' (hcalls caller ticket hlab).1

theorem Reached.wired_tcpConnection {cfg : Config κ} (hk : cfg.kind = .tcpConnection)
    {s : Endpoint κ τ} (h : Reached cfg s) : Wired Item.buf 1 s.pipeline :=
  Reached.wired (fun _ => True) (fun _ _ _ _ _ => trivial)
    (fun _ _ hr _ _ => Nat.le_of_eq (Reached.conn_eq_one hk hr).symm) h trivial

/-- The queue of an open endpoint keeps its writer, unless the socket was opened without one. -/
theorem Sound.served_step {cfg : Config κ} {s t : Endpoint κ τ} {e : Event τ} (hsound : Sound cfg s)
    (hsv : s.socket.isOpen = true → Served s.pipeline)
    (hopen : t.socket.conn ≠ s.socket.conn → Served s.pipeline) (hs : Endpoint.step cfg s e = some t) :
    t.socket.isOpen = true → Served t.pipeline := by
  rcases step_simulates hs with heq | ⟨l,hl,-,-,-⟩
  · have hio : t.socket.isOpen = s.socket.isOpen := congrArg Pipeline.State.isOpen heq
    intro ho
    rw [heq]
    exact hsv (hio ▸ ho)
  · refine Served.step hsound.serial hsv ?_ hl
    rintro rfl
    apply hopen
    have hses : t.socket.conn = s.socket.conn+1 := Pipeline.reopen_session hl
    omega

/-- The item of a TCP call does not depend on the socket. -/
def streamItem (ticket : Ticket) : Item := ⟨ticket.request.data, none⟩

theorem Reached.ordered {cfg : Config κ} (hk : cfg.kind ≠ .udpEndpoint) {s : Endpoint κ τ}
    (h : Reached cfg s) : Ordered streamItem s.pipeline := by
  induction h with
  | start hi =>
    obtain ⟨u,rfl⟩ := hi
    exact ⟨fun _ _ _ hpc => by simp [pipeline,initial,Pipeline.Store.fresh] at hpc, fun _ => rfl⟩
  | @next s t e hr _ hs ih =>
    have hsound : Sound cfg s := Reached.sound hr
    rcases step_simulates hs with heq | ⟨l,hl,-,hfill,-⟩
    · exact heq ▸ ih
    · refine ih.step hsound.owned ?_ hl
      intro caller ticket m hlab
      rw [hfill caller ticket m hlab]
      cases hkind : cfg.kind with
      | udpEndpoint => exact absurd hkind hk
      | tcpConnection | tcpClient => rfl

/-- Each caller's payloads are, as it sent them, those appended to the queue, those posted and the
one it still works on. -/
theorem Reached.sent_eq {cfg : Config κ} (hk : cfg.kind ≠ .udpEndpoint) {s : Endpoint κ τ}
    (h : Reached cfg s) (caller : Option τ) : (s.out.sent caller).map (·.request.data) =
      (s.out.entered.filter (·.1 = caller)).map (·.2.buf) ++
        (s.pipeline.posted.filter (·.1 = caller)).map (fun x => (s.out.mem x.2).buf) ++
        (s.out.pc caller).pending.map (·.request.data) := by
  have hord := congrArg (List.map Item.buf) ((h.ordered hk).order caller)
  simpa [streamItem,pipeline,Function.comp_def] using hord

/-- What has entered the queue first is of each caller what it has sent first. -/
theorem Reached.entered_prefix {cfg : Config κ} (hk : cfg.kind ≠ .udpEndpoint) {s : Endpoint κ τ}
    (h : Reached cfg s) (count : Nat) (caller : Option τ) :
    ((s.out.entered.take count).filter (·.1 = caller)).map (·.2.buf) <+: (s.out.sent caller).map (·.request.data) := by
  have htake : ((s.out.entered.take count).filter (·.1 = caller)).map (·.2.buf) <+:
      (s.out.entered.filter (·.1 = caller)).map (·.2.buf) := ((List.take_prefix _ _).filter _).map _
  rw [h.sent_eq hk caller, List.append_assoc]
  exact htake.trans (List.prefix_append _ _)

theorem Reached.entered_eq {cfg : Config κ} (hk : cfg.kind ≠ .udpEndpoint) {s : Endpoint κ τ}
    (h : Reached cfg s) (hposted : s.pipeline.posted = []) {caller : Option τ}
    (hpending : (s.out.pc caller).pending = []) :
    (s.out.entered.filter (·.1 = caller)).map (·.2.buf) = (s.out.sent caller).map (·.request.data) := by
  rw [h.sent_eq hk caller, hposted, hpending]
  simp

end Endpoint

end Librim
