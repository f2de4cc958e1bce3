import Librim.Tracking

/-! A `TcpServer` with its acceptor and its destructor. The accept handlers and the disconnect
callbacks know the server by `this` and do not keep it alive; the context runs on after it. -/

set_option autoImplicit false

namespace Librim

/-- What accept handlers and disconnect callbacks work on: `acceptor_`, and `connections_` with its
mutex. -/
inductive Member where
  | acceptor
  | connections
  deriving DecidableEq, Repr

/-- `pending` counts the `async_accept` operations in progress, `completed` are the accept handlers
that wait to run. An accept handler that runs is known by its connection; `looped` are those that
have come to their end. `started` and `misused` are history: whether `start()` was called, and
which members were used after the destructor. -/
structure ServerLifetime (κ τ : Type) where
  server : TcpServer κ τ
  alive : Bool
  started : Bool
  pending : Nat
  completed : List (Except ErrorCode κ)
  looped : List Nat
  misused : List Member

/-- `handle j` is the beginning of an accept handler, `loop i` the end of the one that made the
connection `i`; the lines between them are steps of the server. -/
inductive ServerLifetimeEvent (κ τ : Type) where
  | start
  | accepted (u : κ)
  | acceptFailed (ec : ErrorCode)
  | handle (j : Nat)
  | loop (i : Nat)
  | server (e : ServerEvent κ τ)
  | destroy

variable {κ τ : Type}

/-- How often each connection has called its disconnect callback. -/
def TcpServer.disconnects (s : TcpServer κ τ) : List Nat := s.peers.map (·.conn.user.disconnects)

namespace ServerLifetime

def initial : ServerLifetime κ τ where
  server := .initial
  alive := true
  started := false
  pending := 0
  completed := []
  looped := []
  misused := []

/-- `if (acceptor_.is_open()) do_accept()`: the acceptor of a server that lives is open. -/
def doAccept (l : ServerLifetime κ τ) : ServerLifetime κ τ :=
  if l.alive then { l with pending := l.pending+1 } else { l with misused := l.misused ++ [.acceptor] }

/-- The members that a step of the server or of a connection works on. -/
def uses (s : TcpServer κ τ) (e : ServerEvent κ τ) (t : TcpServer κ τ) : List Member :=
  match e with
  | .insert _ | .broadcast _ _ _ => [.connections]
  | _ => if t.disconnects = s.disconnects then [] else [.connections]

/-- Connections are made by accept handlers, and nobody calls a server that was destroyed. -/
def permits (l : ServerLifetime κ τ) : ServerEvent κ τ → Bool
  | .accept _ => false
  | .broadcast _ _ _ => l.alive
  | _ => true

variable [DecidableEq τ]

/-- Destroying the acceptor aborts the accepts that are pending; their handlers run later. -/
def step (cfg : ServerConfig κ) (l : ServerLifetime κ τ) :
    ServerLifetimeEvent κ τ → Option (ServerLifetime κ τ)
  | .start => if l.alive then some { l with started := true, pending := l.pending+1 } else none
  | .accepted u =>
    if l.alive ∧ 0 < l.pending then
      some { l with pending := l.pending-1, completed := l.completed ++ [.ok u] }
    else none
  | .acceptFailed ec =>
    if 0 < l.pending ∧ (ec = .operationAborted ↔ l.alive = false) then
      some { l with pending := l.pending-1, completed := l.completed ++ [.error ec] }
    else none
  | .handle j =>
    match l.completed[j]? with
    | some (.ok u) =>
      (l.server.step cfg (.accept u)).map
        ({ l with server := ·, completed := l.completed.eraseIdx j })
    | some (.error _) => some (doAccept { l with completed := l.completed.eraseIdx j })
    | none => none
  | .loop i =>
    match l.server.peers[i]? with
    | some p =>
      if p.accepting = .announced ∧ p.conn.boot = .done ∧ i ∉ l.looped then
        some (doAccept { l with looped := l.looped ++ [i] })
      else none
    | none => none
  | .server e =>
    if l.permits e then
      (l.server.step cfg e).map (fun t =>
        { l with
          server := t
          misused := if l.alive then l.misused else l.misused ++ uses l.server e t })
    else none
  | .destroy => if l.alive then some { l with alive := false } else none

/-- The runs of a server from its construction on. -/
abbrev Reached (cfg : ServerConfig κ) (l : ServerLifetime κ τ) : Prop :=
  Transition.Reachable (fun l₀ => l₀ = initial) (step cfg) l

/-- Whatever happens after the destructor, no step is taken on the members of the server. -/
def Harmless (cfg : ServerConfig κ) (l : ServerLifetime κ τ) : Prop :=
  ∀ es t, Transition.run (step cfg) l (.destroy :: es) = some t → t.misused = []

end ServerLifetime

namespace TcpServer

variable [DecidableEq τ]

theorem Deed.length_le {cfg : ServerConfig κ} {s t : TcpServer κ τ} {calls : List (ServerCall τ)}
    (h : Deed cfg s calls t) : s.peers.length ≤ t.peers.length := by
  cases h <;> simp [update]

/-- Without connections only `accept` makes one. -/
theorem peers_step_eq_nil {cfg : ServerConfig κ} {s t : TcpServer κ τ} {e : ServerEvent κ τ}
    (hs : s.peers = []) (he : ∀ u, e ≠ .accept u) (hstep : step cfg s e = some t) : t.peers = [] := by
  cases e with
  | accept u => exact absurd rfl (he u)
  | broadcast t data order =>
    simp only [step,Option.ite_none_right_eq_some,Option.some.injEq] at hstep
    exact hstep.2 ▸ hs
  | sendNext t =>
    simp only [step] at hstep
    split at hstep
    · simp [callSend,hs] at hstep
    · simp at hstep
  | _ => simp [step,hs] at hstep

end TcpServer

namespace ServerLifetime

/-- What holds of a server in every run. Once it is started, its accept loop goes on. -/
structure Sane (l : ServerLifetime κ τ) : Prop where
  clean : l.alive = true → l.misused = []
  fresh : l.started = false → l.pending = 0 ∧ l.completed = [] ∧ l.server.peers = []
  looped : ∀ i ∈ l.looped, i < l.server.peers.length
  busy : l.alive = true → l.started = true →
    0 < l.pending ∨ l.completed ≠ [] ∨ ∃ i, i < l.server.peers.length ∧ i ∉ l.looped

variable {cfg : ServerConfig κ} {l l' : ServerLifetime κ τ}

theorem Sane.doAccept (hclean : l.alive = true → l.misused = []) (hstarted : l.started = true)
    (hlooped : ∀ i ∈ l.looped, i < l.server.peers.length) : Sane l.doAccept := by
  unfold ServerLifetime.doAccept
  split
  · exact ⟨hclean, by simp [hstarted], hlooped, fun _ _ => .inl (by simp)⟩
  · rename_i hdead
    exact ⟨fun ha => absurd ha hdead, by simp [hstarted], hlooped, fun ha => absurd ha hdead⟩

theorem ne_accept_of_permits {e : ServerEvent κ τ} (h : l.permits e = true) (u : κ) : e ≠ .accept u := by
  rintro rfl
  simp [permits] at h

variable [DecidableEq τ]

theorem Sane.step {e : ServerLifetimeEvent κ τ} (h : Sane l) (hs : step cfg l e = some l') : Sane l' := by
  cases e with
  | start =>
    simp only [ServerLifetime.step,Option.ite_none_right_eq_some,Option.some.injEq] at hs
    obtain ⟨-,rfl⟩ := hs
    exact ⟨h.clean, by simp, h.looped, fun _ _ => .inl (by simp)⟩
  | accepted u =>
    simp only [ServerLifetime.step,Option.ite_none_right_eq_some,Option.some.injEq] at hs
    obtain ⟨⟨-,hpending⟩,rfl⟩ := hs
    refine ⟨h.clean, fun hf => ?_, h.looped, fun _ _ => .inr (.inl (by simp))⟩
    have hnone := (h.fresh hf).1
    omega
  | acceptFailed ec =>
    simp only [ServerLifetime.step,Option.ite_none_right_eq_some,Option.some.injEq] at hs
    obtain ⟨⟨hpending,-⟩,rfl⟩ := hs
    refine ⟨h.clean, fun hf => ?_, h.looped, fun _ _ => .inr (.inl (by simp))⟩
    have hnone := (h.fresh hf).1
    omega
  | handle j =>
    have hstarted : ∀ {c}, l.completed[j]? = some c → l.started = true := by
      intro c hj
      by_contra hf
      simp [(h.fresh (by simpa using hf)).2.1] at hj
    simp only [ServerLifetime.step] at hs
    split at hs
    · rename_i u hj
      simp only [TcpServer.step,Option.map_some,Option.some.injEq] at hs
      subst hs
      refine ⟨h.clean, by simp [hstarted hj], fun i hi => ?_, fun _ _ => ?_⟩
      · have hlt := h.looped i hi
        simp only [List.length_append,List.length_singleton]; omega
      · refine .inr (.inr ⟨l.server.peers.length, by simp, fun hi => ?_⟩)
        exact absurd (h.looped _ hi) (Nat.lt_irrefl _)
    · rename_i ec hj
      simp only [Option.some.injEq] at hs
      exact hs ▸ .doAccept h.clean (hstarted hj) h.looped
    · simp at hs
  | loop i =>
    simp only [ServerLifetime.step] at hs
    split at hs
    · rename_i p hi
      simp only [Option.ite_none_right_eq_some,Option.some.injEq] at hs
      obtain ⟨-,rfl⟩ := hs
      have hstarted : l.started = true := by
        by_contra hf
        simp [(h.fresh (by simpa using hf)).2.2] at hi
      refine .doAccept h.clean hstarted (fun k hk => ?_)
      rcases List.mem_append.mp hk with hk | hk
      · exact h.looped k hk
      · rw [List.mem_singleton.mp hk]
        exact (List.getElem?_eq_some_iff.mp hi).1
    · simp at hs
  | server e =>
    simp only [ServerLifetime.step,Option.ite_none_right_eq_some,Option.map_eq_some_iff] at hs
    obtain ⟨hpermits,t,ht,rfl⟩ := hs
    have hlen := (TcpServer.step_deed ht).length_le
    refine ⟨fun ha => ?_, fun hf => ?_, fun i hi => Nat.lt_of_lt_of_le (h.looped i hi) hlen, fun ha hst => ?_⟩
    · simpa [show l.alive = true from ha] using h.clean ha
    · obtain ⟨hpending,hcompleted,hpeers⟩ := h.fresh hf
      exact ⟨hpending, hcompleted, TcpServer.peers_step_eq_nil hpeers (ne_accept_of_permits hpermits) ht⟩
    · rcases h.busy ha hst with hb | hb | ⟨i,hi,hni⟩
      · exact .inl hb
      · exact .inr (.inl hb)
      · exact .inr (.inr ⟨i, Nat.lt_of_lt_of_le hi hlen, hni⟩)
  | destroy =>
    simp only [ServerLifetime.step,Option.ite_none_right_eq_some,Option.some.injEq] at hs
    obtain ⟨-,rfl⟩ := hs
    exact ⟨by simp, h.fresh, h.looped, by simp⟩

theorem Reached.sane (h : Reached cfg l) : Sane l := by
  refine Transition.Reach.invariant Sane ?_ (fun _ _ _ hi _ hs => hi.step hs) h
  rintro _ rfl
  exact ⟨fun _ => rfl, fun _ => ⟨rfl,rfl,rfl⟩, by simp [initial], by simp [initial]⟩

/-- Some run from `l` on uses a member of the server that was destroyed. -/
def Leads (cfg : ServerConfig κ) (l : ServerLifetime κ τ) : Prop :=
  ∃ es t, Transition.run (step cfg) l es = some t ∧ t.misused ≠ []

theorem Leads.back (e : ServerLifetimeEvent κ τ) (hs : step cfg l e = some l') (h : Leads cfg l') :
    Leads cfg l := by
  obtain ⟨es,t,hr,ht⟩ := h
  exact ⟨e :: es, t, by simp [hs,hr], ht⟩

theorem leads_doAccept (hdead : l.alive = false) : Leads cfg l.doAccept :=
  ⟨[], _, rfl, by simp [doAccept,hdead]⟩

theorem step_server {e : ServerEvent κ τ} {t : TcpServer κ τ} (hpermits : l.permits e = true)
    (ht : l.server.step cfg e = some t) : step cfg l (.server e) = some
      { l with
        server := t
        misused := if l.alive then l.misused else l.misused ++ uses l.server e t } := by
  simp [step,hpermits,ht]

/-- One line of `conn->start()`. -/
theorem step_start (cfg : ServerConfig κ) {s : TcpServer κ τ} {i : Nat} {p : Peer κ τ} (hi : s.peers[i]? = some p)
    (hacc : p.accepting = .announced) {boot : Boot}
    (hboot : (p.conn.boot = .resetReadTimeout ∧ boot = .startReceive) ∨
      (p.conn.boot = .startReceive ∧ boot = .done)) :
    ∃ t c, s.step cfg (.start i) = some t ∧ t.peers[i]? = some { p with conn := c } ∧ c.boot = boot := by
  have hcore : ∃ c, p.conn.toCore.start cfg.connection = some c ∧ c.boot = boot := by
    rcases hboot with ⟨hboot,rfl⟩ | ⟨hboot,rfl⟩
    · obtain ⟨_,_,_,hshape⟩ := Core.resetReadTimeout_shape cfg.connection
        { p.conn.toCore with boot := .startReceive } p.conn.socket.conn
      refine ⟨_, by simp only [Core.start,hboot,ServerConfig.connection]; rfl, ?_⟩
      exact (congrArg Core.boot hshape).trans rfl
    · obtain ⟨_,_,_,hshape⟩ := Core.startReceive_shape cfg.connection
        { p.conn.toCore with boot := .done } p.conn.socket.conn
      refine ⟨_, by simp only [Core.start,hboot,ServerConfig.connection]; rfl, ?_⟩
      exact (congrArg Core.boot hshape).trans rfl
  obtain ⟨c,hc,hb⟩ := hcore
  have hlt := (List.getElem?_eq_some_iff.mp hi).1
  refine ⟨s.update i p (p.conn.withCore c), p.conn.withCore c, ?_, ?_, hb⟩
  · simp [TcpServer.step,hi,hacc,TcpServer.connStep,Endpoint.step,hc]
  · simp [TcpServer.update,hlt]

/-- The server is destroyed while the accept handler of the connection `i` is in `conn->start()`. -/
structure Outlived (l : ServerLifetime κ τ) (i : Nat) (p : Peer κ τ) : Prop where
  dead : l.alive = false
  peer : l.server.peers[i]? = some p
  announced : p.accepting = .announced
  looped : i ∉ l.looped

theorem Outlived.start {i : Nat} {p : Peer κ τ} (h : Outlived l i p) {boot : Boot}
    (hboot : (p.conn.boot = .resetReadTimeout ∧ boot = .startReceive) ∨
      (p.conn.boot = .startReceive ∧ boot = .done))
    (hnext : ∀ (l' : ServerLifetime κ τ) (p' : Peer κ τ), Outlived l' i p' → p'.conn.boot = boot → Leads cfg l') :
    Leads cfg l := by
  obtain ⟨t,c,ht,hp,hc⟩ := step_start cfg h.peer h.announced hboot
  refine Leads.back (.server (.start i)) (step_server rfl ht) (hnext _ { p with conn := c } ?_ hc)
  exact ⟨h.dead, hp, h.announced, h.looped⟩

/-- The handler comes to its end, where it looks at the acceptor. -/
theorem Outlived.leads {i : Nat} {p : Peer κ τ} (h : Outlived l i p) : Leads cfg l := by
  have hdone : ∀ (l' : ServerLifetime κ τ) (p' : Peer κ τ), Outlived l' i p' → p'.conn.boot = .done → Leads cfg l' := by
    intro l' p' h' hboot
    refine Leads.back (.loop i) ?_ (leads_doAccept (l := { l' with looped := l'.looped ++ [i] }) h'.dead)
    simp [step,h'.peer,h'.announced,hboot,h'.looped]
  cases hboot : p.conn.boot with
  | resetReadTimeout =>
    exact h.start (.inl ⟨hboot,rfl⟩) (fun _ _ h' hboot' => h'.start (.inr ⟨hboot',rfl⟩) hdone)
  | startReceive => exact h.start (.inr ⟨hboot,rfl⟩) hdone
  | done => exact hdone l p h hboot

/-- An accept handler that has made its connection goes on to one of the members. -/
theorem leads_handling (hdead : l.alive = false) {i : Nat} (hi : i < l.server.peers.length)
    (hlooped : i ∉ l.looped) : Leads cfg l := by
  obtain ⟨p,hp⟩ : ∃ p, l.server.peers[i]? = some p := ⟨_, List.getElem?_eq_getElem hi⟩
  cases hacc : p.accepting with
  | constructed =>
    have ht : l.server.step cfg (.insert i) = some { l.server with
        peers := l.server.peers.set i { p with accepting := .inserted }
        connections := insert i l.server.connections } := by simp [TcpServer.step,hp,hacc]
    exact Leads.back _ (step_server rfl ht) ⟨[], _, rfl, by simp [hdead,uses]⟩
  | inserted =>
    have ht : l.server.step cfg (.onConnect i) = some { l.server with
        peers := l.server.peers.set i { p with accepting := .announced } } := by
      simp [TcpServer.step,hp,hacc]
    refine Leads.back _ (step_server rfl ht) (Outlived.leads (i := i) (p := { p with accepting := .announced }) ?_)
    exact ⟨hdead, by simp [hi], rfl, hlooped⟩
  | announced => exact Outlived.leads ⟨hdead, hp, hacc, hlooped⟩

theorem step_destroy (halive : l.alive = true) : step cfg l .destroy = some { l with alive := false } := by
  simp [step,halive]

/-- The accept loop of a server that was started goes on after its destructor. -/
theorem Sane.leads (cfg : ServerConfig κ) (h : Sane l) (halive : l.alive = true) (hstarted : l.started = true) :
    Leads cfg { l with alive := false } := by
  rcases h.busy halive hstarted with hpending | hcompleted | ⟨i,hi,hlooped⟩
  · have habort : ServerLifetime.step cfg { l with alive := false } (.acceptFailed .operationAborted) = some
        { l with
          alive := false
          pending := l.pending-1
          completed := l.completed ++ [.error .operationAborted] } := by
      simp [ServerLifetime.step,hpending]
    refine Leads.back _ habort (Leads.back (.handle l.completed.length) ?_ (leads_doAccept (l :=
      { l with alive := false, pending := l.pending-1 }) rfl))
    simp [ServerLifetime.step,List.eraseIdx_append_of_length_le]
  · obtain ⟨c,rest,hc⟩ := List.exists_cons_of_ne_nil hcompleted
    cases c with
    | error ec =>
      refine Leads.back (.handle 0) ?_ (leads_doAccept (l := { l with alive := false, completed := rest }) rfl)
      simp [ServerLifetime.step,hc]
    | ok u =>
      have hmake : ServerLifetime.step cfg { l with alive := false } (.handle 0) = some
          { l with
            alive := false
            completed := rest
            server := { l.server with
              peers := l.server.peers ++ [⟨.initial .tcpConnection ⟨u,0⟩, .constructed⟩] } } := by
        simp [ServerLifetime.step,hc,TcpServer.step]
      refine Leads.back _ hmake (leads_handling rfl (i := l.server.peers.length) (by simp) (fun hi => ?_))
      exact absurd (h.looped _ hi) (Nat.lt_irrefl _)
  · exact leads_handling rfl hi hlooped

/-- A server that was destroyed before `start()` has nothing that could call it. -/
structure Vacant (l : ServerLifetime κ τ) : Prop where
  dead : l.alive = false
  pending : l.pending = 0
  completed : l.completed = []
  peers : l.server.peers = []
  misused : l.misused = []

theorem Vacant.step {e : ServerLifetimeEvent κ τ} (h : Vacant l) (hs : step cfg l e = some l') : Vacant l' := by
  cases e with
  | server e =>
    simp only [ServerLifetime.step,Option.ite_none_right_eq_some,Option.map_eq_some_iff] at hs
    obtain ⟨hpermits,t,ht,rfl⟩ := hs
    have hpeers := TcpServer.peers_step_eq_nil h.peers (ne_accept_of_permits hpermits) ht
    have huses : uses l.server e t = [] := by
      cases e with
      | insert i => simp [TcpServer.step,h.peers] at ht
      | broadcast t data order => simp [permits,h.dead] at hpermits
      | _ => simp [uses,TcpServer.disconnects,hpeers,h.peers]
    exact ⟨h.dead, h.pending, h.completed, hpeers, by simp [h.misused,huses]⟩
  | _ => simp [ServerLifetime.step,h.dead,h.pending,h.completed,h.peers] at hs

/-- A server can be destroyed while its context runs on just if it was never started. -/
theorem destroyed_server_unused_iff (cfg : ServerConfig κ) (l : ServerLifetime κ τ) (h : Reached cfg l)
    (halive : l.alive = true) : Harmless cfg l ↔ l.started = false := by
  have hsane := h.sane
  constructor
  · intro hharmless
    by_contra hstarted
    obtain ⟨es,t,hr,ht⟩ := Sane.leads cfg hsane halive (by simpa using hstarted)
    exact ht (hharmless es t (by simp [step_destroy halive,hr]))
  · intro hstarted es t hr
    obtain ⟨hpending,hcompleted,hpeers⟩ := hsane.fresh hstarted
    rw [Transition.run_cons, step_destroy halive, Option.bind_some] at hr
    have hvacant : Vacant { l with alive := false } := ⟨rfl, hpending, hcompleted, hpeers, hsane.clean halive⟩
    exact (Transition.run_preserves Vacant (fun _ _ _ hv hs => hv.step hs) hvacant hr).misused

/-- A client is accepted and its connection is set up. -/
def acceptOne : List (ServerLifetimeEvent Unit Unit) :=
  [.start, .accepted (), .handle 0, .server (.insert 0), .server (.onConnect 0), .server (.start 0),
    .server (.start 0), .loop 0]

/-- A server that is dropped right after its construction, and one that has a live connection. -/
theorem destroyed_server_unused_new :
    Harmless TcpServer.bareServer (initial : ServerLifetime Unit Unit) ∧
    ∃ l : ServerLifetime Unit Unit, Transition.run (step TcpServer.bareServer) initial acceptOne = some l ∧
      Reached TcpServer.bareServer l ∧ l.alive = true ∧ 0 ∈ l.server.connections ∧
      ¬ Harmless TcpServer.bareServer l := by
  refine ⟨(destroyed_server_unused_iff TcpServer.bareServer initial (.start rfl) rfl).mpr rfl, ?_⟩
  have hrun : (Transition.run (step TcpServer.bareServer) initial acceptOne).map
      (fun l : ServerLifetime Unit Unit => (l.alive, l.started, decide (0 ∈ l.server.connections))) =
      some (true, true, true) := by decide +kernel
  obtain ⟨l,hl,hv⟩ := Option.map_eq_some_iff.mp hrun
  simp only [Prod.mk.injEq,decide_eq_true_eq] at hv
  obtain ⟨halive,hstarted,hlive⟩ := hv
  have hreach : Reached TcpServer.bareServer l := Transition.reachable_run (.start rfl) hl
  refine ⟨l, hl, hreach, halive, hlive, fun hharmless => ?_⟩
  have hnever := (destroyed_server_unused_iff TcpServer.bareServer l hreach halive).mp hharmless
  simp [hstarted] at hnever

/-- The pending accept is aborted and its handler asks the acceptor whether it is open. And a
connection that outlives the server loses its peer: its disconnect callback erases it from
`connections_`. -/
theorem destroyed_server_used :
    (∃ l : ServerLifetime Unit Unit, Reached TcpServer.bareServer l ∧ l.alive = false ∧
      l.misused = [.acceptor]) ∧
    ∃ l : ServerLifetime Unit Unit, Reached TcpServer.bareServer l ∧ l.alive = false ∧
      l.misused = [.connections] := by
  constructor
  · have hrun : (Transition.run (step TcpServer.bareServer) initial
        [.start, .destroy, .acceptFailed .operationAborted, .handle 0]).map
        (fun l : ServerLifetime Unit Unit => (l.alive, l.misused)) = some (false, [.acceptor]) := by
      decide +kernel
    obtain ⟨l,hl,hv⟩ := Option.map_eq_some_iff.mp hrun
    obtain ⟨hdead,hmisused⟩ := Prod.mk.inj hv
    exact ⟨l, Transition.reachable_run (.start rfl) hl, hdead, hmisused⟩
  · have hrun : (Transition.run (step TcpServer.bareServer) initial
        (acceptOne ++ [.destroy, .server (.conn 0 (.readFail 0 .other)),
          .server (.conn 0 .run), .server (.conn 0 (.act true))])).map
        (fun l : ServerLifetime Unit Unit => (l.alive, l.misused)) = some (false, [.connections]) := by
      decide +kernel
    obtain ⟨l,hl,hv⟩ := Option.map_eq_some_iff.mp hrun
    obtain ⟨hdead,hmisused⟩ := Prod.mk.inj hv
    exact ⟨l, Transition.reachable_run (.start rfl) hl, hdead, hmisused⟩

end ServerLifetime

end Librim
