import Librim.ServerLifetime

/-! The accept loops of a `TcpServer`: a call of `start()` begins one, and each accept handler goes on with
the one that it belongs to. -/

set_option autoImplicit false

namespace Librim

variable {κ τ : Type}

def ServerLifetimeEvent.isStart : ServerLifetimeEvent κ τ → Bool
  | .start => true
  | _ => false

/-- The lines of the accept handler of the connection `i`, once it has made it. -/
def ServerLifetimeEvent.isLine (i : Nat) : ServerLifetimeEvent κ τ → Bool
  | .server (.insert j) | .server (.onConnect j) | .server (.start j) | .loop j => i == j
  | _ => false

namespace TcpServer

/-- `on_connect_` was told about the connection, and its receive loop was started. -/
def Introduced (s : TcpServer κ τ) (i : Nat) : Prop :=
  ∃ p, s.peers[i]? = some p ∧ p.accepting = .announced ∧ p.conn.boot = .done

variable [DecidableEq τ] {cfg : ServerConfig κ} {s t : TcpServer κ τ}

omit [DecidableEq τ] in
theorem Introduced.set {i j : Nat} {p q : Peer κ τ} (h : s.Introduced i) (hj : s.peers[j]? = some p)
    (hp : t.peers = s.peers.set j q) (hacc : p.accepting = .announced → q.accepting = .announced)
    (hboot : p.accepting = .announced → p.conn.boot = .done → q.conn.boot = .done) : t.Introduced i := by
  obtain ⟨r,hr,hannounced,hdone⟩ := h
  by_cases hij : i = j
  · subst hij
    obtain rfl := Option.some.inj (hr.symm.trans hj)
    exact ⟨q, hp ▸ (getElem?_peers_set hj q q i).mpr (.inl ⟨rfl,rfl⟩), hacc hannounced, hboot hannounced hdone⟩
  · exact ⟨r, hp ▸ (getElem?_peers_set hj q r i).mpr (.inr ⟨hij,hr⟩), hannounced, hdone⟩

theorem Introduced.deed {i : Nat} {calls : List (ServerCall τ)} (h : s.Introduced i) (hd : Deed cfg s calls t) :
    t.Introduced i := by
  cases hd with
  | accept =>
    obtain ⟨p,hp,hannounced,hdone⟩ := h
    exact ⟨p, (getElem?_peers_concat rfl i p).mpr (.inl hp), hannounced, hdone⟩
  | insert hj hacc => exact h.set hj rfl (fun hx => by simp [hacc] at hx) (fun hx => by simp [hacc] at hx)
  | announce hj hacc => exact h.set hj rfl (fun _ => rfl) (fun hx => by simp [hacc] at hx)
  | conn hj _ hs => exact h.set hj rfl id (fun _ => (Endpoint.step_move hs).boot)
  | broadcast _ _ _ => exact h
  | sendNext _ hj hs => exact h.set hj rfl id (fun _ => (Endpoint.step_move hs).boot)

/-- Only `accept` makes a connection, and no step drops one. -/
theorem length_peers_step {e : ServerEvent κ τ} (he : ∀ u, e ≠ .accept u) (hs : step cfg s e = some t) :
    t.peers.length = s.peers.length := by
  have hcall : ∀ {u : τ} {i : Nat} {data : List Byte} {r : TcpServer κ τ},
      s.callSend cfg u i data = some r → r.peers.length = s.peers.length := by
    intro u i data r hr
    obtain ⟨p,c,-,-,rfl⟩ := callSend_eq_some.mp hr
    exact List.length_set
  have hconn : ∀ {i : Nat} {p : Peer κ τ} {e : Event τ} {r : TcpServer κ τ},
      s.connStep cfg i p e = some r → r.peers.length = s.peers.length := by
    intro i p e r hr
    obtain ⟨c,-,rfl⟩ := connStep_eq_some.mp hr
    exact List.length_set
  cases e with
  | accept u => exact absurd rfl (he u)
  | broadcast u data order =>
    simp only [step,Option.ite_none_right_eq_some,Option.some.injEq] at hs
    exact hs.2 ▸ rfl
  | sendNext u =>
    simp only [step] at hs
    split at hs
    · simp only [Option.ite_none_right_eq_some,Option.map_eq_some_iff] at hs
      obtain ⟨-,r,hr,rfl⟩ := hs
      exact hcall (r := r) hr
    · simp at hs
  | insert i | onConnect i =>
    simp only [step] at hs
    split at hs
    · simp only [Option.ite_none_right_eq_some,Option.some.injEq] at hs
      obtain ⟨-,rfl⟩ := hs
      exact List.length_set
    · simp at hs
  | start i | close i | conn i e =>
    simp only [step] at hs
    split at hs
    · simp only [Option.ite_none_right_eq_some] at hs
      exact hconn hs.2
    · simp at hs
  | send u i data =>
    simp only [step] at hs
    split at hs
    · simp only [Option.ite_none_right_eq_some] at hs
      exact hcall hs.2
    · simp at hs

end TcpServer

namespace ServerLifetime

/-- The connections whose accept handlers run. -/
def handling (l : ServerLifetime κ τ) : List Nat :=
  (List.range l.server.peers.length).filter (· ∉ l.looped)

/-- The accepts in progress, the handlers that wait and those that run. -/
def loops (l : ServerLifetime κ τ) : Nat := l.pending+l.completed.length+l.handling.length

theorem mem_handling {l : ServerLifetime κ τ} {i : Nat} :
    i ∈ l.handling ↔ i < l.server.peers.length ∧ i ∉ l.looped := by
  simp [handling]

theorem loops_doAccept {l : ServerLifetime κ τ} (halive : l.alive = true) : l.doAccept.loops = l.loops+1 := by
  simp only [doAccept,if_pos halive,loops,handling]
  omega

theorem alive_doAccept (l : ServerLifetime κ τ) : l.doAccept.alive = l.alive := by
  unfold doAccept
  split <;> rfl

/-- A handler that comes to its end is one less. -/
theorem length_handling_looped {l : ServerLifetime κ τ} {i : Nat} (hi : i ∈ l.handling) :
    ({ l with looped := l.looped ++ [i] } : ServerLifetime κ τ).handling.length+1 = l.handling.length := by
  have hnodup : l.handling.Nodup := List.nodup_range.filter _
  have herase : ({ l with looped := l.looped ++ [i] } : ServerLifetime κ τ).handling = l.handling.erase i := by
    rw [hnodup.erase_eq_filter, handling, handling, List.filter_filter]
    refine List.filter_congr (fun j _ => ?_)
    by_cases hj : j = i <;> simp [hj]
  have hpos := List.length_pos_of_mem hi
  rw [herase, List.length_erase_of_mem hi]
  omega

variable [DecidableEq τ] {cfg : ServerConfig κ} {l l' : ServerLifetime κ τ} {e : ServerLifetimeEvent κ τ}

/-- What a step can be, with the test that it passed. -/
inductive Step (cfg : ServerConfig κ) (l : ServerLifetime κ τ) :
    ServerLifetimeEvent κ τ → ServerLifetime κ τ → Prop where
  | started : l.alive = true → Step cfg l .start { l with started := true, pending := l.pending+1 }
  | accepted {u : κ} : l.alive = true → 0 < l.pending →
      Step cfg l (.accepted u) { l with pending := l.pending-1, completed := l.completed ++ [.ok u] }
  | failed {ec : ErrorCode} : 0 < l.pending →
      Step cfg l (.acceptFailed ec) { l with pending := l.pending-1, completed := l.completed ++ [.error ec] }
  | made {j : Nat} {u : κ} {t : TcpServer κ τ} : l.completed[j]? = some (.ok u) →
      l.server.step cfg (.accept u) = some t →
      Step cfg l (.handle j) { l with server := t, completed := l.completed.eraseIdx j }
  | refused {j : Nat} {ec : ErrorCode} : l.completed[j]? = some (.error ec) →
      Step cfg l (.handle j) (doAccept { l with completed := l.completed.eraseIdx j })
  | looped {i : Nat} {p : Peer κ τ} : l.server.peers[i]? = some p → p.accepting = .announced →
      p.conn.boot = .done → i ∉ l.looped → Step cfg l (.loop i) (doAccept { l with looped := l.looped ++ [i] })
  | served {e : ServerEvent κ τ} {t : TcpServer κ τ} {misused : List Member} : (∀ u, e ≠ .accept u) →
      l.server.step cfg e = some t → Step cfg l (.server e) { l with server := t, misused := misused }
  | destroyed : l.alive = true → Step cfg l .destroy { l with alive := false }

theorem step_cases (hs : step cfg l e = some l') : Step cfg l e l' := by
  cases e with
  | start =>
    simp only [step,Option.ite_none_right_eq_some,Option.some.injEq] at hs
    exact hs.2 ▸ .started hs.1
  | accepted u =>
    simp only [step,Option.ite_none_right_eq_some,Option.some.injEq] at hs
    exact hs.2 ▸ .accepted hs.1.1 hs.1.2
  | acceptFailed ec =>
    simp only [step,Option.ite_none_right_eq_some,Option.some.injEq] at hs
    exact hs.2 ▸ .failed hs.1.1
  | handle j =>
    simp only [step] at hs
    split at hs
    · rename_i u hj
      simp only [Option.map_eq_some_iff] at hs
      obtain ⟨t,ht,rfl⟩ := hs
      exact .made hj ht
    · rename_i ec hj
      simp only [Option.some.injEq] at hs
      exact hs ▸ .refused hj
    · simp at hs
  | loop i =>
    simp only [step] at hs
    split at hs
    · rename_i p hi
      simp only [Option.ite_none_right_eq_some,Option.some.injEq] at hs
      obtain ⟨⟨hacc,hboot,hlooped⟩,rfl⟩ := hs
      exact .looped hi hacc hboot hlooped
    · simp at hs
  | server e =>
    simp only [step,Option.ite_none_right_eq_some,Option.map_eq_some_iff] at hs
    obtain ⟨hpermits,t,ht,rfl⟩ := hs
    exact .served (ne_accept_of_permits hpermits) ht
  | destroy =>
    simp only [step,Option.ite_none_right_eq_some,Option.some.injEq] at hs
    exact hs.2 ▸ .destroyed hs.1

/-- A server that was destroyed stays so. -/
theorem alive_back (hs : Step cfg l e l') (h : l'.alive = true) : l.alive = true := by
  cases hs with
  | started halive | accepted halive _ | destroyed halive => exact halive
  | failed _ | made _ _ | served _ _ => exact h
  | refused _ | looped _ _ _ _ =>
    rw [alive_doAccept] at h
    exact h

/-- Only `start()` begins a loop, and no step ends one. -/
theorem Sane.loops_step (h : Sane l) (hs : Step cfg l e l') (halive : l'.alive = true) :
    l'.loops = l.loops+[e].countP ServerLifetimeEvent.isStart := by
  have hlive := alive_back hs halive
  simp only [List.countP_singleton]
  cases hs with
  | started _ =>
    simp only [loops,handling,ServerLifetimeEvent.isStart,↓reduceIte]
    omega
  | accepted _ hpending | failed hpending =>
    simp only [loops,handling,List.length_append,List.length_singleton,ServerLifetimeEvent.isStart,
      Bool.false_eq_true,↓reduceIte]
    omega
  | made hj ht =>
    have hlt := (List.getElem?_eq_some_iff.mp hj).1
    have hnew : l.server.peers.length ∉ l.looped := fun hi => absurd (h.looped _ hi) (Nat.lt_irrefl _)
    simp only [TcpServer.step,Option.some.injEq] at ht
    simp only [loops,handling,← ht,List.length_append,List.length_singleton,List.range_succ,List.filter_append,
      List.filter_singleton,hnew,not_false_eq_true,decide_true,cond_true,List.length_eraseIdx_of_lt hlt,
      ServerLifetimeEvent.isStart,Bool.false_eq_true,↓reduceIte]
    omega
  | @refused j ec hj =>
    have hlt := (List.getElem?_eq_some_iff.mp hj).1
    rw [loops_doAccept (l := { l with completed := l.completed.eraseIdx j }) hlive]
    simp only [loops,handling,List.length_eraseIdx_of_lt hlt,ServerLifetimeEvent.isStart,Bool.false_eq_true,
      ↓reduceIte]
    omega
  | @looped i p hi _ _ hlooped =>
    have hless := length_handling_looped (mem_handling.mpr ⟨(List.getElem?_eq_some_iff.mp hi).1,hlooped⟩)
    rw [loops_doAccept (l := { l with looped := l.looped ++ [i] }) hlive]
    simp only [loops,ServerLifetimeEvent.isStart,Bool.false_eq_true,↓reduceIte]
    omega
  | served he ht =>
    simp [loops,handling,TcpServer.length_peers_step he ht,ServerLifetimeEvent.isStart]
  | destroyed _ => simp at halive

theorem Sane.loops_run (h : Sane l) {es : List (ServerLifetimeEvent κ τ)}
    (hr : Transition.run (ServerLifetime.step cfg) l es = some l') (halive : l'.alive = true) :
    l.alive = true ∧ l'.loops = l.loops+es.countP ServerLifetimeEvent.isStart := by
  induction es generalizing l with
  | nil =>
    simp only [Transition.run_nil,Option.some.injEq] at hr
    exact hr ▸ ⟨hr ▸ halive, rfl⟩
  | cons e es ih =>
    simp only [Transition.run_cons,Option.bind_eq_some_iff] at hr
    obtain ⟨m,hm,hr⟩ := hr
    obtain ⟨hlive,hloops⟩ := ih (h.step hm) hr
    have hstep := h.loops_step (step_cases hm) hlive
    rw [← List.singleton_append, List.countP_append]
    exact ⟨alive_back (step_cases hm) hlive, by omega⟩

/-- The handler of the connection `i`, by these lines of it, goes on to the next accept. -/
structure GoesOn (cfg : ServerConfig κ) (i : Nat) (l : ServerLifetime κ τ)
    (es : List (ServerLifetimeEvent κ τ)) (l' : ServerLifetime κ τ) : Prop where
  lines : ∀ e ∈ es, e.isLine i = true
  run : Transition.run (step cfg) l es = some l'
  pending : l'.pending = l.pending+1
  completed : l'.completed = l.completed
  introduced : l'.server.Introduced i

/-- The handler of the connection `i` needs at most `n` lines to the next accept. -/
def Goes (cfg : ServerConfig κ) (i n : Nat) (l : ServerLifetime κ τ) : Prop :=
  ∃ es l', es.length ≤ n ∧ GoesOn cfg i l es l'

theorem Goes.mono {i n k : Nat} (h : Goes cfg i n l) (hle : n ≤ k) : Goes cfg i k l := by
  obtain ⟨es,l',hlen,h⟩ := h
  exact ⟨es, l', Nat.le_trans hlen hle, h⟩

theorem Goes.line {i n : Nat} {t : TcpServer κ τ} {e : ServerEvent κ τ} (halive : l.alive = true)
    (he : (ServerLifetimeEvent.server e).isLine i = true) (hpermits : l.permits e = true)
    (ht : l.server.step cfg e = some t) (h : Goes cfg i n { l with server := t }) : Goes cfg i (n+1) l := by
  obtain ⟨es,l',hlen,h⟩ := h
  refine ⟨.server e :: es, l', by simpa using hlen, ⟨fun e' hmem => ?_, ?_, h.pending, h.completed, h.introduced⟩⟩
  · rcases List.mem_cons.mp hmem with rfl | hmem
    · exact he
    · exact h.lines e' hmem
  · rw [Transition.run_cons, step_server hpermits ht, if_pos halive, Option.bind_some]
    exact h.run

/-- What is left is `if (acceptor_.is_open()) do_accept()`. -/
theorem goes_done {i : Nat} {p : Peer κ τ} (cfg : ServerConfig κ) (halive : l.alive = true)
    (hi : l.server.peers[i]? = some p) (hacc : p.accepting = .announced) (hboot : p.conn.boot = .done)
    (hlooped : i ∉ l.looped) : Goes cfg i 1 l := by
  refine ⟨[.loop i], doAccept { l with looped := l.looped ++ [i] }, by simp, ⟨by simp [ServerLifetimeEvent.isLine],
    ?_, ?_, ?_, ?_⟩⟩
  · simp [step,hi,hacc,hboot,hlooped]
  · simp [doAccept,halive]
  · simp [doAccept,halive]
  · simp only [doAccept,halive,↓reduceIte]
    exact ⟨p, hi, hacc, hboot⟩

theorem goes_started {i : Nat} {p : Peer κ τ} (cfg : ServerConfig κ) (halive : l.alive = true)
    (hi : l.server.peers[i]? = some p) (hacc : p.accepting = .announced) (hlooped : i ∉ l.looped) :
    Goes cfg i 3 l := by
  have hline : (ServerLifetimeEvent.server (.start i) : ServerLifetimeEvent κ τ).isLine i = true := by
    simp [ServerLifetimeEvent.isLine]
  have hsecond : ∀ (l : ServerLifetime κ τ) (p : Peer κ τ), l.alive = true → l.server.peers[i]? = some p →
      p.accepting = .announced → i ∉ l.looped → p.conn.boot = .startReceive → Goes cfg i 2 l := by
    intro l p halive hi hacc hlooped hboot
    obtain ⟨t,c,ht,hp,hc⟩ := step_start cfg hi hacc (.inr ⟨hboot,rfl⟩)
    exact .line halive hline rfl ht (goes_done cfg halive hp hacc hc hlooped)
  cases hboot : p.conn.boot with
  | resetReadTimeout =>
    obtain ⟨t,c,ht,hp,hc⟩ := step_start cfg hi hacc (.inl ⟨hboot,rfl⟩)
    exact .line halive hline rfl ht (hsecond _ _ halive hp hacc hlooped hc)
  | startReceive =>
    exact (hsecond l p halive hi hacc hlooped hboot).mono (by omega)
  | done =>
    exact (goes_done cfg halive hi hacc hboot hlooped).mono (by omega)

/-- A handler that runs is stopped by nothing before it has begun the next accept. -/
theorem goes_handling {i : Nat} (cfg : ServerConfig κ) (halive : l.alive = true) (hi : i ∈ l.handling) :
    Goes cfg i 5 l := by
  obtain ⟨hlt,hlooped⟩ := mem_handling.mp hi
  obtain ⟨p,hp⟩ : ∃ p, l.server.peers[i]? = some p := ⟨_, List.getElem?_eq_getElem hlt⟩
  have hannounce : ∀ (l : ServerLifetime κ τ) (p : Peer κ τ), l.alive = true → l.server.peers[i]? = some p →
      p.accepting = .inserted → i ∉ l.looped → Goes cfg i 4 l := by
    intro l p halive hp hacc hlooped
    have ht : l.server.step cfg (.onConnect i) = some { l.server with
        peers := l.server.peers.set i { p with accepting := .announced } } := by
      simp [TcpServer.step,hp,hacc]
    refine .line halive (by simp [ServerLifetimeEvent.isLine]) rfl ht
      (goes_started (p := { p with accepting := .announced }) cfg halive ?_ rfl hlooped)
    exact (TcpServer.getElem?_peers_set hp _ _ i).mpr (.inl ⟨rfl,rfl⟩)
  cases hacc : p.accepting with
  | constructed =>
    have ht : l.server.step cfg (.insert i) = some { l.server with
        peers := l.server.peers.set i { p with accepting := .inserted }
        connections := insert i l.server.connections } := by simp [TcpServer.step,hp,hacc]
    refine .line halive (by simp [ServerLifetimeEvent.isLine]) rfl ht
      (hannounce _ { p with accepting := .inserted } halive ?_ rfl hlooped)
    exact (TcpServer.getElem?_peers_set hp _ _ i).mpr (.inl ⟨rfl,rfl⟩)
  | inserted =>
    exact (hannounce l p halive hp hacc hlooped).mono (by omega)
  | announced =>
    exact (goes_started cfg halive hp hacc hlooped).mono (by omega)

/-- What a handler has left behind. -/
def Established (l : ServerLifetime κ τ) : Prop := ∀ i ∈ l.looped, l.server.Introduced i

theorem Established.step (h : Established l) (hs : Step cfg l e l') : Established l' := by
  have hdo : ∀ {m : ServerLifetime κ τ}, Established m → Established m.doAccept := by
    intro m hm
    unfold doAccept
    split <;> exact hm
  cases hs with
  | started _ | accepted _ _ | failed _ | destroyed _ => exact h
  | made _ ht => exact fun i hi => (h i hi).deed (TcpServer.step_deed ht)
  | served _ ht => exact fun i hi => (h i hi).deed (TcpServer.step_deed ht)
  | refused _ => exact hdo h
  | looped hi hacc hboot _ =>
    refine hdo (fun k hk => ?_)
    rcases List.mem_append.mp hk with hk | hk
    · exact h k hk
    · obtain rfl := List.mem_singleton.mp hk
      exact ⟨_, hi, hacc, hboot⟩

/-- A handler that waits runs: an error only begins the next accept, and otherwise there is a
connection to set up first. -/
structure Listening (cfg : ServerConfig κ) (starts : Nat) (l : ServerLifetime κ τ) : Prop where
  loops : l.loops = starts
  failed : ∀ j ec, l.completed[j]? = some (.error ec) →
    ∃ l', step cfg l (.handle j) = some l' ∧ l'.pending = l.pending+1
  made : ∀ j u, l.completed[j]? = some (.ok u) →
    ∃ l', step cfg l (.handle j) = some l' ∧ l'.pending = l.pending ∧ Goes cfg l.server.peers.length 5 l'
  running : ∀ i ∈ l.handling, Goes cfg i 5 l
  looped : ∀ i ∈ l.looped, l.server.Introduced i

/-- As long as a server lives, each call of `start()` keeps one accept loop going, which is in an accept, waits
or sets up a connection, and by at most six lines of its own comes to the next accept; and
whatever connections were accepted before have been announced and receive. -/
theorem accept_loops_live (cfg : ServerConfig κ) (es : List (ServerLifetimeEvent κ τ)) (l : ServerLifetime κ τ)
    (hr : Transition.run (step cfg) initial es = some l) (halive : l.alive = true) :
    Listening cfg (es.countP ServerLifetimeEvent.isStart) l := by
  have hinitial : Reached cfg (initial : ServerLifetime κ τ) := .start rfl
  have hreached : Reached cfg l := Transition.reachable_run hinitial hr
  have hsane := hreached.sane
  have hestablished : Established l :=
    Transition.run_preserves Established (fun _ _ _ h hs => h.step (step_cases hs)) (by simp [Established,initial]) hr
  refine ⟨?_, fun j ec hj => ?_, fun j u hj => ?_, fun i hi => goes_handling cfg halive hi, hestablished⟩
  · have hrun := (hinitial.sane.loops_run hr halive).2
    simpa [loops,handling,initial,TcpServer.initial] using hrun
  · refine ⟨doAccept { l with completed := l.completed.eraseIdx j }, by simp [step,hj], ?_⟩
    simp [doAccept,halive]
  · let s : TcpServer κ τ := { l.server with
      peers := l.server.peers ++ [⟨.initial .tcpConnection ⟨u,0⟩, .constructed⟩] }
    refine ⟨{ l with server := s, completed := l.completed.eraseIdx j }, ?_, rfl, goes_handling cfg halive ?_⟩
    · simp [step,hj,TcpServer.step,s]
    · rw [mem_handling]
      exact ⟨by simp [s], fun hi => absurd (hsane.looped _ hi) (Nat.lt_irrefl _)⟩

/-- The second client is accepted while the first is set up; and `start()` was called twice. -/
def startTwice : List (ServerLifetimeEvent Unit Unit) :=
  [.start, .start, .accepted (), .accepted (), .handle 0, .server (.insert 0)]

theorem accept_loops_live_twice : ∃ l : ServerLifetime Unit Unit,
    Transition.run (step TcpServer.bareServer) initial startTwice = some l ∧ l.alive = true ∧
    (l.pending, l.completed.length, l.handling) = (0,1,[0]) ∧ Listening TcpServer.bareServer 2 l := by
  have hrun : (Transition.run (step TcpServer.bareServer) initial startTwice).map
      (fun l : ServerLifetime Unit Unit => (l.alive, l.pending, l.completed.length, l.handling)) =
      some (true,0,1,[0]) := by decide +kernel
  obtain ⟨l,hl,hv⟩ := Option.map_eq_some_iff.mp hrun
  obtain ⟨halive,hv⟩ := Prod.mk.inj hv
  exact ⟨l, hl, halive, hv, accept_loops_live TcpServer.bareServer startTwice l hl halive⟩

end ServerLifetime

end Librim
