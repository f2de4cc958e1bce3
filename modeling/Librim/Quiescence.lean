import Librim.EndpointPipeline
import Librim.EndpointCore

/-! What still happens on a TCP connection after the body of `close()` has run for it. -/

set_option autoImplicit false

namespace Librim

variable {κ τ : Type}

/-- The connection that an observation is about, unless it opens or closes it. -/
def Obs.owner : Obs → Option Nat
  | .callback owner _ _ | .read owner | .wait owner => some owner
  | .connected _ | .closed _ => none

def Obs.closes : Obs → Option Nat
  | .closed conn => some conn
  | _ => none

/-- After a connection was closed no callback is called for it, and neither a read nor a wait
is started. -/
def Quiet (log : List (Nat × Obs)) : Prop :=
  log.Pairwise (fun x y => x.2.closes = none ∨ y.2.owner ≠ x.2.closes)

instance (log : List (Nat × Obs)) : Decidable (Quiet log) :=
  inferInstanceAs (Decidable (log.Pairwise (fun x y => x.2.closes = none ∨ y.2.owner ≠ x.2.closes)))

def Act.owner : Act → Option Nat
  | .scan owner _ | .datagram owner _ | .resetReadTimeout owner | .startReceive owner => some owner
  | .call _ | .close => none

def Closed (log : List (Nat × Obs)) (k : Nat) : Prop := ∃ t, (t,.closed k) ∈ log

/-- Nothing is left to do for connection `k`. -/
structure Finished (kind : Kind) (boot : Boot) (ns : List Notice) (acts : List Act) (k : Nat) :
    Prop where
  acts : ∀ a ∈ acts, a.owner ≠ some k
  notices : ∀ r n, .received r (.ok n) ∈ ns → r.conn ≠ k
  boot : kind = .tcpConnection → boot = .done

/-- Every connection that was closed is finished, and its descriptor is gone. -/
structure Ended (kind : Kind) (log : List (Nat × Obs)) (socket : Socket) (boot : Boot)
    (ns : List Notice) (acts : List Act) : Prop where
  quiet : Quiet log
  old : ∀ k, Closed log k → k ≤ socket.conn ∧ (socket.isOpen = true → k ≠ socket.conn)
  finished : ∀ k, Closed log k → Finished kind boot ns acts k

theorem Quiet.append {log : List (Nat × Obs)} (h : Quiet log) {t : Nat} {o : Obs}
    (ho : ∀ k, Closed log k → o.owner ≠ some k) : Quiet (log ++ [(t,o)]) := by
  refine List.pairwise_append.mpr ⟨h, by simp, ?_⟩
  rintro ⟨t',o'⟩ hx y hy
  rw [List.mem_singleton.mp hy]
  cases o' with
  | closed k => exact .inr (ho k ⟨t',hx⟩)
  | _ => exact .inl rfl

theorem closed_append {log : List (Nat × Obs)} {t k : Nat} {o : Obs} (ho : o.closes = none) :
    Closed (log ++ [(t,o)]) k ↔ Closed log k := by
  constructor
  · rintro ⟨t',hm⟩
    rcases List.mem_append.mp hm with hm | hm
    · exact ⟨t',hm⟩
    · obtain ⟨-,rfl⟩ := Prod.mk.inj (List.mem_singleton.mp hm)
      simp [Obs.closes] at ho
  · rintro ⟨t',hm⟩
    exact ⟨t', List.mem_append_left _ hm⟩

section ended
variable {kind : Kind} {log : List (Nat × Obs)} {socket : Socket} {boot : Boot} {ns : List Notice}
  {acts : List Act}

theorem Ended.emit (h : Ended kind log socket boot ns acts) {t : Nat} {o : Obs}
    (hc : o.closes = none) (ho : ∀ k, Closed log k → o.owner ≠ some k) :
    Ended kind (log ++ [(t,o)]) socket boot ns acts where
  quiet := h.quiet.append ho
  old := fun k hk => h.old k ((closed_append hc).mp hk)
  finished := fun k hk => h.finished k ((closed_append hc).mp hk)

/-- The new program acts for no connection that the old one did not act for. -/
theorem Ended.program (h : Ended kind log socket boot ns acts) {acts' : List Act}
    (ha : ∀ a ∈ acts', a.owner = none ∨ ∃ a₀ ∈ acts, a₀.owner = a.owner) :
    Ended kind log socket boot ns acts' where
  quiet := h.quiet
  old := h.old
  finished := by
    intro k hk
    refine { h.finished k hk with acts := fun a hm hown => ?_ }
    rcases ha a hm with hn | ⟨a₀,hm₀,heq⟩
    · rw [hn] at hown; simp at hown
    · exact (h.finished k hk).acts a₀ hm₀ (heq.trans hown)

theorem Ended.notice (h : Ended kind log socket boot ns acts) {n : Notice}
    (hn : ∀ k r m, Closed log k → n = .received r (.ok m) → r.conn ≠ k) :
    Ended kind log socket boot (ns ++ [n]) acts where
  quiet := h.quiet
  old := h.old
  finished := by
    intro k hk
    refine { h.finished k hk with notices := fun r m hm => ?_ }
    rcases List.mem_append.mp hm with hm | hm
    · exact (h.finished k hk).notices r m hm
    · exact hn k r m hk (List.mem_singleton.mp hm).symm

/-- The handler at the front of the strand starts. -/
theorem Ended.handle {n : Notice} (h : Ended kind log socket boot (n :: ns) []) {acts' : List Act}
    (ha : ∀ a ∈ acts', ∀ k, Closed log k → a.owner ≠ some k) :
    Ended kind log socket boot ns acts' where
  quiet := h.quiet
  old := h.old
  finished := fun k hk => ⟨fun a hm => ha a hm k hk,
    fun r m hm => (h.finished k hk).notices r m (List.mem_cons_of_mem _ hm), (h.finished k hk).boot⟩

theorem Ended.booted (h : Ended kind log socket boot ns acts) (boot' : Boot)
    (hb : kind = .tcpConnection → boot = .done → boot' = .done) :
    Ended kind log socket boot' ns acts where
  quiet := h.quiet
  old := h.old
  finished := fun k hk => { h.finished k hk with boot := fun hk' => hb hk' ((h.finished k hk).boot hk') }

/-- The descriptor stays, is closed, or is replaced by a new one. -/
theorem Ended.shift (h : Ended kind log socket boot ns acts) {socket' : Socket}
    (hs : (socket'.isOpen = socket.isOpen ∧ socket'.conn = socket.conn) ∨
      (socket'.isOpen = false ∧ socket'.conn = socket.conn) ∨
      (socket'.isOpen = true ∧ socket'.conn = socket.conn+1)) :
    Ended kind log socket' boot ns acts where
  quiet := h.quiet
  old := by
    intro k hk
    obtain ⟨hle,hne⟩ := h.old k hk
    rcases hs with ⟨ho,hc⟩ | ⟨ho,hc⟩ | ⟨ho,hc⟩
    · exact ⟨by omega, fun hopen => by rw [hc]; exact hne (ho ▸ hopen)⟩
    · exact ⟨by omega, fun hopen => by rw [ho] at hopen; simp at hopen⟩
    · exact ⟨by omega, fun _ => by omega⟩
  finished := h.finished

end ended

/-- `close()` on an open socket adds its connection to those that are closed. -/
theorem Ended.closeBody {cfg : Config κ} {c : Core κ} {ns : List Notice}
    (h : Ended cfg.kind c.log c.socket c.boot ns c.running.acts)
    (hf : c.socket.isOpen = true → Finished cfg.kind c.boot ns c.running.acts c.socket.conn) :
    Ended cfg.kind (c.closeBody cfg).log (c.closeBody cfg).socket (c.closeBody cfg).boot ns
      (c.closeBody cfg).running.acts := by
  unfold Core.closeBody
  split
  · rename_i hopen
    have hfin := hf hopen
    have hclosed : ∀ k, Closed (c.log ++ [(c.now,.closed c.socket.conn)]) k →
        Closed c.log k ∨ k = c.socket.conn := by
      rintro k ⟨t,hm⟩
      rcases List.mem_append.mp hm with hm | hm
      · exact .inl ⟨t,hm⟩
      · obtain ⟨-,hk⟩ := Prod.mk.inj (List.mem_singleton.mp hm)
        exact .inr (Obs.closed.inj hk)
    refine ⟨h.quiet.append (fun k _ => by simp [Obs.owner]), fun k hk => ?_, fun k hk => ?_⟩
    · rcases hclosed k hk with hk | rfl
      · exact ⟨(h.old k hk).1, fun ho => by simp [Socket.close] at ho⟩
      · exact ⟨Nat.le_refl _, fun ho => by simp [Socket.close] at ho⟩
    · rcases hclosed k hk with hk | rfl
      · exact h.finished k hk
      · exact hfin
  · exact h.shift (.inl ⟨rfl,rfl⟩)

theorem Ended.resetReadTimeout {cfg : Config κ} {c : Core κ} {ns : List Notice} {owner : Nat}
    (h : Ended cfg.kind c.log c.socket c.boot ns c.running.acts)
    (ho : ∀ k, Closed c.log k → owner ≠ k) :
    Ended cfg.kind (c.resetReadTimeout cfg owner).log (c.resetReadTimeout cfg owner).socket
      (c.resetReadTimeout cfg owner).boot ns (c.resetReadTimeout cfg owner).running.acts := by
  unfold Core.resetReadTimeout
  split
  · exact h.emit rfl (fun k hk hown => ho k hk (Option.some.inj hown))
  · exact h

theorem Ended.startReceive {cfg : Config κ} {c : Core κ} {ns : List Notice} {owner : Nat}
    (h : Ended cfg.kind c.log c.socket c.boot ns c.running.acts)
    (ho : ∀ k, Closed c.log k → owner ≠ k) :
    Ended cfg.kind (c.startReceive cfg owner).log (c.startReceive cfg owner).socket
      (c.startReceive cfg owner).boot ns (c.startReceive cfg owner).running.acts := by
  have hread := h.emit (t := c.now) (o := .read owner) rfl
    (fun k hk hown => ho k hk (Option.some.inj hown))
  unfold Core.startReceive
  split
  · split
    · exact h
    · exact hread
  · exact hread

theorem Ended.deliver {cfg : Config κ} {c : Core κ} {ns : List Notice} {owner offset n : Nat}
    {sender : Option Address} {next : List Act}
    (h : Ended cfg.kind c.log c.socket c.boot ns next) (ho : ∀ k, Closed c.log k → owner ≠ k) :
    Ended cfg.kind (c.deliver cfg owner offset n sender next).log
      (c.deliver cfg owner offset n sender next).socket
      (c.deliver cfg owner offset n sender next).boot ns
      (c.deliver cfg owner offset n sender next).running.acts := by
  unfold Core.deliver
  split
  · exact h
  · refine Ended.emit (h.program ?_) rfl (fun k hk hown => ho k hk (Option.some.inj hown))
    intro a hm
    rcases List.mem_append.mp hm with hm | hm
    · obtain ⟨k,-,rfl⟩ := List.mem_map.mp hm
      exact .inl rfl
    · exact .inr ⟨a,hm,rfl⟩

theorem Ended.perform {cfg : Config κ} {c : Core κ} {ns : List Notice} {a : Act} {rest : List Act}
    (h : Ended cfg.kind c.log c.socket c.boot ns (a :: rest))
    (hclose : a = .close ∨ a = .call .close → c.socket.isOpen = true →
      Finished cfg.kind c.boot ns rest c.socket.conn) :
    Ended cfg.kind (c.perform cfg rest a).log (c.perform cfg rest a).socket
      (c.perform cfg rest a).boot ns (c.perform cfg rest a).running.acts := by
  have htail : Ended cfg.kind c.log c.socket c.boot ns rest :=
    h.program (fun x hx => .inr ⟨x, List.mem_cons_of_mem _ hx, rfl⟩)
  have howner : ∀ o, a.owner = some o → ∀ k, Closed c.log k → o ≠ k := by
    intro o ho k hk he
    exact (h.finished k hk).acts a List.mem_cons_self (he ▸ ho)
  -- what replaces a piece acts for the same connection as the piece
  have hnext : ∀ l : List Act, (∀ x ∈ l, x.owner = none ∨ x.owner = a.owner) →
      Ended cfg.kind c.log c.socket c.boot ns (l ++ rest) := by
    intro l hl
    refine h.program (fun x hx => ?_)
    rcases List.mem_append.mp hx with hx | hx
    · exact (hl x hx).imp id (fun he => ⟨a, List.mem_cons_self, he.symm⟩)
    · exact .inr ⟨x, List.mem_cons_of_mem _ hx, rfl⟩
  cases a with
  | scan owner currentOffset =>
    simp only [Core.perform]
    split
    · exact hnext [.close] (by simp [Act.owner])
    · exact (hnext [.scan owner _] (by simp [Act.owner])).deliver (howner owner rfl)
    · exact hnext [.resetReadTimeout owner, .startReceive owner] (by simp [Act.owner])
  | datagram owner n => exact htail.deliver (howner owner rfl)
  | call k =>
    cases k with
    | send request => exact htail
    | close => exact Ended.closeBody (c := { c with running := .program rest }) htail (hclose (.inr rfl))
  | resetReadTimeout owner =>
    exact Ended.resetReadTimeout (c := { c with running := .program rest }) htail (howner owner rfl)
  | startReceive owner =>
    exact Ended.startReceive (c := { c with running := .program rest }) htail (howner owner rfl)
  | close => exact Ended.closeBody (c := { c with running := .program rest }) htail (hclose (.inl rfl))

/-- When `close()` runs on an open socket, nothing of its connection is still to come: not in
the rest of the handler that runs, not as a completed read, and not in `start()`. -/
def CloseStep (cfg : Config κ) (c : Core κ) (ns : List Notice) : Event τ → Prop
  | .act _ => ∀ rest, c.running = .program (.close :: rest) ∨
      c.running = .program (.call .close :: rest) ∨ (c.running = .releasing 0 true ∧ rest = []) →
      c.socket.isOpen = true → Finished cfg.kind c.boot ns rest c.socket.conn
  | _ => True

theorem Ended.start {cfg : Config κ} (hk : cfg.kind ≠ .udpEndpoint) {c c' : Core κ}
    {ns : List Notice} (h : Ended cfg.kind c.log c.socket c.boot ns c.running.acts)
    (hc : c.start cfg = some c') :
    Ended cfg.kind c'.log c'.socket c'.boot ns c'.running.acts := by
  unfold Core.start at hc
  split at hc
  · rename_i hkind hboot
    have howner : ∀ k, Closed c.log k → c.socket.conn ≠ k := by
      intro k hk'
      have := (h.finished k hk').boot hkind
      rw [hboot] at this
      simp at this
    simp only [Option.some.injEq] at hc
    have hnext := h.booted .startReceive (by simp [hboot])
    exact hc ▸ Ended.resetReadTimeout (c := { c with boot := .startReceive }) hnext howner
  · rename_i hkind hboot
    have howner : ∀ k, Closed c.log k → c.socket.conn ≠ k := by
      intro k hk'
      have := (h.finished k hk').boot hkind
      rw [hboot] at this
      simp at this
    simp only [Option.some.injEq] at hc
    have hnext := h.booted .done (by simp [hboot])
    exact hc ▸ Ended.startReceive (c := { c with boot := .done }) hnext howner
  · rename_i hkind
    exact absurd hkind hk
  · simp at hc

theorem Ended.connected {cfg : Config κ} {c : Core κ} {a : Connecting} {failed reopened : Bool}
    {ns : List Notice} (hrun : c.running = .program [])
    (h : Ended cfg.kind c.log c.socket c.boot (.connected a failed reopened :: ns) []) :
    Ended cfg.kind (c.onConnected cfg a failed reopened).log
      (c.onConnected cfg a failed reopened).socket (c.onConnected cfg a failed reopened).boot ns
      (c.onConnected cfg a failed reopened).running.acts := by
  have hidle : Ended cfg.kind c.log c.socket c.boot ns [] := h.handle (by simp)
  unfold Core.onConnected
  split
  · rename_i hopen
    simp only [Bool.and_eq_true] at hopen
    refine Ended.shift (Ended.emit (h.handle ?_) rfl (by simp [Obs.owner])) (.inl ⟨rfl,rfl⟩)
    intro x hx k hk
    have hne := (h.old k hk).2 hopen.1
    rcases List.mem_append.mp hx with hx | hx
    · obtain ⟨y,-,rfl⟩ := List.mem_map.mp hx
      simp [Act.owner]
    · simp only [List.mem_cons,List.not_mem_nil,or_false] at hx
      rcases hx with rfl | rfl <;> exact fun he => hne (Option.some.inj he).symm
  · split
    · have hshift := hidle.shift (Core.reopen_shift c reopened (a.more-1))
      simp only [Core.reopen,hrun,Running.acts] at hshift ⊢
      exact hshift
    · refine h.handle ?_
      intro x hx k _
      obtain ⟨y,-,rfl⟩ := List.mem_map.mp hx
      simp [Act.owner]

theorem Ended.received {cfg : Config κ} (hk : cfg.kind ≠ .udpEndpoint) {c : Core κ} {r : Read}
    {result : Except ErrorCode Nat} {ns : List Notice}
    (h : Ended cfg.kind c.log c.socket c.boot (.received r result :: ns) []) :
    Ended cfg.kind (c.onReceived cfg r result).log (c.onReceived cfg r result).socket
      (c.onReceived cfg r result).boot ns (c.onReceived cfg r result).running.acts := by
  have hclose : Ended cfg.kind c.log c.socket c.boot ns [.close] := h.handle (by simp [Act.owner])
  have hscan : ∀ n, result = .ok n → Ended cfg.kind c.log c.socket c.boot ns [.scan r.conn 0] := by
    rintro n rfl
    refine h.handle ?_
    intro x hx k hk' he
    rw [List.mem_singleton.mp hx] at he
    exact (h.finished k hk').notices r n List.mem_cons_self (Option.some.inj he)
  unfold Core.onReceived
  split
  · exact absurd (by assumption) hk
  · exact absurd (by assumption) hk
  · split
    · exact hscan _ rfl
    · exact hclose
  · exact hclose

theorem Ended.move {cfg : Config κ} (hk : cfg.kind ≠ .udpEndpoint) {c c' : Core κ}
    {ns ns' : List Notice} {e : Event τ} (hok : CloseStep cfg c ns e)
    (h : Ended cfg.kind c.log c.socket c.boot ns c.running.acts) (hm : Move cfg c ns e c' ns') :
    Ended cfg.kind c'.log c'.socket c'.boot ns' c'.running.acts := by
  cases hm with
  | stay | tick => exact h
  | wrote hrun | release hrun | finish hrun =>
    rw [hrun] at h
    exact h
  | close => exact h.notice (by simp)
  | connect hc =>
    unfold Core.connect at hc
    split at hc
    · simp only [Option.some.injEq] at hc
      exact hc ▸ h
    · simp only [Option.some.injEq] at hc
      exact hc ▸ h.shift (Core.reopen_shift c _ _)
    · simp at hc
  | setup hc =>
    unfold Core.setup at hc
    split at hc
    · rename_i hkind
      exact absurd hkind hk
    · simp at hc
  | start hc => exact h.start hk hc
  | @handle n ns hrun =>
    rw [hrun] at h
    cases n with
    | received r result => exact h.received hk
    | expired w aborted =>
      simp only [Core.handle]
      split
      · rw [hrun]
        exact h.handle (by simp [Running.acts])
      · exact h.handle (by simp [Running.acts,Act.owner])
    | connected a failed reopened => exact h.connected hrun
    | close => exact h.handle (by simp [Core.handle,Running.acts,Act.owner])
  | fail hrun =>
    have hf := hok [] (.inr (.inr ⟨hrun,rfl⟩))
    rw [hrun] at h
    exact Ended.closeBody (c := { c with running := .program [] }) h hf
  | @perform _ a rest _ hrun =>
    have hf : a = .close ∨ a = .call .close → c.socket.isOpen = true →
        Finished cfg.kind c.boot ns rest c.socket.conn := by
      rintro (rfl | rfl)
      · exact hok rest (.inl hrun)
      · exact hok rest (.inr (.inl hrun))
    rw [hrun] at h
    exact h.perform hf
  | read hx =>
    obtain ⟨r,-,hlive,-,-,hx⟩ := Core.read_eq_some.mp hx
    obtain ⟨rfl,rfl⟩ := Prod.mk.inj hx
    simp only [Core.live,Bool.and_eq_true,beq_iff_eq] at hlive
    refine h.notice (fun k r' m hk' heq => ?_)
    obtain ⟨rfl,-⟩ := Notice.received.inj heq
    exact fun he => (h.old k hk').2 hlive.1 (by rw [← he, hlive.2])
  | readFail hx =>
    obtain ⟨r,-,-,hx⟩ := Core.readFail_eq_some.mp hx
    obtain ⟨rfl,rfl⟩ := Prod.mk.inj hx
    exact h.notice (by simp)
  | expire hx | abort hx =>
    obtain ⟨_,-,-,-,hx⟩ := Core.waitDone_eq_some.mp hx
    obtain ⟨rfl,rfl⟩ := Prod.mk.inj hx
    exact h.notice (by simp)
  | connectDone hx =>
    obtain ⟨_,-,-,hx⟩ := Core.connectDone_eq_some.mp hx
    obtain ⟨rfl,rfl⟩ := Prod.mk.inj hx
    exact h.notice (by simp)

namespace Endpoint

variable [DecidableEq τ]

/-- In runs that close as described, a closed TCP connection stays quiet. -/
theorem quiet_after_close (cfg : Config κ) (hk : cfg.kind ≠ .udpEndpoint) (s : Endpoint κ τ)
    (h : Transition.Reach (fun s₀ => ∃ u, s₀ = initial cfg.kind u) (step cfg)
      (fun s e => CloseStep cfg s.toCore s.notices e) s) : Quiet s.log := by
  have hinv : Ended cfg.kind s.log s.socket s.boot s.notices s.running.acts := by
    induction h with
    | start hi =>
      obtain ⟨u,rfl⟩ := hi
      refine ⟨List.Pairwise.nil, fun k hc => ?_, fun k hc => ?_⟩
      · obtain ⟨t,ht⟩ := hc
        simp [initial,Core.initial] at ht
      · obtain ⟨t,ht⟩ := hc
        simp [initial,Core.initial] at ht
    | next _ hok hs ih => exact ih.move hk hok (step_move hs)
  exact hinv.quiet

/-- A test for the steps: `close()` finds an idle connection. -/
def closeCheck (s : Endpoint κ τ) (_ : Event τ) : Bool :=
  (s.notices.isEmpty && s.boot == .done && s.running.acts.length ≤ 1) ||
    (s.running.acts.all (fun a => a != .close && a != .call .close) && s.running != .releasing 0 true)

omit [DecidableEq τ] in
theorem closeStep_of_check {cfg : Config κ} {s : Endpoint κ τ} {e : Event τ}
    (h : s.closeCheck e = true) : CloseStep cfg s.toCore s.notices e := by
  cases e with
  | act kept =>
    intro rest hrun _
    rcases Bool.or_eq_true_iff.mp h with h | h
    · simp only [Bool.and_eq_true,List.isEmpty_iff,beq_iff_eq,decide_eq_true_eq] at h
      obtain ⟨⟨hns,hboot⟩,hlen⟩ := h
      have hrest : rest = [] := by
        rcases hrun with hrun | hrun | ⟨-,hrun⟩
        · simpa [hrun,Running.acts] using hlen
        · simpa [hrun,Running.acts] using hlen
        · exact hrun
      exact ⟨by simp [hrest], by simp [hns], fun _ => hboot⟩
    · rcases hrun with hrun | hrun | ⟨hrun,-⟩ <;> simp [hrun,Running.acts] at h
  | _ => trivial

/-- A connection whose receive callback does nothing. -/
def listens : Config Unit := { Config.bare .tcpConnection with onRecv := some passive }

/-- One message, then the user closes. -/
def closeIdle : List (Event Unit) :=
  [.read 0 [1,2,3,4] ⟨0,0⟩, .run, .act true, .act true, .act true, .act true, .close, .run, .act true]

theorem quiet_after_close_idle : ∃ s : Endpoint Unit Unit,
    Transition.run (step listens) (initial .tcpConnection ()) ([.start, .start] ++ closeIdle) = some s ∧
    Transition.Reach (fun s₀ => ∃ u, s₀ = initial listens.kind u) (step listens)
      (fun s e => CloseStep listens s.toCore s.notices e) s ∧
    s.socket.isOpen = false ∧ s.log.length = 4 ∧ Quiet s.log := by
  have hrun : (Transition.run (Transition.guarded (step listens) closeCheck) startedConnection closeIdle).map
      (fun s : Endpoint Unit Unit => (s.socket.isOpen, s.log.length)) = some (false, 4) := by
    decide +kernel
  obtain ⟨s,hs,hv⟩ := Option.map_eq_some_iff.mp hrun
  obtain ⟨hopen,hlen⟩ := Prod.mk.inj hv
  have hstarted : Transition.Reach (fun s₀ => ∃ u, s₀ = initial listens.kind u) (step listens)
      (fun s e => CloseStep listens s.toCore s.notices e) startedConnection := by
    refine Transition.Reach.follow (.start ⟨(),rfl⟩) (fun e he s => ?_) (run_start listens rfl rfl)
    simp only [List.mem_cons,List.not_mem_nil,or_false,or_self] at he
    subst he
    trivial
  have hreach := hstarted.run_guarded (fun _ _ => closeStep_of_check) hs
  exact ⟨s, Transition.run_trans (run_start listens rfl rfl) (Transition.run_of_guarded hs), hreach, hopen, hlen,
    quiet_after_close listens (by decide) s hreach⟩

/-- A connection whose receive callback closes it. -/
def hangUp (kind : Kind) : Config Unit :=
  { Config.bare kind with onRecv := some (fun _ m _ => .unchanged () m [.close]) }

theorem run_connect_hangUp : Transition.run (step (hangUp .tcpClient)) (initial .tcpClient ())
    [.connect (.ok 0) true, .connectDone 0 false false, .run, .act true, .act true] =
      some joinedClient := by
  simp [joinedClient,hangUp,step,Core.connect,Config.bare,initial,
    Core.initial,Core.reopen,withCore,Socket.close,Socket.reopen,Socket.closed,Core.connectDone,Core.live,
    notify,idle,runHandler,Core.handle,Core.onConnected,Core.emit,act,Endpoint.perform,Core.perform,
    Core.resetReadTimeout,Core.startReceive,Core.descriptor,Window.startReceive_initial,
    Window.offered_initial,show Window.initial.activeBytes = 0 from rfl,Pipeline.Store.fresh]

/-- Two messages in one read of a connection whose callback closes it at the first: the loop
goes on to the second. And a read of a client that completed before `close()` ran: its
handler calls the callback after it. -/
theorem not_quiet_after_close :
    (∃ s : Endpoint Unit Unit, Reached (hangUp .tcpConnection) s ∧ ¬ Quiet s.log) ∧
    ∃ s : Endpoint Unit Unit, Reached (hangUp .tcpClient) s ∧ ¬ Quiet s.log := by
  constructor
  · have hrun : (Transition.run (step (hangUp .tcpConnection)) startedConnection
        [.read 0 [1,2,3,4,5,6,7,8] ⟨0,0⟩, .run, .act true, .act true, .act true]).map
        (fun s : Endpoint Unit Unit => decide (Quiet s.log)) = some false := by
      decide +kernel
    obtain ⟨s,hs,hv⟩ := Option.map_eq_some_iff.mp hrun
    have hfirst := run_start (hangUp .tcpConnection) rfl rfl
    exact ⟨s, reached_of_run (Transition.run_trans hfirst hs), of_decide_eq_false hv⟩
  · have hrun : (Transition.run (step (hangUp .tcpClient)) joinedClient
        [.close, .read 0 [1,2,3,4] ⟨0,0⟩, .run, .act true, .run, .act true]).map
        (fun s : Endpoint Unit Unit => decide (Quiet s.log)) = some false := by
      decide +kernel
    obtain ⟨s,hs,hv⟩ := Option.map_eq_some_iff.mp hrun
    exact ⟨s, reached_of_run (Transition.run_trans run_connect_hangUp hs), of_decide_eq_false hv⟩

end Endpoint

end Librim
