import Librim.Endpoint

/-! What a step of an endpoint does to its core: the inversion of the step function from
which the invariants of the receive half are derived. -/

set_option autoImplicit false

namespace Librim

variable {κ τ : Type}

def Obs.message : Obs → Option (List Byte)
  | .callback _ message _ => some message
  | _ => none

/-- The messages that the receive callback was called with. -/
def callbacks (log : List (Nat × Obs)) : List (List Byte) := log.filterMap (·.2.message)

theorem callbacks_append (log : List (Nat × Obs)) (t : Nat) (o : Obs) :
    callbacks (log ++ [(t,o)]) = callbacks log ++ o.message.toList := by
  cases o <;> simp [callbacks,Obs.message]

theorem closeBody_callbacks (cfg : Config κ) (c : Core κ) :
    callbacks (c.closeBody cfg).log = callbacks c.log := by
  unfold Core.closeBody
  split
  · simp [Core.emit,callbacks_append,Obs.message]
  · rfl

section log
variable (cfg : Config κ) (c : Core κ)

/-! The log only grows. -/

theorem closeBody_log : c.log <+: (c.closeBody cfg).log := by
  unfold Core.closeBody
  split
  · exact List.prefix_append _ _
  · exact List.prefix_rfl

theorem resetReadTimeout_log (owner : Nat) : c.log <+: (c.resetReadTimeout cfg owner).log := by
  unfold Core.resetReadTimeout
  split
  · exact List.prefix_append _ _
  · exact List.prefix_rfl

theorem startReceive_log (owner : Nat) : c.log <+: (c.startReceive cfg owner).log := by
  unfold Core.startReceive
  split
  · split
    · exact List.prefix_rfl
    · exact List.prefix_append _ _
  · exact List.prefix_append _ _

theorem deliver_log (owner offset n : Nat) (sender : Option Address) (next : List Act) :
    c.log <+: (c.deliver cfg owner offset n sender next).log := by
  unfold Core.deliver
  split
  · exact List.prefix_rfl
  · exact List.prefix_append _ _

theorem perform_log (rest : List Act) (a : Act) : c.log <+: (c.perform cfg rest a).log := by
  cases a with
  | scan owner currentOffset =>
    simp only [Core.perform]
    split
    · exact List.prefix_rfl
    · exact deliver_log ..
    · exact List.prefix_rfl
  | datagram owner n => exact deliver_log ..
  | call k =>
    cases k with
    | send request => exact List.prefix_rfl
    | close => exact closeBody_log cfg { c with running := .program rest }
  | resetReadTimeout owner => exact resetReadTimeout_log cfg { c with running := .program rest } owner
  | startReceive owner => exact startReceive_log cfg { c with running := .program rest } owner
  | close => exact closeBody_log cfg { c with running := .program rest }

theorem handle_log (n : Notice) (hrun : c.running = .program []) : c.log <+: (c.handle cfg n).log := by
  cases n with
  | received r result =>
    obtain ⟨_,_,heq⟩ := Core.onReceived_shape cfg c r result hrun
    simp only [Core.handle,heq]
    exact List.prefix_rfl
  | expired w aborted =>
    simp only [Core.handle]
    split <;> exact List.prefix_rfl
  | connected a failed reopened =>
    simp only [Core.handle,Core.onConnected]
    split
    · exact List.prefix_append _ _
    · split <;> exact List.prefix_rfl
  | close => exact List.prefix_rfl

end log

def Handler.getNotice : Handler τ → Option Notice
  | .notice n => some n
  | _ => none

/-- The handlers of the strand that are not part of the send pipeline. -/
def Endpoint.notices (s : Endpoint κ τ) : List Notice := s.ready.filterMap Handler.getNotice

inductive Move (cfg : Config κ) :
    Core κ → List Notice → Event τ → Core κ → List Notice → Prop where
  | stay {c : Core κ} {ns : List Notice} {e : Event τ} : Move cfg c ns e c ns
  | close {c : Core κ} {ns : List Notice} : Move cfg c ns .close c (ns ++ [.close])
  | connect {c c' : Core κ} {ns : List Notice} {resolved : Except ErrorCode Nat} {opened : Bool} :
      c.connect cfg resolved opened = some c' → Move cfg c ns (.connect resolved opened) c' ns
  | setup {c c' : Core κ} {ns : List Notice} {call : UdpEndpoint.Setup} {os : Os} :
      c.setup cfg call os = some c' → Move cfg c ns (.setup call os) c' ns
  | start {c c' : Core κ} {ns : List Notice} : c.start cfg = some c' → Move cfg c ns .start c' ns
  | handle {c : Core κ} {n : Notice} {ns : List Notice} : c.running = .program [] →
      Move cfg c (n :: ns) .run (c.handle cfg n) ns
  | wrote {c : Core κ} {ns : List Notice} {left : Nat} {failed : Bool} : c.running = .program [] →
      Move cfg c ns .run { c with running := .releasing left failed } ns
  | release {c : Core κ} {ns : List Notice} {left : Nat} {failed kept : Bool} :
      c.running = .releasing (left+1) failed →
      Move cfg c ns (.act kept) { c with running := .releasing left failed } ns
  | finish {c : Core κ} {ns : List Notice} {kept : Bool} : c.running = .releasing 0 false →
      Move cfg c ns (.act kept) { c with running := .program [] } ns
  | fail {c : Core κ} {ns : List Notice} {kept : Bool} : c.running = .releasing 0 true →
      Move cfg c ns (.act kept) (Core.closeBody cfg { c with running := .program [] }) ns
  | perform {c : Core κ} {ns : List Notice} {a : Act} {rest : List Act} {kept : Bool} :
      c.running = .program (a :: rest) → Move cfg c ns (.act kept) (c.perform cfg rest a) ns
  | read {c c' : Core κ} {ns : List Notice} {n : Notice} {i : Nat} {data : List Byte}
      {sender : Address} : c.read cfg i data sender = some (c',n) →
      Move cfg c ns (.read i data sender) c' (ns ++ [n])
  | readFail {c c' : Core κ} {ns : List Notice} {n : Notice} {i : Nat} {ec : ErrorCode} :
      c.readFail i ec = some (c',n) → Move cfg c ns (.readFail i ec) c' (ns ++ [n])
  | expire {c c' : Core κ} {ns : List Notice} {n : Notice} {i : Nat} :
      c.waitDone i false = some (c',n) → Move cfg c ns (.expire i) c' (ns ++ [n])
  | abort {c c' : Core κ} {ns : List Notice} {n : Notice} {i : Nat} :
      c.waitDone i true = some (c',n) → Move cfg c ns (.abort i) c' (ns ++ [n])
  | connectDone {c c' : Core κ} {ns : List Notice} {n : Notice} {i : Nat} {failed reopened : Bool} :
      c.connectDone i failed reopened = some (c',n) →
      Move cfg c ns (.connectDone i failed reopened) c' (ns ++ [n])
  | tick {c : Core κ} {ns : List Notice} {d : Nat} :
      Move cfg c ns (.tick d) { c with now := c.now+d } ns

/-- The operating system reports that an operation is over. -/
def Event.completes : Event τ → Bool
  | .read .. | .readFail .. | .expire _ | .abort _ | .connectDone .. => true
  | _ => false

/-- A completion queues a handler. What that handler is to work on changes; the socket, the
strand and the log do not. -/
theorem Move.completed {cfg : Config κ} {c c' : Core κ} {ns ns' : List Notice} {e : Event τ}
    (hm : Move cfg c ns e c' ns') (he : e.completes = true) :
    ∃ window sender reads waits connects arrived, c' = { c with
      window := window, sender := sender, reads := reads, waits := waits, connects := connects
      arrived := arrived } := by
  cases hm with
  | stay => exact ⟨_,_,_,_,_,_,rfl⟩
  | read hx =>
    obtain ⟨_,-,-,-,-,hx⟩ := Core.read_eq_some.mp hx
    obtain ⟨rfl,rfl⟩ := Prod.mk.inj hx
    exact ⟨_,_,_,_,_,_,rfl⟩
  | readFail hx =>
    obtain ⟨_,-,-,hx⟩ := Core.readFail_eq_some.mp hx
    obtain ⟨rfl,rfl⟩ := Prod.mk.inj hx
    exact ⟨_,_,_,_,_,_,rfl⟩
  | expire hx | abort hx =>
    obtain ⟨_,-,-,-,hx⟩ := Core.waitDone_eq_some.mp hx
    obtain ⟨rfl,rfl⟩ := Prod.mk.inj hx
    exact ⟨_,_,_,_,_,_,rfl⟩
  | connectDone hx =>
    obtain ⟨_,-,-,hx⟩ := Core.connectDone_eq_some.mp hx
    obtain ⟨rfl,rfl⟩ := Prod.mk.inj hx
    exact ⟨_,_,_,_,_,_,rfl⟩
  | _ => simp [Event.completes] at he

theorem Move.log_extends {cfg : Config κ} {c c' : Core κ} {ns ns' : List Notice} {e : Event τ}
    (hm : Move cfg c ns e c' ns') : c.log <+: c'.log := by
  have hdone := hm.completed
  cases hm with
  | stay | close | wrote _ | release _ | finish _ | tick => exact List.prefix_rfl
  | connect hc =>
    obtain ⟨_,_,rfl⟩ := Core.connect_shape hc
    exact List.prefix_rfl
  | setup hc =>
    obtain ⟨_,rfl⟩ := Core.setup_shape hc
    exact List.prefix_rfl
  | start hc =>
    unfold Core.start at hc
    split at hc <;> simp only [Option.some.injEq,reduceCtorEq] at hc
    · exact hc ▸ resetReadTimeout_log cfg { c with boot := .startReceive } _
    · exact hc ▸ startReceive_log cfg { c with boot := .done } _
    · exact hc ▸ startReceive_log cfg { c with boot := .done } _
  | handle hrun => exact handle_log cfg c _ hrun
  | fail _ => exact closeBody_log cfg { c with running := .program [] }
  | perform _ => exact perform_log cfg c _ _
  | read _ | readFail _ | expire _ | abort _ | connectDone _ =>
    obtain ⟨_,_,_,_,_,_,rfl⟩ := hdone rfl
    exact List.prefix_rfl

/-- Bytes arrive by reads only. -/
theorem Move.arrived {cfg : Config κ} {c c' : Core κ} {ns ns' : List Notice} {e : Event τ}
    (hm : Move cfg c ns e c' ns') : c'.arrived = c.arrived ∨ ∃ i data sender conn,
      e = .read i data sender ∧ c'.arrived = c.arrived ++ [⟨conn,data,sender⟩] := by
  cases hm with
  | stay | close | wrote _ | release _ | finish _ | tick => exact .inl rfl
  | connect hc =>
    obtain ⟨_,_,rfl⟩ := Core.connect_shape hc
    exact .inl rfl
  | setup hc =>
    obtain ⟨_,rfl⟩ := Core.setup_shape hc
    exact .inl rfl
  | start hc =>
    obtain ⟨_,_,_,_,_,_,rfl⟩ := Core.start_shape hc
    exact .inl rfl
  | @handle n _ hrun =>
    obtain ⟨_,_,_,_,_,_,hshape⟩ := Core.handle_shape cfg c n hrun
    exact .inl (by rw [hshape])
  | fail _ =>
    obtain ⟨_,_,_,_,hshape⟩ := Core.closeBody_shape cfg { c with running := .program [] }
    exact .inl (by rw [hshape])
  | @perform _ a rest _ _ =>
    obtain ⟨_,_,_,_,_,_,_,_,hshape⟩ := Core.perform_shape cfg c rest a
    exact .inl (by rw [hshape])
  | read hx =>
    obtain ⟨r,-,-,-,-,hx⟩ := Core.read_eq_some.mp hx
    obtain ⟨rfl,rfl⟩ := Prod.mk.inj hx
    exact .inr ⟨_,_,_,r.conn,rfl,rfl⟩
  | readFail hx =>
    obtain ⟨_,-,-,hx⟩ := Core.readFail_eq_some.mp hx
    obtain ⟨rfl,rfl⟩ := Prod.mk.inj hx
    exact .inl rfl
  | expire hx | abort hx =>
    obtain ⟨_,-,-,-,hx⟩ := Core.waitDone_eq_some.mp hx
    obtain ⟨rfl,rfl⟩ := Prod.mk.inj hx
    exact .inl rfl
  | connectDone hx =>
    obtain ⟨_,-,-,hx⟩ := Core.connectDone_eq_some.mp hx
    obtain ⟨rfl,rfl⟩ := Prod.mk.inj hx
    exact .inl rfl

namespace Endpoint

theorem notices_notify (s : Endpoint κ τ) (x : Core κ × Notice) :
    (s.notify x).notices = s.notices ++ [x.2] := by
  simp [notify,notices,Handler.getNotice]

theorem notices_cons {s : Endpoint κ τ} {h : Handler τ} {rest : List (Handler τ)}
    (hready : s.ready = h :: rest) :
    s.notices = (h.getNotice).toList ++ rest.filterMap Handler.getNotice := by
  cases h <;> simp [notices,hready,List.filterMap_cons,Handler.getNotice]

/-- A step that changes neither the core nor the notices. -/
theorem move_stay {cfg : Config κ} {s t : Endpoint κ τ} {e : Event τ} (hc : t.toCore = s.toCore)
    (hn : t.notices = s.notices) : Move cfg s.toCore s.notices e t.toCore t.notices := by
  rw [hc, hn]
  exact .stay

variable [DecidableEq τ]

@[simp] theorem call_core (cfg : Config κ) (caller : Option τ) (request : Request)
    (s : Endpoint κ τ) : (s.call cfg caller request).toCore = s.toCore := by
  unfold call; split <;> rfl

@[simp] theorem call_ready (cfg : Config κ) (caller : Option τ) (request : Request)
    (s : Endpoint κ τ) : (s.call cfg caller request).ready = s.ready := by
  unfold call; split <;> rfl

@[simp] theorem perform_core (cfg : Config κ) (rest : List Act) (s : Endpoint κ τ) (a : Act) :
    (s.perform cfg rest a).toCore = s.toCore.perform cfg rest a := by
  unfold perform
  split
  · rw [call_core]; rfl
  · rfl

@[simp] theorem perform_ready (cfg : Config κ) (rest : List Act) (s : Endpoint κ τ) (a : Act) :
    (s.perform cfg rest a).ready = s.ready := by
  unfold perform
  split
  · rw [call_ready]; rfl
  · rfl

theorem run_move {cfg : Config κ} {s t : Endpoint κ τ} (h : step cfg s .run = some t) :
    Move cfg s.toCore s.notices (.run : Event τ) t.toCore t.notices := by
  simp only [step] at h
  split at h
  · rename_i hd rest hready
    simp only [Option.ite_none_right_eq_some,Option.some.injEq] at h
    obtain ⟨hidle,rfl⟩ := h
    simp only [idle,Bool.and_eq_true,beq_iff_eq] at hidle
    cases hd with
    | enqueue caller b =>
      refine move_stay rfl ?_
      rw [notices_cons hready]
      rfl
    | wrote w failed =>
      have hn : s.notices = rest.filterMap Handler.getNotice := by
        simp [notices_cons hready,Handler.getNotice]
      rw [hn]
      exact .wrote hidle.1
    | notice n =>
      have hn : s.notices = n :: rest.filterMap Handler.getNotice := by
        simp [notices_cons hready,Handler.getNotice]
      rw [hn]
      exact .handle hidle.1
  · simp at h

theorem act_move {cfg : Config κ} {s t : Endpoint κ τ} {kept : Bool} (h : s.act cfg kept = some t) :
    Move cfg s.toCore s.notices (.act kept : Event τ) t.toCore t.notices := by
  unfold act at h
  split at h
  · rename_i left failed hrun
    simp only [Option.some.injEq] at h
    subst h
    exact .release hrun
  · rename_i failed hrun
    simp only [Option.some.injEq] at h
    subst h
    cases failed with
    | true => exact .fail hrun
    | false =>
      simp only [finishWrite,Bool.false_eq_true,↓reduceIte]
      split <;> exact .finish hrun
  · rename_i a rest hrun
    simp only [Option.ite_none_right_eq_some,Option.some.injEq] at h
    obtain ⟨-,rfl⟩ := h
    have hn : (s.perform cfg rest a).notices = s.notices := by simp only [notices,perform_ready]
    rw [perform_core, hn]
    exact .perform hrun
  · simp at h

theorem step_move {cfg : Config κ} {s t : Endpoint κ τ} {e : Event τ} (h : step cfg s e = some t) :
    Move cfg s.toCore s.notices e t.toCore t.notices := by
  cases e with
  | send u request =>
    simp only [step,Option.ite_none_right_eq_some,Option.some.injEq] at h
    obtain ⟨-,rfl⟩ := h
    exact move_stay (by simp) (by simp only [notices,call_ready])
  | pop caller =>
    simp only [step,Option.map_eq_some_iff] at h
    obtain ⟨out,-,rfl⟩ := h
    exact .stay
  | fill caller =>
    simp only [step,fill] at h
    split at h
    · simp only [Option.some.injEq] at h
      subst h
      exact .stay
    · simp at h
  | post caller =>
    simp only [step,post] at h
    split at h
    · simp only [Option.some.injEq] at h
      subst h
      exact move_stay rfl (by simp [notices,Handler.getNotice])
    · simp at h
  | close =>
    simp only [step,Option.some.injEq] at h
    subst h
    rw [notices_notify]
    exact .close
  | connect resolved opened =>
    simp only [step,Option.map_eq_some_iff] at h
    obtain ⟨c,hc,rfl⟩ := h
    exact .connect hc
  | setup call os =>
    simp only [step,Option.map_eq_some_iff] at h
    obtain ⟨c,hc,rfl⟩ := h
    exact .setup hc
  | start =>
    simp only [step,Option.map_eq_some_iff] at h
    obtain ⟨c,hc,rfl⟩ := h
    exact .start hc
  | run => exact run_move h
  | act kept => exact act_move h
  | write i n =>
    simp only [step,write] at h
    split at h
    · simp only [Option.ite_none_right_eq_some,Option.map_eq_some_iff] at h
      obtain ⟨-,out,-,rfl⟩ := h
      exact .stay
    · simp at h
  | writeDone i failed =>
    simp only [step,writeDone] at h
    split at h
    · simp only [Option.ite_none_right_eq_some,Option.some.injEq] at h
      obtain ⟨-,rfl⟩ := h
      exact move_stay rfl (by simp [notices,Handler.getNotice])
    · simp at h
  | read i data sender =>
    simp only [step,Option.map_eq_some_iff] at h
    obtain ⟨x,hx,rfl⟩ := h
    rw [notices_notify]
    exact .read hx
  | readFail i ec =>
    simp only [step,Option.map_eq_some_iff] at h
    obtain ⟨x,hx,rfl⟩ := h
    rw [notices_notify]
    exact .readFail hx
  | expire i =>
    simp only [step,Option.map_eq_some_iff] at h
    obtain ⟨x,hx,rfl⟩ := h
    rw [notices_notify]
    exact .expire hx
  | abort i =>
    simp only [step,Option.map_eq_some_iff] at h
    obtain ⟨x,hx,rfl⟩ := h
    rw [notices_notify]
    exact .abort hx
  | connectDone i failed reopened =>
    simp only [step,Option.map_eq_some_iff] at h
    obtain ⟨x,hx,rfl⟩ := h
    rw [notices_notify]
    exact .connectDone hx
  | tick d =>
    simp only [step,Option.some.injEq] at h
    subst h
    exact .tick

end Endpoint

end Librim
