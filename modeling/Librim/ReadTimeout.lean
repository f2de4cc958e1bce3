import Librim.TcpReceive

/-! The read timer of `TcpConnection` and `TcpClient`: `reset_read_timeout`, the waits that it
starts and what becomes of them. -/

set_option autoImplicit false

namespace Librim

variable {κ τ : Type}

/-- The wait whose handler this is, if the wait has expired. -/
def Handler.expiry : Handler τ → Option Wait
  | .notice (.expired w false) => some w
  | _ => none

/-- The next piece of the strand, or of `start`, is `reset_read_timeout`. -/
def Resets (cfg : Config κ) (c : Core κ) : Event τ → Prop
  | .act _ => ∃ owner, c.running.acts.head? = some (.resetReadTimeout owner)
  | .start => cfg.kind = .tcpConnection ∧ c.boot = .resetReadTimeout
  | _ => False

/-- A wait that is not cancelled, or whose handler is still to run or to close the socket, is the
one that was started last. -/
structure Punctual (c : Core κ) (ns : List Notice) (current : Option Wait) : Prop where
  waits : ∀ w ∈ c.waits, w.cancelled = false → w.id+1 = c.armed
  queued : ∀ w, .expired w false ∈ ns → w.id+1 = c.armed
  running : ∀ w, current = some w →
    c.running = .program [] ∨ (c.running = .program [.close] ∧ w.id+1 = c.armed)

/-- No expired wait has its handler queued or running. -/
def Unexpired (c : Core κ) (ns : List Notice) (current : Option Wait) : Prop :=
  (∀ w, .expired w false ∉ ns) ∧ ∀ w, current = some w → c.running = .program []

section
variable {cfg : Config κ} {c : Core κ} {ns : List Notice} {current : Option Wait}

/-- Neither the timer nor the running handler changes, and no wait has expired. -/
theorem Punctual.congr (h : Punctual c ns current) {c' : Core κ} {ns' : List Notice}
    (hw : c'.waits = c.waits) (harm : c'.armed = c.armed) (hrun : c'.running = c.running)
    (hns : ∀ w, .expired w false ∈ ns' → .expired w false ∈ ns) : Punctual c' ns' current where
  waits := by rw [hw, harm]; exact h.waits
  queued := fun w hm => harm ▸ h.queued w (hns w hm)
  running := by rw [hrun, harm]; exact h.running

/-- The handler that runs is not that of an expired wait. -/
theorem Punctual.other (h : Punctual c ns current) {c' : Core κ} {ns' : List Notice}
    {current' : Option Wait} (hw : c'.waits = c.waits) (harm : c'.armed = c.armed)
    (hns : ∀ w, .expired w false ∈ ns' → .expired w false ∈ ns) (hcur : current' = none) :
    Punctual c' ns' current' where
  waits := by rw [hw, harm]; exact h.waits
  queued := fun w hm => harm ▸ h.queued w (hns w hm)
  running := by simp [hcur]

/-- `close()` cancels the waits. -/
theorem Punctual.closeBody (h : Punctual c ns current) (hcur : ∀ w, current = some w → c.running = .program []) :
    Punctual (c.closeBody cfg) ns current := by
  have hrun : (c.closeBody cfg).running = c.running := Core.closeBody_running cfg c
  have harm : (c.closeBody cfg).armed = c.armed := by
    obtain ⟨_,_,_,_,hshape⟩ := Core.closeBody_shape cfg c
    rw [hshape]
  refine ⟨?_, by rw [harm]; exact h.queued, fun w hw => .inl (by rw [hrun]; exact hcur w hw)⟩
  rw [harm]
  unfold Core.closeBody
  split
  · intro w hw hc
    obtain ⟨w',-,rfl⟩ := List.mem_map.mp hw
    simp at hc
  · exact h.waits

/-- Re-arming cancels the waits that have not expired. -/
theorem Punctual.resetReadTimeout (h : Punctual c ns current) (hun : Unexpired c ns current) (owner : Nat) :
    Punctual (c.resetReadTimeout cfg owner) ns current := by
  have hrun : (c.resetReadTimeout cfg owner).running = c.running := Core.resetReadTimeout_running cfg c owner
  refine ⟨?_, fun w hw => absurd hw (hun.1 w), fun w hw => .inl (by rw [hrun]; exact hun.2 w hw)⟩
  unfold Core.resetReadTimeout
  split
  · intro w hw hc
    rcases List.mem_append.mp hw with hw | hw
    · obtain ⟨w',-,rfl⟩ := List.mem_map.mp hw
      simp at hc
    · rw [List.mem_singleton.mp hw]
  · exact h.waits

theorem Punctual.perform (h : Punctual c ns current) {a : Act} {rest : List Act}
    (hrun : c.running = .program (a :: rest))
    (hok : ∀ owner, a = .resetReadTimeout owner → Unexpired c ns current) :
    Punctual (c.perform cfg rest a) ns current := by
  -- while the handler of an expired wait runs, the piece is its `close()`
  have hcur : ∀ w, current = some w → a = .close ∧ rest = [] := by
    intro w hw
    rcases h.running w hw with hr | ⟨hr,-⟩
    · rw [hrun] at hr
      simp at hr
    · rw [hrun] at hr
      simpa using hr
  have hrest : Punctual { c with running := .program rest } ns current :=
    ⟨h.waits, h.queued, fun w hw => .inl (by rw [(hcur w hw).2])⟩
  have hdone : ∀ w, current = some w → Running.program rest = .program [] := by
    intro w hw
    rw [(hcur w hw).2]
  have hother : a ≠ .close → current = none := by
    intro hne
    cases hc : current with
    | none => rfl
    | some w => exact absurd (hcur w hc).1 hne
  cases a with
  | scan owner currentOffset =>
    have hnone := hother (by simp)
    simp only [Core.perform]
    split
    · exact h.other rfl rfl (fun _ hw => hw) hnone
    · obtain ⟨_,_,_,_,hshape⟩ := Core.deliver_shape cfg c owner currentOffset _ none _
      rw [hshape]
      exact h.other rfl rfl (fun _ hw => hw) hnone
    · exact h.other rfl rfl (fun _ hw => hw) hnone
  | datagram owner n =>
    obtain ⟨_,_,_,_,hshape⟩ := Core.deliver_shape cfg c owner 0 n (some c.sender) rest
    simp only [Core.perform,hshape]
    exact h.other rfl rfl (fun _ hw => hw) (hother (by simp))
  | call k =>
    cases k with
    | send request => exact hrest
    | close => exact hrest.closeBody hdone
  | resetReadTimeout owner =>
    refine hrest.resetReadTimeout ⟨(hok owner rfl).1, hdone⟩ owner
  | startReceive owner =>
    obtain ⟨_,_,_,hshape⟩ := Core.startReceive_shape cfg { c with running := .program rest } owner
    simp only [Core.perform,hshape]
    exact hrest.congr rfl rfl rfl (fun _ hw => hw)
  | close => exact hrest.closeBody hdone

theorem Punctual.start (h : Punctual c ns current) {c' : Core κ}
    (hok : cfg.kind = .tcpConnection → c.boot = .resetReadTimeout → Unexpired c ns current)
    (hc : c.start cfg = some c') : Punctual c' ns current := by
  unfold Core.start at hc
  split at hc
  · rename_i hkind hboot
    simp only [Option.some.injEq] at hc
    subst hc
    have hbooted : Punctual { c with boot := .startReceive } ns current :=
      h.congr rfl rfl rfl (fun _ hw => hw)
    exact hbooted.resetReadTimeout (hok hkind hboot) _
  · obtain ⟨_,_,_,hshape⟩ := Core.startReceive_shape cfg { c with boot := .done } c.socket.conn
    rw [hshape, Option.some.injEq] at hc
    exact hc ▸ h.congr rfl rfl rfl (fun _ hw => hw)
  · obtain ⟨_,_,_,hshape⟩ := Core.startReceive_shape cfg { c with boot := .done } c.socket.conn
    rw [hshape, Option.some.injEq] at hc
    exact hc ▸ h.congr rfl rfl rfl (fun _ hw => hw)
  · simp at hc

/-- A wait leaves the timer, and its handler is queued. -/
theorem Punctual.waitDone (h : Punctual c ns current) {c' : Core κ} {n : Notice} {i : Nat}
    {aborted : Bool} (hx : c.waitDone i aborted = some (c',n)) : Punctual c' (ns ++ [n]) current := by
  obtain ⟨w,hi,hc,-,hx⟩ := Core.waitDone_eq_some.mp hx
  obtain ⟨rfl,rfl⟩ := Prod.mk.inj hx
  refine ⟨fun w' hw' => h.waits w' (List.mem_of_mem_eraseIdx hw'), fun w' hw' => ?_, h.running⟩
  rcases List.mem_append.mp hw' with hw' | hw'
  · exact h.queued w' hw'
  · simp only [List.mem_singleton,Notice.expired.injEq] at hw'
    obtain ⟨rfl,rfl⟩ := hw'
    exact h.waits w' (List.mem_of_getElem? hi) hc

theorem Punctual.move (h : Punctual c ns current) {c' : Core κ} {ns' : List Notice} {e : Event τ}
    (hrun : e ≠ .run) (hok : Resets cfg c e → Unexpired c ns current) (hm : Move cfg c ns e c' ns') :
    Punctual c' ns' current := by
  have happend : ∀ {n : Notice}, (∀ w, n ≠ .expired w false) →
      ∀ w, .expired w false ∈ ns ++ [n] → .expired w false ∈ ns := by
    intro n hn w hw
    rcases List.mem_append.mp hw with hw | hw
    · exact hw
    · exact absurd (List.mem_singleton.mp hw).symm (hn w)
  have hreleasing : ∀ {left failed}, c.running = .releasing left failed → current = none := by
    intro left failed hr
    cases hc : current with
    | none => rfl
    | some w => rcases h.running w hc with hw | ⟨hw,-⟩ <;> rw [hr] at hw <;> simp at hw
  cases hm with
  | stay => exact h
  | tick => exact h.congr rfl rfl rfl (fun _ hw => hw)
  | close => exact h.congr rfl rfl rfl (happend (by simp))
  | connect hc =>
    obtain ⟨_,_,rfl⟩ := Core.connect_shape hc
    exact h.congr rfl rfl rfl (fun _ hw => hw)
  | setup hc =>
    obtain ⟨_,rfl⟩ := Core.setup_shape hc
    exact h.congr rfl rfl rfl (fun _ hw => hw)
  | start hc => exact h.start (fun hkind hboot => hok ⟨hkind,hboot⟩) hc
  | handle _ | wrote _ => exact absurd rfl hrun
  | release hr | finish hr => exact h.other rfl rfl (fun _ hw => hw) (hreleasing hr)
  | fail hr =>
    have hnext : Punctual { c with running := .program [] } ns current :=
      h.other rfl rfl (fun _ hw => hw) (hreleasing hr)
    exact hnext.closeBody (fun _ _ => rfl)
  | perform hr =>
    refine h.perform hr (fun owner ha => hok ⟨owner, ?_⟩)
    rw [hr, ha]
    rfl
  | read hx =>
    obtain ⟨_,-,-,-,-,hx⟩ := Core.read_eq_some.mp hx
    obtain ⟨rfl,rfl⟩ := Prod.mk.inj hx
    exact h.congr rfl rfl rfl (happend (by simp))
  | readFail hx =>
    obtain ⟨_,-,-,hx⟩ := Core.readFail_eq_some.mp hx
    obtain ⟨rfl,rfl⟩ := Prod.mk.inj hx
    exact h.congr rfl rfl rfl (happend (by simp))
  | expire hx | abort hx => exact h.waitDone hx
  | connectDone hx =>
    obtain ⟨_,-,-,hx⟩ := Core.connectDone_eq_some.mp hx
    obtain ⟨rfl,rfl⟩ := Prod.mk.inj hx
    exact h.congr rfl rfl rfl (happend (by simp))

end

/-- A connection was made or a message was delivered. -/
def Obs.isActivity : Obs → Bool
  | .connected _ | .callback _ _ _ => true
  | _ => false

/-- There was activity at this very time. -/
def Core.ActiveNow (c : Core κ) : Prop := ∃ o, (c.now,o) ∈ c.log ∧ o.isActivity = true

/-- The clock stands still while a handler runs, and `process_buffer` does not come to its end
without having delivered a message. -/
def TimedStep (cfg : Config κ) (c : Core κ) : Event τ → Prop
  | .tick _ => c.running.acts = []
  | .act _ => ∀ owner k, c.running.acts.head? = some (.scan owner k) →
      c.window.scan cfg.framing k = .stop → 0 < k ∧ cfg.onRecv.isSome = true
  | _ => True

/-- Every wait was started at a time of activity, and so will be those that the running handler
starts. -/
structure Stamped (cfg : Config κ) (c : Core κ) : Prop where
  waits : ∀ w ∈ c.waits, ∃ t o, (t,o) ∈ c.log ∧ o.isActivity = true ∧ w.deadline ≤ t+cfg.readTimeout
  resets : ∀ owner, .resetReadTimeout owner ∈ c.running.acts → c.ActiveNow
  scans : ∀ owner k, .scan owner k ∈ c.running.acts → 0 < k → cfg.onRecv.isSome = true → c.ActiveNow

theorem Core.ActiveNow.mono {c c' : Core κ} (h : c.ActiveNow) (hnow : c'.now = c.now)
    (hlog : c.log <+: c'.log) : c'.ActiveNow := by
  obtain ⟨o,ho,ha⟩ := h
  exact ⟨o, hnow ▸ hlog.subset ho, ha⟩

section
variable {cfg : Config κ} {c : Core κ}

/-- No wait is started, and the pieces still to run that matter are some of those before. -/
theorem Stamped.congr (h : Stamped cfg c) {c' : Core κ}
    (hw : ∀ w ∈ c'.waits, ∃ w' ∈ c.waits, w.deadline = w'.deadline) (hnow : c'.now = c.now)
    (hlog : c.log <+: c'.log) (hacts : ∀ a ∈ c'.running.acts, a ∈ c.running.acts ∨ (∃ k, a = .call k) ∨
      a = .close ∨ ∃ owner, a = .scan owner 0) : Stamped cfg c' where
  waits := by
    intro w hm
    obtain ⟨w',hm',hd⟩ := hw w hm
    obtain ⟨t,o,ho,ha,hle⟩ := h.waits w' hm'
    exact ⟨t, o, hlog.subset ho, ha, hd ▸ hle⟩
  resets := by
    intro owner hm
    rcases hacts _ hm with hm | ⟨k,hk⟩ | hk | ⟨o,hk⟩
    · exact (h.resets owner hm).mono hnow hlog
    · simp at hk
    · simp at hk
    · simp at hk
  scans := by
    intro owner k hm hpos hcb
    rcases hacts _ hm with hm | ⟨k',hk⟩ | hk | ⟨o,hk⟩
    · exact (h.scans owner k hm hpos hcb).mono hnow hlog
    · simp at hk
    · simp at hk
    · simp only [Act.scan.injEq] at hk
      omega

/-- There is activity now, so that whatever the handler does next is in time. -/
theorem Stamped.active (h : Stamped cfg c) {c' : Core κ} (hw : c'.waits = c.waits)
    (hlog : c.log <+: c'.log) (hnow : c'.ActiveNow) : Stamped cfg c' where
  waits := by
    intro w hm
    obtain ⟨t,o,ho,ha,hle⟩ := h.waits w (hw ▸ hm)
    exact ⟨t, o, hlog.subset ho, ha, hle⟩
  resets := fun _ _ => hnow
  scans := fun _ _ _ _ _ => hnow

theorem Stamped.closeBody (h : Stamped cfg c) : Stamped cfg (c.closeBody cfg) := by
  have hrun : (c.closeBody cfg).running = c.running := Core.closeBody_running cfg c
  have hnow : (c.closeBody cfg).now = c.now := by
    obtain ⟨_,_,_,_,hshape⟩ := Core.closeBody_shape cfg c
    rw [hshape]
  refine h.congr ?_ hnow (closeBody_log cfg c) (fun a ha => .inl (hrun ▸ ha))
  unfold Core.closeBody
  split
  · intro w hm
    obtain ⟨w',hm',rfl⟩ := List.mem_map.mp hm
    exact ⟨w', hm', rfl⟩
  · exact fun w hm => ⟨w, hm, rfl⟩

theorem Stamped.resetReadTimeout (h : Stamped cfg c) (hnow : c.ActiveNow) (owner : Nat) :
    Stamped cfg (c.resetReadTimeout cfg owner) := by
  have hlog := resetReadTimeout_log cfg c owner
  have hnow' : (c.resetReadTimeout cfg owner).ActiveNow := by
    obtain ⟨_,_,_,hshape⟩ := Core.resetReadTimeout_shape cfg c owner
    exact hnow.mono (by rw [hshape]) hlog
  refine ⟨?_, fun _ _ => hnow', fun _ _ _ _ _ => hnow'⟩
  intro w hm
  obtain ⟨o,ho,ha⟩ := hnow
  unfold Core.resetReadTimeout at hm
  split at hm
  · rcases List.mem_append.mp hm with hm | hm
    · obtain ⟨w',hm',rfl⟩ := List.mem_map.mp hm
      obtain ⟨t,o',ho',ha',hle⟩ := h.waits w' hm'
      exact ⟨t, o', hlog.subset ho', ha', hle⟩
    · rw [List.mem_singleton.mp hm]
      exact ⟨c.now, o, hlog.subset ho, ha, Nat.le_refl _⟩
  · obtain ⟨t,o',ho',ha',hle⟩ := h.waits w hm
    exact ⟨t, o', hlog.subset ho', ha', hle⟩

theorem Stamped.deliver (h : Stamped cfg c) {owner offset n : Nat} {sender : Option Address}
    {next : List Act} (hnone : cfg.onRecv = none → ∀ a ∈ next, a ∈ c.running.acts ∨ ∃ owner k, a = .scan owner k) :
    Stamped cfg (c.deliver cfg owner offset n sender next) := by
  cases hcb : cfg.onRecv with
  | none =>
    have hdeliver : c.deliver cfg owner offset n sender next = { c with running := .program next } := by
      simp only [Core.deliver,hcb]
    rw [hdeliver]
    refine ⟨h.waits, fun o hm => ?_, fun o k hm hpos hsome => ?_⟩
    · rcases hnone hcb _ hm with hm | ⟨o',k,hk⟩
      · exact h.resets o hm
      · simp at hk
    · simp [hcb] at hsome
  | some callback =>
    refine h.active ?_ (deliver_log ..) ?_
    · simp only [Core.deliver,hcb,Core.emit]
    · simp only [Core.deliver,hcb,Core.emit]
      exact ⟨.callback owner (c.window.span offset n) sender, by simp, rfl⟩

theorem Stamped.perform (h : Stamped cfg c) {a : Act} {rest : List Act}
    (hrun : c.running = .program (a :: rest))
    (hok : ∀ owner k, a = .scan owner k → c.window.scan cfg.framing k = .stop → 0 < k ∧ cfg.onRecv.isSome = true) :
    Stamped cfg (c.perform cfg rest a) := by
  have hmem : ∀ x ∈ rest, x ∈ c.running.acts := by
    intro x hx
    rw [hrun]
    exact List.mem_cons_of_mem _ hx
  have hhead : a ∈ c.running.acts := by
    rw [hrun]
    exact List.mem_cons_self
  have hrest : Stamped cfg { c with running := .program rest } :=
    h.congr (fun w hm => ⟨w,hm,rfl⟩) rfl List.prefix_rfl (fun x hx => .inl (hmem x hx))
  cases a with
  | scan owner k =>
    simp only [Core.perform]
    split
    · refine h.congr (fun w hm => ⟨w,hm,rfl⟩) rfl List.prefix_rfl (fun x hx => ?_)
      rcases List.mem_cons.mp hx with rfl | hx
      · exact .inr (.inr (.inl rfl))
      · exact .inl (hmem x hx)
    · refine h.deliver (fun _ x hx => ?_)
      rcases List.mem_cons.mp hx with rfl | hx
      · exact .inr ⟨_,_,rfl⟩
      · exact .inl (hmem x hx)
    · rename_i hstop
      obtain ⟨hpos,hcb⟩ := hok owner k rfl hstop
      exact h.active rfl List.prefix_rfl (h.scans owner k hhead hpos hcb)
  | datagram owner n => exact h.deliver (fun _ x hx => .inl (hmem x hx))
  | call k =>
    cases k with
    | send request => exact hrest
    | close => exact hrest.closeBody
  | resetReadTimeout owner => exact hrest.resetReadTimeout (h.resets owner hhead) owner
  | startReceive owner =>
    have hlog := startReceive_log cfg { c with running := .program rest } owner
    obtain ⟨_,_,_,hshape⟩ := Core.startReceive_shape cfg { c with running := .program rest } owner
    simp only [Core.perform,hshape] at hlog ⊢
    exact hrest.congr (fun w hm => ⟨w,hm,rfl⟩) rfl hlog (fun _ hx => .inl hx)
  | close => exact hrest.closeBody

theorem Stamped.handle (hk : cfg.kind = .tcpClient) (h : Stamped cfg c) (n : Notice) :
    Stamped cfg (c.handle cfg n) := by
  have hwaits : ∀ w ∈ c.waits, ∃ w' ∈ c.waits, w.deadline = w'.deadline := fun w hm => ⟨w,hm,rfl⟩
  cases n with
  | received r result =>
    have hclose : Stamped cfg { c with running := .program [.close] } := by
      refine h.congr hwaits rfl List.prefix_rfl (fun a ha => .inr (.inr (.inl ?_)))
      simpa [Running.acts] using ha
    simp only [Core.handle,Core.onReceived,hk]
    cases result with
    | error ec => exact hclose
    | ok n =>
      simp only
      split
      · refine h.congr hwaits rfl List.prefix_rfl (fun a ha => .inr (.inr (.inr ⟨r.conn, ?_⟩)))
        simpa [Running.acts] using ha
      · exact hclose
  | expired w aborted =>
    simp only [Core.handle]
    split
    · exact h
    · refine h.congr hwaits rfl List.prefix_rfl (fun a ha => .inr (.inr (.inl ?_)))
      simpa [Running.acts] using ha
  | connected a failed reopened =>
    simp only [Core.handle,Core.onConnected]
    split
    · refine h.active rfl (List.prefix_append _ _) ?_
      exact ⟨.connected c.socket.conn, by simp [Core.emit], rfl⟩
    · split
      · exact h.congr hwaits rfl List.prefix_rfl (fun a ha => .inl ha)
      · refine h.congr hwaits rfl List.prefix_rfl (fun a ha => .inr (.inl ?_))
        obtain ⟨k,-,rfl⟩ := List.mem_map.mp ha
        exact ⟨k,rfl⟩
  | close =>
    refine h.congr hwaits rfl List.prefix_rfl (fun a ha => .inr (.inr (.inl ?_)))
    simpa [Core.handle,Running.acts] using ha

theorem Stamped.move (hk : cfg.kind = .tcpClient) (h : Stamped cfg c) {c' : Core κ}
    {ns ns' : List Notice} {e : Event τ} (hok : TimedStep cfg c e) (hm : Move cfg c ns e c' ns') :
    Stamped cfg c' := by
  have hwaits : ∀ w ∈ c.waits, ∃ w' ∈ c.waits, w.deadline = w'.deadline := fun w hm => ⟨w,hm,rfl⟩
  have hsame : ∀ {c' : Core κ}, c'.waits = c.waits → c'.now = c.now → c'.log = c.log →
      c'.running.acts = [] ∨ c'.running = c.running → Stamped cfg c' := by
    intro c' hw hn hl hr
    refine h.congr (hw ▸ hwaits) hn (hl ▸ List.prefix_rfl) (fun a ha => ?_)
    rcases hr with hr | hr
    · rw [hr] at ha
      simp at ha
    · exact .inl (hr ▸ ha)
  cases hm with
  | stay => exact h
  | close => exact h
  | connect hc =>
    obtain ⟨_,_,rfl⟩ := Core.connect_shape hc
    exact hsame rfl rfl rfl (.inr rfl)
  | setup hc => simp [Core.setup,hk] at hc
  | start hc => simp [Core.start,hk] at hc
  | handle _ => exact h.handle hk _
  | wrote _ | release _ | finish _ => exact hsame rfl rfl rfl (.inl rfl)
  | fail _ =>
    have hnext : Stamped cfg { c with running := .program [] } := hsame rfl rfl rfl (.inl rfl)
    exact hnext.closeBody
  | perform hrun =>
    refine h.perform hrun (fun owner k ha hstop => hok owner k ?_ hstop)
    rw [hrun, ha]
    rfl
  | read hx =>
    obtain ⟨_,-,-,-,-,hx⟩ := Core.read_eq_some.mp hx
    obtain ⟨rfl,rfl⟩ := Prod.mk.inj hx
    exact hsame rfl rfl rfl (.inr rfl)
  | readFail hx =>
    obtain ⟨_,-,-,hx⟩ := Core.readFail_eq_some.mp hx
    obtain ⟨rfl,rfl⟩ := Prod.mk.inj hx
    exact hsame rfl rfl rfl (.inr rfl)
  | expire hx | abort hx =>
    obtain ⟨w,-,-,-,hx⟩ := Core.waitDone_eq_some.mp hx
    obtain ⟨rfl,rfl⟩ := Prod.mk.inj hx
    exact h.congr (fun w hm => ⟨w, List.mem_of_mem_eraseIdx hm, rfl⟩) rfl List.prefix_rfl (fun a ha => .inl ha)
  | connectDone hx =>
    obtain ⟨_,-,-,hx⟩ := Core.connectDone_eq_some.mp hx
    obtain ⟨rfl,rfl⟩ := Prod.mk.inj hx
    exact hsame rfl rfl rfl (.inr rfl)
  | tick =>
    have hidle : c.running.acts = [] := hok
    refine ⟨h.waits, fun owner hm => ?_, fun owner k hm => ?_⟩
    · rw [hidle] at hm
      simp at hm
    · rw [hidle] at hm
      simp at hm

end

namespace Endpoint

/-- The handler that a step takes up. -/
def takes (s : Endpoint κ τ) (e : Event τ) (_ : Endpoint κ τ) : List (Handler τ) :=
  match e with
  | .run => s.ready.head?.toList
  | _ => []

/-- The expired wait whose handler was taken up last. -/
def expiring (taken : List (Handler τ)) : Option Wait := taken.getLast?.bind Handler.expiry

variable [DecidableEq τ]

/-- The runs of an endpoint together with the handlers that its strand takes up. -/
abbrev Takes (cfg : Config κ) (ok : Endpoint κ τ × List (Handler τ) → Event τ → Prop) :
    Endpoint κ τ × List (Handler τ) → Prop :=
  Transition.Reach (fun p => (∃ u, p.1 = initial cfg.kind u) ∧ p.2 = [])
    (Transition.recorded (step cfg) takes) ok

theorem Takes.reached {cfg : Config κ} {ok : Endpoint κ τ × List (Handler τ) → Event τ → Prop}
    {p : Endpoint κ τ × List (Handler τ)} (h : Takes cfg ok p) : Reached cfg p.1 := by
  induction h with
  | start hi => exact .start hi.1
  | next _ _ hs ih => exact .next ih trivial (Transition.recorded_eq_some.mp hs).1

/-- The strand takes up the first handler that is ready. -/
theorem run_eq_some {cfg : Config κ} {s t : Endpoint κ τ} (h : step cfg s .run = some t) :
    ∃ hd rest, s.ready = hd :: rest ∧ s.running = .program [] ∧ t = runHandler cfg { s with ready := rest } hd := by
  simp only [step] at h
  split at h
  · rename_i hd rest hready
    simp only [Option.ite_none_right_eq_some,Option.some.injEq] at h
    obtain ⟨hidle,rfl⟩ := h
    simp only [idle,Bool.and_eq_true,beq_iff_eq] at hidle
    exact ⟨hd, rest, hready, hidle.1, rfl⟩
  · simp at h

/-- `reset_read_timeout` does not run while the handler of an expired wait is queued or running. -/
def FreshStep (cfg : Config κ) (p : Endpoint κ τ × List (Handler τ)) (e : Event τ) : Prop :=
  Resets cfg p.1.toCore e → Unexpired p.1.toCore p.1.notices (expiring p.2)

omit [DecidableEq τ] in
theorem punctual_run {cfg : Config κ} {s t : Endpoint κ τ} {current : Option Wait}
    (h : Punctual s.toCore s.notices current) {hd : Handler τ} {rest : List (Handler τ)}
    (hready : s.ready = hd :: rest) (hrun : s.running = .program [])
    (ht : t = runHandler cfg { s with ready := rest } hd) :
    Punctual t.toCore t.notices hd.expiry := by
  subst ht
  have hsub : ∀ w, .expired w false ∈ rest.filterMap Handler.getNotice → .expired w false ∈ s.notices := by
    intro w hw
    rw [notices_cons hready]
    exact List.mem_append_right _ hw
  cases hd with
  | enqueue caller b => exact h.other rfl rfl hsub rfl
  | wrote w failed => exact h.other rfl rfl hsub rfl
  | notice n =>
    cases n with
    | received r result =>
      obtain ⟨_,_,hshape⟩ := Core.onReceived_shape cfg s.toCore r result hrun
      refine h.other ?_ ?_ hsub rfl
      · simp only [runHandler,withCore,Core.handle,hshape]
      · simp only [runHandler,withCore,Core.handle,hshape]
    | expired w aborted =>
      cases aborted with
      | true => exact h.other rfl rfl hsub rfl
      | false =>
        have hid : w.id+1 = s.armed := h.queued w (by
          rw [notices_cons hready]
          exact List.mem_append_left _ (by simp [Handler.getNotice]))
        refine ⟨h.waits, fun w' hw' => h.queued w' (hsub w' hw'), fun w' hw' => .inr ⟨rfl, ?_⟩⟩
        simp only [Handler.expiry,Option.some.injEq] at hw'
        exact hw' ▸ hid
    | connected a failed reopened =>
      refine h.other ?_ ?_ hsub rfl
      · simp only [runHandler,withCore,Core.handle,Core.onConnected]
        split
        · rfl
        · split <;> rfl
      · simp only [runHandler,withCore,Core.handle,Core.onConnected]
        split
        · rfl
        · split <;> rfl
    | close => exact h.other rfl rfl hsub rfl

theorem Takes.punctual {cfg : Config κ} {p : Endpoint κ τ × List (Handler τ)}
    (h : Takes cfg (FreshStep cfg) p) : Punctual p.1.toCore p.1.notices (expiring p.2) := by
  induction h with
  | start hi =>
    obtain ⟨⟨u,hu⟩,hnil⟩ := hi
    rw [hnil, hu]
    refine ⟨fun w hw => ?_, fun w hw => ?_, fun w hw => ?_⟩
    · simp [initial,Core.initial] at hw
    · simp [initial,notices] at hw
    · simp [expiring] at hw
  | @next p q e hp hok hs ih =>
    obtain ⟨hs,hq⟩ := Transition.recorded_eq_some.mp hs
    by_cases he : e = .run
    · subst he
      obtain ⟨hd,rest,hready,hrun,ht⟩ := run_eq_some hs
      have hcur : expiring q.2 = hd.expiry := by simp [hq,takes,hready,expiring]
      rw [hcur]
      exact punctual_run ih hready hrun ht
    · have hcur : q.2 = p.2 := by
        rw [hq]
        cases e with
        | run => exact absurd rfl he
        | _ => simp [takes]
      rw [hcur]
      exact ih.move he hok (step_move hs)

/-- The latest time at which something of this kind happened, or the beginning. -/
def lastTime (kind : Obs → Bool) (log : List (Nat × Obs)) : Nat :=
  (log.filter (fun e => kind e.2)).foldr (fun e t => max e.1 t) 0

omit [DecidableEq τ] in
theorem le_lastTime {kind : Obs → Bool} {log : List (Nat × Obs)} {t : Nat} {o : Obs} (h : (t,o) ∈ log)
    (ho : kind o = true) : t ≤ lastTime kind log := by
  have hmem : (t,o) ∈ log.filter (fun e => kind e.2) := List.mem_filter.mpr ⟨h,ho⟩
  unfold lastTime
  generalize log.filter (fun e => kind e.2) = es at hmem ⊢
  induction es with
  | nil => simp at hmem
  | cons e es ih =>
    rw [List.foldr_cons]
    rcases List.mem_cons.mp hmem with rfl | hmem
    · exact Nat.le_max_left _ _
    · exact Nat.le_trans (ih hmem) (Nat.le_max_right _ _)

/-- The deadline in force is no later than the limit after the last connection or message. -/
def StallDetected (cfg : Config κ) (s : Endpoint κ τ) : Prop :=
  ∀ w ∈ s.waits, w.cancelled = false → w.deadline ≤ cfg.readTimeout +
    max (lastTime (·.connection.isSome) s.log) (lastTime (·.message.isSome) s.log)

/-- `process_buffer` sets a new deadline whenever it comes to its end, also if no message was
complete. Where there always was one, a peer that stalls is found out in time. -/
theorem stall_detected (cfg : Config κ) (hk : cfg.kind = .tcpClient) (s : Endpoint κ τ)
    (h : Transition.Reach (fun s₀ => ∃ u, s₀ = initial cfg.kind u) (step cfg)
      (fun s e => TimedStep cfg s.toCore e) s) : StallDetected cfg s := by
  have hstamped : Stamped cfg s.toCore := by
    induction h with
    | start hi =>
      obtain ⟨u,rfl⟩ := hi
      refine ⟨fun w hw => ?_, fun o ho => ?_, fun o k ho => ?_⟩
      · simp [initial,Core.initial] at hw
      · simp [initial,Core.initial,Running.acts] at ho
      · simp [initial,Core.initial,Running.acts] at ho
    | next _ hok hs ih => exact ih.move hk hok (step_move hs)
  intro w hw _
  obtain ⟨t,o,ho,hactivity,hle⟩ := hstamped.waits w hw
  cases o with
  | connected conn =>
    have ht : t ≤ lastTime (·.connection.isSome) s.log := le_lastTime ho rfl
    omega
  | callback owner message sender =>
    have ht : t ≤ lastTime (·.message.isSome) s.log := le_lastTime ho rfl
    omega
  | _ => simp [Obs.isActivity] at hactivity

/-- A client with the README framing and a limit of five units of time. -/
def impatient : Config Unit :=
  { Config.bare .tcpClient with framing := readmeFraming, onRecv := some passive, readTimeout := 5 }

/-- It is connected and waits for its first byte. -/
def connectedClient : Endpoint Unit Unit := { (initial .tcpClient () : Endpoint Unit Unit) with
  socket := { Socket.closed.reopen with isConnected := true }
  waits := [⟨0,5,false⟩]
  armed := 1
  reads := [⟨1,0,65536⟩]
  log := [(0,.connected 1),(0,.wait 1),(0,.read 1)] }

def connectOnce : List (Event Unit) :=
  [.connect (.ok 0) true, .connectDone 0 false false, .run, .act true, .act true]

/-- A test for the steps. -/
def timedCheck (cfg : Config κ) (s : Endpoint κ τ) : Event τ → Bool
  | .tick _ => s.running.acts.isEmpty
  | .act _ =>
    match s.running.acts.head? with
    | some (.scan _ k) => s.window.scan cfg.framing k != .stop || (0 < k && cfg.onRecv.isSome)
    | _ => true
  | _ => true

omit [DecidableEq τ] in
theorem timedStep_of_check {cfg : Config κ} {s : Endpoint κ τ} {e : Event τ}
    (h : timedCheck cfg s e = true) : TimedStep cfg s.toCore e := by
  cases e with
  | tick d => exact List.isEmpty_iff.mp h
  | act kept =>
    intro owner k hhead hstop
    simpa [timedCheck,hhead,hstop] using h
  | _ => trivial

theorem run_connectOnce : Transition.run (Transition.guarded (step impatient) (timedCheck impatient))
    (initial .tcpClient ()) connectOnce = some connectedClient := by
  simp [connectOnce,connectedClient,Transition.guarded,timedCheck,step,Core.connect,impatient,Config.bare,initial,
    Core.initial,Core.reopen,withCore,Socket.close,Socket.reopen,Socket.closed,Core.connectDone,Core.live,
    notify,idle,runHandler,Core.handle,Core.onConnected,Core.emit,act,Endpoint.perform,Core.perform,
    Core.resetReadTimeout,Core.startReceive,Core.descriptor,Running.acts,Window.startReceive_initial,
    Window.offered_initial,show Window.initial.activeBytes = 0 from rfl,Pipeline.Store.fresh]

/-- A message at time 3 moves the deadline from 5 to 8. -/
def messageAtThree : List (Event Unit) :=
  [.tick 3, .read 0 [0,0,0,4] ⟨0,0⟩, .run, .act true, .act true, .act true]

theorem stall_detected_message : ∃ s : Endpoint Unit Unit,
    Transition.run (Transition.guarded (step impatient) (timedCheck impatient)) (initial .tcpClient ())
      (connectOnce ++ messageAtThree) = some s ∧
    Transition.Reach (fun s₀ => ∃ u, s₀ = initial impatient.kind u) (step impatient)
      (fun s e => TimedStep impatient s.toCore e) s ∧
    s.waits = [⟨0,5,true⟩,⟨1,8,false⟩] ∧ StallDetected impatient s := by
  have hrun : (Transition.run (Transition.guarded (step impatient) (timedCheck impatient)) connectedClient
      messageAtThree).map (·.waits) = some [⟨0,5,true⟩,⟨1,8,false⟩] := by
    decide +kernel
  obtain ⟨s,hs,hw⟩ := Option.map_eq_some_iff.mp hrun
  have hfirst := Transition.run_trans run_connectOnce hs
  have hreach : Transition.Reach (fun s₀ => ∃ u, s₀ = initial impatient.kind u) (step impatient)
      (fun s e => TimedStep impatient s.toCore e) s :=
    Transition.Reach.run_guarded (fun _ _ => timedStep_of_check) (.start ⟨(),rfl⟩) hfirst
  exact ⟨s, hfirst, hreach, hw, stall_detected impatient rfl s hreach⟩

/-- So does one byte of a header. -/
theorem stall_not_detected : ∃ s : Endpoint Unit Unit, Reached impatient s ∧
    s.socket.isOpen = true ∧ connections s.log = [1] ∧ callbacks s.log = [] ∧ ¬ StallDetected impatient s := by
  have hrun : (Transition.run (step impatient) connectedClient
      [.tick 3, .read 0 [0] ⟨0,0⟩, .run, .act true, .act true]).map
      (fun s => (s.waits, s.log, s.socket.isOpen)) =
      some ([⟨0,5,true⟩,⟨1,8,false⟩],
        [(0,.connected 1),(0,.wait 1),(0,.read 1),(3,.wait 1)], true) := by
    decide +kernel
  obtain ⟨s,hs,hv⟩ := Option.map_eq_some_iff.mp hrun
  simp only [Prod.mk.injEq] at hv
  obtain ⟨hwaits,hlog,hopen⟩ := hv
  have hfirst := Transition.run_of_guarded run_connectOnce
  refine ⟨s, reached_of_run (Transition.run_trans hfirst hs), hopen, by rw [hlog]; rfl, by rw [hlog]; rfl, ?_⟩
  intro hdetected
  have := hdetected ⟨1,8,false⟩ (by simp [hwaits]) rfl
  rw [hlog] at this
  exact absurd this (by decide)

/-- When the strand closes the socket for an expired wait, no other wait was started after it. -/
def ClosesInTime (cfg : Config κ) (p : Endpoint κ τ × List (Handler τ)) : Prop :=
  ∀ kept t w, step cfg p.1 (.act kept) = some t → p.1.socket.isOpen = true → t.socket.isOpen = false →
    p.2.getLast? = some (.notice (.expired w false)) → w.id+1 = p.1.armed

/-- A wait that has expired cannot be called back: its handler closes the socket even if
`reset_read_timeout` has run since. It does not if that never happens. -/
theorem timeout_closes_in_time (cfg : Config κ) (p : Endpoint κ τ × List (Handler τ))
    (h : Takes cfg (FreshStep cfg) p) : ClosesInTime cfg p := by
  intro kept t w hs _ _ hlast
  have hcur : expiring p.2 = some w := by rw [expiring, hlast]; rfl
  rcases h.punctual.running w hcur with hrun | ⟨-,hid⟩
  · simp [step,act,hrun] at hs
  · exact hid

/-- A test for the steps. -/
def freshCheck (p : Endpoint κ τ × List (Handler τ)) : Event τ → Bool
  | .act _ => p.1.ready.all (·.expiry.isNone) && (expiring p.2).isNone
  | .start => false
  | _ => true

omit [DecidableEq τ] in
theorem freshStep_of_check {cfg : Config κ} {p : Endpoint κ τ × List (Handler τ)} {e : Event τ}
    (h : freshCheck p e = true) : FreshStep cfg p e := by
  cases e with
  | act kept =>
    intro _
    simp only [freshCheck,Bool.and_eq_true,List.all_eq_true,Option.isNone_iff_eq_none] at h
    refine ⟨fun w hw => ?_, fun w hw => by simp [h.2] at hw⟩
    obtain ⟨hd,hmem,hn⟩ := List.mem_filterMap.mp hw
    have hnone := h.1 hd hmem
    cases hd with
    | notice n =>
      simp only [Handler.getNotice,Option.some.injEq] at hn
      simp [hn,Handler.expiry] at hnone
    | _ => simp [Handler.getNotice] at hn
  | start => simp [freshCheck] at h
  | _ => exact fun hresets => absurd hresets id

/-- The peer says nothing, and the connection is closed at its deadline. -/
theorem timeout_closes_in_time_silent : ∃ p : Endpoint Unit Unit × List (Handler Unit),
    p.1.socket.isOpen = true ∧ (step impatient p.1 (.act true)).map (·.socket.isOpen) = some false ∧
    expiring p.2 = some ⟨0,5,false⟩ ∧ ClosesInTime impatient p := by
  have hrun : (Transition.run (Transition.guarded (Transition.recorded (step impatient) takes) freshCheck)
      (initial .tcpClient (), []) (connectOnce ++ [.tick 5, .expire 0, .run])).map (fun p =>
        (p.1.socket.isOpen, (step impatient p.1 (.act true)).map (·.socket.isOpen), expiring p.2)) =
      some (true, some false, some ⟨0,5,false⟩) := by
    decide +kernel
  obtain ⟨p,hp,hv⟩ := Option.map_eq_some_iff.mp hrun
  simp only [Prod.mk.injEq] at hv
  exact ⟨p, hv.1, hv.2.1, hv.2.2, timeout_closes_in_time impatient p
    (Transition.Reach.run_guarded (fun _ _ => freshStep_of_check) (.start ⟨⟨(),rfl⟩,rfl⟩) hp)⟩

/-- A byte is read in time, but its handler runs after the wait has expired: the strand sets a
new deadline and then closes the socket for the old one. -/
theorem timeout_not_closes_in_time : ∃ p : Endpoint Unit Unit × List (Handler Unit),
    Takes impatient (fun _ _ => True) p ∧ ¬ ClosesInTime impatient p := by
  have hrun : (Transition.run (step impatient) connectedClient
      [.read 0 [0] ⟨0,0⟩, .tick 5, .expire 0, .run, .act true, .act true, .act true]).map (fun s =>
        (s.ready.map Handler.expiry, (step impatient s .run).map (fun t => (t.armed, t.socket.isOpen,
          (step impatient t (.act true)).map (·.socket.isOpen))))) =
      some ([some ⟨0,5,false⟩], some (2, true, some false)) := by
    decide +kernel
  obtain ⟨s,hs,hv⟩ := Option.map_eq_some_iff.mp hrun
  simp only [Prod.mk.injEq] at hv
  obtain ⟨hready,hnext⟩ := hv
  obtain ⟨t,ht,hv⟩ := Option.map_eq_some_iff.mp hnext
  simp only [Prod.mk.injEq] at hv
  obtain ⟨harmed,hopen,hact⟩ := hv
  obtain ⟨u,hu,hclosed⟩ := Option.map_eq_some_iff.mp hact
  obtain ⟨h,hh⟩ := Transition.exists_run_recorded takes
    (Transition.run_trans (Transition.run_of_guarded run_connectOnce) hs) []
  have hp : Takes impatient (fun _ _ => True) (s,h) :=
    Transition.reachable_run (.start ⟨⟨(),rfl⟩,rfl⟩) hh
  obtain ⟨hd,hhd,hexpiry⟩ := List.map_eq_singleton_iff.mp hready
  have hlast : hd = .notice (.expired ⟨0,5,false⟩ false) := by
    cases hd with
    | notice n =>
      cases n with
      | expired w aborted =>
        cases aborted with
        | true => simp [Handler.expiry] at hexpiry
        | false =>
          simp only [Handler.expiry,Option.some.injEq] at hexpiry
          rw [hexpiry]
      | _ => simp [Handler.expiry] at hexpiry
    | _ => simp [Handler.expiry] at hexpiry
  refine ⟨(t, h ++ takes s .run t), .next hp trivial (Transition.recorded_eq_some.mpr ⟨ht,rfl⟩), fun hin => ?_⟩
  have hid := hin true u ⟨0,5,false⟩ hu hopen hclosed (by simp [takes,hhd,hlast])
  rw [harmed] at hid
  exact absurd hid (by decide)

end Endpoint

end Librim
