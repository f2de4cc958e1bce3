import Librim.Delivery
import Mathlib.Algebra.GroupWithZero.Nat
import Mathlib.Data.Prod.Lex

/-! Once nobody calls anything any more, the two ends of a connection whose callbacks make no calls
come to rest after finitely many steps, whatever fails and whatever timers expire. -/

set_option autoImplicit false

namespace Librim

variable {κ τ : Type}

/-- The receive callback sends nothing and does not close. -/
def Config.Mute (cfg : Config κ) : Prop :=
  ∀ callback, cfg.onRecv = some callback → ∀ u message sender, (callback u message sender).calls = []

/-- How many steps a piece of a handler can lead to, before something is read or written. -/
def Act.effort (active : Nat) : Act → Nat
  | .scan _ currentOffset => 9+sizeSub active currentOffset
  | .resetReadTimeout _ | .startReceive _ => 4
  | _ => 1

def Notice.effort (active : Nat) : Notice → Nat
  | .received _ (.ok n) => 11+(active+n)
  | _ => 2

def Running.effort (active : Nat) : Running → Nat
  | .releasing left _ => if left = 0 then 4 else 1
  | .program acts => (acts.map (Act.effort active)).sum

/-- What is left of `start`, which begins a wait and a read. -/
def Boot.effort : Boot → Nat
  | .resetReadTimeout => 8
  | .startReceive => 4
  | .done => 0

/-- The reads and waits that are still to end. -/
def Core.awaited (c : Core κ) : Nat := 3*c.reads.length + 3*c.waits.length + c.boot.effort

def Core.effort (c : Core κ) (ns : List Notice) : Nat :=
  (ns.map (Notice.effort c.window.activeBytes)).sum + c.running.effort c.window.activeBytes + c.awaited

/-- Only the receive loop looks at the window. -/
theorem acts_effort {acts : List Act} (h : acts.filterMap Act.link = []) (active active' : Nat) :
    (acts.map (Act.effort active)).sum = (acts.map (Act.effort active')).sum := by
  refine congrArg List.sum (List.map_congr_left (fun a ha => ?_))
  have hnone := List.filterMap_eq_nil_iff.mp h a ha
  cases a with
  | scan owner k | datagram owner n | startReceive owner => simp [Act.link] at hnone
  | call k | resetReadTimeout owner | close => simp only [Act.effort]

theorem notices_effort {ns : List Notice} (h : ns.filterMap Notice.link = []) (active active' : Nat) :
    (ns.map (Notice.effort active)).sum = (ns.map (Notice.effort active')).sum := by
  refine congrArg List.sum (List.map_congr_left (fun n hn => ?_))
  have hnone := List.filterMap_eq_nil_iff.mp h n hn
  cases n with
  | received r result => simp [Notice.link] at hnone
  | expired w aborted | connected a failed reopened | close => simp only [Notice.effort]

section core
variable {cfg : Config κ} {c : Core κ} {ns : List Notice}

theorem deliver_mute (hmute : cfg.Mute) (owner offset n : Nat) (sender : Option Address) (next : List Act) :
    (c.deliver cfg owner offset n sender next).running = .program next ∧
    (c.deliver cfg owner offset n sender next).window.activeBytes = c.window.activeBytes ∧
    (c.deliver cfg owner offset n sender next).awaited = c.awaited := by
  unfold Core.deliver
  split
  · exact ⟨rfl,rfl,rfl⟩
  · rename_i callback hcb
    have hcalls := hmute callback hcb c.user (c.window.span offset n) sender
    exact ⟨by simp [hcalls], rfl, rfl⟩

theorem closeBody_awaited (cfg : Config κ) (c : Core κ) : (c.closeBody cfg).awaited = c.awaited := by
  unfold Core.closeBody
  split <;> simp [Core.awaited,Core.emit]

theorem resetReadTimeout_awaited (cfg : Config κ) (c : Core κ) (owner : Nat) :
    (c.resetReadTimeout cfg owner).awaited ≤ c.awaited+3 := by
  unfold Core.resetReadTimeout
  split
  · simp only [Core.awaited,Core.emit,List.length_append,List.length_map,List.length_singleton]
    omega
  · omega

theorem startReceive_awaited (hk : cfg.kind ≠ .udpEndpoint) (c : Core κ) (owner : Nat) :
    (c.startReceive cfg owner).awaited = c.awaited+3 := by
  simp only [startReceive_tcp hk,Core.awaited,Core.emit,List.length_append,List.length_singleton]
  omega

theorem startReceive_active (hk : cfg.kind ≠ .udpEndpoint) (c : Core κ) (owner : Nat) :
    (c.startReceive cfg owner).window.activeBytes = c.window.activeBytes := by
  rw [startReceive_tcp hk]
  unfold Window.startReceive
  split <;> rfl

/-- Each pass of the loop in `process_buffer` takes a message, or is the last. -/
theorem scan_effort (hmute : cfg.Mute) (hadv : cfg.framing.Advances) {owner k : Nat} {rest : List Act}
    (hsteady : Steady (c.links ns)) (hrun : c.running = .program (.scan owner k :: rest)) :
    (c.perform cfg rest (.scan owner k)).effort ns < c.effort ns := by
  obtain ⟨-,-,hns,hrest⟩ := hsteady.head hrun rfl
  simp only [Core.perform]
  split
  · simp only [Core.effort,Core.awaited,hrun,Running.effort,List.map_cons,List.sum_cons,Act.effort]
    omega
  · rename_i n hscan
    obtain ⟨hpos,hle⟩ := hadv.pos hscan
    have hlt := sizeSub_add hpos hle
    obtain ⟨hrunning,hactive,hawaited⟩ := deliver_mute (c := c) hmute owner k n none (.scan owner (k+n) :: rest)
    simp only [Core.effort,hrunning,hactive,hawaited,hrun,Running.effort,List.map_cons,List.sum_cons,Act.effort]
    omega
  · simp only [Core.effort,Core.awaited,hrun,Running.effort,List.map_cons,List.sum_cons,Act.effort,
      notices_effort hns _ c.window.activeBytes,acts_effort hrest _ c.window.activeBytes]
    omega

theorem perform_effort (hk : cfg.kind ≠ .udpEndpoint) (hmute : cfg.Mute) (hadv : cfg.framing.Advances) {a : Act}
    {rest : List Act} (hsteady : Steady (c.links ns)) (hrun : c.running = .program (a :: rest)) :
    (c.perform cfg rest a).effort ns < c.effort ns := by
  have hdone : ∀ {d : Core κ}, d.running = .program rest → d.window.activeBytes = c.window.activeBytes →
      d.awaited+1 ≤ c.awaited+a.effort c.window.activeBytes → d.effort ns < c.effort ns := by
    intro d hd hactive hless
    simp only [Core.effort,hrun,hd,hactive,Running.effort,List.map_cons,List.sum_cons]
    omega
  have hclosing : (Core.closeBody cfg { c with running := .program rest }).window.activeBytes =
        c.window.activeBytes ∧
      (Core.closeBody cfg { c with running := .program rest }).awaited = c.awaited := by
    refine ⟨?_, closeBody_awaited ..⟩
    obtain ⟨_,_,_,_,hshape⟩ := Core.closeBody_shape cfg { c with running := .program rest }
    rw [hshape]
  cases a with
  | scan owner k => exact scan_effort hmute hadv hsteady hrun
  | datagram owner n =>
    obtain ⟨hlinks,-,-,-⟩ := hsteady.head hrun rfl
    exact absurd (by rw [hlinks]; exact List.mem_cons_self) hsteady.stream
  | call k =>
    cases k with
    | send request => exact hdone rfl rfl (Nat.le_refl _)
    | close => exact hdone (by simp [Core.perform]) hclosing.1 (Nat.le_of_eq (congrArg (·+1) hclosing.2))
  | resetReadTimeout owner =>
    obtain ⟨_,_,_,hshape⟩ := Core.resetReadTimeout_shape cfg { c with running := .program rest } owner
    have hle := resetReadTimeout_awaited cfg { c with running := .program rest } owner
    exact hdone (by simp [Core.perform]) (by simp only [Core.perform,hshape]) (Nat.succ_le_succ hle)
  | startReceive owner =>
    have hle := startReceive_awaited hk { c with running := .program rest } owner
    exact hdone (by simp [Core.perform]) (startReceive_active hk ..) (Nat.le_of_eq (congrArg (·+1) hle))
  | close => exact hdone (by simp [Core.perform]) hclosing.1 (Nat.le_of_eq (congrArg (·+1) hclosing.2))

/-- A handler that is taken up takes fewer steps than were reckoned for it. -/
theorem handle_effort (hk : cfg.kind ≠ .udpEndpoint) {n : Notice} (hsteady : Steady (c.links (n :: ns)))
    (hrun : c.running = .program []) (hn : n.isConnected = false) :
    (c.handle cfg n).effort ns < c.effort (n :: ns) := by
  have hclosing : ∀ {acts : List Act}, (acts.map (Act.effort c.window.activeBytes)).sum ≤ 1 →
      ({ c with running := .program acts } : Core κ).effort ns < c.effort (n :: ns) := by
    intro acts hlen
    have hpos : 2 ≤ n.effort c.window.activeBytes := by
      cases n with
      | received r result =>
        cases result with
        | ok m => simp only [Notice.effort]; omega
        | error ec => exact Nat.le_refl _
      | _ => exact Nat.le_refl _
    simp only [Core.effort,Core.awaited,hrun,Running.effort,List.map_cons,List.sum_cons,List.map_nil,List.sum_nil]
    omega
  cases n with
  | connected a failed reopened => simp [Notice.isConnected] at hn
  | close => exact hclosing (Nat.le_refl _)
  | expired w aborted =>
    simp only [Core.handle]
    split
    · simp only [Core.effort,List.map_cons,List.sum_cons,Notice.effort]
      omega
    · exact hclosing (Nat.le_refl _)
  | received r result =>
    obtain ⟨-,-,hns⟩ := hsteady.front hrun rfl
    cases result with
    | error ec =>
      cases hkind : cfg.kind with
      | udpEndpoint => exact absurd hkind hk
      | tcpConnection | tcpClient =>
        simp only [Core.handle,Core.onReceived,hkind]
        exact hclosing (Nat.le_refl _)
    | ok m =>
      have hscan : ({ c with
          window := { c.window with activeBytes := c.window.activeBytes+m }
          running := .program [.scan r.conn 0] } : Core κ).effort ns < c.effort (.received r (.ok m) :: ns) := by
        simp only [Core.effort,Core.awaited,hrun,Running.effort,notices_effort hns _ c.window.activeBytes,
          List.map_cons,List.sum_cons,List.map_nil,List.sum_nil,Act.effort,Notice.effort,
          sizeSub_of_le (Nat.zero_le _)]
        omega
      by_cases hpos : 0 < m
      · cases hkind : cfg.kind with
        | udpEndpoint => exact absurd hkind hk
        | tcpConnection | tcpClient => simpa only [Core.handle,Core.onReceived,hkind,hpos,↓reduceIte] using hscan
      · cases hkind : cfg.kind with
        | udpEndpoint => exact absurd hkind hk
        | tcpConnection | tcpClient =>
          simp only [Core.handle,Core.onReceived,hkind,hpos,↓reduceIte]
          exact hclosing (Nat.le_refl _)

end core

/-- Every step but a call and the passing of time, be it a success or a failure. A write has an effect or
is over. -/
def Event.proceeds : Event τ → Bool
  | .send _ _ | .close | .connect _ _ | .setup _ _ | .tick _ => false
  | .write _ n => 0 < n
  | _ => true

theorem proceeds_of_moves {e : Event τ} (h : e.moves = true) : e.proceeds = true := by
  cases e <;> simp_all [Event.moves,Event.proceeds]

/-- With no attempt to connect outstanding, none comes about by itself. -/
theorem Move.calm {cfg : Config κ} {c c' : Core κ} {ns ns' : List Notice} {e : Event τ}
    (hm : Move cfg c ns e c' ns') (hproceeds : e.proceeds = true) (hnone : c.attempts ns = 0) :
    Calm c ns c' ns' := by
  have happend : ∀ {n : Notice}, n.isConnected = false →
      (ns ++ [n]).filter Notice.isConnected = ns.filter Notice.isConnected := by
    intro n hn
    simp [hn]
  cases hm with
  | stay | wrote _ | release _ | finish _ => exact .same rfl rfl rfl rfl
  | start hc =>
    have hlog : connections c'.log = connections c.log := by
      unfold Core.start at hc
      split at hc <;> simp only [Option.some.injEq,reduceCtorEq] at hc
      · exact hc ▸ (resetReadTimeout_silent cfg { c with boot := .startReceive } _).connections
      · exact hc ▸ (startReceive_silent cfg { c with boot := .done } _).connections
      · exact hc ▸ (startReceive_silent cfg { c with boot := .done } _).connections
    obtain ⟨_,_,_,_,_,_,rfl⟩ := Core.start_shape hc
    exact .same rfl rfl hlog rfl
  | @handle n ns hrun =>
    have htaken : n.isConnected = false →
        ns'.filter Notice.isConnected = (n :: ns').filter Notice.isConnected := by
      intro hn
      simp [hn]
    cases n with
    | received r result =>
      obtain ⟨_,_,hshape⟩ := Core.onReceived_shape cfg c r result hrun
      simp only [Core.handle,hshape]
      exact .same rfl (htaken rfl) rfl rfl
    | expired w aborted =>
      simp only [Core.handle]
      split <;> exact .same rfl (htaken rfl) rfl rfl
    | connected a failed reopened => simp [Core.attempts,Notice.isConnected] at hnone
    | close => exact .same rfl (htaken rfl) rfl rfl
  | fail _ =>
    have hnext : Calm c ns { c with running := .program [] } ns := .same rfl rfl rfl rfl
    exact hnext.closeBody
  | perform _ => exact .perform ..
  | read hx =>
    obtain ⟨_,-,-,-,-,hx⟩ := Core.read_eq_some.mp hx
    obtain ⟨rfl,rfl⟩ := Prod.mk.inj hx
    exact .same rfl (happend rfl) rfl rfl
  | readFail hx =>
    obtain ⟨_,-,-,hx⟩ := Core.readFail_eq_some.mp hx
    obtain ⟨rfl,rfl⟩ := Prod.mk.inj hx
    exact .same rfl (happend rfl) rfl rfl
  | expire hx | abort hx =>
    obtain ⟨_,-,-,-,hx⟩ := Core.waitDone_eq_some.mp hx
    obtain ⟨rfl,rfl⟩ := Prod.mk.inj hx
    exact .same rfl (happend rfl) rfl rfl
  | connectDone hx =>
    obtain ⟨_,ha,-,-⟩ := Core.connectDone_eq_some.mp hx
    have hconnects : c.connects = [] := by
      simp only [Core.attempts] at hnone
      exact List.length_eq_zero_iff.mp (by omega)
    simp [hconnects] at ha
  | _ => simp [Event.proceeds] at hproceeds

def Act.isSend : Act → Bool
  | .call (.send _) => true
  | _ => false

theorem handle_sends {cfg : Config κ} {c : Core κ} {n : Notice} (hrun : c.running = .program [])
    (hn : n.isConnected = false) : (c.handle cfg n).running.acts.countP Act.isSend = 0 := by
  cases n with
  | connected a failed reopened => simp [Notice.isConnected] at hn
  | close => rfl
  | expired w aborted =>
    simp only [Core.handle]
    split
    · rw [hrun]; rfl
    · rfl
  | received r result =>
    simp only [Core.handle,Core.onReceived]
    split
    · split
      · rfl
      · rw [hrun]; rfl
    · split
      · rfl
      · rw [hrun]; rfl
    · split <;> rfl
    · rfl

theorem perform_sends {cfg : Config κ} (hmute : cfg.Mute) (c : Core κ) (rest : List Act) {a : Act}
    (ha : a.isSend = false) :
    (c.perform cfg rest a).running.acts.countP Act.isSend = rest.countP Act.isSend := by
  cases a with
  | scan owner k =>
    simp only [Core.perform]
    split
    · simp [Running.acts,Act.isSend]
    · rename_i n _
      rw [(deliver_mute hmute owner k n none _).1]
      simp [Running.acts,Act.isSend]
    · simp [Running.acts,Act.isSend]
  | datagram owner n =>
    simp only [Core.perform]
    rw [(deliver_mute hmute owner 0 n (some c.sender) rest).1]
    rfl
  | call k =>
    cases k with
    | send request => simp [Act.isSend] at ha
    | close => simp [Core.perform,Running.acts]
  | resetReadTimeout owner | startReceive owner | close => simp [Core.perform,Running.acts]

def Handler.isEnqueue : Handler τ → Bool
  | .enqueue _ _ => true
  | _ => false

def Handler.isWrote : Handler τ → Bool
  | .wrote _ _ => true
  | _ => false

namespace Endpoint

/-- How many steps it can take until the payloads of all calls are in the queue. -/
def calling (callers : Finset (Option τ)) (s : Endpoint κ τ) : Nat :=
  5*s.running.acts.countP Act.isSend + callers.sum (fun caller => (s.out.pc caller).left) +
    s.ready.countP Handler.isEnqueue

/-- Bytes written and bytes read. -/
def traffic (s : Endpoint κ τ) : Nat := s.out.wire.length+s.stream.length

/-- How many steps can be taken in between. -/
def effort (s : Endpoint κ τ) : Nat :=
  s.toCore.effort s.notices + 5*s.out.queue.length + 3*s.out.writes.length + 2*s.ready.countP Handler.isWrote

/-- What a step brings: a call gets on, bytes are written or read, or there is less left to do in between. -/
inductive Headway (callers : Finset (Option τ)) (s t : Endpoint κ τ) : Prop where
  | calls : t.calling callers < s.calling callers → Headway callers s t
  | bytes : t.calling callers = s.calling callers → t.payloads = s.payloads → s.traffic < t.traffic →
      Headway callers s t
  | effort : t.calling callers = s.calling callers → t.payloads = s.payloads → t.traffic = s.traffic →
      t.effort < s.effort → Headway callers s t

variable [DecidableEq τ] {cfg : Config κ} {callers : Finset (Option τ)} {s t : Endpoint κ τ}

/-- Nobody calls `connect`, and only `callers` have a call in progress. -/
structure Unattended (cfg : Config κ) (callers : Finset (Option τ)) (s : Endpoint κ τ) : Prop where
  reached : Reached cfg s
  once : cfg.kind = .tcpClient → (connections s.log).length ≤ 1
  attempts : s.attempts s.notices = 0
  calls : ∀ caller, caller ∉ callers → s.out.pc caller = .idle
  strand : none ∈ callers

/-- A call that gets on from `pc` to `next`. -/
theorem Unattended.gets_on (h : Unattended cfg callers s) {caller : Option τ} {next : Pipeline.Pc Ticket}
    (hpc : s.out.pc caller ≠ .idle) (hrun : t.running = s.running)
    (hnext : t.out.pc = Function.update s.out.pc caller next)
    (hless : next.left + t.ready.countP Handler.isEnqueue <
      (s.out.pc caller).left + s.ready.countP Handler.isEnqueue) : Headway callers s t := by
  have hmem : caller ∈ callers := by
    by_contra hnot
    exact hpc (h.calls caller hnot)
  have hsum := Pipeline.sum_left_update s.out.pc hmem next
  refine .calls ?_
  simp only [calling,hrun,hnext]
  omega

omit [DecidableEq τ] in
theorem finishWrite_pc (failed : Bool) : (finishWrite cfg failed s).out.pc = s.out.pc := by
  unfold finishWrite
  split
  · rfl
  · split <;> rfl

/-- Only a callback makes a call of its own accord. -/
theorem proceeds_pc {e : Event τ} (hs : step cfg s e = some t) (hproceeds : e.proceeds = true) {caller : Option τ}
    (hne : caller ≠ none) (hidle : s.out.pc caller = .idle) : t.out.pc caller = .idle := by
  have hupdate : ∀ {c next}, s.out.pc c ≠ .idle → Function.update s.out.pc c next caller = .idle := by
    intro c next hc
    have hother : caller ≠ c := by
      rintro rfl
      exact hc hidle
    rw [Function.update_of_ne hother]
    exact hidle
  cases e with
  | pop c =>
    simp only [step,Option.map_eq_some_iff] at hs
    obtain ⟨out,hout,rfl⟩ := hs
    obtain ⟨_,_,_,hpc,-,rfl⟩ := Pipeline.Store.pop_eq_some.mp hout
    exact hupdate (by simp [hpc])
  | fill c =>
    simp only [step,fill] at hs
    split at hs
    · rename_i b ticket hpc
      simp only [Option.some.injEq] at hs
      subst hs
      exact hupdate (by simp [hpc])
    · simp at hs
  | post c =>
    simp only [step,Endpoint.post] at hs
    split at hs
    · rename_i b ticket hpc
      simp only [Option.some.injEq] at hs
      subst hs
      exact hupdate (by simp [hpc])
    · simp at hs
  | run =>
    simp only [step] at hs
    split at hs
    · rename_i x rest _
      simp only [Option.ite_none_right_eq_some,Option.some.injEq] at hs
      obtain ⟨-,rfl⟩ := hs
      cases x with
      | enqueue c b => simpa only [runHandler,Pipeline.Store.enqueue_pc] using hidle
      | wrote w failed | notice n => exact hidle
    · simp at hs
  | act kept =>
    simp only [step,act] at hs
    split at hs
    · simp only [Option.some.injEq] at hs
      subst hs
      simpa only [Pipeline.Store.release_pc] using hidle
    · simp only [Option.some.injEq] at hs
      subst hs
      rw [finishWrite_pc]
      exact hidle
    · simp only [Option.ite_none_right_eq_some,Option.some.injEq] at hs
      obtain ⟨-,rfl⟩ := hs
      unfold perform
      split
      · unfold call
        split
        · exact hidle
        · simpa only [Pipeline.Store.call,withCore,Function.update_of_ne hne] using hidle
      · exact hidle
    · simp at hs
  | write i n =>
    simp only [step,Endpoint.write] at hs
    split at hs
    · simp only [Option.ite_none_right_eq_some,Option.map_eq_some_iff] at hs
      obtain ⟨-,out,hout,rfl⟩ := hs
      obtain ⟨_,-,-,rfl⟩ := Pipeline.Store.progress_eq_some.mp hout
      exact hidle
    · simp at hs
  | writeDone i failed =>
    simp only [step,writeDone] at hs
    split at hs
    · simp only [Option.ite_none_right_eq_some,Option.some.injEq] at hs
      obtain ⟨-,rfl⟩ := hs
      exact hidle
    · simp at hs
  | read i data sender | readFail i ec | expire i | abort i | connectDone i failed reopened | start =>
    simp only [step,Option.map_eq_some_iff] at hs
    obtain ⟨x,-,rfl⟩ := hs
    exact hidle
  | _ => simp [Event.proceeds] at hproceeds

theorem Unattended.next (h : Unattended cfg callers s) {e : Event τ} (hs : step cfg s e = some t)
    (hproceeds : e.proceeds = true) : Unattended cfg callers t := by
  have hcalm := (step_move hs).calm hproceeds h.attempts
  refine ⟨.next h.reached trivial hs, by rw [hcalm.made]; exact h.once, hcalm.attempts.trans h.attempts, ?_,
    h.strand⟩
  intro caller hnot
  exact proceeds_pc hs hproceeds (fun heq => hnot (heq ▸ h.strand)) (h.calls caller hnot)

theorem Unattended.tick (h : Unattended cfg callers s) (d : Nat) :
    Unattended cfg callers { s with now := s.now+d } :=
  ⟨.next (e := .tick d) h.reached trivial rfl, h.once, h.attempts, h.calls, h.strand⟩

section headway
variable (h : Unattended cfg callers s)
include h

theorem Unattended.run (hk : cfg.kind ≠ .udpEndpoint) (hs : step cfg s .run = some t) : Headway callers s t := by
  have hsteady := ((bounds_rule cfg).reached hk h.reached h.once).steady
  simp only [step] at hs
  split at hs
  · rename_i x rest hready
    simp only [Option.ite_none_right_eq_some,Option.some.injEq] at hs
    obtain ⟨hidle,rfl⟩ := hs
    simp only [idle,Bool.and_eq_true,beq_iff_eq] at hidle
    obtain ⟨hrun,hpc⟩ := hidle
    cases x with
    | enqueue caller b =>
      refine .calls ?_
      simp only [calling,runHandler,Pipeline.Store.enqueue_pc,hready,List.countP_cons,Handler.isEnqueue,↓reduceIte]
      omega
    | wrote w failed =>
      have hwritten : .written w failed ∈ s.pipeline.ready := by simp [pipeline,hready,Handler.job]
      have hpos : 0 < s.out.batch := (h.reached.sound.serial.of_ready hwritten).2.2.2.2.1
      refine .effort ?_ rfl rfl ?_
      · simp [calling,runHandler,hready,hrun,Handler.isEnqueue,Running.acts]
      · simp only [effort,runHandler,hready,hrun,List.countP_cons,Handler.isWrote,↓reduceIte,Core.effort,
          Core.awaited,Running.effort,notices,List.filterMap_cons,Handler.getNotice,List.map_nil,List.sum_nil,
          if_neg (Nat.ne_of_gt hpos)]
        omega
    | notice n =>
      have hns : s.notices = n :: rest.filterMap Handler.getNotice := by
        simp [notices_cons hready,Handler.getNotice]
      have hn : n.isConnected = false := by
        have hnone := h.attempts
        cases hconn : n.isConnected with
        | false => rfl
        | true => simp [Core.attempts,hns,hconn] at hnone
      have hless : (s.toCore.handle cfg n).effort _ < s.toCore.effort _ :=
        handle_effort hk (hns ▸ hsteady) hrun hn
      obtain ⟨_,_,_,_,_,_,hshape⟩ := Core.handle_shape cfg s.toCore n hrun
      refine .effort ?_ rfl ?_ ?_
      · have hsends : (runHandler cfg { s with ready := rest } (.notice n)).running.acts.countP Act.isSend = 0 :=
          handle_sends hrun hn
        simp only [calling,hsends]
        simp [runHandler,withCore,hready,hrun,Handler.isEnqueue,Running.acts]
      · simp only [traffic,Core.stream,runHandler,withCore,hshape]
      · simp only [effort,runHandler,withCore,hready,List.countP_cons,Handler.isWrote]
        rw [← hns] at hless
        simp only [notices] at hless ⊢
        omega
  · simp at hs

/-- A `send` of a callback that was about to be made is made, or refused. -/
theorem Unattended.sends {request : Request} {rest : List Act}
    (hrun : s.running = .program (.call (.send request) :: rest)) (hpc : s.out.pc none = .idle) :
    Headway callers s (s.perform cfg rest (.call (.send request))) := by
  have hsum := Pipeline.sum_left_update s.out.pc h.strand
  refine .calls ?_
  simp only [perform,call]
  split
  · simp only [calling,withCore,Core.perform,hrun,Running.acts,List.countP_cons,Act.isSend,↓reduceIte]
    omega
  · rename_i hcheck
    have hsum' := hsum (.waiting ⟨request,
      .ofRequest cfg.kind (s.withCore (s.toCore.perform cfg rest (.call (.send request)))).socket request⟩)
    rw [hpc] at hsum'
    simp only [calling,withCore,Core.perform,Pipeline.Store.call,hrun,Running.acts,List.countP_cons,Act.isSend,
      ↓reduceIte,Pipeline.Pc.left] at hsum' ⊢
    omega

theorem Unattended.performs (hk : cfg.kind ≠ .udpEndpoint) (hmute : cfg.Mute) (hadv : cfg.framing.Advances)
    {a : Act} {rest : List Act} (hrun : s.running = .program (a :: rest)) (ha : a.isSend = false) :
    Headway callers s (s.perform cfg rest a) := by
  have hsteady := ((bounds_rule cfg).reached hk h.reached h.once).steady
  have hless := perform_effort hk hmute hadv hsteady hrun
  have hsends := perform_sends hmute s.toCore rest ha
  have heq : s.perform cfg rest a = s.withCore (s.toCore.perform cfg rest a) := by
    unfold perform
    split
    · simp [Act.isSend] at ha
    · rfl
  obtain ⟨_,_,_,_,_,_,_,_,hshape⟩ := Core.perform_shape cfg s.toCore rest a
  rw [heq]
  refine .effort ?_ rfl ?_ ?_
  · simp only [calling,withCore,hsends,hrun]
    simp [Running.acts,ha]
  · simp only [traffic,Core.stream,withCore,hshape]
  · simp only [effort,withCore,notices] at hless ⊢
    omega

theorem Unattended.act (hk : cfg.kind ≠ .udpEndpoint) (hmute : cfg.Mute) (hadv : cfg.framing.Advances)
    {kept : Bool} (hs : s.act cfg kept = some t) : Headway callers s t := by
  unfold Endpoint.act at hs
  split at hs
  · rename_i left failed hrun
    simp only [Option.some.injEq] at hs
    subst hs
    obtain ⟨-,hle⟩ := h.reached.sound.serial.releasing (left+1) failed (by simp [pipeline,hrun,Running.phase])
    have hle' : left+1 ≤ s.out.queue.length := hle
    obtain ⟨b,queue,hq⟩ : ∃ b queue, s.out.queue = b :: queue := by
      cases hq : s.out.queue with
      | nil => rw [hq, List.length_nil] at hle'; omega
      | cons b queue => exact ⟨b,queue,rfl⟩
    refine .effort ?_ ?_ ?_ ?_
    · simp only [calling,Pipeline.Store.release_pc,hrun,Running.acts]
    · simp [payloads,Pipeline.Store.release,hq]
    · simp [traffic,Pipeline.Store.release,hq,Core.stream]
    · have hstep : (Running.releasing left failed).effort s.window.activeBytes ≤ 4 := by
        simp only [Running.effort]
        split <;> omega
      simp only [effort,Core.effort,Core.awaited,hrun,Pipeline.Store.release,hq,notices,List.length_cons] at hstep ⊢
      omega
  · rename_i failed hrun
    simp only [Option.some.injEq] at hs
    subst hs
    unfold finishWrite
    split
    · obtain ⟨_,_,_,_,hshape⟩ := Core.closeBody_shape cfg { s.toCore with running := .program [] }
      refine .effort ?_ rfl ?_ ?_
      · simp [calling,withCore,hshape,hrun,Running.acts]
      · simp only [traffic,withCore,hshape,Core.stream]
      · have hawaited := closeBody_awaited cfg { s.toCore with running := .program [] }
        simp only [hshape,Core.awaited] at hawaited
        simp only [effort,withCore,hshape,Core.effort,Core.awaited,notices,hrun,Running.effort,↓reduceIte,List.map_nil,
          List.sum_nil]
        omega
    · split
      · refine .effort ?_ rfl rfl ?_
        · simp [calling,hrun,Running.acts]
        · simp only [effort,Core.effort,Core.awaited,notices,hrun,Running.effort,↓reduceIte,List.map_nil,List.sum_nil]
          omega
      · refine .effort ?_ rfl rfl ?_
        · simp [calling,Pipeline.Store.startWrite,hrun,Running.acts]
        · simp only [effort,Core.effort,Core.awaited,notices,hrun,Running.effort,↓reduceIte,List.map_nil,List.sum_nil,
            Pipeline.Store.startWrite,List.length_append,List.length_singleton]
          omega
  · rename_i a rest hrun
    simp only [Option.ite_none_right_eq_some,Option.some.injEq] at hs
    obtain ⟨hpc,rfl⟩ := hs
    cases hsend : a.isSend with
    | false => exact h.performs hk hmute hadv hrun hsend
    | true =>
      obtain ⟨request,rfl⟩ : ∃ request, a = .call (.send request) := by
        cases a with
        | call k =>
          cases k with
          | send request => exact ⟨request,rfl⟩
          | close => simp [Act.isSend] at hsend
        | _ => simp [Act.isSend] at hsend
      exact h.sends hrun hpc
  · simp at hs

end headway

omit [DecidableEq τ] in
theorem write_headway {i n : Nat} (hpos : 0 < n) (hs : s.write cfg i n = some t) : Headway callers s t := by
  unfold Endpoint.write at hs
  split at hs
  · simp only [Option.ite_none_right_eq_some,Option.map_eq_some_iff] at hs
    obtain ⟨-,out,hout,rfl⟩ := hs
    obtain ⟨w,-,hle,rfl⟩ := Pipeline.Store.progress_eq_some.mp hout
    refine .bytes rfl rfl ?_
    simp only [traffic,List.length_append,List.length_take,List.length_drop]
    omega
  · simp at hs

omit [DecidableEq τ] in
theorem writeDone_headway {i : Nat} {failed : Bool} (hs : s.writeDone i failed = some t) :
    Headway callers s t := by
  unfold writeDone at hs
  split at hs
  · rename_i w hi
    simp only [Option.ite_none_right_eq_some,Option.some.injEq] at hs
    obtain ⟨-,rfl⟩ := hs
    have hlt := (List.getElem?_eq_some_iff.mp hi).1
    refine .effort ?_ rfl rfl ?_
    · simp [calling,Handler.isEnqueue]
    · simp only [effort,notices,List.filterMap_append,List.filterMap_cons,Handler.getNotice,List.filterMap_nil,
        List.append_nil,List.length_eraseIdx_of_lt hlt,List.countP_append,List.countP_singleton,Handler.isWrote,
        ↓reduceIte]
      omega
  · simp at hs

theorem read_headway (hk : cfg.kind ≠ .udpEndpoint) {i : Nat} {data : List Byte} {sender : Address}
    (hs : step cfg s (.read i data sender) = some t) : Headway callers s t := by
  have hstream := Net.stream_of_read hs
  simp only [step,Option.map_eq_some_iff] at hs
  obtain ⟨x,hx,rfl⟩ := hs
  obtain ⟨r,-,-,-,hne,rfl⟩ := Core.read_eq_some.mp hx
  have hpos : 0 < data.length := List.length_pos_of_ne_nil (hne.resolve_left hk)
  refine .bytes ?_ rfl ?_
  · simp [calling,notify,Handler.isEnqueue]
  · rw [traffic, traffic, hstream, List.length_append]
    simp only [notify]
    omega

omit [DecidableEq τ] in
/-- An operation that is over, and the handler that was queued for it. -/
theorem notify_headway {x : Core κ × Notice} (hrun : x.1.running = s.running)
    (hactive : x.1.window.activeBytes = s.window.activeBytes) (harrived : x.1.arrived = s.arrived)
    (hnotice : x.2.effort s.window.activeBytes = 2) (hawaited : x.1.awaited+3 = s.awaited) :
    Headway callers s (s.notify x) := by
  refine .effort ?_ rfl ?_ ?_
  · simp [calling,notify,hrun,Handler.isEnqueue]
  · simp [traffic,Core.stream,notify,harrived]
  · simp only [effort,notify,Core.effort,notices,List.filterMap_append,List.filterMap_cons,Handler.getNotice,
      List.filterMap_nil,List.map_append,List.map_cons,List.map_nil,List.sum_append,List.sum_cons,List.sum_nil,
      List.countP_append,List.countP_singleton,Handler.isWrote,Bool.false_eq_true,↓reduceIte,hrun,hactive]
    simp only [Core.awaited] at hawaited ⊢
    omega

theorem readFail_headway {i : Nat} {ec : ErrorCode} (hs : step cfg s (.readFail i ec) = some t) :
    Headway callers s t := by
  simp only [step,Option.map_eq_some_iff] at hs
  obtain ⟨x,hx,rfl⟩ := hs
  obtain ⟨r,hi,-,rfl⟩ := Core.readFail_eq_some.mp hx
  have hlt := (List.getElem?_eq_some_iff.mp hi).1
  refine notify_headway rfl rfl rfl rfl ?_
  simp only [Core.awaited,List.length_eraseIdx_of_lt hlt]
  omega

omit [DecidableEq τ] in
/-- A wait expires, or its cancellation is reported. -/
theorem waitDone_headway {i : Nat} {aborted : Bool}
    (hs : (s.toCore.waitDone i aborted).map s.notify = some t) : Headway callers s t := by
  simp only [Option.map_eq_some_iff] at hs
  obtain ⟨x,hx,rfl⟩ := hs
  obtain ⟨w,hi,-,-,rfl⟩ := Core.waitDone_eq_some.mp hx
  have hlt := (List.getElem?_eq_some_iff.mp hi).1
  refine notify_headway rfl rfl rfl rfl ?_
  simp only [Core.awaited,List.length_eraseIdx_of_lt hlt]
  omega

theorem start_headway (hk : cfg.kind ≠ .udpEndpoint) (hs : step cfg s .start = some t) : Headway callers s t := by
  simp only [step,Option.map_eq_some_iff] at hs
  obtain ⟨c,hc,rfl⟩ := hs
  have hless : c.window.activeBytes = s.window.activeBytes ∧ c.awaited < s.awaited := by
    unfold Core.start at hc
    split at hc <;> simp only [Option.some.injEq,reduceCtorEq] at hc
    · rename_i hboot
      subst hc
      obtain ⟨_,_,_,hshape⟩ := Core.resetReadTimeout_shape cfg { s.toCore with boot := .startReceive } s.socket.conn
      have hle := resetReadTimeout_awaited cfg { s.toCore with boot := .startReceive } s.socket.conn
      refine ⟨by rw [hshape], Nat.lt_of_le_of_lt hle ?_⟩
      simp only [Core.awaited,hboot,Boot.effort]
      omega
    · rename_i hboot
      subst hc
      refine ⟨startReceive_active hk _ _, ?_⟩
      rw [startReceive_awaited hk]
      simp only [Core.awaited,hboot,Boot.effort]
      omega
    · exact absurd ‹_› hk
  obtain ⟨_,_,_,_,_,_,hshape⟩ := Core.start_shape hc
  refine .effort (by simp [calling,withCore,hshape]) rfl (by simp [traffic,Core.stream,withCore,hshape]) ?_
  have hrun : c.running = s.running := by rw [hshape]
  simp only [effort,withCore,Core.effort,notices,hrun,hless.1]
  omega

/-- Whatever an end does of its own accord gets it on. -/
theorem Unattended.headway (h : Unattended cfg callers s) (hk : cfg.kind ≠ .udpEndpoint) (hmute : cfg.Mute)
    (hadv : cfg.framing.Advances) {e : Event τ} (hs : step cfg s e = some t) (hproceeds : e.proceeds = true) :
    Headway callers s t := by
  cases e with
  | pop caller =>
    simp only [step,Option.map_eq_some_iff] at hs
    obtain ⟨out,hout,rfl⟩ := hs
    obtain ⟨_,_,_,hpc,-,rfl⟩ := Pipeline.Store.pop_eq_some.mp hout
    refine h.gets_on (by simp [hpc]) rfl rfl ?_
    simp [hpc,Pipeline.Pc.left]
  | fill caller =>
    simp only [step,fill] at hs
    split at hs
    · rename_i b ticket hpc
      simp only [Option.some.injEq] at hs
      subst hs
      refine h.gets_on (by simp [hpc]) rfl rfl ?_
      simp [hpc,Pipeline.Pc.left]
    · simp at hs
  | post caller =>
    simp only [step,Endpoint.post] at hs
    split at hs
    · rename_i b ticket hpc
      simp only [Option.some.injEq] at hs
      subst hs
      refine h.gets_on (by simp [hpc]) rfl rfl ?_
      simp only [hpc,Pipeline.Pc.left,List.countP_append,List.countP_singleton,Handler.isEnqueue,↓reduceIte]
      omega
    · simp at hs
  | run => exact h.run hk hs
  | act kept => exact h.act hk hmute hadv hs
  | start => exact start_headway hk hs
  | write i n => exact write_headway (by simpa [Event.proceeds] using hproceeds) hs
  | writeDone i failed => exact writeDone_headway hs
  | read i data sender => exact read_headway hk hs
  | readFail i ec => exact readFail_headway hs
  | expire i | abort i => exact waitDone_headway hs
  | connectDone i failed reopened =>
    have hnone := h.attempts
    simp only [step,Option.map_eq_some_iff] at hs
    obtain ⟨x,hx,-⟩ := hs
    obtain ⟨a,ha,-,-⟩ := Core.connectDone_eq_some.mp hx
    have hlt := (List.getElem?_eq_some_iff.mp ha).1
    simp only [Core.attempts] at hnone
    omega
  | _ => simp [Event.proceeds] at hproceeds

omit [DecidableEq τ] in
/-- Progress at one end, next to what is left to do at the other. -/
theorem Headway.less (h : Headway callers s t) (calls effort : Nat) {bytes traffic : Nat}
    (hbound : t.traffic+traffic ≤ 2*(t.payloads.flatten.length+bytes)) :
    toLex (t.calling callers+calls,
      toLex (2*(t.payloads.flatten.length+bytes)-(t.traffic+traffic), t.effort+effort)) <
    toLex (s.calling callers+calls,
      toLex (2*(s.payloads.flatten.length+bytes)-(s.traffic+traffic), s.effort+effort)) := by
  simp only [Prod.Lex.toLex_lt_toLex]
  cases h with
  | calls hless => exact .inl (by omega)
  | bytes hcalls hpay hmore => exact .inr ⟨by omega, .inl (by rw [hpay] at hbound ⊢; omega)⟩
  | effort hcalls hpay htraffic hless => exact .inr ⟨by omega, .inr ⟨by rw [hpay, htraffic], by omega⟩⟩

theorem Reached.finite_callers (h : Reached cfg s) :
    ∃ callers : Finset (Option τ), ∀ caller, caller ∉ callers → s.out.pc caller = .idle := by
  induction h with
  | start hi =>
    obtain ⟨u,rfl⟩ := hi
    exact ⟨∅, fun _ _ => rfl⟩
  | @next s t e _ _ hs ih =>
    rcases step_simulates hs with heq | ⟨l,hl,-,-,-⟩
    · have hout : t.out = s.out := congrArg (fun p => p.toStore) heq
      rw [hout]
      exact ih
    · exact hl.finite_callers ih

theorem Reached.unattended (h : Reached cfg s) (honce : cfg.kind = .tcpClient → (connections s.log).length ≤ 1)
    (hnone : s.attempts s.notices = 0) : ∃ callers, Unattended cfg callers s := by
  obtain ⟨callers,hcallers⟩ := h.finite_callers
  refine ⟨insert none callers, h, honce, hnone, fun caller hnot => ?_, Finset.mem_insert_self _ _⟩
  exact hcallers caller (fun hm => hnot (Finset.mem_insert_of_mem hm))

end Endpoint

open Endpoint

namespace Net

variable {κ₁ τ₁ κ₂ τ₂ : Type}

def Event.proceeds : Event τ₁ τ₂ → Bool
  | .client e => e.proceeds
  | .server e => e.proceeds

/-- What is left to do at both ends: calls first, then bytes, then the steps in between. -/
def remaining (callers₁ : Finset (Option τ₁)) (callers₂ : Finset (Option τ₂)) (n : Net κ₁ τ₁ κ₂ τ₂) :
    ℕ ×ₗ ℕ ×ₗ ℕ :=
  toLex (n.client.calling callers₁+n.server.calling callers₂,
    toLex (2*(n.client.payloads.flatten.length+n.server.payloads.flatten.length)-
      (n.client.traffic+n.server.traffic), n.client.effort+n.server.effort))

variable [DecidableEq τ₁] [DecidableEq τ₂]

/-- A client that was connected once and its connection, to which nobody attends any more. -/
structure Unattended (client : Config κ₁) (server : Config κ₂) (callers₁ : Finset (Option τ₁))
    (callers₂ : Finset (Option τ₂)) (n : Net κ₁ τ₁ κ₂ τ₂) : Prop where
  reached : Reached client server n
  joined : connections n.client.log = [n.client.socket.conn]
  client : Endpoint.Unattended client callers₁ n.client
  server : Endpoint.Unattended server callers₂ n.server

section rest
variable {client : Config κ₁} {server : Config κ₂} {callers₁ : Finset (Option τ₁)}
  {callers₂ : Finset (Option τ₂)} {m n : Net κ₁ τ₁ κ₂ τ₂}

/-- No more is written than was queued, and no more is read than was written. -/
theorem Unattended.traffic_le (h : Unattended client server callers₁ callers₂ n)
    (hclient : client.kind = .tcpClient) (hserver : server.kind = .tcpConnection) :
    n.client.traffic+n.server.traffic ≤
      2*(n.client.payloads.flatten.length+n.server.payloads.flatten.length) := by
  have hlinked := h.reached.linked
  obtain ⟨⟨hwired,-⟩,hwired',-⟩ := hlinked.piped hclient hserver h.joined
  have hwire := (hwired.taken (Nat.le_refl _)).length_le
  have hwire' := (hwired'.taken (Nat.le_refl _)).length_le
  have hread := hlinked.toClient.length_le
  have hread' := hlinked.toServer.length_le
  have hflat : ((n.client.out.entered.map Prod.snd).flatMap Item.buf).length =
      n.client.payloads.flatten.length := by rw [payloads_flatten]
  have hflat' : ((n.server.out.entered.map Prod.snd).flatMap Item.buf).length =
      n.server.payloads.flatten.length := by rw [payloads_flatten]
  simp only [pipeline] at hwire hwire'
  simp only [traffic]
  omega

theorem Unattended.step (h : Unattended client server callers₁ callers₂ n) (hclient : client.kind = .tcpClient)
    (hserver : server.kind = .tcpConnection) (hmute : client.Mute) (hmute' : server.Mute)
    (hadv : client.framing.Advances) (hadv' : server.framing.Advances) {e : Event τ₁ τ₂}
    (hs : step client server n e = some m) (hproceeds : e.proceeds = true) :
    Unattended client server callers₁ callers₂ m ∧
      remaining callers₁ callers₂ m < remaining callers₁ callers₂ n := by
  have hreached : Reached client server m := .next h.reached trivial hs
  cases e with
  | client e =>
    simp only [Net.step,Option.bind_eq_some_iff,Option.ite_none_right_eq_some,Option.some.injEq] at hs
    obtain ⟨s,hs,-,rfl⟩ := hs
    have hproceeds : e.proceeds = true := hproceeds
    have hcalm := (step_move hs).calm hproceeds h.client.attempts
    have hnext : Unattended client server callers₁ callers₂ { n with client := s } :=
      ⟨hreached, by rw [hcalm.made, hcalm.conn]; exact h.joined, h.client.next hs hproceeds, h.server⟩
    exact ⟨hnext, (h.client.headway (by simp [hclient]) hmute hadv hs hproceeds).less _ _
      (hnext.traffic_le hclient hserver)⟩
  | server e =>
    simp only [Net.step,Option.bind_eq_some_iff,Option.ite_none_right_eq_some,Option.some.injEq] at hs
    obtain ⟨s,hs,-,rfl⟩ := hs
    have hproceeds : e.proceeds = true := hproceeds
    have hnext : Unattended client server callers₁ callers₂ { n with server := s } :=
      ⟨hreached, h.joined, h.client, h.server.next hs hproceeds⟩
    have hbound : s.traffic+n.client.traffic ≤
        2*(s.payloads.flatten.length+n.client.payloads.flatten.length) := by
      have hle := hnext.traffic_le hclient hserver
      simp only at hle
      omega
    have hless := (h.server.headway (by simp [hserver]) hmute' hadv' hs hproceeds).less
      (n.client.calling callers₁) n.client.effort hbound
    refine ⟨hnext, ?_⟩
    simpa only [remaining,Nat.add_comm] using hless

/-- Time makes no difference to what is left to do. -/
theorem Unattended.tick (h : Unattended client server callers₁ callers₂ n) {e : Event τ₁ τ₂}
    (he : ∃ d, e = .client (.tick d) ∨ e = .server (.tick d)) (hs : Net.step client server n e = some m) :
    Unattended client server callers₁ callers₂ m ∧ remaining callers₁ callers₂ m = remaining callers₁ callers₂ n := by
  have hreached : Reached client server m := .next h.reached trivial hs
  obtain ⟨d,rfl | rfl⟩ := he
  · simp only [Net.step,Endpoint.step,Option.bind_some,Option.ite_none_right_eq_some,Option.some.injEq] at hs
    obtain ⟨-,rfl⟩ := hs
    exact ⟨⟨hreached, h.joined, h.client.tick d, h.server⟩, rfl⟩
  · simp only [Net.step,Endpoint.step,Option.bind_some,Option.ite_none_right_eq_some,Option.some.injEq] at hs
    obtain ⟨-,rfl⟩ := hs
    exact ⟨⟨hreached, h.joined, h.client, h.server.tick d⟩, rfl⟩

end rest

/-- A step that is taken after some time has passed at both ends. -/
def later (client : Config κ₁) (server : Config κ₂) (n : Net κ₁ τ₁ κ₂ τ₂) (x : Nat × Nat × Event τ₁ τ₂) :
    Option (Net κ₁ τ₁ κ₂ τ₂) :=
  Transition.run (step client server) n [.client (.tick x.1), .server (.tick x.2.1), x.2.2]

/-- However long one waits, no step is left to take. -/
def Resting (client : Config κ₁) (server : Config κ₂) (n : Net κ₁ τ₁ κ₂ τ₂) : Prop :=
  ∀ x, x.2.2.proceeds = true → later client server n x = none

section later
variable {client : Config κ₁} {server : Config κ₂} {callers₁ : Finset (Option τ₁)}
  {callers₂ : Finset (Option τ₂)} {m n : Net κ₁ τ₁ κ₂ τ₂}

theorem later_eq_some {x : Nat × Nat × Event τ₁ τ₂} : later client server n x = some m ↔
    ∃ n₁ n₂, step client server n (.client (.tick x.1)) = some n₁ ∧
      step client server n₁ (.server (.tick x.2.1)) = some n₂ ∧ step client server n₂ x.2.2 = some m := by
  simp only [later,Transition.run_cons,Transition.run_nil,Option.bind_eq_some_iff,Option.some.injEq,
    exists_eq_right,exists_and_left]

theorem reached_later {xs : List (Nat × Nat × Event τ₁ τ₂)} (h : Reached client server n)
    (hr : Transition.run (later client server) n xs = some m) : Reached client server m := by
  refine Transition.run_preserves (Reached client server) (fun s x t hs hx => ?_) h hr
  exact Transition.reachable_run hs hx

/-- Where there is no step left to take, nothing moves. -/
theorem Resting.stuck (h : Resting client server n) (hr : Reached client server n) : Stuck client server n := by
  intro e hmoves
  have hproceeds : e.proceeds = true := by
    cases e with
    | client e | server e => exact proceeds_of_moves hmoves
  have hlinked := hr.linked
  have hnone := h (0,0,e) hproceeds
  have hstay : later client server n (0,0,e) = step client server n e := by
    simp [later,step,Endpoint.step,hlinked.toClient,hlinked.toServer]
  rw [← hstay, hnone]

end later

/-- Once nobody calls anything any more, a client and its connection whose callbacks neither send nor
close come to rest: in whatever order they go on, whatever fails and however much time passes in
between, they take finitely many steps, and there is a state in which none is left to take. -/
theorem comes_to_rest (client : Config κ₁) (server : Config κ₂) (hclient : client.kind = .tcpClient)
    (hserver : server.kind = .tcpConnection) (hmute : client.Mute) (hmute' : server.Mute)
    (hadv : client.framing.Advances) (hadv' : server.framing.Advances) (n : Net κ₁ τ₁ κ₂ τ₂)
    (h : Reached client server n) (hjoined : connections n.client.log = [n.client.socket.conn])
    (hnone : n.client.attempts n.client.notices = 0) :
    Acc (fun t s => ∃ x : Nat × Nat × Event τ₁ τ₂, x.2.2.proceeds = true ∧ later client server s x = some t) n ∧
    ∃ xs m, (∀ x ∈ xs, x.2.2.proceeds = true) ∧ Transition.run (later client server) n xs = some m ∧
      Resting client server m := by
  have hlinked := h.linked
  have hunconnected := Reached.unconnected (by simp [hserver]) hlinked.server
  have hnone' : n.server.attempts n.server.notices = 0 := by
    have hnotices : n.server.notices.countP Notice.isConnected = 0 := by
      rw [List.countP_eq_zero]
      intro x hx
      cases x with
      | connected a failed reopened => exact absurd hx (hunconnected.notices _ _ _)
      | _ => simp [Notice.isConnected]
    rw [Core.attempts, hunconnected.connects, hnotices]
    rfl
  obtain ⟨callers₁,hclient'⟩ := hlinked.client.unattended (fun _ => by simp [hjoined]) hnone
  obtain ⟨callers₂,hserver'⟩ := hlinked.server.unattended (by simp [hserver]) hnone'
  have hun : Unattended client server callers₁ callers₂ n := ⟨h, hjoined, hclient', hserver'⟩
  have hdec : ∀ (s : Net κ₁ τ₁ κ₂ τ₂) (x : Nat × Nat × Event τ₁ τ₂) (t : Net κ₁ τ₁ κ₂ τ₂),
      Unattended client server callers₁ callers₂ s → x.2.2.proceeds = true → later client server s x = some t →
        Unattended client server callers₁ callers₂ t ∧
          remaining callers₁ callers₂ t < remaining callers₁ callers₂ s := by
    intro s x t hs hproceeds hlater
    obtain ⟨s₁,s₂,hclock,hclock',hstep⟩ := later_eq_some.mp hlater
    obtain ⟨hs₁,hsame⟩ := hs.tick ⟨_,.inl rfl⟩ hclock
    obtain ⟨hs₂,hsame'⟩ := hs₁.tick ⟨_,.inr rfl⟩ hclock'
    obtain ⟨ht,hless⟩ := hs₂.step hclient hserver hmute hmute' hadv hadv' hstep hproceeds
    exact ⟨ht, by rwa [hsame', hsame] at hless⟩
  refine ⟨Transition.acc_of_decreasing wellFounded_lt hdec hun, ?_⟩
  obtain ⟨xs,m,hxs,hrun,-,hend⟩ := Transition.exists_run_to_end wellFounded_lt hdec hun
  exact ⟨xs, m, hxs, hrun, hend⟩

theorem listening_mute (kind : Kind) (readTimeout : Nat) : { listening kind with readTimeout := readTimeout }.Mute := by
  intro callback hcb u message sender
  simp only [listening,Option.some.injEq] at hcb
  subst hcb
  rfl

/-- A connection that is closed when it hears nothing for five units of time. -/
def guarding : Config Unit := { listening .tcpConnection with readTimeout := 5 }

/-- A thread of the client has called `send` and has no buffer yet, and the server has set its timer. -/
def unposted : List (Event Unit Unit) :=
  [.client (.connect (.ok 0) true), .client (.connectDone 0 false false), .client .run, .client (.act true),
    .client (.act true), .server .start, .server .start, .client (.send () ⟨[0,0,0,5,9],.implicit⟩)]

theorem comes_to_rest_unposted : ∃ (n m : Net Unit Unit Unit Unit) (xs : List (Nat × Nat × Event Unit Unit)),
    Transition.run (step (listening .tcpClient) guarding) ⟨initial .tcpClient (), initial .tcpConnection ()⟩ unposted =
      some n ∧
    n.server.waits = [⟨0,5,false⟩] ∧ Transition.run (later (listening .tcpClient) guarding) n xs = some m ∧
    Reached (listening .tcpClient) guarding m ∧ Resting (listening .tcpClient) guarding m ∧
    Stuck (listening .tcpClient) guarding m := by
  have hrun : (Transition.run (step (listening .tcpClient) guarding) ⟨initial .tcpClient (), initial .tcpConnection ()⟩
      unposted).map (fun n => (connections n.client.log, n.client.socket.conn, n.client.attempts n.client.notices,
        n.server.waits)) = some ([1], 1, 0, [⟨0,5,false⟩]) := by decide +kernel
  obtain ⟨n,hn,hv⟩ := Option.map_eq_some_iff.mp hrun
  simp only [Prod.mk.injEq] at hv
  obtain ⟨hconn,hsocket,hnone,hwaits⟩ := hv
  have hreach : Reached (listening .tcpClient) guarding n := Transition.reachable_run (.start ⟨(),(),rfl⟩) hn
  obtain ⟨-,xs,m,-,hlater,hrest⟩ := comes_to_rest (listening .tcpClient) guarding rfl rfl (listening_mute _ 0)
    (listening_mute _ 5) (.inl (by decide)) (.inl (by decide)) n hreach (by rw [hconn, hsocket]) hnone
  have hreach' := reached_later hreach hlater
  exact ⟨n, m, xs, hn, hwaits, hlater, hreach', hrest, hrest.stuck hreach'⟩

end Net

end Librim
