import Librim.Framing
import Librim.StrandProgress

/-! `send` waits for a pooled buffer. A buffer comes back only when the strand handles a
completed write, so the wait ends unless the strand itself is what waits, or has left the
queue behind. -/

set_option autoImplicit false

namespace Librim

open Transition (Comes)
open Pipeline (Served)

variable {κ τ : Type} [DecidableEq τ]

namespace Endpoint

/-- A handler that will enter `process_buffer`, or is in it. -/
def Scanning (cfg : Config κ) (s : Endpoint κ τ) : Prop :=
  (∃ a ∈ s.running.acts, a.scans = true) ∨
    (cfg.kind ≠ .udpEndpoint ∧ ∃ r n, .notice (.received r (.ok n)) ∈ s.ready)

/-- What has to hold of an endpoint whose pool is empty for a buffer to come back. -/
structure Clear (cfg : Config κ) (s : Endpoint κ τ) : Prop where
  /-- The strand does not come to a `send` in a callback before a buffer is back. -/
  due : ¬ Comes (alone cfg) Starved s
  /-- No failed write has left entries in `send_queue_`. -/
  served : Served s.pipeline
  failed : s.running = .releasing 0 true → s.out.queue = []
  /-- `process_buffer` does not go round on empty messages. -/
  advances : Scanning cfg s → cfg.framing.Advances
  /-- A buffer that `buffer_pool_.push` refused is gone. -/
  left : ∃ b, b < poolSize ∧ b ∉ s.out.deleted

/-- A step of the strand that moves no buffer in or out of pool and queue. -/
theorem Clear.next {cfg : Config κ} {s t : Endpoint κ τ} (h : Clear cfg s)
    (hnext : alone cfg s = some t) (hcore : t.toCore = s.toCore) (hqueue : t.out.queue = s.out.queue)
    (hdel : t.out.deleted = s.out.deleted) (hwrites : t.out.writes = s.out.writes)
    (hready : t.ready = s.ready ∨ ∃ b, t.ready = s.ready ++ [.enqueue none b]) : Clear cfg t := by
  refine ⟨fun hc => h.due (.there hnext hc), ?_, ?_, ?_, hdel ▸ h.left⟩
  · have hjobs : (t.ready.filterMap Handler.job).filterMap Pipeline.Job.write =
        (s.ready.filterMap Handler.job).filterMap Pipeline.Job.write := by
      rcases hready with hr | ⟨b,hr⟩
      · rw [hr]
      · simp [hr,Handler.job,Pipeline.Job.write]
    have := h.served
    simp only [Served,Pipeline.State.outstanding,pipeline,hqueue,hwrites,hjobs,hcore] at this ⊢
    exact this
  · rw [hcore, hqueue]
    exact h.failed
  · rintro (ha | ⟨hk,r,n,hm⟩)
    · rw [hcore] at ha
      exact h.advances (.inl ha)
    · refine h.advances (.inr ⟨hk,r,n,?_⟩)
      rcases hready with hr | ⟨b,hr⟩
      · rw [← hr]; exact hm
      · simpa [hr] using hm

theorem Clear.post {cfg : Config κ} {s : Endpoint κ τ} (h : Clear cfg s) (hreach : Reached cfg s)
    (hpool : s.out.pool = []) {b : Nat} {ticket : Ticket} (hpc : s.out.pc none = .filled b ticket) :
    Comes (alone cfg)
      (fun t => Reached cfg t ∧ Clear cfg t ∧ t.out.pool = [] ∧ t.out.pc none = .idle) s := by
  have hnext : alone cfg s = some { s with
      out := s.out.setPc none .idle, ready := s.ready ++ [.enqueue none b] } := by
    simp [alone,hpc,step,Endpoint.post]
  refine .there hnext (.here ⟨.alone cfg _ _ hreach hnext,
    h.next hnext rfl rfl rfl rfl (.inr ⟨b,rfl⟩), hpool, ?_⟩)
  simp [Pipeline.Store.setPc]

/-- A callback that has its buffer fills and posts it without waiting. -/
theorem Clear.posted {cfg : Config κ} {s : Endpoint κ τ} (h : Clear cfg s) (hreach : Reached cfg s)
    (hpool : s.out.pool = []) : Comes (alone cfg)
      (fun t => Reached cfg t ∧ Clear cfg t ∧ t.out.pool = [] ∧ t.out.pc none = .idle) s := by
  cases hpc : s.out.pc none with
  | idle => exact .here ⟨hreach,h,hpool,hpc⟩
  | waiting ticket => exact absurd (.here ⟨hpool,ticket,hpc⟩) h.due
  | filled b ticket => exact h.post hreach hpool hpc
  | holding b ticket =>
    have hnext : alone cfg s = some { s with
        out := s.out.fill none b ticket (.ofRequest cfg.kind s.socket ticket.request) } := by
      simp [alone,hpc,step,fill]
    have hfilled : (s.out.fill none b ticket (.ofRequest cfg.kind s.socket ticket.request)).pc none =
        .filled b ticket := by simp [Pipeline.Store.fill]
    exact .there hnext ((h.next hnext rfl rfl rfl rfl (.inl rfl)).post
      (.alone cfg _ _ hreach hnext) hpool hfilled)

/-- The handler that runs comes to its end, or gives a buffer back. -/
theorem Clear.between {cfg : Config κ} {s : Endpoint κ τ} (h : Clear cfg s) (hreach : Reached cfg s)
    (hpool : s.out.pool = []) (hpc : s.out.pc none = .idle) :
    Comes (alone cfg) (fun t => t.out.pool ≠ [] ∨ Between cfg t) s := by
  cases hrun : s.running with
  | program acts =>
    have hadv : ∀ a ∈ acts, a.scans = true → cfg.framing.Advances := by
      intro a ha hs
      exact h.advances (.inl ⟨a,by rw [hrun]; exact ha,hs⟩)
    have hcomes := ((acts_comes acts hadv hpc hrun).keeps _ (Reached.alone cfg) hreach).avoid h.due
    refine hcomes.mono ?_
    rintro t ⟨⟨hw | hg,hreach'⟩,hdue⟩
    · exact absurd (.here ⟨hw.1.trans hpool,hw.2⟩) hdue
    · refine .inr ⟨hreach', by rw [hg.out]; exact hpc, hg.running, by rw [hg.out]; exact hpool, hdue, ?_, ?_⟩
      · have := h.served
        simp only [Served,Pipeline.State.outstanding,pipeline,hg.out,hg.ready,hg.running,hrun] at this ⊢
        exact this
      · rintro hk ⟨r,n,hm⟩
        rw [hg.ready] at hm
        exact h.advances (.inr ⟨hk,r,n,hm⟩)
  | releasing left failed =>
    have hphase : s.pipeline.phase = .releasing left failed := by simp [pipeline,hrun,Running.phase]
    obtain ⟨hnone,hle⟩ := hreach.sound.serial.releasing left failed hphase
    cases left with
    | succ left =>
      obtain ⟨b,queue,hq⟩ : ∃ b queue, s.out.queue = b :: queue := by
        cases hq : s.out.queue with
        | nil => simp [pipeline,hq] at hle
        | cons b queue => exact ⟨b,queue,rfl⟩
      refine .there (t := { s with
        running := .releasing left failed, out := s.out.release true }) ?_ (.here (.inl ?_))
      · simp [alone,hpc,hrun,step,act]
      · simp [Pipeline.Store.release,hq]
    | zero =>
      have hnext : alone cfg s = some (finishWrite cfg failed { s with running := .program [] }) := by
        simp [alone,hpc,hrun,step,act]
      refine .there hnext (.here (.inr ?_))
      have hreach' := Reached.alone cfg _ _ hreach hnext
      have hdue' := fun hc => h.due (.there hnext hc)
      have hadv : cfg.kind ≠ .udpEndpoint → (∃ r n, .notice (.received r (.ok n)) ∈ s.ready) →
          cfg.framing.Advances := fun hk hm => h.advances (.inr ⟨hk,hm⟩)
      generalize hfin : finishWrite cfg failed { s with running := .program [] } = t at hreach' hdue' ⊢
      unfold finishWrite at hfin
      split at hfin
      · rename_i hf
        subst hf hfin
        exact ⟨hreach', hpc, by simp [withCore], hpool, hdue', .inl (h.failed hrun), hadv⟩
      · split at hfin
        · rename_i hq
          subst hfin
          exact ⟨hreach', hpc, rfl, hpool, hdue', .inl (List.isEmpty_iff.mp hq), hadv⟩
        · subst hfin
          exact ⟨hreach', hpc, rfl, hpool, hdue',
            .inr (.inl (by simp [pipeline,Pipeline.State.outstanding,Pipeline.Store.startWrite])), hadv⟩

/-- The strand is at rest and a write is outstanding: its failure brings buffers back. -/
theorem pool_of_write {cfg : Config κ} {s : Endpoint κ τ} (hreach : Reached cfg s)
    (hpc : s.out.pc none = .idle) (hrun : s.running = .program []) (hready : s.ready = [])
    {w : Pipeline.Write} {ws : List Pipeline.Write} (hw : s.out.writes = w :: ws) :
    ∃ es t, Transition.run (step cfg) s es = some t ∧ t.out.pool ≠ [] ∧
      ∀ u, t.out.pc (some u) = s.out.pc (some u) := by
  let s' : Endpoint κ τ := { s with
    out := { s.out with writes := s.out.writes.eraseIdx 0 }, ready := [.wrote w true] }
  have hstep : step cfg s (.writeDone 0 true) = some s' := by
    simp [step,writeDone,hw,hready,s']
  have hreach' : Reached cfg s' := .next hreach trivial hstep
  have hcomes := comes_kept (wrote_comes hreach'.sound hpc hrun rfl)
  obtain ⟨es,t,ht,hpool,hkeep⟩ := hcomes.exists_run (fun _ _ => alone_step)
  exact ⟨_, t, Transition.run_trans (Transition.run_single hstep) ht, hpool, hkeep.pc⟩

/-- The strand is at rest and nothing is queued: a caller that has a buffer posts it, and its
write is started. -/
theorem pool_of_hand {cfg : Config κ} {s : Endpoint κ τ} (hreach : Reached cfg s)
    (hpc : s.out.pc none = .idle) (hrun : s.running = .program []) (hready : s.ready = [])
    (hqueue : s.out.queue = []) {v : τ} {b : Nat} {ticket : Ticket}
    (hv : s.out.pc (some v) = .filled b ticket) :
    ∃ es t, Transition.run (step cfg) s es = some t ∧ t.out.pool ≠ [] ∧
      ∀ u ticket', s.out.pc (some u) = .waiting ticket' → t.out.pc (some u) = .waiting ticket' := by
  let s₁ : Endpoint κ τ := { s with
    out := s.out.setPc (some v) .idle, ready := [.enqueue (some v) b] }
  have h₁ : step cfg s (.post (some v)) = some s₁ := by simp [step,Endpoint.post,hv,hready,s₁]
  let s₂ := runHandler cfg { s₁ with ready := [] } (.enqueue (some v) b)
  have hidle : s₁.out.pc none = .idle := by simpa [s₁,Pipeline.Store.setPc] using hpc
  have h₂ : step cfg s₁ .run = some s₂ := by
    simp [step,idle,Pipeline.Store.setPc,hpc,hrun,s₁,s₂]
  have hreach₂ : Reached cfg s₂ := .next (.next hreach trivial h₁) trivial h₂
  have hpc₂ : s₂.out.pc = s₁.out.pc := (runHandler_keeps cfg _ _).1
  obtain ⟨w,ws,hw⟩ : ∃ w ws, s₂.out.writes = w :: ws := by
    cases hw : s₂.out.writes with
    | nil => simp [s₂,s₁,runHandler,Pipeline.Store.enqueue,Pipeline.Store.setPc,hqueue,Pipeline.Store.startWrite] at hw
    | cons w ws => exact ⟨w,ws,rfl⟩
  obtain ⟨es,t,ht,hpool,hkeep⟩ := pool_of_write hreach₂ (by rw [hpc₂]; exact hidle) hrun rfl hw
  refine ⟨_, t, Transition.run_trans (Transition.run_single h₁)
    (Transition.run_trans (Transition.run_single h₂) ht), hpool, fun u ticket' hu => ?_⟩
  have huv : u ≠ v := by
    rintro rfl
    simp [hv] at hu
  rw [hkeep u, hpc₂]
  simpa [s₁,Pipeline.Store.setPc,huv] using hu

/-- At rest with an empty pool, every buffer that is left is queued or in a caller's hands. -/
theorem Between.refill {cfg : Config κ} {s : Endpoint κ τ} (h : Between cfg s) (hready : s.ready = [])
    (hleft : ∃ b, b < poolSize ∧ b ∉ s.out.deleted) :
    ∃ es t, Transition.run (step cfg) s es = some t ∧ t.out.pool ≠ [] ∧
      ∀ u ticket, s.out.pc (some u) = .waiting ticket → t.out.pc (some u) = .waiting ticket := by
  cases hw : s.out.writes with
  | cons w ws =>
    obtain ⟨es,t,ht,hpool,hkeep⟩ := pool_of_write h.reached h.idle h.running hready hw
    exact ⟨es,t,ht,hpool,fun u ticket hu => (hkeep u).trans hu⟩
  | nil =>
    have hqueue : s.out.queue = [] := by
      rcases h.served with hq | ho | hp
      · exact hq
      · simp [Pipeline.State.outstanding,pipeline,hw,hready] at ho
      · simp [pipeline,h.running,Running.phase] at hp
    obtain ⟨b,hb,hdel⟩ := hleft
    obtain ⟨q,hq⟩ := h.reached.sound.owned.exclusive.placed b hb
    cases q with
    | pool => simp [Pipeline.State.At,pipeline,h.pool] at hq
    | job => simp [Pipeline.State.At,Pipeline.State.posted,pipeline,hready] at hq
    | queue => simp [Pipeline.State.At,pipeline,hqueue] at hq
    | deleted => exact absurd hq hdel
    | hand caller =>
      cases caller with
      | none => simp [Pipeline.State.At,pipeline,h.idle,Pipeline.Pc.slot] at hq
      | some v =>
        cases hv : s.out.pc (some v) with
        | idle | waiting ticket => simp [Pipeline.State.At,pipeline,hv,Pipeline.Pc.slot] at hq
        | filled b' ticket => exact pool_of_hand h.reached h.idle h.running hready hqueue hv
        | holding b' ticket =>
          let s' : Endpoint κ τ := { s with
            out := s.out.fill (some v) b' ticket (.ofRequest cfg.kind s.socket ticket.request) }
          have hstep : step cfg s (.fill (some v)) = some s' := by simp [step,fill,hv,s']
          have hreach' : Reached cfg s' := .next h.reached trivial hstep
          have hidle : s'.out.pc none = .idle := by simpa [s',Pipeline.Store.fill] using h.idle
          have hfilled : s'.out.pc (some v) = .filled b' ticket := by simp [s',Pipeline.Store.fill]
          obtain ⟨es,t,ht,hpool,hkeep⟩ := pool_of_hand hreach' hidle h.running hready hqueue hfilled
          refine ⟨_, t, Transition.run_trans (Transition.run_single hstep) ht, hpool,
            fun u ticket' hu => hkeep u ticket' ?_⟩
          have huv : u ≠ v := by
            rintro rfl
            simp [hv] at hu
          simpa [s',Pipeline.Store.fill,huv] using hu

/-- With the pool empty, the strand and then the others bring a buffer back. -/
theorem Clear.refill {cfg : Config κ} {s : Endpoint κ τ} (h : Clear cfg s) (hreach : Reached cfg s)
    (hpool : s.out.pool = []) :
    ∃ es t, Transition.run (step cfg) s es = some t ∧ t.out.pool ≠ [] ∧
      ∀ u ticket, s.out.pc (some u) = .waiting ticket → t.out.pc (some u) = .waiting ticket := by
  have hcomes : Comes (alone cfg) (fun t => t.out.pool ≠ [] ∨ (Between cfg t ∧ t.ready = [])) s := by
    refine (h.posted hreach hpool).trans ?_
    rintro t ⟨hreach',hclear',hpool',hpc'⟩
    refine (hclear'.between hreach' hpool' hpc').trans ?_
    rintro u (hu | hu)
    · exact .here (.inl hu)
    · exact hu.comes _ rfl
  obtain ⟨es,t,ht,hend,hkeep⟩ := (comes_kept hcomes).exists_run (fun _ _ => alone_step)
  rcases hend with hne | ⟨hbetween,hready⟩
  · exact ⟨es,t,ht,hne,fun u ticket hu => (hkeep.pc u).trans hu⟩
  · obtain ⟨fs,u,hu,hne,hwait⟩ := hbetween.refill hready (hkeep.deleted ▸ h.left)
    refine ⟨_, u, Transition.run_trans ht hu, hne, fun v ticket hv => hwait v ticket ?_⟩
    exact (hkeep.pc v).trans hv

/-- A call of `send` that waits for a buffer can get one, unless the pool is empty and a
callback comes to wait first, or the queue was left behind, or `process_buffer` goes round
on empty messages, or no buffer is left. -/
theorem send_obtains_buffer (cfg : Config κ) (s : Endpoint κ τ) (h : Reached cfg s)
    (hclear : s.out.pool = [] → Clear cfg s) (caller : Option τ) (ticket : Ticket)
    (hwait : s.out.pc caller = .waiting ticket) :
    ∃ es t b, Transition.run (step cfg) s es = some t ∧ t.out.pc caller = .holding b ticket := by
  -- the pool has something for the caller, or comes to have it
  obtain ⟨es,t,ht,hpool,hkeep⟩ : ∃ es t, Transition.run (step cfg) s es = some t ∧
      t.out.pool ≠ [] ∧ t.out.pc caller = .waiting ticket := by
    by_cases hpool : s.out.pool = []
    · have hc := hclear hpool
      cases caller with
      | none => exact absurd (.here ⟨hpool,ticket,hwait⟩) hc.due
      | some u =>
        obtain ⟨es,t,ht,hne,hkeep⟩ := hc.refill h hpool
        exact ⟨es,t,ht,hne,hkeep u ticket hwait⟩
    · exact ⟨[],s,rfl,hpool,hwait⟩
  obtain ⟨b,rest,hb⟩ := List.exists_cons_of_ne_nil hpool
  let t' : Endpoint κ τ := { t with
    out := { t.out with pool := rest, pc := Function.update t.out.pc caller (.holding b ticket) } }
  have hpop : step cfg t (.pop caller) = some t' := by
    simp [step,Pipeline.Store.pop,hb,hkeep,t']
  exact ⟨_, t', b, Transition.run_trans ht (Transition.run_single hpop), Function.update_self ..⟩

/-- A call that waits takes a buffer out of the pool and posts it; the core and every other
call are as before. -/
theorem call_posts (cfg : Config κ) {s : Endpoint κ τ} {caller : Option τ} {ticket : Ticket}
    {b : Nat} {rest : List Nat} (hpc : s.out.pc caller = .waiting ticket)
    (hpool : s.out.pool = b :: rest) :
    ∃ t, Transition.run (step cfg) s [.pop caller, .fill caller, .post caller] = some t ∧
      t.toCore = s.toCore ∧ t.out.pool = rest ∧ t.out.pc = Function.update s.out.pc caller .idle ∧
      t.out.queue = s.out.queue ∧ t.out.deleted = s.out.deleted ∧
      t.ready = s.ready ++ [.enqueue caller b] := by
  let item := Item.ofRequest cfg.kind s.socket ticket.request
  refine ⟨{ s with
    out := { s.out with
      pool := rest, mem := Function.update s.out.mem b item
      pc := Function.update s.out.pc caller .idle }
    ready := s.ready ++ [.enqueue caller b] }, ?_, rfl, rfl, rfl, rfl, rfl, rfl⟩
  simp [step,Pipeline.Store.pop,hpc,hpool,fill,Pipeline.Store.fill,post,Pipeline.Store.setPc,item]

/-- One thread has sent `k` payloads that the strand has not looked at. -/
structure Flooded (k : Nat) (s : Endpoint Unit Unit) : Prop where
  socket : s.socket.isOpen = true
  running : s.running = .program []
  pc : s.out.pc = fun _ => .idle
  pool : s.out.pool.length = poolSize-k
  queue : s.out.queue = []
  deleted : s.out.deleted = []
  ready : ∀ h ∈ s.ready, ∃ caller b, h = .enqueue caller b

/-- The call of the thread when it has passed the test at the head of `send`. -/
theorem Flooded.send {k : Nat} {s : Endpoint Unit Unit} (h : Flooded k s) :
    ∃ t ticket, step (.bare .tcpConnection) s (.send () ⟨[],.implicit⟩) = some t ∧
      t.toCore = s.toCore ∧ t.ready = s.ready ∧ t.out.pool = s.out.pool ∧ t.out.queue = s.out.queue ∧
      t.out.deleted = s.out.deleted ∧
      t.out.pc = Function.update (fun _ => .idle) (some ()) (.waiting ticket) := by
  let ticket : Ticket := ⟨⟨[],.implicit⟩, .ofRequest .tcpConnection s.socket ⟨[],.implicit⟩⟩
  refine ⟨{ s with out := s.out.call (some ()) ticket }, ticket, ?_, rfl, rfl, rfl, rfl, rfl, ?_⟩
  · simp [step,call,sendCheck,Config.bare,h.socket,h.pc,ticket]
  · simp [Pipeline.Store.call,h.pc]

theorem Flooded.next {k : Nat} {s : Endpoint Unit Unit} (h : Flooded k s) (hk : k < poolSize)
    (hreach : Reached (.bare .tcpConnection) s) :
    ∃ t, Reached (.bare .tcpConnection) t ∧ Flooded (k+1) t := by
  obtain ⟨s',ticket,hsend,hcore,hready,hpool,hqueue,hdel,hpc⟩ := h.send
  obtain ⟨b,rest,hb⟩ : ∃ b rest, s.out.pool = b :: rest := by
    refine List.exists_cons_of_ne_nil (fun hnil => ?_)
    have := h.pool
    rw [hnil, List.length_nil] at this
    omega
  obtain ⟨t,ht,hcore',hpool',hpc',hqueue',hdel',hready'⟩ :=
    call_posts (.bare .tcpConnection) (by rw [hpc, Function.update_self]) (hpool.trans hb)
  refine ⟨t, Transition.reachable_run (.next hreach trivial hsend) ht, ?_⟩
  refine ⟨?_, ?_, ?_, ?_, ?_, ?_, ?_⟩
  · rw [hcore', hcore]; exact h.socket
  · rw [hcore', hcore]; exact h.running
  · rw [hpc', hpc]
    funext caller
    by_cases hc : caller = some ()
    · subst hc; simp
    · simp [Function.update_of_ne hc]
  · have := h.pool
    rw [hb, List.length_cons] at this
    rw [hpool']
    omega
  · rw [hqueue', hqueue]; exact h.queue
  · rw [hdel', hdel]; exact h.deleted
  · intro x hx
    rw [hready', hready, List.mem_append, List.mem_singleton] at hx
    rcases hx with hx | rfl
    · exact h.ready x hx
    · exact ⟨_,_,rfl⟩

theorem flooded (k : Nat) (hk : k ≤ poolSize) :
    ∃ s, Reached (.bare .tcpConnection) s ∧ Flooded k s := by
  induction k with
  | zero =>
    refine ⟨initial .tcpConnection (), .start ⟨(),rfl⟩, ?_⟩
    exact ⟨rfl, rfl, rfl, by simp [initial,Pipeline.Store.fresh], rfl, rfl, by simp [initial]⟩
  | succ k ih =>
    obtain ⟨s,hreach,hs⟩ := ih (by omega)
    exact hs.next (by omega) hreach

/-- A strand that has nothing but posted buffers before it never waits. -/
theorem not_starved_of_posted {s : Endpoint κ τ} {cfg : Config κ} (hpc : s.out.pc none = .idle)
    (hrun : s.running = .program []) (hready : ∀ h ∈ s.ready, ∃ caller b, h = .enqueue caller b) :
    ¬ Comes (alone cfg) Starved s := by
  intro hc
  induction hc with
  | here hs =>
    obtain ⟨-,ticket,hw⟩ := hs
    simp [hpc] at hw
  | @there s t hnext _ ih =>
    cases hr : s.ready with
    | nil => simp [alone,step,hpc,hrun,hr] at hnext
    | cons h rest =>
      obtain ⟨caller,b,rfl⟩ := hready h (by simp [hr])
      rw [alone_run cfg hpc hrun hr, Option.some.injEq] at hnext
      subst hnext
      refine ih ?_ hrun (fun x hx => hready x (by rw [hr]; exact List.mem_cons_of_mem _ hx))
      exact (congrFun (runHandler_keeps cfg _ _).1 none).trans hpc

/-- All 8192 buffers are posted and one more call waits. -/
theorem send_obtains_buffer_flooded : ∃ (s : Endpoint Unit Unit) (ticket : Ticket),
    Reached (.bare .tcpConnection) s ∧ s.out.pool = [] ∧ s.out.pc (some ()) = .waiting ticket ∧
    ∃ es t b, Transition.run (step (.bare .tcpConnection)) s es = some t ∧
      t.out.pc (some ()) = .holding b ticket := by
  obtain ⟨s,hreach,hs⟩ := flooded poolSize (Nat.le_refl _)
  obtain ⟨t,ticket,hsend,hcore,hready,hpool,hqueue,hdel,hpc⟩ := hs.send
  have hnil : t.out.pool = [] := by
    rw [hpool, ← List.length_eq_zero_iff, hs.pool, Nat.sub_self]
  have hreach' : Reached (.bare .tcpConnection) t := .next hreach trivial hsend
  have hidle : t.out.pc none = .idle := by rw [hpc]; rfl
  have hrun : t.running = .program [] := by rw [hcore]; exact hs.running
  have hposted : ∀ h ∈ t.ready, ∃ caller b, h = .enqueue caller b := by rw [hready]; exact hs.ready
  have hwait : t.out.pc (some ()) = .waiting ticket := by rw [hpc, Function.update_self]
  refine ⟨t, ticket, hreach', hnil, hwait, send_obtains_buffer _ t hreach' (fun _ => ?_) _ ticket hwait⟩
  refine ⟨not_starved_of_posted hidle hrun hposted, .inl ?_, by simp [hrun], ?_, 0, by decide, ?_⟩
  · exact hqueue.trans hs.queue
  · rintro (⟨a,ha,-⟩ | ⟨-,r,n,hm⟩)
    · simp [hrun,Running.acts] at ha
    · obtain ⟨caller,b,hx⟩ := hposted _ hm
      simp at hx
  · rw [hdel, hs.deleted]
    simp

/-- A callback that waits while the pool is empty waits for ever: its handler does not return,
so no completed write is handled. -/
structure Wedged (ticket : Ticket) (s : Endpoint κ τ) : Prop where
  pool : s.out.pool = []
  waiting : s.out.pc none = .waiting ticket
  running : s.running.phase = .idle

omit [DecidableEq τ] in
theorem Wedged.congr {ticket : Ticket} {s t : Endpoint κ τ} (h : Wedged ticket s)
    (hpool : t.out.pool = s.out.pool) (hpc : t.out.pc none = s.out.pc none)
    (hrun : t.running = s.running) : Wedged ticket t :=
  ⟨hpool.trans h.pool, hpc.trans h.waiting, by rw [hrun]; exact h.running⟩

theorem Wedged.step {cfg : Config κ} {ticket : Ticket} {s t : Endpoint κ τ} {e : Event τ}
    (h : Wedged ticket s) (hs : Endpoint.step cfg s e = some t) : Wedged ticket t := by
  have hidle : s.idle = false := by simp [idle,h.waiting]
  cases e with
  | send u request =>
    simp only [Endpoint.step,Option.ite_none_right_eq_some,Option.some.injEq] at hs
    obtain ⟨-,rfl⟩ := hs
    unfold call
    split
    · exact h
    · exact h.congr rfl (by simp [Pipeline.Store.call]) rfl
  | pop caller => simp [Endpoint.step,Pipeline.Store.pop,h.pool] at hs
  | fill caller =>
    simp only [Endpoint.step,fill] at hs
    split at hs
    · rename_i b ticket' hpc
      have hne : none ≠ caller := by
        rintro rfl
        simp [h.waiting] at hpc
      simp only [Option.some.injEq] at hs
      subst hs
      exact h.congr rfl (by simp [Pipeline.Store.fill,Function.update_of_ne hne]) rfl
    · simp at hs
  | post caller =>
    simp only [Endpoint.step,post] at hs
    split at hs
    · rename_i b ticket' hpc
      have hne : none ≠ caller := by
        rintro rfl
        simp [h.waiting] at hpc
      simp only [Option.some.injEq] at hs
      subst hs
      exact h.congr rfl (by simp [Pipeline.Store.setPc,Function.update_of_ne hne]) rfl
    · simp at hs
  | run =>
    simp only [Endpoint.step] at hs
    split at hs
    · simp [hidle] at hs
    · simp at hs
  | act kept =>
    simp only [Endpoint.step,act] at hs
    split at hs
    · rename_i hrun
      have := h.running
      simp [hrun,Running.phase] at this
    · rename_i hrun
      have := h.running
      simp [hrun,Running.phase] at this
    · simp [h.waiting] at hs
    · simp at hs
  | write i n =>
    simp only [Endpoint.step,write] at hs
    split at hs
    · simp only [Option.ite_none_right_eq_some,Option.map_eq_some_iff] at hs
      obtain ⟨-,out,hout,rfl⟩ := hs
      obtain ⟨w,-,-,rfl⟩ := Pipeline.Store.progress_eq_some.mp hout
      exact h.congr rfl rfl rfl
    · simp at hs
  | writeDone i failed =>
    simp only [Endpoint.step,writeDone] at hs
    split at hs
    · simp only [Option.ite_none_right_eq_some,Option.some.injEq] at hs
      obtain ⟨-,rfl⟩ := hs
      exact h.congr rfl rfl rfl
    · simp at hs
  | close | tick d =>
    simp only [Endpoint.step,Option.some.injEq] at hs
    subst hs
    exact h.congr rfl rfl rfl
  | connect resolved opened =>
    simp only [Endpoint.step,Option.map_eq_some_iff] at hs
    obtain ⟨c,hc,rfl⟩ := hs
    exact h.congr rfl rfl (Core.connect_spec hc).2
  | setup call os =>
    simp only [Endpoint.step,Option.map_eq_some_iff] at hs
    obtain ⟨c,hc,rfl⟩ := hs
    exact h.congr rfl rfl (Core.setup_spec hc).2
  | start =>
    simp only [Endpoint.step,Option.map_eq_some_iff] at hs
    obtain ⟨c,hc,rfl⟩ := hs
    obtain ⟨_,_,_,_,_,_,rfl⟩ := Core.start_shape hc
    exact h.congr rfl rfl rfl
  | read i data sender =>
    simp only [Endpoint.step,Option.map_eq_some_iff] at hs
    obtain ⟨x,hx,rfl⟩ := hs
    obtain ⟨_,-,-,-,-,rfl⟩ := Core.read_eq_some.mp hx
    exact h.congr rfl rfl rfl
  | readFail i ec =>
    simp only [Endpoint.step,Option.map_eq_some_iff] at hs
    obtain ⟨x,hx,rfl⟩ := hs
    obtain ⟨_,-,-,rfl⟩ := Core.readFail_eq_some.mp hx
    exact h.congr rfl rfl rfl
  | expire i | abort i =>
    simp only [Endpoint.step,Option.map_eq_some_iff] at hs
    obtain ⟨x,hx,rfl⟩ := hs
    obtain ⟨_,-,-,-,rfl⟩ := Core.waitDone_eq_some.mp hx
    exact h.congr rfl rfl rfl
  | connectDone i failed reopened =>
    simp only [Endpoint.step,Option.map_eq_some_iff] at hs
    obtain ⟨x,hx,rfl⟩ := hs
    obtain ⟨_,-,-,rfl⟩ := Core.connectDone_eq_some.mp hx
    exact h.congr rfl rfl rfl

/-- The echo server of the README. -/
def echo : Config Unit where
  kind := .tcpConnection
  framing := readmeFraming
  readTimeout := 0
  onRecv := some (fun _ m _ => .unchanged () m [.send ⟨m,.implicit⟩])
  onConnect u _ := (u,[])
  onDisc u := u

/-- `k` messages, each of them only a header. -/
def headers (k : Nat) : List Byte := (List.replicate k [0,0,0,4]).flatten

theorem length_headers (k : Nat) : (headers k).length = 4*k := by
  simp [headers,Nat.mul_comm]

theorem cut_headers (k : Nat) : readmeFraming.cut (headers (k+1)) = .frame 4 := by
  rw [Framing.cut_eq_frame]
  have htake : (headers (k+1)).take 4 = [0,0,0,4] := rfl
  have hlen := length_headers (k+1)
  refine ⟨?_, ?_, ?_, ?_, ?_⟩
  · simp only [readmeFraming]; omega
  · simp only [readmeFraming,htake]; decide
  · decide
  · decide
  · omega

/-- The server has echoed `k` of `n` such messages, which came in one read. -/
structure Echoing (n k : Nat) (s : Endpoint Unit Unit) : Prop where
  socket : s.socket.isOpen = true
  running : s.running = .program [.scan 1 (4*k)]
  pc : s.out.pc none = .idle
  pool : s.out.pool.length = poolSize-k
  active : s.window.activeBytes = 4*n
  fits : s.window.activeBytes ≤ s.window.recvBuffer.length
  content : s.window.content.drop (4*k) = headers (n-k)

/-- The next message is handed to the callback, whose `send` passes the test at its head. -/
theorem Echoing.send {n k : Nat} {s : Endpoint Unit Unit} (h : Echoing n k s) (hk : k < n) :
    ∃ t ticket, Transition.run (step echo) s [.act true, .act true] = some t ∧
      t.socket.isOpen = true ∧ t.running = .program [.scan 1 (4*(k+1))] ∧
      t.out.pc none = .waiting ticket ∧ t.out.pool = s.out.pool ∧ t.window.activeBytes = 4*n ∧
      t.window.activeBytes ≤ t.window.recvBuffer.length ∧
      t.window.content.drop (4*(k+1)) = headers (n-(k+1)) := by
  have hactive := h.active
  have hfits := h.fits
  have hcut : readmeFraming.cut (s.window.content.drop (4*k)) = .frame 4 := by
    rw [h.content, show n-k = (n-(k+1))+1 by omega]
    exact cut_headers _
  have hscan : s.window.scan readmeFraming (4*k) = .message 4 := by
    have hc := s.window.cut_scan readmeFraming (k := 4*k) (by omega) hfits
    rw [hcut] at hc
    cases hs : s.window.scan readmeFraming (4*k) with
    | bad => simp [hs,Scan.cut] at hc
    | stop => simp [hs,Scan.cut] at hc
    | message size => simpa [hs,Scan.cut] using hc
  have hspan : (s.window.span (4*k) 4).length = 4 := by
    simp only [Window.span,List.length_take,List.length_drop]; omega
  have hbuf : 4*k+(s.window.span (4*k) 4).length ≤ s.window.recvBuffer.length := by omega
  let request : Request := ⟨s.window.span (4*k) 4, .implicit⟩
  let ticket : Ticket := ⟨request, .ofRequest .tcpConnection s.socket request⟩
  let t : Endpoint Unit Unit := { s with
    log := s.log ++ [(s.now,.callback 1 (s.window.span (4*k) 4) none)]
    window := s.window.scribble (4*k) (s.window.span (4*k) 4)
    user := ()
    running := .program [.scan 1 (4*(k+1))]
    out := s.out.call none ticket }
  refine ⟨t, ticket, ?_, h.socket, rfl, ?_, rfl, hactive, ?_, ?_⟩
  · simp [step,act,h.running,h.pc,perform,Core.perform,hscan,echo,Core.deliver,Core.emit,withCore,call,
      sendCheck,h.socket,t,ticket,request,Nat.mul_add]
  · simp [t,Pipeline.Store.call]
  · simp only [t,Window.scribble,length_poke hbuf]; exact hfits
  · have hdrop := Window.content_scribble_drop hbuf
    rw [hspan] at hdrop
    rw [Nat.mul_add, Nat.mul_one]
    refine hdrop.trans ?_
    rw [← List.drop_drop, h.content, show n-k = (n-(k+1))+1 by omega]
    rfl

theorem Echoing.next {n k : Nat} {s : Endpoint Unit Unit} (h : Echoing n k s) (hk : k < n)
    (hpool : k < poolSize) (hreach : Reached echo s) : ∃ t, Reached echo t ∧ Echoing n (k+1) t := by
  obtain ⟨s',ticket,hsend,hopen,hrun,hpc,hpool',hactive,hfits,hcontent⟩ := h.send hk
  obtain ⟨b,rest,hb⟩ : ∃ b rest, s.out.pool = b :: rest := by
    refine List.exists_cons_of_ne_nil (fun hnil => ?_)
    have := h.pool
    rw [hnil, List.length_nil] at this
    omega
  obtain ⟨t,ht,hcore,hrest,hpc',-⟩ := call_posts echo hpc (hpool'.trans hb)
  refine ⟨t, Transition.reachable_run hreach (Transition.run_trans hsend ht), ?_⟩
  refine ⟨by rw [hcore]; exact hopen, by rw [hcore]; exact hrun, by rw [hpc', Function.update_self],
    ?_, by rw [hcore]; exact hactive, by rw [hcore]; exact hfits, by rw [hcore]; exact hcontent⟩
  have := h.pool
  rw [hb, List.length_cons] at this
  rw [hrest]
  omega

/-- `n` messages fit into the first read. -/
theorem echoing_zero (n : Nat) (hn : 0 < n) (hfit : 4*n ≤ 65536) :
    ∃ s, Reached echo s ∧ Echoing n 0 s := by
  have hlen := length_headers n
  have hne : headers n ≠ [] := by
    intro hnil
    rw [hnil, List.length_nil] at hlen
    omega
  have hsize : Window.initial.recvBuffer.length = 65536 := List.length_replicate ..
  have hactive : Window.initial.activeBytes = 0 := rfl
  have hroom : 0+(headers n).length ≤ Window.initial.recvBuffer.length := by omega
  let s : Endpoint Unit Unit := { (initial .tcpConnection () : Endpoint Unit Unit) with
    boot := .done
    log := [(0,.read 1)]
    arrived := [⟨1,headers n,⟨0,0⟩⟩]
    window := ⟨poke Window.initial.recvBuffer 0 (headers n), (headers n).length⟩
    running := .program [.scan 1 0] }
  have hrun : Transition.run (step echo) (initial .tcpConnection ())
      [.start, .start, .read 0 (headers n) ⟨0,0⟩, .run] = some s := by
    have hpos : 0 < (headers n).length := by omega
    have hle : (headers n).length ≤ 65536 := by omega
    simp [step,Core.start,echo,initial,Core.initial,Core.resetReadTimeout,Core.startReceive,withCore,
      Core.emit,Core.descriptor,Core.read,Core.live,Socket.accepted,Socket.closed,
      Window.startReceive_initial,Window.offered_initial,hactive,
      hle,hne,notify,idle,runHandler,Core.handle,Core.onReceived,hpos,Pipeline.Store.fresh,s]
  refine ⟨s, reached_of_run hrun, rfl, rfl, rfl, ?_, hlen, ?_, ?_⟩
  · simp [s,initial,Pipeline.Store.fresh]
  · simp only [s,length_poke hroom]
    omega
  · have := take_poke hroom
    simpa [s,Window.content] using this

theorem echoing (n k : Nat) (hk : k ≤ n) (hfit : 4*n ≤ 65536) (hn : 0 < n) (hpool : k ≤ poolSize) :
    ∃ s, Reached echo s ∧ Echoing n k s := by
  induction k with
  | zero => exact echoing_zero n hn hfit
  | succ k ih =>
    obtain ⟨s,hreach,hs⟩ := ih (by omega) (by omega)
    exact hs.next (by omega) (by omega) hreach

/-- 8193 messages in one read: the callback has sent 8192 of them back, the last call waits,
and nothing that happens later gives it a buffer. -/
theorem echo_wedges : ∃ (s : Endpoint Unit Unit) (ticket : Ticket), Reached echo s ∧
    s.out.pc none = .waiting ticket ∧
    ¬ ∃ es t b, Transition.run (step echo) s es = some t ∧ t.out.pc none = .holding b ticket := by
  obtain ⟨s,hreach,hs⟩ := echoing (poolSize+1) poolSize (by omega) (by decide) (by omega) (Nat.le_refl _)
  obtain ⟨t,ticket,hsend,-,hrun,hpc,hpool,-⟩ := hs.send (by omega)
  have hnil : t.out.pool = [] := by
    rw [hpool, ← List.length_eq_zero_iff, hs.pool, Nat.sub_self]
  have hwedged : Wedged ticket t := ⟨hnil, hpc, by rw [hrun]; rfl⟩
  refine ⟨t, ticket, Transition.reachable_run hreach hsend, hpc, ?_⟩
  rintro ⟨es,u,b,hu,hb⟩
  have := (Transition.run_preserves (Wedged ticket) (fun _ _ _ => Wedged.step) hwedged hu).waiting
  simp [hb] at this

end Endpoint

end Librim
