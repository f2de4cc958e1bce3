import Librim.EndpointCore
import Librim.Ownership
import Librim.ProcessBuffer

/-! What the strand does when nothing else moves: a handler comes to its end or to a `send`
that has to wait, and one handler after the other runs until a buffer is given back or none
is left. -/

set_option autoImplicit false

namespace Librim

open Transition (Comes)
open Pipeline (Served)

variable {κ τ : Type}

def Act.scans : Act → Bool
  | .scan _ _ => true
  | _ => false

/-- The callback's own calls come before what the handler does next. -/
theorem Core.deliver_calls (cfg : Config κ) (owner offset n : Nat) (sender : Option Address)
    (next : List Act) (c : Core κ) : ∃ calls : List Call,
    (deliver cfg owner offset n sender next c).running = .program (calls.map .call ++ next) ∧
    (deliver cfg owner offset n sender next c).window.activeBytes = c.window.activeBytes := by
  unfold deliver
  split
  · exact ⟨[],rfl,rfl⟩
  · exact ⟨_,rfl,rfl⟩

namespace Endpoint

/-- A callback waits for a buffer and there is none. -/
def Starved (s : Endpoint κ τ) : Prop := s.out.pool = [] ∧ ∃ ticket, s.out.pc none = .waiting ticket

/-- The pool is as it was in `s`, and a callback waits. -/
def Waits (s t : Endpoint κ τ) : Prop :=
  t.out.pool = s.out.pool ∧ ∃ ticket, t.out.pc none = .waiting ticket

/-- The handler that ran in `s` has come to `rest`. -/
structure Gone (s : Endpoint κ τ) (rest : List Act) (t : Endpoint κ τ) : Prop where
  running : t.running = .program rest
  ready : t.ready = s.ready
  out : t.out = s.out

theorem Gone.trans {s t u : Endpoint κ τ} {rest rest' : List Act} (h : Gone s rest t)
    (h' : Gone t rest' u) : Gone s rest' u :=
  ⟨h'.running, h'.ready.trans h.ready, h'.out.trans h.out⟩

theorem Gone.waits {s t u : Endpoint κ τ} {rest : List Act} (h : Gone s rest t) (h' : Waits t u) :
    Waits s u := ⟨by rw [h'.1, h.out], h'.2⟩

theorem runHandler_keeps (cfg : Config κ) (s : Endpoint κ τ) (h : Handler τ) :
    (runHandler cfg s h).out.pc = s.out.pc ∧ (runHandler cfg s h).out.deleted = s.out.deleted := by
  cases h with
  | enqueue caller b =>
    simp only [runHandler,Pipeline.Store.enqueue,Pipeline.Store.startWrite,Pipeline.Store.push]
    split <;> split <;> try exact ⟨rfl,rfl⟩
    all_goals split <;> exact ⟨rfl,rfl⟩
  | wrote w failed | notice n => exact ⟨rfl,rfl⟩

variable [DecidableEq τ]

/-- The next step of the strand when nothing else moves. A call that waits in a callback
does not get on by itself. -/
def alone (cfg : Config κ) (s : Endpoint κ τ) : Option (Endpoint κ τ) :=
  match s.out.pc none with
  | .holding _ _ => step cfg s (.fill none)
  | .filled _ _ => step cfg s (.post none)
  | .waiting _ => none
  | .idle => if s.running = .program [] then step cfg s .run else step cfg s (.act true)

theorem alone_perform {cfg : Config κ} {s : Endpoint κ τ} {a : Act} {rest : List Act}
    (hpc : s.out.pc none = .idle) (hrun : s.running = .program (a :: rest)) :
    alone cfg s = some (s.perform cfg rest a) := by
  simp [alone,hpc,hrun,step,act]

/-- A piece that is not a `send` changes the core only. -/
theorem gone_perform {cfg : Config κ} {s : Endpoint κ τ} {a : Act} {rest acts : List Act}
    (ha : ∀ request, a ≠ .call (.send request))
    (hacts : (s.toCore.perform cfg rest a).running = .program acts) :
    Gone s acts (s.perform cfg rest a) := by
  refine ⟨by rw [perform_core, hacts], perform_ready cfg rest s a, ?_⟩
  unfold perform
  split
  · rename_i request
    exact absurd rfl (ha request)
  · rfl

/-- What a callback asked for: refused at once, or the strand waits. -/
theorem perform_call (cfg : Config κ) (s : Endpoint κ τ) (c : Call) (rest : List Act) :
    Waits s (s.perform cfg rest (.call c)) ∨
      (Gone s rest (s.perform cfg rest (.call c)) ∧ (s.perform cfg rest (.call c)).window = s.window) := by
  cases c with
  | close =>
    refine .inr ⟨gone_perform (by simp) (by simp [Core.perform]), ?_⟩
    obtain ⟨_,_,_,_,hshape⟩ := Core.closeBody_shape cfg { s.toCore with running := .program rest }
    simp only [perform_core,Core.perform,hshape]
  | send request =>
    simp only [perform,call]
    split
    · exact .inr ⟨⟨rfl,rfl,rfl⟩,rfl⟩
    · refine .inl ⟨rfl, ⟨request,.ofRequest cfg.kind s.socket request⟩, ?_⟩
      simp only [Pipeline.Store.call,Function.update_self]
      rfl

theorem calls_comes {cfg : Config κ} (calls : List Call) {s : Endpoint κ τ} {rest : List Act}
    (hpc : s.out.pc none = .idle) (hrun : s.running = .program (calls.map .call ++ rest)) :
    Comes (alone cfg) (fun t => Waits s t ∨ (Gone s rest t ∧ t.window = s.window)) s := by
  induction calls generalizing s with
  | nil => exact .here (.inr ⟨⟨hrun,rfl,rfl⟩,rfl⟩)
  | cons c calls ih =>
    refine .there (alone_perform hpc hrun) ?_
    rcases perform_call cfg s c (calls.map .call ++ rest) with hw | ⟨hgone,hwin⟩
    · exact .here (.inl hw)
    · refine (ih (by rw [hgone.out]; exact hpc) hgone.running).mono ?_
      rintro t (hw | ⟨hg,ht⟩)
      · exact .inl (hgone.waits hw)
      · exact .inr ⟨hgone.trans hg, ht.trans hwin⟩

/-- The loop of `process_buffer` ends: each message takes bytes out of the window. -/
theorem scan_comes {cfg : Config κ} (hadv : cfg.framing.Advances) {owner : Nat} (n : Nat)
    {s : Endpoint κ τ} {k : Nat} {rest : List Act} (hn : sizeSub s.window.activeBytes k < n)
    (hpc : s.out.pc none = .idle) (hrun : s.running = .program (.scan owner k :: rest)) :
    Comes (alone cfg) (fun t => Waits s t ∨ Gone s (.close :: rest) t ∨
      Gone s (.resetReadTimeout owner :: .startReceive owner :: rest) t) s := by
  induction n generalizing s k with
  | zero => omega
  | succ n ih =>
    refine .there (alone_perform hpc hrun) ?_
    cases hscan : s.window.scan cfg.framing k with
    | bad => exact .here (.inr (.inl (gone_perform (by simp) (by simp [Core.perform,hscan]))))
    | stop => exact .here (.inr (.inr (gone_perform (by simp) (by simp [Core.perform,hscan]))))
    | message size =>
      obtain ⟨hpos,hle⟩ := hadv.pos hscan
      have hlt := sizeSub_add hpos hle
      obtain ⟨calls,hcalls,hactive⟩ := Core.deliver_calls cfg owner k size none
        (.scan owner (k+size) :: rest) s.toCore
      have hcore : (s.perform cfg rest (.scan owner k)).toCore =
          s.toCore.deliver cfg owner k size none (.scan owner (k+size) :: rest) := by
        simp [Core.perform,hscan]
      have hgone : Gone s (calls.map .call ++ .scan owner (k+size) :: rest)
          (s.perform cfg rest (.scan owner k)) :=
        gone_perform (by simp) (by rw [← perform_core, hcore]; exact hcalls)
      refine (calls_comes calls (by rw [hgone.out]; exact hpc) hgone.running).trans ?_
      rintro t (hw | ⟨hg,hwin⟩)
      · exact .here (.inl (hgone.waits hw))
      · have hg' := hgone.trans hg
        have hbytes : t.window.activeBytes = s.window.activeBytes := by rw [hwin, hcore, hactive]
        refine (ih (by rw [hbytes]; omega) (by rw [hg'.out]; exact hpc) hg'.running).mono ?_
        rintro u (hw | hb | hr)
        · exact .inl (hg'.waits hw)
        · exact .inr (.inl (hg'.trans hb))
        · exact .inr (.inr (hg'.trans hr))

/-- Every piece of a handler comes to its end, or to a `send` that has to wait. -/
theorem act_comes {cfg : Config κ} {s : Endpoint κ τ} {a : Act} {rest : List Act}
    (hadv : a.scans = true → cfg.framing.Advances) (hpc : s.out.pc none = .idle)
    (hrun : s.running = .program (a :: rest)) :
    Comes (alone cfg) (fun t => Waits s t ∨ Gone s rest t) s := by
  cases a with
  | scan owner k =>
    refine (scan_comes (hadv rfl) _ (Nat.lt_succ_self _) hpc hrun).trans ?_
    rintro t (hw | hg | hg)
    · exact .here (.inl hw)
    · have hpc' : t.out.pc none = .idle := by rw [hg.out]; exact hpc
      refine .there (alone_perform hpc' hg.running) (.here (.inr (hg.trans ?_)))
      exact gone_perform (by simp) (by simp [Core.perform])
    · have hpc' : t.out.pc none = .idle := by rw [hg.out]; exact hpc
      have hg₁ : Gone t (.startReceive owner :: rest)
          (t.perform cfg (.startReceive owner :: rest) (.resetReadTimeout owner)) :=
        gone_perform (by simp) (by simp [Core.perform])
      refine .there (alone_perform hpc' hg.running) ?_
      refine .there (alone_perform (by rw [hg₁.out]; exact hpc') hg₁.running) (.here (.inr ?_))
      exact (hg.trans hg₁).trans (gone_perform (by simp) (by simp [Core.perform]))
  | datagram owner n =>
    obtain ⟨calls,hcalls,-⟩ := Core.deliver_calls cfg owner 0 n (some s.sender) rest s.toCore
    have hgone : Gone s (calls.map .call ++ rest) (s.perform cfg rest (.datagram owner n)) :=
      gone_perform (by simp) hcalls
    refine .there (alone_perform hpc hrun) ?_
    refine (calls_comes calls (by rw [hgone.out]; exact hpc) hgone.running).mono ?_
    rintro t (hw | ⟨hg,-⟩)
    · exact .inl (hgone.waits hw)
    · exact .inr (hgone.trans hg)
  | call c =>
    refine .there (alone_perform hpc hrun) (.here ?_)
    exact (perform_call cfg s c rest).imp_right And.left
  | resetReadTimeout owner | startReceive owner | close =>
    refine .there (alone_perform hpc hrun) (.here (.inr ?_))
    exact gone_perform (by simp) (by simp [Core.perform])

theorem acts_comes {cfg : Config κ} (acts : List Act) {s : Endpoint κ τ}
    (hadv : ∀ a ∈ acts, a.scans = true → cfg.framing.Advances) (hpc : s.out.pc none = .idle)
    (hrun : s.running = .program acts) :
    Comes (alone cfg) (fun t => Waits s t ∨ Gone s [] t) s := by
  induction acts generalizing s with
  | nil => exact .here (.inr ⟨hrun,rfl,rfl⟩)
  | cons a acts ih =>
    refine (act_comes (hadv a List.mem_cons_self) hpc hrun).trans ?_
    rintro t (hw | hg)
    · exact .here (.inl hw)
    · refine (ih (fun b hb => hadv b (List.mem_cons_of_mem _ hb)) (by rw [hg.out]; exact hpc)
        hg.running).mono ?_
      rintro u (hw | hg')
      · exact .inl (hg.waits hw)
      · exact .inr (hg.trans hg')

/-- What the strand on its own leaves alone: the calls of other threads, and, as long as
`buffer_pool_.push` succeeds, the set of buffers. -/
structure Kept (s t : Endpoint κ τ) : Prop where
  pc : ∀ u, t.out.pc (some u) = s.out.pc (some u)
  deleted : t.out.deleted = s.out.deleted

theorem act_kept {cfg : Config κ} {s t : Endpoint κ τ} (h : act cfg true s = some t) : Kept s t := by
  unfold act at h
  split at h
  · simp only [Option.some.injEq] at h
    subst h
    simp only [Pipeline.Store.release]
    split <;> exact ⟨fun _ => rfl,rfl⟩
  · simp only [Option.some.injEq] at h
    subst h
    unfold finishWrite
    split
    · exact ⟨fun _ => rfl,rfl⟩
    · split <;> exact ⟨fun _ => rfl,rfl⟩
  · simp only [Option.ite_none_right_eq_some,Option.some.injEq] at h
    obtain ⟨-,rfl⟩ := h
    unfold perform
    split
    · unfold call
      split
      · exact ⟨fun _ => rfl,rfl⟩
      · exact ⟨fun _ => by simp [Pipeline.Store.call,withCore],rfl⟩
    · exact ⟨fun _ => rfl,rfl⟩
  · simp at h

theorem alone_kept {cfg : Config κ} {s t : Endpoint κ τ} (h : alone cfg s = some t) : Kept s t := by
  unfold alone at h
  split at h
  · rename_i b ticket hpc
    simp only [step,fill,hpc,Option.some.injEq] at h
    subst h
    exact ⟨fun _ => by simp [Pipeline.Store.fill],rfl⟩
  · rename_i b ticket hpc
    simp only [step,Endpoint.post,hpc,Option.some.injEq] at h
    subst h
    exact ⟨fun _ => by simp [Pipeline.Store.setPc],rfl⟩
  · simp at h
  · split at h
    · simp only [step] at h
      split at h
      · rename_i x rest _
        simp only [Option.ite_none_right_eq_some,Option.some.injEq] at h
        obtain ⟨-,rfl⟩ := h
        have hkeep := runHandler_keeps cfg { s with ready := rest } x
        exact ⟨fun u => congrFun hkeep.1 (some u), hkeep.2⟩
      · simp at h
    · exact act_kept h

/-- Whatever the strand comes to on its own, it has left those alone. -/
theorem comes_kept {cfg : Config κ} {s : Endpoint κ τ} {P : Endpoint κ τ → Prop}
    (h : Comes (alone cfg) P s) : Comes (alone cfg) (fun t => P t ∧ Kept s t) s := by
  refine h.keeps (Kept s) (fun x y hx hy => ?_) ⟨fun _ => rfl,rfl⟩
  have hxy := alone_kept hy
  exact ⟨fun u => (hxy.pc u).trans (hx.pc u), hxy.deleted.trans hx.deleted⟩

theorem alone_step {cfg : Config κ} {s t : Endpoint κ τ} (h : alone cfg s = some t) :
    ∃ e, step cfg s e = some t := by
  unfold alone at h
  split at h
  · exact ⟨_,h⟩
  · exact ⟨_,h⟩
  · simp at h
  · split at h
    · exact ⟨_,h⟩
    · exact ⟨_,h⟩

theorem Reached.alone (cfg : Config κ) (s t : Endpoint κ τ) (h : Reached cfg s)
    (ht : alone cfg s = some t) : Reached cfg t := by
  obtain ⟨e,he⟩ := alone_step ht
  exact .next h trivial he

/-- Between two handlers, with the pool empty and no callback about to wait. -/
structure Between (cfg : Config κ) (s : Endpoint κ τ) : Prop where
  reached : Reached cfg s
  idle : s.out.pc none = .idle
  running : s.running = .program []
  pool : s.out.pool = []
  due : ¬ Comes (alone cfg) Starved s
  served : Served s.pipeline
  advances : cfg.kind ≠ .udpEndpoint → (∃ r n, .notice (.received r (.ok n)) ∈ s.ready) →
    cfg.framing.Advances

theorem alone_run (cfg : Config κ) {s : Endpoint κ τ} {h : Handler τ} {rest : List (Handler τ)}
    (hpc : s.out.pc none = .idle) (hrun : s.running = .program []) (hready : s.ready = h :: rest) :
    alone cfg s = some (runHandler cfg { s with ready := rest } h) := by
  simp [alone,step,idle,hpc,hrun,hready]

theorem handle_scans {cfg : Config κ} {c : Core κ} {n : Notice} (hrun : c.running = .program [])
    {a : Act} (ha : a ∈ (c.handle cfg n).running.acts) (hs : a.scans = true) :
    cfg.kind ≠ .udpEndpoint ∧ ∃ r k, n = .received r (.ok k) := by
  have hcalls : ∀ cs : List Call, a ∉ cs.map Act.call := by
    intro cs hm
    obtain ⟨c,-,rfl⟩ := List.mem_map.mp hm
    simp [Act.scans] at hs
  cases n with
  | received r result =>
    simp only [Core.handle,Core.onReceived] at ha
    split at ha
    · split at ha
      · simp only [Running.acts,List.mem_cons,List.not_mem_nil,or_false] at ha
        rcases ha with rfl | rfl <;> simp [Act.scans] at hs
      · simp [hrun,Running.acts] at ha
    · split at ha
      · simp only [Running.acts,List.mem_cons,List.not_mem_nil,or_false] at ha
        subst ha
        simp [Act.scans] at hs
      · simp [hrun,Running.acts] at ha
    · rename_i k hk
      exact ⟨fun hu => hk hu, r, k, rfl⟩
    · simp only [Running.acts,List.mem_cons,List.not_mem_nil,or_false] at ha
      subst ha
      simp [Act.scans] at hs
  | expired w aborted =>
    simp only [Core.handle] at ha
    split at ha
    · simp [hrun,Running.acts] at ha
    · simp only [Running.acts,List.mem_cons,List.not_mem_nil,or_false] at ha
      subst ha
      simp [Act.scans] at hs
  | connected x failed reopened =>
    simp only [Core.handle,Core.onConnected] at ha
    split at ha
    · simp only [Running.acts,List.mem_append,List.mem_cons,List.not_mem_nil,or_false] at ha
      rcases ha with ha | rfl | rfl
      · exact absurd ha (hcalls _)
      · simp [Act.scans] at hs
      · simp [Act.scans] at hs
    · split at ha
      · simp [Core.reopen,hrun,Running.acts] at ha
      · exact absurd ha (hcalls _)
  | close =>
    simp only [Core.handle,Running.acts,List.mem_cons,List.not_mem_nil,or_false] at ha
    subst ha
    simp [Act.scans] at hs

/-- The first buffer that the completion handler of a write gives back. -/
theorem wrote_comes {cfg : Config κ} {s : Endpoint κ τ} {w : Pipeline.Write} {failed : Bool}
    {rest : List (Handler τ)} (hsound : Sound cfg s) (hpc : s.out.pc none = .idle)
    (hrun : s.running = .program []) (hready : s.ready = .wrote w failed :: rest) :
    Comes (alone cfg) (fun t => t.out.pool ≠ []) s := by
  obtain ⟨-,-,-,-,hpos,hle⟩ := hsound.serial.of_ready
    (show .written w failed ∈ s.pipeline.ready by simp [pipeline,hready,Handler.job])
  have hpos' : 0 < s.out.batch := hpos
  have hle' : s.out.batch ≤ s.out.queue.length := hle
  refine .there (alone_run cfg hpc hrun hready) ?_
  obtain ⟨n,hn⟩ : ∃ n, s.out.batch = n+1 := ⟨s.out.batch-1, by omega⟩
  obtain ⟨b,queue,hq⟩ : ∃ b queue, s.out.queue = b :: queue := by
    cases hq : s.out.queue with
    | nil => rw [hq, List.length_nil] at hle'; omega
    | cons b queue => exact ⟨b,queue,rfl⟩
  refine .there (t := { s with
    ready := rest, running := .releasing n failed, out := s.out.release true }) ?_ (.here ?_)
  · simp [alone,runHandler,hpc,hn,step,act]
  · simp [Pipeline.Store.release,hq]

theorem Between.enqueue {cfg : Config κ} {s : Endpoint κ τ} (h : Between cfg s) {caller : Option τ}
    {b : Nat} {rest : List (Handler τ)} (hready : s.ready = .enqueue caller b :: rest) :
    Between cfg (runHandler cfg { s with ready := rest } (.enqueue caller b)) := by
  have hnext := alone_run cfg h.idle h.running hready
  have hposted : s.pipeline.At b .job := by
    simp [Pipeline.State.At,Pipeline.State.posted,pipeline,hready,Handler.job,Pipeline.Job.posted]
  have hroom := h.reached.sound.owned.queue_length_lt (q := .job) (by simp) hposted
  obtain ⟨hpool,hpc,-⟩ := Pipeline.Store.enqueue_frame cfg.kind.batchLimit s.socket.conn caller b hroom
  refine ⟨.alone cfg s _ h.reached hnext, ?_, h.running, ?_, fun hc => h.due (.there hnext hc), ?_, ?_⟩
  · exact (congrFun hpc none).trans h.idle
  · exact hpool.trans h.pool
  · refine Served.enqueue h.served ?_ ?_
    · simp [pipeline,h.running,Running.phase]
    · rw [pipeline, hready]; rfl
  · rintro hk ⟨r,n,hm⟩
    exact h.advances hk ⟨r,n,by rw [hready]; exact List.mem_cons_of_mem _ hm⟩

theorem Between.notice {cfg : Config κ} {s : Endpoint κ τ} (h : Between cfg s) {n : Notice}
    {rest : List (Handler τ)} (hready : s.ready = .notice n :: rest) :
    Comes (alone cfg) (fun t => Between cfg t ∧ t.ready = rest) s := by
  have hnext := alone_run cfg h.idle h.running hready
  have hphase : ((s.toCore.handle cfg n)).running.phase = .idle :=
    Core.handle_phase cfg s.toCore n (by rw [h.running]; rfl)
  obtain ⟨acts,hacts⟩ : ∃ acts, (s.toCore.handle cfg n).running = .program acts := by
    cases hr : (s.toCore.handle cfg n).running with
    | releasing left failed => simp [hr,Running.phase] at hphase
    | program acts => exact ⟨acts,rfl⟩
  have hadv : ∀ a ∈ acts, a.scans = true → cfg.framing.Advances := by
    intro a ha hs
    obtain ⟨hk,r,k,rfl⟩ := handle_scans h.running (by rw [hacts]; exact ha) hs
    exact h.advances hk ⟨r,k,by simp [hready]⟩
  have hstart : Comes (alone cfg) _ (runHandler cfg { s with ready := rest } (.notice n)) :=
    acts_comes acts hadv h.idle hacts
  have hcomes := ((Comes.there hnext hstart).keeps _ (Reached.alone cfg) h.reached).avoid h.due
  refine hcomes.mono ?_
  rintro t ⟨⟨hw | hg,hreach⟩,hdue⟩
  · exact absurd (.here ⟨hw.1.trans h.pool,hw.2⟩) hdue
  · have hout : t.out = s.out := hg.out
    have hrest : t.ready = rest := hg.ready
    refine ⟨⟨hreach, by rw [hout]; exact h.idle, hg.running, by rw [hout]; exact h.pool, hdue, ?_, ?_⟩,
      hrest⟩
    · have hjobs : t.ready.filterMap Handler.job = s.ready.filterMap Handler.job := by
        rw [hrest, hready]
        simp [List.filterMap_cons,Handler.job]
      have := h.served
      simp only [Served,Pipeline.State.outstanding,pipeline,hout,hjobs,hg.running,h.running] at this ⊢
      exact this
    · rintro hk ⟨r,k,hm⟩
      rw [hrest] at hm
      exact h.advances hk ⟨r,k,by rw [hready]; exact List.mem_cons_of_mem _ hm⟩

theorem Between.comes {cfg : Config κ} (handlers : List (Handler τ)) {s : Endpoint κ τ}
    (h : Between cfg s) (hready : s.ready = handlers) :
    Comes (alone cfg) (fun t => t.out.pool ≠ [] ∨ (Between cfg t ∧ t.ready = [])) s := by
  induction handlers generalizing s with
  | nil => exact .here (.inr ⟨h,hready⟩)
  | cons x rest ih =>
    cases x with
    | enqueue caller b =>
      refine .there (alone_run cfg h.idle h.running hready) (ih (h.enqueue hready) rfl)
    | wrote w failed => exact (wrote_comes h.reached.sound h.idle h.running hready).mono (fun _ => .inl)
    | notice n => exact (h.notice hready).trans (fun t ht => ih ht.1 ht.2)

end Endpoint

end Librim
