import Librim.Ownership

/-! The end of an endpoint: `Context::stop`, the handlers that are destroyed together with the context
without having run, and the destructors. The ledger holds what the constructors create with `new`. -/

set_option autoImplicit false

namespace Librim

/-- `std::vector<std::byte>` and `UdpSendItem`. -/
inductive ObjectType where
  | vector
  | udpSendItem
  deriving DecidableEq, Repr

/-- An object, the type it was created with and the buffer that it belongs to. -/
structure Object where
  type : ObjectType
  buffer : Nat
  deriving DecidableEq, Repr

/-- `delete` of a pointer to `object` whose static type is `type`. -/
structure Deletion where
  object : Object
  type : ObjectType
  deriving DecidableEq, Repr

/-- What the constructor creates: a `UdpSendItem` has a vector as its `buf`. -/
def Kind.ledger : Kind → List Object
  | .tcpConnection | .tcpClient => (List.range poolSize).map (⟨.vector,·⟩)
  | .udpEndpoint => (List.range poolSize).flatMap (fun b => [⟨.udpSendItem,b⟩, ⟨.vector,b⟩])

/-- The completion handler of a write, when `buffer_pool_.push` fails. -/
def Kind.refused (kind : Kind) (b : Nat) : List Deletion :=
  match kind with
  | .tcpConnection | .tcpClient => [⟨⟨.vector,b⟩,.vector⟩]
  | .udpEndpoint => [⟨⟨.vector,b⟩,.vector⟩, ⟨⟨.udpSendItem,b⟩,.udpSendItem⟩]

/-- The destructors pop the pool into a pointer to a vector, which the pop of `UdpEndpoint` casts. -/
def Kind.pooled (kind : Kind) (b : Nat) : List Deletion :=
  match kind with
  | .tcpConnection | .tcpClient => [⟨⟨.vector,b⟩,.vector⟩]
  | .udpEndpoint => [⟨⟨.udpSendItem,b⟩,.vector⟩]

/-- The loop over `send_queue_`: `delete p`, or `delete item->buf`. -/
def Kind.queued (_ : Kind) (b : Nat) : List Deletion := [⟨⟨.vector,b⟩,.vector⟩]

/-- Each object of the ledger was deleted once, and as what it is. -/
def Accounted (kind : Kind) (deletions : List Deletion) : Prop :=
  ∀ o ∈ kind.ledger, deletions.filter (·.object = o) = [⟨o,o.type⟩]

variable {κ τ : Type}

/-- The closure that `close()` dispatches has a weak pointer; every other handler keeps the endpoint
alive. -/
def Handler.isWeak : Handler τ → Bool
  | .notice .close => true
  | _ => false

/-- The buffer that only the closure of a `send` knows. -/
def Handler.buffer : Handler τ → Option Nat
  | .enqueue _ b => some b
  | _ => none

/-- The steps that no thread of the context takes. -/
def Event.isOutside : Event τ → Bool
  | .send _ _ | .pop (some _) | .fill (some _) | .post (some _) | .close | .connect _ _ | .setup _ _
  | .start | .tick _ => true
  | _ => false

namespace Endpoint

/-- The context destroys its handlers and those of the operations in progress. -/
def abandoned (s : Endpoint κ τ) : Endpoint κ τ :=
  { s with ready := [], reads := [], waits := [], connects := [], out := { s.out with writes := [] } }

def destructor (kind : Kind) (s : Endpoint κ τ) : List Deletion :=
  s.out.pool.flatMap kind.pooled ++ s.out.queue.flatMap kind.queued

variable [DecidableEq τ]

/-- No handler holds a shared pointer. -/
def unreferenced (s : Endpoint κ τ) : Bool :=
  s.idle && s.ready.all Handler.isWeak && s.reads.isEmpty && s.waits.isEmpty && s.connects.isEmpty &&
    s.out.writes.isEmpty

end Endpoint

/-- `stop()` has returned, the context is destroyed, the endpoint is destroyed. -/
inductive Stage where
  | running
  | stopped
  | ended
  | destroyed
  deriving DecidableEq, Repr

/-- An endpoint together with its context. `discarded` are the handlers that were destroyed without
having run; when the endpoint is destroyed, `endpoint` is as its destructor found it. -/
structure Lifetime (κ τ : Type) where
  endpoint : Endpoint κ τ
  stage : Stage
  discarded : List (Handler τ)

inductive LifetimeEvent (τ : Type) where
  | endpoint (e : Event τ)
  | stop
  | endContext
  | destroy

namespace Lifetime

def initial (kind : Kind) (u : κ) : Lifetime κ τ := ⟨.initial kind u, .running, []⟩

/-- The buffers of the closures that never ran. -/
def lost (l : Lifetime κ τ) : List Nat := l.discarded.filterMap Handler.buffer

/-- All that was deleted so far. -/
def deletions (kind : Kind) (l : Lifetime κ τ) : List Deletion :=
  l.endpoint.out.deleted.flatMap kind.refused ++
    if l.stage = .destroyed then l.endpoint.destructor kind else []

variable [DecidableEq τ]

/-- `stop()` joins the threads of the context, so the handler that runs comes to its end. -/
def step (cfg : Config κ) (l : Lifetime κ τ) : LifetimeEvent τ → Option (Lifetime κ τ)
  | .endpoint e =>
    if l.stage = .running ∨ (l.stage = .stopped ∧ e.isOutside = true) then
      (l.endpoint.step cfg e).map ({ l with endpoint := · })
    else none
  | .stop => if l.stage = .running ∧ l.endpoint.idle then some { l with stage := .stopped } else none
  | .endContext =>
    if l.stage = .stopped then some ⟨l.endpoint.abandoned, .ended, l.endpoint.ready⟩ else none
  | .destroy =>
    if l.stage ≠ .destroyed ∧ l.endpoint.unreferenced then some { l with stage := .destroyed } else none

/-- No object is destroyed while a thread is in one of its member functions. -/
def Orderly (l : Lifetime κ τ) : LifetimeEvent τ → Prop
  | .endContext | .destroy => ∀ t, l.endpoint.out.pc (some t) = .idle
  | _ => True

abbrev Reached (cfg : Config κ) (l : Lifetime κ τ) : Prop :=
  Transition.Reach (fun l₀ => ∃ u, l₀ = initial cfg.kind u) (step cfg) Orderly l

end Lifetime

section ledger
variable {kind : Kind} {ds : List Deletion} {o : Object}

theorem Kind.mem_ledger : o ∈ kind.ledger ↔
    o.buffer < poolSize ∧ (kind = .udpEndpoint ∨ o.type = .vector) := by
  obtain ⟨type,b⟩ := o
  cases kind <;> cases type <;> simp [ledger]

theorem Accounted.mem (h : Accounted kind ds) (ho : o ∈ kind.ledger) : ⟨o,o.type⟩ ∈ ds := by
  have hmem : (⟨o,o.type⟩ : Deletion) ∈ ds.filter (·.object = o) := by
    rw [h o ho]
    exact List.mem_singleton_self _
  exact (List.mem_filter.mp hmem).1

/-- Distinct buffers, each deleted in the same way. -/
theorem filter_deletions {l : List Nat} (hl : l.Nodup) (hb : o.buffer ∈ l) {g : Nat → List Deletion}
    (hg : ∀ a, ∀ d ∈ g a, d.object.buffer = a) :
    (l.flatMap g).filter (·.object = o) = (g o.buffer).filter (·.object = o) := by
  rw [List.filter_flatMap]
  refine Custody.flatMap_of_nodup hl hb (fun a ha => ?_)
  refine List.filter_eq_nil_iff.mpr (fun d hd ho => ha ?_)
  have heq : d.object = o := by simpa using ho
  rw [← heq, hg a d hd]

end ledger

/-- What the destructor of an endpoint finds: each buffer is where the destructor looks for it, or
was deleted before, or is lost. -/
structure Settled (l : Lifetime κ τ) : Prop where
  nodup : l.endpoint.out.inner.Nodup
  mem_iff : ∀ b, b < poolSize → (b ∈ l.endpoint.out.inner ↔ b ∉ l.lost)
  inner_lt : ∀ b ∈ l.endpoint.out.inner, b < poolSize
  lost_lt : ∀ b ∈ l.lost, b < poolSize

namespace Settled

variable {kind : Kind} {l : Lifetime κ τ}

theorem lost_eq_nil (h : Settled l) (hall : ∀ b, b < poolSize → b ∈ l.endpoint.out.inner) : l.lost = [] := by
  refine List.eq_nil_iff_forall_not_mem.mpr (fun b hb => ?_)
  exact (h.mem_iff b (h.lost_lt b hb)).mp (hall b (h.lost_lt b hb)) hb

theorem accounted_tcp (h : Settled l) (hk : kind ≠ .udpEndpoint) (hd : l.stage = .destroyed) :
    Accounted kind (l.deletions kind) ↔ l.lost = [] := by
  -- a TCP endpoint deletes a buffer in one way, wherever it is
  have hrefused : kind.refused = kind.queued := by
    cases kind with
    | udpEndpoint => exact absurd rfl hk
    | _ => rfl
  have hpooled : kind.pooled = kind.queued := by
    cases kind with
    | udpEndpoint => exact absurd rfl hk
    | _ => rfl
  have hds : l.deletions kind = l.endpoint.out.inner.flatMap kind.queued := by
    simp only [Lifetime.deletions,if_pos hd,Endpoint.destructor,Pipeline.Store.inner,List.flatMap_append,
      hrefused,hpooled,List.append_assoc]
  rw [hds]
  constructor
  · intro hacc
    refine h.lost_eq_nil (fun b hb => ?_)
    have hmem := hacc.mem (o := ⟨.vector,b⟩) (Kind.mem_ledger.mpr ⟨hb,.inr rfl⟩)
    simpa [Kind.queued] using hmem
  · intro hlost o ho
    obtain ⟨hb,htype⟩ := Kind.mem_ledger.mp ho
    have htype : o.type = .vector := htype.resolve_left hk
    have hin : o.buffer ∈ l.endpoint.out.inner := (h.mem_iff _ hb).mpr (by simp [hlost])
    rw [filter_deletions h.nodup hin (by simp [Kind.queued])]
    obtain ⟨type,b⟩ := o
    simp_all [Kind.queued]

/-- An item in the pool is deleted as a vector, one in the ring or in a lost closure is not deleted. -/
theorem accounted_udp (h : Settled l) (hd : l.stage = .destroyed) :
    Accounted .udpEndpoint (l.deletions .udpEndpoint) ↔
      l.lost = [] ∧ l.endpoint.out.pool = [] ∧ l.endpoint.out.queue = [] := by
  have hds : l.deletions .udpEndpoint = l.endpoint.out.deleted.flatMap (Kind.refused .udpEndpoint) ++
      (l.endpoint.out.pool.flatMap (Kind.pooled .udpEndpoint) ++
        l.endpoint.out.queue.flatMap (Kind.queued .udpEndpoint)) := by
    rw [Lifetime.deletions, if_pos hd]
    rfl
  rw [hds]
  constructor
  · intro hacc
    have hdeleted : ∀ b, b < poolSize → b ∈ l.endpoint.out.deleted := by
      intro b hb
      have hmem := hacc.mem (o := ⟨.udpSendItem,b⟩) (Kind.mem_ledger.mpr ⟨hb,.inl rfl⟩)
      simpa [Kind.refused,Kind.pooled,Kind.queued] using hmem
    have hnodup := h.nodup
    simp only [Pipeline.Store.inner,List.append_assoc] at hnodup
    have hnone : l.endpoint.out.pool ++ l.endpoint.out.queue = [] := by
      refine List.eq_nil_iff_forall_not_mem.mpr (fun b hb => ?_)
      have hlt : b < poolSize := h.inner_lt b (by simp only [Pipeline.Store.inner,List.append_assoc]; simp [hb])
      exact List.disjoint_of_nodup_append hnodup (hdeleted b hlt) hb
    refine ⟨h.lost_eq_nil (fun b hb => ?_), List.append_eq_nil_iff.mp hnone⟩
    simp [Pipeline.Store.inner,hdeleted b hb]
  · rintro ⟨hlost,hpool,hqueue⟩ o ho
    obtain ⟨hb,-⟩ := Kind.mem_ledger.mp ho
    have hin : o.buffer ∈ l.endpoint.out.deleted := by
      simpa [Pipeline.Store.inner,hpool,hqueue,hlost] using h.mem_iff _ hb
    have hnodup : l.endpoint.out.deleted.Nodup := by simpa [Pipeline.Store.inner,hpool,hqueue] using h.nodup
    rw [hpool, hqueue, List.flatMap_nil, List.flatMap_nil, List.append_nil, List.append_nil,
      filter_deletions hnodup hin (by simp [Kind.refused])]
    obtain ⟨type,b⟩ := o
    cases type <;> simp [Kind.refused]

end Settled

theorem Endpoint.posted_buffers (s : Endpoint κ τ) :
    s.pipeline.posted.map Prod.snd = s.ready.filterMap Handler.buffer := by
  simp only [pipeline,Pipeline.State.posted,List.filterMap_filterMap,List.map_filterMap]
  congr 1
  funext h
  cases h <;> rfl

namespace Lifetime

/-- The buffers of `l` are where they are in the state `s` of an endpoint, except that posted ones
may be lost by now. -/
structure Stems (s : Endpoint κ τ) (l : Lifetime κ τ) : Prop where
  inner : l.endpoint.out.inner = s.out.inner
  pc : l.endpoint.out.pc = s.out.pc
  posted : s.ready.filterMap Handler.buffer = l.endpoint.ready.filterMap Handler.buffer ++ l.lost
  live : l.stage = .running ∨ l.stage = .stopped → l.endpoint = s ∧ l.discarded = []
  idle : l.stage = .destroyed → ∀ caller, l.endpoint.out.pc caller = .idle
  unposted : l.stage = .destroyed → l.endpoint.ready.filterMap Handler.buffer = []

theorem filterMap_buffer_of_weak {hs : List (Handler τ)} (h : hs.all Handler.isWeak = true) :
    hs.filterMap Handler.buffer = [] := by
  refine List.filterMap_eq_nil_iff.mpr (fun x hx => ?_)
  have hweak := List.all_eq_true.mp h x hx
  match x with
  | .enqueue _ _ => simp [Handler.isWeak] at hweak
  | .wrote _ _ => rfl
  | .notice _ => rfl

variable [DecidableEq τ]

theorem Stems.step {cfg : Config κ} {s : Endpoint κ τ} {l l' : Lifetime κ τ} {e : LifetimeEvent τ}
    (hs : Endpoint.Reached cfg s) (h : Stems s l) (hok : Orderly l e) (hstep : step cfg l e = some l') :
    ∃ s', Endpoint.Reached cfg s' ∧ Stems s' l' := by
  cases e with
  | endpoint e =>
    simp only [Lifetime.step,Option.ite_none_right_eq_some,Option.map_eq_some_iff] at hstep
    obtain ⟨hstage,t,ht,rfl⟩ := hstep
    have hlive : l.stage = .running ∨ l.stage = .stopped := hstage.imp_right And.left
    have hne : l.stage ≠ .destroyed := by rcases hlive with hl | hl <;> simp [hl]
    obtain ⟨heq,hnone⟩ := h.live hlive
    refine ⟨t, .next hs trivial (heq ▸ ht), rfl, rfl, ?_, fun _ => ⟨rfl,hnone⟩,
      fun hd => absurd hd hne, fun hd => absurd hd hne⟩
    simp [lost,hnone]
  | stop =>
    simp only [Lifetime.step,Option.ite_none_right_eq_some,Option.some.injEq] at hstep
    obtain ⟨⟨hstage,-⟩,rfl⟩ := hstep
    exact ⟨s, hs, h.inner, h.pc, h.posted, fun _ => h.live (.inl hstage), by simp, by simp⟩
  | endContext =>
    simp only [Lifetime.step,Option.ite_none_right_eq_some,Option.some.injEq] at hstep
    obtain ⟨hstage,rfl⟩ := hstep
    obtain ⟨rfl,-⟩ := h.live (.inr hstage)
    exact ⟨l.endpoint, hs, rfl, rfl, by simp [Endpoint.abandoned,lost], by simp, by simp, by simp⟩
  | destroy =>
    simp only [Lifetime.step,Option.ite_none_right_eq_some,Option.some.injEq] at hstep
    obtain ⟨⟨-,hun⟩,rfl⟩ := hstep
    simp only [Endpoint.unreferenced,Endpoint.idle,Bool.and_eq_true,beq_iff_eq] at hun
    refine ⟨s, hs, h.inner, h.pc, h.posted, by simp, fun _ caller => ?_, fun _ => ?_⟩
    · cases caller with
      | none => exact hun.1.1.1.1.1.2
      | some t => exact hok t
    · exact filterMap_buffer_of_weak hun.1.1.1.1.2

theorem Reached.stems {cfg : Config κ} {l : Lifetime κ τ} (h : Reached cfg l) :
    ∃ s, Endpoint.Reached cfg s ∧ Stems s l := by
  induction h with
  | start hi =>
    obtain ⟨u,rfl⟩ := hi
    exact ⟨.initial cfg.kind u, .start ⟨u,rfl⟩, rfl, rfl, rfl, fun _ => ⟨rfl,rfl⟩, nofun, nofun⟩
  | next _ hok hs ih =>
    obtain ⟨s,hr,hstems⟩ := ih
    exact hstems.step hr hok hs

theorem Reached.settled {cfg : Config κ} {l : Lifetime κ τ} (h : Reached cfg l)
    (hd : l.stage = .destroyed) : Settled l := by
  obtain ⟨s,hr,hstems⟩ := h.stems
  have howned := hr.sound.owned
  have hlost : l.lost = s.pipeline.posted.map Prod.snd := by
    rw [s.posted_buffers, hstems.posted, hstems.unposted hd, List.nil_append]
  have hidle : ∀ caller, s.pipeline.pc caller = .idle := by
    intro caller
    rw [← hstems.idle hd caller, hstems.pc]
    rfl
  constructor
  · rw [hstems.inner]
    exact howned.inner_nodup
  · intro b hb
    rw [hstems.inner, hlost]
    exact howned.mem_inner_iff hidle hb
  · intro b hb
    rw [hstems.inner] at hb
    rcases List.mem_append.mp hb with hb | hb
    · rcases List.mem_append.mp hb with hb | hb
      · exact howned.exclusive.token b .deleted hb
      · exact howned.exclusive.token b .pool hb
    · exact howned.exclusive.token b .queue hb
  · intro b hb
    rw [hlost] at hb
    exact howned.exclusive.token b .job hb

/-- In every run that ends in the destruction of the endpoint. -/
theorem destruction_accounts_iff (cfg : Config κ) (l : Lifetime κ τ) (h : Reached cfg l)
    (hd : l.stage = .destroyed) : Accounted cfg.kind (l.deletions cfg.kind) ↔
      l.lost = [] ∧ (cfg.kind = .udpEndpoint → l.endpoint.out.pool = [] ∧ l.endpoint.out.queue = []) := by
  have hsettled := h.settled hd
  by_cases hk : cfg.kind = .udpEndpoint
  · rw [hk, hsettled.accounted_udp hd]
    simp
  · rw [hsettled.accounted_tcp hk hd]
    simp [hk]

/-- A test for the steps. -/
def orderlyCheck (l : Lifetime Unit Unit) : LifetimeEvent Unit → Bool
  | .endContext | .destroy => l.endpoint.out.pc (some ()) == .idle
  | _ => true

theorem orderly_of_check {l : Lifetime Unit Unit} {e : LifetimeEvent Unit} (h : orderlyCheck l e = true) :
    Orderly l e := by
  cases e with
  | endContext | destroy => exact fun _ => by simpa [orderlyCheck] using h
  | _ => trivial

/-- A payload is posted. -/
def sendOnce : List (LifetimeEvent Unit) :=
  [.endpoint (.send () ⟨[1,2],.implicit⟩), .endpoint (.pop (some ())), .endpoint (.fill (some ())),
    .endpoint (.post (some ()))]

/-- The closure has run and the write is outstanding when the context is stopped. -/
theorem destruction_accounts_writing : ∃ l : Lifetime Unit Unit,
    Transition.run (Transition.guarded (step (.bare .tcpConnection)) orderlyCheck) (initial .tcpConnection ())
      (sendOnce ++ [.endpoint .run, .stop, .endContext, .destroy]) = some l ∧
    Reached (.bare .tcpConnection) l ∧ l.stage = .destroyed ∧ l.endpoint.out.queue.length = 1 ∧
    Accounted .tcpConnection (l.deletions .tcpConnection) := by
  have hrun : (Transition.run (Transition.guarded (step (.bare .tcpConnection)) orderlyCheck)
      (initial .tcpConnection ()) (sendOnce ++ [.endpoint .run, .stop, .endContext, .destroy])).map
      (fun l : Lifetime Unit Unit => (l.stage, l.endpoint.out.queue.length, l.lost)) =
        some (.destroyed, 1, []) := by
    decide +kernel
  obtain ⟨l,hl,hv⟩ := Option.map_eq_some_iff.mp hrun
  simp only [Prod.mk.injEq] at hv
  obtain ⟨hstage,hqueue,hlost⟩ := hv
  have hreach : Reached (.bare .tcpConnection) l :=
    Transition.Reach.run_guarded (fun _ _ => orderly_of_check) (.start ⟨(),rfl⟩) hl
  refine ⟨l, hl, hreach, hstage, hqueue, ?_⟩
  exact (destruction_accounts_iff (.bare .tcpConnection) l hreach hstage).mpr ⟨hlost, by simp [Config.bare]⟩

/-- The context is stopped before the closure of a `send` has run. And an unused `UdpEndpoint`. -/
theorem destruction_not_accounts :
    (∃ l : Lifetime Unit Unit, Reached (.bare .tcpConnection) l ∧ l.stage = .destroyed ∧
      ¬ Accounted .tcpConnection (l.deletions .tcpConnection)) ∧
    ∃ l : Lifetime Unit Unit, Reached (.bare .udpEndpoint) l ∧ l.stage = .destroyed ∧
      ¬ Accounted .udpEndpoint (l.deletions .udpEndpoint) := by
  constructor
  · have hrun : (Transition.run (Transition.guarded (step (.bare .tcpConnection)) orderlyCheck)
        (initial .tcpConnection ()) (sendOnce ++ [.stop, .endContext, .destroy])).map
        (fun l : Lifetime Unit Unit => (l.stage, l.lost)) = some (.destroyed, [0]) := by
      decide +kernel
    obtain ⟨l,hl,hv⟩ := Option.map_eq_some_iff.mp hrun
    obtain ⟨hstage,hlost⟩ := Prod.mk.inj hv
    have hreach : Reached (.bare .tcpConnection) l :=
      Transition.Reach.run_guarded (fun _ _ => orderly_of_check) (.start ⟨(),rfl⟩) hl
    refine ⟨l, hreach, hstage, fun hacc => ?_⟩
    have hnone := ((hreach.settled hstage).accounted_tcp (by simp) hstage).mp hacc
    simp [hlost] at hnone
  · have hrun : (Transition.run (Transition.guarded (step (.bare .udpEndpoint)) orderlyCheck)
        (initial .udpEndpoint ()) [.destroy]).map
        (fun l : Lifetime Unit Unit => (l.stage, l.endpoint.out.pool.isEmpty)) = some (.destroyed, false) := by
      decide +kernel
    obtain ⟨l,hl,hv⟩ := Option.map_eq_some_iff.mp hrun
    obtain ⟨hstage,hpool⟩ := Prod.mk.inj hv
    have hreach : Reached (.bare .udpEndpoint) l :=
      Transition.Reach.run_guarded (fun _ _ => orderly_of_check) (.start ⟨(),rfl⟩) hl
    refine ⟨l, hreach, hstage, fun hacc => ?_⟩
    have hnone := (((hreach.settled hstage).accounted_udp hstage).mp hacc).2.1
    simp [hnone] at hpool

end Lifetime

end Librim
