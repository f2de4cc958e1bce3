import Librim.Connections
import Librim.Quiescence
import Librim.ReadTimeout

/-! Whose completion handlers close the connections of a `TcpClient`, and when they are isolated
from each other. -/

set_option autoImplicit false

namespace Librim

open SelfDelimiting

variable {κ τ : Type}

def Obs.waits : Obs → Option Nat
  | .wait owner => some owner
  | _ => none

/-- For each wait, in the order of their numbers, the connection that it was started for. -/
def waitOwners (log : List (Nat × Obs)) : List Nat := log.filterMap (·.2.waits)

theorem waitOwners_append (log : List (Nat × Obs)) (t : Nat) (o : Obs) :
    waitOwners (log ++ [(t,o)]) = waitOwners log ++ o.waits.toList := by
  cases o <;> simp [waitOwners,Obs.waits]

theorem waitOwner_kept {log log' : List (Nat × Obs)} (h : waitOwners log <+: waitOwners log') {id conn : Nat}
    (hid : (waitOwners log)[id]? = some conn) : (waitOwners log')[id]? = some conn := by
  obtain ⟨l,hl⟩ := h
  rw [← hl, List.getElem?_append_left (List.getElem?_eq_some_iff.mp hid).1]
  exact hid

/-- What the receive loop does, it does for the connection `conn`. -/
structure Tied (c : Core κ) (ns : List Notice) (conn : Nat) : Prop where
  reads : ∀ r ∈ c.reads, r.conn = conn
  received : ∀ r result, .received r result ∈ ns → r.conn = conn
  acts : ∀ a ∈ c.running.acts, ∀ owner, a.owner = some owner → owner = conn

/-- The waits that can still close a socket were started for the connection `conn`. -/
structure Clocked (c : Core κ) (ns : List Notice) (conn : Nat) : Prop where
  waits : ∀ w ∈ c.waits, w.cancelled = false → (waitOwners c.log)[w.id]? = some conn
  expired : ∀ w, .expired w false ∈ ns → (waitOwners c.log)[w.id]? = some conn

/-- While the socket is open, all of this is for the connection that it has. -/
structure Tethered (c : Core κ) (ns : List Notice) : Prop where
  numbered : c.armed = (waitOwners c.log).length
  tied : c.socket.isOpen = true → Tied c ns c.socket.conn
  clocked : c.socket.isOpen = true → Clocked c ns c.socket.conn

section tethered
variable {cfg : Config κ} {c c' : Core κ} {ns ns' : List Notice}

theorem Clocked.grow {conn : Nat} (h : Clocked c ns conn) (hlog : waitOwners c.log <+: waitOwners c'.log)
    (hw : ∀ w ∈ c'.waits, w.cancelled = false → w ∈ c.waits ∨ (waitOwners c'.log)[w.id]? = some conn)
    (hns : ∀ w, .expired w false ∈ ns' → .expired w false ∈ ns) : Clocked c' ns' conn where
  waits := by
    intro w hm hc
    rcases hw w hm hc with hm | hm
    · exact waitOwner_kept hlog (h.waits w hm hc)
    · exact hm
  expired := fun w hm => waitOwner_kept hlog (h.expired w (hns w hm))

/-- Neither the timer nor the reads change, and the handler has got no more to do for a connection. -/
theorem Tethered.same (h : Tethered c ns) (hs : c'.socket = c.socket)
    (hl : waitOwners c'.log = waitOwners c.log) (harm : c'.armed = c.armed) (hw : c'.waits = c.waits)
    (hr : c'.reads = c.reads)
    (hacts : ∀ a ∈ c'.running.acts, a.owner = none ∨ ∃ a' ∈ c.running.acts, a'.owner = a.owner)
    (hrecv : ∀ r result, .received r result ∈ ns' → .received r result ∈ ns)
    (hexp : ∀ w, .expired w false ∈ ns' → .expired w false ∈ ns) : Tethered c' ns' where
  numbered := by rw [harm, hl]; exact h.numbered
  tied := by
    intro hopen
    rw [hs] at hopen ⊢
    have ht := h.tied hopen
    refine ⟨hr ▸ ht.reads, fun r result hm => ht.received r result (hrecv r result hm), ?_⟩
    intro a ha owner howner
    rcases hacts a ha with hnone | ⟨a',ha',heq⟩
    · simp [hnone] at howner
    · exact ht.acts a' ha' owner (heq.trans howner)
  clocked := by
    intro hopen
    rw [hs] at hopen ⊢
    refine (h.clocked hopen).grow (hl ▸ List.prefix_rfl) (fun w hm _ => .inl (hw ▸ hm)) hexp

/-- Once it is closed, nothing has to be shown of it. -/
theorem Tethered.closeBody (h : c.armed = (waitOwners c.log).length) : Tethered (c.closeBody cfg) ns := by
  refine ⟨?_, by simp, by simp⟩
  unfold Core.closeBody
  split
  · simpa [Core.emit,waitOwners_append,Obs.waits] using h
  · exact h

theorem Tethered.resetReadTimeout (h : Tethered c ns) {owner : Nat}
    (howner : c.socket.isOpen = true → owner = c.socket.conn) : Tethered (c.resetReadTimeout cfg owner) ns := by
  unfold Core.resetReadTimeout
  split
  · have hlog : waitOwners (c.emit (.wait owner)).log = waitOwners c.log ++ [owner] := by
      simp [Core.emit,waitOwners_append,Obs.waits]
    refine ⟨?_, fun hopen => ⟨(h.tied hopen).reads, (h.tied hopen).received, (h.tied hopen).acts⟩, fun hopen => ?_⟩
    · simp only [hlog,List.length_append,List.length_singleton]
      rw [h.numbered]
    · refine (h.clocked hopen).grow (by simp only [hlog]; exact List.prefix_append _ _) ?_ (fun _ hm => hm)
      intro w hm hc
      rcases List.mem_append.mp hm with hm | hm
      · obtain ⟨w',-,rfl⟩ := List.mem_map.mp hm
        simp at hc
      · refine .inr ?_
        rw [List.mem_singleton.mp hm, ← howner hopen]
        simp only [hlog,h.numbered,List.getElem?_concat_length]
  · exact h

theorem Tethered.startReceive (hk : cfg.kind = .tcpClient) (h : Tethered c ns) (owner : Nat) :
    Tethered (c.startReceive cfg owner) ns := by
  have hlog : waitOwners (c.emit (.read owner)).log = waitOwners c.log := by
    simp [Core.emit,waitOwners_append,Obs.waits]
  rw [startReceive_tcp (by simp [hk])]
  refine ⟨by simp only [hlog]; exact h.numbered, fun hopen => ⟨?_, (h.tied hopen).received, (h.tied hopen).acts⟩,
    fun hopen => ?_⟩
  · intro r hm
    rcases List.mem_append.mp hm with hm | hm
    · exact (h.tied hopen).reads r hm
    · rw [List.mem_singleton.mp hm]
      exact if_pos hopen
  · exact (h.clocked hopen).grow (by simp only [hlog]; exact List.prefix_rfl) (fun w hm _ => .inl hm)
      (fun _ hm => hm)

theorem Tethered.deliver (h : Tethered c ns) {owner offset n : Nat} {sender : Option Address}
    {next : List Act} (hnext : ∀ a ∈ next, a.owner = none ∨ ∃ a' ∈ c.running.acts, a'.owner = a.owner) :
    Tethered (c.deliver cfg owner offset n sender next) ns := by
  unfold Core.deliver
  split
  · exact h.same rfl rfl rfl rfl rfl hnext (fun _ _ hm => hm) (fun _ hm => hm)
  · refine h.same rfl (by simp [Core.emit,waitOwners_append,Obs.waits]) rfl rfl rfl ?_ (fun _ _ hm => hm)
      (fun _ hm => hm)
    intro a ha
    rcases List.mem_append.mp ha with ha | ha
    · obtain ⟨k,-,rfl⟩ := List.mem_map.mp ha
      exact .inl rfl
    · exact hnext a ha

theorem Tethered.perform (hk : cfg.kind = .tcpClient) (h : Tethered c ns) {a : Act} {rest : List Act}
    (hrun : c.running = .program (a :: rest)) : Tethered (c.perform cfg rest a) ns := by
  have hhead : a ∈ c.running.acts := by rw [hrun]; exact List.mem_cons_self
  have hrest : ∀ b ∈ rest, b.owner = none ∨ ∃ a' ∈ c.running.acts, a'.owner = b.owner := by
    intro b hb
    exact .inr ⟨b, by rw [hrun]; exact List.mem_cons_of_mem _ hb, rfl⟩
  have hnext : Tethered { c with running := .program rest } ns :=
    h.same rfl rfl rfl rfl rfl hrest (fun _ _ hm => hm) (fun _ hm => hm)
  cases a with
  | scan owner currentOffset =>
    have hsame : ∀ b : Act, b.owner = some owner → b.owner = none ∨ ∃ a' ∈ c.running.acts, a'.owner = b.owner :=
      fun b hb => .inr ⟨_, hhead, hb.symm⟩
    simp only [Core.perform]
    split
    · refine h.same rfl rfl rfl rfl rfl ?_ (fun _ _ hm => hm) (fun _ hm => hm)
      intro b hb
      rcases List.mem_cons.mp hb with rfl | hb
      · exact .inl rfl
      · exact hrest b hb
    · refine h.deliver (fun b hb => ?_)
      rcases List.mem_cons.mp hb with rfl | hb
      · exact hsame _ rfl
      · exact hrest b hb
    · refine h.same rfl rfl rfl rfl rfl ?_ (fun _ _ hm => hm) (fun _ hm => hm)
      intro b hb
      rcases List.mem_cons.mp hb with rfl | hb
      · exact hsame _ rfl
      · rcases List.mem_cons.mp hb with rfl | hb
        · exact hsame _ rfl
        · exact hrest b hb
  | datagram owner n => exact h.deliver hrest
  | call k =>
    cases k with
    | send request => exact hnext
    | close => exact .closeBody (c := { c with running := .program rest }) hnext.numbered
  | resetReadTimeout owner => exact hnext.resetReadTimeout (fun hopen => (h.tied hopen).acts _ hhead owner rfl)
  | startReceive owner => exact hnext.startReceive hk owner
  | close => exact .closeBody (c := { c with running := .program rest }) hnext.numbered

/-- A read is over, and its handler is queued. -/
theorem Tethered.posted (h : Tethered c ns) {i : Nat} {r : Read} {result : Except ErrorCode Nat}
    (hi : c.reads[i]? = some r) (hs : c'.socket = c.socket) (hl : c'.log = c.log) (harm : c'.armed = c.armed)
    (hw : c'.waits = c.waits) (hr : c'.reads = c.reads.eraseIdx i) (hrun : c'.running = c.running) :
    Tethered c' (ns ++ [.received r result]) := by
  refine ⟨by rw [harm, hl]; exact h.numbered, fun hopen => ?_, fun hopen => ?_⟩
  · rw [hs] at hopen ⊢
    have ht := h.tied hopen
    refine ⟨fun r' hr' => ht.reads r' (List.mem_of_mem_eraseIdx (hr ▸ hr')), fun r' result' hm => ?_, hrun ▸ ht.acts⟩
    rcases List.mem_append.mp hm with hm | hm
    · exact ht.received r' result' hm
    · simp only [List.mem_singleton,Notice.received.injEq] at hm
      rw [hm.1]
      exact ht.reads r (List.mem_of_getElem? hi)
  · rw [hs] at hopen ⊢
    exact (h.clocked hopen).grow (hl ▸ List.prefix_rfl) (fun w hm _ => .inl (hw ▸ hm)) (by simp)

theorem Tethered.waitDone (h : Tethered c ns) {n : Notice} {i : Nat} {aborted : Bool}
    (hx : c.waitDone i aborted = some (c',n)) : Tethered c' (ns ++ [n]) := by
  obtain ⟨w,hi,hc,-,hx⟩ := Core.waitDone_eq_some.mp hx
  obtain ⟨rfl,rfl⟩ := Prod.mk.inj hx
  refine ⟨h.numbered, fun hopen => ⟨(h.tied hopen).reads, fun r result hm => ?_, (h.tied hopen).acts⟩, fun hopen =>
    ⟨fun w' hw' => (h.clocked hopen).waits w' (List.mem_of_mem_eraseIdx hw'), fun w' hw' => ?_⟩⟩
  · exact (h.tied hopen).received r result (by simpa using hm)
  · rcases List.mem_append.mp hw' with hw' | hw'
    · exact (h.clocked hopen).expired w' hw'
    · simp only [List.mem_singleton,Notice.expired.injEq] at hw'
      obtain ⟨rfl,rfl⟩ := hw'
      exact (h.clocked hopen).waits w' (List.mem_of_getElem? hi) hc

/-- The socket was closed and no new descriptor is there. -/
theorem Tethered.reopen (h : c.armed = (waitOwners c.log).length) {opened : Bool} {more : Nat}
    (hconn : (c.reopen opened more).socket.conn = c.socket.conn) : Tethered (c.reopen opened more) ns := by
  cases opened with
  | true => simp [Core.reopen,Socket.reopen,Socket.close] at hconn
  | false => exact ⟨h, by simp [Core.reopen,Socket.close], by simp [Core.reopen,Socket.close]⟩

theorem Tethered.handle (hk : cfg.kind = .tcpClient) {n : Notice} (h : Tethered c (n :: ns))
    (hrun : c.running = .program []) (hconn : (c.handle cfg n).socket.conn = c.socket.conn) :
    Tethered (c.handle cfg n) ns := by
  have hother : ∀ {c' : Core κ}, c'.socket = c.socket → waitOwners c'.log = waitOwners c.log →
      c'.armed = c.armed → c'.waits = c.waits → c'.reads = c.reads → (∀ a ∈ c'.running.acts, a.owner = none) →
      Tethered c' ns := by
    intro c' hs hl harm hw hr hacts
    exact h.same hs hl harm hw hr (fun a ha => .inl (hacts a ha)) (fun _ _ hm => List.mem_cons_of_mem _ hm)
      (fun _ hm => List.mem_cons_of_mem _ hm)
  cases n with
  | received r result =>
    have hacts : ∀ a ∈ (c.onReceived cfg r result).running.acts, a.owner = none ∨ a.owner = some r.conn := by
      cases result with
      | error ec => simp [Core.onReceived,hk,Running.acts,Act.owner]
      | ok n =>
        simp only [Core.onReceived,hk]
        split <;> simp [Running.acts,Act.owner]
    obtain ⟨_,_,hshape⟩ := Core.onReceived_shape cfg c r result hrun
    rw [hshape] at hacts
    simp only [Core.handle,hshape]
    refine ⟨h.numbered, fun hopen => ⟨(h.tied hopen).reads, fun r' result' hm => ?_, fun a ha owner howner => ?_⟩,
      fun hopen => (h.clocked hopen).grow List.prefix_rfl (fun w hm _ => .inl hm)
        (fun _ hm => List.mem_cons_of_mem _ hm)⟩
    · exact (h.tied hopen).received r' result' (List.mem_cons_of_mem _ hm)
    · rcases hacts a ha with hnone | hsome
      · simp [hnone] at howner
      · rw [hsome, Option.some.injEq] at howner
        exact howner ▸ (h.tied hopen).received r result List.mem_cons_self
  | expired w aborted =>
    simp only [Core.handle]
    split
    · exact hother rfl rfl rfl rfl rfl (by simp [hrun,Running.acts])
    · exact hother rfl rfl rfl rfl rfl (by simp [Running.acts,Act.owner])
  | connected a failed reopened =>
    have hcalls : ∀ calls : List Call, ∀ a ∈ calls.map Act.call, a.owner = none := by
      intro calls a ha
      obtain ⟨k,-,rfl⟩ := List.mem_map.mp ha
      rfl
    revert hconn
    simp only [Core.handle,Core.onConnected]
    split
    · intro _
      refine ⟨by simpa [Core.emit,waitOwners_append,Obs.waits] using h.numbered, fun hopen =>
        ⟨(h.tied hopen).reads, fun r result hm => (h.tied hopen).received r result (List.mem_cons_of_mem _ hm), ?_⟩,
        fun hopen => (h.clocked hopen).grow ?_ (fun w hm _ => .inl hm) (fun _ hm => List.mem_cons_of_mem _ hm)⟩
      · intro a ha owner howner
        rcases List.mem_append.mp ha with ha | ha
        · simp [hcalls _ a ha] at howner
        · have hboth : a.owner = some c.socket.conn := by
            rcases List.mem_cons.mp ha with rfl | ha
            · rfl
            · rw [List.mem_singleton.mp ha]
              rfl
          exact (Option.some.inj (hboth.symm.trans howner)).symm
      · simp [Core.emit,waitOwners_append,Obs.waits]
    · split
      · intro hconn
        exact .reopen h.numbered hconn
      · intro _
        exact hother rfl rfl rfl rfl rfl (hcalls _)
  | close => exact hother rfl rfl rfl rfl rfl (by simp [Core.handle,Running.acts,Act.owner])

theorem Tethered.move (hk : cfg.kind = .tcpClient) {e : Event τ} (h : Tethered c ns)
    (hm : Move cfg c ns e c' ns') (hconn : c'.socket.conn = c.socket.conn) : Tethered c' ns' := by
  have hsame : ∀ {c' : Core κ}, c'.socket = c.socket → c'.log = c.log → c'.armed = c.armed →
      c'.waits = c.waits → c'.reads = c.reads → c'.running.acts = c.running.acts ∨ c'.running.acts = [] →
      Tethered c' ns := by
    intro c' hs hl harm hw hr hacts
    refine h.same hs (by rw [hl]) harm hw hr (fun a ha => ?_) (fun _ _ hm => hm) (fun _ hm => hm)
    rcases hacts with hacts | hacts
    · exact .inr ⟨a, hacts ▸ ha, rfl⟩
    · simp [hacts] at ha
  cases hm with
  | stay => exact h
  | tick => exact hsame rfl rfl rfl rfl rfl (.inl rfl)
  | close =>
    exact h.same rfl rfl rfl rfl rfl (fun a ha => .inr ⟨a,ha,rfl⟩) (by simp) (by simp)
  | connect hc =>
    simp only [Core.connect,hk] at hc
    split at hc <;> simp only [Option.some.injEq,reduceCtorEq] at hc
    · exact hc ▸ h
    · subst hc
      exact .reopen h.numbered hconn
  | setup hc => simp [Core.setup,hk] at hc
  | start hc => simp [Core.start,hk] at hc
  | handle hrun => exact h.handle hk hrun hconn
  | wrote _ | release _ | finish _ => exact hsame rfl rfl rfl rfl rfl (.inr rfl)
  | fail _ => exact .closeBody (c := { c with running := .program [] }) h.numbered
  | perform hrun => exact h.perform hk hrun
  | read hx =>
    obtain ⟨r,hi,-,-,-,hx⟩ := Core.read_eq_some.mp hx
    obtain ⟨rfl,rfl⟩ := Prod.mk.inj hx
    exact h.posted hi rfl rfl rfl rfl rfl rfl
  | readFail hx =>
    obtain ⟨r,hi,-,hx⟩ := Core.readFail_eq_some.mp hx
    obtain ⟨rfl,rfl⟩ := Prod.mk.inj hx
    exact h.posted hi rfl rfl rfl rfl rfl rfl
  | expire hx | abort hx => exact h.waitDone hx
  | connectDone hx =>
    obtain ⟨_,-,-,hx⟩ := Core.connectDone_eq_some.mp hx
    obtain ⟨rfl,rfl⟩ := Prod.mk.inj hx
    exact h.same rfl rfl rfl rfl rfl (fun a ha => .inr ⟨a,ha,rfl⟩) (by simp) (by simp)

end tethered

/-- The completion handler of a read, a write or a wait. -/
def Handler.isCompletion : Handler τ → Bool
  | .wrote _ _ | .notice (.received _ _) | .notice (.expired _ _) => true
  | _ => false

/-- The operation whose completion handler this is was started for the connection `conn`. -/
def Handler.StartedFor (log : List (Nat × Obs)) (conn : Nat) : Handler τ → Prop
  | .wrote w _ => w.session = conn
  | .notice (.received r _) => r.conn = conn
  | .notice (.expired w _) => (waitOwners log)[w.id]? = some conn
  | _ => True

theorem waitOwners_mono {log log' : List (Nat × Obs)} (h : log <+: log') : waitOwners log <+: waitOwners log' := by
  obtain ⟨l,rfl⟩ := h
  simp only [waitOwners,List.filterMap_append]
  exact List.prefix_append _ _

theorem Handler.StartedFor.mono {h : Handler τ} {log log' : List (Nat × Obs)} {conn : Nat}
    (hs : h.StartedFor log conn) (hlog : log <+: log') : h.StartedFor log' conn := by
  cases h with
  | wrote w failed => exact hs
  | enqueue caller b => trivial
  | notice n =>
    cases n with
    | received r result => exact hs
    | expired w aborted => exact waitOwner_kept (waitOwners_mono hlog) hs
    | connected a failed reopened | close => trivial

/-- What runs on the strand cannot close the socket on behalf of an operation. -/
def Running.harmless : Running → Prop
  | .program acts => acts = []
  | .releasing _ failed => failed = false

theorem Running.harmless.acts_nil {running : Running} (h : running.harmless) : running.acts = [] := by
  cases running with
  | program acts => exact h
  | releasing left failed => rfl

theorem Move.harmless {cfg : Config κ} {c c' : Core κ} {ns ns' : List Notice} {e : Event τ}
    (hm : Move cfg c ns e c' ns') (he : e ≠ .run) (h : c.running.harmless) : c'.running.harmless := by
  have hdone := hm.completed
  cases hm with
  | stay | close | tick => exact h
  | connect hc => rw [(Core.connect_spec hc).2]; exact h
  | setup hc => rw [(Core.setup_spec hc).2]; exact h
  | start hc =>
    obtain ⟨_,_,_,_,_,_,rfl⟩ := Core.start_shape hc
    exact h
  | handle _ | wrote _ => exact absurd rfl he
  | release hrun =>
    rw [hrun] at h
    exact h
  | finish _ => rfl
  | fail hrun => simp [hrun,Running.harmless] at h
  | perform hrun => simp [hrun,Running.harmless] at h
  | read _ | readFail _ | expire _ | abort _ | connectDone _ =>
    obtain ⟨_,_,_,_,_,_,rfl⟩ := hdone rfl
    exact h

namespace Endpoint

/-- Nothing of an earlier connection is left that could reach the next one: no read, no wait that
is not cancelled, no write, no handler of these that would close the socket, no byte in the
window, and no attempt that could still succeed or go on to another endpoint. -/
structure Rested (s : Endpoint κ τ) (taken : List (Handler τ)) : Prop where
  reads : s.reads = []
  received : ∀ r result, .received r result ∉ s.notices
  waits : ∀ w ∈ s.waits, w.cancelled = true
  expired : ∀ w, .expired w false ∉ s.notices
  writes : s.out.writes = []
  wrote : ∀ w, .wrote w true ∉ s.ready
  running : s.running.harmless ∨
    (∀ h, taken.getLast? = some h → h.isCompletion = false) ∧ ∀ a ∈ s.running.acts, a.owner = none
  bytes : s.window.activeBytes = 0
  connects : ∀ a ∈ s.connects, a.more = 0
  connected : ∀ a failed reopened, .connected a failed reopened ∈ s.notices → failed = true ∧ a.more = 0

/-- Whenever a descriptor is opened, by `connect` or for the next endpoint of an attempt that has
failed, the client is at rest. -/
def OpensRested (p : Endpoint κ τ × List (Handler τ)) : Event τ → Prop
  | .connect (.ok _) true => Rested p.1 p.2
  | .run => ∀ a rest, p.1.ready = .notice (.connected a true true) :: rest → p.1.socket.isOpen = true →
      0 < a.more → Rested { p.1 with ready := rest } p.2
  | _ => True

/-- A handler that may still close the socket was started for the connection that it has. -/
def Answers (s : Endpoint κ τ) (taken : List (Handler τ)) : Prop :=
  s.running.harmless ∨ ∀ h, taken.getLast? = some h → s.socket.isOpen = true →
    h.StartedFor s.log s.socket.conn

/-- What makes up the isolation of the connections of a client. -/
structure Guarded (cfg : Config κ) (s : Endpoint κ τ) (taken : List (Handler τ)) : Prop where
  isolated : Isolated cfg.framing s.toCore s.notices
  tethered : Tethered s.toCore s.notices
  native : Pipeline.Native s.pipeline
  answers : Answers s taken

theorem startedFor_of_not_completion {h : Handler τ} (hc : h.isCompletion = false)
    (log : List (Nat × Obs)) (conn : Nat) : h.StartedFor log conn := by
  cases h with
  | wrote w failed => simp [Handler.isCompletion] at hc
  | enqueue caller b => trivial
  | notice n =>
    cases n with
    | received r result | expired w aborted => simp [Handler.isCompletion] at hc
    | connected a failed reopened | close => trivial

theorem Rested.bare {s : Endpoint κ τ} {taken : List (Handler τ)} (h : Rested s taken) :
    Bare s.toCore s.notices := by
  refine ⟨links_eq_nil.mpr ⟨h.reads, ?_, ?_⟩, h.bytes, h.connects, h.connected⟩
  · rw [List.filterMap_eq_nil_iff]
    intro n hn
    cases n with
    | received r result => exact absurd hn (h.received r result)
    | _ => rfl
  · rw [List.filterMap_eq_nil_iff]
    intro a ha
    rcases h.running with hidle | ⟨-,hacts⟩
    · simp [hidle.acts_nil] at ha
    · have := hacts a ha
      cases a <;> simp_all [Act.owner,Act.link]

/-- Everything is as it should be on the descriptor that a client at rest has opened. -/
theorem Guarded.reopen {cfg : Config κ} {s : Endpoint κ τ} {taken taken' : List (Handler τ)} {more : Nat}
    (h : Rested s taken) (hnumbered : s.armed = (waitOwners s.log).length)
    (hisolated : Isolated cfg.framing (s.toCore.reopen true more) s.notices)
    (htaken : ∀ h, taken'.getLast? = some h → taken.getLast? = some h ∨ h.isCompletion = false) :
    Guarded cfg (s.withCore (s.toCore.reopen true more)) taken' := by
  refine ⟨hisolated, ⟨hnumbered, fun _ => ⟨?_, ?_, ?_⟩, fun _ => ⟨?_, ?_⟩⟩, ⟨?_, ?_⟩, ?_⟩
  · intro r hr
    simp [withCore,Core.reopen,h.reads] at hr
  · exact fun r result hm => absurd hm (h.received r result)
  · intro a ha owner howner
    rcases h.running with hidle | ⟨-,hacts⟩
    · have : a ∈ s.running.acts := ha
      simp [hidle.acts_nil] at this
    · have hnone := hacts a ha
      simp [hnone] at howner
  · intro w hw hc
    have := h.waits w hw
    simp [this] at hc
  · exact fun w hm => absurd hm (h.expired w)
  · intro w hw
    have : w ∈ s.out.writes := hw
    simp [h.writes] at this
  · intro w hm
    obtain ⟨hd,hmem,hjob⟩ := List.mem_filterMap.mp hm
    cases hd with
    | wrote w' failed =>
      simp only [Handler.job,Option.some.injEq,Pipeline.Job.written.injEq] at hjob
      exact absurd (hjob.2 ▸ hmem) (h.wrote w')
    | _ => simp [Handler.job] at hjob
  · rcases h.running with hidle | ⟨hlast,-⟩
    · exact .inl hidle
    · refine .inr (fun hd hhd _ => startedFor_of_not_completion ?_ _ _)
      rcases htaken hd hhd with hold | hnew
      · exact hlast hd hold
      · exact hnew

variable [DecidableEq τ]

/-- The steps that open a descriptor. -/
theorem opening {cfg : Config κ} (hk : cfg.kind = .tcpClient) {s t : Endpoint κ τ} {e : Event τ}
    (hs : step cfg s e = some t) (hne : t.socket.conn ≠ s.socket.conn) :
    (∃ more, e = .connect (.ok more) true ∧ t = s.withCore (s.toCore.reopen true more)) ∨
    ∃ a rest, e = .run ∧ s.ready = .notice (.connected a true true) :: rest ∧ s.socket.isOpen = true ∧
      0 < a.more ∧ t = withCore { s with ready := rest } (s.toCore.reopen true (a.more-1)) := by
  have hreopen : ∀ {opened more}, (s.toCore.reopen opened more).socket.conn ≠ s.socket.conn → opened = true := by
    intro opened more hconn
    cases opened with
    | true => rfl
    | false => exact absurd rfl hconn
  cases (step_move hs).attempt hk with
  | calm hcalm => exact absurd hcalm.conn hne
  | done _ _ hc _ | connected _ _ _ _ hc | failed _ _ _ hc => exact absurd (by rw [hc]) hne
  | begun he hc _ =>
    subst he
    rw [hc] at hne
    obtain rfl := hreopen hne
    simp only [step,Core.connect,hk,Option.map_some,Option.some.injEq] at hs
    exact .inl ⟨_, rfl, hs.symm⟩
  | @again a reopened he _ hn hopen hmore hc =>
    subst he
    obtain ⟨hd,rest,hready,-,ht⟩ := run_eq_some hs
    obtain rfl : reopened = true := by
      rw [hc] at hne
      exact hreopen hne
    refine .inr ⟨a, rest, rfl, ?_, hopen, hmore, ?_⟩
    · cases hd with
      | enqueue caller b | wrote w failed => exact absurd (by rw [ht]; rfl) hne
      | notice n =>
        have hhead := (notices_cons hready).symm.trans hn
        simp only [Handler.getNotice,Option.toList_some,List.singleton_append,List.cons.injEq] at hhead
        rw [hready, hhead.1]
    · have hparts : t.out = s.out ∧ t.ready = rest := by
        cases hd with
        | enqueue caller b | wrote w failed => exact absurd (by rw [ht]; rfl) hne
        | notice n =>
          rw [ht]
          exact ⟨rfl,rfl⟩
      obtain ⟨core,out,ready⟩ := t
      obtain ⟨rfl,rfl⟩ := hparts
      rw [withCore, ← hc]

/-- A handler that can do no harm does not close the socket. -/
theorem act_isOpen_of_harmless {cfg : Config κ} {s t : Endpoint κ τ} {kept : Bool} (h : s.running.harmless)
    (hs : step cfg s (.act kept) = some t) : t.socket.isOpen = s.socket.isOpen := by
  simp only [step,act] at hs
  split at hs
  · rename_i left failed hrun
    rw [← Option.some.inj hs]
  · rename_i failed hrun
    rw [hrun] at h
    obtain rfl : failed = false := h
    rw [← Option.some.inj hs]
    simp only [finishWrite,Bool.false_eq_true,↓reduceIte]
    split <;> rfl
  · rename_i a rest hrun
    rw [hrun] at h
    simp [Running.harmless] at h
  · simp at hs

/-- The strand takes up a handler. -/
theorem Answers.run {cfg : Config κ} {s t : Endpoint κ τ} {taken : List (Handler τ)} (h : Guarded cfg s taken)
    (hs : step cfg s .run = some t) (hconn : t.socket.conn = s.socket.conn)
    (hopen : t.socket.isOpen = true → s.socket.isOpen = true) : Answers t (taken ++ takes s .run t) := by
  obtain ⟨hd,rest,hready,hrun,ht⟩ := run_eq_some hs
  have hlast : (taken ++ takes s .run t).getLast? = some hd := by simp [takes,hready]
  have hanswer : (s.socket.isOpen = true → hd.StartedFor t.log s.socket.conn) →
      Answers t (taken ++ takes s .run t) := by
    intro hstarted
    refine .inr (fun h' hh' ho => ?_)
    rw [hlast, Option.some.injEq] at hh'
    rw [← hh', hconn]
    exact hstarted (hopen ho)
  have hmem : ∀ {n}, hd = .notice n → n ∈ s.notices := by
    intro n hn
    rw [notices_cons hready, hn]
    exact List.mem_append_left _ (by simp [Handler.getNotice])
  cases hd with
  | enqueue caller b => exact hanswer (fun _ => trivial)
  | wrote w failed =>
    cases failed with
    | false => exact .inl (by rw [ht]; rfl)
    | true =>
      refine hanswer (fun _ => h.native.failures w ?_)
      simp [pipeline,hready,Handler.job]
  | notice n =>
    cases n with
    | received r result => exact hanswer (fun ho => (h.tethered.tied ho).received r result (hmem rfl))
    | expired w aborted =>
      cases aborted with
      | true =>
        have hidle : t.running = .program [] := by rw [ht]; exact hrun
        exact .inl (by rw [hidle]; rfl)
      | false =>
        refine hanswer (fun ho => ?_)
        have hid := (h.tethered.clocked ho).expired w (hmem rfl)
        exact waitOwner_kept (waitOwners_mono (step_move hs).log_extends) hid
    | connected a failed reopened | close => exact hanswer (fun _ => trivial)

theorem Guarded.step {cfg : Config κ} (hk : cfg.kind = .tcpClient) (hf : 1 ≤ cfg.framing.headerSize)
    (hcb : cfg.onRecv.isSome = true) {s t : Endpoint κ τ} {taken : List (Handler τ)} {e : Event τ}
    (h : Guarded cfg s taken) (hok : OpensRested (s,taken) e) (hs : Endpoint.step cfg s e = some t) :
    Guarded cfg t (taken ++ takes s e t) := by
  have hmove := step_move hs
  by_cases hconn : t.socket.conn = s.socket.conn
  · have hopen := (hmove.attempt hk).isOpen hconn
    refine ⟨h.isolated.move hk hf hcb hmove (fun hne => absurd hconn hne), h.tethered.move hk hmove hconn, ?_, ?_⟩
    · rcases step_simulates hs with hsame | ⟨l,hl⟩
      · rw [hsame]
        exact h.native
      · exact h.native.step hl.step hconn
    · by_cases he : e = .run
      · subst he
        exact .run h hs hconn hopen
      · have htaken : taken ++ takes s e t = taken := by
          cases e with
          | run => exact absurd rfl he
          | _ => simp [takes]
        rw [htaken]
        rcases h.answers with hidle | hlast
        · exact .inl (hmove.harmless he hidle)
        · refine .inr (fun hd hhd ho => ?_)
          rw [hconn]
          exact (hlast hd hhd (hopen ho)).mono hmove.log_extends
  · rcases opening hk hs hconn with ⟨more,rfl,rfl⟩ | ⟨a,rest,rfl,hready,hopen,hmore,rfl⟩
    · have hrested : Rested s taken := hok
      refine .reopen hrested h.tethered.numbered ?_ (fun hd hhd => .inl (by simpa [takes] using hhd))
      exact h.isolated.move hk hf hcb hmove (fun _ => hrested.bare)
    · have hrested : Rested { s with ready := rest } taken := hok a rest hready hopen hmore
      refine .reopen hrested h.tethered.numbered ?_ ?_
      · exact h.isolated.move hk hf hcb hmove (fun _ => hrested.bare)
      · simp [takes,hready,Handler.isCompletion]

/-- The connections of a client do not reach into each other: what is delivered during one of them
is the parse of the bytes received on it, and no completion handler closes the socket for an
operation that was started for another. -/
structure Isolation (cfg : Config κ) (p : Endpoint κ τ × List (Handler τ)) : Prop where
  messages : ∀ conn ∈ connections p.1.log,
    callbacks (p.1.part conn).log <+: (parse cfg.framing.cut (p.1.part conn).stream).messages
  complete : ∀ conn ∈ connections p.1.log,
    p.1.Settled ∨ (connections p.1.log).getLast? ≠ some conn →
    callbacks (p.1.part conn).log = (parse cfg.framing.cut (p.1.part conn).stream).messages
  closings : ∀ kept t hd, step cfg p.1 (.act kept) = some t → p.1.socket.isOpen = true →
    t.socket.isOpen = false → p.2.getLast? = some hd → hd.StartedFor p.1.log p.1.socket.conn

omit [DecidableEq τ] in
theorem guarded_initial {cfg : Config κ} (hk : cfg.kind = .tcpClient) (u : κ) :
    Guarded cfg (initial cfg.kind u : Endpoint κ τ) [] := by
  have hclosed : (initial cfg.kind u : Endpoint κ τ).socket.isOpen ≠ true := by
    simp [initial,Core.initial,hk,Socket.closed]
  have hnone : ∀ {α : Type} {P : α → Prop}, ∀ x ∈ ([] : List α), P x := by simp
  exact
    { isolated :=
        { steady := ⟨Nat.zero_le _, List.not_mem_nil⟩
          renewed := ⟨hnone, hnone, hnone, List.nodup_nil, fun ho => absurd ho hclosed,
            fun ho => absurd ho hclosed, fun ho => absurd ho hclosed⟩
          parts := ⟨fun _ _ => hnone, hnone⟩ }
      tethered := ⟨rfl, fun ho => absurd ho hclosed, fun ho => absurd ho hclosed⟩
      native := ⟨hnone, fun _ hm => absurd hm List.not_mem_nil⟩
      answers := .inl rfl }

theorem Takes.guarded {cfg : Config κ} (hk : cfg.kind = .tcpClient) (hf : 1 ≤ cfg.framing.headerSize)
    (hcb : cfg.onRecv.isSome = true) {p : Endpoint κ τ × List (Handler τ)}
    (h : Takes cfg OpensRested p) : Guarded cfg p.1 p.2 := by
  induction h with
  | @start p hi =>
    obtain ⟨⟨u,hu⟩,hnil⟩ := hi
    rw [hu, hnil]
    exact guarded_initial hk u
  | @next p q e _ hok hs ih =>
    obtain ⟨hs,hq⟩ := Transition.recorded_eq_some.mp hs
    rw [hq]
    exact ih.step hk hf hcb hok hs

/-- `connect` resets nothing and waits for nothing. The connections are isolated if the client is at
rest whenever it opens its socket. -/
theorem connections_isolated (cfg : Config κ) (hk : cfg.kind = .tcpClient)
    (hf : 1 ≤ cfg.framing.headerSize) (hcb : cfg.onRecv.isSome = true)
    (p : Endpoint κ τ × List (Handler τ)) (h : Takes cfg OpensRested p) : Isolation cfg p := by
  have hg := h.guarded hk hf hcb
  have hparts := hg.isolated.parts
  have hfollowed : ∀ conn ∈ connections p.1.log, (connections p.1.log).getLast? = some conn →
      Followed cfg.framing (p.1.part conn) p.1.notices := by
    intro conn hmem hlast
    exact ⟨hparts.places conn hlast, fun hnil => hparts.past conn hmem (.inl hnil)⟩
  refine ⟨fun conn hmem => ?_, fun conn hmem hend => ?_, fun kept t hd hs hopen hclosed hlast => ?_⟩
  · by_cases hlast : (connections p.1.log).getLast? = some conn
    · exact (hfollowed conn hmem hlast).parse_extends
    · rw [hparts.past conn hmem (.inr hlast)]
  · by_cases hlast : (connections p.1.log).getLast? = some conn
    · have hsettled : p.1.Settled := hend.resolve_right (fun hne => hne hlast)
      exact (hfollowed conn hmem hlast).callbacks_eq hsettled.notices hsettled.acts
    · exact hparts.past conn hmem (.inr hlast)
  · rcases hg.answers with hidle | hstarted
    · exact absurd hclosed (by simp [act_isOpen_of_harmless hidle hs,hopen])
    · exact hstarted hd hlast hopen

/-- A test for the steps. -/
def restedCheck (p : Endpoint κ τ × List (Handler τ)) : Event τ → Bool
  | .connect _ _ => p.1.reads.isEmpty && p.1.ready.isEmpty && p.1.waits.all (·.cancelled) &&
      p.1.out.writes.isEmpty && p.1.running == .program [] && p.1.window.activeBytes == 0 &&
      p.1.connects.isEmpty
  | .run =>
    match p.1.ready.head? with
    | some (.notice (.connected _ failed _)) => !failed
    | _ => true
  | _ => true

omit [DecidableEq τ] in
theorem opensRested_of_check {p : Endpoint κ τ × List (Handler τ)} {e : Event τ}
    (h : restedCheck p e = true) : OpensRested p e := by
  cases e with
  | connect resolved opened =>
    have hrested : Rested p.1 p.2 := by
      simp only [restedCheck,Bool.and_eq_true,List.isEmpty_iff,List.all_eq_true,beq_iff_eq] at h
      obtain ⟨⟨⟨⟨⟨⟨hreads,hready⟩,hwaits⟩,hwrites⟩,hrun⟩,hbytes⟩,hconnects⟩ := h
      have hnotices : p.1.notices = [] := by rw [notices, hready]; rfl
      exact
        { reads := hreads
          received := by simp [hnotices]
          waits := hwaits
          expired := by simp [hnotices]
          writes := hwrites
          wrote := by simp [hready]
          running := .inl (by rw [hrun]; rfl)
          bytes := hbytes
          connects := by simp [hconnects]
          connected := by simp [hnotices] }
    unfold OpensRested
    split
    · exact hrested
    · trivial
    · trivial
  | run =>
    intro a rest hready
    simp [restedCheck,hready] at h
  | _ => trivial

/-- The connection of `connectOnce`, with its handler. -/
theorem run_connectOnce_rested : Transition.run
    (Transition.guarded (Transition.recorded (step impatient) takes) restedCheck) (initial .tcpClient (), [])
    connectOnce = some (connectedClient, [.notice (.connected ⟨1,0⟩ false false)]) := by
  simp [connectOnce,connectedClient,Transition.guarded,Transition.recorded,takes,restedCheck,step,Core.connect,
    impatient,Config.bare,initial,Core.initial,Core.reopen,withCore,Socket.close,Socket.reopen,Socket.closed,
    Core.connectDone,Core.live,notify,idle,runHandler,Core.handle,Core.onConnected,Core.emit,act,Endpoint.perform,
    Core.perform,Core.resetReadTimeout,Core.startReceive,Core.descriptor,Window.startReceive_initial,
    Window.offered_initial,show Window.initial.activeBytes = 0 from rfl,Pipeline.Store.fresh]

/-- The user closes the connection, and the handler of the aborted read runs. -/
def closeAndRest : List (Event Unit) :=
  [.close, .run, .act true, .readFail 0 .operationAborted, .run, .act true]

/-- Then the client is connected again. -/
theorem connections_isolated_again : ∃ p : Endpoint Unit Unit × List (Handler Unit),
    connections p.1.log = [1,2] ∧ p.1.socket.isOpen = true ∧ Isolation impatient p := by
  have hrun : (Transition.run (Transition.guarded (Transition.recorded (step impatient) takes) restedCheck)
      (connectedClient, [.notice (.connected ⟨1,0⟩ false false)]) (closeAndRest ++ connectOnce)).map
      (fun p => (connections p.1.log, p.1.socket.isOpen)) = some ([1,2], true) := by
    decide +kernel
  obtain ⟨p,hp,hv⟩ := Option.map_eq_some_iff.mp hrun
  simp only [Prod.mk.injEq] at hv
  refine ⟨p, hv.1, hv.2, connections_isolated impatient rfl (by decide) rfl p ?_⟩
  exact Transition.Reach.run_guarded (fun _ _ => opensRested_of_check) (.start ⟨⟨(),rfl⟩,rfl⟩)
    (Transition.run_trans run_connectOnce_rested hp)

/-- The connection that a read was started on; 0 for every other handler. -/
def readConn : Handler τ → Nat
  | .notice (.received r _) => r.conn
  | _ => 0

/-- The user closes the connection and connects again at once. The handler of the read that was
aborted runs after that and closes the new connection. -/
theorem connections_not_isolated : ∃ p : Endpoint Unit Unit × List (Handler Unit),
    Takes impatient (fun _ _ => True) p ∧ ¬ Isolation impatient p := by
  have hrun : (Transition.run (Transition.recorded (step impatient) takes) (initial .tcpClient (), [])
      (connectOnce ++ [.close, .run, .act true] ++ connectOnce ++ [.readFail 0 .operationAborted, .run])).map
      (fun p => (p.1.socket.isOpen, p.1.socket.conn, (step impatient p.1 (.act true)).map (·.socket.isOpen),
        p.2.getLast?.map readConn)) = some (true, 2, some false, some 1) := by
    decide +kernel
  obtain ⟨p,hp,hv⟩ := Option.map_eq_some_iff.mp hrun
  simp only [Prod.mk.injEq] at hv
  obtain ⟨hopen,hconn,hact,htaken⟩ := hv
  obtain ⟨t,ht,hclosed⟩ := Option.map_eq_some_iff.mp hact
  obtain ⟨hd,hlast,hread⟩ := Option.map_eq_some_iff.mp htaken
  refine ⟨p, Transition.reachable_run (.start ⟨⟨(),rfl⟩,rfl⟩) hp, fun hisolated => ?_⟩
  have hstarted := hisolated.closings true t hd ht hopen hclosed hlast
  rw [hconn] at hstarted
  unfold readConn at hread
  split at hread
  · have hother : _ = 2 := hstarted
    rw [hread] at hother
    simp at hother
  · simp at hread

end Endpoint

end Librim
