import Librim.SendOrder

/-! The receive loop of a TCP endpoint stands in one place at a time. What a step can do to
it is said here once. -/

set_option autoImplicit false

namespace Librim

variable {κ τ : Type}

/-- Where the receive loop stands: a read is outstanding, or has completed, or `process_buffer`
is at an offset, or `start_receive` comes next. -/
inductive Link where
  | reading (r : Read)
  | received (result : Except ErrorCode Nat)
  | scanning (currentOffset : Nat)
  | resuming
  | datagram

def Notice.link : Notice → Option Link
  | .received _ result => some (.received result)
  | _ => none

def Act.link : Act → Option Link
  | .scan _ currentOffset => some (.scanning currentOffset)
  | .startReceive _ => some .resuming
  | .datagram _ _ => some .datagram
  | _ => none

def Obs.connection : Obs → Option Nat
  | .connected conn => some conn
  | _ => none

/-- The descriptors on which a client was connected. -/
def connections (log : List (Nat × Obs)) : List Nat := log.filterMap (·.2.connection)

def Core.links (c : Core κ) (ns : List Notice) : List Link :=
  c.reads.map .reading ++ ns.filterMap Notice.link ++ c.running.acts.filterMap Act.link

theorem connections_append (log : List (Nat × Obs)) (t : Nat) (o : Obs) :
    connections (log ++ [(t,o)]) = connections log ++ o.connection.toList := by
  cases o <;> simp [connections,Obs.connection]

theorem connections_mono {log log' : List (Nat × Obs)} (h : log <+: log') :
    connections log <+: connections log' := by
  obtain ⟨l,rfl⟩ := h
  simp only [connections,List.filterMap_append]
  exact List.prefix_append _ _

/-- The log grows by entries that are neither a message nor a connection. -/
def Silent (log log' : List (Nat × Obs)) : Prop :=
  ∃ os, log' = log ++ os ∧ ∀ o ∈ os, o.2.message = none ∧ o.2.connection = none

theorem Silent.refl (log : List (Nat × Obs)) : Silent log log := ⟨[], by simp, by simp⟩

theorem Silent.single (log : List (Nat × Obs)) (t : Nat) {o : Obs} (hm : o.message = none)
    (hc : o.connection = none) : Silent log (log ++ [(t,o)]) := ⟨[(t,o)], rfl, by simp [hm,hc]⟩

theorem Silent.callbacks {log log' : List (Nat × Obs)} (h : Silent log log') :
    callbacks log' = callbacks log := by
  obtain ⟨os,rfl,hos⟩ := h
  have : os.filterMap (·.2.message) = [] := List.filterMap_eq_nil_iff.mpr (fun o ho => (hos o ho).1)
  rw [Librim.callbacks, List.filterMap_append, this, List.append_nil, Librim.callbacks]

theorem Silent.connections {log log' : List (Nat × Obs)} (h : Silent log log') :
    connections log' = connections log := by
  obtain ⟨os,rfl,hos⟩ := h
  have : os.filterMap (·.2.connection) = [] := List.filterMap_eq_nil_iff.mpr (fun o ho => (hos o ho).2)
  rw [Librim.connections, List.filterMap_append, this, List.append_nil, Librim.connections]

section silent
variable (cfg : Config κ) (c : Core κ)

theorem closeBody_silent : Silent c.log (c.closeBody cfg).log := by
  unfold Core.closeBody
  split
  · exact .single _ _ rfl rfl
  · exact .refl _

theorem resetReadTimeout_silent (owner : Nat) : Silent c.log (c.resetReadTimeout cfg owner).log := by
  unfold Core.resetReadTimeout
  split
  · exact .single _ _ rfl rfl
  · exact .refl _

theorem startReceive_silent (owner : Nat) : Silent c.log (c.startReceive cfg owner).log := by
  unfold Core.startReceive
  split
  · split
    · exact .refl _
    · exact .single _ _ rfl rfl
  · exact .single _ _ rfl rfl

end silent

/-- `start_receive` of a TCP endpoint. -/
theorem startReceive_tcp {cfg : Config κ} (hk : cfg.kind ≠ .udpEndpoint) (c : Core κ) (owner : Nat) :
    c.startReceive cfg owner =
      { c.emit (.read owner) with
        window := c.window.startReceive
        reads := c.reads ++
          [⟨c.descriptor, c.window.startReceive.activeBytes, c.window.startReceive.offered⟩] } := by
  cases hkind : cfg.kind with
  | udpEndpoint => exact absurd hkind hk
  | tcpConnection | tcpClient => simp [Core.startReceive,hkind]

/-- The read that `start_receive` makes. -/
def Core.nextRead (c : Core κ) : Read :=
  ⟨c.descriptor, c.window.startReceive.activeBytes, c.window.startReceive.offered⟩

/-- What a step does to the loop of a TCP endpoint: nothing, or it moves it on by one place. -/
inductive Hop (cfg : Config κ) (c c' : Core κ) : List Link → List Link → Prop where
  | skip {ls : List Link} : c'.window = c.window → c'.arrived = c.arrived → Silent c.log c'.log →
      Hop cfg c c' ls ls
  | connected : cfg.kind = .tcpClient → c'.window = c.window → c'.arrived = c.arrived →
      c'.log = c.log ++ [(c.now,.connected c.socket.conn)] → Hop cfg c c' [] [.resuming]
  | started {ls : List Link} :
      ls = [.resuming] ∨ (ls = [] ∧ cfg.kind = .tcpConnection ∧ c.boot ≠ .done ∧ c'.boot = .done) →
      c'.window = c.window.startReceive → c'.arrived = c.arrived → Silent c.log c'.log →
      Hop cfg c c' ls [.reading c.nextRead]
  | read {r : Read} {data : List Byte} {sender : Address} : c.live r.conn = true →
      data.length ≤ r.room → data ≠ [] →
      c'.window = { c.window with recvBuffer := poke c.window.recvBuffer r.offset data } →
      c'.arrived = c.arrived ++ [⟨r.conn,data,sender⟩] → c'.log = c.log →
      Hop cfg c c' [.reading r] [.received (.ok data.length)]
  | failed {r : Read} {ec : ErrorCode} : c'.window = c.window → c'.arrived = c.arrived →
      c'.log = c.log → Hop cfg c c' [.reading r] [.received (.error ec)]
  | taken {n : Nat} : 0 < n → c'.window = { c.window with activeBytes := c.window.activeBytes+n } →
      c'.arrived = c.arrived → c'.log = c.log → Hop cfg c c' [.received (.ok n)] [.scanning 0]
  | dropped {result : Except ErrorCode Nat} : (∀ n, result = .ok n → n = 0) →
      c'.window = c.window → c'.arrived = c.arrived → c'.log = c.log →
      Hop cfg c c' [.received result] []
  | message {k n owner : Nat} {bytes : List Byte} : c.window.scan cfg.framing k = .message n →
      bytes.length = (c.window.span k n).length → c'.window = c.window.scribble k bytes →
      c'.arrived = c.arrived → c'.log = c.log ++ [(c.now,.callback owner (c.window.span k n) none)] →
      Hop cfg c c' [.scanning k] [.scanning (k+n)]
  | unheard {k n : Nat} : cfg.onRecv = none → c.window.scan cfg.framing k = .message n →
      c'.window = c.window → c'.arrived = c.arrived → c'.log = c.log →
      Hop cfg c c' [.scanning k] [.scanning (k+n)]
  | stopped {k : Nat} : c.window.scan cfg.framing k = .stop → c'.window = c.window.compact k →
      c'.arrived = c.arrived → c'.log = c.log → Hop cfg c c' [.scanning k] [.resuming]
  | broken {k : Nat} : c.window.scan cfg.framing k = .bad → c'.window = c.window →
      c'.arrived = c.arrived → c'.log = c.log → Hop cfg c c' [.scanning k] []

/-- The loop stands in one place or in none. -/
structure Steady (ls : List Link) : Prop where
  single : ls.length ≤ 1
  stream : .datagram ∉ ls

theorem Hop.steady {cfg : Config κ} {c c' : Core κ} {ls ls' : List Link} (h : Hop cfg c c' ls ls')
    (hs : Steady ls) : Steady ls' := by
  cases h with
  | skip => exact hs
  | dropped | broken => exact ⟨by simp, by simp⟩
  | connected | started | read | failed | taken | message | unheard | stopped =>
    exact ⟨by simp, by simp⟩

theorem links_calls (calls : List Call) : (calls.map Act.call).filterMap Act.link = [] := by
  simp [List.filterMap_map,Function.comp_def,Act.link]

section places
variable {c : Core κ} {ns : List Notice}

theorem links_eq_nil : c.links ns = [] ↔ c.reads = [] ∧ ns.filterMap Notice.link = [] ∧
    c.running.acts.filterMap Act.link = [] := by
  simp only [Core.links,List.append_eq_nil_iff,List.map_eq_nil_iff,and_assoc]

/-- The piece that runs next is the one place of the loop. -/
theorem Steady.head (h : Steady (c.links ns)) {a : Act} {rest : List Act} {l : Link}
    (hrun : c.running = .program (a :: rest)) (ha : a.link = some l) :
    c.links ns = [l] ∧ c.reads = [] ∧ ns.filterMap Notice.link = [] ∧ rest.filterMap Act.link = [] := by
  have hlinks : c.links ns = c.reads.map .reading ++ ns.filterMap Notice.link ++
      (l :: rest.filterMap Act.link) := by
    simp [Core.links,hrun,Running.acts,ha]
  have hone := h.single
  rw [hlinks] at hone
  simp only [List.length_append,List.length_map,List.length_cons] at hone
  have hreads : c.reads = [] := List.length_eq_zero_iff.mp (by omega)
  have hns : ns.filterMap Notice.link = [] := List.length_eq_zero_iff.mp (by omega)
  have hrest : rest.filterMap Act.link = [] := List.length_eq_zero_iff.mp (by omega)
  exact ⟨by rw [hlinks, hreads, hns, hrest]; rfl, hreads, hns, hrest⟩

/-- The handler that is taken up is the one place of the loop. -/
theorem Steady.front {n : Notice} (h : Steady (c.links (n :: ns))) {l : Link}
    (hrun : c.running = .program []) (hn : n.link = some l) :
    c.links (n :: ns) = [l] ∧ c.reads = [] ∧ ns.filterMap Notice.link = [] := by
  have hlinks : c.links (n :: ns) = c.reads.map .reading ++ (l :: ns.filterMap Notice.link) := by
    simp [Core.links,hrun,Running.acts,hn]
  have hone := h.single
  rw [hlinks] at hone
  simp only [List.length_append,List.length_map,List.length_cons] at hone
  have hreads : c.reads = [] := List.length_eq_zero_iff.mp (by omega)
  have hns : ns.filterMap Notice.link = [] := List.length_eq_zero_iff.mp (by omega)
  exact ⟨by rw [hlinks, hreads, hns]; rfl, hreads, hns⟩

/-- The outstanding read is the one place of the loop. -/
theorem Steady.outstanding (h : Steady (c.links ns)) {i : Nat} {r : Read}
    (hi : c.reads[i]? = some r) : c.links ns = [.reading r] ∧ c.reads.eraseIdx i = [] ∧
      ns.filterMap Notice.link = [] ∧ c.running.acts.filterMap Act.link = [] := by
  obtain ⟨hlt,hget⟩ := List.getElem?_eq_some_iff.mp hi
  have hone := h.single
  simp only [Core.links,List.length_append,List.length_map] at hone
  have hns : ns.filterMap Notice.link = [] := List.length_eq_zero_iff.mp (by omega)
  have hacts : c.running.acts.filterMap Act.link = [] := List.length_eq_zero_iff.mp (by omega)
  obtain ⟨r',hr'⟩ := List.length_eq_one_iff.mp (show c.reads.length = 1 by omega)
  have hr : r = r' := by
    have := List.mem_of_getElem? hi
    rwa [hr', List.mem_singleton] at this
  refine ⟨by rw [Core.links, hr', hns, hacts, hr]; rfl, List.length_eq_zero_iff.mp ?_, hns, hacts⟩
  rw [List.length_eraseIdx_of_lt hlt]
  omega

end places

section hops
variable {cfg : Config κ} {c : Core κ} {ns : List Notice}

/-- A piece that is no place of the loop. -/
theorem hop_skip {c' : Core κ} {a : Act} {rest : List Act} (hrun : c.running = .program (a :: rest))
    (ha : a.link = none) (hrun' : c'.running = .program rest) (hr : c'.reads = c.reads)
    (hw : c'.window = c.window) (harr : c'.arrived = c.arrived) (hlog : Silent c.log c'.log) :
    Hop cfg c c' (c.links ns) (c'.links ns) := by
  have hlinks : c'.links ns = c.links ns := by simp [Core.links,hrun,hrun',hr,Running.acts,ha]
  rw [hlinks]
  exact .skip hw harr hlog

theorem hop_perform (hk : cfg.kind ≠ .udpEndpoint) (h : Steady (c.links ns)) {a : Act}
    {rest : List Act} (hrun : c.running = .program (a :: rest)) :
    Hop cfg c (c.perform cfg rest a) (c.links ns) ((c.perform cfg rest a).links ns) := by
  cases a with
  | scan owner k =>
    obtain ⟨hlinks,hreads,hns,hrest⟩ := h.head hrun rfl
    rw [hlinks]
    cases hscan : c.window.scan cfg.framing k with
    | bad =>
      simp only [Core.perform,hscan,Core.links,hreads,hns,Running.acts,List.filterMap_cons,Act.link,hrest,
        List.map_nil,List.append_nil]
      exact .broken hscan rfl rfl rfl
    | stop =>
      simp only [Core.perform,hscan,Core.links,hreads,hns,Running.acts,List.filterMap_cons,Act.link,hrest,
        List.map_nil,List.nil_append]
      exact .stopped hscan rfl rfl rfl
    | message n =>
      cases hcb : cfg.onRecv with
      | none =>
        simp only [Core.perform,hscan,Core.deliver,hcb,Core.links,hreads,hns,Running.acts,
          List.filterMap_cons,Act.link,hrest,List.map_nil,List.nil_append]
        exact .unheard hcb hscan rfl rfl rfl
      | some callback =>
        simp only [Core.perform,hscan,Core.deliver,hcb,Core.emit,Core.links,hreads,hns,Running.acts,
          List.filterMap_append,links_calls,List.filterMap_cons,Act.link,hrest,List.map_nil,
          List.nil_append]
        exact .message hscan (callback c.user (c.window.span k n) none).span_length rfl rfl rfl
  | datagram owner n =>
    obtain ⟨hlinks,-,-,-⟩ := h.head hrun rfl
    exact absurd (by rw [hlinks]; exact List.mem_cons_self) h.stream
  | startReceive owner =>
    obtain ⟨hlinks,hreads,hns,hrest⟩ := h.head hrun rfl
    rw [hlinks]
    simp only [Core.perform,startReceive_tcp hk,Core.emit,Core.links,hreads,hns,hrest,Running.acts,
      List.nil_append,List.append_nil,List.map_cons,List.map_nil]
    exact .started (.inl rfl) rfl rfl (.single _ _ rfl rfl)
  | call k =>
    cases k with
    | send request => exact hop_skip hrun rfl rfl rfl rfl rfl (.refl _)
    | close =>
      have hlog := closeBody_silent cfg { c with running := .program rest }
      obtain ⟨_,_,_,_,hshape⟩ := Core.closeBody_shape cfg { c with running := .program rest }
      simp only [Core.perform,hshape] at hlog ⊢
      exact hop_skip hrun rfl rfl rfl rfl rfl hlog
  | resetReadTimeout owner =>
    have hlog := resetReadTimeout_silent cfg { c with running := .program rest } owner
    obtain ⟨_,_,_,hshape⟩ := Core.resetReadTimeout_shape cfg { c with running := .program rest } owner
    simp only [Core.perform,hshape] at hlog ⊢
    exact hop_skip hrun rfl rfl rfl rfl rfl hlog
  | close =>
    have hlog := closeBody_silent cfg { c with running := .program rest }
    obtain ⟨_,_,_,_,hshape⟩ := Core.closeBody_shape cfg { c with running := .program rest }
    simp only [Core.perform,hshape] at hlog ⊢
    exact hop_skip hrun rfl rfl rfl rfl rfl hlog

/-- A handler that is no place of the loop and starts with none. -/
theorem hop_other {c' : Core κ} {n : Notice} (hrun : c.running = .program []) (hn : n.link = none)
    (hacts : c'.running.acts.filterMap Act.link = []) (hr : c'.reads = c.reads)
    (hw : c'.window = c.window) (harr : c'.arrived = c.arrived) (hlog : c'.log = c.log) :
    Hop cfg c c' (c.links (n :: ns)) (c'.links ns) := by
  have hnil : c.running.acts = [] := by rw [hrun]; rfl
  have hlinks : c'.links ns = c.links (n :: ns) := by
    simp only [Core.links,hacts,hr,hnil,List.filterMap_nil,List.filterMap_cons,hn]
  rw [hlinks]
  exact .skip hw harr (hlog ▸ .refl _)

theorem hop_received (hk : cfg.kind ≠ .udpEndpoint) {r : Read} {result : Except ErrorCode Nat}
    (h : Steady (c.links (.received r result :: ns))) (hrun : c.running = .program []) :
    Hop cfg c (c.onReceived cfg r result) (c.links (.received r result :: ns))
      ((c.onReceived cfg r result).links ns) := by
  obtain ⟨hlinks,hreads,hns⟩ := h.front hrun rfl
  rw [hlinks]
  have hclose : (∀ n, result = .ok n → n = 0) →
      c.onReceived cfg r result = { c with running := .program [.close] } →
      Hop cfg c (c.onReceived cfg r result) [.received result] ((c.onReceived cfg r result).links ns) := by
    intro hzero heq
    simp only [heq,Core.links,hreads,hns,Running.acts,List.filterMap_cons,List.filterMap_nil,Act.link,
      List.map_nil,List.nil_append]
    exact .dropped hzero rfl rfl rfl
  cases result with
  | error ec =>
    refine hclose (by simp) ?_
    cases hkind : cfg.kind with
    | udpEndpoint => exact absurd hkind hk
    | tcpConnection | tcpClient => simp [Core.onReceived,hkind]
  | ok n =>
    by_cases hpos : 0 < n
    · have heq : c.onReceived cfg r (.ok n) =
          { c with
            window := { c.window with activeBytes := c.window.activeBytes+n }
            running := .program [.scan r.conn 0] } := by
        cases hkind : cfg.kind with
        | udpEndpoint => exact absurd hkind hk
        | tcpConnection | tcpClient => simp [Core.onReceived,hkind,hpos]
      simp only [heq,Core.links,hreads,hns,Running.acts,List.filterMap_cons,List.filterMap_nil,Act.link,
        List.map_nil,List.nil_append]
      exact .taken hpos rfl rfl rfl
    · refine hclose (by simp only [Except.ok.injEq]; omega) ?_
      cases hkind : cfg.kind with
      | udpEndpoint => exact absurd hkind hk
      | tcpConnection | tcpClient => simp [Core.onReceived,hkind,hpos]

theorem hop_connected (hk : cfg.kind = .tcpClient) {a : Connecting} {failed reopened : Bool}
    (hrun : c.running = .program [])
    (hnone : connections (c.onConnected cfg a failed reopened).log ≠ connections c.log →
      c.links (.connected a failed reopened :: ns) = []) :
    Hop cfg c (c.onConnected cfg a failed reopened) (c.links (.connected a failed reopened :: ns))
      ((c.onConnected cfg a failed reopened).links ns) := by
  revert hnone
  unfold Core.onConnected
  split
  · intro hnone
    have hnil := hnone (by simp [Core.emit,connections_append,Obs.connection])
    obtain ⟨hreads,hns,-⟩ := links_eq_nil.mp hnil
    simp only [List.filterMap_cons,Notice.link] at hns
    rw [hnil]
    simp only [Core.links,Core.emit,hreads,hns,Running.acts,List.filterMap_append,links_calls,
      List.filterMap_cons,List.filterMap_nil,Act.link,List.map_nil,List.nil_append]
    exact .connected hk rfl rfl rfl
  · intro _
    split
    · refine hop_other hrun rfl ?_ rfl rfl rfl rfl
      simp [Core.reopen,hrun,Running.acts]
    · exact hop_other hrun rfl (links_calls _) rfl rfl rfl rfl

theorem hop_read (hk : cfg.kind ≠ .udpEndpoint) (h : Steady (c.links ns)) {c' : Core κ} {n : Notice}
    {i : Nat} {data : List Byte} {sender : Address} (hx : c.read cfg i data sender = some (c',n)) :
    Hop cfg c c' (c.links ns) (c'.links (ns ++ [n])) := by
  obtain ⟨r,hi,hlive,hlen,hne,hx⟩ := Core.read_eq_some.mp hx
  obtain ⟨rfl,rfl⟩ := Prod.mk.inj hx
  obtain ⟨hlinks,hreads,hns,hacts⟩ := h.outstanding hi
  rw [hlinks]
  simp only [Core.links,hreads,hns,hacts,List.filterMap_append,List.filterMap_cons,List.filterMap_nil,
    Notice.link,List.map_nil,List.nil_append,List.append_nil]
  exact .read hlive hlen (hne.resolve_left hk) rfl rfl rfl

theorem hop_readFail (h : Steady (c.links ns)) {c' : Core κ} {n : Notice} {i : Nat} {ec : ErrorCode}
    (hx : c.readFail i ec = some (c',n)) : Hop cfg c c' (c.links ns) (c'.links (ns ++ [n])) := by
  obtain ⟨r,hi,-,hx⟩ := Core.readFail_eq_some.mp hx
  obtain ⟨rfl,rfl⟩ := Prod.mk.inj hx
  obtain ⟨hlinks,hreads,hns,hacts⟩ := h.outstanding hi
  rw [hlinks]
  simp only [Core.links,hreads,hns,hacts,List.filterMap_append,List.filterMap_cons,List.filterMap_nil,
    Notice.link,List.map_nil,List.nil_append,List.append_nil]
  exact .failed rfl rfl rfl

theorem hop_start (hk : cfg.kind ≠ .udpEndpoint) {c' : Core κ}
    (hboot : cfg.kind = .tcpConnection → c.boot ≠ .done → c.links ns = []) (hc : c.start cfg = some c') :
    Hop cfg c c' (c.links ns) (c'.links ns) := by
  unfold Core.start at hc
  split at hc
  · simp only [Option.some.injEq] at hc
    subst hc
    have hlog := resetReadTimeout_silent cfg { c with boot := .startReceive } c.socket.conn
    obtain ⟨_,_,_,hshape⟩ := Core.resetReadTimeout_shape cfg { c with boot := .startReceive } c.socket.conn
    rw [hshape] at hlog ⊢
    exact .skip rfl rfl hlog
  · rename_i hkind hb
    simp only [Option.some.injEq] at hc
    subst hc
    have hnil := hboot hkind (by simp [hb])
    obtain ⟨hreads,hns,hacts⟩ := links_eq_nil.mp hnil
    rw [hnil, startReceive_tcp hk]
    simp only [Core.links,Core.emit,hreads,hns,hacts,List.nil_append,List.append_nil,List.map_cons,
      List.map_nil]
    exact .started (.inr ⟨rfl,hkind,by simp [hb],rfl⟩) rfl rfl (.single _ _ rfl rfl)
  · rename_i hkind
    exact absurd hkind hk
  · simp at hc

/-- A completion handler other than that of a read is posted. -/
theorem links_posted (c : Core κ) (ns : List Notice) {n : Notice} (hn : n.link = none) :
    c.links (ns ++ [n]) = c.links ns := by
  simp only [Core.links,List.filterMap_append,List.filterMap_cons,List.filterMap_nil,hn,List.append_nil]

/-- A step of a TCP endpoint whose loop is started only where there is none. -/
theorem Move.hop (hk : cfg.kind ≠ .udpEndpoint) {c' : Core κ} {ns' : List Notice} {e : Event τ}
    (hm : Move cfg c ns e c' ns') (h : Steady (c.links ns))
    (hun : cfg.kind ≠ .tcpClient → Unconnected c.connects ns)
    (hboot : cfg.kind = .tcpConnection → c.boot ≠ .done → c.links ns = [])
    (hconn : cfg.kind = .tcpClient → connections c'.log ≠ connections c.log → c.links ns = []) :
    Hop cfg c c' (c.links ns) (c'.links ns') := by
  cases hm with
  | stay | tick => exact .skip rfl rfl (.refl _)
  | close =>
    rw [links_posted c ns rfl]
    exact .skip rfl rfl (.refl _)
  | connect hc =>
    obtain ⟨_,_,rfl⟩ := Core.connect_shape hc
    exact .skip rfl rfl (.refl _)
  | setup hc => simp [Core.setup,hk] at hc
  | start hc => exact hop_start hk hboot hc
  | @handle n ns hrun =>
    cases n with
    | received r result => exact hop_received hk h hrun
    | expired w aborted =>
      simp only [Core.handle]
      split
      · exact hop_other hrun rfl (by simp [hrun,Running.acts]) rfl rfl rfl rfl
      · exact hop_other hrun rfl rfl rfl rfl rfl rfl
    | connected a failed reopened =>
      by_cases hclient : cfg.kind = .tcpClient
      · exact hop_connected hclient hrun (hconn hclient)
      · exact absurd List.mem_cons_self ((hun hclient).notices a failed reopened)
    | close => exact hop_other hrun rfl rfl rfl rfl rfl rfl
  | @wrote _ left failed hrun =>
    have hlinks : Core.links { c with running := .releasing left failed } ns = c.links ns := by
      simp only [Core.links,hrun,Running.acts]
    rw [hlinks]
    exact .skip rfl rfl (.refl _)
  | @release _ left failed _ hrun =>
    have hlinks : Core.links { c with running := .releasing left failed } ns = c.links ns := by
      simp only [Core.links,hrun,Running.acts]
    rw [hlinks]
    exact .skip rfl rfl (.refl _)
  | finish hrun =>
    have hlinks : Core.links { c with running := .program [] } ns = c.links ns := by
      simp only [Core.links,hrun,Running.acts]
    rw [hlinks]
    exact .skip rfl rfl (.refl _)
  | fail hrun =>
    have hlog := closeBody_silent cfg { c with running := .program [] }
    obtain ⟨_,_,_,_,hshape⟩ := Core.closeBody_shape cfg { c with running := .program [] }
    rw [hshape] at hlog ⊢
    have hlinks : Core.links { c with running := .program [] } ns = c.links ns := by
      simp only [Core.links,hrun,Running.acts]
    rw [← hlinks]
    exact .skip rfl rfl hlog
  | perform hrun => exact hop_perform hk h hrun
  | read hx => exact hop_read hk h hx
  | readFail hx => exact hop_readFail h hx
  | expire hx | abort hx =>
    obtain ⟨_,-,-,-,hx⟩ := Core.waitDone_eq_some.mp hx
    obtain ⟨rfl,rfl⟩ := Prod.mk.inj hx
    rw [links_posted _ ns rfl]
    exact .skip rfl rfl (.refl _)
  | connectDone hx =>
    obtain ⟨_,-,-,hx⟩ := Core.connectDone_eq_some.mp hx
    obtain ⟨rfl,rfl⟩ := Prod.mk.inj hx
    rw [links_posted _ ns rfl]
    exact .skip rfl rfl (.refl _)

end hops

/-- The loop has been started: by `start` of an accepted connection, by the connect handler
of a client. -/
def Begun (kind : Kind) (c : Core κ) : Prop :=
  if kind = .tcpConnection then c.boot = .done else connections c.log ≠ []

/-- Once begun, the loop stays so. -/
theorem Begun.mono {kind : Kind} {c c' : Core κ} (h : Begun kind c)
    (hb : c.boot = .done → c'.boot = .done) (hl : c.log <+: c'.log) : Begun kind c' := by
  unfold Begun at h ⊢
  split
  · rename_i hk
    rw [if_pos hk] at h
    exact hb h
  · rename_i hk
    rw [if_neg hk] at h
    obtain ⟨l,hl⟩ := hl
    rw [← hl]
    intro hnil
    simp only [connections,List.filterMap_append,List.append_eq_nil_iff] at hnil
    exact h hnil.1

theorem Move.boot {cfg : Config κ} {c c' : Core κ} {ns ns' : List Notice} {e : Event τ}
    (hm : Move cfg c ns e c' ns') (h : c.boot = .done) : c'.boot = .done := by
  have hdone := hm.completed
  cases hm with
  | stay | close | wrote _ | release _ | finish _ | tick => exact h
  | connect hc =>
    obtain ⟨_,_,rfl⟩ := Core.connect_shape hc
    exact h
  | setup hc =>
    obtain ⟨_,rfl⟩ := Core.setup_shape hc
    exact h
  | start hc =>
    unfold Core.start at hc
    split at hc
    · rename_i hb
      simp [h] at hb
    · rename_i hb
      simp [h] at hb
    · obtain ⟨_,_,_,hshape⟩ := Core.startReceive_shape cfg { c with boot := .done } c.socket.conn
      rw [hshape, Option.some.injEq] at hc
      exact hc ▸ rfl
    · simp at hc
  | @handle n _ hrun =>
    obtain ⟨_,_,_,_,_,_,hshape⟩ := Core.handle_shape cfg c n hrun
    rw [hshape]
    exact h
  | fail _ =>
    obtain ⟨_,_,_,_,hshape⟩ := Core.closeBody_shape cfg { c with running := .program [] }
    rw [hshape]
    exact h
  | @perform _ a rest _ _ =>
    obtain ⟨_,_,_,_,_,_,_,_,hshape⟩ := Core.perform_shape cfg c rest a
    rw [hshape]
    exact h
  | read _ | readFail _ | expire _ | abort _ | connectDone _ =>
    obtain ⟨_,_,_,_,_,_,rfl⟩ := hdone rfl
    exact h

/-- The loop is begun where it takes its first place. -/
theorem Hop.begun {cfg : Config κ} {c c' : Core κ} {ls : List Link}
    (hh : Hop cfg c c' [] ls) (hne : ls ≠ []) : Begun cfg.kind c' := by
  cases hh with
  | skip => exact absurd rfl hne
  | connected hclient _ _ hl =>
    rw [Begun, if_neg (by simp [hclient]), hl, connections_append]
    simp [Obs.connection]
  | started hls _ _ _ =>
    rcases hls with hls | ⟨-,hkind,-,hboot⟩
    · simp at hls
    · rw [Begun, if_pos hkind]
      exact hboot

/-- What it takes to follow the loop: `Idle` holds before it begins, `At` where it stands, `Over`
when it is there no more. -/
structure LoopRule (cfg : Config κ) (Idle : Core κ → Prop) (At : Core κ → Link → Prop)
    (Over : Core κ → Prop) : Prop where
  initial : ∀ u, Idle (Core.initial cfg.kind u)
  skip : ∀ {c c' : Core κ}, Idle c → c'.window = c.window → c'.arrived = c.arrived →
    Silent c.log c'.log → Idle c'
  past : ∀ {c : Core κ}, Idle c → Over c
  hop : ∀ {c c' : Core κ} {ls ls' : List Link}, Hop cfg c c' ls ls' → (∀ l ∈ ls, At c l) →
    (ls = [] → ls' ≠ [] → Idle c) → ∀ l ∈ ls', At c' l
  ended : ∀ {c c' : Core κ} {ls : List Link}, Hop cfg c c' ls [] → (∀ l ∈ ls, At c l) →
    (ls = [] → Over c) → Over c'

structure Loops (kind : Kind) (Idle : Core κ → Prop) (At : Core κ → Link → Prop)
    (Over : Core κ → Prop) (c : Core κ) (ns : List Notice) : Prop where
  before : ¬ Begun kind c → c.links ns = [] ∧ Idle c
  steady : Steady (c.links ns)
  places : ∀ l ∈ c.links ns, At c l
  after : c.links ns = [] → Over c

theorem LoopRule.move {cfg : Config κ} {Idle : Core κ → Prop} {At : Core κ → Link → Prop}
    {Over : Core κ → Prop} (rule : LoopRule cfg Idle At Over) (hk : cfg.kind ≠ .udpEndpoint)
    {c c' : Core κ} {ns ns' : List Notice} {e : Event τ} (h : Loops cfg.kind Idle At Over c ns)
    (hun : cfg.kind ≠ .tcpClient → Unconnected c.connects ns)
    (honce : cfg.kind = .tcpClient → (connections c'.log).length ≤ 1) (hm : Move cfg c ns e c' ns') :
    Loops cfg.kind Idle At Over c' ns' := by
  have hboot : cfg.kind = .tcpConnection → c.boot ≠ .done → c.links ns = [] := by
    intro hkind hb
    exact (h.before (by rw [Begun, if_pos hkind]; exact hb)).1
  have hunbegun : cfg.kind = .tcpClient → connections c'.log ≠ connections c.log →
      ¬ Begun cfg.kind c := by
    intro hclient hconn
    rw [Begun, if_neg (by simp [hclient]), not_not]
    have hpre := connections_mono hm.log_extends
    by_contra hne
    have hpos := List.length_pos_of_ne_nil hne
    have hone := honce hclient
    have hle := hpre.length_le
    exact hconn (hpre.eq_of_length (by omega)).symm
  have hhop : Hop cfg c c' (c.links ns) (c'.links ns') :=
    hm.hop hk h.steady hun hboot (fun hclient hconn => (h.before (hunbegun hclient hconn)).1)
  have hbegun : ¬ Begun cfg.kind c' → ¬ Begun cfg.kind c :=
    fun hn hb => hn (hb.mono hm.boot hm.log_extends)
  have hstart : c.links ns = [] → c'.links ns' ≠ [] → Idle c := by
    intro hnil hne
    rw [hnil] at hhop
    refine (h.before ?_).2
    generalize c'.links ns' = ls at hhop hne
    cases hhop with
    | skip => exact absurd rfl hne
    | connected hclient _ _ hl =>
      refine hunbegun hclient ?_
      rw [hl, connections_append]
      simp [Obs.connection]
    | started hls _ _ _ =>
      rcases hls with hls | ⟨-,hkind,hb,-⟩
      · simp at hls
      · rw [Begun, if_pos hkind]
        exact hb
  refine ⟨fun hn => ?_, hhop.steady h.steady, rule.hop hhop h.places hstart, fun hnil' => ?_⟩
  · obtain ⟨hnil,hidle⟩ := h.before (hbegun hn)
    rw [hnil] at hhop
    have hnil' : c'.links ns' = [] := by
      by_contra hne
      exact hn (hhop.begun hne)
    rw [hnil'] at hhop
    refine ⟨hnil', ?_⟩
    cases hhop with
    | skip hw ha hl => exact rule.skip hidle hw ha hl
  · rw [hnil'] at hhop
    exact rule.ended hhop h.places h.after

/-- The loop of an accepted connection, or of a client that was connected at most once. -/
theorem LoopRule.reached [DecidableEq τ] {cfg : Config κ} {Idle : Core κ → Prop}
    {At : Core κ → Link → Prop} {Over : Core κ → Prop} (rule : LoopRule cfg Idle At Over)
    (hk : cfg.kind ≠ .udpEndpoint) {s : Endpoint κ τ} (h : Endpoint.Reached cfg s)
    (honce : cfg.kind = .tcpClient → (connections s.log).length ≤ 1) :
    Loops cfg.kind Idle At Over s.toCore s.notices := by
  induction h with
  | start hi =>
    obtain ⟨u,rfl⟩ := hi
    have hidle := rule.initial u
    exact ⟨fun _ => ⟨rfl,hidle⟩, ⟨Nat.zero_le _,List.not_mem_nil⟩, fun _ hl => absurd hl List.not_mem_nil,
      fun _ => rule.past hidle⟩
  | @next s t e hr _ hs ih =>
    have hmove := Endpoint.step_move hs
    have honce' : cfg.kind = .tcpClient → (connections s.log).length ≤ 1 := by
      intro hclient
      exact Nat.le_trans (connections_mono hmove.log_extends).length_le (honce hclient)
    exact rule.move hk (ih honce') (fun hc => Endpoint.Reached.unconnected hc hr) honce hmove

end Librim
