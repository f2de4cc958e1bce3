import Librim.Attempts
import Librim.TcpReceive

/-! A `TcpClient` that is connected again and again: which bytes and which messages belong to
which of its connections. -/

set_option autoImplicit false

namespace Librim

open SelfDelimiting

variable {κ τ : Type}

/-- The entries of the log from the connection on `conn` to the next one. -/
def during (conn : Nat) : List (Nat × Obs) → List (Nat × Obs)
  | [] => []
  | (_,o) :: log =>
    if o = .connected conn then log.takeWhile (·.2.connection.isNone) else during conn log

/-- What a client has seen of one connection. -/
def Core.part (c : Core κ) (conn : Nat) : Core κ :=
  { c with
    log := during conn c.log
    arrived := c.arrived.filter (·.conn == conn) }

theorem connections_cons (t : Nat) (o : Obs) (log : List (Nat × Obs)) :
    connections ((t,o) :: log) = o.connection.toList ++ connections log := by
  cases o <;> simp [connections,Obs.connection]

theorem connection_eq_some {o : Obs} {conn : Nat} : o.connection = some conn ↔ o = .connected conn := by
  cases o <;> simp [Obs.connection]

theorem takeWhile_of_unconnected {log : List (Nat × Obs)} (h : connections log = []) (os : List (Nat × Obs)) :
    (log ++ os).takeWhile (·.2.connection.isNone) = log ++ os.takeWhile (·.2.connection.isNone) := by
  refine List.takeWhile_append_of_pos (fun e he => ?_)
  have := List.filterMap_eq_nil_iff.mp h e he
  simp [this]

theorem takeWhile_eq_self {log : List (Nat × Obs)} (h : connections log = []) :
    log.takeWhile (·.2.connection.isNone) = log := by
  simpa using takeWhile_of_unconnected h []

theorem takeWhile_of_connected {log : List (Nat × Obs)} (h : connections log ≠ []) (os : List (Nat × Obs)) :
    (log ++ os).takeWhile (·.2.connection.isNone) = log.takeWhile (·.2.connection.isNone) := by
  induction log with
  | nil => exact absurd rfl h
  | cons e log ih =>
    obtain ⟨t,o⟩ := e
    cases ho : o.connection with
    | some conn => simp [ho]
    | none =>
      have hlog : connections log ≠ [] := by simpa [connections_cons,ho] using h
      simp [ho,ih hlog]

/-- The connection that was made last goes on with the log. -/
theorem during_last {conn : Nat} {log : List (Nat × Obs)} (hlast : (connections log).getLast? = some conn)
    (hnodup : (connections log).Nodup) (os : List (Nat × Obs)) :
    during conn (log ++ os) = during conn log ++ os.takeWhile (·.2.connection.isNone) := by
  induction log with
  | nil => simp [connections] at hlast
  | cons e log ih =>
    obtain ⟨t,o⟩ := e
    rw [connections_cons] at hlast hnodup
    simp only [List.cons_append,during]
    split
    · rename_i ho
      subst ho
      simp only [Obs.connection,Option.toList_some,List.singleton_append,List.nodup_cons] at hlast hnodup
      have hnone : connections log = [] := by
        by_contra hne
        rw [List.getLast?_cons_of_ne_nil hne] at hlast
        exact hnodup.1 (List.mem_of_getLast? hlast)
      rw [takeWhile_of_unconnected hnone, takeWhile_eq_self hnone]
    · rename_i ho
      have hne : connections log ≠ [] := by
        intro hnil
        simp only [hnil,List.append_nil] at hlast
        cases hc : o.connection with
        | none => simp [hc] at hlast
        | some conn' =>
          simp only [hc,Option.toList_some,List.getLast?_singleton,Option.some.injEq] at hlast
          exact ho (connection_eq_some.mp (hlast ▸ hc))
      rw [List.getLast?_append_of_ne_nil _ hne] at hlast
      exact ih hlast hnodup.of_append_right

/-- An earlier connection is over. -/
theorem during_earlier {conn : Nat} {log : List (Nat × Obs)} (hmem : conn ∈ connections log)
    (hlast : (connections log).getLast? ≠ some conn) (os : List (Nat × Obs)) :
    during conn (log ++ os) = during conn log := by
  induction log with
  | nil => simp [connections] at hmem
  | cons e log ih =>
    obtain ⟨t,o⟩ := e
    rw [connections_cons] at hlast hmem
    simp only [List.cons_append,during]
    split
    · rename_i ho
      subst ho
      refine takeWhile_of_connected (fun hnil => ?_) os
      simp [hnil,Obs.connection] at hlast
    · rename_i ho
      have hmem' : conn ∈ connections log := by
        rcases List.mem_append.mp hmem with hm | hm
        · exact absurd (connection_eq_some.mp (by simpa using hm)) ho
        · exact hm
      have hne : connections log ≠ [] := List.ne_nil_of_mem hmem'
      rw [List.getLast?_append_of_ne_nil _ hne] at hlast
      exact ih hmem' hlast

/-- A connection begins with an empty log. -/
theorem during_first {conn : Nat} {log : List (Nat × Obs)} (h : conn ∉ connections log) (t : Nat) :
    during conn (log ++ [(t,.connected conn)]) = [] := by
  induction log with
  | nil => simp [during]
  | cons e log ih =>
    obtain ⟨t',o⟩ := e
    rw [connections_cons, List.mem_append, not_or] at h
    have ho : o ≠ .connected conn := by
      rintro rfl
      simp [Obs.connection] at h
    simp [during,ho,ih h.2]

section parts
variable {cfg : Config κ} {c c' : Core κ} {ns ns' : List Notice} {ls ls' : List Link} {conn : Nat}

/-- Where no connection is made the loop of a client is not started. -/
theorem Hop.still (hk : cfg.kind = .tcpClient) (h : Hop cfg c c' [] ls)
    (hmade : connections c'.log = connections c.log) :
    ls = [] ∧ c'.window = c.window ∧ c'.arrived = c.arrived := by
  cases h with
  | skip hw ha _ => exact ⟨rfl,hw,ha⟩
  | connected _ _ _ hl => simp [hl,connections_append,Obs.connection] at hmade
  | started hls _ _ _ => simp [hk] at hls

theorem Hop.arrived (h : Hop cfg c c' ls ls') : c'.arrived = c.arrived ∨ ∃ r data sender,
    ls = [.reading r] ∧ c.live r.conn = true ∧ c'.arrived = c.arrived ++ [⟨r.conn,data,sender⟩] := by
  cases h with
  | read hlive _ _ _ ha _ => exact .inr ⟨_,_,_,rfl,hlive,ha⟩
  | skip _ ha _ | connected _ _ ha _ | started _ _ ha _ | failed _ ha _ | taken _ _ ha _ | dropped _ _ ha _
  | message _ _ _ ha _ | unheard _ _ _ ha _ | stopped _ _ ha _ | broken _ _ ha _ => exact .inl ha

/-- The loop as the connection that was made last sees it. -/
theorem Hop.part (h : Hop cfg c c' ls ls') (hlast : (connections c.log).getLast? = some conn)
    (hnodup : (connections c.log).Nodup) (hmade : connections c'.log = connections c.log)
    (hread : ∀ r, ls = [.reading r] → c.live r.conn = true → r.conn = conn) :
    Hop cfg (c.part conn) (c'.part conn) ls ls' := by
  have harr : c'.arrived = c.arrived → (c'.part conn).arrived = (c.part conn).arrived := by
    intro ha
    simp only [Core.part,ha]
  have hsame : c'.log = c.log → (c'.part conn).log = (c.part conn).log := by
    intro hl
    simp only [Core.part,hl]
  have hsilent : Silent c.log c'.log → Silent (c.part conn).log (c'.part conn).log := by
    rintro ⟨os,hos,hquiet⟩
    refine ⟨os, ?_, hquiet⟩
    have hnone : connections os = [] := List.filterMap_eq_nil_iff.mpr (fun o ho => (hquiet o ho).2)
    simp only [Core.part,hos,during_last hlast hnodup,takeWhile_eq_self hnone]
  cases h with
  | skip hw ha hl => exact .skip hw (harr ha) (hsilent hl)
  | connected _ _ _ hl => simp [hl,connections_append,Obs.connection] at hmade
  | started hls hw ha hl => exact .started hls hw (harr ha) (hsilent hl)
  | @read r data sender hlive hlen hne hw ha hl =>
    refine @Hop.read _ _ _ _ r data sender hlive hlen hne hw ?_ (hsame hl)
    simp [Core.part,ha,hread r rfl hlive]
  | failed hw ha hl => exact .failed hw (harr ha) (hsame hl)
  | taken hpos hw ha hl => exact .taken hpos hw (harr ha) (hsame hl)
  | dropped hzero hw ha hl => exact .dropped hzero hw (harr ha) (hsame hl)
  | @message k n owner bytes hscan hbytes hw ha hl =>
    have hlog : (c'.part conn).log =
        (c.part conn).log ++ [(c.now,.callback owner (c.window.span k n) none)] := by
      simp only [Core.part,hl,during_last hlast hnodup]
      simp [Obs.connection]
    exact .message hscan hbytes hw (harr ha) hlog
  | unheard hnone hscan hw ha hl => exact .unheard hnone hscan hw (harr ha) (hsame hl)
  | stopped hscan hw ha hl => exact .stopped hscan hw (harr ha) (hsame hl)
  | broken hscan hw ha hl => exact .broken hscan hw (harr ha) (hsame hl)

/-- Nothing of an earlier connection changes. -/
theorem part_earlier (h : Hop cfg c c' ls ls') (hlog : c.log <+: c'.log) (hmem : conn ∈ connections c.log)
    (hlast : (connections c.log).getLast? ≠ some conn)
    (hread : ∀ r, ls = [.reading r] → c.live r.conn = true → (connections c.log).getLast? = some r.conn) :
    (c'.part conn).log = (c.part conn).log ∧ (c'.part conn).arrived = (c.part conn).arrived := by
  obtain ⟨os,hos⟩ := hlog
  refine ⟨by simp only [Core.part,← hos,during_earlier hmem hlast], ?_⟩
  rcases h.arrived with ha | ⟨r,data,sender,hls,hlive,ha⟩
  · simp only [Core.part,ha]
  · have hne : r.conn ≠ conn := by
      rintro rfl
      exact hlast (hread r hls hlive)
    simp [Core.part,ha,hne]

/-- Of each connection, the callbacks made are those of the parse of its bytes. -/
structure Parts (f : Framing) (c : Core κ) (ns : List Notice) : Prop where
  places : ∀ conn, (connections c.log).getLast? = some conn → ∀ l ∈ c.links ns, l.Holds f (c.part conn)
  past : ∀ conn ∈ connections c.log, c.links ns = [] ∨ (connections c.log).getLast? ≠ some conn →
    callbacks (c.part conn).log = (parse f.cut (c.part conn).stream).messages

theorem Parts.hop (hk : cfg.kind = .tcpClient) (hf : 1 ≤ cfg.framing.headerSize)
    (hcb : cfg.onRecv.isSome = true) (h : Parts cfg.framing c ns)
    (hh : Hop cfg c c' (c.links ns) (c'.links ns')) (hlog : c.log <+: c'.log)
    (hnodup : (connections c.log).Nodup) (hmade : connections c'.log = connections c.log)
    (hread : ∀ r, c.links ns = [.reading r] → c.live r.conn = true →
      (connections c.log).getLast? = some r.conn) : Parts cfg.framing c' ns' := by
  have hpart : ∀ conn, (connections c.log).getLast? = some conn →
      Hop cfg (c.part conn) (c'.part conn) (c.links ns) (c'.links ns') := by
    intro conn hlast
    refine hh.part hlast hnodup hmade (fun r hr hlive => ?_)
    exact Option.some.inj ((hread r hr hlive).symm.trans hlast)
  refine ⟨fun conn hlast => ?_, fun conn hmem hover => ?_⟩
  · rw [hmade] at hlast
    refine Link.Holds.hop hf hcb (hpart conn hlast) (h.places conn hlast) (fun hnil hne => ?_)
    rw [hnil] at hh
    exact absurd (hh.still hk hmade).1 hne
  · rw [hmade] at hmem hover
    by_cases hlast : (connections c.log).getLast? = some conn
    · have hnil' : c'.links ns' = [] := hover.resolve_right (fun hne => hne hlast)
      have hhop := hpart conn hlast
      rw [hnil'] at hhop
      exact hhop.after (h.places conn hlast) (fun hnil => h.past conn hmem (.inl hnil))
    · obtain ⟨hl,ha⟩ := part_earlier hh hlog hmem hlast hread
      rw [Core.stream, hl, ha]
      exact h.past conn hmem (.inr hlast)

end parts

/-- The handler of an attempt that has succeeded, or that goes on to another endpoint. -/
def Notice.pending : Notice → Bool
  | .connected a failed _ => !failed || 0 < a.more
  | _ => false

/-- Attempts that can still make a connection or open the socket once more. -/
def Core.pending (c : Core κ) (ns : List Notice) : Nat :=
  c.connects.countP (fun a => 0 < a.more || a.conn == c.socket.conn) + ns.countP Notice.pending

/-- The socket while it is open: until its one attempt is through nothing was received on it, and
the loop, once started, reads from it. -/
structure Renewed (c : Core κ) (ns : List Notice) : Prop where
  arrivals : ∀ x ∈ c.arrived, x.conn ≤ c.socket.conn
  attempts : ∀ a ∈ c.connects, a.conn ≤ c.socket.conn
  made : ∀ conn ∈ connections c.log, conn ≤ c.socket.conn
  nodup : (connections c.log).Nodup
  single : c.socket.isOpen = true → c.pending ns ≤ 1
  unused : c.socket.isOpen = true → c.pending ns ≠ 0 → c.links ns = [] ∧ c.window.activeBytes = 0 ∧
    c.socket.conn ∉ connections c.log ∧ ∀ x ∈ c.arrived, x.conn ≠ c.socket.conn
  bound : c.socket.isOpen = true → c.links ns ≠ [] →
    (connections c.log).getLast? = some c.socket.conn

/-- Neither the loop nor an attempt is left of an earlier connection. -/
structure Bare (c : Core κ) (ns : List Notice) : Prop where
  links : c.links ns = []
  bytes : c.window.activeBytes = 0
  connects : ∀ a ∈ c.connects, a.more = 0
  connected : ∀ a failed reopened, .connected a failed reopened ∈ ns → failed = true ∧ a.more = 0

section renewed
variable {cfg : Config κ} {c c' : Core κ} {ns ns' : List Notice}

theorem Calm.pending (h : Calm c ns c' ns') : c'.pending ns' = c.pending ns := by
  have hcount : ∀ ns : List Notice, ns.countP Notice.pending =
      (ns.filter Notice.isConnected).countP Notice.pending := by
    intro ns
    rw [List.countP_filter]
    congr 1
    funext n
    cases n <;> simp [Notice.pending,Notice.isConnected]
  rw [Core.pending, Core.pending, h.connects, h.conn, hcount ns', hcount ns, h.notices]

/-- An attempt that is over can do no more than it could before. -/
theorem pending_done {a : Connecting} {i : Nat} {failed : Bool} (ha : c.connects[i]? = some a)
    (hlive : failed = true ∨ c.live a.conn = true) (reopened : Bool) :
    Core.pending { c with connects := c.connects.eraseIdx i } (ns ++ [.connected a failed reopened]) ≤
      c.pending ns := by
  obtain ⟨hlt,rfl⟩ := List.getElem?_eq_some_iff.mp ha
  have hperm := (List.getElem_cons_eraseIdx_perm hlt).countP_eq
    (fun a => 0 < a.more || a.conn == c.socket.conn)
  have hkept : Notice.pending (.connected c.connects[i] failed reopened) = true →
      (0 < c.connects[i].more || c.connects[i].conn == c.socket.conn) = true := by
    intro hp
    simp only [Notice.pending,Core.live,Bool.or_eq_true,Bool.not_eq_true',Bool.and_eq_true,beq_iff_eq,
      decide_eq_true_eq] at hp hlive ⊢
    rcases hp with rfl | hp
    · exact .inr (hlive.resolve_left (by simp)).2.symm
    · exact .inl hp
  simp only [Core.pending,List.countP_append,List.countP_singleton]
  rw [List.countP_cons] at hperm
  split
  · rename_i hp
    rw [if_pos (hkept hp)] at hperm
    omega
  · omega

theorem Renewed.calm (hk : cfg.kind = .tcpClient) (h : Renewed c ns) (hcalm : Calm c ns c' ns')
    (hh : Hop cfg c c' (c.links ns) (c'.links ns')) : Renewed c' ns' where
  arrivals := by
    rw [hcalm.conn]
    rcases hh.arrived with ha | ⟨r,data,sender,-,hlive,ha⟩
    · exact ha ▸ h.arrivals
    · simp only [Core.live,Bool.and_eq_true,beq_iff_eq] at hlive
      intro x hx
      rw [ha] at hx
      rcases List.mem_append.mp hx with hx | hx
      · exact h.arrivals x hx
      · rw [List.mem_singleton.mp hx]
        exact hlive.2.ge
  attempts := by rw [hcalm.connects, hcalm.conn]; exact h.attempts
  made := by rw [hcalm.made, hcalm.conn]; exact h.made
  nodup := by rw [hcalm.made]; exact h.nodup
  single := by
    intro hopen
    rw [hcalm.pending]
    exact h.single (hcalm.isOpen hopen)
  unused := by
    intro hopen hpending
    rw [hcalm.pending] at hpending
    obtain ⟨hlinks,hbytes,hmade,harr⟩ := h.unused (hcalm.isOpen hopen) hpending
    rw [hlinks] at hh
    obtain ⟨hlinks',hw,ha⟩ := hh.still hk hcalm.made
    rw [hw, hcalm.made, hcalm.conn, ha]
    exact ⟨hlinks',hbytes,hmade,harr⟩
  bound := by
    intro hopen hne
    rw [hcalm.made, hcalm.conn]
    refine h.bound (hcalm.isOpen hopen) (fun hnil => hne ?_)
    rw [hnil] at hh
    exact (hh.still hk hcalm.made).1

/-- The loop stays where it is, and no attempt is begun on an open socket. -/
theorem Renewed.lessen (h : Renewed c ns) (ha : c'.arrived = c.arrived) (hw : c'.window = c.window)
    (hl : c'.log = c.log) (hconn : c'.socket.conn = c.socket.conn) (hlinks : c'.links ns' = c.links ns)
    (hattempts : ∀ a ∈ c'.connects, a.conn ≤ c.socket.conn)
    (hopen : c'.socket.isOpen = true → c.socket.isOpen = true ∧ c'.pending ns' ≤ c.pending ns) :
    Renewed c' ns' where
  arrivals := by rw [ha, hconn]; exact h.arrivals
  attempts := by rw [hconn]; exact hattempts
  made := by rw [hl, hconn]; exact h.made
  nodup := by rw [hl]; exact h.nodup
  single := fun ho => Nat.le_trans (hopen ho).2 (h.single (hopen ho).1)
  unused := by
    intro ho hpending
    have hle := (hopen ho).2
    rw [hlinks, hw, hl, hconn, ha]
    exact h.unused (hopen ho).1 (by omega)
  bound := by
    intro ho
    rw [hlinks, hl, hconn]
    exact h.bound (hopen ho).1

/-- The socket is closed, and opened again if the client is bare. -/
theorem Renewed.reopen (h : Renewed c ns) {opened : Bool} (hbare : opened = true → Bare c ns') (more : Nat)
    (hlinks : c.links ns' = c.links ns) : Renewed (c.reopen opened more) ns' := by
  cases opened with
  | false =>
    refine h.lessen rfl rfl rfl rfl hlinks (fun a ha => ?_) (by simp [Core.reopen,Socket.close])
    rcases List.mem_append.mp ha with ha | ha
    · exact h.attempts a ha
    · rw [List.mem_singleton.mp ha]
      exact Nat.le_refl _
  | true =>
    have hbare := hbare rfl
    have hpending : (c.reopen true more).pending ns' = 1 := by
      have hconnects : c.connects.countP (fun a => 0 < a.more || a.conn == c.socket.conn+1) = 0 := by
        rw [List.countP_eq_zero]
        intro a ha
        have hle := h.attempts a ha
        have hmore := hbare.connects a ha
        simp [hmore]
        omega
      have hnotices : ns'.countP Notice.pending = 0 := by
        rw [List.countP_eq_zero]
        intro n hn
        cases n with
        | connected a failed reopened =>
          obtain ⟨rfl,hmore⟩ := hbare.connected a failed reopened hn
          simp [Notice.pending,hmore]
        | _ => simp [Notice.pending]
      simp [Core.pending,Core.reopen,Socket.reopen,Socket.close,hconnects,hnotices]
    refine ⟨?_, ?_, ?_, h.nodup, fun _ => hpending.le, fun _ _ => ⟨hbare.links, hbare.bytes, ?_, ?_⟩, ?_⟩
    · intro x hx
      exact Nat.le_succ_of_le (h.arrivals x hx)
    · intro a ha
      rcases List.mem_append.mp ha with ha | ha
      · exact Nat.le_succ_of_le (h.attempts a ha)
      · rw [List.mem_singleton.mp ha]
        exact Nat.le_refl _
    · intro conn hc
      exact Nat.le_succ_of_le (h.made conn hc)
    · intro hc
      exact absurd (h.made _ hc) (Nat.not_succ_le_self _)
    · intro x hx hc
      have hle := h.arrivals x hx
      rw [hc] at hle
      exact absurd hle (Nat.not_succ_le_self _)
    · intro _ hne
      exact absurd hbare.links hne

/-- A connection is made on the socket. -/
theorem Renewed.connected {a : Connecting} {reopened : Bool}
    (h : Renewed c (.connected a false reopened :: ns)) (hopen : c.socket.isOpen = true)
    (ha : c'.arrived = c.arrived) (hc : c'.connects = c.connects) (hconn : c'.socket.conn = c.socket.conn)
    (hl : c'.log = c.log ++ [(c.now,.connected c.socket.conn)]) : Renewed c' ns := by
  have hpending : c.pending (.connected a false reopened :: ns) = c'.pending ns + 1 := by
    simp only [Core.pending,hc,hconn,List.countP_cons,Notice.pending,Bool.not_false,Bool.true_or,↓reduceIte]
    omega
  have hzero : c'.pending ns = 0 := by
    have := h.single hopen
    omega
  obtain ⟨-,-,hfresh,-⟩ := h.unused hopen (by omega)
  have hmade : connections c'.log = connections c.log ++ [c.socket.conn] := by
    rw [hl, connections_append]
    rfl
  refine ⟨?_, ?_, ?_, ?_, fun _ => by omega, fun _ hne => absurd hzero hne, fun _ _ => ?_⟩
  · rw [ha, hconn]
    exact h.arrivals
  · rw [hc, hconn]
    exact h.attempts
  · rw [hmade, hconn]
    intro conn hm
    rcases List.mem_append.mp hm with hm | hm
    · exact h.made conn hm
    · exact (List.mem_singleton.mp hm).le
  · rw [hmade]
    exact List.nodup_append.mpr ⟨h.nodup, by simp, fun x hx y hy hxy => by
      rw [List.mem_singleton.mp hy] at hxy
      exact hfresh (hxy ▸ hx)⟩
  · rw [hmade, hconn, List.getLast?_concat]

end renewed

/-- A handler other than that of a read is taken up. -/
theorem links_taken (c : Core κ) {ns : List Notice} {n : Notice} (hn : n.link = none) :
    c.links (n :: ns) = c.links ns := by
  simp only [Core.links,List.filterMap_cons,hn]

/-- What holds of a client that is bare whenever it opens its socket. -/
structure Isolated (f : Framing) (c : Core κ) (ns : List Notice) : Prop where
  steady : Steady (c.links ns)
  renewed : Renewed c ns
  parts : Parts f c ns

section isolated
variable {cfg : Config κ} {c c' : Core κ} {ns ns' : List Notice}

/-- The new connection starts with an empty window, and those before it are over. -/
theorem Parts.connected (hf : 1 ≤ cfg.framing.headerSize) (h : Parts cfg.framing c ns)
    (hlinks : c.links ns = []) (hlinks' : c'.links ns' = [.resuming]) (hnodup : (connections c.log).Nodup)
    (hbytes : c.window.activeBytes = 0) (hfresh : c.socket.conn ∉ connections c.log)
    (hnone : ∀ x ∈ c.arrived, x.conn ≠ c.socket.conn) (ha : c'.arrived = c.arrived)
    (hw : c'.window = c.window) (hl : c'.log = c.log ++ [(c.now,.connected c.socket.conn)]) :
    Parts cfg.framing c' ns' := by
  have hmade : connections c'.log = connections c.log ++ [c.socket.conn] := by
    rw [hl, connections_append]
    rfl
  refine ⟨fun conn hlast l hmem => ?_, fun conn hmem hover => ?_⟩
  · rw [hmade, List.getLast?_concat, Option.some.injEq] at hlast
    subst hlast
    rw [hlinks', List.mem_singleton] at hmem
    subst hmem
    have hlog : (c'.part c.socket.conn).log = [] := by
      simp only [Core.part,hl]
      exact during_first hfresh c.now
    have hstream : (c'.part c.socket.conn).stream = [] := by
      have harr : (c'.part c.socket.conn).arrived = [] := by
        simp only [Core.part,ha,List.filter_eq_nil_iff,beq_iff_eq]
        exact hnone
      rw [Core.stream, harr, List.flatMap_nil]
    have hparse : parse cfg.framing.cut [] = ⟨[], [], false⟩ := parse_nil (Framing.cut_lawful hf)
    have hcontent : (c'.part c.socket.conn).window.content = [] := by
      simp [Core.part,Window.content,hw,hbytes]
    refine ⟨by rw [hlog, hstream, hparse]; rfl, by rw [hstream, hparse], by rw [hcontent, hstream, hparse], ?_⟩
    simp [Core.part,hw,hbytes]
  · have hne : conn ≠ c.socket.conn := by
      rintro rfl
      rcases hover with hnil | hlast
      · simp [hlinks'] at hnil
      · simp [hmade] at hlast
    have hmem' : conn ∈ connections c.log := by
      simpa [hmade,hne] using hmem
    have hlog : (c'.part conn).log = (c.part conn).log := by
      simp only [Core.part,hl]
      by_cases hlast : (connections c.log).getLast? = some conn
      · rw [during_last hlast hnodup]
        simp [Obs.connection]
      · exact during_earlier hmem' hlast _
    have harr : (c'.part conn).arrived = (c.part conn).arrived := by simp only [Core.part,ha]
    rw [Core.stream, hlog, harr]
    exact h.past conn hmem' (.inl hlinks)

theorem Isolated.move (hk : cfg.kind = .tcpClient) (hf : 1 ≤ cfg.framing.headerSize)
    (hcb : cfg.onRecv.isSome = true) {e : Event τ} (h : Isolated cfg.framing c ns)
    (hm : Move cfg c ns e c' ns') (hbare : c'.socket.conn ≠ c.socket.conn → Bare c ns') :
    Isolated cfg.framing c' ns' := by
  have hattempt := hm.attempt hk
  have hstart : connections c'.log ≠ connections c.log → c.links ns = [] := by
    intro hne
    cases hattempt with
    | calm hcalm => exact absurd hcalm.made hne
    | begun _ hc _ | again _ _ _ _ _ hc => exact absurd (by rw [hc]; rfl) hne
    | done _ _ hc _ | failed _ _ _ hc => exact absurd (by rw [hc]) hne
    | @connected a reopened _ _ hn hopen _ =>
      refine (h.renewed.unused hopen ?_).1
      simp [hn,Core.pending,Notice.pending]
  have hhop : Hop cfg c c' (c.links ns) (c'.links ns') :=
    hm.hop (by simp [hk]) h.steady (fun hn => absurd hk hn) (by simp [hk]) (fun _ => hstart)
  have hparts : connections c'.log = connections c.log → Parts cfg.framing c' ns' := by
    intro hmade
    refine h.parts.hop hk hf hcb hhop hm.log_extends h.renewed.nodup hmade (fun r hr hlive => ?_)
    simp only [Core.live,Bool.and_eq_true,beq_iff_eq] at hlive
    rw [← hlive.2]
    exact h.renewed.bound hlive.1 (by simp [hr])
  have hsteady := hhop.steady h.steady
  have hreopen : ∀ {opened more}, c' = c.reopen opened more → c.links ns' = c.links ns →
      Isolated cfg.framing c' ns' := by
    intro opened more hc hlinks
    have hmade : connections c'.log = connections c.log := by rw [hc]; rfl
    refine ⟨hsteady, ?_, hparts hmade⟩
    subst hc
    refine h.renewed.reopen (fun hopened => hbare ?_) more hlinks
    simp [Core.reopen,Socket.reopen,Socket.close,hopened]
  cases hattempt with
  | calm hcalm => exact ⟨hsteady, h.renewed.calm hk hcalm hhop, hparts hcalm.made⟩
  | begun _ hc hn => exact hreopen hc (by rw [hn])
  | again _ hrun hn _ _ hc =>
    exact hreopen hc (by rw [hn, links_taken c rfl])
  | @done a i failed reopened ha hlive hc hn =>
    have hmade : connections c'.log = connections c.log := by rw [hc]
    refine ⟨hsteady, ?_, hparts hmade⟩
    have hlinks : c'.links ns' = c.links ns := by
      rw [hn, hc, links_posted _ ns rfl]
      rfl
    refine h.renewed.lessen (by rw [hc]) (by rw [hc]) (by rw [hc]) (by rw [hc]) hlinks ?_ ?_
    · intro a' ha'
      rw [hc] at ha'
      exact h.renewed.attempts a' (List.mem_of_mem_eraseIdx ha')
    · intro hopen
      subst hc hn
      exact ⟨hopen, pending_done ha hlive reopened⟩
  | @connected a reopened _ _ hn hopen hc =>
    subst hn
    obtain ⟨hlinks,hbytes,hfresh,hnone⟩ := h.renewed.unused hopen (by simp [Core.pending,Notice.pending])
    have hlinks' : c'.links ns' = [.resuming] := by
      obtain ⟨hreads,hns,-⟩ := links_eq_nil.mp ((links_taken c rfl).symm.trans hlinks)
      simp only [hc,Core.emit,Core.links,hreads,hns,Running.acts,List.filterMap_append,links_calls,
        List.filterMap_cons,List.filterMap_nil,Act.link,List.map_nil,List.nil_append]
    refine ⟨hsteady, h.renewed.connected hopen (by rw [hc]; rfl) (by rw [hc]; rfl) (by rw [hc]) (by rw [hc]; rfl), ?_⟩
    exact h.parts.connected hf hlinks hlinks' h.renewed.nodup hbytes hfresh hnone (by rw [hc]; rfl)
      (by rw [hc]; rfl) (by rw [hc]; rfl)
  | @failed a failed reopened _ hrun hn hc =>
    have hmade : connections c'.log = connections c.log := by rw [hc]
    refine ⟨hsteady, ?_, hparts hmade⟩
    have hlinks : c'.links ns' = c.links ns := by
      rw [hn, hc, links_taken c rfl]
      simp only [Core.links,hrun,Running.acts,links_calls,List.filterMap_nil]
    refine h.renewed.lessen (by rw [hc]) (by rw [hc]) (by rw [hc]) (by rw [hc]) hlinks ?_ ?_
    · rw [hc]
      exact h.renewed.attempts
    · intro hopen
      subst hc hn
      refine ⟨hopen, ?_⟩
      simp only [Core.pending,List.countP_cons]
      omega

end isolated

end Librim
