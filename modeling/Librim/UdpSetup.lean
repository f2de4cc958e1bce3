import Librim.Endpoint
import Mathlib.Tactic.MkIffOfInductiveProp

/-! `bind`, `connect` and `join_multicast` of `UdpEndpoint` when the system reports an error at one
of their steps. -/

set_option autoImplicit false

namespace Librim

namespace UdpEndpoint

/-- The state of the socket (open or not, bound address, joined groups), `is_connected_` and
`remote_endpoint_` are the same. -/
@[mk_iff]
structure Unchanged (s t : Socket) : Prop where
  isOpen : t.isOpen = s.isOpen
  bound : t.bound = s.bound
  groups : t.groups = s.groups
  isConnected : t.isConnected = s.isConnected
  remote : t.remote = s.remote

/-- The call opens the socket or binds it, and a later step of the same call fails. -/
def FailsLate (os : Os) (s : Socket) : Setup → Prop
  | .bind _ => s.isOpen = false ∧ os.opening = none ∧ os.binding ≠ none
  | .connect => (∃ address rest, os.resolve = .ok (address :: rest)) ∧
      s.isOpen = false ∧ os.opening = none ∧ os.connecting ≠ none
  | .joinMulticast port => (∃ group, os.makeAddress = .ok (.v4 group)) ∧
      ((s.isOpen = false ∧ os.opening = none ∧
          (os.setOption ≠ none ∨ os.binding ≠ none ∨ os.joining ≠ none)) ∨
        (s.isOpen = true ∧ s.bound ≠ some port ∧
          os.setOption = none ∧ os.binding = none ∧ os.joining ≠ none))

theorem bind_unchanged_iff (port : UInt16) (os : Os) (s : Socket) :
    ((bind port os s).2 ≠ none → Unchanged s (bind port os s).1) ↔ ¬ FailsLate os s (.bind port) := by
  cases hopen : s.isOpen with
  | true => simp [bind,openSocket,FailsLate,unchanged_iff,hopen]
  | false =>
    cases hopening : os.opening with
    | some ec => simp [bind,openSocket,FailsLate,unchanged_iff,hopen,hopening]
    | none =>
      cases hbinding : os.binding <;>
        simp [bind,openSocket,FailsLate,unchanged_iff,hopen,hopening,hbinding,Socket.reopen]

theorem connect_unchanged_iff (os : Os) (s : Socket) :
    ((connect os s).2 ≠ none → Unchanged s (connect os s).1) ↔ ¬ FailsLate os s .connect := by
  match hresolve : os.resolve with
  | .error ec => simp [connect,FailsLate,unchanged_iff,hresolve]
  | .ok [] => simp [connect,FailsLate,unchanged_iff,hresolve]
  | .ok (address :: rest) =>
    cases hopen : s.isOpen with
    | true =>
      cases hconnecting : os.connecting <;>
        simp [connect,ensureOpen,FailsLate,unchanged_iff,hresolve,hopen,hconnecting]
    | false =>
      cases hopening : os.opening with
      | some ec => simp [connect,ensureOpen,openSocket,FailsLate,unchanged_iff,hresolve,hopen,hopening]
      | none =>
        cases hconnecting : os.connecting <;>
          simp [connect,ensureOpen,openSocket,FailsLate,unchanged_iff,hresolve,hopen,hopening,
            hconnecting,Socket.reopen]

theorem joinMulticast_unchanged_iff (port : UInt16) (os : Os) (s : Socket) :
    ((joinMulticast port os s).2 ≠ none → Unchanged s (joinMulticast port os s).1) ↔
      ¬ FailsLate os s (.joinMulticast port) := by
  match haddress : os.makeAddress with
  | .error ec => simp [joinMulticast,FailsLate,unchanged_iff,haddress]
  | .ok .v6 => simp [joinMulticast,FailsLate,unchanged_iff,haddress]
  | .ok (.v4 group) =>
    cases hopen : s.isOpen with
    | true =>
      cases hoption : os.setOption <;> cases hbinding : os.binding <;> cases hjoining : os.joining <;>
        simp [joinMulticast,ensureOpen,FailsLate,unchanged_iff,haddress,hopen,hoption,hbinding,hjoining,
          eq_comm]
    | false =>
      cases hopening : os.opening with
      | some ec =>
        simp [joinMulticast,ensureOpen,openSocket,FailsLate,unchanged_iff,haddress,hopen,hopening]
      | none =>
        cases hoption : os.setOption <;> cases hbinding : os.binding <;> cases hjoining : os.joining <;>
          simp [joinMulticast,ensureOpen,openSocket,FailsLate,unchanged_iff,haddress,hopen,hopening,
            hoption,hbinding,hjoining,Socket.reopen]

/-- A call that fails leaves the endpoint as it was unless it fails behind a step that took effect. -/
theorem setup_unchanged_iff (call : Setup) (os : Os) (s : Socket) :
    ((setup call os s).2 ≠ none → Unchanged s (setup call os s).1) ↔ ¬ FailsLate os s call := by
  cases call with
  | bind port => exact bind_unchanged_iff port os s
  | connect => exact connect_unchanged_iff os s
  | joinMulticast port => exact joinMulticast_unchanged_iff port os s

/-- A `bind` that the system would grant to a new endpoint is granted after a failed one just if
that has not left the socket open. -/
theorem bind_again_iff {p q : UInt16} {os os' : Os} (hfailed : (bind p os .closed).2 ≠ none)
    (hfresh : (bind q os' .closed).2 = none) :
    (bind q os' (bind p os .closed).1).2 = none ↔ ¬ FailsLate os .closed (.bind p) := by
  cases hopening : os.opening with
  | some ec => simpa [bind,openSocket,FailsLate,Socket.closed,hopening] using hfresh
  | none =>
    cases hbinding : os.binding with
    | none => simp [bind,openSocket,Socket.closed,hopening,hbinding] at hfailed
    | some ec => simp [bind,openSocket,FailsLate,Socket.closed,Socket.reopen,hopening,hbinding]

end UdpEndpoint

open UdpEndpoint (Setup Unchanged FailsLate)

variable {κ τ : Type}

/-- A set-up call that was made, what it returned, and the socket before and after it. -/
structure SetupCall where
  call : Setup
  os : Os
  before : Socket
  result : Option ErrorCode
  after : Socket

namespace Endpoint

def setupCalls (s : Endpoint κ τ) (e : Event τ) (t : Endpoint κ τ) : List SetupCall :=
  match e with
  | .setup call os => [⟨call, os, s.socket, (UdpEndpoint.setup call os s.socket).2, t.socket⟩]
  | _ => []

variable [DecidableEq τ]

/-- The runs of an endpoint, with the set-up calls made so far. -/
abbrev SetUp (cfg : Config κ) (p : Endpoint κ τ × List SetupCall) : Prop :=
  Transition.Reachable (fun p => (∃ u, p.1 = initial cfg.kind u) ∧ p.2 = [])
    (Transition.recorded (step cfg) setupCalls) p

theorem SetUp.after_eq {cfg : Config κ} {p : Endpoint κ τ × List SetupCall} (h : SetUp cfg p) :
    ∀ c ∈ p.2, c.result = (UdpEndpoint.setup c.call c.os c.before).2 ∧
      c.after = (UdpEndpoint.setup c.call c.os c.before).1 := by
  refine Transition.Reach.invariant (fun p => ∀ c ∈ p.2, c.result = (UdpEndpoint.setup c.call c.os c.before).2 ∧
      c.after = (UdpEndpoint.setup c.call c.os c.before).1) ?_ ?_ h
  · intro p hp c hc
    simp [hp.2] at hc
  · intro p e q ih _ hs c hc
    obtain ⟨hs,hq⟩ := Transition.recorded_eq_some.mp hs
    rw [hq] at hc
    rcases List.mem_append.mp hc with hc | hc
    · exact ih c hc
    · cases e with
      | setup call os =>
        simp only [setupCalls,List.mem_singleton] at hc
        subst hc
        simp only [step,Core.setup,Option.map_eq_some_iff,Option.ite_none_right_eq_some,Option.some.injEq] at hs
        obtain ⟨_,⟨-,rfl⟩,hs⟩ := hs
        exact ⟨rfl, by rw [← hs]; rfl⟩
      | _ => simp [setupCalls] at hc

/-- In every run of an endpoint, with any calls in any order and any answers of the system. -/
theorem setup_atomic_iff (cfg : Config κ) (p : Endpoint κ τ × List SetupCall) (h : SetUp cfg p) :
    ((∀ c ∈ p.2, c.result ≠ none → Unchanged c.before c.after) ↔
      ∀ c ∈ p.2, ¬ FailsLate c.os c.before c.call) ∧
    ∀ port port' os os', (UdpEndpoint.bind port os .closed).2 ≠ none →
      (UdpEndpoint.bind port' os' .closed).2 = none →
      ((UdpEndpoint.bind port' os' (UdpEndpoint.bind port os .closed).1).2 = none ↔
        ¬ FailsLate os .closed (.bind port)) := by
  refine ⟨forall₂_congr (fun c hc => ?_), fun _ _ _ _ => UdpEndpoint.bind_again_iff⟩
  obtain ⟨hresult,hafter⟩ := h.after_eq c hc
  rw [hresult, hafter]
  exact UdpEndpoint.setup_unchanged_iff c.call c.os c.before

/-- No descriptor, then no such host, then a port that is granted, then a second `bind`. -/
theorem setup_atomic_early : ∃ p : Endpoint Unit Unit × List SetupCall, SetUp (.bare .udpEndpoint) p ∧
    p.2.map (·.result) = [some .other, some .hostNotFound, none, some .alreadyOpen] ∧
    ∀ c ∈ p.2, c.result ≠ none → Unchanged c.before c.after := by
  have hrun : (Transition.run (Transition.recorded (step (.bare .udpEndpoint)) setupCalls)
      ((initial .udpEndpoint () : Endpoint Unit Unit), [])
      [.setup (.bind 80) { Os.obliging with opening := some .other },
        .setup .connect { Os.obliging with resolve := .error .hostNotFound },
        .setup (.bind 80) .obliging, .setup (.bind 81) .obliging]).map (·.2) = some
      [⟨.bind 80, { Os.obliging with opening := some .other }, .closed, some .other, .closed⟩,
        ⟨.connect, { Os.obliging with resolve := .error .hostNotFound }, .closed, some .hostNotFound, .closed⟩,
        ⟨.bind 80, .obliging, .closed, none, { Socket.closed.reopen with bound := some 80 }⟩,
        ⟨.bind 81, .obliging, { Socket.closed.reopen with bound := some 80 }, some .alreadyOpen,
          { Socket.closed.reopen with bound := some 80 }⟩] := rfl
  obtain ⟨p,hp,hcalls⟩ := Option.map_eq_some_iff.mp hrun
  have hreach : SetUp (.bare .udpEndpoint) p := Transition.reachable_run (.start ⟨⟨(),rfl⟩,rfl⟩) hp
  refine ⟨p, hreach, by rw [hcalls]; rfl, (setup_atomic_iff (.bare .udpEndpoint) p hreach).1.mpr ?_⟩
  rw [hcalls]
  simp [FailsLate,Os.obliging,Socket.closed,Socket.reopen]

/-- The port is taken. The failed `bind` leaves the socket open, and a `bind` to a free port, which
a new endpoint would be granted, is refused. -/
theorem setup_not_atomic : (∃ p : Endpoint Unit Unit × List SetupCall, SetUp (.bare .udpEndpoint) p ∧
    ¬ ∀ c ∈ p.2, c.result ≠ none → Unchanged c.before c.after) ∧
    (UdpEndpoint.bind 80 { Os.obliging with binding := some .other } .closed).2 = some .other ∧
    (UdpEndpoint.bind 81 .obliging .closed).2 = none ∧
    (UdpEndpoint.bind 81 .obliging
      (UdpEndpoint.bind 80 { Os.obliging with binding := some .other } .closed).1).2 = some .alreadyOpen := by
  refine ⟨?_, rfl, rfl, rfl⟩
  have hrun : (Transition.run (Transition.recorded (step (.bare .udpEndpoint)) setupCalls)
      ((initial .udpEndpoint () : Endpoint Unit Unit), [])
      [.setup (.bind 80) { Os.obliging with binding := some .other }]).map (·.2) = some
      [⟨.bind 80, { Os.obliging with binding := some .other }, .closed, some .other, Socket.closed.reopen⟩] := rfl
  obtain ⟨p,hp,hcalls⟩ := Option.map_eq_some_iff.mp hrun
  refine ⟨p, Transition.reachable_run (.start ⟨⟨(),rfl⟩,rfl⟩) hp, fun h => ?_⟩
  rw [hcalls] at h
  have hopen := (h _ List.mem_cons_self (by simp)).isOpen
  simp [Socket.closed,Socket.reopen] at hopen

end Endpoint

end Librim
