import Librim.UdpReceive

/-! The send pipeline of `UdpEndpoint`: payload and target travel in one item, which is filled
by the calling thread and handed to `async_send_to` on the strand. -/

set_option autoImplicit false

namespace Librim

open Pipeline (Owned Ordered Label)

variable {κ τ : Type}

/-- Nothing but a set-up call changes `remote_endpoint_`. -/
theorem Move.remote {cfg : Config κ} {c c' : Core κ} {ns ns' : List Notice} {e : Event τ}
    (hsetup : ∀ call os, e = .setup call os → (UdpEndpoint.setup call os c.socket).1.remote = c.socket.remote)
    (hm : Move cfg c ns e c' ns') : c'.socket.remote = c.socket.remote := by
  have hreopen : ∀ opened more, (c.reopen opened more).socket.remote = c.socket.remote := by
    intro opened more
    cases opened <;> rfl
  have hclose : ∀ c : Core κ, (c.closeBody cfg).socket.remote = c.socket.remote := by
    intro c
    unfold Core.closeBody
    split <;> rfl
  have hdone := hm.completed
  cases hm with
  | stay | close | wrote _ | release _ | finish _ | tick => rfl
  | connect hc =>
    unfold Core.connect at hc
    split at hc <;> simp only [Option.some.injEq,reduceCtorEq] at hc
    · rw [← hc]
    · rw [← hc, hreopen]
  | setup hc =>
    simp only [Core.setup,Option.ite_none_right_eq_some,Option.some.injEq] at hc
    rw [← hc.2]
    exact hsetup _ _ rfl
  | start hc =>
    obtain ⟨_,_,_,_,_,_,rfl⟩ := Core.start_shape hc
    rfl
  | @handle n ns hrun =>
    cases n with
    | received r result => simp [Core.handle]
    | expired w aborted =>
      simp only [Core.handle]
      split <;> rfl
    | connected a failed reopened =>
      simp only [Core.handle,Core.onConnected]
      split
      · rfl
      · split
        · exact hreopen ..
        · rfl
    | close => rfl
  | fail _ => exact hclose _
  | @perform _ a rest _ _ =>
    cases a with
    | scan owner currentOffset =>
      simp only [Core.perform]
      split <;> simp
    | datagram owner n | resetReadTimeout owner | startReceive owner => simp [Core.perform]
    | close => exact hclose _
    | call k =>
      cases k with
      | send request => rfl
      | close => exact hclose _
  | read _ | readFail _ | expire _ | abort _ | connectDone _ =>
    obtain ⟨_,_,_,_,_,_,rfl⟩ := hdone rfl
    rfl

namespace Endpoint

/-- `connect` does not give `remote_endpoint_` another value while a call of `send` has still
to copy it. -/
def TargetStep (s : Endpoint κ τ) : Event τ → Prop
  | .setup call os => (∃ caller ticket, (s.out.pc caller).unfilled = some ticket ∧
      ticket.request.target = .implicit) →
      (UdpEndpoint.setup call os s.socket).1.remote = s.socket.remote
  | _ => True

/-- What a call will copy is what it was asked for. -/
def Current (kind : Kind) (s : Endpoint κ τ) : Prop :=
  ∀ caller ticket, (s.out.pc caller).unfilled = some ticket →
    ticket.asked = .ofRequest kind s.socket ticket.request

theorem ofRequest_congr {kind : Kind} {socket socket' : Socket} {request : Request}
    (h : request.target = .implicit → socket'.remote = socket.remote) :
    Item.ofRequest kind socket' request = Item.ofRequest kind socket request := by
  by_cases htarget : request.target = .implicit
  · simp only [Item.ofRequest,h htarget]
  · cases hr : request.target with
    | implicit => exact absurd hr htarget
    | _ => cases kind <;> simp [Item.ofRequest,hr]

variable [DecidableEq τ]

theorem Current.step {cfg : Config κ} {s t : Endpoint κ τ} {e : Event τ} (h : Current cfg.kind s)
    (hok : TargetStep s e) (hs : step cfg s e = some t) : Current cfg.kind t := by
  intro caller ticket hpc
  have hasked : ticket.asked = .ofRequest cfg.kind s.socket ticket.request := by
    rcases step_simulates hs with heq | ⟨l,hl,-,-,hcalls⟩
    · have hsame : t.out.pc = s.out.pc := congrArg (fun p => p.pc) heq
      exact h caller ticket (hsame ▸ hpc)
    · rcases Pipeline.unfilled_step hl hpc with hbefore | hcall
      · exact h caller ticket hbefore
      · exact (hcalls caller ticket hcall).2
  rw [hasked]
  refine (ofRequest_congr (fun himplicit => ?_)).symm
  refine (step_move hs).remote (fun call os he => ?_)
  subst he
  have hout : t.out = s.out := by
    simp only [Endpoint.step,Option.map_eq_some_iff] at hs
    obtain ⟨c,-,rfl⟩ := hs
    rfl
  exact hok ⟨caller, ticket, hout ▸ hpc, himplicit⟩

/-- The items handed to `async_send_to`, in order, are the first of those whose closures ran;
and each caller's items are, as they were at the time of the call, those whose closures ran,
those posted and the one that it still works on. -/
structure SentAsAsked (s : Endpoint κ τ) (handed : List Item) : Prop where
  handed : handed <+: s.out.entered.map Prod.snd
  asked : ∀ caller, (s.out.sent caller).map Ticket.asked =
    (s.out.entered.filter (·.1 = caller)).map Prod.snd ++
      (s.pipeline.posted.filter (·.1 = caller)).map (fun x => s.out.mem x.2) ++
      (s.out.pc caller).pending.map Ticket.asked

/-- The runs of an endpoint together with the items that it hands to `async_send_to`. -/
abbrev Hands (cfg : Config κ) (ok : Endpoint κ τ → Event τ → Prop) : Endpoint κ τ × List Item → Prop :=
  Transition.Reach (fun p => (∃ u, p.1 = initial cfg.kind u) ∧ p.2 = [])
    (Transition.recorded (step cfg) (fun s _ t => s.out.started t.out)) (fun p e => ok p.1 e)

theorem Hands.reached {cfg : Config κ} {ok : Endpoint κ τ → Event τ → Prop}
    {p : Endpoint κ τ × List Item} (h : Hands cfg ok p) : Reached cfg p.1 := by
  induction h with
  | start hi => exact .start hi.1
  | next _ _ hs ih => exact .next ih trivial (Transition.recorded_eq_some.mp hs).1

/-- What was handed over: what has left the queue, and the item that is being sent. -/
theorem Hands.handed {cfg : Config κ} {ok : Endpoint κ τ → Event τ → Prop}
    {p : Endpoint κ τ × List Item} (h : Hands cfg ok p) : p.2 = p.1.out.flushed ++ p.1.pipeline.handed := by
  induction h with
  | start hi =>
    obtain ⟨⟨u,hu⟩,hnil⟩ := hi
    rw [hnil, hu]
    rfl
  | @next p q e hp _ hs ih =>
    obtain ⟨hs,hq⟩ := Transition.recorded_eq_some.mp hs
    have hsound : Sound cfg p.1 := Reached.sound (Hands.reached hp)
    rw [hq, ih]
    rcases step_simulates hs with heq | ⟨l,hl,-,-,-⟩
    · have hout : q.1.out = p.1.out := congrArg (fun p => p.toStore) heq
      rw [heq, hout, Pipeline.Store.started_of_le (Nat.le_refl _), List.append_nil]
    · exact (hsound.serial.handed_step hsound.owned hl).symm

theorem Hands.ordered {cfg : Config κ} {p : Endpoint κ τ × List Item} (h : Hands cfg TargetStep p) :
    Current cfg.kind p.1 ∧ Ordered Ticket.asked p.1.pipeline := by
  induction h with
  | start hi =>
    obtain ⟨⟨u,hu⟩,-⟩ := hi
    rw [hu]
    refine ⟨fun _ _ hpc => ?_, fun _ _ _ hpc => ?_, fun _ => rfl⟩
    · simp [initial,Pipeline.Store.fresh,Pipeline.Pc.unfilled] at hpc
    · simp [pipeline,initial,Pipeline.Store.fresh] at hpc
  | @next p q e hp hok hs ih =>
    obtain ⟨hcurrent,hordered⟩ := ih
    obtain ⟨hs,-⟩ := Transition.recorded_eq_some.mp hs
    refine ⟨hcurrent.step hok hs, ?_⟩
    rcases step_simulates hs with heq | ⟨l,hl,-,hfill,-⟩
    · exact heq ▸ hordered
    · refine hordered.step (Reached.sound (Hands.reached hp)).owned ?_ hl
      intro caller ticket m hlab
      rw [hfill caller ticket m hlab]
      subst hlab
      obtain ⟨b,hpc⟩ := Pipeline.holding_of_fill hl
      exact (hcurrent caller ticket (by rw [show p.1.out.pc = p.1.pipeline.pc from rfl, hpc]; rfl)).symm

/-- The send pipeline of a `UdpEndpoint`. -/
theorem udp_send_order (cfg : Config κ) (p : Endpoint κ τ × List Item) (h : Hands cfg TargetStep p) :
    SentAsAsked p.1 p.2 := by
  have hsound : Sound cfg p.1 := h.reached.sound
  refine ⟨?_, h.ordered.2.order⟩
  rw [h.handed]
  exact hsound.serial.handed_first hsound.flow

/-- A test for the steps of an endpoint with one thread: no call is between its beginning and
its copy when a set-up call is made. -/
def targetCheck (s : Endpoint Unit Unit) : Event Unit → Bool
  | .setup _ _ => (s.out.pc none).unfilled.isNone && (s.out.pc (some ())).unfilled.isNone
  | _ => true

theorem targetStep_of_check {s : Endpoint Unit Unit} {e : Event Unit} (h : s.targetCheck e = true) :
    TargetStep s e := by
  cases e with
  | setup call os =>
    rintro ⟨caller,ticket,hpc,-⟩
    simp only [targetCheck,Bool.and_eq_true,Option.isNone_iff_eq_none] at h
    cases caller with
    | none => rw [h.1] at hpc; simp at hpc
    | some t => rw [h.2] at hpc; simp at hpc
  | _ => trivial

/-- `connect` to another address. -/
def retarget (address : Address) : Event Unit := .setup .connect { Os.obliging with resolve := .ok [address] }

/-- A second `connect` between two datagrams. -/
def twoTargets : List (Event Unit) :=
  [retarget ⟨1,2⟩, .send () ⟨[7],.implicit⟩, .pop (some ()), .fill (some ()), .post (some ()), .run,
    retarget ⟨3,4⟩, .send () ⟨[8],.implicit⟩, .pop (some ()), .fill (some ()), .post (some ()), .run]

theorem udp_send_order_retargeted : ∃ p : Endpoint Unit Unit × List Item,
    Transition.run (Transition.guarded (Transition.recorded (step (.bare .udpEndpoint))
      (fun s _ t => s.out.started t.out)) (fun p e => p.1.targetCheck e)) (initial .udpEndpoint (), [])
      twoTargets = some p ∧
    Hands (.bare .udpEndpoint) TargetStep p ∧ p.2 = [⟨[7],some ⟨1,2⟩⟩] ∧
    p.1.out.entered.map Prod.snd = [⟨[7],some ⟨1,2⟩⟩, ⟨[8],some ⟨3,4⟩⟩] ∧ SentAsAsked p.1 p.2 := by
  have hrun : (Transition.run (Transition.guarded (Transition.recorded (step (.bare .udpEndpoint))
      (fun s _ t => s.out.started t.out)) (fun p e => p.1.targetCheck e)) (initial .udpEndpoint (), [])
      twoTargets).map (fun p => (p.2, p.1.out.entered.map Prod.snd)) =
      some ([⟨[7],some ⟨1,2⟩⟩], [⟨[7],some ⟨1,2⟩⟩, ⟨[8],some ⟨3,4⟩⟩]) := by
    decide +kernel
  obtain ⟨p,hp,hv⟩ := Option.map_eq_some_iff.mp hrun
  simp only [Prod.mk.injEq] at hv
  have hands : Hands (.bare .udpEndpoint) TargetStep p :=
    Transition.Reach.run_guarded (fun _ _ => targetStep_of_check) (.start ⟨⟨(),rfl⟩,rfl⟩) hp
  exact ⟨p, hp, hands, hv.1, hv.2, udp_send_order (.bare .udpEndpoint) p hands⟩

/-- A `connect` while `send` waits for its item: the datagram goes to the new address. -/
theorem udp_send_misdirected : ∃ p : Endpoint Unit Unit × List Item,
    Hands (.bare .udpEndpoint) (fun _ _ => True) p ∧ p.2 = [⟨[7],some ⟨3,4⟩⟩] ∧
    (p.1.out.sent (some ())).map Ticket.asked = [⟨[7],some ⟨1,2⟩⟩] ∧ ¬ SentAsAsked p.1 p.2 := by
  have hrun : (Transition.run (Transition.recorded (step (.bare .udpEndpoint))
      (fun s _ t => s.out.started t.out)) (initial .udpEndpoint (), [])
      [retarget ⟨1,2⟩, .send () ⟨[7],.implicit⟩, .pop (some ()), retarget ⟨3,4⟩, .fill (some ()),
        .post (some ()), .run]).map (fun p => (p.2, (p.1.out.sent (some ())).map Ticket.asked,
        (p.1.out.entered.filter (·.1 = some ())).map Prod.snd ++
          (p.1.pipeline.posted.filter (·.1 = some ())).map (fun x => p.1.out.mem x.2) ++
          (p.1.out.pc (some ())).pending.map Ticket.asked)) =
      some ([⟨[7],some ⟨3,4⟩⟩], [⟨[7],some ⟨1,2⟩⟩], [⟨[7],some ⟨3,4⟩⟩]) := by
    decide +kernel
  obtain ⟨p,hp,hv⟩ := Option.map_eq_some_iff.mp hrun
  simp only [Prod.mk.injEq] at hv
  obtain ⟨hhanded,hasked,hcarried⟩ := hv
  refine ⟨p, Transition.reachable_run (.start ⟨⟨(),rfl⟩,rfl⟩) hp, hhanded, hasked, fun h => ?_⟩
  have heq := (hasked.symm.trans (h.asked (some ()))).trans hcarried
  exact absurd heq (by decide)

end Endpoint

end Librim
