import Librim.Attempts

/-! The callback of `TcpClient::connect` is called once for each call that was not refused. -/

set_option autoImplicit false

namespace Librim

variable {κ τ : Type}

/-- A call of `connect` that returned no error, or a call of its callback. -/
inductive Exchange where
  | asked
  | answered (connected : Bool)
  deriving DecidableEq, Repr

def Exchange.isAnswer : Exchange → Bool
  | .answered _ => true
  | .asked => false

/-- The branches of the handler that `connect` passes to `async_connect`. -/
def Core.answers (c : Core κ) (a : Connecting) (failed : Bool) : List Bool :=
  if c.socket.isOpen && !failed then [true]
  else if c.socket.isOpen && 0 < a.more then []
  else [false]

/-- `P` relates the state of the callbacks to the answers that the callback of `connect` was given. -/
structure Hears (cfg : Config κ) (P : κ → List Bool → Prop) : Prop where
  answered : ∀ {u answers} connected, P u answers → P (cfg.onConnect u connected).1 (answers ++ [connected])
  received : ∀ {callback}, cfg.onRecv = some callback → ∀ {u answers} m sender, P u answers →
    P (callback u m sender).user answers

section hears
variable {cfg : Config κ} {P : κ → List Bool → Prop} {c c' : Core κ} {ns ns' : List Notice} {e : Event τ}
  {answers : List Bool}

theorem Hears.foldl (h : Hears cfg P) {u : κ} (hp : P u answers) (more : List Bool) :
    P (more.foldl (fun u connected => (cfg.onConnect u connected).1) u) (answers ++ more) := by
  induction more generalizing u answers with
  | nil => simpa using hp
  | cons connected more ih => simpa using ih (h.answered connected hp)

theorem closeBody_user (hk : cfg.kind = .tcpClient) (c : Core κ) : (c.closeBody cfg).user = c.user := by
  unfold Core.closeBody
  split
  · simp [hk]
  · rfl

theorem Hears.deliver (h : Hears cfg P) (hp : P c.user answers) (owner offset n : Nat) (sender : Option Address)
    (next : List Act) : P (c.deliver cfg owner offset n sender next).user answers := by
  unfold Core.deliver
  split
  · exact hp
  · rename_i callback hcb
    exact h.received hcb _ _ hp

theorem Hears.perform (hk : cfg.kind = .tcpClient) (h : Hears cfg P) (hp : P c.user answers) (rest : List Act)
    (a : Act) : P (c.perform cfg rest a).user answers := by
  cases a with
  | scan owner k =>
    simp only [Core.perform]
    split
    · exact hp
    · exact h.deliver hp ..
    · exact hp
  | datagram owner n => exact h.deliver hp ..
  | call k =>
    cases k with
    | send request => exact hp
    | close => simpa only [Core.perform,closeBody_user hk] using hp
  | resetReadTimeout owner =>
    obtain ⟨_,_,_,hshape⟩ := Core.resetReadTimeout_shape cfg { c with running := .program rest } owner
    simp only [Core.perform,hshape]
    exact hp
  | startReceive owner =>
    obtain ⟨_,_,_,hshape⟩ := Core.startReceive_shape cfg { c with running := .program rest } owner
    simp only [Core.perform,hshape]
    exact hp
  | close => simpa only [Core.perform,closeBody_user hk] using hp

/-- Only a handler that `connect` has passed on calls its callback. -/
theorem Hears.move (hk : cfg.kind = .tcpClient) (h : Hears cfg P) (hp : P c.user answers) (hm : Move cfg c ns e c' ns')
    (hhead : e = .run → ∀ a failed reopened, ns ≠ .connected a failed reopened :: ns') : P c'.user answers := by
  have hdone := hm.completed
  cases hm with
  | stay | close | wrote _ | release _ | finish _ | tick => exact hp
  | connect hc =>
    obtain ⟨_,_,rfl⟩ := Core.connect_shape hc
    exact hp
  | setup hc =>
    obtain ⟨_,rfl⟩ := Core.setup_shape hc
    exact hp
  | start hc =>
    obtain ⟨_,_,_,_,_,_,rfl⟩ := Core.start_shape hc
    exact hp
  | @handle n ns hrun =>
    cases n with
    | received r result =>
      obtain ⟨_,_,hshape⟩ := Core.onReceived_shape cfg c r result hrun
      simp only [Core.handle,hshape]
      exact hp
    | expired w aborted =>
      simp only [Core.handle]
      split <;> exact hp
    | connected a failed reopened => exact absurd rfl (hhead rfl a failed reopened)
    | close => exact hp
  | fail _ => simpa only [closeBody_user hk] using hp
  | perform _ => exact h.perform hk hp ..
  | read _ | readFail _ | expire _ | abort _ | connectDone _ =>
    obtain ⟨_,_,_,_,_,_,rfl⟩ := hdone rfl
    exact hp

end hears

section idle
variable {cfg : Config κ} {c c' : Core κ} {ns ns' : List Notice} {e : Event τ}

/-- Neither a call of `connect` nor a handler that one has passed on. -/
theorem Attempt.idle (h : Attempt cfg c ns e c' ns') (hask : ∀ more opened, e ≠ .connect (.ok more) opened)
    (hhead : e = .run → ∀ a failed reopened, ns ≠ .connected a failed reopened :: ns') :
    c'.attempts ns' = c.attempts ns ∧ connections c'.log = connections c.log := by
  cases h with
  | calm hcalm => exact ⟨hcalm.attempts, hcalm.made⟩
  | begun he _ _ => exact absurd he (hask _ _)
  | done ha _ hc hn =>
    subst hc hn
    have hlt := (List.getElem?_eq_some_iff.mp ha).1
    refine ⟨?_, rfl⟩
    simp only [Core.attempts,List.length_eraseIdx_of_lt hlt,List.countP_append,List.countP_singleton,
      Notice.isConnected,↓reduceIte]
    omega
  | connected he _ hn _ _ | again he _ hn _ _ _ | failed he _ hn _ => exact absurd hn (hhead he _ _ _)

end idle

namespace Endpoint

/-- What a step adds to the history of `connect`. -/
def exchanges (s : Endpoint κ τ) (e : Event τ) (_ : Endpoint κ τ) : List Exchange :=
  match e, s.ready with
  | .connect (.ok _) _, _ => [.asked]
  | .run, .notice (.connected a failed _) :: _ => (s.answers a failed).map .answered
  | _, _ => []

/-- The connections that were made, and how many calls are not answered yet. -/
structure Paired (s : Endpoint κ τ) (history : List Exchange) : Prop where
  balance : history.count .asked = history.countP Exchange.isAnswer + s.attempts s.notices
  made : history.count (.answered true) = (connections s.log).length

variable {cfg : Config κ} {s t : Endpoint κ τ} {history : List Exchange}

theorem Paired.idle (h : Paired s history) {e : Event τ} (hnone : exchanges s e t = [])
    (hsame : t.attempts t.notices = s.attempts s.notices ∧ connections t.log = connections s.log) :
    Paired t (history ++ exchanges s e t) := by
  rw [hnone, List.append_nil]
  exact ⟨by rw [hsame.1]; exact h.balance, by rw [hsame.2]; exact h.made⟩

theorem Paired.asked (h : Paired s history) {more : Nat} {opened : Bool} :
    Paired (s.withCore (s.reopen opened more)) (history ++ [.asked]) := by
  have hattempts : (s.withCore (s.reopen opened more)).attempts (s.withCore (s.reopen opened more)).notices =
      s.attempts s.notices+1 := by
    simp only [withCore,Core.reopen,Core.attempts,notices,List.length_append,List.length_singleton]
    omega
  have hlog : connections (s.withCore (s.reopen opened more)).log = connections s.log := rfl
  refine ⟨?_, by rw [hlog]; simpa using h.made⟩
  rw [hattempts]
  simp only [List.count_append,List.count_singleton_self,List.countP_append,List.countP_singleton,Exchange.isAnswer,
    h.balance]
  simp
  omega

/-- The handler runs: the call is answered, or the next address is tried. -/
theorem Paired.answered (h : Paired s history) {a : Connecting} {failed reopened : Bool}
    {rest : List (Handler τ)} (hready : s.ready = .notice (.connected a failed reopened) :: rest) :
    Paired (runHandler cfg { s with ready := rest } (.notice (.connected a failed reopened)))
      (history ++ (s.answers a failed).map .answered) := by
  have hbalance := h.balance
  have hmade := h.made
  have hcount : s.notices.countP Notice.isConnected = (rest.filterMap Handler.getNotice).countP Notice.isConnected+1 := by
    simp only [notices,hready,List.filterMap_cons,Handler.getNotice]
    exact List.countP_cons_of_pos rfl
  simp only [Core.attempts,hcount] at hbalance
  simp only [runHandler,withCore,Core.handle,Core.onConnected,Core.answers]
  split
  · refine ⟨?_, ?_⟩
    · simp only [Core.emit,Core.attempts,notices]
      simp [Exchange.isAnswer]
      omega
    · simp [Core.emit,connections_append,Obs.connection,hmade]
  · split
    · refine ⟨?_, ?_⟩
      · simp only [Core.reopen,Core.attempts,notices]
        simp
        omega
      · simpa [Core.reopen] using hmade
    · refine ⟨?_, ?_⟩
      · simp only [Core.attempts,notices]
        simp [Exchange.isAnswer]
        omega
      · simpa using hmade

/-- The strand takes up a handler that is no connect handler. -/
theorem exchanges_other {x : Handler τ} {rest : List (Handler τ)} (hready : s.ready = x :: rest)
    (hx : ∀ a failed reopened, x ≠ .notice (.connected a failed reopened)) (ht : t.ready = rest) :
    exchanges s .run t = [] ∧ ∀ a failed reopened, s.notices ≠ .connected a failed reopened :: t.notices := by
  constructor
  · cases x with
    | notice n =>
      cases n with
      | connected a failed reopened => exact absurd rfl (hx a failed reopened)
      | _ => simp [exchanges,hready]
    | _ => simp [exchanges,hready]
  intro a failed reopened hhead
  have hnotices : s.notices = x.getNotice.toList ++ t.notices := by
    rw [notices, notices, hready, ht]
    cases hn : x.getNotice <;> simp [hn]
  rw [hnotices] at hhead
  cases hn : x.getNotice with
  | none =>
    rw [hn] at hhead
    exact List.cons_ne_self _ _ hhead.symm
  | some n =>
    rw [hn] at hhead
    obtain rfl : n = .connected a failed reopened := (List.cons.inj hhead).1
    cases x with
    | notice m =>
      simp only [Handler.getNotice,Option.some.injEq] at hn
      exact hx a failed reopened (hn ▸ rfl)
    | _ => simp [Handler.getNotice] at hn

variable [DecidableEq τ]

/-- What a step has to do with `connect`: a call, a handler of one, or nothing. -/
inductive Exchanging (cfg : Config κ) (s t : Endpoint κ τ) (e : Event τ) : Prop where
  | asked {more : Nat} {opened : Bool} : e = .connect (.ok more) opened → t = s.withCore (s.reopen opened more) →
      Exchanging cfg s t e
  | answered {a : Connecting} {failed reopened : Bool} {rest : List (Handler τ)} : e = .run →
      s.ready = .notice (.connected a failed reopened) :: rest →
      t = runHandler cfg { s with ready := rest } (.notice (.connected a failed reopened)) → Exchanging cfg s t e
  | nothing : exchanges s e t = [] → (∀ more opened, e ≠ .connect (.ok more) opened) →
      (e = .run → ∀ a failed reopened, s.notices ≠ .connected a failed reopened :: t.notices) → Exchanging cfg s t e

theorem exchanging (hk : cfg.kind = .tcpClient) {e : Event τ} (hs : Endpoint.step cfg s e = some t) :
    Exchanging cfg s t e := by
  cases e with
  | connect resolved opened =>
    cases resolved with
    | error ec => exact .nothing rfl (by simp) (by simp)
    | ok more =>
      simp only [Endpoint.step,Core.connect,hk,Option.map_some,Option.some.injEq] at hs
      exact .asked rfl hs.symm
  | run =>
    simp only [Endpoint.step] at hs
    cases hready : s.ready with
    | nil => simp [hready] at hs
    | cons x rest =>
      simp only [hready,Option.ite_none_right_eq_some,Option.some.injEq] at hs
      obtain ⟨-,rfl⟩ := hs
      by_cases hx : ∃ a failed reopened, x = .notice (.connected a failed reopened)
      · obtain ⟨a,failed,reopened,rfl⟩ := hx
        exact .answered rfl hready rfl
      · obtain ⟨hnone,hhead⟩ := exchanges_other hready (fun a failed reopened hx' => hx ⟨a,failed,reopened,hx'⟩)
          (t := runHandler cfg { s with ready := rest } x) (by cases x <;> rfl)
        exact .nothing hnone (by simp) (fun _ => hhead)
  | _ => exact .nothing rfl (by simp) (by simp)

omit [DecidableEq τ] in
theorem exchanges_answered {a : Connecting} {failed reopened : Bool} {rest : List (Handler τ)}
    (hready : s.ready = .notice (.connected a failed reopened) :: rest) (t : Endpoint κ τ) :
    exchanges s .run t = (s.answers a failed).map .answered := by
  simp [exchanges,hready]

theorem Paired.step (hk : cfg.kind = .tcpClient) (h : Paired s history) {e : Event τ}
    (hs : Endpoint.step cfg s e = some t) : Paired t (history ++ exchanges s e t) := by
  cases exchanging hk hs with
  | asked he ht => exact he ▸ ht ▸ h.asked
  | answered he hready ht =>
    rw [he, exchanges_answered hready, ht]
    exact h.answered hready
  | nothing hnone hask hhead => exact h.idle hnone (((step_move hs).attempt hk).idle hask hhead)

end Endpoint

end Librim
