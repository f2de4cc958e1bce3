import Librim.AsyncLogger
import Mathlib.Data.Fintype.Basic

/-! What `AsyncLogger` writes to its file. -/

set_option autoImplicit false

namespace Librim.AsyncLogger

variable {τ : Type}

/-- No call of `log` overlaps the destructor. -/
def NoOverlap (s : State τ) : Event τ → Prop
  | .log _ _ => s.destructor = .alive
  | .destroy => s.destructor = .alive → ∀ t, s.producer t = .idle
  | _ => True

instance [Fintype τ] (s : State τ) (e : Event τ) : Decidable (NoOverlap s e) :=
  match e with
  | .log _ _ => inferInstanceAs (Decidable (s.destructor = .alive))
  | .destroy => inferInstanceAs (Decidable (s.destructor = .alive → ∀ t, s.producer t = .idle))
  | .lock _ | .append _ | .notify _ | .work | .spurious => isTrue trivial

@[simp]
theorem producer_notifyOne (s : State τ) : s.notifyOne.producer = s.producer := by
  rcases notifyOne_cases s with ⟨-,heq⟩ | ⟨-,heq⟩ <;> simp [heq]

@[simp]
theorem destructor_notifyOne (s : State τ) : s.notifyOne.destructor = s.destructor := by
  rcases notifyOne_cases s with ⟨-,heq⟩ | ⟨-,heq⟩ <;> simp [heq]

theorem write_eq {s : State τ} (hopen : s.opened = true) (bytes : List Byte) :
    s.write bytes = { s with file := s.file ++ bytes } := by
  unfold State.write
  split
  · rfl
  · rename_i hb
    have hb' : bytes = [] := by simpa [hopen] using hb
    simp [hb']

/-- How far the destructor has got, and who is out of its way. -/
structure Staged (s : State τ) : Prop where
  opened : s.opened = true
  alive : s.destructor = .alive → s.running = true
  exited : s.destructor = .locking ∨ s.destructor = .flushing ∨ s.destructor = .done →
    s.worker = .exited
  idle : s.destructor ≠ .alive → ∀ t, s.producer t = .idle

/-- The bytes that the worker has taken out of `active_buffer_` and not yet written. -/
def State.unwritten (s : State τ) : List Byte := if s.worker = .flushing then s.flush else []

/-- File, flush buffer and active buffer, in this order, are the accepted records. -/
structure Lossless (maxCapacity : Nat) (s : State τ) (h : List (Note τ)) : Prop where
  flushed : s.worker ≠ .flushing → s.worker ≠ .clearing → s.flush = []
  active_le : s.active.length ≤ maxCapacity
  flush_le : s.flush.length ≤ maxCapacity
  dropped : s.dropped = (checks h).countP (fun x => !x.2.2)
  content : s.file ++ s.unwritten ++ (if s.destructor = .done then [] else s.active) =
    ((accepted h).map Record.encode).flatten

/-- Steps that move neither bytes nor records, and keep the worker out of its two writing
states or where it was. -/
theorem Lossless.congr {maxCapacity : Nat} {s t : State τ} {h h' : List (Note τ)}
    (hl : Lossless maxCapacity s h)
    (hw : t.worker = s.worker ∨ (s.worker ≠ .flushing ∧ s.worker ≠ .clearing ∧
      t.worker ≠ .flushing ∧ t.worker ≠ .clearing))
    (hfile : t.file = s.file) (hactive : t.active = s.active) (hflush : t.flush = s.flush)
    (hdrop : t.dropped = s.dropped) (hchecks : checks h' = checks h)
    (hd : t.destructor = .done ↔ s.destructor = .done) : Lossless maxCapacity t h' where
  flushed := by
    rw [hflush]
    rcases hw with hw | ⟨h₁,h₂,-,-⟩
    · rw [hw]; exact hl.flushed
    · exact fun _ _ => hl.flushed h₁ h₂
  active_le := hactive ▸ hl.active_le
  flush_le := hflush ▸ hl.flush_le
  dropped := by rw [hdrop, hchecks]; exact hl.dropped
  content := by
    have hun : t.unwritten = s.unwritten := by
      rcases hw with hw | ⟨h₁,-,h₂,-⟩
      · simp only [State.unwritten,hw,hflush]
      · simp [State.unwritten,h₁,h₂]
    simp only [hfile,hun,hactive,hd,accepted,hchecks]
    exact hl.content

theorem Lossless.notifyOne {maxCapacity : Nat} {s : State τ} {h : List (Note τ)}
    (hl : Lossless maxCapacity s h) : Lossless maxCapacity s.notifyOne h := by
  rcases notifyOne_cases s with ⟨-,heq⟩ | ⟨hw,heq⟩
  · rw [heq]; exact hl
  · rw [heq]
    exact hl.congr (.inr ⟨by rw [hw]; simp, by rw [hw]; simp, by simp, by simp⟩) rfl rfl rfl rfl rfl .rfl

theorem checks_append_checked (h : List (Note τ)) (t : τ) (r : Record) (fits : Bool) (bytes : List Byte) :
    checks (h ++ [.checked t r fits bytes]) = checks h ++ [(t,r,fits)] := by
  simp [checks]

/-- The worker is inside its critical section. -/
def Worker.inside : Worker → Bool
  | .checking | .blocking | .swapping => true
  | _ => false

/-- The records of the calls that have been through the capacity check. -/
def settled (h : List (Note τ)) : List (τ × Record) := (checks h).map (fun x => (x.1,x.2.1))

/-- Who holds the mutex, and the order in which the calls of `log` took it. -/
structure Serialized (s : State τ) (h : List (Note τ)) : Prop where
  worker : s.worker.inside = true → s.mutex = some .worker
  holds : ∀ t r, s.producer t = .locked r → s.mutex = some (.producer t)
  order : locks h = settled h ∧ (∀ t, s.mutex ≠ some (.producer t)) ∨
    ∃ t r, s.mutex = some (.producer t) ∧ s.producer t = .locked r ∧ locks h = settled h ++ [(t,r)]

/-- Steps of the worker and of the destructor. -/
theorem Serialized.congr {s t : State τ} {h : List (Note τ)} (hser : Serialized s h)
    (hp : t.producer = s.producer) (hw : t.worker.inside = true → t.mutex = some .worker)
    (hm : t.mutex = s.mutex ∨ ((∀ u, s.mutex ≠ some (.producer u)) ∧ ∀ u, t.mutex ≠ some (.producer u))) :
    Serialized t h := by
  rcases hm with hm | ⟨hs,ht⟩
  · refine ⟨hw, by rw [hp, hm]; exact hser.holds, ?_⟩
    rw [hm, hp]
    exact hser.order
  · refine ⟨hw, fun u r hl => absurd (hser.holds u r (hp ▸ hl)) (hs u), .inl ⟨?_,ht⟩⟩
    rcases hser.order with ⟨ho,-⟩ | ⟨u,r,hu,-⟩
    · exact ho
    · exact absurd hu (hs u)

theorem Serialized.notifyOne {s : State τ} {h : List (Note τ)} (hser : Serialized s h) :
    Serialized s.notifyOne h := by
  rcases notifyOne_cases s with ⟨-,heq⟩ | ⟨-,heq⟩
  · rw [heq]; exact hser
  · rw [heq]
    exact hser.congr rfl (by simp [Worker.inside]) (.inl rfl)

variable [DecidableEq τ]

theorem Staged.step {maxCapacity : Nat} {s t : State τ} {e : Event τ} {notes : List (Note τ)} (h : Staged s)
    (hok : NoOverlap s e) (hs : Step maxCapacity s e notes t) : Staged t := by
  obtain ⟨ho,ha,he,hi⟩ := h
  -- a producer that is busy shows that the destructor has not begun
  have hbusy : ∀ {u : τ}, s.producer u ≠ .idle → s.destructor = .alive := by
    intro u hu
    by_contra hd
    exact hu (hi hd u)
  cases hs with
  | ignored => exact ⟨ho,ha,he,hi⟩
  | called _ _ =>
    have hd : s.destructor = .alive := hok
    exact ⟨ho, ha, fun hh => by simp [State.setProducer,hd] at hh, fun hh => absurd hd hh⟩
  | locked hp _ | dropped hp | appended hp _ =>
    have hd := hbusy (by rw [hp]; simp)
    exact ⟨ho, ha, fun hh => by simp [State.setProducer,hd] at hh, fun hh => absurd hd hh⟩
  | notified hp =>
    have hd := hbusy (by rw [hp]; simp)
    rcases notifyOne_cases s with ⟨-,heq⟩ | ⟨-,heq⟩
    · rw [heq]
      exact ⟨ho, ha, fun hh => by simp [State.setProducer,hd] at hh, fun hh => absurd hd hh⟩
    · rw [heq]
      exact ⟨ho, ha, fun hh => by simp [State.setProducer,hd] at hh, fun hh => absurd hd hh⟩
  | tested hw | passed hw | refused hw _ _ | blocked hw | swapped hw | skipped hw _ | cleared hw
  | woken hw =>
    refine ⟨ho, ha, fun hh => ?_, hi⟩
    have := he hh
    rw [hw] at this
    simp at this
  | flushed hw =>
    rw [write_eq ho]
    refine ⟨ho, ha, fun hh => ?_, hi⟩
    have := he hh
    rw [hw] at this
    simp at this
  | entered hw _ =>
    refine ⟨ho, ha, fun hh => ?_, hi⟩
    have := he hh
    rcases hw with hw | hw <;> (rw [hw] at this; simp at this)
  | stopped hd _ => exact ⟨ho, by simp, by simp, fun _ => hok hd⟩
  | unused hd hr =>
    rw [ha hd] at hr
    simp at hr
  | announced hd =>
    have hidle := hi (by rw [hd]; simp)
    rcases notifyOne_cases s with ⟨-,heq⟩ | ⟨-,heq⟩
    · rw [heq]
      exact ⟨ho, by simp, by simp, fun _ => hidle⟩
    · rw [heq]
      exact ⟨ho, by simp, by simp, fun _ => hidle⟩
  | joined hd hw => exact ⟨ho, by simp, fun _ => hw, fun _ => hi (by rw [hd]; simp)⟩
  | claimed hd _ => exact ⟨ho, by simp, fun _ => he (.inl hd), fun _ => hi (by rw [hd]; simp)⟩
  | drained hd =>
    rw [write_eq ho]
    exact ⟨ho, by simp, fun _ => he (.inr (.inl hd)), fun _ => hi (by rw [hd]; simp)⟩

theorem Lossless.step {maxCapacity : Nat} {s t : State τ} {e : Event τ} {h notes : List (Note τ)}
    (hst : Staged s) (hl : Lossless maxCapacity s h) (hs : Step maxCapacity s e notes t) :
    Lossless maxCapacity t (h ++ notes) := by
  -- a producer that is busy shows that the destructor has not begun
  have hbusy : ∀ {u : τ}, s.producer u ≠ .idle → s.destructor = .alive := by
    intro u hu
    by_contra hd
    exact hu (hst.idle hd u)
  have hnone : checks (h ++ []) = checks h := by rw [List.append_nil]
  cases hs with
  | ignored => exact hl.congr (.inl rfl) rfl rfl rfl rfl hnone .rfl
  | called _ _ | locked _ _ => exact hl.congr (.inl rfl) rfl rfl rfl rfl (by simp [checks]) .rfl
  | dropped hp =>
    refine ⟨hl.flushed, hl.active_le, hl.flush_le, ?_, ?_⟩
    · have hdropped := hl.dropped
      simp only [hdropped,checks_append_checked,List.countP_append,List.countP_singleton,Bool.not_false,
        ↓reduceIte]
    · refine Eq.trans hl.content ?_
      simp [accepted,checks_append_checked]
  | @appended u r hp hfit =>
    have hd := hbusy (by rw [hp]; simp)
    refine ⟨hl.flushed, ?_, hl.flush_le, ?_, ?_⟩
    · simp only [List.length_append,r.length_header]
      exact hfit
    · refine Eq.trans hl.dropped ?_
      simp [checks_append_checked]
    · have hcontent := hl.content
      simp only [hd,reduceCtorEq,↓reduceIte] at hcontent
      simp only [State.setProducer,State.unwritten,accepted,checks_append_checked,hd,reduceCtorEq,↓reduceIte,
        List.filter_append,List.map_append,List.flatten_append] at hcontent ⊢
      rw [← hcontent]
      simp [Record.encode]
  | notified _ => exact hl.notifyOne.congr (.inl rfl) rfl rfl rfl rfl hnone .rfl
  | tested hw =>
    refine hl.congr (.inr ⟨by rw [hw]; simp, by rw [hw]; simp, ?_, ?_⟩) rfl rfl rfl rfl hnone .rfl
    · simp only; split <;> simp
    · simp only; split <;> simp
  | passed hw | refused hw _ _ | blocked hw | woken hw =>
    exact hl.congr (.inr ⟨by rw [hw]; simp, by rw [hw]; simp, by simp, by simp⟩) rfl rfl rfl rfl hnone .rfl
  | entered hw _ =>
    refine hl.congr (.inr ⟨?_, ?_, by simp, by simp⟩) rfl rfl rfl rfl hnone .rfl
    · rcases hw with hw | hw <;> (rw [hw]; simp)
    · rcases hw with hw | hw <;> (rw [hw]; simp)
  | swapped hw =>
    have hflush := hl.flushed (by rw [hw]; simp) (by rw [hw]; simp)
    have hd : s.destructor ≠ .done := by
      intro hd
      have := hst.exited (.inr (.inr hd))
      rw [hw] at this
      simp at this
    refine ⟨by simp, by simp [hflush], hl.active_le, by rw [hnone]; exact hl.dropped, ?_⟩
    have := hl.content
    simpa [State.unwritten,hw,hflush,hd,accepted,hnone] using this
  | skipped hw hflush =>
    refine ⟨fun _ _ => hflush, hl.active_le, hl.flush_le, by rw [hnone]; exact hl.dropped, ?_⟩
    have := hl.content
    simpa [State.unwritten,hw,hflush,accepted,hnone] using this
  | flushed hw =>
    rw [write_eq hst.opened]
    refine ⟨by simp, hl.active_le, hl.flush_le, by rw [hnone]; exact hl.dropped, ?_⟩
    have := hl.content
    simpa [State.unwritten,hw,accepted,hnone] using this
  | cleared hw =>
    refine ⟨fun _ _ => rfl, hl.active_le, Nat.zero_le _, by rw [hnone]; exact hl.dropped, ?_⟩
    have := hl.content
    simpa [State.unwritten,hw,accepted,hnone] using this
  | stopped hd _ | unused hd _ | joined hd _ | claimed hd _ =>
    exact hl.congr (.inl rfl) rfl rfl rfl rfl hnone (by simp [hd])
  | announced hd =>
    exact hl.notifyOne.congr (.inl rfl) rfl rfl rfl rfl hnone (by simp [hd])
  | drained hd =>
    have hw := hst.exited (.inr (.inl hd))
    rw [write_eq hst.opened]
    refine ⟨hl.flushed, hl.active_le, hl.flush_le, by rw [hnone]; exact hl.dropped, ?_⟩
    have := hl.content
    simpa [State.unwritten,hw,hd,accepted,hnone] using this

/-- A producer moves between two positions outside the critical section. -/
theorem Serialized.setProducer {s : State τ} {h : List (Note τ)} (hser : Serialized s h) {t : τ} {p : Producer}
    (hs : ∀ r, s.producer t ≠ .locked r) (hp : ∀ r, p ≠ .locked r) :
    Serialized (s.setProducer t p) h := by
  have hother : ∀ u r, (s.setProducer t p).producer u = .locked r ↔ s.producer u = .locked r := by
    intro u r
    by_cases hu : u = t
    · subst hu
      simp [State.setProducer,hs,hp]
    · simp [State.setProducer,Function.update_of_ne hu]
  refine ⟨hser.worker, fun u r hl => hser.holds u r ((hother u r).mp hl), ?_⟩
  rcases hser.order with ho | ⟨u,r,hm,hl,ho⟩
  · exact .inl ho
  · exact .inr ⟨u,r,hm,(hother u r).mpr hl,ho⟩

/-- A producer leaves the critical section. -/
theorem Serialized.leave {s t : State τ} {h : List (Note τ)} (hser : Serialized s h) {u : τ} {r : Record}
    {p : Producer} {fits : Bool} {bytes : List Byte} (hl : s.producer u = .locked r) (hp : ∀ r, p ≠ .locked r)
    (hprod : t.producer = Function.update s.producer u p) (hm : t.mutex = none) (hw : t.worker = s.worker) :
    Serialized t (h ++ [.checked u r fits bytes]) := by
  have hmutex := hser.holds u r hl
  refine ⟨fun hin => ?_, fun v r' hv => ?_, .inl ⟨?_,by simp [hm]⟩⟩
  · have := hser.worker (hw ▸ hin)
    simp [hmutex] at this
  · rw [hprod] at hv
    by_cases hvu : v = u
    · subst hvu
      rw [Function.update_self] at hv
      exact absurd hv (hp r')
    · rw [Function.update_of_ne hvu] at hv
      have := (hser.holds v r' hv).symm.trans hmutex
      simp only [Option.some.injEq,Holder.producer.injEq] at this
      exact absurd this hvu
  · rcases hser.order with ⟨-,hn⟩ | ⟨v,r',hv,hl',ho⟩
    · exact absurd hmutex (hn u)
    · rw [hmutex] at hv
      simp only [Option.some.injEq,Holder.producer.injEq] at hv
      subst hv
      rw [hl] at hl'
      simp only [Producer.locked.injEq] at hl'
      have hlocks : locks (h ++ [.checked u r fits bytes]) = locks h := by simp [locks]
      rw [hlocks, ho, settled, settled, checks_append_checked, List.map_append, ← hl']
      rfl

theorem Serialized.step {maxCapacity : Nat} {s t : State τ} {e : Event τ} {h notes : List (Note τ)}
    (hst : Staged s) (hser : Serialized s h) (hs : Step maxCapacity s e notes t) :
    Serialized t (h ++ notes) := by
  have hinside : s.worker.inside = true → ∀ u, s.mutex ≠ some (.producer u) := by
    intro hin u
    rw [hser.worker hin]
    simp
  have hser' : Serialized s (h ++ []) := by rwa [List.append_nil]
  cases hs with
  | ignored => exact hser'
  | @called u r _ hp =>
    have hcalled : Serialized s (h ++ [.called u r]) := by
      refine ⟨hser.worker, hser.holds, ?_⟩
      simpa only [locks,settled,checks,List.filterMap_append,List.filterMap_cons,List.filterMap_nil,
        List.append_nil] using hser.order
    exact hcalled.setProducer (by rw [hp]; simp) (by simp)
  | @locked u r hp hm =>
    refine ⟨fun hin => ?_, fun v r' hv => ?_, .inr ⟨u,r,rfl,by simp [State.setProducer],?_⟩⟩
    · have := hser.worker hin
      simp [hm] at this
    · by_cases hvu : v = u
      · rw [hvu]
      · simp only [State.setProducer,Function.update_of_ne hvu] at hv
        have := hser.holds v r' hv
        simp [hm] at this
    · rcases hser.order with ⟨ho,-⟩ | ⟨v,r',hv,-⟩
      · have hlocks : locks (h ++ [.locked u r]) = locks h ++ [(u,r)] := by simp [locks]
        have hsettled : settled (h ++ [.locked u r]) = settled h := by simp [settled,checks]
        rw [hlocks, hsettled, ho]
      · simp [hm] at hv
  | dropped hp | appended hp _ => exact hser.leave hp (by simp) rfl rfl rfl
  | notified hp => exact hser'.notifyOne.setProducer (by simp [hp]) (by simp)
  | tested hw =>
    refine hser'.congr rfl ?_ (.inl rfl)
    simp only; split <;> simp [Worker.inside]
  | skipped hw _ | cleared hw | woken hw =>
    exact hser'.congr rfl (by simp [Worker.inside]) (.inl rfl)
  | flushed hw =>
    rw [write_eq hst.opened]
    exact hser'.congr rfl (by simp [Worker.inside]) (.inl rfl)
  | entered _ hm => exact hser'.congr rfl (fun _ => rfl) (.inr ⟨by simp [hm],by simp⟩)
  | passed hw | refused hw _ _ =>
    exact hser'.congr rfl (fun _ => hser.worker (by simp [hw,Worker.inside])) (.inl rfl)
  | blocked hw | swapped hw =>
    refine hser'.congr rfl (by simp [Worker.inside]) (.inr ⟨hinside ?_,by simp⟩)
    simp [hw,Worker.inside]
  | stopped _ _ | unused _ _ | joined _ _ => exact hser'.congr rfl hser.worker (.inl rfl)
  | announced _ => exact hser'.notifyOne.congr rfl hser.notifyOne.worker (.inl rfl)
  | claimed hd hm =>
    refine hser'.congr rfl (fun hin => ?_) (.inr ⟨by simp [hm],by simp⟩)
    simp [hst.exited (.inl hd),Worker.inside] at hin
  | drained hd =>
    rw [write_eq hst.opened]
    refine hser'.congr rfl (fun hin => ?_) (.inr ⟨fun u hu => ?_,by simp⟩)
    · simp [hst.exited (.inr (.inl hd)),Worker.inside] at hin
    · rcases hser.order with ⟨-,hn⟩ | ⟨v,r,-,hl,-⟩
      · exact hn u hu
      · have := hst.idle (by simp [hd]) v
        simp [hl] at this

/-- The call that a producer has begun and that has not yet taken the mutex. -/
def Producer.waiting (t : τ) : Producer → List (τ × Record)
  | .locking r => [(t,r)]
  | .idle | .locked _ | .notifying => []

/-- Every call takes the mutex once, those of a thread in their order. -/
def Called (s : State τ) (h : List (Note τ)) : Prop :=
  ∀ t, (calls h).filter (·.1 = t) = (locks h).filter (·.1 = t) ++ (s.producer t).waiting t

theorem Called.congr {s t : State τ} {h h' : List (Note τ)} (hc : Called s h) (hcalls : calls h' = calls h)
    (hlocks : locks h' = locks h) (hp : ∀ u, (t.producer u).waiting u = (s.producer u).waiting u) :
    Called t h' := by
  intro u
  rw [hcalls, hlocks, hp]
  exact hc u

/-- A producer gets on between two positions in which no call of its waits for the mutex. -/
theorem Called.settle {s t : State τ} {h h' : List (Note τ)} (hc : Called s h) (hcalls : calls h' = calls h)
    (hlocks : locks h' = locks h) {u : τ} {p : Producer} (hp : t.producer = Function.update s.producer u p)
    (hs : (s.producer u).waiting u = []) (hnone : p.waiting u = []) : Called t h' := by
  refine hc.congr hcalls hlocks (fun v => ?_)
  rw [hp]
  by_cases hv : v = u
  · subst hv
    rw [Function.update_self, hs, hnone]
  · rw [Function.update_of_ne hv]

theorem Called.step {maxCapacity : Nat} {s t : State τ} {e : Event τ} {h notes : List (Note τ)}
    (hst : Staged s) (hc : Called s h) (hs : Step maxCapacity s e notes t) : Called t (h ++ notes) := by
  have hc' : Called s (h ++ []) := by rwa [List.append_nil]
  cases hs with
  | ignored => exact hc'
  | @called u r _ hp =>
    intro v
    have hv := hc v
    have hcalls : calls (h ++ [.called u r]) = calls h ++ [(u,r)] := by simp [calls]
    have hlocks : locks (h ++ [.called u r]) = locks h := by simp [locks]
    rw [hcalls, hlocks, List.filter_append, hv, State.setProducer]
    by_cases hvu : v = u
    · subst hvu
      simp [hp,Producer.waiting]
    · simp [Function.update_of_ne hvu,Ne.symm hvu]
  | @locked u r hp _ =>
    intro v
    have hv := hc v
    have hcalls : calls (h ++ [.locked u r]) = calls h := by simp [calls]
    have hlocks : locks (h ++ [.locked u r]) = locks h ++ [(u,r)] := by simp [locks]
    rw [hcalls, hlocks, List.filter_append, hv, State.setProducer]
    by_cases hvu : v = u
    · subst hvu
      simp [hp,Producer.waiting]
    · simp [Function.update_of_ne hvu,Ne.symm hvu]
  | @dropped u r hp =>
    exact hc.settle (by simp [calls]) (by simp [locks]) rfl (by simp [hp,Producer.waiting]) rfl
  | @appended u r hp _ =>
    exact hc.settle (by simp [calls]) (by simp [locks]) rfl (by simp [hp,Producer.waiting]) rfl
  | @notified u hp =>
    exact hc'.settle rfl rfl (u := u) (p := .idle) (by simp [State.setProducer]) (by simp [hp,Producer.waiting]) rfl
  | flushed _ | drained _ =>
    rw [write_eq hst.opened]
    exact hc'.congr rfl rfl (fun _ => rfl)
  | announced _ => exact hc'.congr rfl rfl (by simp)
  | _ => exact hc'.congr rfl rfl (fun _ => rfl)

/-- What holds of a logger whose file opened, as long as no call overlaps the destructor. -/
structure Recorded (maxCapacity : Nat) (s : State τ) (h : List (Note τ)) : Prop where
  staged : Staged s
  lossless : Lossless maxCapacity s h
  serialized : Serialized s h
  called : Called s h

theorem recorded_initial (maxCapacity : Nat) : Recorded maxCapacity (initial true : State τ) [] where
  staged := ⟨rfl, fun _ => rfl, by simp [initial], fun _ _ => rfl⟩
  lossless := ⟨fun _ _ => rfl, Nat.zero_le _, Nat.zero_le _, rfl, rfl⟩
  serialized := ⟨by simp [initial,Worker.inside], by simp [initial], .inl ⟨rfl,by simp [initial]⟩⟩
  called := fun _ => rfl

theorem Recorded.step {maxCapacity : Nat} {s t : State τ} {e : Event τ} {h notes : List (Note τ)}
    (hr : Recorded maxCapacity s h) (hok : NoOverlap s e) (hs : Step maxCapacity s e notes t) :
    Recorded maxCapacity t (h ++ notes) where
  staged := hr.staged.step hok hs
  lossless := hr.lossless.step hr.staged hs
  serialized := hr.serialized.step hr.staged hs
  called := hr.called.step hr.staged hs

/-- A logger whose file opened, in runs where no call of `log` overlaps the destructor, and what
was recorded of the run. -/
abbrev Reached (maxCapacity : Nat) (s : State τ) (h : List (Note τ)) : Prop :=
  Transition.Reach (fun p : State τ × List (Note τ) => p.1 = initial true ∧ p.2 = []) (recorder maxCapacity)
    (fun p e => NoOverlap p.1 e) (s,h)

theorem Reached.recorded {maxCapacity : Nat} {s : State τ} {h : List (Note τ)} (hr : Reached maxCapacity s h) :
    Recorded maxCapacity s h := by
  refine Transition.Reach.invariant (fun p => Recorded maxCapacity p.1 p.2) ?_ ?_ hr
  · rintro ⟨s,h⟩ ⟨rfl,rfl⟩
    exact recorded_initial maxCapacity
  · intro p e q ih hok hstep
    obtain ⟨hs,hh⟩ := Transition.recorded_eq_some.mp hstep
    rw [hh]
    exact ih.step hok (step_cases hs)

theorem Recorded.locks_eq {maxCapacity : Nat} {s : State τ} {h : List (Note τ)} (hr : Recorded maxCapacity s h)
    (hidle : ∀ t, s.producer t = .idle) : locks h = settled h := by
  rcases hr.serialized.order with ⟨ho,-⟩ | ⟨t,r,-,hl,-⟩
  · exact ho
  · have := hidle t
    simp [hl] at this

theorem Recorded.calls_eq {maxCapacity : Nat} {s : State τ} {h : List (Note τ)} (hr : Recorded maxCapacity s h)
    (hidle : ∀ t, s.producer t = .idle) (t : τ) :
    (calls h).filter (·.1 = t) = (locks h).filter (·.1 = t) := by
  rw [hr.called t, hidle t, Producer.waiting, List.append_nil]

theorem Recorded.length_calls {maxCapacity : Nat} {s : State τ} {h : List (Note τ)}
    (hr : Recorded maxCapacity s h) (hidle : ∀ t, s.producer t = .idle) :
    (calls h).length = (accepted h).length+s.dropped := by
  have hperm : (calls h).Perm (locks h) := by
    rw [List.perm_iff_count]
    intro x
    have hcount := congrArg (List.count x) (hr.calls_eq hidle x.1)
    rwa [List.count_filter (by simp), List.count_filter (by simp)] at hcount
  rw [hperm.length_eq, hr.locks_eq hidle, hr.lossless.dropped, settled, accepted, List.length_map, List.length_map,
    ← List.countP_eq_length_filter, List.length_eq_countP_add_countP (fun x => x.2.2)]
  simp

/-- The buffers stay within `max_capacity_`. After the destructor the file is the records that
passed the capacity check, whole and in the order in which their calls took the mutex; every
call with data made while running took the mutex once, those of a thread in their order; and
each of them was accepted or counted as dropped. -/
theorem logger_lossless (maxCapacity : Nat) (s : State τ) (h : List (Note τ)) (hr : Reached maxCapacity s h) :
    s.active.length ≤ maxCapacity ∧ s.flush.length ≤ maxCapacity ∧
    (s.destructor = .done →
      s.file = ((accepted h).map Record.encode).flatten ∧
      locks h = (checks h).map (fun x => (x.1,x.2.1)) ∧
      (∀ t, (calls h).filter (·.1 = t) = (locks h).filter (·.1 = t)) ∧
      (calls h).length = (accepted h).length+s.dropped) := by
  have hrec := hr.recorded
  refine ⟨hrec.lossless.active_le, hrec.lossless.flush_le, fun hd => ?_⟩
  have hidle := hrec.staged.idle (by rw [hd]; simp)
  refine ⟨?_, hrec.locks_eq hidle, hrec.calls_eq hidle, hrec.length_calls hidle⟩
  have hw := hrec.staged.exited (.inr (.inr hd))
  have hcontent := hrec.lossless.content
  simpa [State.unwritten,hw,hd] using hcontent

/-- Two records with room for one in each buffer: the worker takes the first while the second
arrives, a third is dropped, and the destructor writes the second. -/
def shutdownRun : List (Event Unit) :=
  [.log () ⟨1,2,[7]⟩, .lock (), .append (), .notify (),
   .work, .work, .work, .work,
   .log () ⟨3,4,[8,9]⟩, .lock (), .append (), .notify (),
   .log () ⟨5,6,[10]⟩, .lock (), .append (),
   .work, .work, .destroy, .work, .destroy, .destroy, .destroy, .destroy]

/-- Follow a run in which no call overlaps the destructor. -/
def undisturbed [Fintype τ] (maxCapacity : Nat) (es : List (Event τ)) : Option (State τ × List (Note τ)) :=
  Transition.run (Transition.guarded (recorder maxCapacity) (fun p e => decide (NoOverlap p.1 e))) (initial true,[]) es

theorem reached_undisturbed [Fintype τ] {maxCapacity : Nat} {es : List (Event τ)} {s : State τ} {h : List (Note τ)}
    (hrun : undisturbed maxCapacity es = some (s,h)) : Reached maxCapacity s h :=
  .run_guarded (fun _ _ => of_decide_eq_true) (.start ⟨rfl,rfl⟩) hrun

theorem logger_lossless_three : ∃ (s : State Unit) (h : List (Note Unit)),
    undisturbed 20 shutdownRun = some (s,h) ∧ Reached 20 s h ∧ s.destructor = .done ∧ s.dropped = 1 ∧
    (calls h).map Prod.snd = [⟨1,2,[7]⟩, ⟨3,4,[8,9]⟩, ⟨5,6,[10]⟩] ∧
    (calls h).length = (accepted h).length+s.dropped ∧
    s.file = [0,0,0,1, 0,0,0,1, 0,0,0,0,0,0,0,2, 7, 0,0,0,3, 0,0,0,2, 0,0,0,0,0,0,0,4, 8,9] := by
  have hrun : (undisturbed 20 shutdownRun).map (fun p => (p.1.destructor, p.1.dropped, (calls p.2).map Prod.snd,
      accepted p.2)) = some (.done, 1, [⟨1,2,[7]⟩,⟨3,4,[8,9]⟩,⟨5,6,[10]⟩], [⟨1,2,[7]⟩,⟨3,4,[8,9]⟩]) := by
    decide +kernel
  obtain ⟨⟨s,h⟩,hs,hv⟩ := Option.map_eq_some_iff.mp hrun
  simp only [Prod.mk.injEq] at hv
  obtain ⟨hd,hdrop,hcalls,hacc⟩ := hv
  have hreach := reached_undisturbed hs
  obtain ⟨-,-,hdone⟩ := logger_lossless 20 s h hreach
  obtain ⟨hfile,-,-,hlen⟩ := hdone hd
  refine ⟨s, h, hs, hreach, hd, hdrop, hcalls, hlen, ?_⟩
  rw [hfile, hacc]
  decide

end Librim.AsyncLogger
