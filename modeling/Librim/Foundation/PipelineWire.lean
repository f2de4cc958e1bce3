import Librim.Foundation.PipelineFlow

set_option autoImplicit false

namespace Pipeline

variable {τ ρ μ ω : Type} {cap limit : Nat} {units : μ → List ω}

/-- Nothing has been asked for yet. -/
structure Pristine (p : State τ ρ μ ω) : Prop where
  idle : ∀ t, p.pc t = .idle
  ready : p.ready = []
  queue : p.queue = []
  writes : p.writes = []
  phase : p.phase = .idle
  entered : p.entered = []
  flushed : p.flushed = []
  wire : p.wire = []

/-- No write has failed, or its failure is not yet known. -/
def Healthy (p : State τ ρ μ ω) : Prop :=
  (∀ w, .written w true ∉ p.ready) ∧ ∀ n, p.phase ≠ .releasing n true

/-- The units of the entries still in the queue that the transport has taken. -/
def State.inflight (units : μ → List ω) (p : State τ ρ μ ω) : List ω :=
  match p.phase with
  | .releasing n _ => ((p.queue.take n).map p.mem).flatMap units
  | .idle => p.outstanding.flatMap (fun w => (p.toStore.data units w).take w.written)

/-- What the transport has taken, up to the end of the session `first`, before which nothing
was asked for. -/
structure Wired (units : μ → List ω) (first : Nat) (p : State τ ρ μ ω) : Prop where
  pristine : p.session < first → Pristine p
  whole : ∀ w, .written w false ∈ p.ready → w.written = (p.toStore.data units w).length
  taken : p.session ≤ first → p.wire <+: (p.entered.map Prod.snd).flatMap units
  exact : p.session ≤ first → p.isOpen = true → Healthy p →
    p.wire = p.flushed.flatMap units ++ p.inflight units

theorem Serial.data_eq {p : State τ ρ μ ω} {w : Write} (hb : w.bufs = p.queue.take p.batch) :
    p.toStore.data units w = ((p.queue.take p.batch).map p.mem).flatMap units := by
  rw [Store.data, hb, List.flatMap_map]

/-- What is flushed or in flight is a prefix of what entered. -/
theorem Flow.taken {p : State τ ρ μ ω} (h : Flow p) (n : Nat) :
    p.flushed.flatMap units ++ ((p.queue.take n).map p.mem).flatMap units <+:
      (p.entered.map Prod.snd).flatMap units := by
  rw [h, List.flatMap_append, List.prefix_append_right_inj]
  refine ⟨((p.queue.drop n).map p.mem).flatMap units, ?_⟩
  rw [← List.flatMap_append, ← List.map_append, List.take_append_drop]

theorem State.inflight_congr {p p' : State τ ρ μ ω} (hph : p'.phase = p.phase)
    (hout : p'.outstanding = p.outstanding) (hq : p'.queue = p.queue) (hm : p'.mem = p.mem) :
    p'.inflight units = p.inflight units := by
  simp only [State.inflight,hph,hout,hq,hm,Store.data]

theorem State.inflight_of_idle {p p' : State τ ρ μ ω} (hph : p.phase = .idle)
    (hph' : p'.phase = .idle) (hout : p'.outstanding = p.outstanding) (hm : p'.mem = p.mem) :
    p'.inflight units = p.inflight units := by
  simp only [State.inflight,hph,hph',hout,hm,Store.data]

theorem State.inflight_of_none {p : State τ ρ μ ω} (hph : p.phase = .idle)
    (hout : p.outstanding = []) : p.inflight units = [] := by
  simp [State.inflight,hph,hout]

theorem State.inflight_of_write {p : State τ ρ μ ω} {w : Write} (hph : p.phase = .idle)
    (hout : p.outstanding = [w]) :
    p.inflight units = (p.toStore.data units w).take w.written := by
  simp [State.inflight,hph,hout]

theorem Store.data_update {s : Store τ ρ μ ω} {w : Write} {b : Nat} {m : μ} (hb : b ∉ w.bufs) :
    Store.data units { s with mem := Function.update s.mem b m } w = s.data units w := by
  simp only [Store.data]
  rw [← List.flatMap_map (Function.update s.mem b m) units, map_update_of_not_mem hb,
    List.flatMap_map]

theorem Healthy.of_append {p p' : State τ ρ μ ω} {j : Job τ} (h : Healthy p')
    (hr : p'.ready = p.ready ++ [j]) (hph : p'.phase = p.phase) : Healthy p :=
  ⟨fun w hw => h.1 w (by simp [hr,hw]), hph ▸ h.2⟩

theorem Healthy.of_cons {p : State τ ρ μ ω} {j : Job τ} {rest : List (Job τ)}
    (hready : p.ready = j :: rest) (hj : ∀ w, j ≠ .written w true) (hph : p.phase = .idle)
    (h : ∀ w, .written w true ∉ rest) : Healthy p := by
  refine ⟨fun w hm => ?_, fun n hn => by simp [hph] at hn⟩
  rw [hready, List.mem_cons] at hm
  exact hm.elim (fun he => hj w he.symm) (h w)

variable [DecidableEq τ] {first : Nat}

theorem Store.data_fill {s : Store τ ρ μ ω} {w : Write} {t : τ} {b : Nat} {r : ρ} {m : μ}
    (hb : b ∉ w.bufs) : (s.fill t b r m).data units w = s.data units w :=
  Store.data_update hb

/-- Filling a buffer does not touch what is in the queue or being written. -/
theorem Serial.inflight_fill {p : State τ ρ μ ω} (ho : Owned cap p) (h : Serial p) {t : τ}
    {b : Nat} {r : ρ} {m : μ} (hpc : p.pc t = .holding b r) :
    State.inflight units (State.mk (p.toStore.fill t b r m) p.ready p.phase p.isOpen p.session) =
      p.inflight units := by
  have hb := ho.hand_not_mem_queue hpc
  cases hph : p.phase with
  | releasing n failed =>
    have hb' : b ∉ p.queue.take n := fun hm => hb (List.mem_of_mem_take hm)
    simp only [State.inflight,hph,Store.fill,map_update_of_not_mem hb']
  | idle =>
    rcases h.writing with hout | ⟨w,hout,-,hbufs,-⟩
    · rw [State.inflight_of_none hph hout]
      refine State.inflight_of_none ?_ ?_
      · rfl
      · exact hout
    · have hb' : b ∉ w.bufs := fun hm => hb (List.mem_of_mem_take (hbufs ▸ hm))
      rw [State.inflight_of_write hph hout, ← Store.data_fill hb']
      refine State.inflight_of_write ?_ ?_
      · rfl
      · exact hout

/-- While the transport is open and no write has failed, it has taken exactly the flushed
messages and the part of the current write that it reported. -/
theorem Wired.exact_step {p p' : State τ ρ μ ω} {l : Label τ ρ μ}
    (ho : Owned cap p) (h : Serial p) (hw : Wired units first p)
    (hs : Step cap limit units p l p') (hses : p'.session ≤ first) (hopen' : p'.isOpen = true)
    (hh : Healthy p') : p'.wire = p'.flushed.flatMap units ++ p'.inflight units := by
  cases hs with
  | close | finishFailed _ => simp at hopen'
  | reopen =>
    have hp := hw.pristine (by simp only at hses; omega)
    have hout : p.outstanding = [] := by simp [State.outstanding,hp.writes,hp.ready]
    simp only [hp.wire,hp.flushed,List.flatMap_nil,List.nil_append]
    exact (State.inflight_of_none hp.phase hout).symm
  | call _ _ => exact hw.exact hses hopen' hh
  | pop hp =>
    obtain ⟨r,b,rest,-,-,rfl⟩ := Store.pop_eq_some.mp hp
    exact hw.exact hses hopen' hh
  | fill hpc =>
    rw [h.inflight_fill ho hpc]
    exact hw.exact hses hopen' hh
  | @post t b r _ =>
    have hin : State.inflight units (State.mk (p.toStore.setPc t .idle) (p.ready ++ [.enqueue t b])
        p.phase p.isOpen p.session) = p.inflight units := by
      apply State.inflight_congr
      · rfl
      · simp [State.outstanding,Store.setPc,Job.write]
      · rfl
      · rfl
    rw [hin]
    exact hw.exact hses hopen' (hh.of_append rfl rfl)
  | @enqueue t b rest hph hready =>
    have hb : p.At b .job := by simp [State.At,State.posted,hready,Job.posted]
    have hroom := ho.queue_length_lt (by simp) hb
    obtain ⟨-,-,-,-,-,hm,-,-,hwire,hf,-⟩ := Store.enqueue_frame limit p.session t b hroom
    have hhp := Healthy.of_cons hready (by simp) hph hh.1
    have hcompleted : p.ready.filterMap Job.write = rest.filterMap Job.write := by
      simp [hready,List.filterMap_cons,Job.write]
    simp only [hwire,hf]
    rw [hw.exact hses hopen' hhp]
    refine congrArg (p.flushed.flatMap units ++ ·) ?_
    by_cases hq : p.queue = []
    · have hout := h.outstanding_of_empty hq
      simp only [State.outstanding,hcompleted,List.append_eq_nil_iff] at hout
      rw [State.inflight_of_none hph (h.outstanding_of_empty hq)]
      refine (State.inflight_of_write (w := ⟨[b].take limit,p.session,0⟩) ?_ ?_).symm
      · exact hph
      · have hcap : 0 < cap := by simpa [hq] using hroom
        simp [State.outstanding,Store.enqueue,Store.startWrite,Store.push,hcap,hq,hout]
    · have hne : p.queue.isEmpty = false := by simpa using hq
      refine (State.inflight_of_idle hph ?_ ?_ ?_).symm
      · exact hph
      · simp [State.outstanding,Store.enqueue,Store.push,hroom,hne,hcompleted]
      · exact hm
  | @progress i n w s hi _ _ hp =>
    obtain ⟨w',hi',-,rfl⟩ := Store.progress_eq_some.mp hp
    obtain ⟨rfl,hws,hr,hph,-⟩ := h.of_writes hi
    rw [hi, Option.some.injEq] at hi'
    subst hi'
    have hout : p.outstanding = [w] := by simp [State.outstanding,hws,hr]
    have hin := hw.exact hses hopen' hh
    rw [State.inflight_of_write hph hout] at hin
    rw [State.inflight_of_write (w := { w with written := w.written+n })]
    · simp only
      rw [hin, List.append_assoc]
      exact congrArg (_ ++ ·) List.take_add.symm
    · exact hph
    · simp [State.outstanding,hws,hr]
  | @complete i w failed hi _ =>
    obtain ⟨rfl,hws,hr,hph,-⟩ := h.of_writes hi
    have hin : State.inflight units (State.mk { p.toStore with writes := p.writes.eraseIdx 0 }
        (p.ready ++ [.written w failed]) p.phase p.isOpen p.session) = p.inflight units := by
      apply State.inflight_congr
      · rfl
      · simp [State.outstanding,hws,hr,Job.write]
      · rfl
      · rfl
    rw [hin]
    exact hw.exact hses hopen' (hh.of_append rfl rfl)
  | @begin w failed rest hph hready =>
    cases failed with
    | true => exact absurd rfl (hh.2 p.batch)
    | false =>
      have hmem : .written w false ∈ p.ready := hready ▸ List.mem_cons_self
      obtain ⟨hws,hr,-,hbufs,-⟩ := h.of_ready hmem
      have hin : p.inflight units = _ := State.inflight_of_write hph
        (by simp [State.outstanding,hws,hr] : p.outstanding = [w])
      rw [hw.whole w hmem, List.take_length, Serial.data_eq hbufs] at hin
      have := hw.exact hses hopen' (Healthy.of_cons hready (by simp) hph hh.1)
      rw [hin] at this
      exact this
  | @release n failed kept hph =>
    obtain ⟨-,hle⟩ := h.releasing _ _ hph
    have hh' : Healthy p := by
      refine ⟨fun w hm => hh.1 w hm, fun m hm => ?_⟩
      rw [hph, Phase.releasing.injEq] at hm
      obtain ⟨-,rfl⟩ := hm
      exact hh.2 n rfl
    have := hw.exact hses hopen' hh'
    cases hq : p.queue with
    | nil => rw [hq, List.length_nil] at hle; omega
    | cons b rest => simpa [State.inflight,hph,hq,Store.release] using this
  | finishMore hph hq =>
    obtain ⟨hout,-⟩ := h.releasing _ _ hph
    simp only [State.outstanding,List.append_eq_nil_iff] at hout
    have hin := hw.exact hses hopen' ⟨hh.1, fun m hm => by simp [hph] at hm⟩
    rw [State.inflight_of_write (w := ⟨p.queue.take limit,p.session,0⟩)]
    · simpa [State.inflight,hph,Store.startWrite] using hin
    · rfl
    · simp [State.outstanding,Store.startWrite,hout]
  | finishEmpty hph hq =>
    obtain ⟨hout,-⟩ := h.releasing _ _ hph
    have hin := hw.exact hses hopen' ⟨hh.1, fun m hm => by simp [hph] at hm⟩
    rw [State.inflight_of_none]
    · simpa [State.inflight,hph] using hin
    · rfl
    · exact hout

theorem Wired.whole_step {p p' : State τ ρ μ ω} {l : Label τ ρ μ} (ho : Owned cap p)
    (h : Serial p) (hw : Wired units first p) (hs : Step cap limit units p l p') :
    ∀ w, .written w false ∈ p'.ready → w.written = (p'.toStore.data units w).length := by
  have hwhole := hw.whole
  cases hs with
  | call _ _ | close | reopen | finishMore _ _ | finishEmpty _ _ | finishFailed _ => exact hwhole
  | pop hp =>
    obtain ⟨r,b,rest,-,-,rfl⟩ := Store.pop_eq_some.mp hp
    exact hwhole
  | @fill t b r m hpc =>
    intro w hm
    obtain ⟨-,-,-,hbufs,-⟩ := h.of_ready hm
    have hb : b ∉ w.bufs := fun hb' =>
      ho.hand_not_mem_queue hpc (List.mem_of_mem_take (hbufs ▸ hb'))
    exact (hwhole w hm).trans (congrArg List.length (Store.data_fill hb).symm)
  | post _ =>
    intro w hm
    exact hwhole w (by simpa using hm)
  | @enqueue t b rest _ hready =>
    have hb : p.At b .job := by simp [State.At,State.posted,hready,Job.posted]
    obtain ⟨-,-,-,-,-,hmem,-⟩ :=
      Store.enqueue_frame limit p.session t b (ho.queue_length_lt (by simp) hb)
    intro w hm
    simp only [Store.data,hmem]
    exact hwhole w (hready ▸ List.mem_cons_of_mem _ hm)
  | progress _ _ _ hp =>
    obtain ⟨w',-,-,rfl⟩ := Store.progress_eq_some.mp hp
    exact hwhole
  | complete _ hdone =>
    intro w hm
    rcases List.mem_append.mp hm with hm | hm
    · exact hwhole w hm
    · simp only [List.mem_singleton,Job.written.injEq] at hm
      obtain ⟨rfl,rfl⟩ := hm
      exact hdone rfl
  | begin _ hready => exact fun w hm => hwhole w (hready ▸ List.mem_cons_of_mem _ hm)
  | release _ =>
    intro w hm
    have := hwhole w hm
    cases hq : p.queue <;> simpa [Store.data,Store.release,hq] using this

theorem Pristine.step {p p' : State τ ρ μ ω} {l : Label τ ρ μ} (h : Pristine p)
    (hcall : ∀ t r, l ≠ .call t r) (hs : Step cap limit units p l p') : Pristine p' := by
  cases hs with
  | @call t r _ _ => exact absurd rfl (hcall t r)
  | pop hp =>
    obtain ⟨r,b,rest,hpc,-⟩ := Store.pop_eq_some.mp hp
    simp [h.idle] at hpc
  | fill hpc | post hpc => simp [h.idle] at hpc
  | enqueue _ hready | begin _ hready => simp [h.ready] at hready
  | progress hi _ _ _ | complete hi _ => simp [h.writes] at hi
  | release hph | finishMore hph _ | finishEmpty hph _ | finishFailed hph => simp [h.phase] at hph
  | close | reopen => exact { h with }

/-- What the transport has taken stays taken. -/
theorem wire_prefix_step {p p' : State τ ρ μ ω} {l : Label τ ρ μ}
    (hs : Step cap limit units p l p') : p.wire <+: p'.wire := by
  cases hs with
  | pop hp =>
    obtain ⟨r,b,rest,-,-,rfl⟩ := Store.pop_eq_some.mp hp
    exact List.prefix_rfl
  | progress _ _ _ hp =>
    obtain ⟨w,-,-,rfl⟩ := Store.progress_eq_some.mp hp
    exact List.prefix_append _ _
  | enqueue _ _ =>
    simp only [Store.enqueue,Store.startWrite,Store.push]
    split <;> split <;> try exact List.prefix_rfl
    all_goals split <;> exact List.prefix_rfl
  | release _ =>
    simp only [Store.release]
    split <;> exact List.prefix_rfl
  | _ => exact List.prefix_rfl

/-- What was appended is history. -/
theorem entered_prefix_step {p p' : State τ ρ μ ω} {l : Label τ ρ μ} (hs : Step cap limit units p l p') :
    p.entered <+: p'.entered := by
  cases hs with
  | pop hp =>
    obtain ⟨r,b,rest,-,-,rfl⟩ := Store.pop_eq_some.mp hp
    exact List.prefix_rfl
  | progress _ _ _ hp =>
    obtain ⟨w,-,-,rfl⟩ := Store.progress_eq_some.mp hp
    exact List.prefix_rfl
  | enqueue _ _ =>
    simp only [Store.enqueue]
    split <;> exact List.prefix_append _ _
  | release _ =>
    simp only [Store.release]
    split <;> exact List.prefix_rfl
  | _ => exact List.prefix_rfl

theorem session_le_step {p p' : State τ ρ μ ω} {l : Label τ ρ μ}
    (hs : Step cap limit units p l p') : p.session ≤ p'.session := by
  cases hs <;> simp

omit [DecidableEq τ] in
/-- What the transport took and what was accepted for it, when it is open and healthy. -/
theorem Wired.wire_prefix {p : State τ ρ μ ω} (hf : Flow p) (h : Serial p)
    (hexact : p.wire = p.flushed.flatMap units ++ p.inflight units) :
    p.wire <+: (p.entered.map Prod.snd).flatMap units := by
  rw [hexact]
  cases hph : p.phase with
  | releasing n failed => simpa only [State.inflight,hph] using hf.taken n
  | idle =>
    rcases h.writing with hout | ⟨w,hout,-,hbufs,-⟩
    · rw [State.inflight_of_none hph hout]
      have hnone : _ <+: (p.entered.map Prod.snd).flatMap units := hf.taken 0
      simpa using hnone
    · rw [State.inflight_of_write hph hout, Serial.data_eq hbufs]
      refine List.IsPrefix.trans ?_ (hf.taken p.batch)
      rw [List.prefix_append_right_inj]
      exact List.take_prefix _ _

theorem Wired.taken_step {p p' : State τ ρ μ ω} {l : Label τ ρ μ} (ho : Owned cap p)
    (h : Serial p) (h' : Serial p') (hf' : Flow p') (hw : Wired units first p)
    (hs : Step cap limit units p l p') (hses : p'.session ≤ first) :
    p'.wire <+: (p'.entered.map Prod.snd).flatMap units := by
  have hexact := hw.exact_step ho h hs hses
  have htaken := hw.taken
  cases hs with
  | call _ _ | fill _ | post _ | close | complete _ _ | begin _ _ | finishMore _ _
  | finishEmpty _ _ | finishFailed _ => exact htaken hses
  | reopen => exact htaken (by simp only at hses; omega)
  | pop hp =>
    obtain ⟨r,b,rest,-,-,rfl⟩ := Store.pop_eq_some.mp hp
    exact htaken hses
  | @enqueue t b rest _ hready =>
    have hb : p.At b .job := by simp [State.At,State.posted,hready,Job.posted]
    obtain ⟨-,-,-,-,-,-,-,-,hwire,-,he⟩ :=
      Store.enqueue_frame limit p.session t b (ho.queue_length_lt (by simp) hb)
    simp only [hwire,he,List.map_append,List.flatMap_append]
    exact (htaken hses).trans (List.prefix_append _ _)
  | @progress i n w s hi hopen _ hp =>
    obtain ⟨-,-,hr,hph,-⟩ := h.of_writes hi
    refine Wired.wire_prefix hf' h' (hexact hopen ⟨fun v hv => ?_, fun m hm => ?_⟩)
    · have : v ∈ p.ready.filterMap Job.write := List.mem_filterMap.mpr ⟨_,hv,rfl⟩
      simp [hr] at this
    · simp [hph] at hm
  | release _ =>
    have := htaken hses
    cases hq : p.queue <;> simpa [Store.release,hq] using this

theorem Wired.step {p p' : State τ ρ μ ω} {l : Label τ ρ μ} (ho : Owned cap p) (h : Serial p)
    (h' : Serial p') (hf' : Flow p') (hcall : ∀ t r, l = .call t r → first ≤ p.session)
    (hw : Wired units first p) (hs : Step cap limit units p l p') : Wired units first p' where
  pristine := by
    intro hlt
    have hle := session_le_step hs
    refine (hw.pristine (by omega)).step ?_ hs
    intro t r hl
    have := hcall t r hl
    omega
  whole := hw.whole_step ho h hs
  taken := hw.taken_step ho h h' hf' hs
  exact := hw.exact_step ho h hs

/-- The outstanding write, or the one that has failed, is of the current session. -/
structure Native (p : State τ ρ μ ω) : Prop where
  writes : ∀ w ∈ p.writes, w.session = p.session
  failures : ∀ w, .written w true ∈ p.ready → w.session = p.session

omit [DecidableEq τ] in
theorem Store.native_startWrite {s : Store τ ρ μ ω} {k : Nat} (h : ∀ w ∈ s.writes, w.session = k) :
    ∀ w ∈ (s.startWrite limit k).writes, w.session = k := by
  intro w hw
  rcases List.mem_append.mp hw with hw | hw
  · exact h w hw
  · rw [List.mem_singleton.mp hw]

theorem Native.step {p p' : State τ ρ μ ω} {l : Label τ ρ μ} (h : Native p)
    (hs : Step cap limit units p l p') (hsame : p'.session = p.session) : Native p' := by
  cases hs with
  | call _ _ | fill _ | finishEmpty _ _ | finishFailed _ | close => exact ⟨h.writes, h.failures⟩
  | reopen => simp at hsame
  | pop hp =>
    obtain ⟨r,b,rest,-,-,rfl⟩ := Store.pop_eq_some.mp hp
    exact ⟨h.writes, h.failures⟩
  | post _ => exact ⟨h.writes, fun w hw => h.failures w (by simpa using hw)⟩
  | @enqueue t b rest _ hready =>
    refine ⟨?_, fun w hw => h.failures w (hready ▸ List.mem_cons_of_mem _ hw)⟩
    have hpush : (p.toStore.push cap b).writes = p.writes := by
      unfold Store.push
      split
      · rfl
      · split <;> rfl
    have hentered : ∀ w ∈ (p.toStore.push cap b).writes, w.session = p.session := hpush ▸ h.writes
    simp only [Store.enqueue]
    split
    · exact Store.native_startWrite hentered
    · exact hentered
  | @progress i n w s hi _ _ hp =>
    obtain ⟨w',hi',-,rfl⟩ := Store.progress_eq_some.mp hp
    refine ⟨fun v hv => ?_, h.failures⟩
    rcases List.mem_or_eq_of_mem_set hv with hv | rfl
    · exact h.writes v hv
    · exact h.writes w' (List.mem_of_getElem? hi')
  | @complete i w failed hi _ =>
    refine ⟨fun v hv => h.writes v (List.mem_of_mem_eraseIdx hv), fun v hv => ?_⟩
    rcases List.mem_append.mp hv with hv | hv
    · exact h.failures v hv
    · simp only [List.mem_singleton,Job.written.injEq] at hv
      rw [hv.1]
      exact h.writes w (List.mem_of_getElem? hi)
  | begin _ hready => exact ⟨h.writes, fun w hw => h.failures w (hready ▸ List.mem_cons_of_mem _ hw)⟩
  | release _ =>
    refine ⟨?_, h.failures⟩
    unfold Store.release
    split <;> exact h.writes
  | finishMore _ _ => exact ⟨Store.native_startWrite h.writes, h.failures⟩

end Pipeline
