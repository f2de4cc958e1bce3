import Librim.Foundation.PipelineOrder

set_option autoImplicit false

namespace Pipeline

variable {τ ρ μ ω : Type} {cap limit : Nat} {units : μ → List ω}

theorem Served.enqueue {p : State τ ρ μ ω} (hsv : Served p) {t : τ} {b : Nat}
    {rest : List (Job τ)} (hph : p.phase = .idle) (hready : p.ready = .enqueue t b :: rest) :
    Served (State.mk (p.toStore.enqueue cap limit p.session t b) rest p.phase p.isOpen p.session) := by
  refine .inr (.inl ?_)
  by_cases hq : p.queue = []
  · simp [State.outstanding,Store.enqueue,Store.startWrite,hq]
  · rcases hsv with hn | ho | hp
    · exact absurd hn hq
    · have hne : p.queue.isEmpty = false := by simpa using hq
      have hcompleted : p.ready.filterMap Job.write = rest.filterMap Job.write := by
        simp [hready,List.filterMap_cons,Job.write]
      have hpush : (p.toStore.push cap b).writes = p.writes := by
        unfold Store.push
        split
        · rfl
        · split <;> rfl
      rw [State.outstanding, hcompleted] at ho
      simpa [State.outstanding,Store.enqueue,hne,hpush] using ho
    · exact absurd hph hp

theorem map_update_of_not_mem {l : List Nat} {b : Nat} (hb : b ∉ l) (f : Nat → μ) (m : μ) :
    l.map (Function.update f b m) = l.map f := by
  apply List.map_congr_left
  intro x hx
  exact Function.update_of_ne (ne_of_mem_of_not_mem hx hb) _ _

theorem Owned.hand_not_mem_queue {p : State τ ρ μ ω} (ho : Owned cap p) {t : τ} {b : Nat} {r : ρ}
    (hpc : p.pc t = .holding b r) : b ∉ p.queue :=
  ho.not_at .queue (show p.At b (.hand t) by simp [State.At,hpc,Pc.slot]) (by simp)

variable [DecidableEq τ]

/-- The queue of an open transport is served, provided it was so whenever the transport
was opened. -/
theorem Served.step {p p' : State τ ρ μ ω} {l : Label τ ρ μ} (h : Serial p)
    (hsv : p.isOpen = true → Served p) (hreopen : l = .reopen → Served p)
    (hs : Step cap limit units p l p') : p'.isOpen = true → Served p' := by
  cases hs with
  | call _ _ | fill _ => exact hsv
  | close => intro hopen; simp at hopen
  | reopen => exact fun _ => hreopen rfl
  | pop hp =>
    obtain ⟨r,b,rest,-,-,rfl⟩ := Store.pop_eq_some.mp hp
    exact hsv
  | post _ => simpa [Served,State.outstanding,Store.setPc,Job.write] using hsv
  | enqueue hph hready => exact fun hopen => (hsv hopen).enqueue hph hready
  | @progress i n w s hi _ _ hp =>
    obtain ⟨w',hi',-,rfl⟩ := Store.progress_eq_some.mp hp
    obtain ⟨rfl,hw,-⟩ := h.of_writes hi
    intro _
    exact .inr (.inl (by simp [State.outstanding,hw]))
  | complete _ _ =>
    intro _
    exact .inr (.inl (by simp [State.outstanding,Job.write]))
  | begin _ _ | release _ => intro _; exact .inr (.inr (by simp))
  | finishMore _ _ =>
    intro _
    exact .inr (.inl (by simp [State.outstanding,Store.startWrite]))
  | finishEmpty _ hq => exact fun _ => .inl hq
  | finishFailed _ => intro hopen; simp at hopen

theorem reopen_session {p p' : State τ ρ μ ω} (hs : Step cap limit units p .reopen p') :
    p'.session = p.session+1 := by
  generalize hl : (Label.reopen : Label τ ρ μ) = l at hs
  cases hs <;> simp_all

/-- The entries of the queue are what was appended and has not left it. -/
def Flow (p : State τ ρ μ ω) : Prop := p.entered.map Prod.snd = p.flushed ++ p.queue.map p.mem

theorem Flow.step {p p' : State τ ρ μ ω} {l : Label τ ρ μ} (ho : Owned cap p) (h : Flow p)
    (hs : Step cap limit units p l p') : Flow p' := by
  unfold Flow at h ⊢
  cases hs with
  | call _ _ | close | reopen | complete _ _ | begin _ _ | finishMore _ _ | finishEmpty _ _
  | finishFailed _ | post _ => exact h
  | pop hp =>
    obtain ⟨r,b,rest,-,-,rfl⟩ := Store.pop_eq_some.mp hp
    exact h
  | progress _ _ _ hp =>
    obtain ⟨w,-,-,rfl⟩ := Store.progress_eq_some.mp hp
    exact h
  | fill hpc =>
    simp only [Store.fill,map_update_of_not_mem (ho.hand_not_mem_queue hpc)]
    exact h
  | @enqueue t b rest _ hready =>
    have hb : p.At b .job := by simp [State.At,State.posted,hready,Job.posted]
    obtain ⟨-,-,hq,-,-,hm,-,-,-,hf,he⟩ :=
      Store.enqueue_frame limit p.session t b (ho.queue_length_lt (by simp) hb)
    simp only [hq,hm,hf,he,List.map_append,h]
    simp
  | release _ =>
    cases hq : p.queue with
    | nil => simpa [Store.release,hq] using h
    | cons b rest => simpa [Store.release,hq] using h

/-- The messages of one caller, as it asked for them, are those that entered the queue, those
that are posted and the one in its hands, in this order. -/
structure Ordered (intent : ρ → μ) (p : State τ ρ μ ω) : Prop where
  filled : ∀ t b r, p.pc t = .filled b r → p.mem b = intent r
  order : ∀ t, (p.sent t).map intent = (p.entered.filter (·.1 = t)).map Prod.snd ++
    (p.posted.filter (·.1 = t)).map (fun x => p.mem x.2) ++ (p.pc t).pending.map intent

theorem Ordered.step {intent : ρ → μ} {p p' : State τ ρ μ ω} {l : Label τ ρ μ} (ho : Owned cap p)
    (h : Ordered intent p) (hexact : ∀ t r m, l = .fill t r m → m = intent r)
    (hs : Step cap limit units p l p') : Ordered intent p' := by
  obtain ⟨hf,hord⟩ := h
  cases hs with
  | close | reopen | finishMore _ _ | finishEmpty _ _ | finishFailed _ => exact ⟨hf,hord⟩
  | @call t r _ hpc =>
    refine ⟨fun u b r' hu => ?_, fun u => ?_⟩
    · by_cases he : u = t
      · subst he; simp [Store.call] at hu
      · exact hf u b r' (by simpa [Store.call,Function.update_of_ne he] using hu)
    · by_cases he : u = t
      · subst he
        have := hord u
        simp only [hpc,Pc.pending,List.map_nil,List.append_nil] at this
        simp [Store.call,this,Pc.pending,State.posted]
      · simpa [Store.call,Function.update_of_ne he,State.posted] using hord u
  | @pop t s hp =>
    obtain ⟨r,b,rest,hpc,-,rfl⟩ := Store.pop_eq_some.mp hp
    refine ⟨fun u b' r' hu => ?_, fun u => ?_⟩
    · by_cases he : u = t
      · subst he; simp at hu
      · exact hf u b' r' (by simpa [Function.update_of_ne he] using hu)
    · by_cases he : u = t
      · subst he; simpa [hpc,Pc.pending,State.posted] using hord u
      · simpa [Function.update_of_ne he,State.posted] using hord u
  | @fill t b r m hpc =>
    have hm := hexact t r m rfl
    have hb : p.At b (.hand t) := by simp [State.At,hpc,Pc.slot]
    have hposted : ∀ x ∈ p.posted, x.2 ≠ b := fun x hx he =>
      ho.not_at .job hb (by simp) (he ▸ List.mem_map_of_mem hx)
    refine ⟨fun u b' r' hu => ?_, fun u => ?_⟩
    · by_cases he : u = t
      · subst he
        simp only [Store.fill,Function.update_self,Pc.filled.injEq] at hu ⊢
        obtain ⟨rfl,rfl⟩ := hu
        simp [hm]
      · have hu' : p.pc u = .filled b' r' := by
          simpa [Store.fill,Function.update_of_ne he] using hu
        have hne : b' ≠ b := fun hbb => ho.not_at (.hand u) hb (by simpa using Ne.symm he) (by
          simp [State.At,hu',Pc.slot,hbb])
        simpa [Store.fill,Function.update_of_ne hne] using hf u b' r' hu'
    · have hmap : (p.posted.filter (·.1 = u)).map (fun x => Function.update p.mem b m x.2) =
          (p.posted.filter (·.1 = u)).map (fun x => p.mem x.2) := by
        apply List.map_congr_left
        intro x hx
        exact Function.update_of_ne (hposted x (List.mem_filter.mp hx).1) _ _
      have hpend : ((Function.update p.pc t (.filled b r)) u).pending = (p.pc u).pending := by
        by_cases he : u = t
        · subst he; simp [hpc,Pc.pending]
        · rw [Function.update_of_ne he]
      have := hord u
      rw [← hmap, ← hpend] at this
      exact this
  | @post t b r hpc =>
    have hpost : State.posted
        (State.mk (p.toStore.setPc t .idle) (p.ready ++ [.enqueue t b]) p.phase p.isOpen p.session) =
        p.posted ++ [(t,b)] := by simp [State.posted,Job.posted]
    refine ⟨fun u b' r' hu => ?_, fun u => ?_⟩
    · by_cases he : u = t
      · subst he; simp [Store.setPc] at hu
      · exact hf u b' r' (by simpa [Store.setPc,Function.update_of_ne he] using hu)
    · rw [hpost]
      by_cases he : u = t
      · subst he
        have := hord u
        simp only [hpc,Pc.pending] at this
        simp [Store.setPc,this,Pc.pending,hf u b r hpc]
      · have he' : ¬ t = u := fun hh => he hh.symm
        simpa [Store.setPc,Function.update_of_ne he,he'] using hord u
  | @enqueue t b rest _ hready =>
    have hb : p.At b .job := by simp [State.At,State.posted,hready,Job.posted]
    have hposted : p.posted = (t,b) :: rest.filterMap Job.posted := by
      simp [State.posted,hready,Job.posted]
    obtain ⟨-,hpc,-,-,-,hm,-,hsent,-,-,he⟩ :=
      Store.enqueue_frame limit p.session t b (ho.queue_length_lt (by simp) hb)
    refine ⟨by simpa only [hpc,hm] using hf, fun u => ?_⟩
    have := hord u
    simp only [hposted] at this
    simp only [hpc,hm,hsent,he,State.posted,this]
    by_cases hu : t = u
    · subst hu; simp
    · simp [hu]
  | progress _ _ _ hp =>
    obtain ⟨w,-,-,rfl⟩ := Store.progress_eq_some.mp hp
    exact ⟨hf,hord⟩
  | complete _ _ => exact ⟨hf, by simpa [State.posted,List.filterMap_cons,Job.posted] using hord⟩
  | begin _ hready =>
    refine ⟨hf, ?_⟩
    simpa [State.posted,hready,List.filterMap_cons,Job.posted] using hord
  | release _ =>
    cases hq : p.queue with
    | nil => simp only [Store.release,hq]; exact ⟨hf,hord⟩
    | cons b rest => simp only [Store.release,hq]; exact ⟨hf,hord⟩

/-- The request of a call whose buffer still has its old contents. -/
def Pc.unfilled : Pc ρ → Option ρ
  | .waiting r | .holding _ r => some r
  | .idle | .filled _ _ => none

/-- A call that is unfilled after a step was so before, or has just begun. -/
theorem unfilled_step {p p' : State τ ρ μ ω} {l : Label τ ρ μ} (hs : Step cap limit units p l p') {t : τ}
    {r : ρ} (h : (p'.pc t).unfilled = some r) : (p.pc t).unfilled = some r ∨ l = .call t r := by
  have hother : ∀ {u : τ} {c : Pc ρ}, (Function.update p.pc u c t).unfilled = some r →
      (u = t → c.unfilled = some r → (p.pc t).unfilled = some r ∨ l = .call t r) →
      (p.pc t).unfilled = some r ∨ l = .call t r := by
    intro u c hu hsame
    by_cases he : t = u
    · subst he
      rw [Function.update_self] at hu
      exact hsame rfl hu
    · rw [Function.update_of_ne he] at hu
      exact .inl hu
  cases hs with
  | close | reopen | complete _ _ | begin _ _ | finishMore _ _ | finishEmpty _ _ | finishFailed _ =>
    exact .inl h
  | call _ _ =>
    refine hother h (fun hu hr => .inr ?_)
    rw [hu, Option.some.inj hr]
  | pop hp =>
    obtain ⟨r',b,rest,hpc,-,rfl⟩ := Store.pop_eq_some.mp hp
    refine hother h (fun hu hr => .inl ?_)
    rw [← hu, hpc]
    exact hr
  | fill _ => exact hother h (fun _ hr => by simp [Pc.unfilled] at hr)
  | post _ => exact hother h (fun _ hr => by simp [Pc.unfilled] at hr)
  | @enqueue u b rest _ _ =>
    have hpc : (p.toStore.enqueue cap limit p.session u b).pc = p.pc := by
      simp only [Store.enqueue,Store.push,Store.startWrite]
      split <;> split <;> first | rfl | (split <;> rfl)
    simp only [hpc] at h
    exact .inl h
  | progress _ _ _ hp =>
    obtain ⟨w,-,-,rfl⟩ := Store.progress_eq_some.mp hp
    exact .inl h
  | release _ =>
    cases hq : p.queue <;> simp only [Store.release,hq] at h <;> exact .inl h

theorem holding_of_fill {p p' : State τ ρ μ ω} {t : τ} {r : ρ} {m : μ}
    (hs : Step cap limit units p (.fill t r m) p') : ∃ b, p.pc t = .holding b r := by
  generalize hl : (Label.fill t r m : Label τ ρ μ) = l at hs
  cases hs with
  | fill hpc =>
    simp only [Label.fill.injEq] at hl
    obtain ⟨rfl,rfl,-⟩ := hl
    exact ⟨_,hpc⟩
  | _ => simp at hl

/-- The entries still in the queue that were handed to the transport. -/
def State.handed (p : State τ ρ μ ω) : List μ :=
  match p.phase with
  | .releasing n _ => (p.queue.take n).map p.mem
  | .idle => p.outstanding.flatMap (fun w => w.bufs.map p.mem)

/-- The messages of the writes that were started between two moments. -/
def Store.started (s s' : Store τ ρ μ ω) : List μ :=
  (s'.writes.drop s.writes.length).flatMap (fun w => w.bufs.map s'.mem)

omit [DecidableEq τ] in
theorem Store.started_of_le {s s' : Store τ ρ μ ω} (h : s'.writes.length ≤ s.writes.length) :
    s.started s' = [] := by
  rw [started, List.drop_eq_nil_of_le h, List.flatMap_nil]

omit [DecidableEq τ] in
theorem Store.started_startWrite (s : Store τ ρ μ ω) (k : Nat) :
    s.started (s.startWrite limit k) = (s.queue.take limit).map s.mem := by
  simp [started,startWrite]

omit [DecidableEq τ] in
theorem State.handed_of_none {p : State τ ρ μ ω} (hph : p.phase = .idle) (hout : p.outstanding = []) :
    p.handed = [] := by
  simp [handed,hph,hout]

omit [DecidableEq τ] in
theorem State.handed_of_write {p : State τ ρ μ ω} {w : Write} (hph : p.phase = .idle)
    (hout : p.outstanding = [w]) : p.handed = w.bufs.map p.mem := by
  simp [handed,hph,hout]

omit [DecidableEq τ] in
theorem State.handed_startWrite {p : State τ ρ μ ω} (hout : p.outstanding = []) (k : Nat)
    (isOpen : Bool) (session : Nat) :
    State.handed (State.mk (p.toStore.startWrite limit k) p.ready .idle isOpen session) =
      (p.queue.take limit).map p.mem := by
  simp only [State.outstanding,List.append_eq_nil_iff] at hout
  simp [handed,State.outstanding,Store.startWrite,hout]

omit [DecidableEq τ] in
/-- What was handed over comes first in what entered. -/
theorem Serial.handed_first {p : State τ ρ μ ω} (h : Serial p) (hf : Flow p) :
    p.flushed ++ p.handed <+: p.entered.map Prod.snd := by
  have htake : ∀ n, p.flushed ++ (p.queue.take n).map p.mem <+: p.entered.map Prod.snd := by
    intro n
    rw [hf, List.prefix_append_right_inj, List.map_take]
    exact List.take_prefix _ _
  cases hph : p.phase with
  | releasing n failed => simpa [State.handed,hph] using htake n
  | idle =>
    rcases h.writing with hout | ⟨w,hout,-,hbufs,-⟩
    · simpa [State.handed_of_none hph hout] using htake 0
    · rw [State.handed_of_write hph hout, hbufs]
      exact htake p.batch

/-- A step hands over what it starts to write, behind what was handed over before. -/
theorem Serial.handed_step {p p' : State τ ρ μ ω} {l : Label τ ρ μ} (ho : Owned cap p) (h : Serial p)
    (hs : Step cap limit units p l p') :
    p'.flushed ++ p'.handed = p.flushed ++ p.handed ++ p.toStore.started p'.toStore := by
  have hquiet : p'.writes.length ≤ p.writes.length → p'.flushed ++ p'.handed = p.flushed ++ p.handed →
      p'.flushed ++ p'.handed = p.flushed ++ p.handed ++ p.toStore.started p'.toStore := by
    intro hle heq
    rw [Store.started_of_le hle, List.append_nil]
    exact heq
  cases hs with
  | call _ _ | close | reopen => exact hquiet (Nat.le_refl _) rfl
  | pop hp =>
    obtain ⟨r,b,rest,-,-,rfl⟩ := Store.pop_eq_some.mp hp
    exact hquiet (Nat.le_refl _) rfl
  | post _ =>
    refine hquiet (Nat.le_refl _) ?_
    simp [State.handed,State.outstanding,Store.setPc,List.filterMap_cons,Job.write]
  | @fill t b r m hpc =>
    have hb := ho.hand_not_mem_queue hpc
    refine hquiet (Nat.le_refl _) (congrArg (p.flushed ++ ·) ?_)
    cases hph : p.phase with
    | releasing n failed =>
      have hb' : b ∉ p.queue.take n := fun hm => hb (List.mem_of_mem_take hm)
      simp only [State.handed,hph,Store.fill,map_update_of_not_mem hb']
    | idle =>
      rcases h.writing with hout | ⟨w,hout,-,hbufs,-⟩
      · rw [State.handed_of_none hph hout]
        exact State.handed_of_none rfl hout
      · have hb' : b ∉ w.bufs := fun hm => hb (List.mem_of_mem_take (hbufs ▸ hm))
        rw [State.handed_of_write hph hout, ← map_update_of_not_mem hb' p.mem m]
        exact State.handed_of_write rfl hout
  | @enqueue t b rest hph hready =>
    have hb : p.At b .job := by simp [State.At,State.posted,hready,Job.posted]
    have hroom := ho.queue_length_lt (by simp) hb
    have hcompleted : rest.filterMap Job.write = p.ready.filterMap Job.write := by
      simp [hready,List.filterMap_cons,Job.write]
    by_cases hq : p.queue = []
    · have hout := h.outstanding_of_empty hq
      rw [State.handed_of_none hph hout]
      simp only [State.outstanding,List.append_eq_nil_iff] at hout
      have heq : p.toStore.enqueue cap limit p.session t b =
          Store.startWrite limit p.session
            { p.toStore with queue := [b], entered := p.entered ++ [(t, p.mem b)] } := by
        rw [hq] at hroom
        simp only [Store.enqueue,Store.push,hq,hroom,↓reduceIte,List.isEmpty_nil,List.nil_append]
      simp [heq,State.handed,hph,State.outstanding,Store.startWrite,Store.started,hout,hcompleted]
    · have hne : p.queue.isEmpty = false := by simpa using hq
      have heq : p.toStore.enqueue cap limit p.session t b =
          { p.toStore with queue := p.queue ++ [b], entered := p.entered ++ [(t, p.mem b)] } := by
        simp [Store.enqueue,Store.push,hne,hroom]
      refine hquiet (by rw [heq]) ?_
      simp only [heq,State.handed,hph,State.outstanding,hcompleted]
  | @progress i n w s hi _ _ hp =>
    obtain ⟨w',hi',-,rfl⟩ := Store.progress_eq_some.mp hp
    obtain ⟨rfl,hw,hr,hph,-⟩ := h.of_writes hi
    rw [hi, Option.some.injEq] at hi'
    subst hi'
    refine hquiet (by simp) ?_
    simp [State.handed,State.outstanding,hph,hw,hr]
  | @complete i w failed hi _ =>
    obtain ⟨rfl,hw,hr,hph,-⟩ := h.of_writes hi
    refine hquiet (by simp [hw]) ?_
    simp [State.handed,State.outstanding,hph,hw,hr,Job.write]
  | @begin w failed rest hph hready =>
    obtain ⟨hw,hr,-,hbufs,-⟩ := h.of_ready (hready ▸ List.mem_cons_self)
    have hout : p.outstanding = [w] := by simp [State.outstanding,hw,hr]
    refine hquiet (Nat.le_refl _) ?_
    rw [State.handed_of_write hph hout, hbufs]
    rfl
  | @release n failed kept hph =>
    obtain ⟨-,hle⟩ := h.releasing _ _ hph
    cases hq : p.queue with
    | nil => rw [hq, List.length_nil] at hle; omega
    | cons b rest =>
      refine hquiet (by simp [Store.release,hq]) ?_
      simp [State.handed,hph,Store.release,hq]
  | finishMore hph _ =>
    obtain ⟨hout,-⟩ := h.releasing _ _ hph
    have hnone : p.handed = [] := by simp [State.handed,hph]
    rw [Store.started_startWrite, State.handed_startWrite hout, hnone, List.append_nil]
    rfl
  | finishEmpty hph _ | finishFailed hph =>
    obtain ⟨hout,-⟩ := h.releasing _ _ hph
    have hnone : p.handed = [] := by simp [State.handed,hph]
    refine hquiet (Nat.le_refl _) (congrArg (p.flushed ++ ·) ?_)
    rw [hnone]
    exact State.handed_of_none rfl hout

end Pipeline
