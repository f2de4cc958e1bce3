import Librim.Foundation.PipelineCustody

set_option autoImplicit false

namespace Pipeline

variable {τ ρ μ ω : Type}

/-- At most one write is outstanding; it is on the first `batch` entries of the queue, and
while its buffers are given back there is no other. -/
structure Serial (p : State τ ρ μ ω) : Prop where
  no_fault : p.fault = false
  writing : p.outstanding = [] ∨ ∃ w, p.outstanding = [w] ∧ p.phase = .idle ∧
    w.bufs = p.queue.take p.batch ∧ 0 < p.batch ∧ p.batch ≤ p.queue.length
  releasing : ∀ n failed, p.phase = .releasing n failed →
    p.outstanding = [] ∧ n ≤ p.queue.length

/-- A queue that is not empty has its writer at work. -/
def Served (p : State τ ρ μ ω) : Prop :=
  p.queue = [] ∨ p.outstanding ≠ [] ∨ p.phase ≠ .idle

section
variable {cap limit : Nat} {units : μ → List ω}

theorem Serial.of_writes {p : State τ ρ μ ω} (h : Serial p) {i : Nat} {w : Write}
    (hi : p.writes[i]? = some w) : i = 0 ∧ p.writes = [w] ∧ p.ready.filterMap Job.write = [] ∧
      p.phase = .idle ∧ w.bufs = p.queue.take p.batch ∧ 0 < p.batch ∧
      p.batch ≤ p.queue.length := by
  have hmem := List.mem_of_getElem? hi
  rcases h.writing with ho | ⟨w',ho,hph,hb⟩
  · simp only [State.outstanding,List.append_eq_nil_iff] at ho
    rw [ho.1] at hmem; simp at hmem
  · rcases List.append_eq_singleton_iff.mp ho with ⟨hw,-⟩ | ⟨hw,hr⟩
    · rw [hw] at hmem; simp at hmem
    · rw [hw, List.mem_singleton] at hmem
      subst hmem
      have hi' : i = 0 := by
        rw [hw] at hi
        have := List.getElem?_eq_some_iff.mp hi
        obtain ⟨hlt,-⟩ := this
        simpa using hlt
      exact ⟨hi',hw,hr,hph,hb⟩

theorem Serial.of_ready {p : State τ ρ μ ω} (h : Serial p) {w : Write} {failed : Bool}
    (hm : .written w failed ∈ p.ready) : p.writes = [] ∧ p.ready.filterMap Job.write = [w] ∧
      p.phase = .idle ∧ w.bufs = p.queue.take p.batch ∧ 0 < p.batch ∧
      p.batch ≤ p.queue.length := by
  have hmem : w ∈ p.ready.filterMap Job.write := List.mem_filterMap.mpr ⟨_,hm,rfl⟩
  rcases h.writing with ho | ⟨w',ho,hph,hb⟩
  · simp only [State.outstanding,List.append_eq_nil_iff] at ho
    rw [ho.2] at hmem; simp at hmem
  · rcases List.append_eq_singleton_iff.mp ho with ⟨hw,hr⟩ | ⟨hw,hr⟩
    · rw [hr, List.mem_singleton] at hmem
      subst hmem
      exact ⟨hw,hr,hph,hb⟩
    · rw [hr] at hmem; simp at hmem

theorem Serial.outstanding_of_empty {p : State τ ρ μ ω} (h : Serial p) (hq : p.queue = []) :
    p.outstanding = [] := by
  rcases h.writing with ho | ⟨w,-,-,-,hpos,hle⟩
  · exact ho
  · rw [hq, List.length_nil] at hle; omega

/-- Steps that leave the queue, the writes and the phase alone. -/
theorem Serial.congr {p p' : State τ ρ μ ω} (h : Serial p) (hf : p'.fault = p.fault)
    (ho : p'.outstanding = p.outstanding) (hq : p'.queue = p.queue) (hb : p'.batch = p.batch)
    (hp : p'.phase = p.phase) : Serial p' where
  no_fault := hf ▸ h.no_fault
  writing := by rw [ho, hq, hb, hp]; exact h.writing
  releasing := by rw [ho, hq, hp]; exact h.releasing

theorem take_length_take {α : Type} (l : List α) (n : Nat) :
    l.take (l.take n).length = l.take n := by
  rw [List.length_take]
  rcases Nat.le_total n l.length with hn | hn
  · rw [Nat.min_eq_left hn]
  · rw [Nat.min_eq_right hn, List.take_of_length_le (Nat.le_refl _), List.take_of_length_le hn]

theorem Serial.startWrite (hlimit : 0 < limit) {p : State τ ρ μ ω} (hf : p.fault = false)
    (ho : p.outstanding = []) (hq : p.queue ≠ []) (hp : p.phase = .idle) (k : Nat) :
    Serial (State.mk (p.toStore.startWrite limit k) p.ready p.phase p.isOpen p.session) := by
  have hw : p.writes = [] ∧ p.ready.filterMap Job.write = [] := by
    simpa [State.outstanding] using ho
  have hpos := List.length_pos_of_ne_nil hq
  refine ⟨hf, .inr ⟨⟨p.queue.take limit, k, 0⟩, ?_, hp, ?_, ?_, ?_⟩, ?_⟩
  · simp [State.outstanding,Store.startWrite,hw]
  · exact (take_length_take _ _).symm
  · simp only [Store.startWrite,List.length_take]; omega
  · simp only [Store.startWrite,List.length_take]; omega
  · intro n failed hph
    rw [hp] at hph
    simp at hph

theorem Serial.enqueue (hlimit : 0 < limit) {p : State τ ρ μ ω} (ho : Owned cap p)
    (h : Serial p) {t : τ} {b : Nat} {rest : List (Job τ)} (hph : p.phase = .idle)
    (hready : p.ready = .enqueue t b :: rest) :
    Serial (State.mk (p.toStore.enqueue cap limit p.session t b) rest p.phase p.isOpen p.session) := by
  have hb : p.At b .job := by
    simp [State.At,State.posted,hready,Job.posted]
  have hroom := ho.queue_length_lt (by simp) hb
  have hcompleted : p.ready.filterMap Job.write = rest.filterMap Job.write := by
    simp [hready,List.filterMap_cons,Job.write]
  by_cases hq : p.queue = []
  · have hout := h.outstanding_of_empty hq
    have hstart := Serial.startWrite (p := State.mk
        { p.toStore.push cap b with entered := p.entered ++ [(t, p.mem b)] }
        rest p.phase p.isOpen p.session) hlimit (by simpa [Store.push,hroom] using h.no_fault)
      (by simpa [State.outstanding,Store.push,hroom,hcompleted] using hout)
      (by simp [Store.push,hroom]) hph p.session
    simpa only [Store.enqueue,hq,List.isEmpty_nil,↓reduceIte] using hstart
  · have hne : p.queue.isEmpty = false := by simpa using hq
    have heq : p.toStore.enqueue cap limit p.session t b =
        { p.toStore with queue := p.queue ++ [b], entered := p.entered ++ [(t, p.mem b)] } := by
      simp [Store.enqueue,Store.push,hne,hroom]
    rw [heq]
    refine ⟨h.no_fault, ?_, ?_⟩
    · rcases h.writing with hout | ⟨w,hout,-,hbufs,hpos,hle⟩
      · exact .inl (by simpa [State.outstanding,hcompleted] using hout)
      · refine .inr ⟨w, ?_, hph, ?_, hpos, ?_⟩
        · simpa [State.outstanding,hcompleted] using hout
        · simpa [List.take_append_of_le_length hle] using hbufs
        · simp only [List.length_append]; omega
    · intro n failed hn
      rw [hph] at hn
      simp at hn

theorem Serial.release {p : State τ ρ μ ω} (h : Serial p) {n : Nat} {failed : Bool} (kept : Bool)
    (hph : p.phase = .releasing (n+1) failed) :
    Serial (State.mk (p.toStore.release kept) p.ready (.releasing n failed) p.isOpen p.session) := by
  obtain ⟨hout,hle⟩ := h.releasing _ _ hph
  cases hq : p.queue with
  | nil => rw [hq, List.length_nil] at hle; omega
  | cons b rest =>
    rw [hq, List.length_cons] at hle
    have hout' : p.writes ++ p.ready.filterMap Job.write = [] := hout
    simp only [Store.release,hq]
    refine ⟨h.no_fault, .inl hout', ?_⟩
    intro m failed' hm
    simp only [Phase.releasing.injEq] at hm
    exact ⟨hout', by simp only; omega⟩

variable [DecidableEq τ]

theorem Serial.step (hlimit : 0 < limit) {p p' : State τ ρ μ ω} {l : Label τ ρ μ}
    (ho : Owned cap p) (h : Serial p) (hs : Step cap limit units p l p') : Serial p' := by
  cases hs with
  | call _ _ | fill _ | close | reopen => exact h.congr rfl rfl rfl rfl rfl
  | pop hp =>
    obtain ⟨r,b,rest,-,-,rfl⟩ := Store.pop_eq_some.mp hp
    exact h.congr rfl rfl rfl rfl rfl
  | post _ => exact h.congr rfl (by simp [State.outstanding,Store.setPc,Job.write]) rfl rfl rfl
  | enqueue hph hready => exact h.enqueue hlimit ho hph hready
  | @progress i n w s hi _ _ hp =>
    obtain ⟨w',hi',-,rfl⟩ := Store.progress_eq_some.mp hp
    obtain ⟨rfl,hw,hr,hph,hb⟩ := h.of_writes hi
    rw [hi, Option.some.injEq] at hi'
    subst hi'
    refine ⟨h.no_fault, .inr ⟨{ w with written := w.written+n }, ?_, hph, hb⟩, ?_⟩
    · simp [State.outstanding,hw,hr]
    · intro m failed hm
      rw [hph] at hm
      simp at hm
  | @complete i w failed hi _ =>
    obtain ⟨rfl,hw,hr,hph,hb⟩ := h.of_writes hi
    refine ⟨h.no_fault, .inr ⟨w, ?_, hph, hb⟩, ?_⟩
    · simp [State.outstanding,hw,hr,Job.write]
    · intro m failed hm
      rw [hph] at hm
      simp at hm
  | @begin w failed rest hph hready =>
    obtain ⟨hw,hr,-,-,-,hle⟩ := h.of_ready (hready ▸ List.mem_cons_self)
    rw [hready, List.filterMap_cons] at hr
    simp only [Job.write,List.cons.injEq,true_and] at hr
    have hout : p.writes ++ rest.filterMap Job.write = [] := by simp [hw,hr]
    refine ⟨h.no_fault, .inl hout, ?_⟩
    intro n failed' hn
    simp only [Phase.releasing.injEq] at hn
    exact ⟨hout, by rw [← hn.1]; exact hle⟩
  | release hph => exact h.release _ hph
  | finishMore hph hq =>
    obtain ⟨hout,-⟩ := h.releasing _ _ hph
    exact Serial.startWrite (p := State.mk p.toStore p.ready .idle p.isOpen p.session) hlimit h.no_fault hout hq rfl _
  | finishEmpty hph _ | finishFailed hph =>
    obtain ⟨hout,-⟩ := h.releasing _ _ hph
    exact ⟨h.no_fault, .inl hout, by intro n failed hn; simp at hn⟩

/-- A write takes at most `limit` entries. -/
theorem batch_le_step {p p' : State τ ρ μ ω} {l : Label τ ρ μ} (h : p.batch ≤ limit)
    (hs : Step cap limit units p l p') : p'.batch ≤ limit := by
  cases hs with
  | call _ _ | fill _ | post _ | complete _ _ | begin _ _ | finishEmpty _ _ | finishFailed _
  | close | reopen => exact h
  | pop hp =>
    obtain ⟨r,b,rest,-,-,rfl⟩ := Store.pop_eq_some.mp hp
    exact h
  | progress _ _ _ hp =>
    obtain ⟨w,-,-,rfl⟩ := Store.progress_eq_some.mp hp
    exact h
  | enqueue _ _ =>
    simp only [Store.enqueue]
    split
    · simp only [Store.startWrite,List.length_take]; omega
    · simp only [Store.push]
      split
      · exact h
      · split <;> exact h
  | release _ => cases hq : p.queue <;> simpa [Store.release,hq] using h
  | finishMore _ _ => simp only [Store.startWrite,List.length_take]; omega

/-- Only the caller that holds a buffer writes into it. -/
theorem mem_step {p p' : State τ ρ μ ω} {l : Label τ ρ μ} (ho : Owned cap p)
    (hs : Step cap limit units p l p') {b : Nat} (hb : b ∈ p.queue) : p'.mem b = p.mem b := by
  cases hs with
  | call _ _ | post _ | complete _ _ | begin _ _ | finishMore _ _ | finishEmpty _ _
  | finishFailed _ | close | reopen => rfl
  | pop hp =>
    obtain ⟨r,b,rest,-,-,rfl⟩ := Store.pop_eq_some.mp hp
    rfl
  | @fill t b' r m hpc =>
    have hne : b ≠ b' := fun he => ho.not_at .queue (show p.At b' (.hand t) by
      simp [State.At,hpc,Pc.slot]) (by simp) (he ▸ hb)
    exact Function.update_of_ne hne _ _
  | @enqueue t b' rest _ hready =>
    have hj : p.At b' .job := by simp [State.At,State.posted,hready,Job.posted]
    obtain ⟨-,-,-,-,-,hm,-⟩ :=
      Store.enqueue_frame limit p.session t b' (ho.queue_length_lt (by simp) hj)
    exact congrFun hm b
  | progress _ _ _ hp =>
    obtain ⟨w,-,-,rfl⟩ := Store.progress_eq_some.mp hp
    rfl
  | release _ => cases hq : p.queue <;> simp [Store.release,hq]

end

end Pipeline
