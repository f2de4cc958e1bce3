import Librim.AsyncLogger
import Librim.Framing

/-! The log file as a code. A reader finds the end of a record by its length field, so the
records can be told apart as long as that field is right. -/

set_option autoImplicit false

namespace Librim

open SelfDelimiting

theorem be32toh_htobe32 (x : UInt32) : be32toh (htobe32 x) = x.toNat := by
  have := x.toNat_lt
  simp only [be32toh,htobe32,List.foldl_cons,List.foldl_nil,UInt32.toNat_toUInt8,UInt32.toNat_shiftRight,
    UInt32.reduceToNat,Nat.reduceMod,Nat.shiftRight_eq_div_pow,Nat.reducePow]
  omega

theorem htobe32_injective : Function.Injective htobe32 := by
  intro x y h
  have := congrArg be32toh h
  rw [be32toh_htobe32, be32toh_htobe32] at this
  exact UInt32.toNat_inj.mp this

theorem length_htobe32 (x : UInt32) : (htobe32 x).length = 4 := rfl

/-- The upper half comes first. -/
theorem htobe64_eq (x : UInt64) : htobe64 x = htobe32 (x >>> 32).toUInt32 ++ htobe32 x.toUInt32 := by
  simp only [htobe64,htobe32,List.cons_append,List.nil_append,List.cons.injEq,and_true]
  simp only [← UInt8.toNat_inj,UInt64.toNat_toUInt8,UInt64.toNat_shiftRight,UInt32.toNat_toUInt8,
    UInt32.toNat_shiftRight,UInt64.toNat_toUInt32,UInt64.reduceToNat,UInt32.reduceToNat,Nat.reduceMod,
    Nat.shiftRight_eq_div_pow,Nat.reducePow]
  refine ⟨?_, ?_, ?_, ?_, ?_, ?_, ?_, ?_⟩ <;> omega

theorem htobe64_injective : Function.Injective htobe64 := by
  intro x y h
  rw [htobe64_eq, htobe64_eq] at h
  obtain ⟨hhi,hlo⟩ := List.append_inj h (by rw [length_htobe32, length_htobe32])
  have hhi' := congrArg UInt32.toNat (htobe32_injective hhi)
  have hlo' := congrArg UInt32.toNat (htobe32_injective hlo)
  simp only [UInt64.toNat_toUInt32,UInt64.toNat_shiftRight,UInt64.reduceToNat,Nat.reduceMod,
    Nat.shiftRight_eq_div_pow,Nat.reducePow] at hhi' hlo'
  have hx := x.toNat_lt
  have hy := y.toNat_lt
  refine UInt64.toNat_inj.mp ?_
  omega

/-- What the length field of a header says. -/
def lengthField (header : List Byte) : Nat := be32toh ((header.drop 4).take 4)

/-- The framing that a reader of the file goes by. -/
def logFraming (maxCapacity : Nat) : Framing := ⟨16, maxCapacity, fun h => 16+lengthField h⟩

theorem Record.lengthField_header (r : Record) : lengthField r.header = r.data.length % 2^32 := by
  have h : lengthField r.header = be32toh (htobe32 (UInt32.ofNat r.data.length)) := rfl
  rw [h, be32toh_htobe32, UInt32.toNat_ofNat']

theorem Record.encode_injective : Function.Injective Record.encode := by
  intro r r' h
  obtain ⟨hh,hd⟩ := List.append_inj h (r.length_header.trans r'.length_header.symm)
  simp only [header,List.append_assoc] at hh
  obtain ⟨hi,hh⟩ := List.append_inj hh (by rw [length_htobe32, length_htobe32])
  obtain ⟨-,ht⟩ := List.append_inj hh (by rw [length_htobe32, length_htobe32])
  cases r
  cases r'
  rw [Record.mk.injEq]
  exact ⟨htobe32_injective hi, htobe64_injective ht, hd⟩

/-- A record that passed the capacity check, and whose length fits into the field. -/
theorem Record.wellFramed {r : Record} {maxCapacity : Nat} (hcap : 16+r.data.length ≤ maxCapacity)
    (hlen : r.data.length < 2^32) : (logFraming maxCapacity).WellFramed r.encode where
  header := by
    rw [length_encode]
    exact Nat.le_add_right _ _
  size := by
    have htake : r.encode.take 16 = r.header := List.take_left' r.length_header
    simp only [logFraming,htake,lengthField_header,length_encode,Nat.mod_eq_of_lt hlen]
  max := by
    rw [length_encode]
    exact hcap

namespace AsyncLogger

variable {τ : Type} [DecidableEq τ]

/-- The states of a logger, whether or not its file opened, with what was recorded of the run. -/
abbrev Logged (maxCapacity : Nat) : State τ × List (Note τ) → Prop :=
  Transition.Reachable (fun p => (∃ opened, p.1 = initial opened) ∧ p.2 = []) (recorder maxCapacity)

omit [DecidableEq τ] in
theorem accepted_append (h notes : List (Note τ)) : accepted (h ++ notes) = accepted h ++ accepted notes := by
  simp only [accepted,checks,List.filterMap_append,List.filter_append,List.map_append]

omit [DecidableEq τ] in
theorem appended_append (h notes : List (Note τ)) : appended (h ++ notes) = appended h ++ appended notes := by
  simp only [appended,List.filterMap_append,List.flatten_append]

/-- A record fits when it is accepted, and comes to the buffer whole; nothing else does. -/
theorem fits_step {maxCapacity : Nat} {s t : State τ} {e : Event τ} {notes : List (Note τ)}
    (hs : Step maxCapacity s e notes t) : appended notes = ((accepted notes).map Record.encode).flatten ∧
      ∀ r ∈ accepted notes, 16+r.data.length ≤ maxCapacity := by
  cases hs with
  | @appended u r _ hfits =>
    refine ⟨by simp [appended,accepted,checks], fun r' hr' => ?_⟩
    have heq : r' = r := by simpa [accepted,checks] using hr'
    rw [heq]
    omega
  | _ => simp [appended,accepted,checks]

/-- Every accepted record fits into the capacity on its own, and the bytes in the buffer are theirs. -/
theorem Logged.fits {maxCapacity : Nat} {p : State τ × List (Note τ)} (h : Logged maxCapacity p) :
    appended p.2 = ((accepted p.2).map Record.encode).flatten ∧
      ∀ r ∈ accepted p.2, 16+r.data.length ≤ maxCapacity := by
  induction h with
  | start hi => simp [hi.2,appended,accepted,checks]
  | next _ _ hs ih =>
    obtain ⟨hs,hh⟩ := Transition.recorded_eq_some.mp hs
    obtain ⟨heq,hfits⟩ := fits_step (step_cases hs)
    rw [hh, appended_append, accepted_append, ih.1, heq, List.map_append, List.flatten_append]
    refine ⟨rfl, fun r hr => ?_⟩
    rcases List.mem_append.mp hr with hr | hr
    · exact ih.2 r hr
    · exact hfits r hr

/-- Thread `u` can call `log`, and nobody is in its way. -/
structure Ready (u : τ) (s : State τ) : Prop where
  running : s.running = true
  mutex : s.mutex = none
  idle : s.producer u = .idle

/-- One undisturbed call of `log`. -/
theorem Ready.accept {u : τ} {s : State τ} (h : Ready u s) (maxCapacity : Nat) {r : Record}
    (hne : r.data ≠ []) (hfit : s.active.length+r.encode.length ≤ maxCapacity) (history : List (Note τ)) :
    ∃ q, Transition.run (recorder maxCapacity) (s,history) [.log u r, .lock u, .append u, .notify u] = some q ∧
      Ready u q.1 ∧ accepted q.2 = accepted history ++ [r] ∧ q.1.active = s.active ++ r.encode := by
  rw [r.length_encode, ← Nat.add_assoc] at hfit
  have hlen := r.length_header
  let t : State τ := { s with
    producer := Function.update s.producer u .notifying
    active := s.active ++ r.header ++ r.data }
  let notes : List (Note τ) := [.called u r, .locked u r, .checked u r true r.encode]
  have hrun : Transition.run (recorder maxCapacity) (s,history) [.log u r, .lock u, .append u] =
      some (t,history ++ notes) := by
    simp [recorder,Transition.recorded,step,note,log,append,State.setProducer,h.running,h.mutex,h.idle,hne,hfit,
      Nat.not_lt.mpr hfit,hlen,Record.encode,t,notes]
  have hnotify : recorder maxCapacity (t,history ++ notes) (.notify u) =
      some (t.notifyOne.setProducer u .idle, history ++ notes) := by
    simp [recorder,Transition.recorded,step,note,t]
  refine ⟨_, Transition.run_trans hrun (Transition.run_single hnotify), ?_⟩
  have hacc : accepted (history ++ notes) = accepted history ++ [r] := by
    rw [accepted_append]
    simp [accepted,checks,notes]
  have hact : t.active = s.active ++ r.encode := List.append_assoc ..
  rcases notifyOne_cases t with ⟨-,hn⟩ | ⟨-,hn⟩
  · rw [hn]
    exact ⟨⟨h.running, h.mutex, Function.update_self ..⟩, hacc, hact⟩
  · rw [hn]
    exact ⟨⟨h.running, h.mutex, Function.update_self ..⟩, hacc, hact⟩

/-- Records that fit into the buffer together can be accepted, one after the other. -/
theorem Ready.acceptAll {u : τ} {p : State τ × List (Note τ)} (h : Ready u p.1) (maxCapacity : Nat)
    (hp : Logged maxCapacity p) (rs : List Record) (hne : ∀ r ∈ rs, r.data ≠ [])
    (hfit : p.1.active.length+(rs.map Record.encode).flatten.length ≤ maxCapacity) :
    ∃ q : State τ × List (Note τ), Logged maxCapacity q ∧ accepted q.2 = accepted p.2 ++ rs := by
  induction rs generalizing p with
  | nil => exact ⟨p, hp, (List.append_nil _).symm⟩
  | cons r rs ih =>
    simp only [List.map_cons,List.flatten_cons,List.length_append] at hfit
    obtain ⟨q,hrun,hready,hacc,hact⟩ := h.accept maxCapacity (hne r List.mem_cons_self) (by omega) p.2
    have hq : Logged maxCapacity q := Transition.reachable_run hp hrun
    obtain ⟨q',hq',hacc'⟩ := ih hready hq (fun r' hr' => hne r' (List.mem_cons_of_mem _ hr'))
      (by rw [hact, List.length_append]; omega)
    exact ⟨q', hq', by rw [hacc', hacc, List.append_assoc]; rfl⟩

theorem logged_of_fits (u : τ) (maxCapacity : Nat) (rs : List Record) (hne : ∀ r ∈ rs, r.data ≠ [])
    (hfit : (rs.map Record.encode).flatten.length ≤ maxCapacity) :
    ∃ p : State τ × List (Note τ), Logged maxCapacity p ∧ accepted p.2 = rs := by
  have hready : Ready u (initial true) := ⟨rfl,rfl,rfl⟩
  obtain ⟨p,hp,hacc⟩ := hready.acceptAll (p := (initial true,[])) maxCapacity (.start ⟨⟨true,rfl⟩,rfl⟩) rs hne
    (by simpa [initial] using hfit)
  exact ⟨p, hp, hacc⟩

/-- Equal bytes come from equal records, and every length field is right. -/
structure Decodable (τ : Type) [DecidableEq τ] (maxCapacity : Nat) : Prop where
  unique : ∀ p p' : State τ × List (Note τ), Logged maxCapacity p → Logged maxCapacity p' →
    appended p.2 = appended p'.2 → accepted p.2 = accepted p'.2
  length : ∀ p : State τ × List (Note τ), Logged maxCapacity p → ∀ r ∈ accepted p.2,
    lengthField r.header = r.data.length

theorem Logged.wellFramed {maxCapacity : Nat} (hcap : maxCapacity < 2^32+16) {p : State τ × List (Note τ)}
    (h : Logged maxCapacity p) {bytes : List Byte} (hb : bytes ∈ (accepted p.2).map Record.encode) :
    Delimited (logFraming maxCapacity).cut bytes := by
  obtain ⟨r,hr,rfl⟩ := List.mem_map.mp hb
  have hfit := h.fits.2 r hr
  exact (Record.wellFramed hfit (by omega)).delimited

/-- The length is cast to 32 bits and the capacity is not limited to them. -/
theorem decodable_iff (u : τ) (maxCapacity : Nat) :
    Decodable τ maxCapacity ↔ maxCapacity < 2^32+16 := by
  constructor
  · intro h
    by_contra hcap
    let r : Record := ⟨0, 0, List.replicate (2^32) 0⟩
    have hlen : r.data.length = 2^32 := List.length_replicate
    obtain ⟨p,hp,hacc⟩ := logged_of_fits u maxCapacity [r]
      (by
        intro r' hr'
        rw [List.mem_singleton.mp hr']
        exact List.ne_nil_of_length_pos (by omega))
      (by
        simp only [List.map_cons,List.map_nil,List.flatten_cons,List.flatten_nil,List.append_nil,
          r.length_encode]
        omega)
    have hfield := h.length p hp r (by simp [hacc])
    rw [r.lengthField_header, hlen] at hfield
    omega
  · intro hcap
    refine ⟨fun p p' hp hp' heq => ?_, fun p hp r hr => ?_⟩
    · have hlawful := Framing.cut_lawful (f := logFraming maxCapacity) (by simp [logFraming])
      have hparse := parse_flatten hlawful _ (fun _ hb => hp.wellFramed hcap hb)
      have hparse' := parse_flatten hlawful _ (fun _ hb => hp'.wellFramed hcap hb)
      rw [hp.fits.1, hp'.fits.1] at heq
      rw [heq, hparse'] at hparse
      exact (List.map_injective_iff.mpr Record.encode_injective (congrArg Parse.messages hparse)).symm
    · have hfit := hp.fits.2 r hr
      rw [r.lengthField_header, Nat.mod_eq_of_lt (by omega)]

/-- With room for 8 GiB: a record of 4 GiB and one byte, and a record of one byte with another
one behind it, leave the same bytes. -/
theorem not_decodable : ∃ p p' : State Unit × List (Note Unit), Logged (2^33) p ∧ Logged (2^33) p' ∧
    appended p.2 = appended p'.2 ∧ accepted p.2 ≠ accepted p'.2 := by
  let inner : Record := ⟨3, 4, List.replicate (2^32-16) 0⟩
  let long : Record := ⟨1, 2, 0 :: inner.encode⟩
  let short : Record := ⟨1, 2, [0]⟩
  have hinner : inner.encode.length = 2^32 := by
    have hlen := inner.length_encode
    have hdata : inner.data.length = 2^32-16 := List.length_replicate
    omega
  have hlong : long.data.length = 2^32+1 := by
    simp only [long,List.length_cons,hinner]
  have hne : ∀ r ∈ [long,short,inner], r.data ≠ [] := by
    intro r hr
    simp only [List.mem_cons,List.not_mem_nil,or_false] at hr
    rcases hr with rfl | rfl | rfl
    · simp [long]
    · simp [short]
    · refine List.ne_nil_of_length_pos ?_
      rw [show inner.data.length = 2^32-16 from List.length_replicate]
      decide
  obtain ⟨p,hp,hacc⟩ := logged_of_fits () (2^33) [long]
    (fun r hr => hne r (by simp only [List.mem_cons,List.not_mem_nil,or_false] at hr ⊢; exact .inl hr))
    (by
      simp only [List.map_cons,List.map_nil,List.flatten_cons,List.flatten_nil,List.append_nil,
        long.length_encode,hlong]
      decide)
  obtain ⟨p',hp',hacc'⟩ := logged_of_fits () (2^33) [short,inner]
    (fun r hr => hne r (List.mem_cons_of_mem _ hr))
    (by
      simp only [List.map_cons,List.map_nil,List.flatten_cons,List.flatten_nil,List.append_nil,
        List.length_append,short.length_encode,hinner]
      decide)
  refine ⟨p, p', hp, hp', ?_, ?_⟩
  · have hfield : UInt32.ofNat long.data.length = UInt32.ofNat short.data.length := by
      rw [hlong]
      decide
    have hheader : long.header = short.header := by
      simp only [Record.header,hfield]
      rfl
    have hdata : long.data = short.data ++ inner.encode := by simp only [long,short,List.singleton_append]
    have hencode : long.encode = short.encode ++ inner.encode := by
      rw [Record.encode, hheader, hdata, ← List.append_assoc, ← Record.encode]
    rw [hp.fits.1, hp'.fits.1]
    simp only [hacc,hacc',List.map_cons,List.map_nil,List.flatten_cons,List.flatten_nil,List.append_nil,hencode]
  · rw [hacc, hacc']
    intro h
    simpa using congrArg List.length h

end AsyncLogger

end Librim
