import Mathlib.Data.List.Infix

set_option autoImplicit false

namespace SelfDelimiting

variable {α : Type*}

/-- What the symbols read so far say about the frame that starts with them. -/
inductive Cut where
  | more
  | bad
  | frame (n : Nat)
  deriving DecidableEq, Repr

/-- A cutting rule decides by a bounded prefix: what it has once decided does not
change when more symbols arrive. -/
structure Lawful (cut : List α → Cut) : Prop where
  nil_more : cut [] = .more
  frame_pos : ∀ {s n}, cut s = .frame n → 0 < n
  frame_le : ∀ {s n}, cut s = .frame n → n ≤ s.length
  bad_append : ∀ {s} t, cut s = .bad → cut (s ++ t) = .bad
  frame_append : ∀ {s n} t, cut s = .frame n → cut (s ++ t) = .frame n

structure Parse (α : Type*) where
  messages : List (List α)
  rest : List α
  bad : Bool
  deriving DecidableEq, Repr

/-- A message in front of a parse. -/
def Parse.cons (m : List α) (p : Parse α) : Parse α := ⟨m :: p.messages, p.rest, p.bad⟩

/-- Messages in front of a parse. -/
def Parse.after (ms : List (List α)) (p : Parse α) : Parse α := ⟨ms ++ p.messages, p.rest, p.bad⟩

def parseFuel (cut : List α → Cut) : Nat → List α → Parse α
  | 0, s => ⟨[], s, false⟩
  | k+1, s =>
    match cut s with
    | .more => ⟨[], s, false⟩
    | .bad => ⟨[], s, true⟩
    | .frame n => (parseFuel cut k (s.drop n)).cons (s.take n)

/-- The greedy parse of a finite stream. A frame has at least one symbol, so one unit
of fuel for each symbol is enough. -/
def parse (cut : List α → Cut) (s : List α) : Parse α := parseFuel cut (s.length+1) s

section
variable {cut : List α → Cut}

@[simp] theorem Parse.cons_messages (m : List α) (p : Parse α) :
    (p.cons m).messages = m :: p.messages := rfl
@[simp] theorem Parse.cons_rest (m : List α) (p : Parse α) : (p.cons m).rest = p.rest := rfl
@[simp] theorem Parse.cons_bad (m : List α) (p : Parse α) : (p.cons m).bad = p.bad := rfl

theorem parseFuel_enough (hc : Lawful cut) (s : List α) (k : Nat) (hk : s.length < k) :
    parseFuel cut k s = parse cut s := by
  induction hn : s.length using Nat.strongRecOn generalizing s k with
  | ind n ih =>
    subst hn
    obtain ⟨k,rfl⟩ : ∃ j, k = j+1 := ⟨k-1, by omega⟩
    simp only [parse,parseFuel]
    split
    · rfl
    · rfl
    · rename_i m hm
      have hpos := hc.frame_pos hm
      have hle := hc.frame_le hm
      have hlen : (s.drop m).length < s.length := by simp only [List.length_drop]; omega
      rw [ih _ hlen _ k (by omega) rfl, ih _ hlen _ s.length hlen rfl]

theorem parse_more {s : List α} (h : cut s = .more) : parse cut s = ⟨[], s, false⟩ := by
  simp [parse,parseFuel,h]

theorem parse_bad {s : List α} (h : cut s = .bad) : parse cut s = ⟨[], s, true⟩ := by
  simp [parse,parseFuel,h]

theorem parse_frame (hc : Lawful cut) {s : List α} {n : Nat} (h : cut s = .frame n) :
    parse cut s = (parse cut (s.drop n)).cons (s.take n) := by
  have hpos := hc.frame_pos h
  have hle := hc.frame_le h
  have hlen : (s.drop n).length < s.length := by simp only [List.length_drop]; omega
  conv_lhs => rw [parse,parseFuel,h]
  simp only [parseFuel_enough hc _ _ hlen]

/-- The parse of a longer stream goes on from the rest of the shorter one, unless the
shorter one already ended in a bad header. -/
theorem parse_append (hc : Lawful cut) (s t : List α) :
    parse cut (s ++ t) =
      if (parse cut s).bad then ⟨(parse cut s).messages, (parse cut s).rest ++ t, true⟩
      else (parse cut ((parse cut s).rest ++ t)).after (parse cut s).messages := by
  induction hn : s.length using Nat.strongRecOn generalizing s with
  | ind n ih =>
    subst hn
    cases h : cut s with
    | more => simp [parse_more h,Parse.after]
    | bad => simp [parse_bad h,parse_bad (hc.bad_append t h)]
    | frame n =>
      have hpos := hc.frame_pos h
      have hle := hc.frame_le h
      have hlen : (s.drop n).length < s.length := by simp only [List.length_drop]; omega
      rw [parse_frame hc h, parse_frame hc (hc.frame_append t h),
        List.drop_append_of_le_length hle, List.take_append_of_le_length hle, ih _ hlen _ rfl]
      by_cases hb : (parse cut (s.drop n)).bad <;> simp [hb,Parse.cons,Parse.after]

/-- What holds of every frame that can be cut off holds of every message. -/
theorem parseFuel_messages {P : List α → Prop} (hP : ∀ s n, cut s = .frame n → P (s.take n)) (k : Nat)
    (s : List α) : ∀ m ∈ (parseFuel cut k s).messages, P m := by
  induction k generalizing s with
  | zero => simp [parseFuel]
  | succ k ih =>
    simp only [parseFuel]
    split
    · simp
    · simp
    · rename_i n hn
      simp only [Parse.cons_messages,List.forall_mem_cons]
      exact ⟨hP s n hn, ih _⟩

/-- A word that is exactly one frame of its own. -/
def Delimited (cut : List α → Cut) (m : List α) : Prop := cut m = .frame m.length

theorem parse_nil (hc : Lawful cut) : parse cut [] = ⟨[], [], false⟩ := parse_more hc.nil_more

theorem parse_flatten (hc : Lawful cut) (ms : List (List α))
    (hm : ∀ m ∈ ms, Delimited cut m) : parse cut ms.flatten = ⟨ms, [], false⟩ := by
  induction ms with
  | nil => exact parse_nil hc
  | cons m ms ih =>
    have h := hc.frame_append ms.flatten (hm m (by simp))
    rw [List.flatten_cons, parse_frame hc h, List.drop_left, List.take_left,
      ih (fun x hx => hm x (by simp [hx]))]
    rfl

/-- Unique decodability: a prefix of concatenated frames parses to a prefix of them. -/
theorem parse_prefix_flatten (hc : Lawful cut) {ms : List (List α)}
    (hm : ∀ m ∈ ms, Delimited cut m) {s : List α} (hs : s <+: ms.flatten) :
    (parse cut s).bad = false ∧ (parse cut s).messages <+: ms := by
  obtain ⟨t,ht⟩ := hs
  have hp := parse_flatten hc ms hm
  rw [← ht, parse_append hc] at hp
  split at hp
  · simp at hp
  · rename_i hb
    refine ⟨by simpa using hb, ?_⟩
    have := congrArg Parse.messages hp
    exact ⟨_, this⟩

end

end SelfDelimiting
