import Librim.Types
import Mathlib.Logic.Function.Basic

/-! `MessageDispatcher`: a table from message types to handlers of typed messages. -/

set_option autoImplicit false

namespace Librim

variable {M κ ι : Type}

/-- A callable with a `MsgDef &` parameter. It is given the struct and can look at the bytes
behind it; its reply holds the bytes that it leaves in the struct. `id` tells callables
apart. -/
structure UserHandler (κ : Type) where
  id : Nat
  sizeofMsgDef : Nat
  call : κ → (msg behind : List Byte) → Reply κ sizeofMsgDef

/-- One call of a user handler, with the bytes that it saw on entry. -/
structure HandlerCall where
  id : Nat
  msg : List Byte
  behind : List Byte
  deriving DecidableEq, Repr

def HandlerCall.span (h : HandlerCall) : List Byte := h.msg ++ h.behind

/-- What is left behind by a function that was given a span; `ran` is history. -/
structure Dispatched (κ : Type) (n : Nat) where
  ran : List HandlerCall
  reply : Reply κ n

def Dispatched.skip (u : κ) (data : List Byte) : Dispatched κ data.length := ⟨[], .unchanged u data []⟩

abbrev RawHandler (κ : Type) := κ → (data : List Byte) → Dispatched κ data.length

/-- The lambda that `add_handler` stores. -/
def UserHandler.raw (h : UserHandler κ) : RawHandler κ := fun u data =>
  if hlt : data.length < h.sizeofMsgDef then .skip u data
  else
    let reply := h.call u (data.take h.sizeofMsgDef) (data.drop h.sizeofMsgDef)
    { ran := [⟨h.id, data.take h.sizeofMsgDef, data.drop h.sizeofMsgDef⟩]
      reply :=
        { user := reply.user
          span := reply.span ++ data.drop h.sizeofMsgDef
          span_length := by
            simp only [List.length_append,reply.span_length,List.length_drop]; omega
          calls := reply.calls } }

/-- `HeaderType` is known by its size, which is never zero, and the extractor by what it makes
of the bytes of a header. -/
structure HeaderExtractor (M : Type) where
  sizeofHeader : Nat
  sizeofHeader_pos : 0 < sizeofHeader
  extract : List Byte → M × Nat

structure MessageDispatcher (M κ : Type) extends HeaderExtractor M where
  handlers : M → Option (RawHandler κ)

/-- A call of one of the three overloads of `add_handler`. -/
inductive Registration (M κ ι : Type) where
  | callable (type : M) (handler : UserHandler κ)
  | function (type : M) (handler : UserHandler κ)
  | member (type : M) (object : ι) (handler : ι → UserHandler κ)

namespace Registration

def type : Registration M κ ι → M
  | .callable type _ | .function type _ | .member type _ _ => type

def handler : Registration M κ ι → UserHandler κ
  | .callable _ handler | .function _ handler => handler
  | .member _ object handler => handler object

end Registration

namespace MessageDispatcher

def create (e : HeaderExtractor M) : MessageDispatcher M κ := { e with handlers := fun _ => none }

/-- The type that the header of `data` has. -/
def typeOf (e : HeaderExtractor M) (data : List Byte) : M := (e.extract (data.take e.sizeofHeader)).1

/-- `get_size_lambda`. -/
def getSizeLambda (e : HeaderExtractor M) (data : List Byte) : Nat :=
  (e.extract (data.take e.sizeofHeader)).2

/-- `true` or `false`, and what happened to the span. -/
def dispatch (d : MessageDispatcher M κ) (u : κ) (data : List Byte) : Bool × Dispatched κ data.length :=
  if data.length < d.sizeofHeader then (false, .skip u data)
  else
    match d.handlers (typeOf d.toHeaderExtractor data) with
    | some raw => (true, raw u data)
    | none => (false, .skip u data)

section
variable [DecidableEq M]

/-- `handlers_[type] = …`. -/
def assign (type : M) (raw : RawHandler κ) (d : MessageDispatcher M κ) : MessageDispatcher M κ :=
  { d with handlers := Function.update d.handlers type (some raw) }

def addHandler (d : MessageDispatcher M κ) : Registration M κ ι → MessageDispatcher M κ
  | .callable type handler => d.assign type handler.raw
  | .function type handler => d.assign type handler.raw
  | .member type object handler => d.assign type (handler object).raw

def addHandlers (d : MessageDispatcher M κ) (regs : List (Registration M κ ι)) :
    MessageDispatcher M κ := regs.foldl addHandler d

/-- The handler that was registered last for `type`. -/
def lastRegistered (regs : List (Registration M κ ι)) (type : M) : Option (UserHandler κ) :=
  (regs.reverse.find? (fun r => r.type = type)).map Registration.handler

/-- The calls that the registrations ask for on `data`: one of the handler registered last
for its type, if header and struct are complete. -/
def requested (e : HeaderExtractor M) (regs : List (Registration M κ ι)) (data : List Byte) :
    List HandlerCall :=
  if data.length < e.sizeofHeader then []
  else
    match lastRegistered regs (typeOf e data) with
    | none => []
    | some h =>
      if data.length < h.sizeofMsgDef then []
      else [⟨h.id, data.take h.sizeofMsgDef, data.drop h.sizeofMsgDef⟩]

theorem lastRegistered_cons (r : Registration M κ ι) (regs : List (Registration M κ ι)) (type : M) :
    lastRegistered (r :: regs) type =
      (lastRegistered regs type).or (if r.type = type then some r.handler else none) := by
  unfold lastRegistered
  rw [List.reverse_cons, List.find?_append, Option.map_or]
  by_cases h : r.type = type <;> simp [h]

theorem addHandler_eq (d : MessageDispatcher M κ) (r : Registration M κ ι) :
    d.addHandler r = d.assign r.type r.handler.raw := by
  cases r <;> rfl

/-- The table after any sequence of registrations. -/
theorem handlers_addHandlers (d : MessageDispatcher M κ) (regs : List (Registration M κ ι)) (type : M) :
    (d.addHandlers regs).handlers type =
      ((lastRegistered regs type).map UserHandler.raw).or (d.handlers type) := by
  induction regs generalizing d with
  | nil => rfl
  | cons r regs ih =>
    rw [addHandlers, List.foldl_cons, addHandler_eq]
    refine (ih _).trans ?_
    rw [lastRegistered_cons, Option.map_or, Option.or_assoc]
    congr 1
    by_cases h : r.type = type
    · subst h
      simp [assign]
    · simp [assign,Function.update_of_ne (Ne.symm h),h]

theorem toHeaderExtractor_addHandlers (d : MessageDispatcher M κ) (regs : List (Registration M κ ι)) :
    (d.addHandlers regs).toHeaderExtractor = d.toHeaderExtractor := by
  induction regs generalizing d with
  | nil => rfl
  | cons r regs ih =>
    rw [addHandlers, List.foldl_cons, addHandler_eq]
    exact ih _

/-- The dispatcher of an application. -/
def build (e : HeaderExtractor M) (regs : List (Registration M κ ι)) : MessageDispatcher M κ :=
  (create e).addHandlers regs

theorem raw_ran (h : UserHandler κ) (u : κ) (data : List Byte) : (h.raw u data).ran =
    if data.length < h.sizeofMsgDef then []
    else [⟨h.id, data.take h.sizeofMsgDef, data.drop h.sizeofMsgDef⟩] := by
  unfold UserHandler.raw
  split
  · rfl
  · rfl

theorem dispatch_build (e : HeaderExtractor M) (regs : List (Registration M κ ι)) (u : κ)
    (data : List Byte) : (build e regs).dispatch u data =
      if data.length < e.sizeofHeader then (false, .skip u data)
      else
        match lastRegistered regs (typeOf e data) with
        | some h => (true, h.raw u data)
        | none => (false, .skip u data) := by
  have he : (build e regs).toHeaderExtractor = e := toHeaderExtractor_addHandlers (create e) regs
  have hh : (build e regs).handlers (typeOf e data) =
      (lastRegistered regs (typeOf e data)).map UserHandler.raw :=
    (handlers_addHandlers (create e) regs _).trans (by simp [create])
  simp only [dispatch,he,hh]
  split
  · rfl
  · cases lastRegistered regs (typeOf e data) <;> rfl

/-- What runs does not depend on what the handlers do. -/
theorem dispatch_ran (e : HeaderExtractor M) (regs : List (Registration M κ ι)) (u : κ)
    (data : List Byte) : ((build e regs).dispatch u data).2.ran = requested e regs data := by
  rw [dispatch_build, requested]
  split
  · rfl
  · cases lastRegistered regs (typeOf e data) with
    | none => rfl
    | some h => exact raw_ran h u data

theorem mem_of_lastRegistered {regs : List (Registration M κ ι)} {type : M} {h : UserHandler κ}
    (hlast : lastRegistered regs type = some h) : ∃ r ∈ regs, r.handler = h := by
  obtain ⟨r,hr,rfl⟩ := Option.map_eq_some_iff.mp hlast
  exact ⟨r, List.mem_reverse.mp (List.mem_of_find?_eq_some hr), rfl⟩

/-- All that a registration says apart from what the handler does. -/
def outline (r : Registration M κ ι) : M × Nat × Nat := (r.type, r.handler.id, r.handler.sizeofMsgDef)

theorem lastRegistered_outline (regs : List (Registration M κ ι)) (type : M) :
    (lastRegistered regs type).map (fun h => (h.id, h.sizeofMsgDef)) =
      ((regs.map outline).reverse.find? (fun o => o.1 = type)).map (·.2) := by
  rw [lastRegistered, Option.map_map, ← List.map_reverse, List.find?_map, Option.map_map]
  rfl

/-- The calls asked for are a matter of the outlines alone. -/
theorem requested_congr {κ' ι' : Type} (e : HeaderExtractor M) {regs : List (Registration M κ ι)}
    {regs' : List (Registration M κ' ι')} (h : regs.map outline = regs'.map outline) (data : List Byte) :
    requested e regs data = requested e regs' data := by
  have hlast : (lastRegistered regs (typeOf e data)).map (fun h => (h.id, h.sizeofMsgDef)) =
      (lastRegistered regs' (typeOf e data)).map (fun h => (h.id, h.sizeofMsgDef)) := by
    rw [lastRegistered_outline, lastRegistered_outline, h]
  unfold requested
  split
  · rfl
  · cases hl : lastRegistered regs (typeOf e data) with
    | none =>
      cases hl' : lastRegistered regs' (typeOf e data) with
      | none => rfl
      | some h' => simp [hl,hl'] at hlast
    | some h =>
      cases hl' : lastRegistered regs' (typeOf e data) with
      | none => simp [hl,hl'] at hlast
      | some h' =>
        simp only [hl,hl',Option.map_some,Option.some.injEq,Prod.mk.injEq] at hlast
        simp only [hlast.1,hlast.2]

/-- A handler is called on the whole message. -/
theorem span_of_requested {e : HeaderExtractor M} {regs : List (Registration M κ ι)} {data : List Byte}
    {call : HandlerCall} (h : call ∈ requested e regs data) : call.span = data := by
  unfold requested at h
  split at h
  · simp at h
  · split at h
    · simp at h
    · split at h
      · simp at h
      · rw [List.mem_singleton.mp h]
        exact List.take_append_drop ..

/-- `dispatch` runs what it should and says whether it ran something. -/
structure Truthful (e : HeaderExtractor M) (regs : List (Registration M κ ι)) (u : κ)
    (data : List Byte) : Prop where
  routed : ((build e regs).dispatch u data).2.ran = requested e regs data
  reported : ((build e regs).dispatch u data).1 = true ↔ ((build e regs).dispatch u data).2.ran ≠ []

/-- A complete header of a registered type, and a message too short for the struct. -/
def Truncated (e : HeaderExtractor M) (regs : List (Registration M κ ι)) (data : List Byte) : Prop :=
  e.sizeofHeader ≤ data.length ∧
    ∃ h, lastRegistered regs (typeOf e data) = some h ∧ data.length < h.sizeofMsgDef

/-- The handler of a registered type drops a message that is too short without telling
`dispatch`; on every other input the result is the truth. -/
theorem dispatch_truthful_iff (e : HeaderExtractor M) (regs : List (Registration M κ ι)) (u : κ)
    (data : List Byte) : Truthful e regs u data ↔ ¬ Truncated e regs data := by
  have hran := dispatch_ran e regs u data
  have hres : ((build e regs).dispatch u data).1 = true ↔
      e.sizeofHeader ≤ data.length ∧ ∃ h, lastRegistered regs (typeOf e data) = some h := by
    rw [dispatch_build]
    by_cases hlen : data.length < e.sizeofHeader
    · rw [if_pos hlen]
      simp only [Bool.false_eq_true,false_iff]
      omega
    · rw [if_neg hlen]
      cases lastRegistered regs (typeOf e data) with
      | none => simp
      | some h => simpa using hlen
  have hreq : requested e regs data ≠ [] ↔ e.sizeofHeader ≤ data.length ∧
      ∃ h, lastRegistered regs (typeOf e data) = some h ∧ h.sizeofMsgDef ≤ data.length := by
    rw [requested]
    by_cases hlen : data.length < e.sizeofHeader
    · rw [if_pos hlen]
      simp only [ne_eq,not_true_eq_false,false_iff]
      omega
    · rw [if_neg hlen]
      cases lastRegistered regs (typeOf e data) with
      | none => simp
      | some h =>
        by_cases hsize : data.length < h.sizeofMsgDef
        · simp only [if_pos hsize,ne_eq,not_true_eq_false,false_iff]
          rintro ⟨-,h',heq,hle⟩
          rw [Option.some.injEq] at heq
          subst heq
          omega
        · simp only [if_neg hsize,ne_eq,reduceCtorEq,not_false_eq_true,true_iff]
          exact ⟨by omega, h, rfl, by omega⟩
  constructor
  · rintro ⟨-,hrep⟩ ⟨hlen,h,hlast,hshort⟩
    rw [hran, hres, hreq] at hrep
    obtain ⟨-,h',hlast',hle⟩ := hrep.mp ⟨hlen,h,hlast⟩
    rw [hlast, Option.some.injEq] at hlast'
    subst hlast'
    omega
  · intro hno
    refine ⟨hran, ?_⟩
    rw [hran, hres, hreq]
    constructor
    · rintro ⟨hlen,h,hlast⟩
      refine ⟨hlen, h, hlast, ?_⟩
      by_contra hshort
      exact hno ⟨hlen, h, hlast, by omega⟩
    · rintro ⟨hlen,h,hlast,-⟩
      exact ⟨hlen, h, hlast⟩

end

/-- The header of the examples: type and length, big-endian, four bytes each. -/
def exampleHeader : HeaderExtractor Nat where
  sizeofHeader := 8
  sizeofHeader_pos := by decide
  extract h := (be32toh (h.take 4), be32toh (h.drop 4)+8)

/-- A handler of a struct of sixteen bytes, which it leaves as it is. -/
def sixteenBytes : UserHandler Unit :=
  ⟨0, 16, fun _ msg _ => ⟨(), (msg ++ List.replicate 16 0).take 16, by simp, []⟩⟩

/-- A message that ends with its header is reported as handled. -/
theorem dispatch_not_truthful : ¬ Truthful exampleHeader
    [(.callable 1 sixteenBytes : Registration Nat Unit Unit)] () [0,0,0,1,0,0,0,0] := by
  rintro ⟨-,hrep⟩
  have htrue : ((build exampleHeader [(.callable 1 sixteenBytes : Registration Nat Unit Unit)]).dispatch
      () [0,0,0,1,0,0,0,0]).1 = true := by decide
  exact hrep.mp htrue (by decide)

end MessageDispatcher

end Librim
