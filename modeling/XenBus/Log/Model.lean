import Mathlib.Algebra.Group.Nat.Defs
import Mathlib.Order.Nat
import Mathlib.Tactic.SplitIfs
import XenBus.Foundations.BoundedBuffer

/-!
# The log

Messages wait in an array of slots until they are flushed to the dispositions. There are two writers:
`LogCchVPrintf` puts one character after the other, and flushes at once; `LogDebugPrint` copies a block,
and leaves the flush to a DPC. Each holds the lock from the first access to the slots to the last, so an
operation is one step.

A write that is not to the buffer of the slot has no result (`none`). When an assertion fails, or memory
that a format names cannot be read, the machine stops, with the lock held; and so it does when
`LogAddDisposition`, which finds no entry that is free, prints an error to the log itself.

The numbers of the registrations, and what has been enqueued and flushed, are not in the code; nothing of it
is read.
-/

namespace XenBus.Log

open BoundedBuffer (write)

/-! ## Data -/

/-- `LOG_BUFFER_SIZE`. -/
def bufferSize : ℕ := 256

/-- `LOG_NR_SLOTS`. -/
def nrSlots : ℕ := 32

/-- `LOG_NR_DISPOSITIONS`. -/
def nrDispositions : ℕ := 8

/-- `LOG_SLOT`. -/
structure Slot where
  Level : UInt32
  Buffer : List UInt8
  Offset : ℕ
  deriving DecidableEq

/-- A slot without a message. -/
def Slot.zero : Slot := ⟨0, List.replicate bufferSize 0, 0⟩

/-- `LOG_DISPOSITION`, with the number of the operation that registered it. -/
structure Disposition where
  Mask : UInt32
  Function : UInt64
  Argument : UInt64
  Registration : ℕ
  deriving DecidableEq

/-- A disposition that is not in use. -/
def Disposition.zero : Disposition := ⟨0, 0, 0, 0⟩

/-- `LOG_CONTEXT`. -/
structure Context where
  Slot : List Log.Slot
  Pending : ℕ
  Disposition : List Log.Disposition
  deriving DecidableEq

/-- A call of a disposition's `Function`: what it finds in the buffer it is given, and the length it is
given. -/
structure Call where
  Registration : ℕ
  Function : UInt64
  Argument : UInt64
  text : List UInt8
  Length : ℕ
  deriving DecidableEq

/-- The flush of one slot: the dispositions then, and the calls. -/
structure Flush where
  Disposition : List Log.Disposition
  calls : List Call
  deriving DecidableEq

/-! ## Flushing -/

/-- The level of a message is one of those in the mask. -/
def matching (Level : UInt32) (disposition : Disposition) : Bool := Level &&& disposition.Mask ≠ 0

/-- `__LogFlushSlot`. -/
def logFlushSlot (dispositions : List Disposition) (slot : Slot) : Option (Flush × Slot) :=
  (write slot.Buffer 0 (List.replicate slot.Offset 0)).map fun Buffer =>
    (⟨dispositions, (dispositions.filter (matching slot.Level)).map fun d =>
      ⟨d.Registration, d.Function, d.Argument, slot.Buffer.take slot.Offset, slot.Offset⟩⟩,
      ⟨0, Buffer, 0⟩)

/-- The loop of `LogFlush`. -/
def logFlushSlots (dispositions : List Disposition) : ℕ → List Slot → Option (List Flush × List Slot)
  | 0, slots => some ([], slots)
  | _ + 1, [] => none
  | n + 1, slot :: slots =>
    (logFlushSlot dispositions slot).bind fun (flush, slot) =>
      (logFlushSlots dispositions n slots).map fun (flushes, slots) => (flush :: flushes, slot :: slots)

/-- `LogFlush`. -/
def logFlush (context : Context) : Option (List Flush × Context) :=
  (logFlushSlots context.Disposition context.Pending context.Slot).map fun (flushes, slots) =>
    (flushes, { context with Slot := slots, Pending := 0 })

/-! ## The format -/

/-- What is behind the pointers among the arguments of a format, where it can be read: strings without their
`NUL`, and the buffers of counted strings up to their lengths. -/
structure Memory where
  string : UInt64 → Option (List UInt8)
  wideString : UInt64 → Option (List UInt16)
  ansiString : UInt64 → Option (List UInt8)
  unicodeString : UInt64 → Option (List UInt16)

/-- A directive of a format. -/
structure Directive where
  OppositeJustification : Bool
  ZeroPrefix : Bool
  Pad : ℕ
  Long : ℕ
  Wide : Bool
  Character : UInt8

/-- `isdigit`. -/
def isDigit (Character : UInt8) : Bool := 48 ≤ Character ∧ Character ≤ 57

/-- `Character = *Format++`, and the assertion that this is not the end. -/
def next (dbg : Bool) : List UInt8 → Option (UInt8 × List UInt8)
  | [] => none
  | Character :: Format => if dbg && Character == 0 then none else some (Character, Format)

/-- A loop over characters of the format, with the assertion about the next one. -/
def scan {σ : Type*} (dbg : Bool) (more ok : UInt8 → Bool) (f : σ → UInt8 → σ) :
    σ → UInt8 → List UInt8 → Option (σ × UInt8 × List UInt8)
  | a, Character, [] => if more Character then none else some (a, Character, [])
  | a, Character, c :: Format =>
    if more Character then
      if dbg && !ok c then none else scan dbg more ok f (f a Character) c Format
    else some (a, Character, c :: Format)

/-- The loop over `Pad`. -/
def scanPad (dbg : Bool) : UInt8 → List UInt8 → Option (ℕ × UInt8 × List UInt8) :=
  scan dbg isDigit (· != 0) (fun Pad Character => (Pad * 10 + (Character.toNat - 48)) % 256) 0

/-- The loop over `l`; one of `d`, `u`, `o`, `x`, `X` and `l` follows. -/
def scanLong (dbg : Bool) : UInt8 → List UInt8 → Option (ℕ × UInt8 × List UInt8) :=
  scan dbg (· == 108) ([100, 117, 111, 120, 88, 108].contains ·) (fun Long _ => (Long + 1) % 256) 0

/-- The loop over `w`; one of `c`, `s` and `Z` follows. -/
def scanWide (dbg : Bool) : UInt8 → List UInt8 → Option (Bool × UInt8 × List UInt8) :=
  scan dbg (· == 119) ([99, 115, 90].contains ·) (fun _ _ => true) false

/-- The directive after a `%`, and the rest of the format. -/
def directive (dbg : Bool) (Format : List UInt8) : Option (Directive × List UInt8) :=
  (next dbg Format).bind fun (Character, Format) =>
    (if Character = 45 then (next dbg Format).map fun (Character, Format) => (true, Character, Format)
      else some (false, Character, Format)).bind fun (OppositeJustification, First, Format) =>
      (scanPad dbg First Format).bind fun (Pad, Character, Format) =>
        (scanLong dbg Character Format).bind fun (Long, Character, Format) =>
          if dbg && 2 < Long then none
          else (scanWide dbg Character Format).map fun (Wide, Character, Format) =>
            (⟨OppositeJustification, First == 48, Pad, Long, Wide, Character⟩, Format)

/-- `LogFormatNumber`. -/
def logFormatNumber (Base : ℕ) (UpperCase : Bool) (Value : ℕ) : List UInt8 :=
  (if 1 < Base ∧ Value / Base ≠ 0 then logFormatNumber Base UpperCase (Value / Base) else []) ++
    [if Value % Base < 10 then UInt8.ofNat (48 + Value % Base)
      else UInt8.ofNat ((if UpperCase then 65 else 97) + (Value % Base - 10))]
  termination_by Value
  decreasing_by
    rename_i h
    exact Nat.div_lt_self (Nat.pos_of_ne_zero fun hzero => h.2 (by rw [hzero, Nat.zero_div])) h.1

/-- `LOG_FORMAT_NUMBER`, with the number of bits of the type. -/
def formatNumber (bits : ℕ) (Character : UInt8) (argument : UInt64) : List UInt8 :=
  let Value := argument.toNat % 2 ^ bits
  let Base := if Character = 111 then 8 else if Character = 100 ∨ Character = 117 then 10 else 16
  let UpperCase := Character = 112 ∨ Character = 88
  if Character = 100 ∧ 2 ^ (bits - 1) ≤ Value then 45 :: logFormatNumber Base UpperCase (2 ^ bits - Value)
  else logFormatNumber Base UpperCase Value

/-- A text with what it is padded with, on its left or on its right. -/
def padded (left : Bool) (Pad : ℕ) (Character : UInt8) (text : List UInt8) : List UInt8 :=
  let padding := List.replicate (Pad - text.length) Character
  if left then padding ++ text else text ++ padding

/-- `(null)`. -/
def nullText : List UInt8 := [40, 110, 117, 108, 108, 41]

/-- The characters of a string, of which the length is taken as a `ULONG`. -/
def stringText (text : List UInt8) : List UInt8 := text.take (text.length % 4294967296)

/-- What a directive puts for an argument, and whether it has taken the argument. -/
def directiveText (memory : Memory) (d : Directive) (argument : UInt64) : Option (List UInt8 × Bool) :=
  let narrow (text : List UInt16) : List UInt8 := text.map fun c => UInt8.ofNat c.toNat
  if d.Character = 99 then some ([UInt8.ofNat argument.toNat], true)
  else if [112, 100, 117, 111, 120, 88].contains d.Character then
    let d := if d.Character = 112 then { d with ZeroPrefix := true, Pad := 16, Long := 2 } else d
    let text := formatNumber (if d.Long = 2 then 64 else 32) d.Character argument
    some (if d.OppositeJustification then padded false d.Pad 32 text
      else padded true d.Pad (if d.ZeroPrefix then 48 else 32) text, true)
  else if d.Character = 115 then
    (if argument = 0 then some nullText
      else if d.Wide then (memory.wideString argument).map fun text => stringText (narrow text)
      else (memory.string argument).map stringText).map fun text =>
        (padded d.OppositeJustification d.Pad 32 text, true)
  else if d.Character = 90 then
    (if argument = 0 then some nullText
      else if d.Wide then (memory.unicodeString argument).map narrow
      else memory.ansiString argument).map fun text =>
        (padded d.OppositeJustification d.Pad 32 text, true)
  else some ([d.Character], false)

/-- One round of the loop of `LogWriteSlot`: what it puts, and what is left of the format and of the
arguments. -/
def item (dbg : Bool) (memory : Memory) (Character : UInt8) (Format : List UInt8) (Arguments : ℕ → UInt64) :
    Option (List UInt8 × List UInt8 × (ℕ → UInt64)) :=
  if Character ≠ 37 then some ([Character], Format, Arguments)
  else (directive dbg Format).bind fun (d, rest) =>
    (directiveText memory d (Arguments 0)).map fun (text, taken) =>
      (text, rest, if taken then fun i => Arguments (i + 1) else Arguments)

section Length

variable {dbg : Bool} {Format rest : List UInt8} {Character c : UInt8}

theorem length_of_next (h : next dbg Format = some (Character, rest)) : rest.length < Format.length := by
  cases Format with
  | nil => cases h
  | cons a Format =>
    rw [next] at h
    split_ifs at h
    obtain ⟨rfl, rfl⟩ := Prod.mk.inj (Option.some.inj h)
    exact Nat.lt_succ_self _

theorem length_of_scan {σ : Type*} {more ok : UInt8 → Bool} {f : σ → UInt8 → σ} {a b : σ}
    (h : scan dbg more ok f a Character Format = some (b, c, rest)) : rest.length ≤ Format.length := by
  induction Format generalizing a Character with
  | nil =>
    rw [scan] at h
    split_ifs at h
    obtain ⟨-, heq⟩ := Prod.mk.inj (Option.some.inj h)
    rw [(Prod.mk.inj heq).2]
  | cons d Format ih =>
    rw [scan] at h
    split_ifs at h
    · exact (ih h).trans (Nat.le_succ _)
    · obtain ⟨-, heq⟩ := Prod.mk.inj (Option.some.inj h)
      rw [(Prod.mk.inj heq).2]

theorem length_of_directive {d : Directive} (h : directive dbg Format = some (d, rest)) :
    rest.length < Format.length := by
  obtain ⟨⟨c₁, F₁⟩, h₁, h⟩ := Option.bind_eq_some_iff.mp h
  obtain ⟨⟨o, c₂, F₂⟩, h₂, h⟩ := Option.bind_eq_some_iff.mp h
  obtain ⟨⟨p, c₃, F₃⟩, h₃, h⟩ := Option.bind_eq_some_iff.mp h
  obtain ⟨⟨l, c₄, F₄⟩, h₄, h⟩ := Option.bind_eq_some_iff.mp h
  dsimp only at h h₂ h₃ h₄
  split_ifs at h
  obtain ⟨⟨w, c₅, F₅⟩, h₅, h⟩ := Option.map_eq_some_iff.mp h
  obtain ⟨-, rfl⟩ := Prod.mk.inj h
  have hminus : F₂.length ≤ F₁.length := by
    split_ifs at h₂
    · obtain ⟨⟨c, F⟩, hnext, heq⟩ := Option.map_eq_some_iff.mp h₂
      obtain ⟨-, heq⟩ := Prod.mk.inj heq
      rw [← (Prod.mk.inj heq).2]
      exact (length_of_next hnext).le
    · obtain ⟨-, heq⟩ := Prod.mk.inj (Option.some.inj h₂)
      rw [(Prod.mk.inj heq).2]
  calc F₅.length ≤ F₄.length := length_of_scan h₅
    _ ≤ F₃.length := length_of_scan h₄
    _ ≤ F₂.length := length_of_scan h₃
    _ ≤ F₁.length := hminus
    _ < Format.length := length_of_next h₁

/-- A round takes characters from the format only. -/
theorem length_of_item {memory : Memory} {Arguments Arguments' : ℕ → UInt64} {text : List UInt8}
    (h : item dbg memory Character Format Arguments = some (text, rest, Arguments')) :
    rest.length ≤ Format.length := by
  rw [item] at h
  split_ifs at h
  · obtain ⟨-, heq⟩ := Prod.mk.inj (Option.some.inj h)
    rw [(Prod.mk.inj heq).1]
  · obtain ⟨⟨d, F⟩, hdirective, h⟩ := Option.bind_eq_some_iff.mp h
    obtain ⟨⟨t, taken⟩, -, heq⟩ := Option.map_eq_some_iff.mp h
    obtain ⟨-, heq⟩ := Prod.mk.inj heq
    rw [← (Prod.mk.inj heq).1]
    exact (length_of_directive hdirective).le

end Length

/-- The characters that `LogWriteSlot` puts, and whether it returns; what it puts does not depend on the
slot. A `Count` of zero does not come to its end. -/
def logFormat (dbg : Bool) (memory : Memory) (Count : UInt32) (Format : List UInt8) (Arguments : ℕ → UInt64) :
    List UInt8 × Bool :=
  match Format with
  | [] => ([], false)
  | Character :: Format =>
    if Character = 0 then ([], true)
    else
      match _h : item dbg memory Character Format Arguments with
      | none => ([], false)
      | some (text, rest, Arguments) =>
        if Count - 1 = 0 then (text, true)
        else
          let more := logFormat dbg memory (Count - 1) rest Arguments
          (text ++ more.1, more.2)
  termination_by Format.length
  decreasing_by
    rw [List.length_cons]
    exact Nat.lt_succ_of_le (length_of_item ‹_›)

/-! ## Writing -/

/-- `__LogPut`. -/
def logPut (slot : Slot) (Character : UInt8) : Option Slot :=
  if bufferSize ≤ slot.Offset then some slot
  else (write slot.Buffer slot.Offset [Character]).map fun Buffer =>
    { slot with Buffer := Buffer, Offset := slot.Offset + 1 }

/-- One `__LogPut` after the other. -/
def logPuts (slot : Slot) (text : List UInt8) : Option Slot := text.foldlM logPut slot

/-- `LogWriteSlot`: the slot, and whether it returns. -/
def logWriteSlot (dbg : Bool) (memory : Memory) (slot : Slot) (Count : UInt32) (Format : List UInt8)
    (Arguments : ℕ → UInt64) : Option (Slot × Bool) :=
  (logPuts slot (logFormat dbg memory Count Format Arguments).1).map fun slot =>
    (slot, (logFormat dbg memory Count Format Arguments).2)

/-- The flush when there is no free slot. -/
def makeRoom (context : Context) : Option (List Flush × Context) :=
  if context.Pending = nrSlots then logFlush context else some ([], context)

/-- `&Context->Slot[Context->Pending++]`, and what is done with it. -/
def takeSlot {β : Type*} (context : Context) (f : Slot → Option (Slot × β)) : Option (Context × β) :=
  context.Slot[context.Pending]?.bind fun slot =>
    (f slot).map fun (slot, b) =>
      ({ context with Slot := context.Slot.set context.Pending slot, Pending := context.Pending + 1 }, b)

/-- `LogCchVPrintf`: the flushes, the context, and whether it returns. -/
def logCchVPrintf (dbg : Bool) (memory : Memory) (Level Count : UInt32) (Format : List UInt8)
    (Arguments : ℕ → UInt64) (context : Context) : Option (List Flush × Context × Bool) :=
  (makeRoom context).bind fun (flushes, context) =>
    (takeSlot context fun slot =>
      logWriteSlot dbg memory { slot with Level := Level } (min Count 256) Format Arguments).bind
        fun (context, returned) =>
          if returned then (logFlush context).map fun (more, context) => (flushes ++ more, context, true)
          else some (flushes, context, false)

/-- `LogDpc`. -/
def logDpc (context : Context) : Option (List Flush × Context) := logFlush context

/-- The filter of `LogDebugPrint`: not empty, and in a free build longer than `xen` and starting with it. -/
def accepted (dbg : Bool) (text : List UInt8) : Bool :=
  text ≠ [] ∧ (dbg = true ∨ 4 ≤ text.length ∧ text.take 3 = [120, 101, 110])

/-- `LogDebugPrint`; a string whose `Buffer` is `NULL` is `none`. -/
def logDebugPrint (dbg : Bool) (Ansi : Option (List UInt8)) (Level : UInt32) (context : Context) :
    Option (List Flush × Context) :=
  match Ansi.filter (accepted dbg) with
  | none => some ([], context)
  | some text =>
    (makeRoom context).bind fun (flushes, context) =>
      (takeSlot context fun slot =>
        (write slot.Buffer 0 text).map fun Buffer =>
          (⟨1 <<< (Level % 32), Buffer, text.length⟩, ())).map fun (context, _) => (flushes, context)

/-! ## Dispositions -/

/-- The loop of `LogAddDisposition`: the first entry that is not in use is taken. -/
def addDisposition (new : Disposition) : List Disposition → Option (List Disposition)
  | [] => none
  | d :: ds => if d.Mask = 0 then some (new :: ds) else (addDisposition new ds).map (d :: ·)

/-- `LogAddDisposition`, and whether it returns; nothing is added if no entry is free, or if the mask is empty.
If no entry is free it calls `Error` with the lock held: if the system passes the text on to `LogDebugPrint`
(`printed`), this waits for the lock for ever. -/
def logAddDisposition (printed : Bool) (new : Disposition) (context : Context) : Context × Bool :=
  if new.Mask = 0 then (context, true)
  else match addDisposition new context.Disposition with
    | some added => ({ context with Disposition := added }, true)
    | none => (context, !printed)

/-- `LogRemoveDisposition`, with the index of the entry if the pointer is not `NULL`. -/
def logRemoveDisposition (Disposition : Option ℕ) (context : Context) : Context :=
  match Disposition with
  | none => context
  | some Index => { context with Disposition := context.Disposition.set Index .zero }

/-! ## Runs -/

/-- A message: what is to be delivered. -/
structure Message where
  Level : UInt32
  text : List UInt8
  deriving DecidableEq

/-- The log, what has been enqueued and what has been flushed, in order. -/
structure State where
  Context : Log.Context
  operations : ℕ
  messages : List Message
  flushes : List Flush
  stopped : Bool

/-- The log after `LogInitialize`. -/
def initial : State :=
  ⟨⟨List.replicate nrSlots .zero, 0, List.replicate nrDispositions .zero⟩, 0, [], [], false⟩

/-- An operation, with its arguments. -/
inductive Operation
  | cchVPrintf (memory : Memory) (Level Count : UInt32) (Format : List UInt8) (Arguments : ℕ → UInt64)
  | debugPrint (Ansi : Option (List UInt8)) (Level : UInt32)
  | dpc
  | addDisposition (printed : Bool) (Mask : UInt32) (Function Argument : UInt64)
  | removeDisposition (Disposition : Option ℕ)

/-- The message that an operation enqueues, if it enqueues one. -/
def Operation.message (dbg : Bool) : Operation → Option Message
  | .cchVPrintf memory Level Count Format Arguments =>
    some ⟨Level, (logFormat dbg memory (min Count 256) Format Arguments).1.take bufferSize⟩
  | .debugPrint Ansi Level => (Ansi.filter (accepted dbg)).map fun text => ⟨1 <<< (Level % 32), text⟩
  | _ => none

/-- The operation on the log: the flushes, the context, and whether it returns. -/
def Operation.apply (dbg : Bool) (Registration : ℕ) (context : Context) :
    Operation → Option (List Flush × Context × Bool)
  | .cchVPrintf memory Level Count Format Arguments =>
    logCchVPrintf dbg memory Level Count Format Arguments context
  | .debugPrint Ansi Level => (logDebugPrint dbg Ansi Level context).map fun (fs, c) => (fs, c, true)
  | .dpc => (logDpc context).map fun (flushes, context) => (flushes, context, true)
  | .addDisposition printed Mask Function Argument =>
    some ([], logAddDisposition printed ⟨Mask, Function, Argument, Registration⟩ context)
  | .removeDisposition Disposition => some ([], logRemoveDisposition Disposition context, true)

/-- One operation. After the machine has stopped there is none. -/
def step (dbg : Bool) (s : State) (op : Operation) : Option State :=
  if s.stopped then some s
  else (op.apply dbg (s.operations + 1) s.Context).map fun (flushes, context, returned) =>
    ⟨context, s.operations + 1, s.messages ++ (op.message dbg).toList, s.flushes ++ flushes, !returned⟩

/-- A run of operations, in any order, from the initial log. -/
def run (dbg : Bool) (ops : List Operation) : Option State := ops.foldlM (step dbg) initial

end XenBus.Log
