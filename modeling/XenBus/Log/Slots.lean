import Mathlib.Data.List.Forall2
import Mathlib.Data.List.Induction
import XenBus.Log.Model

/-!
# The slots of the log

Whatever has been done, the slots hold the messages that are pending, in the order in which they were
enqueued, each followed by zeros up to the end of its buffer, and the others are zero (`Holds`). So a
writer finds a slot that is zero, and a flush that clears a slot up to its length clears it.

`writers_inside` has the bounds of all writes and of all calls. It needs the messages of `LogDebugPrint`
to be no longer than a buffer, which `LogDebugPrint` does not check.
-/

namespace XenBus.Log

open BoundedBuffer (write write_append write_over write_of_lt)

/-! ## Messages in slots -/

/-- The slot of a message. -/
def Message.slot (m : Message) : Slot :=
  ⟨m.Level, m.text ++ List.replicate (bufferSize - m.text.length) 0, m.text.length⟩

/-- The flush of a message: a call for each disposition whose mask has its level. -/
def Message.flush (dispositions : List Disposition) (m : Message) : Flush :=
  ⟨dispositions, (dispositions.filter (matching m.Level)).map fun d =>
    ⟨d.Registration, d.Function, d.Argument, m.text, m.text.length⟩⟩

/-- The messages fit into a buffer. -/
def Short (messages : List Message) : Prop := ∀ m ∈ messages, m.text.length ≤ bufferSize

/-- The slots hold the messages, and nothing else. -/
structure Holds (pending : List Message) (context : Context) : Prop where
  Slot : context.Slot = pending.map Message.slot ++ List.replicate (nrSlots - pending.length) .zero
  Pending : context.Pending = pending.length
  le : pending.length ≤ nrSlots
  short : Short pending

variable {pending : List Message} {context : Context} {dbg : Bool} {m : Message}

theorem short_nil : Short [] := fun _ hm => absurd hm List.not_mem_nil

theorem short_append {messages messages' : List Message} :
    Short (messages ++ messages') ↔ Short messages ∧ Short messages' := by
  simp only [Short, List.mem_append, or_imp, forall_and]

theorem slot_empty (Level : UInt32) : Message.slot ⟨Level, []⟩ = { Slot.zero with Level := Level } := rfl

/-- Every buffer has its length. -/
theorem Holds.length_buffer (h : Holds pending context) {slot : Log.Slot} (hslot : slot ∈ context.Slot) :
    slot.Buffer.length = bufferSize := by
  rw [h.Slot] at hslot
  obtain hslot | hslot := List.mem_append.mp hslot
  · obtain ⟨m, hm, rfl⟩ := List.mem_map.mp hslot
    have hshort := h.short m hm
    rw [Message.slot, List.length_append, List.length_replicate]
    omega
  · rw [List.eq_of_mem_replicate hslot]
    exact List.length_replicate

/-- `__LogPut` appends a character as long as there is room. -/
theorem logPut_slot (m : Message) (hm : m.text.length ≤ bufferSize) (c : UInt8) :
    logPut m.slot c = some (Message.slot ⟨m.Level, (m.text ++ [c]).take bufferSize⟩) := by
  unfold logPut Message.slot
  by_cases hfull : bufferSize ≤ m.text.length
  · rw [if_pos hfull, List.take_append_of_le_length hfull, List.take_of_length_le hm]
  · have hroom : [c].length ≤ (List.replicate (bufferSize - m.text.length) (0 : UInt8)).length := by
      rw [List.length_singleton, List.length_replicate]
      omega
    have hshort : (m.text ++ [c]).length ≤ bufferSize := by
      rw [List.length_append, List.length_singleton]
      omega
    rw [if_neg hfull, write_append _ _ _ hroom, List.take_of_length_le hshort, List.drop_replicate,
      List.length_append, List.length_singleton, Nat.sub_sub]
    rfl

theorem take_take_append {α : Type*} (n : ℕ) (a b : List α) : (a.take n ++ b).take n = (a ++ b).take n := by
  have hlength : n - min n a.length = n - a.length := by omega
  rw [List.take_append, List.take_append, List.take_take, min_self, List.length_take, hlength]

/-- `LogWriteSlot` writes what fits. -/
theorem logPuts_slot (text : List UInt8) : ∀ m : Message, m.text.length ≤ bufferSize →
    logPuts m.slot text = some (Message.slot ⟨m.Level, (m.text ++ text).take bufferSize⟩) := by
  induction text with
  | nil =>
    intro m hm
    rw [List.append_nil, List.take_of_length_le hm]
    rfl
  | cons c text ih =>
    intro m hm
    have hput : logPuts m.slot (c :: text) = (logPut m.slot c).bind (logPuts · text) := rfl
    rw [hput, logPut_slot m hm, Option.bind_some, ih _ (List.length_take_le _ _), take_take_append,
      List.append_assoc]
    rfl

/-! ## Flushing -/

theorem logFlushSlot_slot (dispositions : List Disposition) (hm : m.text.length ≤ bufferSize) :
    logFlushSlot dispositions m.slot = some (m.flush dispositions, .zero) := by
  have hwrite : write m.slot.Buffer 0 (List.replicate m.slot.Offset 0) =
      some (List.replicate bufferSize 0) := by
    rw [Message.slot, write_over _ _ _ List.length_replicate, List.replicate_append_replicate,
      Nat.add_sub_cancel' hm]
  have htext : m.slot.Buffer.take m.slot.Offset = m.text := List.take_left
  rw [logFlushSlot, hwrite, htext]
  rfl

theorem logFlushSlots_map (dispositions : List Disposition) (rest : List Slot) :
    ∀ pending, Short pending →
      logFlushSlots dispositions pending.length (pending.map Message.slot ++ rest) =
        some (pending.map (Message.flush dispositions), List.replicate pending.length .zero ++ rest) := by
  intro pending
  induction pending with
  | nil => exact fun _ => rfl
  | cons m pending ih =>
    intro hshort
    obtain ⟨hm, hrest⟩ := List.forall_mem_cons.mp hshort
    rw [List.map_cons, List.cons_append, List.length_cons, logFlushSlots, logFlushSlot_slot _ hm,
      Option.bind_some, ih hrest]
    rfl

/-- **A flush flushes the messages that are pending**, in their order, and leaves the slots zero. -/
theorem logFlush_holds (h : Holds pending context) :
    ∃ context', logFlush context = some (pending.map (Message.flush context.Disposition), context') ∧
      Holds [] context' ∧ context'.Disposition = context.Disposition := by
  have hslots : List.replicate pending.length Slot.zero ++
      List.replicate (nrSlots - pending.length) Slot.zero = List.replicate nrSlots Slot.zero := by
    rw [List.replicate_append_replicate, Nat.add_sub_cancel' h.le]
  refine ⟨{ context with Slot := List.replicate nrSlots .zero, Pending := 0 }, ?_, ?_, rfl⟩
  · rw [logFlush, h.Pending, h.Slot, logFlushSlots_map _ _ _ h.short, hslots]
    rfl
  · exact ⟨rfl, rfl, Nat.zero_le _, short_nil⟩

/-- The messages that are flushed to make room, and those that are not. -/
def roomFor (pending : List Message) : List Message × List Message :=
  if pending.length = nrSlots then (pending, []) else ([], pending)

theorem makeRoom_holds (h : Holds pending context) :
    ∃ context', makeRoom context =
        some ((roomFor pending).1.map (Message.flush context.Disposition), context') ∧
      Holds (roomFor pending).2 context' ∧ (roomFor pending).2.length < nrSlots ∧
      context'.Disposition = context.Disposition := by
  unfold makeRoom roomFor
  rw [h.Pending]
  split_ifs with hfull
  · obtain ⟨context', hflush, hholds, hdispositions⟩ := logFlush_holds h
    exact ⟨context', hflush, hholds, Nat.zero_lt_succ _, hdispositions⟩
  · exact ⟨context, rfl, h, lt_of_le_of_ne h.le hfull, rfl⟩

/-! ## Writing -/

/-- A message that has been written to the next slot is pending after the others. -/
theorem takeSlot_holds {β : Type*} {f : Slot → Option (Slot × β)} {b : β} (h : Holds pending context)
    (hroom : pending.length < nrSlots) (hm : m.text.length ≤ bufferSize)
    (hf : f .zero = some (m.slot, b)) :
    ∃ context', takeSlot context f = some (context', b) ∧ Holds (pending ++ [m]) context' ∧
      context'.Disposition = context.Disposition := by
  have hcount : nrSlots - pending.length = nrSlots - (pending.length + 1) + 1 := by omega
  have hslots : context.Slot = pending.map Message.slot ++
      Slot.zero :: List.replicate (nrSlots - (pending.length + 1)) .zero := by
    rw [h.Slot, hcount, List.replicate_succ]
  have hlength : context.Pending = (pending.map Message.slot).length := by rw [h.Pending, List.length_map]
  have hget : context.Slot[context.Pending]? = some .zero := by
    rw [hslots, hlength, List.getElem?_append_right (le_refl _), Nat.sub_self]
    rfl
  refine ⟨{ context with Slot := context.Slot.set context.Pending m.slot, Pending := context.Pending + 1 },
    ?_, ?_, rfl⟩
  · rw [takeSlot, hget, Option.bind_some, hf]
    rfl
  constructor
  · dsimp only
    rw [hslots, hlength, List.set_append_right _ _ (le_refl _), Nat.sub_self, List.map_append,
      List.length_append, List.append_assoc]
    rfl
  · dsimp only
    rw [h.Pending, List.length_append, List.length_singleton]
  · rw [List.length_append, List.length_singleton]
    exact hroom
  · exact short_append.mpr ⟨h.short, fun m' hm' => by rwa [List.mem_singleton.mp hm']⟩

/-! ## Operations -/

/-- What `LogDebugPrint` writes fits into a buffer. -/
def Operation.Fits (dbg : Bool) : Operation → Prop
  | .debugPrint Ansi _ => ∀ text, Ansi = some text → accepted dbg text = true → text.length ≤ bufferSize
  | _ => True

/-- What an operation has flushed: everything that was pending and its own message, or only what made room
for that message, or nothing if there was room. -/
def Operation.Flushed (op : Operation) (dbg : Bool) (pending done rest : List Message) (returned : Bool) :
    Prop :=
  match op with
  | .cchVPrintf .. => returned = true → rest = []
  | .debugPrint .. => op.message dbg ≠ none → pending.length = nrSlots → done = pending
  | .dpc => rest = []
  | _ => True

/-- What an operation does with the dispositions. -/
def Operation.dispositions (op : Operation) (Registration : ℕ) (dispositions : List Disposition) :
    List Disposition :=
  match op with
  | .addDisposition _ Mask Function Argument =>
    if Mask = 0 then dispositions
    else (Log.addDisposition ⟨Mask, Function, Argument, Registration⟩ dispositions).getD dispositions
  | .removeDisposition (some Index) => dispositions.set Index .zero
  | _ => dispositions

/-- An operation on slots that hold the messages `pending`: those in `done` are flushed, and those in `rest`
are pending then. -/
structure Operation.Does (op : Operation) (dbg : Bool) (Registration : ℕ) (context : Context)
    (pending done rest : List Message) (context' : Context) (returned : Bool) : Prop where
  apply : op.apply dbg Registration context =
    some (done.map (Message.flush context.Disposition), context', returned)
  messages : pending ++ (op.message dbg).toList = done ++ rest
  short : Short done
  holds : Holds rest context'
  dispositions : context'.Disposition = op.dispositions Registration context.Disposition
  flushed : op.Flushed dbg pending done rest returned

theorem roomFor_append (pending : List Message) : (roomFor pending).1 ++ (roomFor pending).2 = pending := by
  unfold roomFor
  split_ifs
  · exact List.append_nil _
  · rfl

theorem roomFor_full (h : pending.length = nrSlots) : (roomFor pending).1 = pending := by
  rw [roomFor, if_pos h]

theorem short_roomFor (h : Short pending) : Short (roomFor pending).1 :=
  (short_append.mp ((roomFor_append pending).symm ▸ h)).1

/-- `LogCchVPrintf` enqueues what fits of its text, and flushes. -/
theorem cchVPrintf_does (Registration : ℕ) (h : Holds pending context) (memory : Memory)
    (Level Count : UInt32) (Format : List UInt8) (Arguments : ℕ → UInt64) :
    ∃ done rest context' returned, (Operation.cchVPrintf memory Level Count Format Arguments).Does dbg
      Registration context pending done rest context' returned := by
  obtain ⟨context₁, hroom, hholds₁, hlt, hdispositions₁⟩ := makeRoom_holds h
  have hwrite : logWriteSlot dbg memory { Slot.zero with Level := Level } (min Count 256) Format Arguments =
      some (Message.slot ⟨Level, (logFormat dbg memory (min Count 256) Format Arguments).1.take bufferSize⟩,
        (logFormat dbg memory (min Count 256) Format Arguments).2) := by
    rw [logWriteSlot, ← slot_empty, logPuts_slot _ _ (Nat.zero_le _)]
    rfl
  obtain ⟨context₂, htake, hholds₂, hdispositions₂⟩ := takeSlot_holds
    (f := fun slot => logWriteSlot dbg memory { slot with Level := Level } (min Count 256) Format Arguments)
    hholds₁ hlt (List.length_take_le _ _) hwrite
  obtain ⟨context₃, hflush, hholds₃, hdispositions₃⟩ := logFlush_holds hholds₂
  have hmessages : pending ++
      ((Operation.cchVPrintf memory Level Count Format Arguments).message dbg).toList =
      (roomFor pending).1 ++ ((roomFor pending).2 ++
        [⟨Level, (logFormat dbg memory (min Count 256) Format Arguments).1.take bufferSize⟩]) := by
    rw [← List.append_assoc, roomFor_append]
    rfl
  have hshort : Short (pending ++
      ((Operation.cchVPrintf memory Level Count Format Arguments).message dbg).toList) := by
    rw [hmessages]
    exact short_append.mpr ⟨short_roomFor h.short, hholds₂.short⟩
  rw [hdispositions₂, hdispositions₁] at hflush hdispositions₃
  cases hreturned : (logFormat dbg memory (min Count 256) Format Arguments).2 with
  | true =>
    rw [hreturned] at htake
    refine ⟨_, [], context₃, true, ?_, by rw [List.append_nil], hshort, hholds₃, hdispositions₃, fun _ => rfl⟩
    rw [Operation.apply, logCchVPrintf, hroom, Option.bind_some]
    dsimp only
    rw [htake, Option.bind_some]
    dsimp only
    rw [if_pos rfl, hflush, hmessages]
    simp only [Option.map_some, List.map_append]
  | false =>
    rw [hreturned] at htake
    refine ⟨_, _, context₂, false, ?_, hmessages, short_roomFor h.short, hholds₂,
      hdispositions₂.trans hdispositions₁, fun heq => absurd heq (by decide)⟩
    rw [Operation.apply, logCchVPrintf, hroom, Option.bind_some]
    dsimp only
    rw [htake]
    rfl

/-- `LogDebugPrint` enqueues its text if it is accepted, and fits. -/
theorem debugPrint_does (Registration : ℕ) (h : Holds pending context) (Ansi : Option (List UInt8))
    (Level : UInt32) (hfits : (Operation.debugPrint Ansi Level).Fits dbg) :
    ∃ done rest context' returned, (Operation.debugPrint Ansi Level).Does dbg
      Registration context pending done rest context' returned := by
  cases hfilter : Ansi.filter (accepted dbg) with
  | none =>
    have hmessage : (Operation.debugPrint Ansi Level).message dbg = none := by
      rw [Operation.message, hfilter]
      rfl
    refine ⟨[], pending, context, true, ?_, ?_, short_nil, h, rfl, fun hne => absurd hmessage hne⟩
    · rw [Operation.apply, logDebugPrint, hfilter]
      rfl
    · rw [hmessage]
      exact List.append_nil _
  | some text =>
    obtain ⟨hsome, haccepted⟩ := Option.filter_eq_some_iff.mp hfilter
    have hm : text.length ≤ bufferSize := hfits text hsome haccepted
    obtain ⟨context₁, hroom, hholds₁, hlt, hdispositions₁⟩ := makeRoom_holds h
    have hwrite : write Slot.zero.Buffer 0 text =
        some (text ++ List.replicate (bufferSize - text.length) 0) := by
      rw [Slot.zero]
      have := write_append [] (List.replicate bufferSize (0 : UInt8)) text (by rwa [List.length_replicate])
      rwa [List.nil_append, List.nil_append, List.drop_replicate] at this
    obtain ⟨context₂, htake, hholds₂, hdispositions₂⟩ := takeSlot_holds
      (m := ⟨1 <<< (Level % 32), text⟩) (b := ())
      (f := fun slot => (write slot.Buffer 0 text).map fun Buffer =>
        (⟨1 <<< (Level % 32), Buffer, text.length⟩, ())) hholds₁ hlt hm (by rw [hwrite]; rfl)
    have hmessage : (Operation.debugPrint Ansi Level).message dbg = some ⟨1 <<< (Level % 32), text⟩ := by
      rw [Operation.message, hfilter]
      rfl
    refine ⟨_, _, context₂, true, ?_, ?_, short_roomFor h.short, hholds₂,
      hdispositions₂.trans hdispositions₁, fun _ hfull => roomFor_full hfull⟩
    · rw [Operation.apply, logDebugPrint, hfilter]
      dsimp only
      rw [hroom, Option.bind_some, htake]
      rfl
    · rw [hmessage, ← List.append_assoc, roomFor_append]
      rfl

/-- A text that does not fit is written beyond the buffer. -/
theorem debugPrint_beyond (Registration : ℕ) (h : Holds pending context) {text : List UInt8} (Level : UInt32)
    (haccepted : accepted dbg text = true) (hlong : bufferSize < text.length) :
    (Operation.debugPrint (some text) Level).apply dbg Registration context = none := by
  obtain ⟨context₁, hroom, hholds, -⟩ := makeRoom_holds h
  have hwrite : ∀ slot ∈ context₁.Slot, write slot.Buffer 0 text = none := by
    intro slot hslot
    exact write_of_lt (by rw [hholds.length_buffer hslot, Nat.zero_add]; exact hlong)
  rw [Operation.apply, logDebugPrint, Option.filter_some, if_pos haccepted]
  dsimp only
  rw [hroom, Option.bind_some]
  dsimp only
  rw [takeSlot]
  cases hget : context₁.Slot[context₁.Pending]? with
  | none => rfl
  | some slot =>
    rw [Option.bind_some, hwrite slot (List.mem_of_getElem? hget)]
    rfl

/-- `LogAddDisposition` changes the dispositions at most. -/
theorem logAddDisposition_eq (printed : Bool) (new : Disposition) (context : Context) :
    ∃ returned, logAddDisposition printed new context = (⟨context.Slot, context.Pending,
      if new.Mask = 0 then context.Disposition
      else (addDisposition new context.Disposition).getD context.Disposition⟩, returned) := by
  unfold logAddDisposition
  split_ifs with hMask
  · exact ⟨true, rfl⟩
  · cases addDisposition new context.Disposition with
    | none => exact ⟨!printed, rfl⟩
    | some added => exact ⟨true, rfl⟩

theorem holds_dispositions (h : Holds pending context) (dispositions : List Disposition) :
    Holds pending { context with Disposition := dispositions } := ⟨h.Slot, h.Pending, h.le, h.short⟩

/-- **Every operation** does with the messages what it should, one case per operation. -/
theorem Operation.does (op : Operation) (Registration : ℕ) (h : Holds pending context) (hfits : op.Fits dbg) :
    ∃ done rest context' returned, op.Does dbg Registration context pending done rest context' returned := by
  cases op with
  | cchVPrintf memory Level Count Format Arguments => exact cchVPrintf_does Registration h ..
  | debugPrint Ansi Level => exact debugPrint_does Registration h Ansi Level hfits
  | dpc =>
    obtain ⟨context', hflush, hholds, hdispositions⟩ := logFlush_holds h
    exact ⟨pending, [], context', true, by rw [Operation.apply, logDpc, hflush]; rfl, rfl, h.short, hholds,
      hdispositions, rfl⟩
  | addDisposition printed Mask Function Argument =>
    obtain ⟨returned, hadd⟩ := logAddDisposition_eq printed ⟨Mask, Function, Argument, Registration⟩ context
    refine ⟨[], pending, _, returned, ?_, List.append_nil _, short_nil, holds_dispositions h _, rfl, trivial⟩
    rw [Operation.apply, hadd]
    rfl
  | removeDisposition Disposition =>
    cases Disposition with
    | none => exact ⟨[], pending, _, true, rfl, List.append_nil _, short_nil, h, rfl, trivial⟩
    | some Index =>
      exact ⟨[], pending, _, true, rfl, List.append_nil _, short_nil, holds_dispositions h _, rfl,
        trivial⟩

/-! ## Runs -/

/-- What has been flushed and what is pending. -/
structure Inv (s : State) (done pending : List Message) : Prop where
  messages : s.messages = done ++ pending
  flushes : List.Forall₂ (fun m flush => flush = Message.flush flush.Disposition m) done s.flushes
  holds : Holds pending s.Context
  short : Short done

theorem inv_initial : Inv initial [] [] :=
  ⟨rfl, .nil, ⟨rfl, rfl, Nat.zero_le _, short_nil⟩, short_nil⟩

theorem forall₂_flush (dispositions : List Disposition) (messages : List Message) :
    List.Forall₂ (fun m flush => flush = Message.flush flush.Disposition m) messages
      (messages.map (Message.flush dispositions)) := by
  induction messages with
  | nil => exact .nil
  | cons m messages ih => exact .cons rfl ih

variable {s : State} {done : List Message} {op : Operation}

/-- An operation of a machine that has not stopped. -/
theorem step_inv (h : Inv s done pending) (hstopped : s.stopped = false) (hfits : op.Fits dbg) :
    ∃ s' more rest, step dbg s op = some s' ∧ Inv s' (done ++ more) rest ∧
      s'.flushes = s.flushes ++ more.map (Message.flush s.Context.Disposition) ∧
      s'.Context.Disposition = op.dispositions (s.operations + 1) s.Context.Disposition ∧
      s'.operations = s.operations + 1 ∧ op.Flushed dbg pending more rest (!s'.stopped) := by
  obtain ⟨more, rest, context', returned, hdoes⟩ := op.does (s.operations + 1) h.holds hfits
  refine ⟨⟨context', s.operations + 1, s.messages ++ (op.message dbg).toList,
    s.flushes ++ more.map (Message.flush s.Context.Disposition), !returned⟩, more, rest, ?_,
    ⟨?_, ?_, hdoes.holds, short_append.mpr ⟨h.short, hdoes.short⟩⟩, rfl, hdoes.dispositions, rfl, ?_⟩
  · rw [step, hstopped, if_neg (by decide), hdoes.apply]
    rfl
  · dsimp only
    rw [h.messages, List.append_assoc, List.append_assoc, hdoes.messages]
  · exact List.rel_append h.flushes (forall₂_flush _ _)
  · rw [Bool.not_not]
    exact hdoes.flushed

theorem run_append (ops : List Operation) (op : Operation) :
    run dbg (ops ++ [op]) = (run dbg ops).bind fun s => step dbg s op := by
  rw [run, List.foldlM_append]
  cases h : ops.foldlM (step dbg) initial with
  | none => rw [run, h]; rfl
  | some s =>
    rw [run, h]
    exact bind_pure (step dbg s op)

/-- A property of the initial log that every operation keeps holds after a run. -/
theorem run_induction {P : State → Prop} (hinitial : P initial)
    (hstep : ∀ s op, P s → op.Fits dbg → ∃ s', step dbg s op = some s' ∧ P s') (ops : List Operation)
    (hfits : ∀ op ∈ ops, op.Fits dbg) : ∃ s, run dbg ops = some s ∧ P s := by
  induction ops using List.reverseRecOn with
  | nil => exact ⟨initial, rfl, hinitial⟩
  | append_singleton ops op ih =>
    obtain ⟨s, hrun, hP⟩ := ih fun op' hop' => hfits op' (List.mem_append_left _ hop')
    rw [run_append, hrun, Option.bind_some]
    exact hstep s op hP (hfits op (List.mem_append_right _ (List.mem_singleton_self _)))

/-- Nothing goes beyond a slot: the slots that are pending are in the array, what is in a slot is in its
buffer, and so is what a disposition is given. -/
structure Inside (s : State) : Prop where
  Pending : s.Context.Pending ≤ nrSlots
  Offset : ∀ slot ∈ s.Context.Slot, slot.Offset ≤ bufferSize
  calls : ∀ flush ∈ s.flushes, ∀ call ∈ flush.calls, call.Length ≤ bufferSize

/-- A flush is that of a message. -/
theorem exists_of_mem_flushes (h : Inv s done pending) {flush : Flush} (hflush : flush ∈ s.flushes) :
    ∃ m ∈ done, flush = m.flush flush.Disposition := by
  have hflushes := h.flushes
  generalize s.flushes = flushes at hflush hflushes
  clear h
  induction hflushes with
  | nil => exact absurd hflush List.not_mem_nil
  | cons heq _ ih =>
    obtain rfl | hflush := List.mem_cons.mp hflush
    · exact ⟨_, List.mem_cons_self, heq⟩
    · obtain ⟨m, hm, heq⟩ := ih hflush
      exact ⟨m, List.mem_cons_of_mem _ hm, heq⟩

theorem inside_of_inv (h : Inv s done pending) : Inside s := by
  refine ⟨h.holds.Pending.trans_le h.holds.le, fun slot hslot => ?_, fun flush hflush call hcall => ?_⟩
  · rw [h.holds.Slot] at hslot
    obtain hslot | hslot := List.mem_append.mp hslot
    · obtain ⟨m, hm, rfl⟩ := List.mem_map.mp hslot
      exact h.holds.short m hm
    · rw [List.eq_of_mem_replicate hslot]
      exact Nat.zero_le _
  · obtain ⟨m, hm, heq⟩ := exists_of_mem_flushes h hflush
    rw [heq] at hcall
    obtain ⟨d, -, rfl⟩ := List.mem_map.mp hcall
    exact h.short m hm

/-! ## Main result -/

/-- **The writers of the log stay inside their slots** in every run in which what `LogDebugPrint` writes
fits into a buffer. -/
theorem writers_inside (dbg : Bool) (ops : List Operation) (hfits : ∀ op ∈ ops, op.Fits dbg) :
    ∃ s, run dbg ops = some s ∧ Inside s := by
  obtain ⟨s, hrun, done, pending, hinv⟩ := run_induction (P := fun s => ∃ done pending, Inv s done pending)
    ⟨[], [], inv_initial⟩ (fun s op hP hfits => by
      obtain ⟨done, pending, hinv⟩ := hP
      by_cases hstopped : s.stopped = true
      · exact ⟨s, if_pos hstopped, done, pending, hinv⟩
      · obtain ⟨s', more, rest, hstep, hinv', -⟩ := step_inv hinv (Bool.not_eq_true _ ▸ hstopped) hfits
        exact ⟨s', hstep, _, _, hinv'⟩) ops hfits
  exact ⟨s, hrun, inside_of_inv hinv⟩

/-- A disposition, and a message of each writer. -/
def twoMessages : List Operation := [.addDisposition true 3 1 2, .debugPrint (some [120, 101, 110, 10]) 0,
  .cchVPrintf ⟨fun _ => none, fun _ => none, fun _ => none, fun _ => none⟩ 1 256 [104, 105, 0] fun _ => 0]

theorem fits_twoMessages : ∀ op ∈ twoMessages, op.Fits false := by
  intro op hop
  obtain rfl | hop := List.mem_cons.mp hop
  · trivial
  obtain rfl | hop := List.mem_cons.mp hop
  · intro text htext _
    rw [← Option.some.inj htext]
    decide
  · rw [List.mem_singleton.mp hop]
    trivial

theorem logFormat_hi (memory : Memory) (Arguments : ℕ → UInt64) :
    logFormat dbg memory (min 256 256) [104, 105, 0] Arguments = ([104, 105], true) := by
  have hcount : ¬ (min 256 256 - 1 : UInt32) = 0 ∧ ¬ (min 256 256 - 1 - 1 : UInt32) = 0 := by decide
  have hend : logFormat dbg memory (min 256 256 - 1 - 1) [0] Arguments = ([], true) := by
    rw [logFormat, if_pos rfl]
  have hi : logFormat dbg memory (min 256 256 - 1) [105, 0] Arguments = ([105], true) := by
    rw [logFormat, if_neg (by decide)]
    simp [item, hcount, hend]
  rw [logFormat, if_neg (by decide)]
  simp [item, hcount, hi]

/-- The disposition is called with each of the two messages. -/
theorem calls_twoMessages : (run false twoMessages).map (fun s => s.flushes.map Flush.calls) =
    some [[⟨1, 1, 2, [120, 101, 110, 10], 4⟩], [⟨1, 1, 2, [104, 105], 2⟩]] := by
  rw [run, twoMessages]
  simp only [List.foldlM_cons, List.foldlM_nil, step, Operation.apply, logCchVPrintf, logWriteSlot,
    logFormat_hi]
  decide +kernel

theorem writers_inside_twoMessages : ∃ s, run false twoMessages = some s ∧ Inside s ∧
    s.flushes.map Flush.calls =
      [[⟨1, 1, 2, [120, 101, 110, 10], 4⟩], [⟨1, 1, 2, [104, 105], 2⟩]] := by
  obtain ⟨s, hrun, hinside⟩ := writers_inside false twoMessages fits_twoMessages
  have hcalls := calls_twoMessages
  rw [hrun] at hcalls
  exact ⟨s, hrun, hinside, Option.some.inj hcalls⟩

/-- 257 bytes that begin with `xen`. -/
def longText : List UInt8 := [120, 101, 110] ++ List.replicate 254 32

/-- `LogDebugPrint` copies them all, in a free build too. -/
theorem debugPrint_overruns : ¬ ∀ (dbg : Bool) (ops : List Operation),
    ∃ s, run dbg ops = some s ∧ Inside s := by
  intro h
  obtain ⟨s, hrun, -⟩ := h false [.debugPrint (some longText) 0]
  have hlength : longText.length = 257 := by
    rw [longText, List.length_append, List.length_replicate]
    rfl
  have haccepted : accepted false longText = true := by
    rw [accepted, hlength]
    rfl
  have hnone : run false [.debugPrint (some longText) 0] = none := by
    have happly := debugPrint_beyond (initial.operations + 1) inv_initial.holds 0 haccepted
      (by rw [hlength]; decide)
    rw [run, List.foldlM_cons, step, if_neg (by decide), happly]
    rfl
  rw [hnone] at hrun
  exact absurd hrun.symm (Option.some_ne_none _)

end XenBus.Log
