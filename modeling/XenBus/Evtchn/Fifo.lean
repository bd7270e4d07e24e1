import XenBus.Foundations.Bitmap
import XenBus.Foundations.Transition
import Mathlib.Data.Fintype.Basic

/-!
# The FIFO ABI

The queues of one vCPU, from both sides: the hypervisor links ports to them, and `EvtchnFifoPoll` of
`evtchn_fifo.c` drains them. The event words, the control block and `Context->Head` change one access at
a time. The control block is mapped, and the polls of the vCPU hold the interrupt lock of its processor:
there is one at a time. The mask, the unmask and the acknowledgement of a port each change its word once.

The hypervisor sets `PENDING`; if it was clear, the port is not `MASKED` and `LINKED` was clear, it sets
`LINKED` and links the port behind the tail of its queue, if that is still linked, and otherwise writes
it to `head` and sets the bit of the queue in `ready`. Any number of its enqueues run at a time.
-/

namespace XenBus.Evtchn.Fifo

open Bitmap

/-- `ULONG`, and `event_word_t`. -/
abbrev ULONG : Type := BitVec 32

/-- `EVTCHN_FIFO_MAX_QUEUES`. -/
abbrev MAX_QUEUES : ℕ := 16

/-! ## Event words -/

/-- `EVTCHN_FIFO_PENDING`. -/
abbrev PENDING : ℕ := 31

/-- `EVTCHN_FIFO_MASKED`. -/
abbrev MASKED : ℕ := 30

/-- `EVTCHN_FIFO_LINKED`. -/
abbrev LINKED : ℕ := 29

/-- `EVTCHN_FIFO_LINK_MASK`. -/
def LINK_MASK : ULONG := 0x1ffff#32

/-- `__EvtchnFifoTestFlag`. -/
def testFlag (EventWord : ULONG) (Flag : ℕ) : Bool := EventWord.getLsbD Flag

/-- What `__EvtchnFifoUnlink` stores: without the linked bit and the link. -/
def unlink (Old : ULONG) : ULONG := Old &&& ~~~(BitVec.twoPow 32 LINKED ||| LINK_MASK)

/-- The link of a word. -/
def link (Old : ULONG) : ULONG := Old &&& LINK_MASK

/-- The word with another link. -/
def setLink (Old Port : ULONG) : ULONG := Old &&& ~~~LINK_MASK ||| Port

/-- A port: not 0, and it fits into a link. -/
def IsPort (Port : ULONG) : Prop := Port ≠ 0 ∧ Port &&& LINK_MASK = Port

instance (Port : ULONG) : Decidable (IsPort Port) := inferInstanceAs (Decidable (_ ∧ _))

theorem getLsbD_LINK_MASK {i : ℕ} (hi : i < 32) : LINK_MASK.getLsbD i = decide (i < 17) := by
  revert i
  decide

theorem testFlag_unlink {w : ULONG} {Flag : ℕ} (h : 17 ≤ Flag) (hF : Flag < 32) :
    testFlag (unlink w) Flag = (testFlag w Flag && decide (Flag ≠ LINKED)) := by
  unfold testFlag unlink
  rw [BitVec.getLsbD_and, BitVec.getLsbD_not, BitVec.getLsbD_or, BitVec.getLsbD_twoPow,
    getLsbD_LINK_MASK hF]
  by_cases hl : Flag = LINKED
  · simp [hl, LINKED]
  · simp [hF, hl, Ne.symm hl, h]

theorem link_unlink (w : ULONG) : link (unlink w) = 0 := by
  apply BitVec.eq_of_getLsbD_eq
  intro i hi
  unfold link unlink
  rw [BitVec.getLsbD_and, BitVec.getLsbD_and, BitVec.getLsbD_not, BitVec.getLsbD_or,
    getLsbD_LINK_MASK hi]
  by_cases h : i < 17 <;> simp [h]

theorem testFlag_setBit {w : ULONG} {Bit Flag : ℕ} (h : Bit < 32) :
    testFlag (setBit w Bit) Flag = (testFlag w Flag || decide (Bit = Flag)) := by
  unfold testFlag
  rw [getLsbD_setBit, decide_eq_true h, Bool.true_and]

theorem testFlag_clearBit (w : ULONG) (Bit Flag : ℕ) :
    testFlag (clearBit w Bit) Flag = (testFlag w Flag && !decide (Bit = Flag)) :=
  getLsbD_clearBit w Bit Flag

theorem link_setBit {w : ULONG} {Bit : ℕ} (h : 17 ≤ Bit) : link (setBit w Bit) = link w := by
  apply BitVec.eq_of_getLsbD_eq
  intro i hi
  unfold link
  rw [BitVec.getLsbD_and, BitVec.getLsbD_and, getLsbD_setBit, getLsbD_LINK_MASK hi]
  by_cases hlt : i < 17
  · simp [show Bit ≠ i by omega]
  · simp [hlt]

theorem link_clearBit {w : ULONG} {Bit : ℕ} (h : 17 ≤ Bit) : link (clearBit w Bit) = link w := by
  apply BitVec.eq_of_getLsbD_eq
  intro i hi
  unfold link
  rw [BitVec.getLsbD_and, BitVec.getLsbD_and, getLsbD_clearBit, getLsbD_LINK_MASK hi]
  by_cases hlt : i < 17
  · simp [show Bit ≠ i by omega]
  · simp [hlt]

theorem getLsbD_of_isPort {Port : ULONG} (h : IsPort Port) {i : ℕ} (hi : 17 ≤ i) :
    Port.getLsbD i = false := by
  by_cases h32 : i < 32
  · rw [← h.2, BitVec.getLsbD_and, getLsbD_LINK_MASK h32, decide_eq_false (by omega), Bool.and_false]
  · exact BitVec.getLsbD_of_ge _ _ (by omega)

theorem testFlag_setLink {w Port : ULONG} (hp : IsPort Port) {Flag : ℕ} (h : 17 ≤ Flag)
    (hF : Flag < 32) : testFlag (setLink w Port) Flag = testFlag w Flag := by
  unfold testFlag setLink
  rw [BitVec.getLsbD_or, BitVec.getLsbD_and, BitVec.getLsbD_not, getLsbD_LINK_MASK hF,
    getLsbD_of_isPort hp h]
  simp [hF, show ¬ Flag < 17 by omega]

theorem link_setLink {w Port : ULONG} (hp : IsPort Port) : link (setLink w Port) = Port := by
  apply BitVec.eq_of_getLsbD_eq
  intro i hi
  unfold link setLink
  rw [BitVec.getLsbD_and, BitVec.getLsbD_or, BitVec.getLsbD_and, BitVec.getLsbD_not,
    getLsbD_LINK_MASK hi]
  by_cases h : i < 17
  · simp [h]
  · rw [getLsbD_of_isPort hp (by omega)]
    simp [h]

/-- `_BitScanReverse`: the highest bit that is set. -/
def bitScanReverse (Ready : ULONG) : Option ℕ := (List.range 32).reverse.find? (Ready.getLsbD ·)

theorem getLsbD_of_bitScanReverse {Ready : ULONG} {Priority : ℕ}
    (h : bitScanReverse Ready = some Priority) : Ready.getLsbD Priority = true :=
  List.find?_some h

theorem getLsbD_of_bitScanReverse_eq_none {Ready : ULONG} (h : bitScanReverse Ready = none) (q : ℕ) :
    Ready.getLsbD q = false := by
  by_cases hq : q < 32
  · have := List.find?_eq_none.mp h q (List.mem_reverse.mpr (List.mem_range.mpr hq))
    exact eq_false_of_ne_true this
  · exact BitVec.getLsbD_of_ge _ _ (by omega)

/-! ## Program counters -/

/-- `Ready` and `DoneSomething` of `EvtchnFifoPoll`. -/
structure Locals where
  Ready : ULONG
  DoneSomething : Bool
  deriving DecidableEq

/-- Where the poll is. `Head` is the local variable of `EvtchnFifoPollPriority`. -/
inductive Poll
  /-- No poll runs, and this is what the last one returned. -/
  | returned (DoneSomething : Bool)
  /-- Before `InterlockedExchange(&ControlBlock->ready, 0)`. -/
  | exchange (l : Locals)
  /-- `EvtchnFifoPollPriority`, before `Head = Context->Head[vcpu_id][Priority]`. -/
  | cached (Priority : ℕ) (l : Locals)
  /-- Before `Head = ControlBlock->head[Priority]`. -/
  | control (Priority : ℕ) (l : Locals)
  /-- `__EvtchnFifoUnlink`, before `Old = *EventWord`. -/
  | word (Priority : ℕ) (Port : ULONG) (l : Locals)
  /-- Before `InterlockedCompareExchange`. -/
  | compare (Priority : ℕ) (Port Old : ULONG) (l : Locals)
  /-- Before the test of the masked bit. -/
  | testMasked (Priority : ℕ) (Port Head : ULONG) (l : Locals)
  /-- Before the test of the pending bit. -/
  | testPending (Priority : ℕ) (Port Head : ULONG) (l : Locals)
  /-- Before `Event`. -/
  | event (Priority : ℕ) (Port Head : ULONG) (l : Locals)
  /-- Before `Context->Head[vcpu_id][Priority] = Head`. -/
  | store (Priority : ℕ) (Head : ULONG) (l : Locals)
  deriving DecidableEq

/-- Where an enqueue of the hypervisor is. -/
inductive Enqueue
  | idle
  /-- Before the test-and-set of `PENDING`. -/
  | setPending (Port : ULONG)
  /-- Before the test of `MASKED`. -/
  | testMasked (Port : ULONG)
  /-- Before the test-and-set of `LINKED`. -/
  | setLinked (Port : ULONG)
  /-- Before the read of the tail. -/
  | readTail (Port : ULONG)
  /-- Before the read of the word of the tail. -/
  | tailWord (Port Tail : ULONG)
  /-- That word was `Old`: before the compare-exchange. -/
  | tailLink (Port Tail Old : ULONG)
  /-- Before the write to `head`. -/
  | writeHead (Port : ULONG)
  /-- Before the bit in `ready` is set. -/
  | setReady (Port : ULONG)
  /-- Before the port becomes the tail. -/
  | writeTail (Port : ULONG)
  deriving DecidableEq

/-- The port that an enqueue is about. -/
def Enqueue.port : Enqueue → Option ULONG
  | .idle => none
  | .setPending Port | .testMasked Port | .setLinked Port | .readTail Port | .tailWord Port _
  | .tailLink Port _ _ | .writeHead Port | .setReady Port | .writeTail Port => some Port

/-- The port of an enqueue that has set `LINKED` and has not made the port the tail. -/
def Enqueue.inside : Enqueue → Option ULONG
  | .idle | .setPending _ | .testMasked _ | .setLinked _ => none
  | e => e.port

/-! ## The system -/

/-- The queue that each port is on. -/
structure Config where
  priority : ULONG → ℕ
  priority_lt : ∀ Port, priority Port < MAX_QUEUES

/-- The words, the control block of the vCPU, `Context->Head[vcpu_id]`, and the tails that the hypervisor
keeps. `enqueued`, `completed` and `unlinked` are what has happened to a queue: the ports whose `LINKED`
has been set, those that have become the tail after that, and those that the poll has unlinked;
`lastRead` are the completed ones when `ready` was last read. -/
structure State (ι : Type) where
  EventWord : ULONG → ULONG
  head : ℕ → ULONG
  ready : ULONG
  Head : ℕ → ULONG
  tail : ℕ → ULONG
  poll : Poll
  pc : ι → Enqueue
  enqueued : ℕ → List ULONG
  completed : ℕ → List ULONG
  unlinked : ℕ → List ULONG
  lastRead : ℕ → List ULONG

variable {ι : Type} [DecidableEq ι]

namespace State

/-- The enqueue goes on to `e`. -/
def goto (s : State ι) (i : ι) (e : Enqueue) : State ι :=
  { s with pc := Function.update s.pc i e }

/-- A word changes. -/
def setWord (s : State ι) (Port EventWord : ULONG) : State ι :=
  { s with EventWord := Function.update s.EventWord Port EventWord }

end State

/-- One access of an enqueue. A tail that is the port itself is not still linked: its `LINKED` has been
found clear. -/
def enqueueStep (p : Config) (s : State ι) (i : ι) : Enqueue → Option (State ι)
  | .idle => none
  | .setPending Port =>
    some ((s.setWord Port (setBit (s.EventWord Port) PENDING)).goto i
      (if testFlag (s.EventWord Port) PENDING then .idle else .testMasked Port))
  | .testMasked Port =>
    some (s.goto i (if testFlag (s.EventWord Port) MASKED then .idle else .setLinked Port))
  | .setLinked Port =>
    if testFlag (s.EventWord Port) LINKED then some (s.goto i .idle)
    else
      let q := p.priority Port
      some ({ s.setWord Port (setBit (s.EventWord Port) LINKED) with
        enqueued := Function.update s.enqueued q (s.enqueued q ++ [Port]) }.goto i (.readTail Port))
  | .readTail Port =>
    let Tail := s.tail (p.priority Port)
    some (s.goto i (if Tail = 0 ∨ Tail = Port then .writeHead Port else .tailWord Port Tail))
  | .tailWord Port Tail =>
    let Old := s.EventWord Tail
    some (s.goto i (if testFlag Old LINKED then .tailLink Port Tail Old else .writeHead Port))
  | .tailLink Port Tail Old =>
    if s.EventWord Tail = Old then
      some ((s.setWord Tail (setLink Old Port)).goto i (.writeTail Port))
    else some (s.goto i (.tailWord Port Tail))
  | .writeHead Port =>
    some ({ s with head := Function.update s.head (p.priority Port) Port }.goto i (.setReady Port))
  | .setReady Port =>
    some ({ s with ready := setBit s.ready (p.priority Port) }.goto i (.writeTail Port))
  | .writeTail Port =>
    let q := p.priority Port
    some ({ s with
      tail := Function.update s.tail q Port
      completed := Function.update s.completed q (s.completed q ++ [Port]) }.goto i .idle)

/-- `EvtchnFifoPoll` after `Ready` has been read: the loop goes on or ends. -/
def scan (l : Locals) : Poll :=
  match bitScanReverse l.Ready with
  | none => .returned l.DoneSomething
  | some Priority => .cached Priority l

/-- One access of the poll. `answer` is what `Event` returns. -/
def pollStep (s : State ι) (answer : Bool) : Poll → Option (State ι)
  | .returned _ => none
  | .exchange l =>
    some { s with
      ready := 0
      lastRead := s.completed
      poll := scan ⟨l.Ready ||| s.ready, l.DoneSomething⟩ }
  | .cached Priority l =>
    some { s with
      poll := if s.Head Priority = 0 then .control Priority l else .word Priority (s.Head Priority) l }
  | .control Priority l => some { s with poll := .word Priority (s.head Priority) l }
  | .word Priority Port l => some { s with poll := .compare Priority Port (s.EventWord Port) l }
  | .compare Priority Port Old l =>
    if s.EventWord Port = Old then
      some { s.setWord Port (unlink Old) with
        unlinked := Function.update s.unlinked Priority (s.unlinked Priority ++ [Port])
        poll := .testMasked Priority Port (link Old)
          { l with Ready := if link Old = 0 then clearBit l.Ready Priority else l.Ready } }
    else some { s with poll := .word Priority Port l }
  | .testMasked Priority Port Head l =>
    some { s with
      poll :=
        if testFlag (s.EventWord Port) MASKED then .store Priority Head l
        else .testPending Priority Port Head l }
  | .testPending Priority Port Head l =>
    some { s with
      poll :=
        if testFlag (s.EventWord Port) PENDING then .event Priority Port Head l
        else .store Priority Head l }
  | .event Priority _ Head l =>
    some { s with poll := .store Priority Head { l with DoneSomething := l.DoneSomething || answer } }
  | .store Priority Head l =>
    some { s with
      Head := Function.update s.Head Priority Head
      poll := .exchange l }

/-- Whether a poll of the vCPU runs. -/
def Poll.running : Poll → Bool
  | .returned _ => false
  | _ => true

/-- A step of the system. -/
inductive Action (ι : Type)
  /-- An event for a port. -/
  | event (i : ι) (Port : ULONG)
  /-- The hypervisor makes the next access of an enqueue. -/
  | enqueue (i : ι)
  /-- `EvtchnFifoPoll` is called. -/
  | poll
  /-- It makes its next access. -/
  | run (answer : Bool)
  /-- `EvtchnFifoPortAck`. -/
  | ack (Port : ULONG)
  /-- `EvtchnFifoPortMask`. -/
  | mask (Port : ULONG)
  /-- `EvtchnFifoPortUnmask`. -/
  | unmask (Port : ULONG)

/-- One step. -/
def step (p : Config) (s : State ι) : Action ι → Option (State ι)
  | .event i Port =>
    if s.pc i = .idle ∧ IsPort Port then some (s.goto i (.setPending Port)) else none
  | .enqueue i => enqueueStep p s i (s.pc i)
  | .poll => if s.poll.running then none else some { s with poll := .exchange ⟨0, false⟩ }
  | .run answer => pollStep s answer s.poll
  | .ack Port => some (s.setWord Port (clearBit (s.EventWord Port) PENDING))
  | .mask Port => some (s.setWord Port (setBit (s.EventWord Port) MASKED))
  | .unmask Port => some (s.setWord Port (clearBit (s.EventWord Port) MASKED))

/-- After the ports have been added: they are masked. -/
def init : State ι where
  EventWord _ := setBit 0 MASKED
  head _ := 0
  ready := 0
  Head _ := 0
  tail _ := 0
  poll := .returned false
  pc _ := .idle
  enqueued _ := []
  completed _ := []
  unlinked _ := []
  lastRead _ := []

/-! ## Enqueues one at a time -/

/-- Whether `e` would set `LINKED` next while `e'` is at the queue of its port. -/
def clash (p : Config) : Enqueue → Enqueue → Bool
  | .setLinked Port, e' => e'.inside.any fun Port' => p.priority Port' = p.priority Port
  | _, _ => false

/-- The enqueues of a queue are one at a time from the linked bit to the tail, and the driver masks
and acknowledges ports between its polls. -/
def Within (p : Config) (s : State ι) : Action ι → Prop
  | .enqueue i => ∀ j, clash p (s.pc i) (s.pc j) = false
  | .ack _ | .mask _ => s.poll.running = false
  | _ => True

instance [Fintype ι] (p : Config) (s : State ι) (a : Action ι) : Decidable (Within p s a) :=
  match a with
  | .enqueue i => inferInstanceAs (Decidable (∀ j, clash p (s.pc i) (s.pc j) = false))
  | .ack _ | .mask _ => inferInstanceAs (Decidable (s.poll.running = false))
  | .event _ _ | .poll | .run _ | .unmask _ => isTrue trivial

end XenBus.Evtchn.Fifo
