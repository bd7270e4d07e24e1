import XenBus.Evtchn.Model
import Mathlib.Data.Fintype.Basic

/-!
# The queues of pending channels, access by access

`evtchn.c` again, now with the interrupts, the DPCs, the calls and a suspend interleaved at every
access to the fields that they share: `Channel->Pending`, `Active`, `Closed` and `Cpu`, the table and
the queues of the processors. An agent is an interrupt, a DPC, a thread or the late suspend callback;
its program counter says which access comes next and keeps what the function has in local variables.

A channel that is not allocated any more has no fields: the access of an agent that still uses it is
undefined, and the step has no result. The interface has been acquired: `Context->References` is not 0,
and `UpcallEnabled` stays as it was set then.
-/

namespace XenBus.Evtchn.Concurrent

/-- `Context->Interrupt`, and `Processor->Interrupt` of the processors. -/
inductive Interrupt
  | line
  | processor (Cpu : ℕ)
  deriving DecidableEq

/-- Whose lock guards the queue of the processor: the choice that `EvtchnFlush` and `EvtchnTrigger`
make, and the interrupt that the hypervisor raises for it. -/
def interrupt (p : Platform) (Cpu : ℕ) : Interrupt :=
  if p.UpcallEnabled Cpu then .processor Cpu else .line

/-- Who takes a step. -/
inductive Agent (ι : Type)
  /-- `EvtchnInterruptCallback`, for a processor. -/
  | interrupt (Cpu : ℕ)
  /-- `EvtchnDpc`, for a processor. -/
  | dpc (Cpu : ℕ)
  /-- A thread that calls the interface. -/
  | thread (t : ι)
  /-- `EvtchnSuspendCallbackLate`. -/
  | late
  deriving DecidableEq

/-- Where `EvtchnPoll` is. -/
inductive Poll
  /-- In the ABI's `Poll`, before the next port. -/
  | ports
  /-- The callback has found the channel in the table. -/
  | found (id : ℕ)
  /-- `Channel->Cpu` is the processor: `InterlockedBitTestAndSet` comes next. -/
  | matched (id : ℕ)
  /-- `Pending` was clear: `InsertTailList` comes next. -/
  | inserting (id : ℕ)
  /-- In the loop over the queue, with these entries ahead. -/
  | walking (rest : List ℕ)
  /-- The channel is not closed: `RemoveEntryList` comes next. -/
  | removing (id : ℕ) (rest : List ℕ)
  /-- `Channel->Pending = 0` comes next. -/
  | clearing (id : ℕ) (rest : List ℕ)
  /-- The mask, the ack and the callback of the channel come next. -/
  | delivering (id : ℕ) (rest : List ℕ)
  deriving DecidableEq

/-- Who calls `EvtchnTrigger`: a client, at any IRQL up to `DISPATCH_LEVEL`, or `EvtchnClose`, which
has raised it. -/
inductive Caller
  | client
  | close
  deriving DecidableEq

/-- Where an agent is. `flush` is the `List` of `EvtchnPoll`, which the interrupt does not pass. -/
inductive Pc
  | idle
  | polling (Cpu : ℕ) (lock : Interrupt) (flush : Option (List ℕ)) (poll : Poll)
  /-- Not in `EvtchnPoll` any more, or not yet, with the lock: the interrupt tests `UpcallPending`. -/
  | polled (Cpu : ℕ) (lock : Interrupt) (flush : Option (List ℕ))
  /-- `EvtchnDpc`, before `Context->Lock`. -/
  | dpcLock (Cpu : ℕ)
  /-- `EvtchnFlush`, before the interrupt lock. -/
  | flushLock (Cpu : ℕ)
  /-- The loop of `EvtchnFlush` over its list. -/
  | flushing (Cpu : ℕ) (List : List ℕ)
  /-- The channel is off the list: `Channel->Pending = 0` comes next. -/
  | taken (Cpu : ℕ) (id : ℕ) (List : List ℕ)
  /-- `EvtchnReap` comes next. -/
  | reaping (Cpu : ℕ) (id : ℕ) (List : List ℕ)
  /-- `EvtchnTrigger`, before `Cpu = Channel->Cpu` under `Channel->Lock`. -/
  | triggerRead (caller : Caller) (id : ℕ)
  /-- Before the interrupt lock. -/
  | triggerLock (caller : Caller) (id Cpu : ℕ)
  /-- Before `InterlockedBitTestAndSet`. -/
  | triggerSet (caller : Caller) (id Cpu : ℕ)
  /-- Before `InsertTailList`. -/
  | triggerInsert (caller : Caller) (id Cpu : ℕ)
  /-- Before the release of the interrupt lock. -/
  | triggerRelease (caller : Caller) (Cpu : ℕ) (Queued : Bool)
  /-- Before `KeInsertQueueDpc`. -/
  | triggerDpc (caller : Caller) (Cpu : ℕ)
  /-- `EvtchnClose`, before `if (Channel->Active)`. -/
  | closeTest (id : ℕ)
  /-- The channel was active: before `HashTableRemove`. -/
  | closeTable (id : ℕ)
  /-- Before `Channel->Closed = TRUE`. -/
  | closeMark (id : ℕ)
  /-- The channel was not active: before `Context->Lock`. -/
  | closeLock (id : ℕ)
  /-- Before `EvtchnReap`, with the lock. -/
  | closeReap (id : ℕ)
  /-- `EvtchnBind`, before `Channel->Lock`. -/
  | bindLock (id Cpu : ℕ)
  /-- Before `EventChannelBindVirtualCpu`. -/
  | bindCall (id Cpu : ℕ)
  /-- Before `Channel->Cpu = Cpu`. -/
  | bindStore (id Cpu : ℕ)
  deriving DecidableEq

/-- The state of the driver. -/
structure State (ι : Type) where
  /-- The channels, the table and the queues. -/
  ctx : Context
  /-- The DPCs that are queued. -/
  Dpc : ℕ → Bool
  /-- Who holds an interrupt lock. -/
  InterruptLock : Interrupt → Option (Agent ι)
  /-- Whether `Context->Lock` is held. -/
  Lock : Bool
  /-- Whether `Channel->Lock` is held. -/
  ChannelLock : ℕ → Bool
  /-- The channels that the client has called `EvtchnClose` on. -/
  Closing : ℕ → Bool
  /-- Whether the processors are captured for a suspend. -/
  captured : Bool
  /-- The polls that the late callback has still to make, and under which lock. -/
  polls : List (ℕ × Interrupt)
  pc : Agent ι → Pc

variable {ι : Type} [DecidableEq ι]

namespace State

/-- The agent goes on to `pc`. -/
def goto (s : State ι) (a : Agent ι) (pc : Pc) : State ι :=
  { s with pc := Function.update s.pc a pc }

/-- Change what the agents share. -/
def put (s : State ι) (ctx : Context) : State ι := { s with ctx := ctx }

/-- Take an interrupt lock. -/
def acquire (s : State ι) (lock : Interrupt) (a : Agent ι) : Option (State ι) :=
  if s.InterruptLock lock = none then
    some { s with InterruptLock := Function.update s.InterruptLock lock (some a) }
  else none

/-- Release an interrupt lock. -/
def release (s : State ι) (lock : Interrupt) : State ι :=
  { s with InterruptLock := Function.update s.InterruptLock lock none }

end State

/-- `InsertTailList(&Processor->PendingList, &Channel->PendingListEntry)`. -/
def insertTail (ctx : Context) (Cpu id : ℕ) : Context :=
  { ctx with PendingList := Function.update ctx.PendingList Cpu (ctx.PendingList Cpu ++ [id]) }

/-- `RemoveEntryList(&Channel->PendingListEntry)`. -/
def removeEntry (ctx : Context) (Cpu id : ℕ) : Context :=
  { ctx with PendingList := Function.update ctx.PendingList Cpu ((ctx.PendingList Cpu).erase id) }

/-! ## EvtchnPoll -/

/-- One access of `EvtchnPoll`. `port` is the next port of the ABI's `Poll`, if there is one. An entry
that another poll of the processor has removed in the meantime is not met. -/
def pollStep (ctx : Context) (Cpu : ℕ) (lock : Interrupt) (flush : Option (List ℕ))
    (port : Option ℕ) : Poll → Option (Context × Pc)
  | .ports =>
    match port with
    | none => some (ctx, .polling Cpu lock flush (.walking (ctx.PendingList Cpu)))
    | some LocalPort =>
      match hashTableLookup ctx.Table LocalPort with
      | none => some (ctx, .polling Cpu lock flush .ports)
      | some id => some (ctx, .polling Cpu lock flush (.found id))
  | .found id =>
    (ctx.Channels id).map fun channel =>
      (ctx, .polling Cpu lock flush (if channel.Cpu ≠ Cpu then .ports else .matched id))
  | .matched id =>
    (ctx.Channels id).map fun channel =>
      if channel.Pending then (ctx, .polling Cpu lock flush .ports)
      else (ctx.set id { channel with Pending := true }, .polling Cpu lock flush (.inserting id))
  | .inserting id =>
    (ctx.Channels id).map fun _ => (insertTail ctx Cpu id, .polling Cpu lock flush .ports)
  | .walking [] => some (ctx, .polled Cpu lock flush)
  | .walking (id :: rest) =>
    if id ∉ ctx.PendingList Cpu then some (ctx, .polling Cpu lock flush (.walking rest))
    else
      (ctx.Channels id).map fun channel =>
        if !channel.Closed then (ctx, .polling Cpu lock flush (.removing id rest))
        else
          match flush with
          | none => (ctx, .polling Cpu lock flush (.walking rest))
          | some List =>
            (removeEntry ctx Cpu id, .polling Cpu lock (some (List ++ [id])) (.walking rest))
  | .removing id rest =>
    (ctx.Channels id).bind fun _ =>
      if id ∈ ctx.PendingList Cpu then
        some (removeEntry ctx Cpu id, .polling Cpu lock flush (.clearing id rest))
      else none
  | .clearing id rest =>
    (ctx.Channels id).map fun channel =>
      (ctx.set id { channel with Pending := false }, .polling Cpu lock flush (.delivering id rest))
  | .delivering id rest =>
    (ctx.Channels id).map fun _ => (ctx, .polling Cpu lock flush (.walking rest))

/-! ## The agents -/

/-- The next access of an agent. `choice` is the next port of a poll, whether `UpcallPending` is set,
and the success of a hypercall. -/
def runStep (p : Platform) (s : State ι) (a : Agent ι) (choice : Option ℕ) : Pc → Option (State ι)
  | .idle => none
  | .polling Cpu lock flush poll =>
    (pollStep s.ctx Cpu lock flush choice poll).map fun r => (s.put r.1).goto a r.2
  -- `EvtchnInterruptCallback` polls while `UpcallPending` is set
  | .polled Cpu lock none =>
    match choice with
    | some _ => some (s.goto a (.polling Cpu lock none .ports))
    | none => some ((s.release lock).goto a .idle)
  -- EvtchnDpc, EvtchnFlush
  | .polled Cpu lock (some List) => some ((s.release lock).goto a (.flushing Cpu List))
  | .dpcLock Cpu => if s.Lock then none else some ({ s with Lock := true }.goto a (.flushLock Cpu))
  | .flushLock Cpu =>
    (s.acquire (interrupt p Cpu) a).map fun s =>
      s.goto a (.polling Cpu (interrupt p Cpu) (some []) .ports)
  | .flushing _ [] => some ({ s with Lock := false }.goto a .idle)
  | .flushing Cpu (id :: List) => some (s.goto a (.taken Cpu id List))
  | .taken Cpu id List =>
    (s.ctx.Channels id).map fun channel =>
      (s.put (s.ctx.set id { channel with Pending := false })).goto a (.reaping Cpu id List)
  | .reaping Cpu id List =>
    (s.ctx.Channels id).map fun channel =>
      (s.put (evtchnReap s.ctx id channel true)).goto a (.flushing Cpu List)
  -- EvtchnTrigger
  | .triggerRead caller id =>
    if s.ChannelLock id then none
    else (s.ctx.Channels id).map fun channel => s.goto a (.triggerLock caller id channel.Cpu)
  | .triggerLock caller id Cpu =>
    (s.acquire (interrupt p Cpu) a).map fun s => s.goto a (.triggerSet caller id Cpu)
  | .triggerSet caller id Cpu =>
    (s.ctx.Channels id).map fun channel =>
      if channel.Pending then s.goto a (.triggerRelease caller Cpu false)
      else
        (s.put (s.ctx.set id { channel with Pending := true })).goto a (.triggerInsert caller id Cpu)
  | .triggerInsert caller id Cpu =>
    (s.ctx.Channels id).map fun _ =>
      (s.put (insertTail s.ctx Cpu id)).goto a (.triggerRelease caller Cpu true)
  | .triggerRelease caller Cpu Queued =>
    some ((s.release (interrupt p Cpu)).goto a (if Queued then .triggerDpc caller Cpu else .idle))
  | .triggerDpc _ Cpu => some ({ s with Dpc := Function.update s.Dpc Cpu true }.goto a .idle)
  -- EvtchnClose
  | .closeTest id =>
    (s.ctx.Channels id).map fun channel =>
      if channel.Active then
        (s.put (s.ctx.set id { channel with Active := false })).goto a (.closeTable id)
      else s.goto a (.closeLock id)
  | .closeTable id =>
    (s.ctx.Channels id).map fun channel =>
      (s.put { s.ctx with Table := hashTableRemove s.ctx.Table channel.LocalPort }).goto a
        (.closeMark id)
  | .closeMark id =>
    (s.ctx.Channels id).map fun channel =>
      (s.put (s.ctx.set id { channel with Closed := true })).goto a (.triggerRead .close id)
  | .closeLock id => if s.Lock then none else some ({ s with Lock := true }.goto a (.closeReap id))
  | .closeReap id =>
    (s.ctx.Channels id).map fun channel =>
      ({ s with Lock := false }.put
        (evtchnReap s.ctx id { channel with Closed := true } false)).goto a .idle
  -- EvtchnBind
  | .bindLock id Cpu =>
    if !p.UpcallEnabled Cpu ∧ Cpu ≠ 0 then some (s.goto a .idle)
    else if s.ChannelLock id then none
    else
      (s.ctx.Channels id).map fun channel =>
        if !channel.Active ∨ channel.Cpu = Cpu then s.goto a .idle
        else
          { s with ChannelLock := Function.update s.ChannelLock id true }.goto a (.bindCall id Cpu)
  | .bindCall id Cpu =>
    (s.ctx.Channels id).map fun channel =>
      match p.vcpu_id Cpu, choice with
      | some vcpu_id, some _ =>
        (s.put (s.ctx.route channel.LocalPort (some vcpu_id))).goto a (.bindStore id Cpu)
      | _, _ => { s with ChannelLock := Function.update s.ChannelLock id false }.goto a .idle
  | .bindStore id Cpu =>
    (s.ctx.Channels id).map fun channel =>
      ({ s with ChannelLock := Function.update s.ChannelLock id false }.put
        (s.ctx.set id { channel with Cpu := Cpu })).goto a .idle

/-! ## Suspending -/

/-- A thread that a suspend can interrupt: its IRQL may be below `DISPATCH_LEVEL`. -/
def Pc.belowDispatch : Pc → Bool
  | .idle | .triggerRead .client _ | .triggerLock .client _ _ | .triggerDpc .client _
  | .bindLock _ _ => true
  | _ => false

/-- The early callback at one channel of `Context->List`. -/
def suspendOne (ctx : Context) (id : ℕ) : Context :=
  match ctx.Channels id with
  | none => ctx
  | some channel =>
    if channel.Active then
      { ctx.set id { channel with Active := false } with
        Table := hashTableRemove ctx.Table channel.LocalPort }
    else ctx

/-- `EvtchnSuspendCallbackEarly`: the channels of the list, oldest first. -/
def suspendEarly (ctx : Context) : Context := (List.range ctx.next).foldl suspendOne ctx

/-- The polls of `EvtchnInterruptEnable`, in `EvtchnSuspendCallbackLate`: those of the processors that
have an interrupt of their own, and that of processor 0 under the lock of the line. -/
def latePolls (p : Platform) : List (ℕ × Interrupt) :=
  ((List.range p.ProcessorCount).filter p.UpcallEnabled).map (fun Cpu => (Cpu, .processor Cpu)) ++
    [(0, .line)]

/-! ## The system -/

/-- A call of the interface. -/
inductive Call
  | trigger
  | close
  | bind (Cpu : ℕ)
  deriving DecidableEq

/-- A step of the system. -/
inductive Action (ι : Type)
  /-- `EvtchnOpen`. -/
  | opened (args : Arguments) (answers : Answers)
  /-- A thread makes a call. -/
  | call (t : ι) (id : ℕ) (call : Call)
  /-- The hypervisor interrupts a processor. -/
  | upcall (Cpu : ℕ)
  /-- A processor takes its DPC from the queue. -/
  | dispatch (Cpu : ℕ)
  /-- An agent makes its next access. -/
  | run (a : Agent ι) (choice : Option ℕ)
  /-- The processors are captured, and the early callback runs. -/
  | early
  /-- The late callback starts its next poll, or has made them all. -/
  | late

/-- Whether the agent is captured: interrupts and the callback still run. -/
def Agent.held : Agent ι → Bool
  | .dpc _ | .thread _ => true
  | _ => false

/-- No processor is in an interrupt, and no processor is at `DISPATCH_LEVEL`. -/
def State.Passive [Fintype ι] (p : Platform) (s : State ι) : Prop :=
  (∀ Cpu < p.ProcessorCount, s.pc (.interrupt Cpu) = .idle ∧ s.pc (.dpc Cpu) = .idle) ∧
    ∀ t, (s.pc (.thread t)).belowDispatch

instance [Fintype ι] (p : Platform) (s : State ι) : Decidable (s.Passive p) :=
  inferInstanceAs (Decidable (_ ∧ _))

/-- One step. A port is used by one channel at a time, processors exist, and a client makes no further
call on a channel after `EvtchnClose`. -/
def step [Fintype ι] (p : Platform) (s : State ι) : Action ι → Option (State ι)
  | .opened args answers =>
    if !s.captured ∧ args.Cpu < p.ProcessorCount ∧
        (openPort p s.ctx args answers.port).all fun r => hashTableLookup s.ctx.Table r.1 = none then
      some (s.put (evtchnOpen p s.ctx args answers).2)
    else none
  | .call t id call =>
    if !s.captured ∧ s.pc (.thread t) = .idle ∧ s.ctx.Channels id ≠ none ∧ !s.Closing id then
      match call with
      | .trigger => some (s.goto (.thread t) (.triggerRead .client id))
      | .close =>
        some ({ s with Closing := Function.update s.Closing id true }.goto (.thread t) (.closeTest id))
      | .bind Cpu =>
        if Cpu < p.ProcessorCount then some (s.goto (.thread t) (.bindLock id Cpu)) else none
    else none
  | .upcall Cpu =>
    if Cpu < p.ProcessorCount ∧ s.pc (.interrupt Cpu) = .idle then
      (s.acquire (interrupt p Cpu) (.interrupt Cpu)).map fun s =>
        s.goto (.interrupt Cpu) (.polled Cpu (interrupt p Cpu) none)
    else none
  | .dispatch Cpu =>
    if !s.captured ∧ s.Dpc Cpu ∧ Cpu < p.ProcessorCount ∧ s.pc (.dpc Cpu) = .idle then
      some ({ s with Dpc := Function.update s.Dpc Cpu false }.goto (.dpc Cpu) (.dpcLock Cpu))
    else none
  | .run a choice =>
    if s.captured ∧ a.held then none else runStep p s a choice (s.pc a)
  | .early =>
    if !s.captured ∧ s.Passive p then
      some { s with ctx := suspendEarly s.ctx, captured := true, polls := latePolls p }
    else none
  | .late =>
    if s.captured ∧ s.pc .late = .idle then
      match s.polls with
      | [] => some { s with captured := false }
      | (Cpu, lock) :: polls =>
        (State.acquire { s with polls := polls } lock .late).map fun s =>
          s.goto .late (.polled Cpu lock none)
    else none

/-- Before any channel is opened. -/
def init (Route : ℕ → Option ℕ) : State ι where
  ctx := Evtchn.init Route
  Dpc _ := false
  InterruptLock _ := none
  Lock := false
  ChannelLock _ := false
  Closing _ := false
  captured := false
  polls := []
  pc _ := .idle

end XenBus.Evtchn.Concurrent
