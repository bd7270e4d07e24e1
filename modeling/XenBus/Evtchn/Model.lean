import XenBus.Status
import Mathlib.Logic.Function.Basic
import Mathlib.Data.List.Basic

/-!
# Event channels

`evtchn.c`: the channels of the bus driver, the table that finds the channel of a port, the queues of
the processors, and on the hypervisor's side the vCPU that each port is delivered to. Opening,
binding, closing, polling and flushing are one step each; what the hypervisor, the ABI and the
allocator answer are inputs.
-/

namespace XenBus.Evtchn

/-- `XENBUS_EVTCHN_TYPE`. -/
inductive EvtchnType
  | fixed
  | unbound
  | interDomain
  | virq
  deriving DecidableEq

/-- `XENBUS_EVTCHN_CHANNEL`. -/
structure Channel where
  Pending : Bool
  Active : Bool
  type : EvtchnType
  LocalPort : ℕ
  Cpu : ℕ
  Closed : Bool
  deriving DecidableEq

/-- What the driver runs on: `Context->ProcessorCount`, `Processor->UpcallEnabled`, and
`SystemProcessorVcpuId`, which may fail. -/
structure Platform where
  ProcessorCount : ℕ
  UpcallEnabled : ℕ → Bool
  vcpu_id : ℕ → Option ℕ

/-- `XENBUS_EVTCHN_CONTEXT`. `Channels` are those on `Context->List`, by their address (`next` is an
address that has not been used), `Table` has the port and the channel of an entry, oldest first, and
`Route` is what the hypervisor knows: the vCPU that an open port is delivered to. -/
structure Context where
  Channels : ℕ → Option Channel
  next : ℕ
  Table : List (ℕ × ℕ)
  PendingList : ℕ → List ℕ
  Route : ℕ → Option ℕ

namespace Context

/-- Change a channel. -/
def set (ctx : Context) (id : ℕ) (channel : Channel) : Context :=
  { ctx with Channels := Function.update ctx.Channels id (some channel) }

/-- Change what the hypervisor knows about a port. -/
def route (ctx : Context) (LocalPort : ℕ) (vcpu : Option ℕ) : Context :=
  { ctx with Route := Function.update ctx.Route LocalPort vcpu }

end Context

/-! ## The table -/

/-- `HashTableLookup`: the oldest entry of the port. -/
def hashTableLookup (Table : List (ℕ × ℕ)) (Key : ℕ) : Option ℕ :=
  (Table.find? (·.1 = Key)).map Prod.snd

/-- `HashTableRemove`: the oldest entry of the port goes. -/
def hashTableRemove (Table : List (ℕ × ℕ)) (Key : ℕ) : List (ℕ × ℕ) := Table.eraseP (·.1 = Key)

/-! ## Opening -/

/-- The arguments of `EvtchnOpen`. `Cpu` is the index of the processor that is asked for, which is
processor 0 when the caller names none. -/
inductive Arguments
  | fixed (LocalPort : ℕ)
  | unbound (RemoteDomain : ℕ)
  | interDomain (RemoteDomain RemotePort : ℕ)
  | virq (Index Cpu : ℕ)

/-- The type of the channel. -/
def Arguments.type : Arguments → EvtchnType
  | .fixed .. => .fixed
  | .unbound .. => .unbound
  | .interDomain .. => .interDomain
  | .virq .. => .virq

/-- The processor asked for. -/
def Arguments.Cpu : Arguments → ℕ
  | .virq _ Cpu => Cpu
  | _ => 0

/-- What `EvtchnOpen` gets from elsewhere: the allocation of the channel, the port that the
hypervisor opens, the ABI's `PortEnable`, and the allocation in `HashTableAdd`. -/
structure Answers where
  allocate : Bool
  port : Option ℕ
  portEnable : Bool
  tableAdd : Bool

/-- Nothing that `EvtchnOpen` asks for with these arguments fails. -/
def Answers.Succeed (answers : Answers) (args : Arguments) : Prop :=
  answers.allocate = true ∧ (args.type = .fixed ∨ answers.port ≠ none) ∧
    answers.portEnable = true ∧ answers.tableAdd = true

/-- `EvtchnOpenFixed`, `EvtchnOpenUnbound`, `EvtchnOpenInterDomain`, `EvtchnOpenVirq`: the local port
and what the hypervisor knows after it. A new port of the first two hypercalls is delivered to
vCPU 0, that of `EventChannelBindVirq` to the vCPU that the call names. -/
def openPort (p : Platform) (ctx : Context) (args : Arguments) (port : Option ℕ) :
    Option (ℕ × Context) :=
  match args with
  | .fixed LocalPort => some (LocalPort, ctx)
  | .unbound _ => port.map fun LocalPort => (LocalPort, ctx.route LocalPort (some 0))
  | .interDomain _ _ => port.map fun LocalPort => (LocalPort, ctx.route LocalPort (some 0))
  | .virq _ Cpu =>
    if !p.UpcallEnabled Cpu ∧ Cpu ≠ 0 then none
    else
      (p.vcpu_id Cpu).bind fun vcpu_id =>
        port.map fun LocalPort => (LocalPort, ctx.route LocalPort (some vcpu_id))

/-- `EvtchnOpen` once the port is known: the channel, if it has been opened, and the context after
it. `Channel->Cpu` is 0 for each type, as the memory comes zeroed and nothing sets it. -/
def openChannel (ctx : Context) (type : EvtchnType) (LocalPort : ℕ) (answers : Answers) :
    Option ℕ × Context :=
  if !answers.portEnable ∨ !answers.tableAdd then
    (none, if type ≠ .fixed then ctx.route LocalPort none else ctx)
  else
    (some ctx.next, { ctx.set ctx.next ⟨false, true, type, LocalPort, 0, false⟩ with
      next := ctx.next + 1
      Table := ctx.Table ++ [(LocalPort, ctx.next)] })

/-- `EvtchnOpen`. -/
def evtchnOpen (p : Platform) (ctx : Context) (args : Arguments) (answers : Answers) :
    Option ℕ × Context :=
  if !answers.allocate then (none, ctx)
  else
    match openPort p ctx args answers.port with
    | none => (none, ctx)
    | some (LocalPort, ctx') => openChannel ctx' args.type LocalPort answers

/-! ## Binding -/

/-- `EvtchnBind`. `bound` is the outcome of `EventChannelBindVirtualCpu`, which fails on a port that
is not open. -/
def evtchnBind (p : Platform) (ctx : Context) (id : ℕ) (channel : Channel) (Cpu : ℕ)
    (bound : Bool) : Status × Context :=
  if !p.UpcallEnabled Cpu ∧ Cpu ≠ 0 then (.notSupported, ctx)
  else if !channel.Active then (.success, ctx)
  else if channel.Cpu = Cpu then (.success, ctx)
  else
    match p.vcpu_id Cpu with
    | none => (.notSupported, ctx)
    | some vcpu_id =>
      if !bound ∨ ctx.Route channel.LocalPort = none then (.unsuccessful, ctx)
      else (.success, (ctx.route channel.LocalPort (some vcpu_id)).set id { channel with Cpu := Cpu })

/-! ## Closing -/

/-- The end of `EvtchnTrigger` and of `EvtchnPollCallback`: the channel goes to the queue of the
processor `Cpu`, unless it is pending. -/
def queue (ctx : Context) (id : ℕ) (channel : Channel) (Cpu : ℕ) : Context :=
  if channel.Pending then ctx
  else
    { ctx.set id { channel with Pending := true } with
      PendingList := Function.update ctx.PendingList Cpu (ctx.PendingList Cpu ++ [id]) }

/-- `EvtchnTrigger`. -/
def evtchnTrigger (ctx : Context) (id : ℕ) (channel : Channel) : Context :=
  queue ctx id channel channel.Cpu

/-- `EvtchnReap`. -/
def evtchnReap (ctx : Context) (id : ℕ) (channel : Channel) (Close : Bool) : Context :=
  let ctx' := { ctx with Channels := Function.update ctx.Channels id none }
  if Close ∧ channel.type ≠ .fixed then ctx'.route channel.LocalPort none else ctx'

/-- `EvtchnClose`. -/
def evtchnClose (ctx : Context) (id : ℕ) (channel : Channel) : Context :=
  if channel.Active then
    let channel' := { channel with Active := false, Closed := true }
    evtchnTrigger ({ ctx with Table := hashTableRemove ctx.Table channel.LocalPort }.set id channel')
      id channel'
  else evtchnReap ctx id { channel with Closed := true } false

/-! ## Polling -/

/-- What `EvtchnPollCallback` does with an event. -/
inductive Polled
  /-- No channel has the port. -/
  | unknown
  /-- `Channel->Cpu != Cpu`: the event is discarded. -/
  | otherCpu
  /-- The channel is on the queue of the processor. -/
  | queued (id : ℕ)
  deriving DecidableEq

/-- `EvtchnPollCallback` for the port `LocalPort`, on the processor `Cpu`. There is no result if the
channel in the table has been freed. -/
def evtchnPollCallback (ctx : Context) (Cpu LocalPort : ℕ) : Option (Polled × Context) :=
  match hashTableLookup ctx.Table LocalPort with
  | none => some (.unknown, ctx)
  | some id =>
    (ctx.Channels id).map fun channel =>
      if channel.Cpu ≠ Cpu then (.otherCpu, ctx) else (.queued id, queue ctx id channel Cpu)

/-- One channel of the queue in `EvtchnFlush`: a closed one is reaped, any other one is delivered. -/
def flushOne (ctx : Context) (id : ℕ) : Option Context :=
  (ctx.Channels id).map fun channel =>
    if channel.Closed then evtchnReap ctx id channel true
    else ctx.set id { channel with Pending := false }

/-- `EvtchnFlush`, with the loop of `EvtchnPoll` over the queue. -/
def evtchnFlush (ctx : Context) (Cpu : ℕ) : Option Context :=
  (ctx.PendingList Cpu).foldlM flushOne
    { ctx with PendingList := Function.update ctx.PendingList Cpu [] }

/-! ## The system -/

/-- A call of the interface, or an event or a DPC on a processor. -/
inductive Action
  | opened (args : Arguments) (answers : Answers)
  | bind (id Cpu : ℕ) (bound : Bool)
  | close (id : ℕ)
  | poll (Cpu LocalPort : ℕ)
  | flush (Cpu : ℕ)

/-- One step. The hypervisor opens ports that are not open, processors exist, and a client uses a
channel until it closes it. -/
def step (p : Platform) (ctx : Context) : Action → Option Context
  | .opened args answers =>
    if args.Cpu < p.ProcessorCount ∧ answers.port.all fun port => ctx.Route port = none then
      some (evtchnOpen p ctx args answers).2
    else none
  | .bind id Cpu bound =>
    (ctx.Channels id).bind fun channel =>
      if Cpu < p.ProcessorCount ∧ !channel.Closed then some (evtchnBind p ctx id channel Cpu bound).2
      else none
  | .close id =>
    (ctx.Channels id).bind fun channel =>
      if channel.Closed then none else some (evtchnClose ctx id channel)
  | .poll Cpu LocalPort => (evtchnPollCallback ctx Cpu LocalPort).map Prod.snd
  | .flush Cpu => evtchnFlush ctx Cpu

/-- Before any channel is opened. The ports that the toolstack has opened have a route. -/
def init (Route : ℕ → Option ℕ) : Context := ⟨fun _ => none, 0, [], fun _ => [], Route⟩

end XenBus.Evtchn
