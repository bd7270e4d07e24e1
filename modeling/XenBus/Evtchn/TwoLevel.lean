import XenBus.Evtchn.Model
import XenBus.Foundations.Bitmap

/-!
# The two-level ABI

The events of one active channel, from the words that the hypervisor shares with the guest to the
callback: `shared_info.c`, `evtchn_2l.c`, and `EvtchnPoll`, `EvtchnUnmask` and `EvtchnBind` of
`evtchn.c`, interleaved at every access to a shared word or to a field of the channel. The port and
`Channel->Mask` do not change, and the channel stays active.

The words of a vCPU are indexed by its processor, and so is the route of the port. The polls of a
processor, in its interrupt and in `EvtchnFlush`, hold its interrupt lock: there is one at a time. What
other channels and their events do to the words is a step that leaves the bits of the port alone.
-/

namespace XenBus.Evtchn.TwoLevel

/-- `XENBUS_SHARED_INFO_EVTCHN_PER_SELECTOR`. -/
abbrev PER_SELECTOR : ℕ := 64

/-- `XENBUS_SHARED_INFO_EVTCHN_SELECTOR_COUNT`. -/
abbrev SELECTOR_COUNT : ℕ := 64

/-- The platform, and what is fixed of the channel. -/
structure Config where
  platform : Platform
  LocalPort : ℕ
  Mask : Bool
  port_lt : LocalPort < SELECTOR_COUNT * PER_SELECTOR

/-! ## Program counters -/

/-- The local variables of `SharedInfoEvtchnPoll`. -/
structure Cursor where
  SelectorMask : BitVec PER_SELECTOR
  Port : ℕ
  PortBit : ℕ
  PortMask : BitVec PER_SELECTOR
  deriving DecidableEq

namespace Cursor

/-- `SelectorBit`. -/
def SelectorBit (c : Cursor) : ℕ := c.Port / PER_SELECTOR

/-- After the event of the port: it goes from `PortMask`, and the next one is looked at. -/
def polled (c : Cursor) : Cursor :=
  { c with PortMask := Bitmap.clearBit c.PortMask c.PortBit, PortBit := c.PortBit + 1 }

end Cursor

/-- Where the poll of a processor is. -/
inductive Poll
  | idle
  /-- `EvtchnInterruptCallback`, before the exchange of `evtchn_upcall_pending`. -/
  | upcall
  /-- `SharedInfoEvtchnPoll`, before the exchange of `evtchn_pending_sel`. -/
  | enter
  /-- The loop over the selectors: the read of a word of `evtchn_pending` comes next, if any is left. -/
  | selectors (SelectorMask : BitVec PER_SELECTOR) (Port : ℕ)
  /-- Before the read of the word of `evtchn_mask`. -/
  | word (c : Cursor)
  /-- The loop over the ports of the word. -/
  | ports (c : Cursor)
  /-- `EvtchnPollCallback` for the channel, before the read of `Channel->Cpu`. -/
  | found (c : Cursor)
  /-- Before `InterlockedBitTestAndSet`. -/
  | matched (c : Cursor)
  /-- Before `InsertTailList`. -/
  | inserting (c : Cursor)
  /-- The loop of `EvtchnPoll` over the queue. -/
  | walking
  /-- Before `RemoveEntryList`. -/
  | removing
  /-- Before `Channel->Pending = 0`. -/
  | clearing
  /-- Before `PortMask`. -/
  | masking
  /-- Before `PortAck`. -/
  | acking
  /-- Before `Channel->Count++` and `Channel->Callback`. -/
  | delivering
  deriving DecidableEq

/-- Where a thread is. `Cpu` is the processor that `EvtchnUnmask` runs on, or the one that `EvtchnBind`
binds to. -/
inductive Thread
  | idle
  /-- `EvtchnUnmask`, before `Channel->Lock`. -/
  | unmaskLock (Force : Bool) (Cpu : ℕ)
  /-- `SharedInfoEvtchnUnmask`, before the mask is cleared. -/
  | unmask (InUpcall Force : Bool) (Cpu : ℕ)
  /-- Before the test of `evtchn_pending`. -/
  | testPending (InUpcall Force : Bool) (Cpu : ℕ)
  /-- Before the read of `Channel->Cpu`. -/
  | compare (Cpu : ℕ)
  /-- Before `PortMask`, on the way to the hypercall. -/
  | remask (InUpcall : Bool)
  /-- Before `EventChannelUnmask`. -/
  | hypercall (InUpcall : Bool)
  /-- Before `PortMask`, on the way to the acknowledgement. -/
  | maskBack
  /-- Before `PortAck`. -/
  | ack
  /-- Before the release of the lock, to return `Pending`. -/
  | done (InUpcall Pending : Bool)
  /-- `EvtchnBind`, before `Channel->Lock`. -/
  | bindLock (Cpu : ℕ)
  /-- Before `EventChannelBindVirtualCpu`. -/
  | bindCall (Cpu : ℕ)
  /-- Before `Channel->Cpu = Cpu`. -/
  | bindStore (Cpu : ℕ)
  deriving DecidableEq

/-! ## States -/

/-- The shared words, the hypervisor's route of the port, the fields of the channel and of the
processors, and where everyone is. -/
structure State (ι : Type) where
  evtchn_pending : ℕ → BitVec PER_SELECTOR
  evtchn_mask : ℕ → BitVec PER_SELECTOR
  evtchn_pending_sel : ℕ → BitVec PER_SELECTOR
  evtchn_upcall_pending : ℕ → Bool
  Route : ℕ
  /-- `Channel->Cpu`. -/
  Cpu : ℕ
  /-- `Channel->Pending`. -/
  Pending : Bool
  /-- `Channel->Count`. -/
  Count : ℕ
  /-- Whether the channel is on the `PendingList` of the processor. -/
  queued : ℕ → Bool
  /-- Who holds `Channel->Lock`. -/
  ChannelLock : Option ι
  /-- `Processor->Port`. -/
  Port : ℕ → ℕ
  /-- Whether the poll is that of `EvtchnInterruptCallback`. -/
  InInterrupt : ℕ → Bool
  poll : ℕ → Poll
  thread : ι → Thread

variable {ι : Type} [DecidableEq ι]

namespace State

/-- The poll of the processor goes on to `pc`. -/
def poller (s : State ι) (Cpu : ℕ) (pc : Poll) : State ι :=
  { s with poll := Function.update s.poll Cpu pc }

/-- The thread goes on to `pc`. -/
def goto (s : State ι) (t : ι) (pc : Thread) : State ι :=
  { s with thread := Function.update s.thread t pc }

end State

/-! ## The hypervisor -/

/-- The selector bit of a port and `evtchn_upcall_pending` of a vCPU are set. -/
def raise (s : State ι) (Cpu Port : ℕ) : State ι :=
  { s with
    evtchn_pending_sel := Function.update s.evtchn_pending_sel Cpu
      (Bitmap.setBit (s.evtchn_pending_sel Cpu) (Port / PER_SELECTOR))
    evtchn_upcall_pending := Function.update s.evtchn_upcall_pending Cpu true }

/-- An event is sent to the port. -/
def send (s : State ι) (Port : ℕ) : State ι :=
  if Bitmap.get s.evtchn_pending Port then s
  else
    let s' := { s with evtchn_pending := Bitmap.set s.evtchn_pending Port }
    if Bitmap.get s.evtchn_mask Port then s' else raise s' s.Route Port

/-- `EventChannelUnmask`. -/
def eventChannelUnmask (s : State ι) (Port : ℕ) : State ι :=
  let s' := { s with evtchn_mask := Bitmap.clear s.evtchn_mask Port }
  if Bitmap.get s.evtchn_pending Port then raise s' s.Route Port else s'

/-! ## EvtchnPoll -/

/-- The next value of `Port` in the loop of `SharedInfoEvtchnPoll` over the selectors. -/
def nextPort (Port : ℕ) : ℕ :=
  let Port' := (Port / PER_SELECTOR + 1) * PER_SELECTOR
  if Port' ≥ SELECTOR_COUNT * PER_SELECTOR then 0 else Port'

/-- One access of the poll of a processor. -/
def pollStep (k : Config) (s : State ι) (Cpu : ℕ) : Poll → Option (State ι)
  | .idle => none
  -- EvtchnInterruptCallback
  | .upcall =>
    if k.platform.vcpu_id Cpu ≠ none ∧ s.evtchn_upcall_pending Cpu then
      some ({ s with evtchn_upcall_pending := Function.update s.evtchn_upcall_pending Cpu false }.poller
        Cpu .enter)
    else some (s.poller Cpu .idle)
  -- SharedInfoEvtchnPoll
  | .enter =>
    if k.platform.vcpu_id Cpu = none then some (s.poller Cpu .walking)
    else
      some ({ s with evtchn_pending_sel := Function.update s.evtchn_pending_sel Cpu 0 }.poller Cpu
        (.selectors (s.evtchn_pending_sel Cpu) (s.Port Cpu)))
  | .selectors SelectorMask Port =>
    if SelectorMask = 0 then
      some ({ s with Port := Function.update s.Port Cpu Port }.poller Cpu .walking)
    else if SelectorMask.getLsbD (Port / PER_SELECTOR) then
      some (s.poller Cpu (.word ⟨SelectorMask, Port, Port % PER_SELECTOR,
        s.evtchn_pending (Port / PER_SELECTOR)⟩))
    else some (s.poller Cpu (.selectors SelectorMask (nextPort Port)))
  | .word c =>
    some (s.poller Cpu
      (.ports { c with PortMask := c.PortMask &&& ~~~s.evtchn_mask c.SelectorBit }))
  | .ports c =>
    if c.PortMask ≠ 0 ∧ c.PortBit < PER_SELECTOR then
      if c.PortMask.getLsbD c.PortBit then
        if c.SelectorBit * PER_SELECTOR + c.PortBit = k.LocalPort then some (s.poller Cpu (.found c))
        else some (s.poller Cpu (.ports c.polled))
      else some (s.poller Cpu (.ports { c with PortBit := c.PortBit + 1 }))
    else
      some (s.poller Cpu (.selectors
        (if c.PortMask = 0 then Bitmap.clearBit c.SelectorMask c.SelectorBit else c.SelectorMask)
        (nextPort c.Port)))
  -- EvtchnPollCallback
  | .found c =>
    if s.Cpu ≠ Cpu then some (s.poller Cpu (.ports c.polled)) else some (s.poller Cpu (.matched c))
  | .matched c =>
    if s.Pending then some (s.poller Cpu (.ports c.polled))
    else some ({ s with Pending := true }.poller Cpu (.inserting c))
  | .inserting c =>
    some ({ s with queued := Function.update s.queued Cpu true }.poller Cpu (.ports c.polled))
  -- the loop of EvtchnPoll
  | .walking =>
    if s.queued Cpu then some (s.poller Cpu .removing)
    else some (s.poller Cpu (if s.InInterrupt Cpu then .upcall else .idle))
  | .removing =>
    some ({ s with queued := Function.update s.queued Cpu false }.poller Cpu .clearing)
  | .clearing =>
    some ({ s with Pending := false }.poller Cpu (if k.Mask then .masking else .acking))
  | .masking =>
    some ({ s with evtchn_mask := Bitmap.set s.evtchn_mask k.LocalPort }.poller Cpu .acking)
  | .acking =>
    some ({ s with evtchn_pending := Bitmap.clear s.evtchn_pending k.LocalPort }.poller Cpu .delivering)
  | .delivering => some ({ s with Count := s.Count + 1 }.poller Cpu .walking)

/-! ## EvtchnUnmask and EvtchnBind -/

/-- One access of a thread. `bound` is the outcome of `EventChannelBindVirtualCpu`. -/
def threadStep (k : Config) (s : State ι) (t : ι) (bound : Bool) : Thread → Option (State ι)
  | .idle => none
  -- EvtchnUnmask
  | .unmaskLock Force Cpu =>
    if s.ChannelLock = none then
      some ({ s with ChannelLock := some t }.goto t (.unmask false Force Cpu))
    else none
  | .unmask InUpcall Force Cpu =>
    some ({ s with evtchn_mask := Bitmap.clear s.evtchn_mask k.LocalPort }.goto t
      (.testPending InUpcall Force Cpu))
  | .testPending InUpcall Force Cpu =>
    if !Bitmap.get s.evtchn_pending k.LocalPort then some (s.goto t (.done InUpcall false))
    else if InUpcall || Force then some (s.goto t (.remask InUpcall))
    else some (s.goto t (.compare Cpu))
  | .compare Cpu =>
    if s.Cpu ≠ Cpu then some (s.goto t (.remask false))
    else some (s.goto t (if k.Mask then .maskBack else .ack))
  | .remask InUpcall =>
    some ({ s with evtchn_mask := Bitmap.set s.evtchn_mask k.LocalPort }.goto t (.hypercall InUpcall))
  | .hypercall InUpcall => some ((eventChannelUnmask s k.LocalPort).goto t (.done InUpcall false))
  | .maskBack =>
    some ({ s with evtchn_mask := Bitmap.set s.evtchn_mask k.LocalPort }.goto t .ack)
  | .ack =>
    some ({ s with evtchn_pending := Bitmap.clear s.evtchn_pending k.LocalPort }.goto t
      (.done false true))
  | .done InUpcall _ =>
    some ((if InUpcall then s else { s with ChannelLock := none }).goto t .idle)
  -- EvtchnBind
  | .bindLock Cpu =>
    if !k.platform.UpcallEnabled Cpu ∧ Cpu ≠ 0 then some (s.goto t .idle)
    else if s.ChannelLock ≠ none then none
    else if s.Cpu = Cpu then some (s.goto t .idle)
    else some ({ s with ChannelLock := some t }.goto t (.bindCall Cpu))
  | .bindCall Cpu =>
    if k.platform.vcpu_id Cpu ≠ none ∧ bound then
      some ({ s with Route := Cpu }.goto t (.bindStore Cpu))
    else some ({ s with ChannelLock := none }.goto t .idle)
  | .bindStore Cpu => some ({ s with Cpu := Cpu, ChannelLock := none }.goto t .idle)

/-! ## The system -/

/-- A step of the system. -/
inductive Action (ι : Type)
  /-- An event is sent to the port. -/
  | send
  /-- Another port: its bits change, and a vCPU may be raised for it. -/
  | other (Port : ℕ) (Pending Mask : Bool) (raised : Option ℕ)
  /-- The hypervisor interrupts a processor. -/
  | interrupt (Cpu : ℕ)
  /-- A processor comes to `EvtchnFlush`. -/
  | flush (Cpu : ℕ)
  /-- The poll of a processor makes its next access. -/
  | poll (Cpu : ℕ)
  /-- A thread calls `EvtchnUnmask` on a processor. -/
  | unmask (t : ι) (InUpcall Force : Bool) (Cpu : ℕ)
  /-- A thread calls `EvtchnBind`. -/
  | bind (t : ι) (Cpu : ℕ)
  /-- A thread makes its next access. -/
  | run (t : ι) (bound : Bool)

/-- Another port's bits change. -/
def other (s : State ι) (Port : ℕ) (Pending Mask : Bool) (raised : Option ℕ) : State ι :=
  let s' := { s with
    evtchn_pending := Bitmap.put s.evtchn_pending Port Pending
    evtchn_mask := Bitmap.put s.evtchn_mask Port Mask }
  match raised with
  | none => s'
  | some Cpu => raise s' Cpu Port

/-- One step. -/
def step (k : Config) (s : State ι) : Action ι → Option (State ι)
  | .send => some (send s k.LocalPort)
  | .other Port Pending Mask raised =>
    if Port = k.LocalPort then none else some (other s Port Pending Mask raised)
  | .interrupt Cpu =>
    if s.poll Cpu = .idle then
      some ({ s with InInterrupt := Function.update s.InInterrupt Cpu true }.poller Cpu .upcall)
    else none
  | .flush Cpu =>
    if s.poll Cpu = .idle then
      some ({ s with InInterrupt := Function.update s.InInterrupt Cpu false }.poller Cpu .enter)
    else none
  | .poll Cpu => pollStep k s Cpu (s.poll Cpu)
  | .unmask t InUpcall Force Cpu =>
    if s.thread t = .idle then
      some (s.goto t (if InUpcall then .unmask true Force Cpu else .unmaskLock Force Cpu))
    else none
  | .bind t Cpu => if s.thread t = .idle then some (s.goto t (.bindLock Cpu)) else none
  | .run t bound => threadStep k s t bound (s.thread t)

/-- A channel that has been opened, with nothing under way: its port is masked, and delivered to the
processor that it records. -/
structure Opened (k : Config) (s : State ι) : Prop where
  masked : Bitmap.get s.evtchn_mask k.LocalPort = true
  route : s.Route = s.Cpu
  Pending : s.Pending = false
  queued : ∀ Cpu, s.queued Cpu = false
  lock : s.ChannelLock = none
  poll : ∀ Cpu, s.poll Cpu = .idle
  thread : ∀ t, s.thread t = .idle

end XenBus.Evtchn.TwoLevel
