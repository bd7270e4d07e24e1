import Mathlib.Data.List.Basic
import Mathlib.Logic.Function.Basic
import XenBus.Status
import XenBus.Foundations.Unwind

/-!
# Acquiring and releasing the interfaces

`debug.c`, `suspend.c`, `range_set.c`, `cache.c`, `shared_info.c`, `evtchn_2l.c`, `evtchn_fifo.c`,
`evtchn.c`, `gnttab.c`, `store.c` and `console.c`: each interface counts its references. The first one
acquires the interfaces it uses, registers its callbacks and allocates what it needs; the last one gives all
of that back. Each `Acquire` is the list of its steps with the labels it unwinds through; each `Release` is
a list of its own, as in the source.

A step that the source asserts (`SharedInfoMap`, `StoreEnable`, `EvtchnOpen`) is taken to succeed. What is
read after a failure only by a later `Acquire` that writes it first (`Context->Address`, `DebugCallback`,
the contents of a `Processor` array that is freed) is left out.
-/

namespace XenBus.Interfaces

open Unwind

/-! ## What a call runs against -/

/-- The interfaces whose count is in the ledger. The FIFO ABI counts its own. -/
inductive Interface
  | debug | suspend | rangeSet | cache | sharedInfo | twoLevel | gnttab | evtchn | store | console
  deriving DecidableEq, Repr

/-- The callback lists: `EarlyList` and `LateList` of the suspend context, `CallbackList` of the debug
context. -/
inductive Queue
  | early | late | debug
  deriving DecidableEq, Repr

/-- What a step can be refused. -/
inductive Point
  /-- `KeRegisterBugCheckCallback`. -/
  | bugCheckCallback
  /-- The allocation in `SuspendRegister` or `DebugRegister`. -/
  | register (q : Queue) (i : Interface)
  /-- `FdoHoleAllocate`. -/
  | hole (i : Interface)
  /-- The allocation of an array. -/
  | allocate (i : Interface)
  /-- `GrantTableQuerySize`. -/
  | querySize
  /-- `XENBUS_RANGE_SET(Create, …)`. -/
  | rangeSetCreate
  /-- `MemoryAddToPhysmap`. -/
  | addToPhysmap
  /-- `XENBUS_RANGE_SET(Put, …)`. -/
  | rangeSetPut
  /-- `__AllocatePage` for a control block. -/
  | allocatePage (cpu : ℕ)
  /-- `EventChannelInitControl`. -/
  | initControl (cpu : ℕ)
  /-- `FdoAllocateInterrupt` for one processor. -/
  | processorInterrupt (cpu : ℕ)
  /-- `FdoAllocateInterrupt` for the line interrupt. -/
  | interrupt
  /-- `MmMapIoSpace`. -/
  | mapIoSpace (i : Interface)
  /-- `HvmGetParam` in `ConsoleEnable`. -/
  | consoleParam
  deriving DecidableEq, Repr

/-- `SYSTEM_PROCESSOR`. -/
structure SystemProcessor where
  /-- It has been started. -/
  Initialized : Bool
  /-- The id of its VCPU. -/
  ProcessorID : ℕ
  /-- `Registered` is not `NULL`. -/
  Registered : Bool

/-- `HVM_MAX_VCPUS`. -/
def hvmMaxVcpus : ℕ := 128

/-- `ARRAYSIZE(Shared->vcpu_info)`, that is `XEN_LEGACY_MAX_VCPUS`. -/
def vcpuInfoCount : ℕ := 32

/-- `XENBUS_GNTTAB_ENTRY_PER_FRAME`. -/
def gnttabEntryPerFrame : ℤ := 512

/-- What `HvmSetEvtchnUpcallVector` answers. -/
inductive VectorStatus
  | success | notImplemented | refused
  deriving DecidableEq, Repr

/-- The machine and the settings a call runs with, and what it is refused. The VCPU ids are the platform's:
no two processors share one. -/
structure Env where
  /-- The processors of the system context. -/
  Processor : List SystemProcessor
  /-- `KeQueryMaximumProcessorCountEx`. -/
  ProcessorCount : ℕ
  /-- Answers of `HvmSetEvtchnUpcallVector`. -/
  upcallVector : ℕ → VectorStatus
  /-- The maximum that `GrantTableQuerySize` returns. -/
  MaximumFrameCount : ℕ
  /-- `UseEvtchnFifoAbi`. -/
  UseEvtchnFifoAbi : Bool
  /-- `UseEvtchnUpcall`. -/
  UseEvtchnUpcall : Bool
  /-- What is refused. -/
  fails : Point → Bool
  /-- VCPU ids are distinct. -/
  distinct : ∀ (i j : ℕ) (p q : SystemProcessor), Processor[i]? = some p →
    Processor[j]? = some q → p.Initialized = true → q.Initialized = true →
    p.ProcessorID = q.ProcessorID → i = j
  /-- VCPU ids are in range. -/
  inRange : ∀ p ∈ Processor, p.Initialized = true → p.ProcessorID < hvmMaxVcpus

/-- `SystemProcessorVcpuId`. -/
def Env.processorVcpuId (env : Env) (cpu : ℕ) : Except Status ℕ :=
  match env.Processor[cpu]? with
  | none => .error .unsuccessful
  | some p => if p.Initialized then .ok p.ProcessorID else .error .notSupported

/-- `SystemProcessorVcpuInfo`. -/
def Env.processorVcpuInfo (env : Env) (cpu : ℕ) : Status :=
  match env.Processor[cpu]? with
  | none => .unsuccessful
  | some p => if p.Initialized && p.Registered then .success else .notSupported

/-! ## The ledger -/

/-- What is given back by name. -/
inductive Resource
  /-- The bug check callback record. -/
  | bugCheckRecord
  /-- A page of the hole. -/
  | hole (i : Interface)
  /-- A page added to the physmap. -/
  | mapping (i : Interface)
  /-- An array. -/
  | array (i : Interface)
  /-- A mapped ring page. -/
  | ioSpace (i : Interface)
  deriving DecidableEq, Repr

/-- The counts, the callback lists and what is held. -/
structure Ledger where
  /-- `Context->References`. -/
  References : Interface → ℤ
  /-- Objects that were created through an interface: range sets, event channels and so on. -/
  objects : Interface → ℕ
  /-- The callback lists. -/
  queue : Queue → List Interface
  /-- What is held, and how often. -/
  held : Resource → ℕ

/-- The count of an interface, changed by `n`. -/
def Ledger.refer (i : Interface) (n : ℤ) (l : Ledger) : Ledger :=
  { l with References := Function.update l.References i (l.References i + n) }

/-- One more of a resource. -/
def Ledger.take (r : Resource) (l : Ledger) : Ledger :=
  { l with held := Function.update l.held r (l.held r + 1) }

/-- `InsertTailList`. -/
def Ledger.insertTail (q : Queue) (i : Interface) (l : Ledger) : Ledger :=
  { l with queue := Function.update l.queue q (l.queue q ++ [i]) }

/-- One more object. -/
def Ledger.create (i : Interface) (l : Ledger) : Ledger :=
  { l with objects := Function.update l.objects i (l.objects i + 1) }

/-- `Context->References` of an interface. -/
def references (i : Interface) : Counter Ledger where
  count := fun l => l.References i
  add := fun n l => l.refer i n
  count_add := by
    intro n l
    exact Function.update_self i _ _
  add_add := by
    intro m n l
    simp only [Ledger.refer, Function.update_idem, Function.update_self, Int.add_assoc]
  add_zero := by
    intro l
    simp only [Ledger.refer, Int.add_zero, Function.update_eq_self]

/-- What a step checks, and nothing else. -/
def check {σ : Type} (fails : Bool) : Step σ := fun w => some (!fails, w)

/-- What a step takes, unless it is refused. -/
def claim (fails : Bool) (r : Resource) : Step Ledger := fun l =>
  if fails then some (false, l) else some (true, l.take r)

/-- A resource is given back. It must be held. -/
def giveBack (r : Resource) : Undo Ledger := fun l =>
  if l.held r = 0 then none
  else some { l with held := Function.update l.held r (l.held r - 1) }

/-- `SuspendRegister`, `DebugRegister`. -/
def register (env : Env) (q : Queue) (i : Interface) : Step Ledger := fun l =>
  if env.fails (.register q i) then some (false, l) else some (true, l.insertTail q i)

/-- A list without the latest entry of `i`: the one that the context of `i` points to. -/
def removeLatest (i : Interface) (xs : List Interface) : Option (List Interface) :=
  if i ∈ xs then some (xs.reverse.erase i).reverse else none

/-- `SuspendDeregister`, `DebugDeregister`. -/
def deregister (q : Queue) (i : Interface) : Undo Ledger := fun l =>
  (removeLatest i (l.queue q)).map fun xs => { l with queue := Function.update l.queue q xs }

/-- An object is destroyed. -/
def destroy (i : Interface) : Undo Ledger := fun l =>
  if l.objects i = 0 then none
  else some { l with objects := Function.update l.objects i (l.objects i - 1) }

/-- What must not be left when the last reference is given back. -/
def Ledger.outstanding (i : Interface) (l : Ledger) : Bool :=
  match i with
  | .debug => !(l.queue .debug).isEmpty
  | .suspend => !(l.queue .late).isEmpty || !(l.queue .early).isEmpty
  | i => l.objects i != 0

/-- The check for outstanding objects, a `BUG`. -/
def bugOnOutstanding (i : Interface) : Undo Ledger := fun l => if l.outstanding i then none else some l

/-! ## Debug, suspend, range set, cache -/

/-- `DebugAcquire`. -/
def debugAcquire (env : Env) : Step Ledger :=
  (references .debug).acquire [⟨claim (env.fails .bugCheckCallback) .bugCheckRecord, []⟩]

/-- `DebugRelease`. -/
def debugRelease : Undo Ledger :=
  (references .debug).release [bugOnOutstanding .debug, giveBack .bugCheckRecord]

/-- The `Acquire` of an interface that only registers a debug callback. -/
def reportingAcquire (env : Env) (i : Interface) : Step Ledger :=
  (references i).acquire [⟨debugAcquire env, [debugRelease]⟩, ⟨register env .debug i, []⟩]

/-- The `Release` of such an interface. -/
def reportingRelease (i : Interface) : Undo Ledger :=
  (references i).release [bugOnOutstanding i, deregister .debug i, debugRelease]

/-- `SuspendAcquire`. -/
def suspendAcquire (env : Env) : Step Ledger := reportingAcquire env .suspend

/-- `SuspendRelease`. -/
def suspendRelease : Undo Ledger := reportingRelease .suspend

/-- `RangeSetAcquire`. -/
def rangeSetAcquire (env : Env) : Step Ledger := reportingAcquire env .rangeSet

/-- `RangeSetRelease`. -/
def rangeSetRelease : Undo Ledger := reportingRelease .rangeSet

/-- `CacheAcquire`. -/
def cacheAcquire (env : Env) : Step Ledger := reportingAcquire env .cache

/-- `CacheRelease`. -/
def cacheRelease : Undo Ledger := reportingRelease .cache

/-! ## Shared info -/

/-- The processor loop of `SharedInfoAcquire` gets past `cpu`. -/
def sharedInfoProcessor (env : Env) (cpu : ℕ) : Bool :=
  match env.processorVcpuId cpu with
  | .error status => status == .notSupported
  | .ok _ => env.processorVcpuInfo cpu == .success || env.processorVcpuInfo cpu == .notSupported

/-- The processor loop of `SharedInfoAcquire` ends. -/
def sharedInfoProcessors (env : Env) : Bool := (List.range env.ProcessorCount).all (sharedInfoProcessor env)

/-- `SharedInfoAcquire`. -/
def sharedInfoAcquire (env : Env) : Step Ledger :=
  (references .sharedInfo).acquire
    [⟨claim (env.fails (.hole .sharedInfo)) (.hole .sharedInfo), [giveBack (.hole .sharedInfo)]⟩,
      ⟨claim false (.mapping .sharedInfo), [giveBack (.mapping .sharedInfo)]⟩,
      ⟨suspendAcquire env, [suspendRelease]⟩,
      ⟨register env .early .sharedInfo, [deregister .early .sharedInfo]⟩,
      ⟨debugAcquire env, [debugRelease]⟩,
      ⟨register env .debug .sharedInfo, [deregister .debug .sharedInfo]⟩,
      ⟨claim (env.fails (.allocate .sharedInfo)) (.array .sharedInfo), [giveBack (.array .sharedInfo)]⟩,
      ⟨check (!sharedInfoProcessors env), []⟩]

/-- `SharedInfoRelease`. -/
def sharedInfoRelease : Undo Ledger :=
  (references .sharedInfo).release
    [giveBack (.array .sharedInfo), deregister .debug .sharedInfo, debugRelease,
      deregister .early .sharedInfo, suspendRelease, giveBack (.mapping .sharedInfo),
      giveBack (.hole .sharedInfo)]

/-- `SharedInfoUpcallSupported`: the array, as the loop has filled it, holds a `Vcpu` for `cpu`. -/
def sharedInfoUpcallSupported (env : Env) (cpu : ℕ) : Bool :=
  match env.processorVcpuId cpu with
  | .error _ => false
  | .ok vcpu_id => env.processorVcpuInfo cpu == .success || decide (vcpu_id < vcpuInfoCount)

/-! ## The event channel ABIs -/

/-- `EvtchnTwoLevelAcquire`. Its only label releases the shared info first. -/
def evtchnTwoLevelAcquire (env : Env) : Step Ledger :=
  (references .twoLevel).acquire [⟨check false, [sharedInfoRelease]⟩, ⟨sharedInfoAcquire env, []⟩]

/-- `EvtchnTwoLevelRelease`. -/
def evtchnTwoLevelRelease : Undo Ledger := (references .twoLevel).release [sharedInfoRelease]

/-- `XENBUS_EVTCHN_FIFO_CONTEXT`. -/
structure FifoContext where
  /-- The count. -/
  References : ℤ
  /-- The control blocks that are not `NULL`. -/
  ControlBlockMdl : ℕ → Bool
  /-- The pages that were allocated, less those that were given back. -/
  pages : ℤ

/-- `Context->References` of the FIFO ABI. -/
def fifoReferences : Counter FifoContext where
  count := FifoContext.References
  add := fun n f => { f with References := f.References + n }
  count_add := by simp
  add_add := by
    intro m n f
    simp only [Int.add_assoc]
  add_zero := by simp

/-- The loop of `EvtchnFifoAcquire` over `n` processors from `Index` on: the processor and the status it
stops with, if it does. The page of a processor whose `EventChannelInitControl` fails is given back at
once. -/
def fifoClaim (env : Env) : ℕ → ℕ → FifoContext → Option (ℕ × Status) × FifoContext
  | 0, _, f => (none, f)
  | n + 1, Index, f =>
    match env.processorVcpuId Index with
    | .error status =>
      if status = .notSupported then fifoClaim env n (Index + 1) f else (some (Index, status), f)
    | .ok vcpu_id =>
      if env.fails (.allocatePage Index) then (some (Index, .noMemory), f)
      else if env.fails (.initControl Index) then (some (Index, .unsuccessful), f)
      else
        fifoClaim env n (Index + 1)
          { f with ControlBlockMdl := Function.update f.ControlBlockMdl vcpu_id true, pages := f.pages + 1 }

/-- The loop at the last label of `EvtchnFifoAcquire`, which assigns `status`. -/
def fifoUnclaim (env : Env) : ℕ → Status → FifoContext → Option (Status × FifoContext)
  | 0, status, f => some (status, f)
  | Index + 1, _, f =>
    match env.processorVcpuId Index with
    | .error status => if status = .notSupported then fifoUnclaim env Index status f else none
    | .ok vcpu_id =>
      if f.ControlBlockMdl vcpu_id then
        fifoUnclaim env Index .success
          { f with ControlBlockMdl := Function.update f.ControlBlockMdl vcpu_id false, pages := f.pages - 1 }
      else none

/-- `EvtchnFifoAcquire`. -/
def evtchnFifoAcquire (env : Env) : Step FifoContext := fun f =>
  if f.References ≠ 0 then some (true, fifoReferences.add 1 f)
  else
    match fifoClaim env env.ProcessorCount 0 (fifoReferences.add 1 f) with
    | (none, f) => some (true, f)
    | (some (Index, status), f) =>
      (fifoUnclaim env Index status f).bind fun (status, f) =>
        (fifoReferences.drop f).map fun f => (status.ntSuccess, f)

/-- The loop of `EvtchnFifoRelease` over the control blocks below `vcpu_id`. -/
def fifoFree : ℕ → Undo FifoContext
  | 0, f => some f
  | vcpu_id + 1, f =>
    if f.ControlBlockMdl vcpu_id then
      fifoFree vcpu_id
        { f with ControlBlockMdl := Function.update f.ControlBlockMdl vcpu_id false, pages := f.pages - 1 }
    else fifoFree vcpu_id f

/-- `EvtchnFifoRelease`. -/
def evtchnFifoRelease : Undo FifoContext := fifoReferences.release [fifoFree hvmMaxVcpus]

/-! ## Grant tables -/

/-- The frames of `XENBUS_GNTTAB_CONTEXT`. -/
structure GnttabContext where
  /-- `FrameIndex`. -/
  FrameIndex : ℤ
  /-- The pages of the hole that frames have. -/
  pages : ℕ
  /-- The frames in the physmap. -/
  mappings : ℕ

/-- The interfaces below the event channels. -/
structure Lower where
  /-- The ledger. -/
  ledger : Ledger
  /-- The grant table frames. -/
  gnttab : GnttabContext

/-- The ledger below the event channels. -/
def lowerLedger : Part Lower Ledger where
  get := Lower.ledger
  set := fun l w => { w with ledger := l }
  get_set := fun _ _ => rfl
  set_get := fun _ => rfl
  set_set := fun _ _ _ => rfl

/-- The grant table frames below the event channels. -/
def lowerGnttab : Part Lower GnttabContext where
  get := Lower.gnttab
  set := fun g w => { w with gnttab := g }
  get_set := fun _ _ => rfl
  set_get := fun _ => rfl
  set_set := fun _ _ _ => rfl

/-- `FrameIndex` is assigned. -/
def setFrameIndex (n : ℤ) (g : GnttabContext) : GnttabContext := { g with FrameIndex := n }

/-- A page of the hole for a frame. -/
def framePage (fails : Bool) : Step GnttabContext := fun g =>
  if fails then some (false, g) else some (true, { g with pages := g.pages + 1 })

/-- The page of a frame is given back. -/
def frameFree : Undo GnttabContext := fun g =>
  if g.pages = 0 then none else some { g with pages := g.pages - 1 }

/-- A frame is added to the physmap. -/
def frameMap (fails : Bool) : Step GnttabContext := fun g =>
  if fails then some (false, g) else some (true, { g with mappings := g.mappings + 1 })

/-- A frame is removed from the physmap. -/
def frameUnmap : Undo GnttabContext := fun g =>
  if g.mappings = 0 then none else some { g with mappings := g.mappings - 1 }

/-- `GnttabExpand`. -/
def gnttabExpand (env : Env) : Step GnttabContext :=
  attempt
    [⟨fun g => some (true, setFrameIndex (g.FrameIndex + 1) g),
        [fun g => some (setFrameIndex (g.FrameIndex - 1) g)]⟩,
      ⟨fun g => check (g.FrameIndex == env.MaximumFrameCount) g, []⟩,
      ⟨framePage (env.fails (.hole .gnttab)), [frameFree]⟩,
      ⟨frameMap (env.fails .addToPhysmap), [frameUnmap]⟩,
      ⟨check (env.fails .rangeSetPut), []⟩]

/-- The loop of `GnttabContract` over `n` frames. -/
def gnttabContractFrames : ℕ → Undo GnttabContext
  | 0, g => some g
  | n + 1, g => ((frameUnmap g).bind frameFree).bind (gnttabContractFrames n)

/-- `GnttabContract`. -/
def gnttabContract : Undo GnttabContext := fun g =>
  (gnttabContractFrames (g.FrameIndex + 1).toNat g).map (setFrameIndex (-1))

/-- `Context->References` of the grant tables. -/
def gnttabReferences : Counter Lower where
  count := fun w => w.ledger.References .gnttab
  add := fun n w => { w with ledger := w.ledger.refer .gnttab n }
  count_add := fun n w => (references .gnttab).count_add n w.ledger
  add_add := by
    intro m n w
    exact congrArg (fun l => lowerLedger.set l w) ((references .gnttab).add_add m n w.ledger)
  add_zero := by
    intro w
    exact congrArg (fun l => lowerLedger.set l w) ((references .gnttab).add_zero w.ledger)

/-- `XENBUS_RANGE_SET(Create, …)`. -/
def rangeSetCreate (env : Env) : Step Ledger := fun l =>
  if env.fails .rangeSetCreate then some (false, l) else some (true, l.create .rangeSet)

/-- The steps of `GnttabAcquire` up to the range set. -/
def gnttabTables (env : Env) : List (Stage Lower) :=
  [⟨check (env.fails .querySize), []⟩,
    lowerLedger.stage
      ⟨claim (env.fails (.allocate .gnttab)) (.array .gnttab), [giveBack (.array .gnttab)]⟩,
    lowerGnttab.stage ⟨fun g => some (true, setFrameIndex (-1) g), [fun g => some (setFrameIndex 0 g)]⟩,
    lowerLedger.stage ⟨rangeSetAcquire env, [rangeSetRelease]⟩,
    ⟨lowerLedger.step (rangeSetCreate env),
      [lowerGnttab.undo gnttabContract, lowerLedger.undo (destroy .rangeSet)]⟩]

/-- The steps of `GnttabAcquire` on the other interfaces. -/
def gnttabCallbacks (env : Env) : List (Stage Ledger) :=
  [⟨cacheAcquire env, [cacheRelease]⟩,
    ⟨suspendAcquire env, [suspendRelease]⟩,
    ⟨register env .early .gnttab, [deregister .early .gnttab]⟩,
    ⟨debugAcquire env, [debugRelease]⟩,
    ⟨register env .debug .gnttab, [deregister .debug .gnttab]⟩]

/-- `GnttabAcquire`. -/
def gnttabAcquire (env : Env) : Step Lower :=
  gnttabReferences.acquire
    (gnttabTables env ++ (gnttabCallbacks env).map lowerLedger.stage ++
      [lowerGnttab.stage ⟨gnttabExpand env, []⟩])

/-- `GnttabRelease`. -/
def gnttabRelease : Undo Lower :=
  gnttabReferences.release
    [lowerLedger.undo (bugOnOutstanding .gnttab),
      lowerLedger.undo (deregister .debug .gnttab),
      lowerLedger.undo debugRelease,
      lowerLedger.undo (deregister .early .gnttab),
      lowerLedger.undo suspendRelease,
      lowerLedger.undo cacheRelease,
      lowerGnttab.undo gnttabContract,
      lowerLedger.undo (destroy .rangeSet),
      lowerLedger.undo rangeSetRelease,
      lowerGnttab.undo fun g => some (setFrameIndex 0 g),
      lowerLedger.undo (giveBack (.array .gnttab))]

/-- `GnttabQueryReference`: whether it has the reference. -/
def gnttabQueryReference (g : GnttabContext) (reference : ℤ) : Bool :=
  decide (reference < (g.FrameIndex + 1) * gnttabEntryPerFrame)

/-! ## Event channels -/

/-- `XENBUS_EVTCHN_ABI`. -/
inductive Abi
  | fifo | twoLevel
  deriving DecidableEq, Repr

/-- What `XENBUS_EVTCHN_CONTEXT` holds itself. -/
structure EvtchnContext where
  /-- `EvtchnAbi`: none when it is zero. -/
  EvtchnAbi : Option Abi
  /-- The processors whose `Interrupt` is not `NULL`. -/
  Processor : ℕ → Bool
  /-- `Interrupt` is not `NULL`. -/
  Interrupt : Bool

/-- All the contexts. -/
structure World extends Lower where
  /-- The FIFO ABI. -/
  fifo : FifoContext
  /-- The event channels. -/
  evtchn : EvtchnContext

/-- The interfaces below the event channels. -/
def worldLower : Part World Lower where
  get := World.toLower
  set := fun l w => { w with toLower := l }
  get_set := fun _ _ => rfl
  set_get := fun _ => rfl
  set_set := fun _ _ _ => rfl

/-- The ledger. -/
def worldLedger : Part World Ledger where
  get := fun w => w.ledger
  set := fun l w => { w with ledger := l }
  get_set := fun _ _ => rfl
  set_get := fun _ => rfl
  set_set := fun _ _ _ => rfl

/-- The FIFO ABI. -/
def worldFifo : Part World FifoContext where
  get := World.fifo
  set := fun f w => { w with fifo := f }
  get_set := fun _ _ => rfl
  set_get := fun _ => rfl
  set_set := fun _ _ _ => rfl

/-- `Context->References` of an interface above the event channels, or of these. -/
def worldReferences (i : Interface) : Counter World where
  count := fun w => w.ledger.References i
  add := fun n w => worldLedger.set (w.ledger.refer i n) w
  count_add := fun n w => (references i).count_add n w.ledger
  add_add := by
    intro m n w
    exact congrArg (fun l => worldLedger.set l w) ((references i).add_add m n w.ledger)
  add_zero := by
    intro w
    exact congrArg (fun l => worldLedger.set l w) ((references i).add_zero w.ledger)

/-- `Context->EvtchnAbi` is assigned. -/
def setAbi (abi : Option Abi) (w : World) : World := { w with evtchn := { w.evtchn with EvtchnAbi := abi } }

/-- `EvtchnAbiAcquire` from `use_two_level` on. -/
def useTwoLevel (env : Env) : Step World := fun w =>
  worldLedger.step (evtchnTwoLevelAcquire env) (setAbi (some .twoLevel) w)

/-- `EvtchnAbiAcquire`. -/
def evtchnAbiAcquire (env : Env) : Step World := fun w =>
  if env.UseEvtchnFifoAbi then
    match worldFifo.step (evtchnFifoAcquire env) (setAbi (some .fifo) w) with
    | some (false, w') => useTwoLevel env w'
    | outcome => outcome
  else useTwoLevel env w

/-- `EvtchnAbiRelease`. -/
def evtchnAbiRelease : Undo World := fun w =>
  match w.evtchn.EvtchnAbi with
  | some .fifo => (worldFifo.undo evtchnFifoRelease w).map (setAbi none)
  | some .twoLevel => (worldLedger.undo evtchnTwoLevelRelease w).map (setAbi none)
  | none => none

/-- `IsProcessorEnabled` of the ABI in use. -/
def abiIsProcessorEnabled (env : Env) (w : World) (cpu : ℕ) : Bool :=
  match env.processorVcpuId cpu, w.evtchn.EvtchnAbi with
  | .ok vcpu_id, some .fifo => w.fifo.ControlBlockMdl vcpu_id
  | .ok _, some .twoLevel => true
  | _, _ => false

/-- `EvtchnIsProcessorEnabled`, for the processors that the loops of `evtchn.c` go through. -/
def evtchnIsProcessorEnabled (env : Env) (w : World) (cpu : ℕ) : Bool :=
  decide (cpu < env.ProcessorCount) && sharedInfoUpcallSupported env cpu && abiIsProcessorEnabled env w cpu

/-- The interrupts of the processors are assigned. -/
def setInterrupts (interrupts : ℕ → Bool) (w : World) : World :=
  { w with evtchn := { w.evtchn with Processor := interrupts } }

/-- The loop of `EvtchnAcquire` over the processors: what `FdoAllocateInterrupt` returns is not checked. -/
def allocateInterrupts (env : Env) : Step World := fun w =>
  some (true, setInterrupts
    (fun cpu =>
      if evtchnIsProcessorEnabled env w cpu then !env.fails (.processorInterrupt cpu)
      else w.evtchn.Processor cpu) w)

/-- Each enabled processor has an interrupt. -/
def interruptsPresent (env : Env) (w : World) : Bool :=
  (List.range env.ProcessorCount).all
    (fun cpu => !evtchnIsProcessorEnabled env w cpu || w.evtchn.Processor cpu)

/-- The loop that frees the interrupts of the processors, at `fail9` and in `EvtchnRelease`: each must be
there. -/
def freeInterrupts (env : Env) : Undo World := fun w =>
  if interruptsPresent env w then
    some (setInterrupts
      (fun cpu => if evtchnIsProcessorEnabled env w cpu then false else w.evtchn.Processor cpu) w)
  else none

/-- `FdoAllocateInterrupt` for the line interrupt. -/
def allocateInterrupt (env : Env) : Step World := fun w =>
  if env.fails .interrupt then some (false, w)
  else some (true, { w with evtchn := { w.evtchn with Interrupt := true } })

/-- `FdoFreeInterrupt` for the line interrupt. -/
def freeInterrupt : Undo World := fun w =>
  if w.evtchn.Interrupt then some { w with evtchn := { w.evtchn with Interrupt := false } } else none

/-- The processor loop of `EvtchnInterruptEnable`, for `n` processors from `Cpu` on, finds an interrupt
wherever it looks for one. -/
def enabledInterrupts (env : Env) (w : World) : ℕ → ℕ → Bool
  | 0, _ => true
  | n + 1, Cpu =>
    if evtchnIsProcessorEnabled env w Cpu then
      w.evtchn.Processor Cpu &&
        (env.upcallVector Cpu == .notImplemented || enabledInterrupts env w n (Cpu + 1))
    else enabledInterrupts env w n (Cpu + 1)

/-- `EvtchnInterruptEnable`. -/
def evtchnInterruptEnable (env : Env) : Step World := fun w =>
  if env.UseEvtchnUpcall && !enabledInterrupts env w env.ProcessorCount 0 then none else some (true, w)

/-- The steps of `EvtchnAcquire` on the other interfaces. -/
def evtchnCallbacks (env : Env) : List (Stage Ledger) :=
  [⟨suspendAcquire env, [suspendRelease]⟩,
    ⟨register env .early .evtchn, [deregister .early .evtchn]⟩,
    ⟨register env .late .evtchn, [deregister .late .evtchn]⟩,
    ⟨debugAcquire env, [debugRelease]⟩,
    ⟨register env .debug .evtchn, [deregister .debug .evtchn]⟩,
    ⟨sharedInfoAcquire env, [sharedInfoRelease]⟩]

/-- The steps of `EvtchnAcquire` after the ABI. -/
def evtchnInterrupts (env : Env) : List (Stage World) :=
  [worldLedger.stage
      ⟨claim (env.fails (.allocate .evtchn)) (.array .evtchn), [giveBack (.array .evtchn)]⟩,
    ⟨allocateInterrupts env, [freeInterrupts env]⟩,
    ⟨allocateInterrupt env, []⟩,
    ⟨evtchnInterruptEnable env, []⟩]

/-- `EvtchnAcquire`. -/
def evtchnAcquire (env : Env) : Step World :=
  (worldReferences .evtchn).acquire
    ((evtchnCallbacks env).map worldLedger.stage ++
      ⟨evtchnAbiAcquire env, [evtchnAbiRelease]⟩ :: evtchnInterrupts env)

/-- `EvtchnRelease`. -/
def evtchnRelease (env : Env) : Undo World :=
  (worldReferences .evtchn).release
    [freeInterrupts env,
      worldLedger.undo (giveBack (.array .evtchn)),
      freeInterrupt,
      worldLedger.undo (bugOnOutstanding .evtchn),
      evtchnAbiRelease,
      worldLedger.undo sharedInfoRelease,
      worldLedger.undo (deregister .debug .evtchn),
      worldLedger.undo debugRelease,
      worldLedger.undo (deregister .late .evtchn),
      worldLedger.undo (deregister .early .evtchn),
      worldLedger.undo suspendRelease]

/-! ## Store and console -/

/-- `StoreGetAddress`, `ConsoleGetAddress`: the reference is queried. -/
def getAddress (reference : ℤ) : Step Lower := fun w => check (!gnttabQueryReference w.gnttab reference) w

/-- The steps of `StoreAcquire` and `ConsoleAcquire` that come to the ring page. -/
def ringPage (env : Env) (i : Interface) (reference : ℤ) : List (Stage Lower) :=
  [⟨gnttabAcquire env, [gnttabRelease]⟩,
    ⟨getAddress reference, []⟩,
    lowerLedger.stage ⟨claim (env.fails (.mapIoSpace i)) (.ioSpace i), [giveBack (.ioSpace i)]⟩]

/-- `EvtchnOpen`, as `StoreEnable` and `ConsoleEnable` call it. -/
def evtchnOpen : Step Ledger := fun l => some (true, l.create .evtchn)

/-- `StoreDisable`, `ConsoleDisable`: the channel is closed. -/
def evtchnClose : Undo Ledger := destroy .evtchn

/-- The steps of `StoreAcquire` after the event channels. -/
def storeCallbacks (env : Env) : List (Stage Ledger) :=
  [⟨evtchnOpen, [evtchnClose]⟩,
    ⟨suspendAcquire env, [suspendRelease]⟩,
    ⟨register env .early .store, [deregister .early .store]⟩,
    ⟨register env .late .store, [deregister .late .store]⟩,
    ⟨debugAcquire env, [debugRelease]⟩,
    ⟨register env .debug .store, []⟩]

/-- `XENBUS_GNTTAB_STORE_REFERENCE`. -/
def storeReference : ℤ := 1

/-- `StoreAcquire`. -/
def storeAcquire (env : Env) : Step World :=
  (worldReferences .store).acquire
    ((ringPage env .store storeReference).map worldLower.stage ++
      ⟨evtchnAcquire env, [evtchnRelease env]⟩ :: (storeCallbacks env).map worldLedger.stage)

/-- `StoreRelease`. -/
def storeRelease (env : Env) : Undo World :=
  (worldReferences .store).release
    [worldLedger.undo (bugOnOutstanding .store),
      worldLedger.undo (deregister .debug .store),
      worldLedger.undo debugRelease,
      worldLedger.undo (deregister .late .store),
      worldLedger.undo (deregister .early .store),
      worldLedger.undo suspendRelease,
      worldLedger.undo evtchnClose,
      evtchnRelease env,
      worldLower.undo (lowerLedger.undo (giveBack (.ioSpace .store))),
      worldLower.undo gnttabRelease]

/-- The steps of `ConsoleAcquire` after the event channels. -/
def consoleCallbacks (env : Env) : List (Stage Ledger) :=
  [⟨fun l => if env.fails .consoleParam then some (false, l) else evtchnOpen l, [evtchnClose]⟩,
    ⟨suspendAcquire env, [suspendRelease]⟩,
    ⟨register env .late .console, [deregister .late .console]⟩,
    ⟨debugAcquire env, [debugRelease]⟩,
    ⟨register env .debug .console, []⟩]

/-- `XENBUS_GNTTAB_CONSOLE_REFERENCE`. -/
def consoleReference : ℤ := 0

/-- `ConsoleAcquire`. -/
def consoleAcquire (env : Env) : Step World :=
  (worldReferences .console).acquire
    ((ringPage env .console consoleReference).map worldLower.stage ++
      ⟨evtchnAcquire env, [evtchnRelease env]⟩ :: (consoleCallbacks env).map worldLedger.stage)

/-- `ConsoleRelease`. -/
def consoleRelease (env : Env) : Undo World :=
  (worldReferences .console).release
    [worldLedger.undo (bugOnOutstanding .console),
      worldLedger.undo (deregister .debug .console),
      worldLedger.undo debugRelease,
      worldLedger.undo (deregister .late .console),
      worldLedger.undo suspendRelease,
      worldLedger.undo evtchnClose,
      evtchnRelease env,
      worldLower.undo (lowerLedger.undo (giveBack (.ioSpace .console))),
      worldLower.undo gnttabRelease]

end XenBus.Interfaces
