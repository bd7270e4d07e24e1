import XenBus.Foundations.Transition

/-!
# The rendezvous of the processors

`sync.c`: the owner captures all other CPUs in `SyncWorker` DPCs, has every CPU disable its
interrupts, run the early callback, enable its interrupts and run the late callback, and releases
them. The CPUs meet in `CompletionCount`, which the owner resets to 0 for each phase and which every
CPU increments when it has done its part; `Request` tells the workers what to do.

One step is one read or write of a field of the `SYNC_CONTEXT`, or a callback or a change of a CPU's
interrupt flag; what a CPU does locally, its `IRQL` included, belongs to the step before or after.
`ProcessorCount` does not change after `SyncCapture` has set it. The counts are far below the limits
of a `LONG`, and are not wrapped.
-/

namespace XenBus.Sync

/-- `SYNC_REQUEST`. -/
inductive SyncRequest
  | none
  | disableInterrupts
  | runEarly
  | enableInterrupts
  | runLate
  | exit
  deriving DecidableEq

/-- The phases that the owner ends in `__SyncWait`: `SyncRunEarly`, `SyncEnableInterrupts`,
`SyncRunLate` and `SyncRelease`. -/
inductive Phase
  | early
  | enable
  | late
  | release
  deriving DecidableEq

namespace Phase

/-- What the owner writes to `Request`. -/
def request : Phase → SyncRequest
  | early => .runEarly
  | enable => .enableInterrupts
  | late => .runLate
  | release => .exit

/-- The `Request` before that. -/
def prev : Phase → SyncRequest
  | early => .disableInterrupts
  | enable => .runEarly
  | late => .enableInterrupts
  | release => .runLate

end Phase

/-! ## A CPU -/

/-- A CPU: whether it is at `HIGH_LEVEL`, whether its interrupts are disabled, and the phases that it
has executed. -/
structure Cpu where
  high : Bool
  disabled : Bool
  Ran : List SyncRequest
  deriving DecidableEq

/-- What a CPU does in a phase: the callbacks of `__SyncProcessorRunEarly` and
`__SyncProcessorRunLate`, and the interrupts of `__SyncProcessorEnableInterrupts`. -/
def Phase.perform (ph : Phase) (cpu : Cpu) : Cpu :=
  match ph with
  | .early => { cpu with Ran := cpu.Ran ++ [.runEarly] }
  | .enable => { high := false, disabled := false, Ran := cpu.Ran ++ [.enableInterrupts] }
  | .late => { cpu with Ran := cpu.Ran ++ [.runLate] }
  | .release => cpu

/-- Where a CPU is in `__SyncProcessorDisableInterrupts`. -/
inductive Disabling
  /-- Before the increment. -/
  | inc
  /-- In the loop that waits for the other CPUs. -/
  | spin (Attempts : ℕ)
  /-- Before the read of `Old`. -/
  | read
  /-- Before the compare-exchange. -/
  | exchange (Old : ℤ)
  /-- After the loop. -/
  | done (Old : ℤ)
  deriving DecidableEq

/-- One step of `__SyncProcessorDisableInterrupts`, with `CompletionCount`. -/
def Disabling.step (N count : ℤ) : Disabling → Disabling × ℤ
  | .inc => (.spin 0, count + 1)
  | .spin Attempts => (if Attempts < 1000 ∧ count ≠ N then .spin (Attempts + 1) else .read, count)
  | .read => (if count = N then .done count else .exchange count, count)
  | .exchange Old => if count = Old then (.done Old, Old - 1) else (.read, count)
  | .done Old => (.done Old, count)

/-- The end of `__SyncProcessorDisableInterrupts`: the CPU backs off. -/
def Cpu.backOff (cpu : Cpu) : Cpu := { cpu with high := false }

/-- The end of `__SyncProcessorDisableInterrupts`: it returns success. -/
def Cpu.disable (cpu : Cpu) : Cpu :=
  { cpu with disabled := true, Ran := cpu.Ran ++ [.disableInterrupts] }

/-! ## The workers -/

/-- Where a worker is in `SyncWorker`. -/
inductive WorkerPc
  /-- Before the first increment. -/
  | start
  /-- Before the three reads of `Request` in the loop. -/
  | readExit
  | readSame
  | readSwitch
  /-- In one of the routines. -/
  | disabling (d : Disabling)
  | work (ph : Phase)
  | inc (ph : Phase)
  /-- Before `Request = Context->Request`. -/
  | update
  | exited
  deriving DecidableEq

/-- A worker, with its local `Request`. -/
structure Worker where
  pc : WorkerPc
  Request : SyncRequest
  cpu : Cpu
  deriving DecidableEq

/-- The routine that the `switch` calls. -/
def dispatch : SyncRequest → WorkerPc
  | .disableInterrupts => .disabling .inc
  | .runEarly => .work .early
  | .enableInterrupts => .work .enable
  | .runLate => .work .late
  | .none => .update
  | .exit => .update

/-- One step of `SyncWorker`, with `CompletionCount`. -/
def workerStep (N count : ℤ) (Request : SyncRequest) (w : Worker) : Option (Worker × ℤ) :=
  match w.pc with
  | .start => some ({ w with pc := .readExit }, count + 1)
  | .readExit =>
    some ({ w with pc := if Request = .exit then .inc .release else .readSame }, count)
  | .readSame =>
    some ({ w with pc := if Request = w.Request then .readExit else .readSwitch }, count)
  | .readSwitch => some ({ w with pc := dispatch Request }, count)
  | .disabling (.done Old) =>
    some (if Old < N then { w with pc := .readExit, cpu := w.cpu.backOff }
      else { w with pc := .update, cpu := w.cpu.disable }, count)
  | .disabling d =>
    some ({ w with pc := .disabling (d.step N count).1, cpu := { w.cpu with high := true } },
      (d.step N count).2)
  | .work ph => some ({ w with pc := .inc ph, cpu := ph.perform w.cpu }, count)
  | .inc ph => some ({ w with pc := if ph = .release then .exited else .update }, count + 1)
  | .update => some ({ w with pc := .readExit, Request := Request }, count)
  | .exited => none

/-! ## The owner -/

/-- Where the owner is. -/
inductive OwnerPc
  /-- `SyncCapture`, before its increment and in `__SyncWait`. -/
  | captureInc
  | captureWait
  /-- `SyncDisableInterrupts`. -/
  | disableReset
  | disableRequest
  | disabling (d : Disabling)
  /-- The other phases. -/
  | reset (ph : Phase)
  | work (ph : Phase)
  | inc (ph : Phase)
  | request (ph : Phase)
  | wait (ph : Phase)
  | ended
  deriving DecidableEq

/-- The owner. -/
structure Owner where
  pc : OwnerPc
  cpu : Cpu
  deriving DecidableEq

/-- What the owner does after `__SyncWait`. -/
def Phase.after : Phase → OwnerPc
  | .early => .reset .enable
  | .enable => .reset .late
  | .late => .reset .release
  | .release => .ended

/-- One step of the owner, with `CompletionCount` and `Request`. `SyncRelease` has nothing to do
before its increment, and zeroes the context at its end. -/
def ownerStep (N count : ℤ) (Request : SyncRequest) (o : Owner) :
    Option (Owner × ℤ × SyncRequest) :=
  match o.pc with
  | .captureInc => some ({ o with pc := .captureWait }, count + 1, Request)
  | .captureWait =>
    some ({ o with pc := if count = N then .disableReset else .captureWait }, count, Request)
  | .disableReset => some ({ o with pc := .disableRequest }, 0, Request)
  | .disableRequest => some ({ o with pc := .disabling .inc }, count, .disableInterrupts)
  | .disabling (.done Old) =>
    some (if Old < N then { pc := .disabling .inc, cpu := o.cpu.backOff }
      else { pc := .reset .early, cpu := o.cpu.disable }, count, Request)
  | .disabling d =>
    some ({ pc := .disabling (d.step N count).1, cpu := { o.cpu with high := true } },
      (d.step N count).2, Request)
  | .reset ph => some ({ o with pc := if ph = .release then .inc ph else .work ph }, 0, Request)
  | .work ph => some ({ pc := .inc ph, cpu := ph.perform o.cpu }, count, Request)
  | .inc ph => some ({ o with pc := .request ph }, count + 1, Request)
  | .request ph => some ({ o with pc := .wait ph }, count, ph.request)
  | .wait ph =>
    if count = N then
      some ({ o with pc := ph.after }, if ph = .release then 0 else count,
        if ph = .release then .none else Request)
    else some (o, count, Request)
  | .ended => none

/-! ## The system -/

variable {ι : Type*} [Fintype ι] [DecidableEq ι]

/-- `SYNC_CONTEXT` and the CPUs: the owner and the workers. -/
structure State (ι : Type*) where
  CompletionCount : ℤ
  Request : SyncRequest
  owner : Owner
  worker : ι → Worker

/-- `ProcessorCount`: the owner and the workers. -/
def processorCount (ι : Type*) [Fintype ι] : ℤ := Fintype.card ι + 1

/-- A step of the owner (`none`) or of a worker. -/
def step (s : State ι) : Option ι → Option (State ι)
  | none =>
    (ownerStep (processorCount ι) s.CompletionCount s.Request s.owner).map fun (o, count, request) =>
      { s with owner := o, CompletionCount := count, Request := request }
  | some i =>
    (workerStep (processorCount ι) s.CompletionCount s.Request (s.worker i)).map fun (w, count) =>
      { s with worker := Function.update s.worker i w, CompletionCount := count }

/-- A CPU before the rendezvous: below `HIGH_LEVEL`, interrupts enabled. -/
def Cpu.init : Cpu := ⟨false, false, []⟩

/-- `SyncCapture` has queued the DPCs. -/
def init (ι : Type*) : State ι where
  CompletionCount := 0
  Request := .none
  owner := ⟨.captureInc, .init⟩
  worker _ := ⟨.start, .none, .init⟩

/-- The CPUs: the owner (`none`) and the workers. -/
def State.cpu (s : State ι) : Option ι → Cpu
  | none => s.owner.cpu
  | some i => (s.worker i).cpu

end XenBus.Sync
