import Mathlib.Data.Multiset.AddSub
import XenBus.Foundations.Transition
import XenBus.Interfaces.AllOrNothing

/-!
# Clients, and the resume callbacks

`suspend.c`, and the suspend callbacks of `shared_info.c`, `gnttab.c`, `evtchn.c`, `store.c` and `console.c`. When
the domain is resumed, the physmap has neither the shared info nor the frames of the grant tables. `SuspendEarly`
goes through `EarlyList`, then `SuspendLate` through `LateList`.

A `Session` is the contexts and the references that clients hold to the interfaces. A client releases only what it
has acquired.
-/

namespace XenBus.Interfaces

open Unwind

/-! ## The callbacks -/

/-- What the callbacks work on. -/
structure Resumption where
  /-- The contexts. -/
  world : World
  /-- `Context->Channel` of the console is not `NULL`. -/
  Channel : Bool
  /-- `EvtchnAbiAcquire` has succeeded since the domain was resumed. -/
  reacquired : Bool

/-- The contexts. -/
def resumedWorld : Part Resumption World where
  get := Resumption.world
  set := fun w r => { r with world := w }
  get_set := fun _ _ => rfl
  set_get := fun _ => rfl
  set_set := fun _ _ _ => rfl

/-- A step whose success the source asserts. -/
def asserted {σ : Type} (step : Step σ) : Undo σ := fun w =>
  match step w with
  | some (true, w') => some w'
  | _ => none

/-- The loop of `GnttabMap` over `n` frames. -/
def gnttabMapFrames (env : Env) : ℕ → Undo GnttabContext
  | 0, g => some g
  | n + 1, g => (asserted (frameMap (env.fails .addToPhysmap)) g).bind (gnttabMapFrames env n)

/-- `GnttabMap`. -/
def gnttabMap (env : Env) : Undo GnttabContext := fun g => gnttabMapFrames env (g.FrameIndex + 1).toNat g

/-- `SharedInfoMap`. -/
def sharedInfoMap : Undo Ledger := asserted (claim false (.mapping .sharedInfo))

/-- The early callback of an interface. That of the event channels marks them inactive, that of the store its
transactions and watches. -/
def suspendCallbackEarly (env : Env) : Interface → Undo Resumption
  | .sharedInfo => resumedWorld.undo (worldLedger.undo sharedInfoMap)
  | .gnttab => resumedWorld.undo (worldLower.undo (lowerGnttab.undo (gnttabMap env)))
  | _ => some

/-- `EvtchnSuspendCallbackLate`. `EvtchnInterruptDisable`, between the last two, clears `UpcallEnabled`. -/
def evtchnSuspendCallbackLate (env : Env) : Undo World :=
  sequence [evtchnAbiRelease, asserted (evtchnAbiAcquire env), asserted (evtchnInterruptEnable env)]

/-- `StoreSuspendCallbackLate`. -/
def storeSuspendCallbackLate : Undo World :=
  sequence [worldLower.undo (asserted (getAddress storeReference)), worldLedger.undo evtchnClose,
    worldLedger.undo (asserted evtchnOpen)]

/-- `ConsoleEnable`. -/
def consoleEnable (env : Env) : Step Ledger := fun l =>
  if env.fails .consoleParam then some (false, l) else evtchnOpen l

/-- `ConsoleSuspendCallbackLate`: the page must be where it was and the channel must be there. What `ConsoleEnable`
returns is not checked. -/
def consoleSuspendCallbackLate (env : Env) : Undo Resumption := fun r =>
  if r.Channel then
    (sequence [worldLower.undo (asserted (getAddress consoleReference)), worldLedger.undo evtchnClose]
      r.world).bind fun w =>
        (worldLedger.step (consoleEnable env) w).map fun (ok, w') => { r with world := w', Channel := ok }
  else none

/-- The late callback of an interface. -/
def suspendCallbackLate (env : Env) : Interface → Undo Resumption
  | .evtchn => fun r =>
    (evtchnSuspendCallbackLate env r.world).map fun w => { r with world := w, reacquired := true }
  | .store => resumedWorld.undo storeSuspendCallbackLate
  | .console => consoleSuspendCallbackLate env
  | _ => some

/-- `SuspendEarly`. -/
def suspendEarly (env : Env) : Undo Resumption := fun r =>
  sequence ((r.world.ledger.queue .early).map (suspendCallbackEarly env)) r

/-- `SuspendLate`. -/
def suspendLate (env : Env) : Undo Resumption := fun r =>
  sequence ((r.world.ledger.queue .late).map (suspendCallbackLate env)) r

/-- The contexts when the domain is resumed: the physmap has lost what was added to it. -/
def suspended (w : World) : World :=
  { w with
    ledger := { w.ledger with held := Function.update w.ledger.held (.mapping .sharedInfo) 0 }
    gnttab := { w.gnttab with mappings := 0 } }

/-! ## Clients -/

/-- The interfaces that clients acquire. -/
inductive Service
  | sharedInfo | gnttab | evtchn | store | console
  deriving DecidableEq, Repr

/-- Its calls. -/
def Service.call : Service → Call
  | .sharedInfo => .sharedInfo
  | .gnttab => .gnttab
  | .evtchn => .evtchn
  | .store => .store
  | .console => .console

/-- Its count. -/
def Service.interface : Service → Interface
  | .sharedInfo => .sharedInfo
  | .gnttab => .gnttab
  | .evtchn => .evtchn
  | .store => .store
  | .console => .console

/-- The contexts, and the references of the clients. -/
structure Session where
  /-- The contexts. -/
  world : World
  /-- The references that the clients hold. -/
  clients : Multiset (ℕ × Service)
  /-- `Context->Channel` of the console is not `NULL`. -/
  Channel : Bool

/-- What happens. -/
inductive Action
  /-- A client acquires an interface. -/
  | acquire (client : ℕ) (service : Service) (env : Env)
  /-- A client releases an interface. -/
  | release (client : ℕ) (service : Service) (env : Env)
  /-- The domain was suspended, and is resumed. -/
  | resume (env : Env)

/-- The domain as it is resumed. -/
def Session.resumption (s : Session) : Resumption := ⟨suspended s.world, s.Channel, false⟩

/-- One step. When the last reference to the console is released, `ConsoleDisable` closes its channel, which must
be there. -/
def Session.step (s : Session) : Action → Option Session
  | .acquire client service env =>
    (service.call.acquire env s.world).map fun (ok, w) =>
      { world := w
        clients := if ok then (client, service) ::ₘ s.clients else s.clients
        Channel := if service = .console ∧ s.world.ledger.References .console = 0 then ok else s.Channel }
  | .release client service env =>
    if (client, service) ∈ s.clients then
      if service = .console ∧ s.world.ledger.References .console = 1 ∧ s.Channel = false then none
      else
        (service.call.release env s.world).map fun w =>
          { world := w
            clients := s.clients.erase (client, service)
            Channel :=
              if service = .console ∧ s.world.ledger.References .console = 1 then false else s.Channel }
    else none
  | .resume env =>
    ((suspendEarly env s.resumption).bind (suspendLate env)).map fun r =>
      { world := r.world, clients := s.clients, Channel := r.Channel }

/-- No client holds a reference yet. -/
def Session.start : Session := ⟨idle, 0, false⟩

/-! ## Where the FIFO ABI may slip -/

/-- `EvtchnAcquire` comes to the ABI. -/
def evtchnComesToAbi (env : Env) (w : World) : Prop :=
  w.ledger.References .evtchn = 0 ∧
    ∃ l, attempt (evtchnCallbacks env) (w.ledger.refer .evtchn 1) = some (true, l)

/-- `StoreAcquire` or `ConsoleAcquire` comes to the ABI. -/
def clientComesToAbi (env : Env) (i : Interface) (reference : ℤ) (w : World) : Prop :=
  w.ledger.References i = 0 ∧
    ∃ v, attempt (ringPage env i reference) ((worldReferences i).add 1 w).toLower = some (true, v) ∧
      evtchnComesToAbi env (worldLower.set v ((worldReferences i).add 1 w))

/-- A call comes to the ABI. -/
def Service.comesToAbi (env : Env) (w : World) : Service → Prop
  | .evtchn => evtchnComesToAbi env w
  | .store => clientComesToAbi env .store storeReference w
  | .console => clientComesToAbi env .console consoleReference w
  | _ => False

/-- A step that comes to `EvtchnAbiAcquire` does not come to the slip of the FIFO ABI. -/
def Unslipped (s : Session) : Action → Prop
  | .acquire _ service env =>
    service.comesToAbi env s.world → env.UseEvtchnFifoAbi = true → ¬ fifoSlips env
  | .release _ _ _ => True
  | .resume env => s.world.ledger.References .evtchn ≠ 0 → env.UseEvtchnFifoAbi = true → ¬ fifoSlips env

end XenBus.Interfaces
