import XenBus.Pnp.Enumerate
import XenBus.Foundations.Transition

/-!
# Plug and play

The FDO with its scan thread, and the PnP manager. The manager sends the requests to the FDO and to the PDOs one
at a time and waits until a handler has returned; the scan thread runs beside it, and its event may be signalled
at any time (the store, a resume and the removal of a PDO do it). A handler is taken apart where it gives the
other side a chance: where it releases the mutex, waits for the scan thread, or reads what the other one writes.

What the manager keeps to is `Manager.allows` for the PDOs and the conditions on the state in `fdoStep` for the
FDO: a query is followed by the request it asks for or by its cancellation, a device is surprise-removed before
its removal only, and the FDO is removed when no device on it is in use.

The transitions of the device power that go with the state (`PdoD3ToD0`, `FdoD3ToD0` and back), the suspend and
the balloon thread and the resource lists are left out, and with them the assertions about the power states and the
resource lists and the bug check when the balloon thread does not finish in time. The classes that a pass finds have
names that fit (`MAX_DEVICE_ID_LEN`): `__PdoSetName` asserts it.
-/

namespace XenBus.Pnp

open Fdo.Classes (PnpState CString Ansi MAX_DEVICE_ID_LEN)

/-! ## The PnP manager -/

/-- How far a device has come. -/
inductive Stage
  | added
  | started
  | stopped
  deriving DecidableEq

/-- The state that the driver has for it. -/
def Stage.state : Stage → PnpState
  | .added => .Enumerated
  | .started => .Started
  | .stopped => .Stopped

/-- What the manager knows of a device. -/
inductive Node
  /-- It has not been reported. -/
  | unknown
  | known (stage : Stage)
  /-- `IRP_MN_QUERY_STOP_DEVICE` has succeeded. -/
  | stopAsked
  /-- `IRP_MN_QUERY_REMOVE_DEVICE` has succeeded. -/
  | removeAsked (stage : Stage)
  /-- `IRP_MN_SURPRISE_REMOVAL` has been sent. -/
  | surprised
  deriving DecidableEq

/-- The minor functions of `PdoDispatchPnp` that change the state of a device. -/
inductive Minor
  | startDevice
  | queryStopDevice
  | cancelStopDevice
  | stopDevice
  | queryRemoveDevice
  | cancelRemoveDevice
  | surpriseRemoval
  | removeDevice
  | eject
  deriving DecidableEq

/-- What the manager sends to a device. -/
def Node.allows : Node → Minor → Bool
  | .known .added, .startDevice | .known .stopped, .startDevice => true
  | .known .started, .queryStopDevice => true
  | .stopAsked, .cancelStopDevice | .stopAsked, .stopDevice => true
  | .known _, .queryRemoveDevice => true
  | .removeAsked _, .cancelRemoveDevice => true
  | .known _, .surpriseRemoval => true
  | .known _, .removeDevice | .removeAsked _, .removeDevice | .surprised, .removeDevice => true
  | .known .added, .eject => true
  | _, _ => false

/-- What it knows after the request. A device that has been deleted refuses what it can refuse. -/
def Node.after (node : Node) (minor : Minor) (refused : Bool) : Node :=
  match node, minor with
  | _, .startDevice => if refused then node else .known .started
  | _, .queryStopDevice => if refused then node else .stopAsked
  | _, .cancelStopDevice => .known .started
  | _, .stopDevice => if refused then node else .known .stopped
  | .known stage, .queryRemoveDevice => if refused then node else .removeAsked stage
  | .removeAsked stage, .cancelRemoveDevice => .known stage
  | _, .surpriseRemoval => .surprised
  | _, .removeDevice => .known .added
  | _, _ => node

/-- No driver of the device is in the way of the removal of the FDO. -/
def Node.idle : Node → Bool
  | .unknown | .known .added | .surprised => true
  | _ => false

/-! ## Requests to a PDO -/

/-- `PdoDispatchPnp`. The second component is `NeedInvalidate`. -/
def PdoDispatchPnp (b : Bus) (id : ℕ) : Minor → Option (Bus × Bool)
  | .startDevice => (b.PdoSetDevicePnpState id .Started).map (·, false)
  | .queryStopDevice => (b.PdoSetDevicePnpState id .StopPending).map (·, false)
  | .cancelStopDevice => (b.PdoRestoreDevicePnpState id .StopPending).map (·, false)
  | .stopDevice => (b.PdoSetDevicePnpState id .Stopped).map (·, false)
  | .queryRemoveDevice => (b.PdoSetDevicePnpState id .RemovePending).map (·, false)
  | .cancelRemoveDevice => (b.PdoRestoreDevicePnpState id .RemovePending).map (·, false)
  | .surpriseRemoval => (b.PdoSetDevicePnpState id .SurpriseRemovePending).map (·, false)
  | .removeDevice => PdoRemoveDevice b id
  | .eject => (PdoEject b id).map (·, true)

/-- `DriverDispatch` completes what is sent to a device that has been deleted. A cancellation is not. -/
def DriverDispatch (b : Bus) (id : ℕ) (minor : Minor) : Option (Bus × Bool) :=
  if (b.Dx id).DevicePnpState = .Deleted then
    if minor = .cancelRemoveDevice ∨ minor = .cancelStopDevice then none else some (b, false)
  else PdoDispatchPnp b id minor

/-- The request acquires the mutex of the FDO. -/
def Minor.locks : Minor → Bool
  | .removeDevice | .eject => true
  | _ => false

/-! ## The system -/

/-- Where the scan thread is. -/
inductive Scan
  /-- There is none. -/
  | none
  | waiting
  /-- Before `ThreadIsAlerted`. -/
  | awake
  /-- Before `__FdoGetDevicePnpState`. -/
  | state
  /-- The state was `Started`; before the mutex. -/
  | enumerate
  /-- After `FdoEnumerate`. -/
  | invalidate (NeedInvalidate : Bool)
  /-- At the label `loop`. -/
  | loop
  /-- Before the last `KeSetEvent`. -/
  | leaving
  | exited
  deriving DecidableEq

/-- Where the thread of the PnP manager is. -/
inductive Place
  | idle
  /-- `FdoStartDevice`, after `ThreadCreate`. -/
  | starting
  /-- `FdoStartDevice`, in `ThreadJoin`. -/
  | startFailing
  /-- `FdoStopDevice`, in `ThreadJoin`. -/
  | stopping
  /-- `FdoSurpriseRemoval`, before the mutex. -/
  | surprise
  /-- `FdoQueryDeviceRelations`, in the wait for the scan thread. -/
  | queryWait
  /-- `FdoQueryDeviceRelations`, in `FdoForwardIrpSynchronously`. -/
  | queryForward (Objects : List ℕ)
  /-- `FdoQueryDeviceRelations`, before the mutex is acquired again. -/
  | querySweep
  /-- `FdoRemoveDevice`, in the wait for the scan thread. -/
  | removeWait
  /-- `FdoRemoveDevice`, before the mutex. -/
  | removeSweep
  /-- `FdoRemoveDevice`, before `ThreadAlert`. -/
  | removeAlert
  /-- `FdoRemoveDevice`, in `ThreadJoin`. -/
  | removeJoin
  /-- `FdoRemoveDevice`, at the label `done`. -/
  | removeDone
  /-- `FdoRemoveDevice`, before the reference is given up. -/
  | removeRelease
  /-- `FdoRemoveDevice`, after the mutex has been released. -/
  | removeCheck
  /-- `FdoReleaseMutex`, after the mutex has been released. -/
  | pdoCheck (NeedInvalidate : Bool)
  /-- `PdoRemoveDevice` and `PdoEject`, before `IoInvalidateDeviceRelations`. -/
  | pdoInvalidate (NeedInvalidate : Bool)
  deriving DecidableEq

/-- The FDO with its PDOs and its scan thread, and what the PnP manager knows. What the source does not have:
`own` counts the reference of the FDO to itself, `skipped` says that its removal has left the PDOs alone, and
`failed` that an assertion has failed or that memory has been used that had been freed. -/
structure System where
  Dx : Dx
  Active : Bool
  allocated : Bool
  own : ℕ
  ScanEvent : Bool
  Alerted : Bool
  scan : Scan
  place : Place
  /-- The relations have been invalidated since the manager has queried them last. -/
  invalid : Bool
  /-- A query has failed. -/
  lost : Bool
  node : ℕ → Node
  /-- The PDOs that the manager was given last. -/
  reported : List ℕ
  skipped : Bool
  failed : Bool
  Bus : Bus

/-- `FdoCreate`. -/
def FdoCreate (Active : Bool) : System where
  Bus := ⟨fun _ => ⟨[], .Invalid, .Invalid⟩, fun _ => none, 1, 0, [], []⟩
  Dx := ⟨[], .Added, .Invalid⟩
  Active := Active
  allocated := true
  own := 1
  ScanEvent := false
  Alerted := false
  scan := .none
  place := .idle
  invalid := false
  lost := false
  node := fun _ => .unknown
  reported := []
  skipped := false
  failed := false

namespace System

@[grind] def fail (s : System) : System := { s with failed := true }

/-- A step that uses the FDO. -/
@[grind] def touch (s t : System) : System := if s.allocated then t else s.fail

/-- A step that uses the scan thread. -/
@[grind] def touchThread (s t : System) : System := if s.scan = .none then s.fail else s.touch t

/-- `__FdoSetDevicePnpState`. -/
@[grind] def FdoSetDevicePnpState (s : System) (State : PnpState) : System :=
  match s.Dx.SetDevicePnpState State with
  | some Dx => s.touch { s with Dx := Dx }
  | none => s.fail

/-- `__FdoRestoreDevicePnpState`. -/
@[grind] def FdoRestoreDevicePnpState (s : System) (State : PnpState) : System :=
  s.touch { s with Dx := s.Dx.RestoreDevicePnpState State }

/-- A section with the mutex. -/
def locked (s : System) (b : Option Pnp.Bus) : System :=
  match b with
  | some b => s.touch { s with Bus := b }
  | none => s.fail

/-- A section changes nothing but the bus. -/
theorem locked_frame (s : System) (b : Option Pnp.Bus) :
    (s.locked b).place = s.place ∧ (s.locked b).own = s.own ∧ (s.locked b).Dx = s.Dx ∧
      (s.locked b).node = s.node ∧ (s.locked b).reported = s.reported := by
  cases b with
  | none => exact ⟨rfl, rfl, rfl, rfl, rfl⟩
  | some b =>
    simp only [locked, touch]
    split <;> exact ⟨rfl, rfl, rfl, rfl, rfl⟩

@[grind =] theorem locked_place (s : System) (b : Option Pnp.Bus) : (s.locked b).place = s.place :=
  (s.locked_frame b).1

@[grind =] theorem locked_own (s : System) (b : Option Pnp.Bus) : (s.locked b).own = s.own :=
  (s.locked_frame b).2.1

@[grind =] theorem locked_Dx (s : System) (b : Option Pnp.Bus) : (s.locked b).Dx = s.Dx :=
  (s.locked_frame b).2.2.1

@[grind =] theorem locked_node (s : System) (b : Option Pnp.Bus) : (s.locked b).node = s.node :=
  (s.locked_frame b).2.2.2.1

@[grind =] theorem locked_reported (s : System) (b : Option Pnp.Bus) : (s.locked b).reported = s.reported :=
  (s.locked_frame b).2.2.2.2

/-- The end of `ThreadJoin`. -/
@[grind] def joined (s : System) : System :=
  { s with
    scan := .none
    ScanEvent := false }

/-- `FdoDestroy`, where the references are gone. The memory has to be zero but for what it clears. -/
@[grind] def FdoDestroy (s : System) : System :=
  if s.Bus.References ≠ 0 then s
  else if s.Bus.List = [] ∧ s.Dx.DevicePnpState = .Deleted ∧ s.scan = .none ∧ s.ScanEvent = false then
    { s with allocated := false }
  else s.fail

@[grind] def goTo (s : System) (place : Place) : System := { s with place := place }

end System

/-! ## The scan thread -/

inductive ScanAction
  | wake
  | isAlerted
  | getState
  /-- A pass comes to `FdoEnumerate`. -/
  | enumerate (Enumerate : Option ℕ) (succeeds : CString → Bool) (Classes : List Ansi)
  /-- It does not: there is no list of classes. -/
  | giveUp
  | invalidate
  | setEvent

/-- `FdoScan`. -/
def scanStep (s : System) : ScanAction → Option System
  | .wake => if s.scan = .waiting then some (s.touch { s with scan := .awake }) else none
  | .isAlerted =>
    if s.scan = .awake then some (s.touch { s with scan := if s.Alerted then .leaving else .state }) else none
  | .getState =>
    if s.scan = .state then
      some (s.touch { s with scan := if s.Dx.DevicePnpState = .Started then .enumerate else .loop })
    else none
  | .enumerate Enumerate succeeds Classes =>
    if s.scan = .enumerate ∧ ∀ Class ∈ Classes, Class.Buffer.length < MAX_DEVICE_ID_LEN then
      match FdoEnumerate Enumerate succeeds s.Bus Classes with
      | some (b, NeedInvalidate) => some (s.touch { s with
          Bus := b
          scan := .invalidate NeedInvalidate })
      | none => some s.fail
    else none
  | .giveUp => if s.scan = .enumerate then some (s.touch { s with scan := .loop }) else none
  | .invalidate =>
    match s.scan with
    | .invalidate NeedInvalidate => some (s.touch { s with
        scan := .loop
        invalid := s.invalid || NeedInvalidate })
    | _ => none
  | .setEvent =>
    match s.scan with
    | .loop => some (s.touch { s with
        scan := .waiting
        ScanEvent := true })
    | .leaving => some (s.touch { s with
        scan := .exited
        ScanEvent := true })
    | _ => none

/-! ## Requests to the FDO -/

inductive FdoAction
  | startDevice
  | started
  | startFailed
  | startJoined
  | queryStopDevice
  | cancelStopDevice
  | stopDevice
  | stopJoined
  | queryRemoveDevice
  | cancelRemoveDevice
  | surpriseRemoval
  | surpriseMark
  | queryDeviceRelations
  | report (memory : Bool)
  | forwarded (success : Bool)
  | sweep
  | removeDevice
  | removeScanned
  | removeSweep
  | removeAlert
  | removeJoined
  | removeDone
  | removeRelease
  | removeCheck

/-- The device is neither starting nor on its way out. -/
def Dx.settled (Dx : Dx) : Prop :=
  Dx.DevicePnpState = .Added ∨ Dx.DevicePnpState = .Started ∨ Dx.DevicePnpState = .Stopped

/-- The device may be removed. -/
def Dx.removable (Dx : Dx) : Prop :=
  Dx.DevicePnpState = .Added ∨ Dx.DevicePnpState = .Stopped ∨ Dx.DevicePnpState = .RemovePending ∨
    Dx.DevicePnpState = .SurpriseRemovePending

instance (Dx : Dx) : Decidable Dx.settled := inferInstanceAs (Decidable (_ ∨ _))

instance (Dx : Dx) : Decidable Dx.removable := inferInstanceAs (Decidable (_ ∨ _))

/-- The manager makes a PDO known that it has been given. -/
def tell (node : ℕ → Node) (ids : List ℕ) (id : ℕ) : Node :=
  if id ∈ ids ∧ node id = .unknown then .known .added else node id

/-- The requests to the FDO. -/
def fdoStep (s : System) : FdoAction → Option System
  | .startDevice =>
    if s.place = .idle ∧ (s.Dx.DevicePnpState = .Added ∨ s.Dx.DevicePnpState = .Stopped) then
      some (s.touch (if s.Active then { s with
          scan := .waiting
          ScanEvent := false
          Alerted := false
          place := .starting }
        else s.goTo .starting))
    else none
  | .started => if s.place = .starting then some ((s.goTo .idle).FdoSetDevicePnpState .Started) else none
  | .startFailed =>
    if s.place = .starting then
      if s.Active then some (s.touchThread { s with
          Alerted := true
          place := .startFailing })
      else some (s.goTo .idle)
    else none
  | .startJoined => if s.place = .startFailing ∧ s.scan = .exited then some (s.touch (s.joined.goTo .idle)) else none
  | .queryStopDevice =>
    if s.place = .idle ∧ s.Dx.DevicePnpState = .Started then some (s.FdoSetDevicePnpState .StopPending) else none
  | .cancelStopDevice =>
    if s.place = .idle ∧ s.Dx.DevicePnpState = .StopPending then some (s.FdoRestoreDevicePnpState .StopPending)
    else none
  | .stopDevice =>
    if s.place = .idle ∧ s.Dx.DevicePnpState = .StopPending then
      if s.Active then some (s.touchThread { s with
          Alerted := true
          place := .stopping })
      else some (s.FdoSetDevicePnpState .Stopped)
    else none
  | .stopJoined =>
    if s.place = .stopping ∧ s.scan = .exited then some ((s.joined.goTo .idle).FdoSetDevicePnpState .Stopped)
    else none
  | .queryRemoveDevice =>
    if s.place = .idle ∧ s.Dx.settled then some (s.FdoSetDevicePnpState .RemovePending) else none
  | .cancelRemoveDevice =>
    if s.place = .idle ∧ s.Dx.DevicePnpState = .RemovePending then some (s.FdoRestoreDevicePnpState .RemovePending)
    else none
  | .surpriseRemoval =>
    if s.place = .idle ∧ s.Dx.settled then
      some ((s.goTo .surprise).FdoSetDevicePnpState .SurpriseRemovePending)
    else none
  | .surpriseMark => if s.place = .surprise then some ((s.goTo .idle).locked (surprise s.Bus)) else none
  | .queryDeviceRelations =>
    if s.place = .idle ∧ s.Dx.DevicePnpState = .Started then
      some (s.touch { s with
        invalid := false
        place := .queryWait })
    else none
  | .report memory =>
    if s.place = .queryWait ∧ (s.Active → s.ScanEvent) then
      if memory then
        match Pnp.report s.Bus with
        | some (b, Objects) => some (s.touch { s with
            Bus := b
            place := .queryForward Objects })
        | none => some s.fail
      else some (s.touch { s with
        lost := true
        place := .idle })
    else none
  | .forwarded success =>
    match s.place with
    | .queryForward Objects =>
      if success then some { s with
        reported := Objects
        node := tell s.node Objects
        place := .querySweep }
      else some (s.touch { s with
        lost := true
        place := .idle })
    | _ => none
  | .sweep => if s.place = .querySweep then some ((s.goTo .idle).locked (Pnp.sweep s.Bus)) else none
  | .removeDevice =>
    if s.place = .idle ∧ s.Dx.removable ∧ ∀ id ∈ s.Bus.List, (s.node id).idle then
      if s.Dx.PreviousDevicePnpState ≠ .Started then some (s.touch { s with
          skipped := true
          place := .removeDone })
      else if s.Active then some (s.touchThread { s with
          ScanEvent := false
          place := .removeWait })
      else some (s.goTo .removeSweep)
    else none
  | .removeScanned =>
    if s.place = .removeWait ∧ s.ScanEvent then some (s.touch (s.goTo .removeSweep)) else none
  | .removeSweep => if s.place = .removeSweep then some ((s.goTo .removeAlert).locked (remove s.Bus)) else none
  | .removeAlert =>
    if s.place = .removeAlert then
      if s.Active then some (s.touchThread { s with
          Alerted := true
          place := .removeJoin })
      else some (s.touch (s.goTo .removeDone))
    else none
  | .removeJoined =>
    if s.place = .removeJoin ∧ s.scan = .exited then some (s.touch (s.joined.goTo .removeDone)) else none
  | .removeDone =>
    if s.place = .removeDone then some ((s.goTo .removeRelease).FdoSetDevicePnpState .Deleted) else none
  | .removeRelease =>
    if s.place = .removeRelease then
      if s.Bus.References = 0 then some s.fail
      else some (s.touch { s with
        Bus := { s.Bus with References := s.Bus.References - 1 }
        own := 0
        place := .removeCheck })
    else none
  | .removeCheck => if s.place = .removeCheck then some (s.touch (s.goTo .idle).FdoDestroy) else none

/-! ## Requests to the PDOs -/

inductive PdoAction
  | request (id : ℕ) (minor : Minor)
  /-- The rest of `FdoReleaseMutex`. -/
  | check
  /-- The rest of `PdoRemoveDevice` and `PdoEject`. -/
  | invalidate

/-- The requests to the PDOs. -/
def pdoStep (s : System) : PdoAction → Option System
  | .request id minor =>
    if s.place = .idle ∧ (s.node id).allows minor then
      match DriverDispatch s.Bus id minor with
      | some (b, NeedInvalidate) =>
        let refused : Bool := (s.Bus.Dx id).DevicePnpState = .Deleted
        let t := { s with
          Bus := b
          node := Function.update s.node id ((s.node id).after minor refused) }
        if minor.locks ∧ !refused then some (s.touch (t.goTo (.pdoCheck NeedInvalidate))) else some t
      | none => some s.fail
    else none
  | .check =>
    match s.place with
    | .pdoCheck NeedInvalidate => some (s.touch (s.goTo (.pdoInvalidate NeedInvalidate)).FdoDestroy)
    | _ => none
  | .invalidate =>
    match s.place with
    | .pdoInvalidate NeedInvalidate =>
      if NeedInvalidate then some (s.touch { s with
        invalid := true
        place := .idle })
      else some (s.goTo .idle)
    | _ => none

/-! ## Steps -/

inductive Action
  | scan (a : ScanAction)
  | fdo (a : FdoAction)
  | pdo (a : PdoAction)

def step (s : System) : Action → Option System
  | .scan a => scanStep s a
  | .fdo a => fdoStep s a
  | .pdo a => pdoStep s a

end XenBus.Pnp
