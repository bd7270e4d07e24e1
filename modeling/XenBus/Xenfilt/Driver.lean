import XenBus.Foundations.KeyedList
import XenBus.Foundations.Transition
import XenBus.Xen.Unplug
import XenBus.Xenfilt.Sections

/-!
# The filter

`xenfilt/driver.c` and the requests of `xenfilt/fdo.c` and `xenfilt/pdo.c`. The driver keeps the devices of the buses
it filters from the PnP manager until each bus has been enumerated and the emulated devices have been unplugged:
it answers a query with no devices and asks for another one. `DriverSetFilterState`, which each enumeration calls,
takes the filter from `ENABLED` by `PENDING` to `DISABLED`.

A query goes through its sections with the mutex of the FDO, but buses are queried at the same time, so what it reads
of the driver's state may have been changed in between. `log` is not in the source: it says what happened in which
order. Nor are `own`, which counts the reference of the FDO to itself, and `devices`.
-/

namespace XenBus.Xenfilt

open Fdo.Classes (PnpState)
open Xen.Unplug (Context UnplugDevices)

/-! ## Data -/

/-- `XENFILT_FILTER_STATE`. -/
inductive FilterState
  | ENABLED
  | PENDING
  | DISABLED
  deriving DecidableEq

/-- Where the query is that holds the mutex of the FDO. -/
inductive Stage
  | idle
  /-- Before `__FdoSetEnumerated`. -/
  | enumerated
  /-- Before `DriverSetFilterState`. -/
  | setting
  /-- Before `DriverGetFilterState`. -/
  | reading
  /-- Before the relations are allocated. -/
  | answering (State : FilterState)
  deriving DecidableEq

/-- `XENFILT_FDO`, with its `XENFILT_DX`. `devices` are the ones that its bus driver named when `FdoEnumerate` last
ran to its end. -/
structure Fdo where
  address : ℕ
  type : ObjectType
  Dx : Dx
  Enumerated : Bool
  References : ℕ
  own : ℕ
  stage : Stage
  devices : List ℕ
  List : List Pdo

inductive Event
  /-- A bus has been enumerated. -/
  | enumerated (Fdo : ℕ)
  /-- `UnplugDevices` has written to the port. -/
  | unplugged (writes : List ℕ)
  /-- The filter is pending; the buses are those of `Driver.List`. -/
  | pending (Fdos : List ℕ)
  | disabled
  /-- A query has been answered. -/
  | answered (Fdo : ℕ) (devices Relations : List ℕ)
  /-- `IoInvalidateDeviceRelations`. -/
  | invalidated (Fdo : ℕ)
  deriving DecidableEq

/-- `XENFILT_DRIVER`, with the list of the emulated objects and the context of `xen/unplug.c`. -/
structure System where
  FilterState : FilterState
  Unplug : Context
  Emulated : List Object
  next : ℕ
  log : List Event
  List : List Fdo

/-- `DriverEntry`. -/
def DriverEntry (Unplug : Context) : System where
  List := []
  FilterState := .ENABLED
  Unplug := Unplug
  Emulated := []
  next := 0
  log := []

namespace System

/-! ## One bus -/

/-- The FDO at an address. -/
def get (s : System) (address : ℕ) : Option Fdo := KeyedList.lookup Fdo.address s.List address

def set (s : System) (f : Fdo) : System := { s with List := KeyedList.replace Fdo.address s.List f }

def emit (s : System) (event : Event) : System := { s with log := s.log ++ [event] }

/-- What a bus shares with the others. -/
def shared (s : System) (f : Fdo) : Shared := ⟨s.Emulated, s.next, f.References⟩

/-- A section of a bus has come to an end. -/
def put (s : System) (c : Shared) (f : Fdo) : System :=
  { s with
    Emulated := c.Emulated
    next := c.next
    List := KeyedList.replace Fdo.address s.List { f with References := c.References } }

/-- The end of `FdoReleaseMutex`, and of `FdoRemoveDevice`: `FdoDestroy` if there are no references left. -/
def settle (s : System) (address : ℕ) : System :=
  match s.get address with
  | some f =>
    if f.References = 0 then { s with List := KeyedList.unlink Fdo.address s.List address } else s
  | none => s

/-! ## The state of the filter -/

/-- `DriverIsActivePresent`. -/
def DriverIsActivePresent (s : System) (w : World) : Bool :=
  if (EmulatedIsDevicePresent none none s.Emulated).1 then true
  else match w.ActiveDeviceID with
    | none => false
    | some ActiveDeviceID => (EmulatedIsDevicePresent (some ActiveDeviceID) none s.Emulated).1

/-- The end of `DriverSetFilterState` where each FDO has enumerated. -/
def unplug (s : System) (w : World) : System :=
  if s.DriverIsActivePresent w ∧ !w.SafeMode then s.emit (.unplugged (UnplugDevices s.Unplug)) else s

/-- `DriverSetFilterState`. -/
def DriverSetFilterState (s : System) (w : World) : System :=
  match s.FilterState with
  | .ENABLED =>
    if s.List.all (·.Enumerated) then
      ({ s with FilterState := .PENDING }.unplug w).emit (.pending (s.List.map Fdo.address))
    else s
  | .PENDING => { s with FilterState := .DISABLED }.emit .disabled
  | .DISABLED => s

end System

/-! ## Requests -/

/-- The requests that do no more here than to change the state of a device, in `FdoDispatchPnp` as in
`PdoDispatchPnp`. -/
inductive Minor
  | START_DEVICE
  | QUERY_STOP_DEVICE
  | CANCEL_STOP_DEVICE
  | STOP_DEVICE
  | QUERY_REMOVE_DEVICE
  | CANCEL_REMOVE_DEVICE
  | SURPRISE_REMOVAL
  deriving DecidableEq

def Dx.dispatch (Dx : Dx) : Minor → Xenfilt.Dx
  | .START_DEVICE => Dx.SetDevicePnpState .Started
  | .QUERY_STOP_DEVICE => Dx.SetDevicePnpState .StopPending
  | .CANCEL_STOP_DEVICE => Dx.RestoreDevicePnpState .StopPending
  | .STOP_DEVICE => Dx.SetDevicePnpState .Stopped
  | .QUERY_REMOVE_DEVICE => Dx.SetDevicePnpState .RemovePending
  | .CANCEL_REMOVE_DEVICE => Dx.RestoreDevicePnpState .RemovePending
  | .SURPRISE_REMOVAL => Dx.SetDevicePnpState .SurpriseRemovePending

/-- `DriverDispatch` lets a request through to a PDO; the manager sends none before it knows of the device. -/
def Pdo.takes (Pdo : Pdo) : Prop := Pdo.Dx.DevicePnpState ≠ .Deleted ∧ Pdo.Dx.DevicePnpState ≠ .Present

instance (Pdo : Pdo) : Decidable Pdo.takes := inferInstanceAs (Decidable (_ ∧ _))

/-- The address of a PDO. -/
def Pdo.address (Pdo : Pdo) : ℕ := Pdo.EmulatedObject.address

inductive Action
  /-- `DriverAddDevice` of a bus, with `FdoCreate`. -/
  | addDevice (type : ObjectType)
  | fdoRequest (fdo : ℕ) (minor : Minor)
  /-- `FdoQueryDeviceRelations`, where the bus driver has answered, up to `__FdoSetEnumerated` if it comes there. -/
  | query (fdo : ℕ) (w : World) (Relations : List ℕ) (memory : Bool)
  /-- `__FdoSetEnumerated`, up to the mutex of the driver. -/
  | setEnumerated (fdo : ℕ)
  | setFilterState (fdo : ℕ) (w : World)
  | getFilterState (fdo : ℕ)
  /-- The rest of `FdoQueryDeviceRelations`. -/
  | answer (fdo : ℕ) (memory : Bool)
  /-- `FdoRemoveDevice`, up to `FdoForwardIrpSynchronously`. -/
  | removeDevice (fdo : ℕ)
  /-- The rest of `FdoRemoveDevice`. -/
  | releaseDevice (fdo : ℕ)
  | pdoRequest (fdo pdo : ℕ) (minor : Minor)
  /-- `PdoRemoveDevice`. -/
  | removePdo (fdo pdo : ℕ)
  /-- `PdoEject`, up to `PdoForwardIrpSynchronously`. -/
  | ejectPdo (fdo pdo : ℕ)
  /-- The rest of `PdoEject`. -/
  | ejectedPdo (fdo pdo : ℕ)

/-- The lists of PDOs where one is changed. -/
def setPdo (Pdos : List Pdo) (p : Pdo) : List Pdo := KeyedList.replace Pdo.address Pdos p

/-- The list of PDOs without one. -/
def dropPdo (Pdos : List Pdo) (p : Pdo) : List Pdo := KeyedList.unlink Pdo.address Pdos p.address

/-- `DEVICE_RELATIONS`. -/
abbrev DEVICE_RELATIONS := List ℕ

namespace System

/-- A request to an FDO. -/
def onFdo (s : System) (fdo : ℕ) (body : Fdo → Option System) : Option System := (s.get fdo).bind body

/-- A request to a PDO. -/
def onPdo (s : System) (fdo pdo : ℕ) (body : Fdo → Pdo → Option System) : Option System :=
  (s.get fdo).bind fun f => (KeyedList.lookup Pdo.address f.List pdo).bind (body f)

/-- `FdoCreate` where the allocations succeed, with `DriverAddFunctionDeviceObject`. -/
def FdoCreate (s : System) (type : ObjectType) : System :=
  { s with
    next := s.next + 1
    List := s.List ++ [⟨s.next, type, ⟨.Added, .Invalid⟩, false, 1, 1, .idle, [], []⟩] }

/-- `FdoQueryDeviceRelations` as far as `__FdoSetEnumerated`. -/
def FdoQueryDeviceRelations (s : System) (w : World) (Relations : DEVICE_RELATIONS) (memory : Bool) (f : Fdo) :
    System :=
  if Relations ≠ [] ∧ memory then
    let (c, Pdos) := FdoEnumerate w f.type (s.shared f) f.List Relations
    s.put c { f with
      List := Pdos
      devices := Relations
      stage := .enumerated }
  else s.set { f with stage := .reading }

/-- `FdoQueryDeviceRelations` from the allocation of the relations on. -/
def answer (s : System) (State : Xenfilt.FilterState) (memory : Bool) (f : Fdo) : System :=
  let f := { f with stage := .idle }
  if memory then
    if State = .DISABLED then
      let (c, Pdos, Relations) := report (s.shared f) f.List
      (s.put c { f with List := Pdos }).emit (.answered f.address f.devices Relations)
    else ((s.set f).emit (.answered f.address f.devices [])).emit (.invalidated f.address)
  else s.set f

/-- `FdoRemoveDevice` up to `FdoForwardIrpSynchronously`. -/
def FdoRemoveDevice (s : System) (f : Fdo) : System :=
  let deleted := { f with Dx := f.Dx.SetDevicePnpState .Deleted }
  if f.Dx.PreviousDevicePnpState = .Started then
    s.put (remove (s.shared f) f.List) { deleted with List := [] }
  else s.set deleted

/-- `PdoRemoveDevice` with the mutex, and the invalidation after it. -/
def PdoRemoveDevice (s : System) (f : Fdo) (p : Pdo) : System :=
  let (c, p', NeedInvalidate) := Xenfilt.PdoRemoveDevice (s.shared f) p
  let s := (s.put c { f with
    List := match p' with
      | some p' => setPdo f.List p'
      | none => dropPdo f.List p }).settle f.address
  if NeedInvalidate then s.emit (.invalidated f.address) else s

end System

/-- The FDO is not used by a query and takes requests. -/
def Fdo.takes (f : Fdo) : Prop := f.stage = .idle ∧ f.Dx.DevicePnpState ≠ .Deleted

instance (f : Fdo) : Decidable f.takes := inferInstanceAs (Decidable (_ ∧ _))

def step (s : System) : Action → Option System
  | .addDevice type => if type ≠ .UNKNOWN then some (s.FdoCreate type) else none
  | .fdoRequest fdo minor => s.onFdo fdo fun f =>
    if f.Dx.DevicePnpState ≠ .Deleted then some (s.set { f with Dx := f.Dx.dispatch minor }) else none
  | .query fdo w Relations memory => s.onFdo fdo fun f =>
    if f.takes ∧ Relations.Nodup then some (s.FdoQueryDeviceRelations w Relations memory f) else none
  | .setEnumerated fdo => s.onFdo fdo fun f =>
    if f.stage = .enumerated then
      some ((s.set { f with
        Enumerated := true
        stage := .setting }).emit (.enumerated fdo))
    else none
  | .setFilterState fdo w => s.onFdo fdo fun f =>
    if f.stage = .setting then some ((s.DriverSetFilterState w).set { f with stage := .reading }) else none
  | .getFilterState fdo => s.onFdo fdo fun f =>
    if f.stage = .reading then some (s.set { f with stage := .answering s.FilterState }) else none
  | .answer fdo memory => s.onFdo fdo fun f =>
    match f.stage with
    | .answering State => some (s.answer State memory f)
    | _ => none
  | .removeDevice fdo => s.onFdo fdo fun f => if f.takes then some (s.FdoRemoveDevice f) else none
  | .releaseDevice fdo => s.onFdo fdo fun f =>
    if f.stage = .idle ∧ f.Dx.DevicePnpState = .Deleted ∧ f.own = 1 then
      some ((s.set { f with
        References := f.References - 1
        own := 0 }).settle fdo)
    else none
  | .pdoRequest fdo pdo minor => s.onPdo fdo pdo fun f p =>
    if p.takes then
      some (s.set { f with List := setPdo f.List { p with Dx := p.Dx.dispatch minor } })
    else none
  | .removePdo fdo pdo => s.onPdo fdo pdo fun f p =>
    if f.stage = .idle ∧ p.takes then some (s.PdoRemoveDevice f p) else none
  | .ejectPdo fdo pdo => s.onPdo fdo pdo fun f p =>
    if f.stage = .idle ∧ p.takes then
      some (s.set { f with List := setPdo f.List (p.SetMissing.SetDevicePnpState .Deleted) })
    else none
  | .ejectedPdo fdo pdo => s.onPdo fdo pdo fun f p =>
    if f.stage = .idle ∧ p.Dx.DevicePnpState = .Deleted ∧ p.Missing then
      some ((s.put (PdoDestroy (s.shared f) p) { f with
        List := dropPdo f.List p }).settle fdo)
    else none

end XenBus.Xenfilt
