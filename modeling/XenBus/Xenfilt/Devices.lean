import XenBus.Fdo.Classes
import XenBus.Xenfilt.Emulated
import Mathlib.Data.List.ReduceOption

/-!
# The devices below a filtered bus

`FdoEnumerate` and the loops of `FdoQueryDeviceRelations` and `FdoRemoveDevice` (`xenfilt/fdo.c`), with
`PdoCreate`, `PdoDestroy` and `PdoRemoveDevice` (`xenfilt/pdo.c`). The bus driver has answered with a list of
devices. A filter that is not in it goes, or is missing from now on; each device that has no filter gets one. Of
the new devices the one with the highest precedence in the registry is forced to be active, and the others are
forced not to be (`XenBus.Xenfilt.Election`).

The functions take the list of the filters of one bus. What else they change is `Shared`: the list of the
emulated objects, to which each filter contributes one, and the references to the FDO.
-/

namespace XenBus.Xenfilt

open Fdo.Classes (PnpState)

/-! ## Data -/

/-- The state of a device in `XENFILT_DX`. -/
structure Dx where
  DevicePnpState : PnpState
  PreviousDevicePnpState : PnpState
  deriving DecidableEq

/-- `XENFILT_PDO`, with its `XENFILT_DX`. The emulated object is the one it points at, and its address
tells the PDOs apart. -/
structure Pdo where
  PhysicalDeviceObject : ℕ
  DeviceID : PStr
  InstanceID : PStr
  Active : Bool
  Missing : Bool
  Dx : Dx
  EmulatedObject : Object
  deriving DecidableEq

/-- What the registry and the drivers below answer at a time. `memory` tells for which devices the
allocations of `PdoCreate` succeed; the query for an instance id does (the source passes a `NULL` on where it does
not), and names are shorter than `MAXNAMELEN`. -/
structure World where
  ActiveDeviceID : Option PStr
  ActiveInstanceID : Option Name
  Precedence : Option (PStr → Option ℕ)
  SafeMode : Bool
  DeviceID : ℕ → Option Name
  InstanceID : ℕ → Name
  CompatibleIDs : ℕ → Option (List PStr)
  memory : ℕ → Bool

/-- A machine with an active device, on which nothing fails. -/
def here : World where
  ActiveDeviceID := some [80]
  ActiveInstanceID := some ⟨[48], by decide⟩
  Precedence := none
  SafeMode := false
  DeviceID := fun _ => some ⟨[80], by decide⟩
  InstanceID := fun _ => ⟨[48], by decide⟩
  CompatibleIDs := fun _ => none
  memory := fun _ => true

/-- What the filters of all buses share, and the references to the FDO. -/
structure Shared where
  Emulated : List Object
  next : ℕ
  References : ℕ

/-- `__PdoSetDevicePnpState` and `__FdoSetDevicePnpState`. -/
def Dx.SetDevicePnpState (Dx : Dx) (State : PnpState) : Xenfilt.Dx := ⟨State, Dx.DevicePnpState⟩

/-- `__PdoRestoreDevicePnpState` and `__FdoRestoreDevicePnpState`. -/
def Dx.RestoreDevicePnpState (Dx : Dx) (State : PnpState) : Xenfilt.Dx :=
  if Dx.DevicePnpState = State then { Dx with DevicePnpState := Dx.PreviousDevicePnpState } else Dx

def Pdo.SetDevicePnpState (Pdo : Pdo) (State : PnpState) : Xenfilt.Pdo :=
  { Pdo with Dx := Pdo.Dx.SetDevicePnpState State }

/-- `PdoSetMissing`. -/
def Pdo.SetMissing (Pdo : Pdo) : Xenfilt.Pdo := { Pdo with Missing := true }

/-- The PDO is neither missing nor deleted. -/
def Pdo.live (Pdo : Pdo) : Bool := !Pdo.Missing && Pdo.Dx.DevicePnpState ≠ .Deleted

/-! ## PdoCreate and PdoDestroy -/

/-- `PdoSetDeviceInformation`: the names and whether the device is active. -/
def PdoSetDeviceInformation (w : World) (device : ℕ) (ForceActivate : ActivationStatus) :
    Option (Name × Name × Bool) := do
  let DeviceID ← w.DeviceID device
  let Active : Bool :=
    if ForceActivate ≠ .ACTIVATE_NEUTRAL then ForceActivate = .FORCE_ACTIVATED
    else match w.ActiveDeviceID with
      | some ActiveDeviceID => stricmp DeviceID.1 ActiveDeviceID
      | none => false
  if Active ∧ ForceActivate = .ACTIVATE_NEUTRAL then
    let InstanceID ← w.ActiveInstanceID
    some (DeviceID, InstanceID, Active)
  else some (DeviceID, w.InstanceID device, Active)

/-- The PDO that `PdoCreate` makes, with the object that `EmulatedAddObject` makes for it. -/
def newPdo (w : World) (type : ObjectType) (address device : ℕ) (ForceActivate : ActivationStatus) :
    Option Pdo := do
  if w.memory device then
    let (DeviceID, InstanceID, Active) ← PdoSetDeviceInformation w device ForceActivate
    let Data ← EmulatedAddObject DeviceID.1 InstanceID.1 (w.CompatibleIDs device) type ForceActivate
    some ⟨device, DeviceID.1, InstanceID.1, Active, false, ⟨.Present, .Invalid⟩, ⟨address, Data⟩⟩
  else none

/-- A PDO has come: `EmulatedAddObject` and `FdoAddPhysicalDeviceObject`. -/
def Shared.add (c : Shared) (Pdo : Pdo) : Shared where
  Emulated := c.Emulated ++ [Pdo.EmulatedObject]
  next := c.next + 1
  References := c.References + 1

/-- `PdoCreate`. -/
def PdoCreate (w : World) (type : ObjectType) (c : Shared) (device : ℕ) (ForceActivate : ActivationStatus) :
    Option (Shared × Pdo) :=
  (newPdo w type c.next device ForceActivate).map fun Pdo => (c.add Pdo, Pdo)

/-- `PdoDestroy`, with `EmulatedRemoveObject` and `FdoRemovePhysicalDeviceObject`. -/
def PdoDestroy (c : Shared) (Pdo : Pdo) : Shared :=
  { c with
    Emulated := c.Emulated.erase Pdo.EmulatedObject
    References := c.References - 1 }

/-! ## FdoEnumerate -/

/-- `DriverGetPrecedence`. -/
def DriverGetPrecedence (w : World) (device : ℕ) : ℕ :=
  match w.Precedence, w.CompatibleIDs device with
  | some key, some CompatibleIDs => (CompatibleIDs.findSome? key).getD 0
  | _, _ => 0

/-- The loop of `FdoEnumerate` that removes PDOs. -/
def walk (c : Shared) : List Pdo → List (Option ℕ) → Shared × List Pdo × List (Option ℕ)
  | [], Objects => (c, [], Objects)
  | Pdo :: Pdos, Objects =>
    if Pdo.live then
      if some Pdo.PhysicalDeviceObject ∈ Objects then
        let (c, Pdos, Objects) := walk c Pdos (Objects.replace (some Pdo.PhysicalDeviceObject) none)
        (c, Pdo :: Pdos, Objects)
      else if Pdo.Dx.DevicePnpState = .Present then
        walk (PdoDestroy c (Pdo.SetMissing.SetDevicePnpState .Deleted)) Pdos Objects
      else
        let (c, Pdos, Objects) := walk c Pdos Objects
        (c, Pdo.SetMissing :: Pdos, Objects)
    else
      let (c, Pdos, Objects) := walk c Pdos Objects
      (c, Pdo :: Pdos, Objects)

/-- The loop of `FdoEnumerate` that looks for the highest precedence: from `Index` on, with `ActiveIndex` and
`Precedence`. -/
def elect (precedence : ℕ → ℕ) : List (Option ℕ) → ℕ → ℕ × ℕ → ℕ × ℕ
  | [], _, best => best
  | none :: Objects, Index, best => elect precedence Objects (Index + 1) best
  | some device :: Objects, Index, best =>
    elect precedence Objects (Index + 1)
      (if best.2 < precedence device then (Index, precedence device) else best)

/-- What `FdoEnumerate` asks of a new device. -/
def forceActivate (best : ℕ × ℕ) (Index : ℕ) : ActivationStatus :=
  if 0 < best.2 then (if Index = best.1 then .FORCE_ACTIVATED else .FORCE_DEACTIVATED) else .ACTIVATE_NEUTRAL

/-- The loop of `FdoEnumerate` that creates PDOs. -/
def create (w : World) (type : ObjectType) (best : ℕ × ℕ) (c : Shared) :
    List (Option ℕ) → ℕ → Shared × List Pdo
  | [], _ => (c, [])
  | none :: Objects, Index => create w type best c Objects (Index + 1)
  | some device :: Objects, Index =>
    match PdoCreate w type c device (forceActivate best Index) with
    | some (c, Pdo) =>
      let (c, Pdos) := create w type best c Objects (Index + 1)
      (c, Pdo :: Pdos)
    | none => create w type best c Objects (Index + 1)

/-- `FdoEnumerate` as far as `__FdoSetEnumerated`. -/
def FdoEnumerate (w : World) (type : ObjectType) (c : Shared) (Pdos : List Pdo) (Relations : List ℕ) :
    Shared × List Pdo :=
  let (c, Pdos, Objects) := walk c Pdos (Relations.map some)
  let (c, New) := create w type (elect (DriverGetPrecedence w) Objects 0 (0, 0)) c Objects 0
  (c, Pdos ++ New)

/-! ## The other loops -/

/-- The loop of `FdoQueryDeviceRelations` that fills in the relations. -/
def report (c : Shared) : List Pdo → Shared × List Pdo × List ℕ
  | [] => (c, [], [])
  | Pdo :: Pdos =>
    if Pdo.Missing then
      if Pdo.Dx.DevicePnpState = .Deleted then report (PdoDestroy c Pdo) Pdos
      else
        let (c, Pdos, Relations) := report c Pdos
        (c, Pdo :: Pdos, Relations)
    else
      let (c, Pdos, Relations) := report c Pdos
      let Pdo := if Pdo.Dx.DevicePnpState = .Present then Pdo.SetDevicePnpState .Enumerated else Pdo
      (c, Pdo :: Pdos, Pdo.PhysicalDeviceObject :: Relations)

/-- The loop of `FdoRemoveDevice`. -/
def remove (c : Shared) : List Pdo → Shared
  | [] => c
  | Pdo :: Pdos => remove (PdoDestroy c (Pdo.SetMissing.SetDevicePnpState .Deleted)) Pdos

/-- `PdoRemoveDevice` with the mutex: what is left of the PDO, and `NeedInvalidate`. -/
def PdoRemoveDevice (c : Shared) (Pdo : Pdo) : Shared × Option Xenfilt.Pdo × Bool :=
  if Pdo.Missing then
    if Pdo.Dx.DevicePnpState = .SurpriseRemovePending then
      (PdoDestroy c (Pdo.SetDevicePnpState .Deleted), none, false)
    else (c, some (Pdo.SetDevicePnpState .Deleted), true)
  else (c, some (Pdo.SetDevicePnpState .Enumerated), false)

end XenBus.Xenfilt
