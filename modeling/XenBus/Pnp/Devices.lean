import XenBus.Fdo.Classes
import Mathlib.Logic.Function.Basic

/-!
# The physical device objects in memory

`XenBus.Fdo.Classes` takes the list of the PDOs for the PDOs themselves. Here they are what they are in
`pdo.c` and `fdo.c`: a PDO is allocated and freed, its device extension (`XENBUS_DX`) lives on with the device
object, the list of the FDO goes through the extensions, and each PDO on it holds a reference to the FDO.

An operation has no result where it uses a PDO that has been freed, or where an assertion of the source fails.
The loops are the sections that `fdo.c` runs with the mutex of the FDO; each of them saves the next entry
before it looks at one, so it goes over the entries that were on the list when it began.
-/

namespace XenBus.Pnp

open Fdo.Classes (PnpState CString Ansi claim MAX_DEVICE_ID_LEN)

/-! ## Data -/

/-- `XENBUS_DX`. -/
structure Dx where
  Name : CString
  DevicePnpState : PnpState
  PreviousDevicePnpState : PnpState
  deriving DecidableEq

/-- `XENBUS_PDO`. -/
structure Pdo where
  Missing : Bool
  deriving DecidableEq

/-- What the mutex of the FDO protects. A PDO goes by the address of its device object; `destroyed` is not in
the source: it says which have been destroyed, in order. -/
structure Bus where
  Dx : ℕ → Dx
  Pdo : ℕ → Option Pdo
  References : ℕ
  next : ℕ
  destroyed : List ℕ
  List : List ℕ

/-! ## The state of a device -/

/-- `__PdoSetDevicePnpState` and `__FdoSetDevicePnpState`: `Deleted` is never left. -/
def Dx.SetDevicePnpState (Dx : Dx) (State : PnpState) : Option Pnp.Dx :=
  if Dx.DevicePnpState ≠ .Deleted ∨ State = .Deleted then
    some { Dx with
      PreviousDevicePnpState := Dx.DevicePnpState
      DevicePnpState := State }
  else none

/-- `__PdoRestoreDevicePnpState` and `__FdoRestoreDevicePnpState`. -/
def Dx.RestoreDevicePnpState (Dx : Dx) (State : PnpState) : Pnp.Dx :=
  if Dx.DevicePnpState = State then { Dx with DevicePnpState := Dx.PreviousDevicePnpState } else Dx

namespace Bus

/-- The extension of a device becomes another one. -/
def setDx (b : Bus) (id : ℕ) (Dx : Pnp.Dx) : Bus :=
  { b with Dx := Function.update b.Dx id Dx }

@[simp] theorem setDx_Dx_self (b : Bus) (id : ℕ) (Dx : Pnp.Dx) : (b.setDx id Dx).Dx id = Dx :=
  Function.update_self ..

theorem setDx_Dx_of_ne (b : Bus) {id j : ℕ} (hne : j ≠ id) (Dx : Pnp.Dx) : (b.setDx id Dx).Dx j = b.Dx j :=
  Function.update_of_ne hne ..

/-- A PDO becomes another one. -/
def setPdo (b : Bus) (id : ℕ) (Pdo : Pnp.Pdo) : Bus :=
  { b with Pdo := Function.update b.Pdo id (some Pdo) }

@[simp] theorem setPdo_List (b : Bus) (id : ℕ) (Pdo : Pnp.Pdo) : (b.setPdo id Pdo).List = b.List := rfl

@[simp] theorem setPdo_Pdo_self (b : Bus) (id : ℕ) (Pdo : Pnp.Pdo) : (b.setPdo id Pdo).Pdo id = some Pdo :=
  Function.update_self ..

theorem setPdo_Pdo_of_ne (b : Bus) {id j : ℕ} (hne : j ≠ id) (Pdo : Pnp.Pdo) :
    (b.setPdo id Pdo).Pdo j = b.Pdo j :=
  Function.update_of_ne hne ..

/-- `PdoSetDevicePnpState`. -/
def PdoSetDevicePnpState (b : Bus) (id : ℕ) (State : PnpState) : Option Bus :=
  (b.Pdo id).bind fun _ => ((b.Dx id).SetDevicePnpState State).map (b.setDx id)

/-- `__PdoRestoreDevicePnpState`. -/
def PdoRestoreDevicePnpState (b : Bus) (id : ℕ) (State : PnpState) : Option Bus :=
  (b.Pdo id).map fun _ => b.setDx id ((b.Dx id).RestoreDevicePnpState State)

/-- `PdoGetDevicePnpState`. -/
def PdoGetDevicePnpState (b : Bus) (id : ℕ) : Option PnpState :=
  (b.Pdo id).map fun _ => (b.Dx id).DevicePnpState

/-- `PdoIsMissing`. -/
def PdoIsMissing (b : Bus) (id : ℕ) : Option Bool := (b.Pdo id).map (·.Missing)

/-- `PdoSetMissing`. -/
def PdoSetMissing (b : Bus) (id : ℕ) : Option Bus :=
  (b.Pdo id).map fun Pdo => b.setPdo id { Pdo with Missing := true }

/-- What the bus knows of a device. -/
def cell (b : Bus) (id : ℕ) : Pnp.Dx × Option Pnp.Pdo := (b.Dx id, b.Pdo id)

/-! ## PdoCreate and PdoDestroy -/

/-- `PdoCreate` where the allocations succeed, with `__PdoSetName` and `FdoAddPhysicalDeviceObject`. -/
def PdoCreate (b : Bus) (Name : CString) : Option Bus :=
  if Name.length < MAX_DEVICE_ID_LEN ∧ b.References ≠ 0 then
    some { b with
      Dx := Function.update b.Dx b.next ⟨Name, .Present, .Invalid⟩
      Pdo := Function.update b.Pdo b.next (some ⟨false⟩)
      List := b.List ++ [b.next]
      References := b.References + 1
      next := b.next + 1 }
  else none

/-- The PDO is off the list and freed. -/
def drop (b : Bus) (id : ℕ) : Bus :=
  { b with
    Pdo := Function.update b.Pdo id none
    List := b.List.erase id
    References := b.References - 1
    destroyed := b.destroyed ++ [id] }

@[simp] theorem drop_Pdo_self (b : Bus) (id : ℕ) : (b.drop id).Pdo id = none := Function.update_self ..

theorem drop_Pdo_of_ne (b : Bus) {id j : ℕ} (hne : j ≠ id) : (b.drop id).Pdo j = b.Pdo j :=
  Function.update_of_ne hne ..

/-- `PdoDestroy`, with `FdoRemovePhysicalDeviceObject`. -/
def PdoDestroy (b : Bus) (id : ℕ) : Option Bus :=
  (b.Pdo id).bind fun Pdo =>
    if (b.Dx id).DevicePnpState = .Deleted ∧ Pdo.Missing ∧ id ∈ b.List ∧ b.References ≠ 0 then some (b.drop id)
    else none

end Bus

/-! ## The sections of fdo.c -/

/-- The variables of `FdoEnumerate`. -/
structure Enumeration where
  Bus : Bus
  Classes : List Ansi
  NeedInvalidate : Bool

/-- The first loop of `FdoEnumerate`, one entry. -/
def enumerateEntry (e : Enumeration) (id : ℕ) : Option Enumeration := do
  let Missing ← e.Bus.PdoIsMissing id
  let State ← e.Bus.PdoGetDevicePnpState id
  if !Missing ∧ State ≠ .Deleted then
    match claim (e.Bus.Dx id).Name e.Classes with
    | some Classes => some { e with Classes := Classes }
    | none =>
      let b ← e.Bus.PdoSetMissing id
      if (← b.PdoGetDevicePnpState id) = .Present then
        let b ← b.PdoSetDevicePnpState id .Deleted
        let b ← b.PdoDestroy id
        some { e with Bus := b }
      else
        some { e with
          Bus := b
          NeedInvalidate := true }
  else some e

/-- The second loop of `FdoEnumerate`, one class. -/
def enumerateClass (succeeds : CString → Bool) (e : Enumeration) (Class : Ansi) : Option Enumeration :=
  if Class.Length ≠ 0 ∧ succeeds Class.Buffer then do
    let b ← e.Bus.PdoCreate Class.Buffer
    some { e with
      Bus := b
      NeedInvalidate := true }
  else some e

/-- `FdoEnumerate`. -/
def FdoEnumerate (Enumerate : Option ℕ) (succeeds : CString → Bool) (b : Bus) (Classes : List Ansi) :
    Option (Bus × Bool) :=
  if Enumerate.getD 1 = 0 then some (b, false)
  else do
    let e ← b.List.foldlM enumerateEntry ⟨b, Classes, false⟩
    let e ← e.Classes.foldlM (enumerateClass succeeds) e
    some (e.Bus, e.NeedInvalidate)

/-- The loop of `FdoQueryDeviceRelations` that fills in the relations, one entry. -/
def reportEntry (r : Bus × List ℕ) (id : ℕ) : Option (Bus × List ℕ) := do
  if ← r.1.PdoIsMissing id then some r
  else if (← r.1.PdoGetDevicePnpState id) = .Present then
    let b ← r.1.PdoSetDevicePnpState id .Enumerated
    some (b, r.2 ++ [id])
  else some (r.1, r.2 ++ [id])

def report (b : Bus) : Option (Bus × List ℕ) := b.List.foldlM reportEntry (b, [])

/-- The loop of `FdoQueryDeviceRelations` after the request has been completed, one entry. -/
def sweepEntry (b : Bus) (id : ℕ) : Option Bus := do
  if (← b.PdoGetDevicePnpState id) = .Deleted ∧ (← b.PdoIsMissing id) then b.PdoDestroy id else some b

def sweep (b : Bus) : Option Bus := b.List.foldlM sweepEntry b

/-- The loop of `FdoSurpriseRemoval`, one entry. -/
def surpriseEntry (b : Bus) (id : ℕ) : Option Bus := do
  if ← b.PdoIsMissing id then some b else b.PdoSetMissing id

def surprise (b : Bus) : Option Bus := b.List.foldlM surpriseEntry b

/-- The loop of `FdoRemoveDevice` after a PDO is missing, one entry. -/
def deleteEntry (b : Bus) (id : ℕ) : Option Bus := do
  if (← b.PdoGetDevicePnpState id) ≠ .SurpriseRemovePending then b.PdoSetDevicePnpState id .Deleted else some b

/-- The loop of `FdoRemoveDevice`, one entry. -/
def removeEntry (b : Bus) (id : ℕ) : Option Bus := do
  let b ← surpriseEntry b id
  let b ← deleteEntry b id
  if (← b.PdoGetDevicePnpState id) = .Deleted then b.PdoDestroy id else some b

def remove (b : Bus) : Option Bus := b.List.foldlM removeEntry b

/-- `PdoRemoveDevice` with the mutex. The second component is `NeedInvalidate`. -/
def PdoRemoveDevice (b : Bus) (id : ℕ) : Option (Bus × Bool) := do
  if ← b.PdoIsMissing id then
    let State ← b.PdoGetDevicePnpState id
    let b ← b.PdoSetDevicePnpState id .Deleted
    if State = .SurpriseRemovePending then
      let b ← b.PdoDestroy id
      some (b, false)
    else some (b, true)
  else
    let b ← b.PdoSetDevicePnpState id .Enumerated
    some (b, false)

/-- `PdoEject` with the mutex. -/
def PdoEject (b : Bus) (id : ℕ) : Option Bus := do
  let b ← b.PdoSetDevicePnpState id .Deleted
  b.PdoSetMissing id

end XenBus.Pnp
