import XenBus.Foundations.CString
import Mathlib.Data.List.Nodup
import Mathlib.Data.Nat.Bitwise

/-!
# The list of the emulated devices

`xenfilt/emulated.c`: for each device below a filtered bus there is an object that other drivers ask for, by the
name of a PCI device or by the number of an IDE disk. `EmulatedIsDevicePresent` and `EmulatedIsDiskPresent` walk
the list from its head; `isDevicePresent_iff` and `isDiskPresent_iff` say what they answer.

A name comes from the PnP manager and is shorter than `MAXNAMELEN`, which the source asserts.
-/

namespace XenBus.Xenfilt

open CString

/-! ## Objects -/

/-- The bytes of a string before its `NUL`. -/
abbrev PStr := List UInt8

def MAXNAMELEN : ℕ := 128

abbrev Name := { s : PStr // s.length < MAXNAMELEN }

/-- `XENFILT_EMULATED_OBJECT_TYPE`. -/
inductive ObjectType
  | UNKNOWN
  | PCI
  | IDE
  deriving DecidableEq

/-- `XENBUS_EMULATED_ACTIVATION_STATUS`. -/
inductive ActivationStatus
  | ACTIVATE_NEUTRAL
  | FORCE_ACTIVATED
  | FORCE_DEACTIVATED
  deriving DecidableEq

/-- `XENFILT_EMULATED_DEVICE_DATA`. -/
structure DeviceData where
  DeviceID : PStr
  InstanceID : PStr
  ForceActivate : ActivationStatus
  IsEmulatedNvme : Bool
  deriving DecidableEq

/-- `XENFILT_EMULATED_OBJECT_DATA`, with the type of the object that tells which of the two it is. -/
inductive ObjectData
  | Device (Device : DeviceData)
  | Disk (Index : ℕ)
  deriving DecidableEq

/-- `XENFILT_EMULATED_OBJECT`. -/
structure Object where
  address : ℕ
  Data : ObjectData
  deriving DecidableEq

/-! ## EmulatedAddObject -/

def tolower (c : UInt8) : UInt8 := if 65 ≤ c ∧ c ≤ 90 then c + 32 else c

/-- `_stricmp(s, s') == 0`. -/
def stricmp (s s' : PStr) : Bool := s.map tolower == s'.map tolower

/-- `"PCI\\VEN_8086&DEV_5845"`. -/
def intelNvme : PStr :=
  [80, 67, 73, 92, 86, 69, 78, 95, 56, 48, 56, 54, 38, 68, 69, 86, 95, 53, 56, 52, 53]

/-- `"PCI\\VEN_1B36&DEV_0010"`. -/
def redhatNvme : PStr :=
  [80, 67, 73, 92, 86, 69, 78, 95, 49, 66, 51, 54, 38, 68, 69, 86, 95, 48, 48, 49, 48]

/-- `EmulatedSetObjectDeviceData`. -/
def EmulatedSetObjectDeviceData (DeviceID InstanceID : PStr) (CompatibleIDs : Option (List PStr))
    (ForceActivate : ActivationStatus) : DeviceData where
  DeviceID := DeviceID
  InstanceID := InstanceID
  ForceActivate := ForceActivate
  IsEmulatedNvme := (CompatibleIDs.getD []).any fun id => stricmp id intelNvme || stricmp id redhatNvme

/-- `strtoul` for a `ULONG`, in base 10. -/
def toULong (l : List UInt8) : Option (ℕ × List UInt8) := strtoul (2 ^ 32 - 1) 10 l

/-- `EmulatedSetObjectDiskData`: a number of at most 1 and a dot, the same again, and a zero. -/
def EmulatedSetObjectDiskData (InstanceID : PStr) : Option ℕ := do
  let (Controller, End) ← toULong (InstanceID ++ [0])
  if 1 < Controller ∨ End.head? ≠ some 46 then none
  else
    let (Target, End) ← toULong End.tail
    if 1 < Target ∨ End.head? ≠ some 46 then none
    else
      let (Lun, End) ← toULong End.tail
      if Lun ≠ 0 ∨ End.head? ≠ some 0 then none else some (Controller <<< 1 ||| Target)

/-- `EmulatedAddObject` where the allocation succeeds: the data of the object. -/
def EmulatedAddObject (DeviceID InstanceID : PStr) (CompatibleIDs : Option (List PStr)) (type : ObjectType)
    (ForceActivate : ActivationStatus) : Option ObjectData :=
  match type with
  | .PCI => some (.Device (EmulatedSetObjectDeviceData DeviceID InstanceID CompatibleIDs ForceActivate))
  | .IDE => (EmulatedSetObjectDiskData InstanceID).map .Disk
  | .UNKNOWN => none

/-- The second disk of the second controller. -/
example : EmulatedSetObjectDiskData [49, 46, 49, 46, 48] = some 3 := by decide

/-! ## The questions -/

/-- `EmulatedDeviceMatchesDeviceID`. -/
def EmulatedDeviceMatchesDeviceID (Device : DeviceData) : Option PStr → Bool
  | some DeviceID => stricmp DeviceID Device.DeviceID
  | none => Device.ForceActivate = .FORCE_ACTIVATED

/-- `EmulatedDeviceMatchesInstanceID`. -/
def EmulatedDeviceMatchesInstanceID (Device : DeviceData) : Option PStr → Bool
  | some InstanceID => stricmp InstanceID Device.InstanceID
  | none => true

/-- `EmulatedIsDevicePresent`: whether there is one, and whether the first one is forced to be active. -/
def EmulatedIsDevicePresent (DeviceID InstanceID : Option PStr) : List Object → Bool × ActivationStatus
  | [] => (false, .ACTIVATE_NEUTRAL)
  | Object :: Objects =>
    match Object.Data with
    | .Device Device =>
      if EmulatedDeviceMatchesDeviceID Device DeviceID ∧ EmulatedDeviceMatchesInstanceID Device InstanceID then
        (true, Device.ForceActivate)
      else EmulatedIsDevicePresent DeviceID InstanceID Objects
    | .Disk _ => EmulatedIsDevicePresent DeviceID InstanceID Objects

/-- `EmulatedIsDiskPresent`. Any NVMe controller stands for all disks. -/
def EmulatedIsDiskPresent (Index : ℕ) : List Object → Bool
  | [] => false
  | Object :: Objects =>
    match Object.Data with
    | .Disk Index' => if Index = Index' then true else EmulatedIsDiskPresent Index Objects
    | .Device Device => if Device.IsEmulatedNvme then true else EmulatedIsDiskPresent Index Objects

variable {DeviceID InstanceID : Option PStr} {Objects : List Object} {Index : ℕ}

theorem isDevicePresent_iff : (EmulatedIsDevicePresent DeviceID InstanceID Objects).1 = true ↔
    ∃ Object ∈ Objects, ∃ Device, Object.Data = .Device Device ∧
      EmulatedDeviceMatchesDeviceID Device DeviceID ∧ EmulatedDeviceMatchesInstanceID Device InstanceID := by
  induction Objects with
  | nil => simp [EmulatedIsDevicePresent]
  | cons Object Objects ih =>
    unfold EmulatedIsDevicePresent
    simp only [List.mem_cons, exists_eq_or_imp]
    cases hData : Object.Data with
    | Disk Index => simp only [reduceCtorEq, false_and, exists_false, false_or, ih]
    | Device Device =>
      simp only [ObjectData.Device.injEq, exists_eq_left']
      split_ifs with h
      · exact iff_of_true rfl (.inl h)
      · rw [ih, or_iff_right h]

theorem isDiskPresent_iff : EmulatedIsDiskPresent Index Objects = true ↔
    ∃ Object ∈ Objects, Object.Data = .Disk Index ∨
      ∃ Device, Object.Data = .Device Device ∧ Device.IsEmulatedNvme := by
  induction Objects with
  | nil => simp [EmulatedIsDiskPresent]
  | cons Object Objects ih =>
    unfold EmulatedIsDiskPresent
    simp only [List.mem_cons, exists_eq_or_imp]
    cases hData : Object.Data with
    | Disk Index' =>
      simp only [reduceCtorEq, false_and, exists_false, or_false, ObjectData.Disk.injEq]
      split_ifs with h
      · exact iff_of_true rfl (.inl h.symm)
      · rw [ih, or_iff_right (Ne.symm h)]
    | Device Device =>
      simp only [reduceCtorEq, false_or, ObjectData.Device.injEq, exists_eq_left']
      split_ifs with h
      · exact iff_of_true rfl (.inl h)
      · rw [ih, or_iff_right h]

end XenBus.Xenfilt
