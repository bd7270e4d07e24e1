import XenBus.Foundations.Transition
import Mathlib.Data.BitVec

/-!
# Unplugging emulated devices

`xen/unplug.c`. A driver that has taken over from an emulated device asks for the device to be unplugged at the next
boot: it counts up a value in the registry, and down again when it no longer wants it
(`UnplugIncrementValue`, `UnplugDecrementValue`). At a boot `UnplugInitialize` turns the values into requests and deletes
them, and `UnplugDevices` writes what is requested to the port of the platform device.

`unplugged_iff` follows the values over any number of boots: a type is unplugged at a boot if and only if that is
forced, or more drivers have asked for it since the boot before than have taken it back, and one of its
devices is still known. No count reaches `2 ^ 31 - 1` (`Counts`). Other drivers call `UnplugDevices` later as well;
that is not followed.
-/

namespace XenBus.Xen.Unplug

open Transition

/-! ## The port -/

/-- `UNPLUG_TYPE`. -/
inductive UnplugType
  | DISKS
  | NICS
  deriving DecidableEq

def UNPLUG_FLAGS_IDE_SCSI_DISKS : ℕ := 0x0001
def UNPLUG_FLAGS_ALL_NICS : ℕ := 0x0002
def UNPLUG_FLAGS_AUX_IDE_DISKS : ℕ := 0x0004
def UNPLUG_FLAGS_NVME_DISKS : ℕ := 0x0008
def UNPLUG_FLAGS_ALL_DISKS : ℕ := UNPLUG_FLAGS_IDE_SCSI_DISKS ||| UNPLUG_FLAGS_NVME_DISKS

/-- `UNPLUG_CONTEXT`. -/
structure Context where
  Request : UnplugType → Bool
  BootEmulated : Bool

/-- `UnplugDeviceType`: what is written to the port `0x10`. -/
def UnplugDeviceType (Context : Context) : UnplugType → ℕ
  | .DISKS => if Context.BootEmulated then UNPLUG_FLAGS_AUX_IDE_DISKS else UNPLUG_FLAGS_ALL_DISKS
  | .NICS => UNPLUG_FLAGS_ALL_NICS

/-- `UnplugDevices` after `UnplugPreamble`. That the drivers are blacklisted is only logged. -/
def UnplugDevices (Context : Context) : List ℕ :=
  ([.DISKS, .NICS].filter Context.Request).map (UnplugDeviceType Context)

/-! ## The values in the registry -/

/-- The values of one type: the count under the key `Unplug`, and whether the value under `ForceUnplug` is there and
not 0. -/
structure Value where
  Count : Option (BitVec 32)
  Force : Bool

/-- `UnplugIncrementValue`, with the outcome of the update. -/
def UnplugIncrementValue (update : Bool) (Count : Option (BitVec 32)) : Option (BitVec 32) :=
  if update then some (Count.getD 0 + 1) else Count

/-- `UnplugDecrementValue`, with the outcome of the update. The count is taken for a `LONG`. -/
def UnplugDecrementValue (update : Bool) : Option (BitVec 32) → Option (BitVec 32)
  | none => none
  | some Count => if (Count - 1).slt 0 then some Count else if update then some (Count - 1) else some Count

/-- `UnplugSetRequest`: the request, and the values afterwards. `Found` says that `UnplugCheckEnumKey` finds a device of
the type, and `delete` that `RegistryDeleteValue` succeeds. -/
def UnplugSetRequest (Found delete : Bool) (v : Value) : Bool × Value :=
  let deleted := if delete then { v with Count := none } else v
  if v.Force then (true, deleted)
  else match v.Count with
    | none => (false, v)
    | some Count => (Count ≠ 0 && Found, deleted)

/-! ## Boots -/

/-- The machine, from boot to boot. `outstanding` is not in the source: it counts the requests that have not been
taken back since the count was last deleted. -/
structure System where
  value : UnplugType → Value
  Context : Context
  outstanding : UnplugType → ℕ

inductive Action
  /-- `UnplugRequest` with `Make`. -/
  | make (type : UnplugType) (update : Bool)
  /-- `UnplugRequest` without. -/
  | revoke (type : UnplugType) (update : Bool)
  /-- Someone changes the value under `ForceUnplug`. -/
  | force (type : UnplugType) (Force : Bool)
  /-- `UnplugInitialize`. -/
  | boot (Found delete : UnplugType → Bool) (BootEmulated : Bool)

/-- The system with other values and another count for one type. -/
def System.set (s : System) (type : UnplugType) (v : Value) (outstanding : ℕ) : System :=
  { s with
    value := Function.update s.value type v
    outstanding := Function.update s.outstanding type outstanding }

def step (s : System) : Action → Option System
  | .make type update => some (s.set type
      { s.value type with Count := UnplugIncrementValue update (s.value type).Count }
      (if update then s.outstanding type + 1 else s.outstanding type))
  | .revoke type update => some (s.set type
      { s.value type with Count := UnplugDecrementValue update (s.value type).Count }
      (if update then s.outstanding type - 1 else s.outstanding type))
  | .force type Force => some (s.set type { s.value type with Force := Force } (s.outstanding type))
  | .boot Found delete BootEmulated => some {
      value := fun type => (UnplugSetRequest (Found type) (delete type) (s.value type)).2
      Context := ⟨fun type => (UnplugSetRequest (Found type) (delete type) (s.value type)).1, BootEmulated⟩
      outstanding := fun type => if delete type then 0 else s.outstanding type }

/-- A machine on which the driver has been installed. -/
def installed : System where
  value := fun _ => ⟨none, false⟩
  Context := ⟨fun _ => false, false⟩
  outstanding := fun _ => 0

/-- Fewer requests are outstanding than a `LONG` counts. -/
def Counts (s : System) (_ : Action) : Prop := ∀ type, s.outstanding type < 2 ^ 31 - 1

/-! ## The count -/

variable {s t : System} {type : UnplugType}

/-- The count in the registry is the number of outstanding requests. -/
structure Counted (v : Value) (outstanding : ℕ) : Prop where
  count : (v.Count.getD 0).toNat = outstanding
  lt : outstanding < 2 ^ 31

theorem toNat_one : (1 : BitVec 32).toNat = 1 := rfl

theorem toInt_zero : (0 : BitVec 32).toInt = 0 := rfl

theorem slt_pred {Count : BitVec 32} (h : Count.toNat < 2 ^ 31) : (Count - 1).slt 0 = true ↔ Count.toNat = 0 := by
  rw [BitVec.slt_iff_toInt_lt, BitVec.toInt_eq_toNat_cond, BitVec.toNat_sub, toNat_one, toInt_zero]
  split_ifs <;> omega

theorem Counted.increment {v : Value} {outstanding : ℕ} (h : Counted v outstanding) (hlt : outstanding < 2 ^ 31 - 1)
    (update : Bool) : Counted { v with Count := UnplugIncrementValue update v.Count }
      (if update then outstanding + 1 else outstanding) := by
  cases update with
  | false => exact h
  | true =>
    have hcount := h.count
    refine ⟨?_, by simp only [if_true]; omega⟩
    simp only [UnplugIncrementValue, if_true, Option.getD_some, BitVec.toNat_add, hcount, toNat_one]
    omega

theorem Counted.decrement {v : Value} {outstanding : ℕ} (h : Counted v outstanding) (update : Bool) :
    Counted { v with Count := UnplugDecrementValue update v.Count }
      (if update then outstanding - 1 else outstanding) := by
  obtain ⟨hcount, hlt⟩ := h
  cases hv : v.Count with
  | none =>
    rw [hv] at hcount
    obtain rfl : outstanding = 0 := hcount.symm
    exact ⟨by cases update <;> rfl, by cases update <;> decide⟩
  | some Count =>
    rw [hv, Option.getD_some] at hcount
    have hpred := slt_pred (hcount ▸ hlt)
    cases update with
    | false =>
      have hsame : UnplugDecrementValue false (some Count) = some Count := by
        simp only [UnplugDecrementValue, Bool.false_eq_true, if_false, ite_self]
      exact ⟨by rw [hsame]; exact hcount, hlt⟩
    | true =>
      refine ⟨?_, lt_of_le_of_lt (Nat.sub_le ..) hlt⟩
      simp only [UnplugDecrementValue, if_true]
      split_ifs with hneg
      · have hzero := hpred.mp hneg
        rw [Option.getD_some]
        omega
      · have hpos : Count.toNat ≠ 0 := mt hpred.mpr hneg
        rw [Option.getD_some, BitVec.toNat_sub, toNat_one]
        omega

theorem Counted.boot {v : Value} {outstanding : ℕ} (h : Counted v outstanding) (Found delete : Bool) :
    Counted (UnplugSetRequest Found delete v).2 (if delete then 0 else outstanding) := by
  have hdeleted : Counted (if delete then { v with Count := none } else v) (if delete then 0 else outstanding) := by
    cases delete with
    | false => exact h
    | true => exact ⟨rfl, Nat.two_pow_pos 31⟩
  rcases v with ⟨Count, Force⟩
  cases Force with
  | true => exact hdeleted
  | false =>
    cases Count with
    | some Count => exact hdeleted
    | none =>
      obtain rfl : outstanding = 0 := h.count.symm
      rw [ite_self]
      exact h

/-- What is requested at a boot. -/
theorem Counted.requested_iff {v : Value} {outstanding : ℕ} (h : Counted v outstanding) (Found delete : Bool) :
    (UnplugSetRequest Found delete v).1 = true ↔ v.Force = true ∨ 0 < outstanding ∧ Found = true := by
  have hcount := h.count
  unfold UnplugSetRequest
  cases hForce : v.Force with
  | true => simp
  | false =>
    cases hv : v.Count with
    | none =>
      rw [hv] at hcount
      obtain rfl : outstanding = 0 := hcount.symm
      simp
    | some Count =>
      rw [hv, Option.getD_some] at hcount
      have hzero : Count = 0 ↔ outstanding = 0 := by
        rw [← hcount, ← BitVec.toNat_inj]
        rfl
      rw [if_neg Bool.false_ne_true, or_iff_right Bool.false_ne_true, Bool.and_eq_true, decide_eq_true_eq, ne_eq, hzero,
        Nat.pos_iff_ne_zero]

theorem step_counted (h : ∀ type, Counted (s.value type) (s.outstanding type)) {a : Action} (ha : Counts s a)
    (hs : step s a = some t) : ∀ type, Counted (t.value type) (t.outstanding type) := by
  have hset : ∀ {type v outstanding}, Counted v outstanding →
      ∀ type', Counted ((s.set type v outstanding).value type') ((s.set type v outstanding).outstanding type') := by
    intro type v outstanding hv type'
    rcases eq_or_ne type' type with rfl | hne
    · simpa [System.set] using hv
    · simpa [System.set, hne] using h type'
  cases a with
  | make type update =>
    obtain rfl := Option.some.inj hs
    exact hset ((h type).increment (ha type) update)
  | revoke type update =>
    obtain rfl := Option.some.inj hs
    exact hset ((h type).decrement update)
  | force type Force =>
    obtain rfl := Option.some.inj hs
    exact hset ⟨(h type).count, (h type).lt⟩
  | boot Found delete BootEmulated =>
    obtain rfl := Option.some.inj hs
    exact fun type => (h type).boot (Found type) (delete type)

/-! ## What is unplugged -/

theorem mem_UnplugDevices (Context : Context) (flags : ℕ) :
    flags ∈ UnplugDevices Context ↔ ∃ type, Context.Request type = true ∧ UnplugDeviceType Context type = flags := by
  simp only [UnplugDevices, List.mem_map, List.mem_filter]
  refine exists_congr fun type => and_congr_left fun _ => and_iff_right ?_
  cases type <;> simp

/-- **What a boot unplugs.** Whatever drivers have asked for and taken back, over any number of boots: a type of
devices is unplugged if that is forced, or requests for it are outstanding and one of its devices is known;
and of the disks only the auxiliary ones if the system has been told to boot from the emulated ones. -/
theorem unplugged_iff (h : Reaches step Counts installed s) {Found delete : UnplugType → Bool} {BootEmulated : Bool}
    (ht : step s (.boot Found delete BootEmulated) = some t) :
    let wanted := fun type => (s.value type).Force = true ∨ 0 < s.outstanding type ∧ Found type = true
    (UNPLUG_FLAGS_ALL_NICS ∈ UnplugDevices t.Context ↔ wanted .NICS) ∧
    (UNPLUG_FLAGS_ALL_DISKS ∈ UnplugDevices t.Context ↔ wanted .DISKS ∧ BootEmulated = false) ∧
    (UNPLUG_FLAGS_AUX_IDE_DISKS ∈ UnplugDevices t.Context ↔ wanted .DISKS ∧ BootEmulated = true) := by
  have hcounted : ∀ type, Counted (s.value type) (s.outstanding type) :=
    h.invariant (P := fun s => ∀ type, Counted (s.value type) (s.outstanding type)) (fun _ => ⟨rfl, Nat.two_pow_pos 31⟩)
      fun s a t hs ha hst => step_counted hs ha hst
  intro wanted
  have hrequested : ∀ type, t.Context.Request type = true ↔ wanted type := by
    obtain rfl := Option.some.inj ht
    exact fun type => (hcounted type).requested_iff (Found type) (delete type)
  have hboot : t.Context.BootEmulated = BootEmulated := by
    obtain rfl := Option.some.inj ht
    rfl
  have hexists : ∀ flags, flags ∈ UnplugDevices t.Context ↔ wanted .DISKS ∧
      (if BootEmulated then UNPLUG_FLAGS_AUX_IDE_DISKS else UNPLUG_FLAGS_ALL_DISKS) = flags ∨
      wanted .NICS ∧ UNPLUG_FLAGS_ALL_NICS = flags := by
    intro flags
    rw [mem_UnplugDevices, ← hrequested, ← hrequested, ← hboot]
    constructor
    · rintro ⟨type, hrequest, hflags⟩
      cases type with
      | DISKS => exact .inl ⟨hrequest, hflags⟩
      | NICS => exact .inr ⟨hrequest, hflags⟩
    · rintro (⟨hrequest, hflags⟩ | ⟨hrequest, hflags⟩)
      · exact ⟨.DISKS, hrequest, hflags⟩
      · exact ⟨.NICS, hrequest, hflags⟩
  rw [hexists, hexists, hexists]
  cases BootEmulated <;> simp [UNPLUG_FLAGS_ALL_NICS, UNPLUG_FLAGS_ALL_DISKS, UNPLUG_FLAGS_AUX_IDE_DISKS,
    UNPLUG_FLAGS_IDE_SCSI_DISKS, UNPLUG_FLAGS_NVME_DISKS]

/-- A driver of a network device has asked. -/
def asked : System := installed.set .NICS ⟨some 1, false⟩ 1

theorem reaches_asked : Reaches step Counts installed asked :=
  Reaches.single (a := .make .NICS true) (fun _ => show 0 < 2 ^ 31 - 1 by omega) rfl

/-- Its device is unplugged at the next boot. -/
theorem unplugged_asked : ∃ t, step asked (.boot (fun _ => true) (fun _ => true) false) = some t ∧
    UNPLUG_FLAGS_ALL_NICS ∈ UnplugDevices t.Context :=
  ⟨_, rfl, (unplugged_iff reaches_asked rfl).1.mpr (.inr ⟨Nat.one_pos, rfl⟩)⟩

end XenBus.Xen.Unplug
