import XenBus.Xenfilt.Election
import XenBus.Xenfilt.Ledger

/-!
# What others are told

The results about whole runs of the filter that rest on its accounts: what the list of the emulated devices
answers (`present_iff`, `disk_iff`), what the answers to queries name (`answers`), and how long the filter stays
(`held_back`).
-/

namespace XenBus.Xenfilt

open Transition
open Xen.Unplug (Context UnplugDevices)

variable {s t : System} {f f' g : Fdo} {c : Shared} {w : World} {Unplug : Context} {actions : List Action}

/-! ## Emulated devices -/

theorem Sound.mem_emulated (h : Sound s) (Object : Object) :
    Object ∈ s.Emulated ↔ ∃ f ∈ s.List, ∃ p ∈ f.List, p.EmulatedObject = Object := by
  rw [h.objects.mem_iff, Xenfilt.objects, List.mem_flatMap]
  exact exists_congr fun f => and_congr_right fun _ => List.mem_map

/-- The object of a filter, by the type of its bus. -/
theorem Sound.named (h : Sound s) (hf : f ∈ s.List) {p : Pdo} (hp : p ∈ f.List) : p.Named f.type :=
  ((h.fdos f hf).pdos p hp).named

/-- **Which devices are present.** In every run the list has the object of each filter, once, and no others; and a
driver that asks for an emulated device is told that it is there exactly if some filtered PCI bus has a filter for a
device of that name. -/
theorem present_iff (h : Reaches step Free (DriverEntry Unplug) s) (DeviceID InstanceID : PStr) :
    s.Emulated.Perm (objects s.List) ∧ (s.Emulated.map (·.address)).Nodup ∧
      ((EmulatedIsDevicePresent (some DeviceID) (some InstanceID) s.Emulated).1 = true ↔
        ∃ f ∈ s.List, f.type = .PCI ∧
          ∃ p ∈ f.List, stricmp DeviceID p.DeviceID ∧ stricmp InstanceID p.InstanceID) := by
  have hsound := sound_of_reaches h
  refine ⟨hsound.objects, hsound.distinct, ?_⟩
  rw [isDevicePresent_iff]
  constructor
  · rintro ⟨Object, hObject, Device, hData, hmatch⟩
    obtain ⟨f, hf, p, hp, rfl⟩ := (hsound.mem_emulated Object).mp hObject
    have hnamed := hsound.named hf hp
    unfold Pdo.Named at hnamed
    cases htype : f.type with
    | PCI =>
      rw [htype] at hnamed
      obtain ⟨Device', hData', hDeviceID, hInstanceID⟩ := hnamed
      obtain rfl := ObjectData.Device.inj (hData.symm.trans hData')
      exact ⟨f, hf, htype, p, hp, hDeviceID ▸ hmatch.1, hInstanceID ▸ hmatch.2⟩
    | IDE =>
      rw [htype] at hnamed
      obtain ⟨Index, hIndex, -⟩ := hnamed
      cases hData.symm.trans hIndex
    | UNKNOWN => exact absurd htype (hsound.fdos f hf).type
  · rintro ⟨f, hf, htype, p, hp, hmatch⟩
    have hnamed := hsound.named hf hp
    rw [htype] at hnamed
    obtain ⟨Device, hData, hDeviceID, hInstanceID⟩ := hnamed
    refine ⟨p.EmulatedObject, (hsound.mem_emulated _).mpr ⟨f, hf, p, hp, rfl⟩, Device, hData, ?_, ?_⟩
    · rw [EmulatedDeviceMatchesDeviceID, hDeviceID]
      exact hmatch.1
    · rw [EmulatedDeviceMatchesInstanceID, hInstanceID]
      exact hmatch.2

/-- The device of the bus is there, by its name in other letters. -/
theorem present_reported : reportedEnd.Emulated.Perm (objects reportedEnd.List) ∧
    ∃ f ∈ reportedEnd.List, f.type = .PCI ∧ ∃ p ∈ f.List, stricmp [112] p.DeviceID ∧ stricmp [48] p.InstanceID := by
  obtain ⟨hobjects, -, hpresent⟩ := present_iff reaches_reportedEnd [112] [48]
  exact ⟨hobjects, hpresent.mp (by decide)⟩

/-- The device behind a filter is an NVMe controller. -/
def Pdo.IsEmulatedNvme (p : Pdo) : Prop :=
  ∃ Device, p.EmulatedObject.Data = .Device Device ∧ Device.IsEmulatedNvme

/-- **Which disks are present.** A disk is present exactly if some filtered IDE channel has a filter for it, or some
filtered PCI bus one for an NVMe controller. -/
theorem disk_iff (h : Reaches step Free (DriverEntry Unplug) s) (Index : ℕ) :
    EmulatedIsDiskPresent Index s.Emulated = true ↔
      (∃ f ∈ s.List, f.type = .IDE ∧ ∃ p ∈ f.List, EmulatedSetObjectDiskData p.InstanceID = some Index) ∨
        ∃ f ∈ s.List, f.type = .PCI ∧ ∃ p ∈ f.List, p.IsEmulatedNvme := by
  have hsound := sound_of_reaches h
  rw [isDiskPresent_iff]
  constructor
  · rintro ⟨Object, hObject, hData⟩
    obtain ⟨f, hf, p, hp, rfl⟩ := (hsound.mem_emulated Object).mp hObject
    have hnamed := hsound.named hf hp
    unfold Pdo.Named at hnamed
    cases htype : f.type with
    | PCI =>
      rw [htype] at hnamed
      obtain ⟨Device, hDevice, -⟩ := hnamed
      rcases hData with hData | hNvme
      · cases hDevice.symm.trans hData
      · exact .inr ⟨f, hf, htype, p, hp, hNvme⟩
    | IDE =>
      rw [htype] at hnamed
      obtain ⟨Index', hIndex, hdisk⟩ := hnamed
      rcases hData with hData | ⟨Device, hDevice, -⟩
      · obtain rfl := ObjectData.Disk.inj (hData.symm.trans hIndex)
        exact .inl ⟨f, hf, htype, p, hp, hdisk⟩
      · cases hDevice.symm.trans hIndex
    | UNKNOWN => exact absurd htype (hsound.fdos f hf).type
  · rintro (⟨f, hf, htype, p, hp, hdisk⟩ | ⟨f, hf, -, p, hp, hNvme⟩)
    · have hnamed := hsound.named hf hp
      rw [htype] at hnamed
      obtain ⟨Index', hData, hdisk'⟩ := hnamed
      obtain rfl := Option.some.inj (hdisk.symm.trans hdisk')
      exact ⟨p.EmulatedObject, (hsound.mem_emulated _).mpr ⟨f, hf, p, hp, rfl⟩, .inl hData⟩
    · exact ⟨p.EmulatedObject, (hsound.mem_emulated _).mpr ⟨f, hf, p, hp, rfl⟩, .inr hNvme⟩

/-- A machine with the second disk of the second controller, and with NVMe controllers. -/
def disks : World := { here with
  ActiveDeviceID := none
  InstanceID := fun _ => ⟨[49, 46, 49, 46, 48], by decide⟩
  CompatibleIDs := fun _ => some [intelNvme] }

/-- An IDE channel has been enumerated. -/
def diskEnd : System :=
  (run step (DriverEntry ⟨fun _ => true, false⟩) [.addDevice .IDE, .query 0 disks [7] true]).get (by decide)

/-- A PCI bus has been enumerated. -/
def nvmeEnd : System :=
  (run step (DriverEntry ⟨fun _ => true, false⟩) [.addDevice .PCI, .query 0 disks [7] true]).get (by decide)

/-- The disk of the channel is present and no other one, and all disks are with an NVMe controller. -/
theorem disk_enumerated :
    (∃ f ∈ diskEnd.List, f.type = .IDE ∧ ∃ p ∈ f.List, EmulatedSetObjectDiskData p.InstanceID = some 3) ∧
      EmulatedIsDiskPresent 0 diskEnd.Emulated = false ∧ EmulatedIsDiskPresent 0 nvmeEnd.Emulated = true := by
  have hdisk : Reaches step Free (DriverEntry ⟨fun _ => true, false⟩) diskEnd :=
    reaches_of_run (Option.some_get _).symm
  have hnvme : Reaches step Free (DriverEntry ⟨fun _ => true, false⟩) nvmeEnd :=
    reaches_of_run (Option.some_get _).symm
  have hnoPCI : ¬ ∃ f ∈ diskEnd.List, f.type = .PCI ∧ ∃ p ∈ f.List, p.IsEmulatedNvme := by
    rintro ⟨f, hf, htype, -⟩
    revert f
    decide
  have hcontroller : ∃ f ∈ nvmeEnd.List, f.type = .PCI ∧ ∃ p ∈ f.List, p.IsEmulatedNvme :=
    ⟨_, List.mem_cons_self, rfl, _, List.mem_cons_self, _, rfl, by decide⟩
  exact ⟨((disk_iff hdisk 3).mp (by decide)).resolve_right hnoPCI, by decide, (disk_iff hnvme 0).mpr (.inr hcontroller)⟩

/-! ## What the drivers name -/

/-- What the driver of the bus has named after an action: a query is one more answer of it if `FdoEnumerate` runs to
its end. -/
def Action.names (fdo : ℕ) (devices : List ℕ) : Action → List ℕ
  | .query fdo' _ Relations memory => if fdo' = fdo ∧ Relations ≠ [] ∧ memory then Relations else devices
  | _ => devices

/-- What the driver of the bus named the last time that `FdoEnumerate` ran to its end for it. -/
def named (fdo : ℕ) (actions : List Action) : List ℕ := actions.foldl (Action.names fdo) []

theorem named_append (fdo : ℕ) (actions : List Action) (a : Action) :
    named fdo (actions ++ [a]) = a.names fdo (named fdo actions) := by
  rw [named, List.foldl_append]
  rfl

/-- The devices of the buses are those that their drivers have named, and no bus has been there that is to come. -/
structure Known (actions : List Action) (s : System) : Prop where
  devices : ∀ f ∈ s.List, f.devices = named f.address actions
  fresh : ∀ fdo, s.next ≤ fdo → named fdo actions = []

/-- The drivers have named nothing new. -/
structure Kept (s t : System) : Prop where
  next : s.next ≤ t.next
  devices : ∀ g ∈ t.List, ∃ f ∈ s.List, g.address = f.address ∧ g.devices = f.devices

theorem Kept.put (hf : f ∈ s.List) (haddress : f'.address = f.address) (hdevices : f'.devices = f.devices)
    (hnext : s.next ≤ c.next) : Kept s (s.put c f') where
  next := hnext
  devices g hg := by
    rcases mem_put hg with rfl | hg
    · exact ⟨f, hf, haddress, hdevices⟩
    · exact ⟨g, hg, rfl, rfl⟩

theorem Kept.set (hf : f ∈ s.List) (haddress : f'.address = f.address) (hdevices : f'.devices = f.devices) :
    Kept s (s.set f') :=
  Kept.put (c := s.shared f') hf haddress hdevices le_rfl

theorem Kept.settle (h : Kept s t) (address : ℕ) : Kept s (t.settle address) where
  next := by
    unfold System.settle
    cases t.get address with
    | none => exact h.next
    | some f =>
      dsimp only
      split_ifs <;> exact h.next
  devices g hg := h.devices g ((settle_frame t address).2.2.2 g hg)

theorem Kept.emit (h : Kept s t) (event : Event) : Kept s (t.emit event) := ⟨h.next, h.devices⟩

/-- The actions after which a driver may have named others. -/
def Action.naming : Action → Bool
  | .addDevice _ | .query _ _ _ _ => true
  | _ => false

theorem step_kept {a : Action} (ha : a.naming = false) (hs : step s a = some t) : Kept s t := by
  cases a with
  | addDevice _ | query _ _ _ _ => cases ha
  | fdoRequest fdo minor =>
    obtain ⟨f, -, hf, -, -, rfl⟩ := onFdo_ite_eq_some hs
    exact .set hf rfl rfl
  | setEnumerated fdo =>
    obtain ⟨f, -, hf, -, -, rfl⟩ := onFdo_ite_eq_some hs
    apply Kept.emit
    apply Kept.set hf
    · rfl
    · rfl
  | setFilterState fdo w =>
    obtain ⟨f, -, hf, -, -, rfl⟩ := onFdo_ite_eq_some hs
    obtain ⟨hList, -, hnext⟩ := DriverSetFilterState_frame s w
    have hset : Kept (s.DriverSetFilterState w) ((s.DriverSetFilterState w).set { f with stage := .reading }) := by
      apply Kept.set (hList.symm ▸ hf)
      · rfl
      · rfl
    exact ⟨hnext ▸ hset.next, hList ▸ hset.devices⟩
  | getFilterState fdo =>
    obtain ⟨f, -, hf, -, -, rfl⟩ := onFdo_ite_eq_some hs
    exact .set hf rfl rfl
  | answer fdo memory =>
    obtain ⟨f, -, hf, -, hbody⟩ := onFdo_eq_some hs
    cases hstage : f.stage with
    | answering State =>
      rw [hstage] at hbody
      obtain rfl := Option.some.inj hbody
      have hidle : Kept s (s.set { f with stage := .idle }) := by
        apply Kept.set hf
        · rfl
        · rfl
      unfold System.answer
      dsimp only
      split_ifs
      · apply Kept.emit
        apply Kept.put hf
        · rfl
        · rfl
        · exact (report_walked f.type (s.shared f) f.List).next_eq.ge
      · apply Kept.emit
        apply Kept.emit
        exact hidle
      · exact hidle
    | idle | enumerated | setting | reading =>
      rw [hstage] at hbody
      cases hbody
  | removeDevice fdo =>
    obtain ⟨f, -, hf, -, -, rfl⟩ := onFdo_ite_eq_some hs
    unfold System.FdoRemoveDevice
    dsimp only
    split_ifs
    · exact .put hf rfl rfl (remove_walked f.type (s.shared f) f.List).next_eq.ge
    · exact .set hf rfl rfl
  | releaseDevice fdo =>
    obtain ⟨f, -, hf, -, -, rfl⟩ := onFdo_ite_eq_some hs
    apply Kept.settle
    apply Kept.set hf
    · rfl
    · rfl
  | pdoRequest fdo pdo minor =>
    obtain ⟨f, p, -, hf, -, -, -, rfl⟩ := onPdo_ite_eq_some hs
    exact .set hf rfl rfl
  | removePdo fdo pdo =>
    obtain ⟨f, p, -, hf, -, -, -, rfl⟩ := onPdo_ite_eq_some hs
    have hnext : s.next ≤ (PdoRemoveDevice (s.shared f) p).1.next := by
      unfold PdoRemoveDevice
      split_ifs <;> exact le_rfl
    unfold System.PdoRemoveDevice
    dsimp only
    have hsettled : ∀ List, Kept s ((s.put (PdoRemoveDevice (s.shared f) p).1
        { f with List := List }).settle f.address) := by
      intro List
      apply Kept.settle
      apply Kept.put hf
      · rfl
      · rfl
      · exact hnext
    split_ifs
    · exact (hsettled _).emit _
    · exact hsettled _
  | ejectPdo fdo pdo =>
    obtain ⟨f, p, -, hf, -, -, -, rfl⟩ := onPdo_ite_eq_some hs
    exact .set hf rfl rfl
  | ejectedPdo fdo pdo =>
    obtain ⟨f, p, -, hf, -, -, -, rfl⟩ := onPdo_ite_eq_some hs
    apply Kept.settle
    apply Kept.put hf
    · rfl
    · rfl
    · exact le_rfl

theorem Known.kept (h : Known actions s) (hst : Kept s t) {a : Action} (ha : ∀ fdo devices, a.names fdo devices = devices) :
    Known (actions ++ [a]) t where
  devices g hg := by
    obtain ⟨f, hf, haddress, hdevices⟩ := hst.devices g hg
    rw [named_append, ha, haddress, hdevices, h.devices f hf]
  fresh fdo hfdo := by
    rw [named_append, ha, h.fresh fdo (hst.next.trans hfdo)]

/-- What is on the list after a section of the bus: what it leaves, and the other buses. -/
theorem mem_put_other (hg : g ∈ (s.put c f').List) :
    g = { f' with References := c.References } ∨ g ∈ s.List ∧ g.address ≠ f'.address := by
  obtain ⟨f, hf, heq⟩ := List.mem_map.mp hg
  dsimp only at heq
  split_ifs at heq with hne
  · exact .inl heq.symm
  · exact .inr (heq ▸ ⟨hf, hne⟩)

theorem Known.query (h : Known actions s) (hsound : Sound s) (hf : f ∈ s.List) (w : World) (Relations : List ℕ)
    (memory : Bool) : Known (actions ++ [.query f.address w Relations memory])
      (s.FdoQueryDeviceRelations w Relations memory f) := by
  have hbelow := hsound.fdoBelow f hf
  unfold System.FdoQueryDeviceRelations
  split_ifs with hnamed
  · have hnext := FdoEnumerate_next_le w f.type (s.shared f) f.List Relations
    constructor
    · intro g hg
      rw [named_append]
      rcases mem_put_other hg with rfl | ⟨hg, hne⟩
      · exact (if_pos ⟨rfl, hnamed⟩).symm
      · exact (h.devices g hg).trans (if_neg fun heq => hne heq.1.symm).symm
    · intro fdo hfdo
      have hold : s.next ≤ fdo := hnext.trans hfdo
      rw [named_append, Action.names, if_neg fun heq => absurd heq.1 (hbelow.trans_le hold).ne, h.fresh fdo hold]
  · have hset : Kept s (s.set { f with stage := .reading }) := by
      apply Kept.set hf
      · rfl
      · rfl
    exact h.kept hset fun fdo devices => if_neg fun heq => hnamed heq.2

theorem step_known (h : Known actions s) (hsound : Sound s) {a : Action} (hs : step s a = some t) :
    Known (actions ++ [a]) t := by
  cases a with
  | addDevice type =>
    simp only [step, Option.ite_none_right_eq_some, Option.some_inj] at hs
    obtain ⟨-, rfl⟩ := hs
    constructor
    · intro g hg
      rw [named_append]
      rcases List.mem_append.mp hg with hg | hg
      · exact h.devices g hg
      · rw [List.mem_singleton.mp hg]
        exact (h.fresh s.next le_rfl).symm
    · intro fdo hfdo
      rw [named_append]
      exact h.fresh fdo ((Nat.le_succ _).trans hfdo)
  | query fdo w Relations memory =>
    obtain ⟨f, -, hf, rfl, -, rfl⟩ := onFdo_ite_eq_some hs
    exact h.query hsound hf w Relations memory
  | _ => exact h.kept (step_kept rfl hs) fun _ _ => rfl

theorem known_of_run (h : run step (DriverEntry Unplug) actions = some s) : Known actions s := by
  induction actions using List.reverseRecOn generalizing s with
  | nil =>
    obtain rfl := Option.some.inj h
    exact ⟨fun f hf => absurd hf List.not_mem_nil, fun _ _ => rfl⟩
  | append_singleton actions a ih =>
    rw [run_concat] at h
    obtain ⟨t, ht, hstep⟩ := Option.bind_eq_some_iff.mp h
    exact step_known (ih ht) (sound_of_reaches (reaches_of_run ht)) hstep

/-! ## Answers -/

/-- An answer names a device once, and only devices that the driver of the bus has named. -/
def Truthful (actions : List Action) : Event → Prop
  | .answered fdo devices Relations =>
    devices = named fdo actions ∧ Relations.Nodup ∧ ∀ device ∈ Relations, device ∈ devices
  | _ => True

/-- What has happened from one state to another is all of a kind. -/
def Logged (P : Event → Prop) (s t : System) : Prop := ∃ events, t.log = s.log ++ events ∧ ∀ e ∈ events, P e

theorem logged_of_eq {P : Event → Prop} (h : t.log = s.log) : Logged P s t :=
  ⟨[], by rw [h, List.append_nil], fun _ he => absurd he List.not_mem_nil⟩

theorem Logged.emit {P : Event → Prop} (h : Logged P s t) {event : Event} (hevent : P event) :
    Logged P s (t.emit event) := by
  obtain ⟨events, hlog, hall⟩ := h
  refine ⟨events ++ [event], ?_, fun e he => ?_⟩
  · rw [System.emit, hlog, List.append_assoc]
  · rcases List.mem_append.mp he with he | he
    · exact hall e he
    · exact List.mem_singleton.mp he ▸ hevent

theorem Still.logged (hst : Still s t) : Logged (Truthful actions) s t := by
  rcases hst.log with hlog | ⟨fdo, hlog⟩
  · exact logged_of_eq hlog
  · refine ⟨_, hlog, fun e he => ?_⟩
    rw [List.mem_singleton.mp he]
    trivial

theorem Known.answer (h : Known actions s) (hsound : Sound s) (hf : f ∈ s.List) (State : FilterState)
    (memory : Bool) : Logged (Truthful actions) s (s.answer State memory f) := by
  have hfdo := hsound.fdos f hf
  have hdevices := h.devices f hf
  unfold System.answer
  dsimp only
  split_ifs
  · apply Logged.emit
    · exact logged_of_eq rfl
    · show _ ∧ (report _ f.List).2.2.Nodup ∧ ∀ device ∈ (report _ f.List).2.2, device ∈ f.devices
      rw [(report_relations hfdo.pdos).1]
      exact ⟨hdevices, hfdo.nodup, hfdo.named⟩
  · apply Logged.emit
    · apply Logged.emit
      · exact logged_of_eq rfl
      · exact ⟨hdevices, List.nodup_nil, fun _ hdevice => absurd hdevice List.not_mem_nil⟩
    · trivial
  · exact logged_of_eq rfl

theorem step_logged (h : Known actions s) (hsound : Sound s) {a : Action} (hs : step s a = some t) :
    Logged (Truthful actions) s t := by
  cases a with
  | setEnumerated fdo =>
    obtain ⟨f, -, -, -, -, rfl⟩ := onFdo_ite_eq_some hs
    apply Logged.emit
    · exact logged_of_eq rfl
    · trivial
  | setFilterState fdo w =>
    obtain ⟨f, -, -, -, -, rfl⟩ := onFdo_ite_eq_some hs
    show Logged _ s (s.DriverSetFilterState w)
    unfold System.DriverSetFilterState
    cases s.FilterState with
    | ENABLED =>
      dsimp only
      split_ifs
      · apply Logged.emit
        · unfold System.unplug
          split_ifs
          · apply Logged.emit
            · exact logged_of_eq rfl
            · trivial
          · exact logged_of_eq rfl
        · trivial
      · exact logged_of_eq rfl
    | PENDING =>
      apply Logged.emit
      · exact logged_of_eq rfl
      · trivial
    | DISABLED => exact logged_of_eq rfl
  | getFilterState fdo =>
    obtain ⟨f, -, -, -, -, rfl⟩ := onFdo_ite_eq_some hs
    exact logged_of_eq rfl
  | answer fdo memory =>
    obtain ⟨f, -, hf, -, hbody⟩ := onFdo_eq_some hs
    cases hstage : f.stage with
    | answering State =>
      rw [hstage] at hbody
      obtain rfl := Option.some.inj hbody
      exact h.answer hsound hf State memory
    | idle | enumerated | setting | reading =>
      rw [hstage] at hbody
      cases hbody
  | _ => exact (step_still rfl hs).logged

/-- **What an answer names.** In every run each answer names a device once, and only devices that the driver of that
bus named the last time that `FdoEnumerate` ran to its end for it. -/
theorem answers (hrun : run step (DriverEntry Unplug) actions = some s) {a : Action} (hs : step s a = some t) :
    ∃ events, t.log = s.log ++ events ∧ ∀ fdo devices Relations, .answered fdo devices Relations ∈ events →
      devices = named fdo actions ∧ Relations.Nodup ∧ ∀ device ∈ Relations, device ∈ devices := by
  obtain ⟨events, hlog, hall⟩ := step_logged (known_of_run hrun) (sound_of_reaches (reaches_of_run hrun)) hs
  exact ⟨events, hlog, fun fdo devices Relations hmem => hall _ hmem⟩

/-- A bus is queried twice, and once more where the allocation in `FdoEnumerate` fails. -/
def failedRun : List Action :=
  .addDevice .PCI :: (queried ++ queried ++ [.query 0 here [9] false, .getFilterState 0])

def failedEnd : System := (run step (DriverEntry ⟨fun _ => true, false⟩) failedRun).get (by decide)

/-- The answer then. -/
def failedNext : System := (step failedEnd (.answer 0 true)).get (by decide)

/-- It names the device that was there before. -/
theorem answers_failed : failedNext.log = failedEnd.log ++ [.answered 0 [7] [7]] ∧ [7] = named 0 failedRun ∧
    ([7] : List ℕ).Nodup := by
  have hrun : run step (DriverEntry ⟨fun _ => true, false⟩) failedRun = some failedEnd := (Option.some_get _).symm
  have hstep : step failedEnd (.answer 0 true) = some failedNext := (Option.some_get _).symm
  have hlog : failedNext.log = failedEnd.log ++ [.answered 0 [7] [7]] := by decide
  obtain ⟨events, hevents, hall⟩ := answers hrun hstep
  obtain rfl := List.append_cancel_left (hlog.symm.trans hevents)
  obtain ⟨hdevices, hnodup, -⟩ := hall 0 [7] [7] List.mem_cons_self
  exact ⟨hlog, hdevices, hnodup⟩

/-! ## A bus that is never enumerated -/

variable {fdo : ℕ}

/-- The driver of the bus names no device that is enumerated, and the bus is not taken away. -/
def Silent (fdo : ℕ) (_ : System) : Action → Prop
  | .query fdo' _ Relations memory => fdo' = fdo → Relations = [] ∨ memory = false
  | .releaseDevice fdo' => fdo' ≠ fdo
  | _ => True

/-- The bus has not been enumerated, and no query is about to say that it has. -/
structure Unheard (fdo : ℕ) (f : Fdo) : Prop where
  address : f.address = fdo
  enumerated : f.Enumerated = false
  own : f.own = 1
  stage : f.stage ≠ .enumerated ∧ f.stage ≠ .setting

/-- The bus is on the list. -/
def Listed (fdo : ℕ) (s : System) : Prop := ∃ f ∈ s.List, Unheard fdo f

/-- Two buses on the list with one address are one. -/
theorem Sound.eq_of_address (h : Sound s) (hf : f ∈ s.List) (hg : g ∈ s.List) (heq : g.address = f.address) : g = f :=
  List.inj_on_of_nodup_map h.addresses hg hf heq

theorem Listed.put (h : Listed fdo s) (hs : Sound s) (hf : f ∈ s.List) (haddress : f'.address = f.address)
    (hunheard : Unheard fdo f → Unheard fdo { f' with References := c.References }) : Listed fdo (s.put c f') := by
  obtain ⟨g, hg, hheard⟩ := h
  by_cases heq : g.address = f.address
  · obtain rfl := hs.eq_of_address hf hg heq
    exact ⟨_, List.mem_map.mpr ⟨g, hg, if_pos haddress.symm⟩, hunheard hheard⟩
  · exact ⟨g, List.mem_map.mpr ⟨g, hg, if_neg fun hne => heq (hne.trans haddress)⟩, hheard⟩

theorem Listed.set (h : Listed fdo s) (hs : Sound s) (hf : f ∈ s.List) (haddress : f'.address = f.address)
    (hunheard : Unheard fdo f → Unheard fdo f') : Listed fdo (s.set f') :=
  Listed.put (c := s.shared f') h hs hf haddress hunheard

/-- Another bus is destroyed, or this one has references left. -/
theorem Listed.settle (h : Listed fdo s) {address : ℕ}
    (href : address = fdo → ∀ f ∈ s.List, f.address = fdo → f.References ≠ 0) : Listed fdo (s.settle address) := by
  obtain ⟨g, hg, hheard⟩ := h
  unfold System.settle
  cases hget : s.get address with
  | none => exact ⟨g, hg, hheard⟩
  | some f =>
    obtain ⟨hf, hfaddress⟩ := get_mem hget
    dsimp only
    split_ifs with hzero
    · refine ⟨g, List.mem_filter.mpr ⟨hg, ?_⟩, hheard⟩
      have hne : g.address ≠ address := by
        intro heq
        have haddress := heq.symm.trans hheard.address
        exact href haddress f hf (hfaddress.trans haddress) hzero
      simpa using hne
    · exact ⟨g, hg, hheard⟩

/-- What is on the list after a section of the bus has the references of the section. -/
theorem references_put (haddress : f'.address = f.address) (hc : c.References ≠ 0) :
    f.address = fdo → ∀ g ∈ (s.put c f').List, g.address = fdo → g.References ≠ 0 := by
  intro hfdo g hg hgaddress
  obtain ⟨f₀, hf₀, rfl⟩ := List.mem_map.mp hg
  dsimp only at hgaddress ⊢
  split_ifs at hgaddress ⊢ with heq
  · exact hc
  · exact absurd (hgaddress.trans (hfdo.symm.trans haddress.symm)) heq

theorem Listed.stage (h : Listed fdo s) (hs : Sound s) (hf : f ∈ s.List) {stage : Stage} {Dx : Dx}
    (hstage : f.address = fdo → f.stage ≠ .enumerated ∧ f.stage ≠ .setting → stage ≠ .enumerated ∧ stage ≠ .setting) :
    Listed fdo (s.set { f with
      stage := stage
      Dx := Dx }) := by
  apply h.set hs hf
  · rfl
  · exact fun hheard => ⟨hheard.address, hheard.enumerated, hheard.own, hstage hheard.address hheard.stage⟩

/-- `PdoRemoveDevice` and the end of `PdoEject` leave the reference of a bus to itself. -/
theorem Listed.section (h : Listed fdo s) (hs : Sound s) (hf : f ∈ s.List) {Pdos : List Pdo} {address : ℕ}
    (haddress : address = f.address) (hc : f.own = 1 → c.References ≠ 0) :
    Listed fdo ((s.put c { f with List := Pdos }).settle address) := by
  have hput : Listed fdo (s.put c { f with List := Pdos }) := by
    apply h.put hs hf
    · rfl
    · exact fun hheard => ⟨hheard.address, hheard.enumerated, hheard.own, hheard.stage⟩
  apply hput.settle
  intro hfdo
  obtain ⟨g, hg, hheard⟩ := h
  obtain rfl := hs.eq_of_address hf hg (hheard.address.trans (hfdo.symm.trans haddress))
  apply references_put
  · rfl
  · exact hc hheard.own
  · exact hheard.address

theorem step_listed (hs : Sound s) (h : Listed fdo s) (henabled : s.FilterState = .ENABLED) {a : Action}
    (ha : Silent fdo s a) (hst : step s a = some t) : Listed fdo t ∧ t.FilterState = .ENABLED := by
  have hone : ∀ f ∈ s.List, f.own = 1 → f.References = 1 + f.List.length := fun f hf hown => by
    rw [hs.references f hf, hown]
  cases a with
  | addDevice type =>
    have hstill := step_still (a := .addDevice type) rfl hst
    simp only [step, Option.ite_none_right_eq_some, Option.some_inj] at hst
    obtain ⟨-, rfl⟩ := hst
    obtain ⟨f, hf, hheard⟩ := h
    exact ⟨⟨f, List.mem_append_left _ hf, hheard⟩, hstill.state.trans henabled⟩
  | fdoRequest fdo' minor =>
    have hstill := step_still (a := .fdoRequest fdo' minor) rfl hst
    obtain ⟨f, -, hf, -, -, rfl⟩ := onFdo_ite_eq_some hst
    exact ⟨h.stage hs hf fun _ => id, hstill.state.trans henabled⟩
  | query fdo' w Relations memory =>
    have hstill := step_still (a := .query fdo' w Relations memory) rfl hst
    obtain ⟨f, -, hf, rfl, -, rfl⟩ := onFdo_ite_eq_some hst
    refine ⟨?_, hstill.state.trans henabled⟩
    unfold System.FdoQueryDeviceRelations
    split_ifs with hnamed
    · -- The bus is another one.
      apply h.put hs hf
      · rfl
      · intro hheard
        rcases ha hheard.address with hnone | hfail
        · exact absurd hnone hnamed.1
        · rw [hfail] at hnamed
          exact absurd hnamed.2 Bool.false_ne_true
    · exact h.stage hs hf fun _ _ => ⟨Stage.noConfusion, Stage.noConfusion⟩
  | setEnumerated fdo' =>
    obtain ⟨f, -, hf, -, hstage, rfl⟩ := onFdo_ite_eq_some hst
    refine ⟨?_, henabled⟩
    show Listed fdo (s.set _)
    apply h.set hs hf
    · rfl
    · exact fun hheard => absurd hstage hheard.stage.1
  | setFilterState fdo' w =>
    obtain ⟨f, -, hf, -, hstage, rfl⟩ := onFdo_ite_eq_some hst
    have hnotall : ¬ s.List.all (·.Enumerated) = true := by
      obtain ⟨g, hg, hheard⟩ := h
      intro hall
      have hE := List.all_eq_true.mp hall g hg
      rw [hheard.enumerated] at hE
      exact Bool.false_ne_true hE
    have hsame : s.DriverSetFilterState w = s := by
      unfold System.DriverSetFilterState
      rw [henabled]
      exact if_neg hnotall
    rw [hsame]
    refine ⟨h.stage hs hf fun _ hstage' => absurd hstage hstage'.2, henabled⟩
  | getFilterState fdo' =>
    obtain ⟨f, -, hf, -, -, rfl⟩ := onFdo_ite_eq_some hst
    exact ⟨h.stage hs hf fun _ _ => ⟨Stage.noConfusion, Stage.noConfusion⟩, henabled⟩
  | answer fdo' memory =>
    obtain ⟨f, -, hf, -, hbody⟩ := onFdo_eq_some hst
    have hidle : Listed fdo (s.set { f with stage := .idle }) :=
      h.stage hs hf fun _ _ => ⟨Stage.noConfusion, Stage.noConfusion⟩
    cases hstage : f.stage with
    | answering State =>
      rw [hstage] at hbody
      obtain rfl := Option.some.inj hbody
      unfold System.answer
      dsimp only
      split_ifs
      · refine ⟨?_, henabled⟩
        show Listed fdo (s.put _ _)
        apply h.put hs hf
        · rfl
        · exact fun hheard => ⟨hheard.address, hheard.enumerated, hheard.own, Stage.noConfusion,
            Stage.noConfusion⟩
      · exact ⟨hidle, henabled⟩
      · exact ⟨hidle, henabled⟩
    | idle | enumerated | setting | reading =>
      rw [hstage] at hbody
      cases hbody
  | removeDevice fdo' =>
    have hstill := step_still (a := .removeDevice fdo') rfl hst
    obtain ⟨f, -, hf, -, -, rfl⟩ := onFdo_ite_eq_some hst
    refine ⟨?_, hstill.state.trans henabled⟩
    unfold System.FdoRemoveDevice
    dsimp only
    split_ifs
    · apply h.put hs hf
      · rfl
      · exact fun hheard => ⟨hheard.address, hheard.enumerated, hheard.own, hheard.stage⟩
    · exact h.stage hs hf fun _ => id
  | releaseDevice fdo' =>
    have hstill := step_still (a := .releaseDevice fdo') rfl hst
    obtain ⟨f, -, hf, rfl, -, rfl⟩ := onFdo_ite_eq_some hst
    refine ⟨?_, hstill.state.trans henabled⟩
    apply Listed.settle
    · apply h.set hs hf
      · rfl
      · exact fun hheard => absurd hheard.address ha
    · exact fun heq => absurd heq ha
  | pdoRequest fdo' pdo minor =>
    have hstill := step_still (a := .pdoRequest fdo' pdo minor) rfl hst
    obtain ⟨f, p, -, hf, -, -, -, rfl⟩ := onPdo_ite_eq_some hst
    refine ⟨?_, hstill.state.trans henabled⟩
    apply h.set hs hf
    · rfl
    · exact fun hheard => ⟨hheard.address, hheard.enumerated, hheard.own, hheard.stage⟩
  | removePdo fdo' pdo =>
    have hstill := step_still (a := .removePdo fdo' pdo) rfl hst
    obtain ⟨f, p, -, hf, -, hp, -, rfl⟩ := onPdo_ite_eq_some hst
    refine ⟨?_, hstill.state.trans henabled⟩
    have hpos := List.length_pos_of_mem (KeyedList.mem_of_lookup hp).1
    have hc : f.own = 1 → (PdoRemoveDevice (s.shared f) p).1.References ≠ 0 := by
      intro hown
      have := hone f hf hown
      unfold PdoRemoveDevice
      split_ifs <;> simp only [PdoDestroy, System.shared] <;> omega
    unfold System.PdoRemoveDevice
    dsimp only
    split_ifs
    · exact h.section hs hf rfl hc
    · exact h.section hs hf rfl hc
  | ejectPdo fdo' pdo =>
    have hstill := step_still (a := .ejectPdo fdo' pdo) rfl hst
    obtain ⟨f, p, -, hf, -, -, -, rfl⟩ := onPdo_ite_eq_some hst
    refine ⟨?_, hstill.state.trans henabled⟩
    apply h.set hs hf
    · rfl
    · exact fun hheard => ⟨hheard.address, hheard.enumerated, hheard.own, hheard.stage⟩
  | ejectedPdo fdo' pdo =>
    have hstill := step_still (a := .ejectedPdo fdo' pdo) rfl hst
    obtain ⟨f, p, -, hf, hfdo, hp, -, rfl⟩ := onPdo_ite_eq_some hst
    refine ⟨?_, hstill.state.trans henabled⟩
    have hpos := List.length_pos_of_mem (KeyedList.mem_of_lookup hp).1
    apply h.section hs hf hfdo.symm
    intro hown
    have := hone f hf hown
    simp only [PdoDestroy, System.shared]
    omega

/-- **One silent bus holds all buses back.** From the moment a bus is added, as long as its driver names no device
and it is not taken away, the filter stays enabled, whatever the other buses do: every answer of every bus is
empty, and nothing is unplugged. -/
theorem held_back (h : Reaches step Free (DriverEntry Unplug) s) (henabled : s.FilterState = .ENABLED)
    {type : ObjectType} {added : System} (hadd : step s (.addDevice type) = some added) (ht : Reaches step (Silent s.next) added t) :
    t.FilterState = .ENABLED ∧ Quiet t.log := by
  have hadded : Reaches step Free (DriverEntry Unplug) added := h.tail trivial hadd
  have hlisted : Listed s.next added ∧ added.FilterState = .ENABLED := by
    simp only [step, Option.ite_none_right_eq_some, Option.some_inj] at hadd
    obtain ⟨-, rfl⟩ := hadd
    exact ⟨⟨_, List.mem_append_right _ List.mem_cons_self, rfl, rfl, rfl, Stage.noConfusion, Stage.noConfusion⟩,
      henabled⟩
  have hinv : Sound t ∧ Listed s.next t ∧ t.FilterState = .ENABLED :=
    ht.invariant (P := fun t => Sound t ∧ Listed s.next t ∧ t.FilterState = .ENABLED)
      ⟨sound_of_reaches hadded, hlisted⟩
      fun _ _ _ hs ha hst => ⟨step_sound hs.1 hst, step_listed hs.1 hs.2.1 hs.2.2 ha hst⟩
  have hphases := (gated_of_reaches (hadded.trans (ht.mono fun _ _ _ => trivial))).phases
  rw [hinv.2.2] at hphases
  cases hphases with
  | enabled hquiet => exact ⟨hinv.2.2, hquiet⟩

/-- A bus has been added. -/
def silentStart : System := (DriverEntry ⟨fun _ => true, false⟩).FdoCreate .IDE

/-- Another bus has been added, and its driver has named a device; that of the first one has named nothing. -/
def silentRun : List Action :=
  [.addDevice .PCI, .query 1 here [7] true, .setEnumerated 1, .setFilterState 1 here, .getFilterState 1,
    .answer 1 true, .query 0 here [] true, .getFilterState 0, .answer 0 true]

def silentEnd : System := (run step silentStart silentRun).get (by decide)

/-- The other bus is held back. -/
theorem held_back_silentEnd :
    silentEnd.FilterState = .ENABLED ∧ Quiet silentEnd.log ∧ .answered 1 [7] [] ∈ silentEnd.log := by
  have hadd : step (DriverEntry ⟨fun _ => true, false⟩) (.addDevice .IDE) = some silentStart := rfl
  have hsilent : Reaches step (Silent 0) silentStart silentEnd := by
    apply reaches_cons (a := .addDevice .PCI) trivial rfl
    apply reaches_cons (a := .query 1 here [7] true) (fun heq => absurd heq Nat.one_ne_zero) rfl
    apply reaches_cons (a := .setEnumerated 1) trivial rfl
    apply reaches_cons (a := .setFilterState 1 here) trivial rfl
    apply reaches_cons (a := .getFilterState 1) trivial rfl
    apply reaches_cons (a := .answer 1 true) trivial rfl
    apply reaches_cons (a := .query 0 here [] true) (fun _ => .inl rfl) rfl
    apply reaches_cons (a := .getFilterState 0) trivial rfl
    exact reaches_cons (a := .answer 0 true) trivial rfl (.refl _)
  obtain ⟨henabled, hquiet⟩ := held_back (.refl _) rfl hadd hsilent
  exact ⟨henabled, hquiet, by decide⟩

end XenBus.Xenfilt
