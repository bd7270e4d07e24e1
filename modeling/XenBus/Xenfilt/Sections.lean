import XenBus.Xenfilt.Devices

/-!
# What the loops do

`Holds` is the account of one bus: the emulated objects are those of its filters and of the `others`, and each
filter has a reference to the FDO. A loop that destroys an entry or keeps it keeps the account
(`Walked.holds`), and so do the loops of the source.

`devices` are the devices that a bus has a filter for. `FdoEnumerate_devices` says which they are after a pass,
and `report_relations` that they are the ones that are reported.
-/

namespace XenBus.Xenfilt

open Fdo.Classes (PnpState)

variable {w : World} {type : ObjectType} {best : ℕ × ℕ} {Index own : ℕ} {c c' : Shared} {p p' : Pdo}
  {Pdos Pdos' : List Pdo} {Objects : List (Option ℕ)} {Relations : List ℕ} {others : List Object}

/-! ## A filter on its own -/

/-- The object of a PDO carries its names. -/
def Pdo.Named (type : ObjectType) (Pdo : Pdo) : Prop :=
  match type with
  | .PCI => ∃ Device, Pdo.EmulatedObject.Data = .Device Device ∧ Device.DeviceID = Pdo.DeviceID ∧
      Device.InstanceID = Pdo.InstanceID
  | .IDE => ∃ Index, Pdo.EmulatedObject.Data = .Disk Index ∧
      EmulatedSetObjectDiskData Pdo.InstanceID = some Index
  | .UNKNOWN => False

/-- What holds of a PDO from its creation on. -/
structure Pdo.Sound (type : ObjectType) (Pdo : Pdo) : Prop where
  named : Pdo.Named type
  deleted : Pdo.Dx.DevicePnpState = .Deleted → Pdo.Missing
  previous : Pdo.Dx.PreviousDevicePnpState = .Deleted → Pdo.Missing

theorem Pdo.Sound.live_iff (h : p.Sound type) : p.live = !p.Missing := by
  unfold Pdo.live
  cases hMissing : p.Missing with
  | true => rfl
  | false =>
    have hState : p.Dx.DevicePnpState ≠ .Deleted := fun hdel => by simpa [hMissing] using h.deleted hdel
    simp [hState]

theorem Pdo.Sound.setMissing (h : p.Sound type) : p.SetMissing.Sound type :=
  ⟨h.named, fun _ => rfl, fun _ => rfl⟩

theorem Pdo.Sound.setState {State : PnpState} (h : p.Sound type) (hState : State ≠ .Deleted ∨ p.Missing) :
    (p.SetDevicePnpState State).Sound type where
  named := h.named
  deleted hdel := hState.resolve_left (not_not_intro hdel)
  previous := h.deleted

theorem Pdo.Sound.restoreState {State : PnpState} (h : p.Sound type) :
    Pdo.Sound type { p with Dx := p.Dx.RestoreDevicePnpState State } where
  named := h.named
  deleted hdel := by
    simp only [Dx.RestoreDevicePnpState] at hdel
    split_ifs at hdel
    · exact h.previous hdel
    · exact h.deleted hdel
  previous hdel := by
    simp only [Dx.RestoreDevicePnpState] at hdel
    split_ifs at hdel <;> exact h.previous hdel

/-! ## The account of a bus -/

structure Holds (c : Shared) (Pdos : List Pdo) (others : List Object) (own : ℕ) : Prop where
  objects : c.Emulated.Perm (Pdos.map (·.EmulatedObject) ++ others)
  distinct : (c.Emulated.map (·.address)).Nodup
  below : ∀ Object ∈ c.Emulated, Object.address < c.next
  references : c.References = own + Pdos.length

namespace Holds

/-- The first PDO may be counted with the others. -/
theorem cons_iff : Holds c (p :: Pdos) others own ↔ Holds c Pdos (p.EmulatedObject :: others) (own + 1) := by
  have hperm : ((p :: Pdos).map (·.EmulatedObject) ++ others).Perm
      (Pdos.map (·.EmulatedObject) ++ p.EmulatedObject :: others) := List.perm_middle.symm
  have hlength : own + (p :: Pdos).length = own + 1 + Pdos.length := by
    simp only [List.length_cons]
    omega
  exact ⟨fun h => ⟨h.objects.trans hperm, h.distinct, h.below, h.references.trans hlength⟩,
    fun h => ⟨h.objects.trans hperm.symm, h.distinct, h.below, h.references.trans hlength.symm⟩⟩

theorem congr (h : Holds c Pdos others own) (hPdos : Pdos'.map (·.EmulatedObject) = Pdos.map (·.EmulatedObject)) :
    Holds c Pdos' others own where
  objects := hPdos ▸ h.objects
  distinct := h.distinct
  below := h.below
  references := by
    have hlength := congrArg List.length hPdos
    simp only [List.length_map] at hlength
    exact hlength ▸ h.references

theorem perm (h : Holds c Pdos others own) (hPdos : Pdos.Perm Pdos') : Holds c Pdos' others own where
  objects := h.objects.trans ((hPdos.map _).append_right _)
  distinct := h.distinct
  below := h.below
  references := hPdos.length_eq ▸ h.references

theorem destroy (h : Holds c (p :: Pdos) others own) (hsame : p'.EmulatedObject = p.EmulatedObject) :
    Holds (PdoDestroy c p') Pdos others own where
  objects := by
    have herase := h.objects.erase p.EmulatedObject
    rw [List.map_cons, List.cons_append, List.erase_cons_head] at herase
    simp only [PdoDestroy, hsame]
    exact herase
  distinct := h.distinct.sublist ((List.erase_sublist ..).map _)
  below Object hmem := h.below Object (List.mem_of_mem_erase hmem)
  references := by
    have href := h.references
    simp only [List.length_cons] at href
    simp only [PdoDestroy]
    omega

theorem add (h : Holds c Pdos others own) (hp : p.EmulatedObject.address = c.next) :
    Holds (c.add p) (Pdos ++ [p]) others own where
  objects := by
    rw [List.map_append, List.append_assoc]
    exact (List.perm_append_comm.trans (h.objects.cons _)).trans List.perm_middle.symm
  distinct := by
    simp only [Shared.add, List.map_append, List.map_cons, List.map_nil]
    refine List.nodup_append.mpr ⟨h.distinct, List.nodup_singleton _, ?_⟩
    intro address hmem next hnext
    obtain ⟨Object, hObject, rfl⟩ := List.mem_map.mp hmem
    rw [List.mem_singleton.mp hnext, hp]
    exact (h.below Object hObject).ne
  below Object hmem := by
    rcases List.mem_append.mp hmem with hmem | hmem
    · exact Nat.lt_succ_of_lt (h.below Object hmem)
    · rw [List.mem_singleton.mp hmem, hp]
      exact Nat.lt_succ_self _
  references := by
    simp only [Shared.add, List.length_append, List.length_singleton, h.references, Nat.add_assoc]

end Holds

/-! ## Loops that destroy or keep -/

/-- Each entry has been destroyed, or kept with its object. -/
inductive Walked (type : ObjectType) : Shared → List Pdo → Shared → List Pdo → Prop
  | nil (c : Shared) : Walked type c [] c []
  | destroy {c c' : Shared} {p p' : Pdo} {Pdos Pdos' : List Pdo} (hsame : p'.EmulatedObject = p.EmulatedObject)
    (h : Walked type (PdoDestroy c p') Pdos c' Pdos') : Walked type c (p :: Pdos) c' Pdos'
  | keep {c c' : Shared} {p p' : Pdo} {Pdos Pdos' : List Pdo} (hsame : p'.EmulatedObject = p.EmulatedObject)
    (hsound : p.Sound type → p'.Sound type)
    (h : Walked type c Pdos c' Pdos') : Walked type c (p :: Pdos) c' (p' :: Pdos')

theorem Walked.holds (h : Walked type c Pdos c' Pdos') (hc : Holds c Pdos others own) :
    Holds c' Pdos' others own := by
  induction h generalizing others own with
  | nil => exact hc
  | destroy hsame _ ih => exact ih (hc.destroy hsame)
  | keep hsame _ _ ih =>
    rw [Holds.cons_iff] at hc ⊢
    rw [hsame]
    exact ih hc

theorem Walked.sound (h : Walked type c Pdos c' Pdos') (hPdos : ∀ p ∈ Pdos, p.Sound type) :
    ∀ p ∈ Pdos', p.Sound type := by
  induction h with
  | nil => exact hPdos
  | destroy _ _ ih => exact ih fun q hq => hPdos q (List.mem_cons_of_mem _ hq)
  | keep _ hsound _ ih =>
    intro q hq
    rcases List.mem_cons.mp hq with rfl | hq
    · exact hsound (hPdos _ List.mem_cons_self)
    · exact ih (fun q hq => hPdos q (List.mem_cons_of_mem _ hq)) q hq

theorem walk_walked (type : ObjectType) (c : Shared) (Pdos : List Pdo) (Objects : List (Option ℕ)) :
    Walked type c Pdos (walk c Pdos Objects).1 (walk c Pdos Objects).2.1 := by
  induction Pdos generalizing c Objects with
  | nil => exact .nil c
  | cons p Pdos ih =>
    unfold walk
    split_ifs
    · exact .keep rfl id (ih ..)
    · exact .destroy rfl (ih ..)
    · exact .keep rfl Pdo.Sound.setMissing (ih ..)
    · exact .keep rfl id (ih ..)

theorem report_walked (type : ObjectType) (c : Shared) (Pdos : List Pdo) :
    Walked type c Pdos (report c Pdos).1 (report c Pdos).2.1 := by
  induction Pdos generalizing c with
  | nil => exact .nil c
  | cons p Pdos ih =>
    unfold report
    split_ifs with hMissing hdel hpresent
    · exact .destroy rfl (ih _)
    · exact .keep rfl id (ih _)
    · exact .keep rfl (fun h => h.setState (.inl nofun)) (ih _)
    · exact .keep rfl id (ih _)

theorem remove_walked (type : ObjectType) (c : Shared) (Pdos : List Pdo) :
    Walked type c Pdos (remove c Pdos) [] := by
  induction Pdos generalizing c with
  | nil => exact .nil c
  | cons p Pdos ih => exact .destroy rfl (ih _)

/-! ## New filters -/

/-- What a new PDO is like. -/
theorem newPdo_spec {address device : ℕ} {ForceActivate : ActivationStatus}
    (h : newPdo w type address device ForceActivate = some p) :
    p.PhysicalDeviceObject = device ∧ p.EmulatedObject.address = address ∧ p.live ∧ p.Sound type := by
  unfold newPdo at h
  split_ifs at h
  obtain ⟨⟨DeviceID, InstanceID, Active⟩, -, h⟩ := Option.bind_eq_some_iff.mp h
  obtain ⟨Data, hData, h⟩ := Option.bind_eq_some_iff.mp h
  obtain rfl := Option.some.inj h
  have hnamed : Pdo.Named type ⟨device, DeviceID.1, InstanceID.1, Active, false, ⟨.Present, .Invalid⟩,
      ⟨address, Data⟩⟩ := by
    cases type with
    | PCI => exact ⟨_, (Option.some.inj hData).symm, rfl, rfl⟩
    | IDE =>
      obtain ⟨Index, hIndex, rfl⟩ := Option.map_eq_some_iff.mp hData
      exact ⟨Index, rfl, hIndex⟩
    | UNKNOWN => cases hData
  exact ⟨rfl, rfl, rfl, hnamed, nofun, nofun⟩

/-- What the second loop has done: the new PDOs, of the `Objects` from `Index` on. -/
theorem create_spec (w : World) (type : ObjectType) (best : ℕ × ℕ) (Objects : List (Option ℕ)) (Index : ℕ)
    (hc : Holds c Pdos others own) :
    let (c', New) := create w type best c Objects Index
    Holds c' (Pdos ++ New) others own ∧ (∀ p ∈ New, p.Sound type ∧ p.live) ∧
      (New.map (·.PhysicalDeviceObject)).Sublist Objects.reduceOption := by
  induction Objects generalizing c Pdos Index with
  | nil => exact ⟨by simpa using hc, fun _ hp => absurd hp List.not_mem_nil, .slnil⟩
  | cons Object Objects ih =>
    cases Object with
    | none => exact ih _ hc
    | some device =>
      unfold create
      cases hnew : newPdo w type c.next device (forceActivate best Index) with
      | none =>
        simp only [PdoCreate, hnew, Option.map_none]
        obtain ⟨hholds, hsound, hsub⟩ := ih (Index + 1) hc
        exact ⟨hholds, hsound, hsub.cons _⟩
      | some p =>
        obtain ⟨hdevice, haddress, hlive, hsound⟩ := newPdo_spec hnew
        simp only [PdoCreate, hnew, Option.map_some]
        obtain ⟨hholds, hall, hsub⟩ := ih (Index + 1) (hc.add haddress)
        refine ⟨by simpa using hholds, ?_, ?_⟩
        · intro q hq
          rcases List.mem_cons.mp hq with rfl | hq
          · exact ⟨hsound, hlive⟩
          · exact hall q hq
        · rw [List.map_cons, hdevice]
          exact hsub.cons_cons device

/-! ## The devices of a bus -/

/-- The devices of the filters that are neither missing nor deleted. -/
def devices (Pdos : List Pdo) : List ℕ := (Pdos.filter (·.live)).map (·.PhysicalDeviceObject)

theorem devices_cons_live (h : p.live = true) : devices (p :: Pdos) = p.PhysicalDeviceObject :: devices Pdos := by
  simp [devices, h]

theorem devices_cons_dead (h : p.live = false) : devices (p :: Pdos) = devices Pdos := by
  simp [devices, h]

theorem devices_append (Pdos Pdos' : List Pdo) : devices (Pdos ++ Pdos') = devices Pdos ++ devices Pdos' := by
  simp [devices]

theorem devices_of_live (h : ∀ p ∈ Pdos, p.live = true) : devices Pdos = Pdos.map (·.PhysicalDeviceObject) := by
  rw [devices, List.filter_eq_self.mpr h]

theorem live_setMissing (p : Pdo) : p.SetMissing.live = false := rfl

/-- A device that is struck out is out of the list. -/
theorem reduceOption_replace (Objects : List (Option ℕ)) (device : ℕ) :
    (Objects.replace (some device) none).reduceOption = Objects.reduceOption.erase device := by
  induction Objects with
  | nil => rfl
  | cons Object Objects ih =>
    cases Object with
    | none => exact ih
    | some device' =>
      rw [List.replace_cons, List.reduceOption_cons_of_some, List.erase_cons, Option.some_beq_some]
      split
      · rename_i heq
        rw [if_pos (beq_iff_eq.mpr (beq_iff_eq.mp heq).symm), List.reduceOption_cons_of_none]
      · rename_i hne
        rw [if_neg (fun heq => beq_eq_false_iff_ne.mp hne (beq_iff_eq.mp heq).symm),
          List.reduceOption_cons_of_some, ih]

/-- What the first loop leaves of the bus driver's answer. -/
theorem walk_objects (c : Shared) (Pdos : List Pdo) (Objects : List (Option ℕ)) :
    (walk c Pdos Objects).2.2.reduceOption = Objects.reduceOption.diff (devices Pdos) := by
  induction Pdos generalizing c Objects with
  | nil => rfl
  | cons p Pdos ih =>
    unfold walk
    split_ifs with hlive hmem hpresent
    · rw [devices_cons_live hlive, List.diff_cons, ← reduceOption_replace]
      exact ih ..
    · rw [devices_cons_live hlive, List.diff_cons,
        List.erase_of_not_mem (mt List.reduceOption_mem_iff.mp hmem)]
      exact ih ..
    · rw [devices_cons_live hlive, List.diff_cons,
        List.erase_of_not_mem (mt List.reduceOption_mem_iff.mp hmem)]
      exact ih ..
    · rw [devices_cons_dead (Bool.eq_false_of_not_eq_true hlive)]
      exact ih ..

/-- What the first loop leaves of the devices. -/
theorem walk_devices (c : Shared) (Objects : List (Option ℕ)) (hnodup : (devices Pdos).Nodup) :
    devices (walk c Pdos Objects).2.1 = (devices Pdos).filter fun device => some device ∈ Objects := by
  induction Pdos generalizing c Objects with
  | nil => rfl
  | cons p Pdos ih =>
    unfold walk
    split_ifs with hlive hmem hpresent
    · rw [devices_cons_live hlive] at hnodup ⊢
      obtain ⟨hnot, hnodup⟩ := List.nodup_cons.mp hnodup
      rw [devices_cons_live hlive, List.filter_cons_of_pos (by simpa using hmem), ih _ _ hnodup]
      refine congrArg _ (List.filter_congr fun device hdevice => ?_)
      -- The others are not the one that has been struck out.
      have hne : device ≠ p.PhysicalDeviceObject := fun heq => hnot (heq ▸ hdevice)
      refine decide_eq_decide.mpr ?_
      rw [← List.reduceOption_mem_iff, ← List.reduceOption_mem_iff, reduceOption_replace,
        List.mem_erase_of_ne hne]
    · rw [devices_cons_live hlive] at hnodup ⊢
      rw [List.filter_cons_of_neg (by simpa using hmem)]
      exact ih _ _ (List.nodup_cons.mp hnodup).2
    · rw [devices_cons_live hlive] at hnodup ⊢
      rw [devices_cons_dead (live_setMissing p), List.filter_cons_of_neg (by simpa using hmem)]
      exact ih _ _ (List.nodup_cons.mp hnodup).2
    · have hdead := Bool.eq_false_of_not_eq_true hlive
      rw [devices_cons_dead hdead] at hnodup ⊢
      rw [devices_cons_dead hdead]
      exact ih _ _ hnodup

/-- After a pass a bus has at most one filter for a device, only filters for devices that are there, and still
the ones that it had for these. -/
theorem FdoEnumerate_devices (w : World) (type : ObjectType) (hc : Holds c Pdos others own)
    (hPdos : (devices Pdos).Nodup) (hRelations : Relations.Nodup) :
    let after := devices (FdoEnumerate w type c Pdos Relations).2
    after.Nodup ∧ (∀ device ∈ after, device ∈ Relations) ∧
      ∀ device ∈ devices Pdos, device ∈ Relations → device ∈ after := by
  have hwalked := walk_devices c (Relations.map some) hPdos
  have hleft := walk_objects c Pdos (Relations.map some)
  have hreduce : (Relations.map some).reduceOption = Relations := by
    simp [List.reduceOption, List.filterMap_map]
  rw [hreduce] at hleft
  obtain ⟨-, hNew, hsub⟩ := create_spec w type
    (elect (DriverGetPrecedence w) (walk c Pdos (Relations.map some)).2.2 0 (0, 0))
    (walk c Pdos (Relations.map some)).2.2 0 ((walk_walked type c Pdos (Relations.map some)).holds hc)
  rw [hleft] at hsub
  have hdiff : ∀ device, device ∈ Relations.diff (devices Pdos) → device ∈ Relations ∧ device ∉ devices Pdos :=
    fun device hdevice => hRelations.mem_sdiff_iff.mp hdevice
  simp only [FdoEnumerate, devices_append, hwalked, List.mem_map, Option.some_inj, exists_eq_right,
    devices_of_live fun p hp => (hNew p hp).2]
  refine ⟨?_, ?_, ?_⟩
  · refine List.nodup_append.mpr ⟨hPdos.filter _, (hRelations.diff ..).sublist hsub, ?_⟩
    rintro device hold _ hnew rfl
    exact (hdiff device (hsub.subset hnew)).2 (List.mem_of_mem_filter hold)
  · intro device hdevice
    rcases List.mem_append.mp hdevice with hold | hnew
    · simpa using List.of_mem_filter hold
    · exact (hdiff device (hsub.subset hnew)).1
  · intro device hdevice hmem
    exact List.mem_append_left _ (List.mem_filter.mpr ⟨hdevice, by simpa using hmem⟩)

theorem FdoEnumerate_holds (hc : Holds c Pdos others own) :
    Holds (FdoEnumerate w type c Pdos Relations).1 (FdoEnumerate w type c Pdos Relations).2 others own :=
  (create_spec w type _ _ _ ((walk_walked type c Pdos _).holds hc)).1

theorem FdoEnumerate_sound (hc : Holds c Pdos others own) (hPdos : ∀ p ∈ Pdos, p.Sound type) :
    ∀ p ∈ (FdoEnumerate w type c Pdos Relations).2, p.Sound type := by
  intro p hp
  rcases List.mem_append.mp hp with hp | hp
  · exact (walk_walked type c Pdos _).sound hPdos p hp
  · exact ((create_spec w type _ _ _ ((walk_walked type c Pdos _).holds hc)).2.1 p hp).1

/-- The devices that have a filter are the ones that are reported, and the report leaves them alone. -/
theorem report_relations (hPdos : ∀ p ∈ Pdos, p.Sound type) :
    (report c Pdos).2.2 = devices Pdos ∧ devices (report c Pdos).2.1 = devices Pdos := by
  induction Pdos generalizing c with
  | nil => exact ⟨rfl, rfl⟩
  | cons p Pdos ih =>
    have hlive := (hPdos p List.mem_cons_self).live_iff
    have hrest := fun c => ih (c := c) fun q hq => hPdos q (List.mem_cons_of_mem _ hq)
    unfold report
    split_ifs with hMissing hdel hpresent
    · rw [hMissing] at hlive
      rw [devices_cons_dead hlive]
      exact hrest _
    · rw [hMissing] at hlive
      rw [devices_cons_dead hlive, devices_cons_dead hlive]
      exact hrest _
    all_goals
      have hlive : p.live = true := by simpa [hMissing] using hlive
      rw [devices_cons_live hlive]
      refine ⟨congrArg _ (hrest _).1, ?_⟩
    · have hlive' : (p.SetDevicePnpState .Enumerated).live = true := by
        simp [Pdo.live, Pdo.SetDevicePnpState, Xenfilt.Dx.SetDevicePnpState, hMissing]
      exact (devices_cons_live hlive').trans (congrArg _ (hrest _).2)
    · exact (devices_cons_live hlive).trans (congrArg _ (hrest _).2)

end XenBus.Xenfilt
