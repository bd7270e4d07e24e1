import XenBus.Xenfilt.Sections
import Mathlib.Data.List.MinMax

/-!
# The device that is forced to be active

The loop of `FdoEnumerate` over the precedences keeps the first of the highest ones: its winner is the
`List.argmax` of the new devices, if that has a precedence at all (`elect_argmax`). `elected` says what this
means for the new filters of a pass: with a winner it alone is active, and without one the registry decides.
-/

namespace XenBus.Xenfilt

variable {w : World} {type : ObjectType} {best : ℕ × ℕ} {Index : ℕ} {c : Shared} {p : Pdo} {Pdos : List Pdo}
  {precedence : ℕ → ℕ} {Objects : List (Option ℕ)} {Relations : List ℕ} {others : List Object} {own : ℕ}

/-! ## The winner -/

/-- One round of the loop. -/
def challenge (precedence : ℕ → ℕ) (Index : ℕ) (best : ℕ × ℕ) : Option ℕ → ℕ × ℕ
  | none => best
  | some device => if best.2 < precedence device then (Index, precedence device) else best

theorem elect_append_singleton (Objects : List (Option ℕ)) (Object : Option ℕ) (Index : ℕ) (best : ℕ × ℕ) :
    elect precedence (Objects ++ [Object]) Index best =
      challenge precedence (Index + Objects.length) (elect precedence Objects Index best) Object := by
  induction Objects generalizing Index best with
  | nil => cases Object <;> rfl
  | cons Object' Objects ih =>
    rw [List.length_cons, Nat.add_comm Objects.length, ← Nat.add_assoc]
    cases Object' with
    | none => exact ih ..
    | some device => exact ih ..

/-- What the loop knows when it has seen the `Objects`: none of the devices has a precedence, or `won` is the first
one with the highest. -/
def Leads (precedence : ℕ → ℕ) (Objects : List (Option ℕ)) (won : ℕ × ℕ) : Prop :=
  won.2 = 0 ∧ (∀ device ∈ Objects.reduceOption, precedence device = 0) ∨
    0 < won.2 ∧ ∃ device, Objects.reduceOption.argmax precedence = some device ∧
      won.2 = precedence device ∧ Objects[won.1]? = some (some device)

theorem Leads.challenge {won : ℕ × ℕ} (h : Leads precedence Objects won) (Object : Option ℕ) :
    Leads precedence (Objects ++ [Object]) (challenge precedence Objects.length won Object) := by
  have hprefix : ∀ {device}, Objects[won.1]? = some (some device) →
      (Objects ++ [Object])[won.1]? = some (some device) := fun hget =>
    (List.getElem?_append_left (List.getElem?_eq_some_iff.mp hget).1).trans hget
  have hlast : (Objects ++ [Object])[Objects.length]? = some Object := by simp
  cases Object with
  | none =>
    simp only [Leads, Xenfilt.challenge, List.reduceOption_append, List.reduceOption_singleton, Option.toList_none,
      List.append_nil]
    rcases h with hnone | ⟨hpos, device, hargmax, hprecedence, hget⟩
    · exact .inl hnone
    · exact .inr ⟨hpos, device, hargmax, hprecedence, hprefix hget⟩
  | some device =>
    simp only [Leads, Xenfilt.challenge, List.reduceOption_append, List.reduceOption_singleton, Option.toList_some,
      List.argmax_concat]
    rcases h with ⟨hzero, hall⟩ | ⟨hpos, device', hargmax, hprecedence, hget⟩
    · split_ifs with hlt
      · refine .inr ⟨hzero ▸ hlt, device, ?_, rfl, hlast⟩
        -- The first of the others, if there is one, has no precedence.
        cases hargmax : Objects.reduceOption.argmax precedence with
        | none => rfl
        | some device' =>
          have hdevice' := hall device' (List.argmax_mem (Option.mem_def.mpr hargmax))
          exact if_pos (hdevice'.trans_lt (hzero ▸ hlt))
      · refine .inl ⟨hzero, ?_⟩
        intro device' hdevice'
        rcases List.mem_append.mp hdevice' with hdevice' | hdevice'
        · exact hall device' hdevice'
        · rw [List.mem_singleton.mp hdevice']
          omega
    · rw [hargmax]
      refine .inr ?_
      dsimp only
      split_ifs with hlt hlt' hlt'
      · exact ⟨hpos.trans hlt, device, rfl, rfl, hlast⟩
      · exact absurd (hprecedence ▸ hlt) hlt'
      · exact absurd (hprecedence ▸ hlt') hlt
      · exact ⟨hpos, device', rfl, hprecedence, hprefix hget⟩

/-- **The election**: no new device has a precedence, or the winner is the first one with the highest. -/
theorem elect_argmax (precedence : ℕ → ℕ) (Objects : List (Option ℕ)) :
    Leads precedence Objects (elect precedence Objects 0 (0, 0)) := by
  induction Objects using List.reverseRecOn with
  | nil => exact .inl ⟨rfl, nofun⟩
  | append_singleton Objects Object ih =>
    rw [elect_append_singleton, Nat.zero_add]
    exact ih.challenge Object

/-! ## The new filters -/

/-- Whether a device is active, by its name and what is asked of it. -/
def activates (w : World) (DeviceID : PStr) : ActivationStatus → Bool
  | .FORCE_ACTIVATED => true
  | .FORCE_DEACTIVATED => false
  | .ACTIVATE_NEUTRAL => w.ActiveDeviceID.any (stricmp DeviceID)

theorem PdoSetDeviceInformation_active {device : ℕ} {ForceActivate : ActivationStatus} {DeviceID InstanceID : Name}
    {Active : Bool} (h : PdoSetDeviceInformation w device ForceActivate = some (DeviceID, InstanceID, Active)) :
    Active = activates w DeviceID.1 ForceActivate := by
  unfold PdoSetDeviceInformation at h
  obtain ⟨DeviceID', -, h⟩ := Option.bind_eq_some_iff.mp h
  have hActive : ∀ {o : Option Name} {InstanceID' : Name} {Active' : Bool},
      (if Active' = true ∧ ForceActivate = .ACTIVATE_NEUTRAL then
          o.bind fun InstanceID => some (DeviceID', InstanceID, Active')
        else some (DeviceID', InstanceID', Active')) = some (DeviceID, InstanceID, Active) →
      DeviceID' = DeviceID ∧ Active' = Active := by
    intro o InstanceID' Active' h
    split_ifs at h
    · obtain ⟨InstanceID'', -, h⟩ := Option.bind_eq_some_iff.mp h
      simp only [Option.some_inj, Prod.mk.injEq] at h
      exact ⟨h.1, h.2.2⟩
    · simp only [Option.some_inj, Prod.mk.injEq] at h
      exact ⟨h.1, h.2.2⟩
  obtain ⟨rfl, rfl⟩ := hActive h
  cases ForceActivate with
  | ACTIVATE_NEUTRAL =>
    unfold activates
    cases w.ActiveDeviceID <;> rfl
  | FORCE_ACTIVATED => rfl
  | FORCE_DEACTIVATED => rfl

/-- Whether a new filter's device is active, and what other drivers are told about it. -/
theorem newPdo_active {address device : ℕ} {ForceActivate : ActivationStatus}
    (h : newPdo w type address device ForceActivate = some p) :
    p.Active = activates w p.DeviceID ForceActivate ∧
      ∀ Device, p.EmulatedObject.Data = .Device Device → Device.ForceActivate = ForceActivate := by
  unfold newPdo at h
  split_ifs at h
  obtain ⟨⟨DeviceID, InstanceID, Active⟩, hinformation, h⟩ := Option.bind_eq_some_iff.mp h
  obtain ⟨Data, hData, h⟩ := Option.bind_eq_some_iff.mp h
  obtain rfl := Option.some.inj h
  refine ⟨PdoSetDeviceInformation_active hinformation, ?_⟩
  intro Device hDevice
  obtain rfl : Data = .Device Device := hDevice
  cases type with
  | PCI =>
    obtain rfl := ObjectData.Device.inj (Option.some.inj hData)
    rfl
  | IDE =>
    obtain ⟨Index, -, hIndex⟩ := Option.map_eq_some_iff.mp hData
    cases hIndex
  | UNKNOWN => cases hData

/-- Each new filter is for one of the devices, and has been asked what its place says. -/
theorem create_places (hp : p ∈ (create w type best c Objects Index).2) :
    ∃ i address, Objects[i]? = some (some p.PhysicalDeviceObject) ∧
      newPdo w type address p.PhysicalDeviceObject (forceActivate best (Index + i)) = some p := by
  induction Objects generalizing c Index with
  | nil => cases hp
  | cons Object Objects ih =>
    have hshift : ∀ {c : Shared}, p ∈ (create w type best c Objects (Index + 1)).2 →
        ∃ i address, (Object :: Objects)[i]? = some (some p.PhysicalDeviceObject) ∧
          newPdo w type address p.PhysicalDeviceObject (forceActivate best (Index + i)) = some p := by
      intro c hp
      obtain ⟨i, address, hget, hnew⟩ := ih hp
      exact ⟨i + 1, address, by simpa using hget, by rwa [Nat.add_right_comm, Nat.add_assoc] at hnew⟩
    cases Object with
    | none => exact hshift hp
    | some device =>
      unfold create at hp
      cases hnew : newPdo w type c.next device (forceActivate best Index) with
      | none =>
        simp only [PdoCreate, hnew, Option.map_none] at hp
        exact hshift hp
      | some q =>
        simp only [PdoCreate, hnew, Option.map_some] at hp
        rcases List.mem_cons.mp hp with rfl | hp
        · obtain ⟨rfl, -⟩ := newPdo_spec hnew
          exact ⟨0, c.next, rfl, hnew⟩
        · exact hshift hp

/-- The devices that a pass finds new. -/
def newDevices (c : Shared) (Pdos : List Pdo) (Relations : List ℕ) : List ℕ :=
  (walk c Pdos (Relations.map some)).2.2.reduceOption

/-- The filters that a pass makes. -/
def newFilters (w : World) (type : ObjectType) (c : Shared) (Pdos : List Pdo) (Relations : List ℕ) : List Pdo :=
  (FdoEnumerate w type c Pdos Relations).2.drop (walk c Pdos (Relations.map some)).2.1.length

theorem reduceOption_map_some (Relations : List ℕ) : (Relations.map some).reduceOption = Relations := by
  simp [List.reduceOption, List.filterMap_map]

/-- A device that is not struck out twice has one place. -/
theorem place_unique (h : Objects.reduceOption.Nodup) {i j device : ℕ} (hi : Objects[i]? = some (some device))
    (hj : Objects[j]? = some (some device)) : i = j := by
  induction Objects generalizing i j with
  | nil => cases hi
  | cons Object Objects ih =>
    have hrest : Objects.reduceOption.Nodup := by
      cases Object with
      | none => exact h
      | some device' => exact (List.nodup_cons.mp h).2
    have hhead : Object = some device → ∀ k : ℕ, Objects[k]? ≠ some (some device) := by
      rintro rfl k hk
      exact (List.nodup_cons.mp h).1 (List.reduceOption_mem_iff.mpr (List.mem_of_getElem? hk))
    match i, j with
    | 0, 0 => rfl
    | 0, j + 1 => exact absurd (by simpa using hj) (hhead (by simpa using hi) j)
    | i + 1, 0 => exact absurd (by simpa using hi) (hhead (by simpa using hj) i)
    | i + 1, j + 1 => exact congrArg _ (ih hrest (by simpa using hi) (by simpa using hj))

/-- **Who is active.** If one of the new devices of a pass has a precedence, then of the new filters just the one
of the first device with the highest precedence is active, and other drivers are told so of this one only. If none
has, the device is active that the registry names. -/
theorem elected (w : World) (type : ObjectType) (c : Shared) (Pdos : List Pdo) {Relations : List ℕ}
    (hRelations : Relations.Nodup) :
    let precedence := DriverGetPrecedence w
    let new := newDevices c Pdos Relations
    ∀ p ∈ newFilters w type c Pdos Relations, p.PhysicalDeviceObject ∈ new ∧
      ((∃ device ∈ new, 0 < precedence device) →
        (p.Active = true ↔ new.argmax precedence = some p.PhysicalDeviceObject) ∧
        ∀ Device, p.EmulatedObject.Data = .Device Device →
          Device.ForceActivate = if p.Active then .FORCE_ACTIVATED else .FORCE_DEACTIVATED) ∧
      ((∀ device ∈ new, precedence device = 0) →
        (p.Active = true ↔ ∃ ActiveDeviceID, w.ActiveDeviceID = some ActiveDeviceID ∧
          stricmp p.DeviceID ActiveDeviceID) ∧
        ∀ Device, p.EmulatedObject.Data = .Device Device → Device.ForceActivate = .ACTIVATE_NEUTRAL) := by
  intro precedence new p hp
  have hnew : new.Nodup := by
    change (newDevices c Pdos Relations).Nodup
    rw [newDevices, walk_objects, reduceOption_map_some]
    exact hRelations.diff ..
  rw [newFilters, FdoEnumerate, List.drop_left] at hp
  obtain ⟨i, address, hget, hp⟩ := create_places hp
  obtain ⟨hActive, hForce⟩ := newPdo_active hp
  rw [Nat.zero_add] at hActive hForce
  refine ⟨List.reduceOption_mem_iff.mpr (List.mem_of_getElem? hget), ?_⟩
  rcases elect_argmax precedence (walk c Pdos (Relations.map some)).2.2 with
    ⟨hnone, hzero⟩ | ⟨hwon, winner, hargmax, hprecedence, hplace⟩
  · refine ⟨fun hsome => ?_, fun _ => ?_⟩
    · obtain ⟨device, hdevice, hpos⟩ := hsome
      exact absurd (hzero device hdevice) hpos.ne'
    · have hasked : forceActivate (elect precedence (walk c Pdos (Relations.map some)).2.2 0 (0, 0)) i =
          .ACTIVATE_NEUTRAL := if_neg (by omega)
      rw [hasked] at hActive hForce
      refine ⟨?_, hForce⟩
      rw [hActive, activates, Option.any_eq_true]
  · refine ⟨fun _ => ?_, fun hzero => ?_⟩
    · by_cases heq : i = (elect precedence (walk c Pdos (Relations.map some)).2.2 0 (0, 0)).1
      · have hasked : forceActivate (elect precedence (walk c Pdos (Relations.map some)).2.2 0 (0, 0)) i =
            .FORCE_ACTIVATED := (if_pos hwon).trans (if_pos heq)
        rw [hasked] at hActive hForce
        have hwinner : winner = p.PhysicalDeviceObject := by
          rw [heq, hplace, Option.some_inj, Option.some_inj] at hget
          exact hget
        refine ⟨iff_of_true hActive (hwinner ▸ hargmax), fun Device hDevice => ?_⟩
        rw [hForce Device hDevice, hActive, activates, if_pos rfl]
      · have hasked : forceActivate (elect precedence (walk c Pdos (Relations.map some)).2.2 0 (0, 0)) i =
            .FORCE_DEACTIVATED := (if_pos hwon).trans (if_neg heq)
        rw [hasked] at hActive hForce
        have hloser : new.argmax precedence ≠ some p.PhysicalDeviceObject := by
          intro hwins
          obtain rfl := Option.some.inj (hargmax.symm.trans hwins)
          exact heq (place_unique hnew hget hplace)
        refine ⟨iff_of_false (by simp [hActive, activates]) hloser, fun Device hDevice => ?_⟩
        rw [hForce Device hDevice, hActive, activates, if_neg Bool.false_ne_true]
    · have := hzero winner (List.argmax_mem (Option.mem_def.mpr hargmax))
      omega

/-- A registry that gives the device 7 a precedence. -/
def preferring : World :=
  { here with
    ActiveDeviceID := none
    ActiveInstanceID := none
    Precedence := some fun id => if id = [55] then some 1 else none
    CompatibleIDs := fun device => if device = 7 then some [[55]] else none }

/-- The second filter that a bus with the devices 6, 7 and 8 gets. -/
def preferred : Pdo := (newFilters preferring .PCI ⟨[], 0, 1⟩ [] [6, 7, 8]).get ⟨1, by decide⟩

theorem elected_preferring : preferred.Active = true ↔
    (newDevices ⟨[], 0, 1⟩ [] [6, 7, 8]).argmax (DriverGetPrecedence preferring) =
      some preferred.PhysicalDeviceObject :=
  ((elected preferring .PCI ⟨[], 0, 1⟩ [] (by decide) preferred (List.get_mem ..)).2.1 ⟨7, by decide⟩).1

end XenBus.Xenfilt
