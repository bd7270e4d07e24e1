import XenBus.Xenfilt.Gate

/-!
# The list of the emulated devices is true

In every state the emulated objects are those of the filters of all buses, each of them once, and each carries the
names of its device (`Sound`). So what `EmulatedIsDevicePresent` and `EmulatedIsDiskPresent` answer is true of the
devices behind the filters (`present_iff`), and an answer to a query names a device once, and only devices of the last
enumeration of the bus (`answers`).

A step of one bus is a change of its account, whatever the others hold (`Sound.put`).
-/

namespace XenBus.Xenfilt

open Transition
open Fdo.Classes (PnpState)
open Xen.Unplug (Context)

variable {s t : System} {f f' g : Fdo} {p p' : Pdo} {c : Shared} {w : World} {address : ℕ} {Unplug : Context}
  {pre post : List Pdo} {others : List Object} {own : ℕ} {Pdos : List Pdo}

/-! ## One bus -/

/-- What holds of a bus, apart from its account. -/
structure FdoSound (f : Fdo) : Prop where
  type : f.type ≠ .UNKNOWN
  own : f.own ≤ 1
  released : f.own = 0 → f.Dx.DevicePnpState = .Deleted
  pdos : ∀ p ∈ f.List, p.Sound f.type
  nodup : (devices f.List).Nodup
  named : ∀ device ∈ devices f.List, device ∈ f.devices

/-- The filters of a bus become others, for some of the devices. -/
theorem FdoSound.change (h : FdoSound f) (hPdos : ∀ p ∈ Pdos, p.Sound f.type)
    (hsub : (devices Pdos).Sublist (devices f.List)) : FdoSound { f with List := Pdos } where
  type := h.type
  own := h.own
  released := h.released
  pdos := hPdos
  nodup := h.nodup.sublist hsub
  named device hdevice := h.named device (hsub.subset hdevice)

/-- A loop that destroys or keeps leaves no device more than there were. -/
theorem setPdo_append (hnodup : ((pre ++ p :: post).map Pdo.address).Nodup)
    (hsame : p'.EmulatedObject = p.EmulatedObject) :
    setPdo (pre ++ p :: post) p' = pre ++ p' :: post :=
  KeyedList.replace_append hnodup (congrArg Object.address hsame)

theorem dropPdo_append (hnodup : ((pre ++ p :: post).map Pdo.address).Nodup) :
    dropPdo (pre ++ p :: post) p = pre ++ post :=
  KeyedList.unlink_append hnodup

theorem devices_sublist (hdevice : p'.PhysicalDeviceObject = p.PhysicalDeviceObject) (hlive : p'.live → p.live) :
    (devices (pre ++ p' :: post)).Sublist (devices (pre ++ p :: post)) := by
  rw [devices_append, devices_append]
  apply List.Sublist.append_left
  cases hlive' : p'.live with
  | true => rw [devices_cons_live hlive', devices_cons_live (hlive hlive'), hdevice]
  | false =>
    rw [devices_cons_dead hlive']
    cases hlive : p.live with
    | true => exact (devices_cons_live hlive) ▸ List.sublist_cons_self ..
    | false => rw [devices_cons_dead hlive]

theorem devices_sublist_drop : (devices (pre ++ post)).Sublist (devices (pre ++ p :: post)) := by
  rw [devices_append, devices_append]
  apply List.Sublist.append_left
  cases hlive : p.live with
  | true => exact (devices_cons_live hlive) ▸ List.sublist_cons_self ..
  | false => rw [devices_cons_dead hlive]

/-! ## The accounts of all buses -/

/-- The emulated objects of some buses. -/
def objects (Fdos : List Fdo) : List Object := Fdos.flatMap fun f => f.List.map (·.EmulatedObject)

theorem objects_split (l l' : List Fdo) (f : Fdo) :
    (objects (l ++ f :: l')).Perm (f.List.map (·.EmulatedObject) ++ objects (l ++ l')) := by
  simp only [objects, List.flatMap_append, List.flatMap_cons]
  exact List.perm_append_comm_assoc ..

structure Sound (s : System) : Prop where
  addresses : (s.List.map Fdo.address).Nodup
  fdoBelow : ∀ f ∈ s.List, f.address < s.next
  objects : s.Emulated.Perm (objects s.List)
  distinct : (s.Emulated.map (·.address)).Nodup
  below : ∀ Object ∈ s.Emulated, Object.address < s.next
  references : ∀ f ∈ s.List, f.References = f.own + f.List.length
  fdos : ∀ f ∈ s.List, FdoSound f

namespace Sound

/-- The account of one bus. -/
theorem holds (h : Sound s) (hf : f ∈ s.List) : ∃ others, Holds (s.shared f) f.List others f.own := by
  obtain ⟨l, l', hList⟩ := List.append_of_mem hf
  refine ⟨Xenfilt.objects (l ++ l'), h.objects.trans (hList ▸ objects_split l l' f), h.distinct, h.below,
    h.references f hf⟩

/-- The PDOs of a bus have addresses of their own. -/
theorem pdoAddresses (h : Sound s) (hf : f ∈ s.List) : (f.List.map Pdo.address).Nodup := by
  obtain ⟨others, hholds⟩ := h.holds hf
  have hnodup := (hholds.objects.map (·.address)).nodup_iff.mp hholds.distinct
  rw [List.map_append, List.map_map] at hnodup
  exact (List.nodup_append.mp hnodup).1

/-- **The frame rule**: what keeps the account of one bus, whatever the others hold, keeps those of all. -/
theorem put (h : Sound s) (hf : f ∈ s.List) (haddress : f'.address = f.address) (hnext : s.next ≤ c.next)
    (hholds : ∀ others, Holds (s.shared f) f.List others f.own → Holds c f'.List others f'.own)
    (hsound : FdoSound f') : Sound (s.put c f') := by
  obtain ⟨l, l', hList⟩ := List.append_of_mem hf
  have hnodup := h.addresses
  have hbelow := h.fdoBelow
  have hrefs := h.references
  have hfdos := h.fdos
  have hc := hholds (Xenfilt.objects (l ++ l')) ⟨h.objects.trans (hList ▸ objects_split l l' f), h.distinct, h.below,
    h.references f hf⟩
  rw [hList] at hnodup hbelow hrefs hfdos
  have hput : (s.put c f').List = l ++ { f' with References := c.References } :: l' := by
    rw [System.put, hList]
    exact KeyedList.replace_append hnodup haddress
  have hmem : ∀ {P : Fdo → Prop}, (∀ g ∈ l ++ f :: l', P g) → P { f' with References := c.References } →
      ∀ g ∈ (s.put c f').List, P g := by
    intro P hold hnew g hg
    rw [hput] at hg
    rcases List.mem_append.mp hg with hg | hg
    · exact hold g (List.mem_append_left _ hg)
    · rcases List.mem_cons.mp hg with rfl | hg
      · exact hnew
      · exact hold g (List.mem_append_right _ (List.mem_cons_of_mem _ hg))
  constructor
  case addresses =>
    rw [hput]
    simpa [haddress] using hnodup
  case fdoBelow =>
    refine hmem (fun g hg => (hbelow g hg).trans_le hnext) ?_
    exact haddress.symm ▸ (h.fdoBelow f hf).trans_le hnext
  case objects =>
    rw [hput]
    exact hc.objects.trans (objects_split l l' { f' with References := c.References }).symm
  case distinct => exact hc.distinct
  case below => exact hc.below
  case references => exact hmem hrefs hc.references
  case fdos => exact hmem hfdos ⟨hsound.type, hsound.own, hsound.released, hsound.pdos, hsound.nodup, hsound.named⟩

/-- A bus changes, but neither its filters nor its references do. -/
theorem set (h : Sound s) (hf : f ∈ s.List) (haddress : f'.address = f.address)
    (hPdos : f'.List.map (·.EmulatedObject) = f.List.map (·.EmulatedObject)) (hown : f'.own = f.own) (hreferences : f'.References = f.References)
    (hsound : FdoSound f') : Sound (s.set f') := by
  have hshared : s.shared f' = s.shared f := by rw [System.shared, System.shared, hreferences]
  have hput := h.put (c := s.shared f') hf haddress le_rfl
    (fun others hholds => hown ▸ hshared ▸ hholds.congr hPdos) hsound
  exact hput

theorem emit (h : Sound s) (event : Event) : Sound (s.emit event) :=
  ⟨h.addresses, h.fdoBelow, h.objects, h.distinct, h.below, h.references, h.fdos⟩

/-- A bus that has no references left has no filters, and is destroyed. -/
theorem settle (h : Sound s) (address : ℕ) : Sound (s.settle address) := by
  unfold System.settle
  cases hget : s.get address with
  | none => exact h
  | some f =>
    obtain ⟨hf, rfl⟩ := get_mem hget
    dsimp only
    split_ifs with hzero
    · obtain ⟨l, l', hList⟩ := List.append_of_mem hf
      have hnodup := h.addresses
      rw [hList] at hnodup
      have hempty : f.List = [] := by
        have := h.references f hf
        exact List.length_eq_zero_iff.mp (by omega)
      have hunlink : KeyedList.unlink Fdo.address s.List f.address = l ++ l' := by
        rw [hList]
        exact KeyedList.unlink_append hnodup
      have hsub : (l ++ l').Sublist s.List := by
        rw [hList]
        exact (List.Sublist.refl l).append (List.sublist_cons_self ..)
      simp only [hunlink]
      refine ⟨h.addresses.sublist (hsub.map _), fun g hg => h.fdoBelow g (hsub.subset hg), ?_, h.distinct, h.below,
        fun g hg => h.references g (hsub.subset hg), fun g hg => h.fdos g (hsub.subset hg)⟩
      have hobjects := h.objects.trans (hList ▸ objects_split l l' f)
      rwa [hempty] at hobjects
    · exact h

theorem FdoCreate (h : Sound s) {type : ObjectType} (htype : type ≠ .UNKNOWN) : Sound (s.FdoCreate type) := by
  have hmem : ∀ {P : Fdo → Prop}, (∀ g ∈ s.List, P g) → P ⟨s.next, type, ⟨.Added, .Invalid⟩, false, 1, 1, .idle, [], []⟩ →
      ∀ g ∈ (s.FdoCreate type).List, P g := by
    intro P hold hnew g hg
    rcases List.mem_append.mp hg with hg | hg
    · exact hold g hg
    · exact List.mem_singleton.mp hg ▸ hnew
  constructor
  case addresses =>
    simp only [System.FdoCreate, List.map_append, List.map_cons, List.map_nil]
    refine List.nodup_append.mpr ⟨h.addresses, List.nodup_singleton _, ?_⟩
    intro address haddress next hnext
    obtain ⟨f, hf, rfl⟩ := List.mem_map.mp haddress
    rw [List.mem_singleton.mp hnext]
    exact (h.fdoBelow f hf).ne
  case fdoBelow => exact hmem (fun f hf => Nat.lt_succ_of_lt (h.fdoBelow f hf)) (Nat.lt_succ_self _)
  case objects =>
    simp only [System.FdoCreate, Xenfilt.objects, List.flatMap_append, List.flatMap_cons, List.map_nil,
      List.flatMap_nil, List.append_nil]
    exact h.objects
  case distinct => exact h.distinct
  case below => exact fun Object hObject => Nat.lt_succ_of_lt (h.below Object hObject)
  case references => exact hmem h.references rfl
  case fdos =>
    apply hmem h.fdos
    constructor
    case type => exact htype
    case own => exact le_rfl
    case released => exact fun hown => absurd hown Nat.one_ne_zero
    case pdos => exact fun _ hp => absurd hp List.not_mem_nil
    case nodup => exact List.nodup_nil
    case named => exact fun _ hdevice => absurd hdevice List.not_mem_nil

end Sound

/-! ## The sections -/

theorem Walked.next_eq {type : ObjectType} {c c' : Shared} {Pdos Pdos' : List Pdo} (h : Walked type c Pdos c' Pdos') :
    c'.next = c.next := by
  induction h with
  | nil => rfl
  | destroy _ _ ih => exact ih
  | keep _ _ _ ih => exact ih

theorem create_next_le {type : ObjectType} {best : ℕ × ℕ} {Objects : List (Option ℕ)} {Index : ℕ} :
    c.next ≤ (create w type best c Objects Index).1.next := by
  induction Objects generalizing c Index with
  | nil => exact le_rfl
  | cons Object Objects ih =>
    cases Object with
    | none => exact ih
    | some device =>
      unfold create
      cases hnew : newPdo w type c.next device (forceActivate best Index) with
      | none =>
        simp only [PdoCreate, hnew, Option.map_none]
        exact ih
      | some p =>
        simp only [PdoCreate, hnew, Option.map_some]
        exact (Nat.le_succ c.next).trans (ih (c := c.add p))

theorem FdoEnumerate_next_le (w : World) (type : ObjectType) (c : Shared) (Pdos : List Pdo) (Relations : List ℕ) :
    c.next ≤ (FdoEnumerate w type c Pdos Relations).1.next :=
  ((walk_walked type c Pdos _).next_eq.ge).trans create_next_le

/-- A request changes the state of a PDO, and no more. -/
theorem Pdo.Sound.dispatch {type : ObjectType} (h : p.Sound type) (minor : Minor) :
    Pdo.Sound type { p with Dx := p.Dx.dispatch minor } := by
  cases minor with
  | CANCEL_STOP_DEVICE | CANCEL_REMOVE_DEVICE => exact h.restoreState
  | _ => exact h.setState (.inl nofun)

theorem Sound.query (h : Sound s) (hf : f ∈ s.List) {Relations : List ℕ} (hRelations : Relations.Nodup)
    (memory : Bool) :
    Sound (s.FdoQueryDeviceRelations w Relations memory f) := by
  have hs := h.fdos f hf
  obtain ⟨others, hholds⟩ := h.holds hf
  unfold System.FdoQueryDeviceRelations
  split_ifs
  · obtain ⟨hnodup, hnamed, -⟩ := FdoEnumerate_devices w f.type hholds hs.nodup hRelations
    apply h.put hf
    · rfl
    · exact FdoEnumerate_next_le w f.type (s.shared f) f.List Relations
    · exact fun others hholds => FdoEnumerate_holds hholds
    · exact ⟨hs.type, hs.own, hs.released, FdoEnumerate_sound hholds hs.pdos, hnodup, hnamed⟩
  · apply h.set hf
    · rfl
    · rfl
    · rfl
    · rfl
    · exact ⟨hs.type, hs.own, hs.released, hs.pdos, hs.nodup, hs.named⟩

/-- A section that leaves the filters alone. -/
theorem Sound.stage (h : Sound s) (hf : f ∈ s.List) {Enumerated : Bool} {stage : Stage} {Dx : Dx}
    (hDx : f.Dx.DevicePnpState = .Deleted → Dx.DevicePnpState = .Deleted) :
    Sound (s.set { f with
      Enumerated := Enumerated
      stage := stage
      Dx := Dx }) := by
  have hs := h.fdos f hf
  apply h.set hf
  · rfl
  · rfl
  · rfl
  · rfl
  · exact ⟨hs.type, hs.own, fun hown => hDx (hs.released hown), hs.pdos, hs.nodup, hs.named⟩

theorem Sound.answer (h : Sound s) (hf : f ∈ s.List) (State : FilterState) (memory : Bool) :
    Sound (s.answer State memory f) := by
  have hs := h.fdos f hf
  have hidle : Sound (s.set { f with stage := .idle }) := h.stage hf id
  unfold System.answer
  dsimp only
  split_ifs
  · have hwalked := report_walked f.type (s.shared f) f.List
    apply Sound.emit
    apply h.put hf
    · rfl
    · exact hwalked.next_eq.ge
    · exact fun others hholds => hwalked.holds hholds
    · have hreported := (report_relations (c := s.shared f) hs.pdos).2
      have hchange := hs.change (hwalked.sound hs.pdos) (hreported ▸ List.Sublist.refl _)
      exact ⟨hchange.type, hchange.own, hchange.released, hchange.pdos, hchange.nodup, hchange.named⟩
  · exact (hidle.emit _).emit _
  · exact hidle

theorem Sound.setFilterState (h : Sound s) (w : World) : Sound (s.DriverSetFilterState w) := by
  obtain ⟨hList, hEmulated, hnext⟩ := DriverSetFilterState_frame s w
  refine ⟨hList ▸ h.addresses, ?_, ?_, hEmulated ▸ h.distinct, ?_, hList ▸ h.references, hList ▸ h.fdos⟩
  · rw [hList, hnext]
    exact h.fdoBelow
  · rw [hList, hEmulated]
    exact h.objects
  · rw [hEmulated, hnext]
    exact h.below

theorem Sound.removeDevice (h : Sound s) (hf : f ∈ s.List) : Sound (s.FdoRemoveDevice f) := by
  have hs := h.fdos f hf
  unfold System.FdoRemoveDevice
  dsimp only
  split_ifs
  · have hwalked := remove_walked f.type (s.shared f) f.List
    apply h.put hf
    · rfl
    · exact hwalked.next_eq.ge
    · exact fun others hholds => hwalked.holds hholds
    · exact ⟨hs.type, hs.own, fun _ => rfl, fun _ hp => absurd hp List.not_mem_nil, List.nodup_nil,
        fun _ hdevice => absurd hdevice List.not_mem_nil⟩
  · exact h.stage hf fun _ => rfl

/-- One PDO changes, and keeps its object. -/
theorem Sound.setPdo (h : Sound s) (hf : f ∈ s.List) (hp : p ∈ f.List) (hsame : p'.EmulatedObject = p.EmulatedObject)
    (hdevice : p'.PhysicalDeviceObject = p.PhysicalDeviceObject) (hlive : p'.live → p.live)
    (hsound : p'.Sound f.type) : Sound (s.set { f with List := setPdo f.List p' }) := by
  have hs := h.fdos f hf
  obtain ⟨pre, post, hList⟩ := List.append_of_mem hp
  have hnodup := h.pdoAddresses hf
  rw [hList] at hnodup
  have hset : Xenfilt.setPdo f.List p' = pre ++ p' :: post := by
    rw [hList]
    exact setPdo_append hnodup hsame
  apply h.set hf
  · rfl
  · show (Xenfilt.setPdo f.List p').map (·.EmulatedObject) = _
    rw [hset, hList]
    simp only [List.map_append, List.map_cons, hsame]
  · rfl
  · rfl
  · apply hs.change
    · rw [hset]
      intro q hq
      rcases List.mem_append.mp hq with hq | hq
      · exact hs.pdos q (hList ▸ List.mem_append_left _ hq)
      · rcases List.mem_cons.mp hq with rfl | hq
        · exact hsound
        · exact hs.pdos q (hList ▸ List.mem_append_right _ (List.mem_cons_of_mem _ hq))
    · rw [hset, hList]
      exact devices_sublist hdevice hlive

/-- One PDO is destroyed. -/
theorem Sound.dropPdo (h : Sound s) (hf : f ∈ s.List) (hp : p ∈ f.List)
    (hsame : p'.EmulatedObject = p.EmulatedObject) :
    Sound (s.put (PdoDestroy (s.shared f) p') { f with List := dropPdo f.List p }) := by
  have hs := h.fdos f hf
  obtain ⟨pre, post, hList⟩ := List.append_of_mem hp
  have hnodup := h.pdoAddresses hf
  rw [hList] at hnodup
  have hdrop : Xenfilt.dropPdo f.List p = pre ++ post := by
    rw [hList]
    exact dropPdo_append hnodup
  apply h.put hf
  · rfl
  · exact le_rfl
  · intro others hholds
    rw [hdrop]
    rw [hList] at hholds
    exact (hholds.perm List.perm_middle).destroy hsame
  · apply hs.change
    · rw [hdrop]
      intro q hq
      refine hs.pdos q (hList ▸ ?_)
      rcases List.mem_append.mp hq with hq | hq
      · exact List.mem_append_left _ hq
      · exact List.mem_append_right _ (List.mem_cons_of_mem _ hq)
    · rw [hdrop, hList]
      exact devices_sublist_drop

theorem Sound.removePdo (h : Sound s) (hf : f ∈ s.List) (hp : p ∈ f.List) : Sound (s.PdoRemoveDevice f p) := by
  have hsound := (h.fdos f hf).pdos p hp
  unfold System.PdoRemoveDevice
  by_cases hMissing : p.Missing = true
  · by_cases hState : p.Dx.DevicePnpState = .SurpriseRemovePending
    · have hremove : PdoRemoveDevice (s.shared f) p =
          (PdoDestroy (s.shared f) (p.SetDevicePnpState .Deleted), none, false) :=
        (if_pos hMissing).trans (if_pos hState)
      rw [hremove]
      exact (h.dropPdo hf hp rfl).settle f.address
    · have hremove : PdoRemoveDevice (s.shared f) p = (s.shared f, some (p.SetDevicePnpState .Deleted), true) :=
        (if_pos hMissing).trans (if_neg hState)
      rw [hremove]
      apply Sound.emit
      apply Sound.settle
      refine h.setPdo hf hp rfl rfl ?_ (hsound.setState (.inr hMissing))
      intro hlive
      simp [Pdo.live, Pdo.SetDevicePnpState, Xenfilt.Dx.SetDevicePnpState] at hlive
  · have hremove : PdoRemoveDevice (s.shared f) p = (s.shared f, some (p.SetDevicePnpState .Enumerated), false) :=
      if_neg hMissing
    rw [hremove]
    apply Sound.settle
    have hState : PnpState.Enumerated ≠ .Deleted := PnpState.noConfusion
    refine h.setPdo hf hp rfl rfl ?_ (hsound.setState (.inl hState))
    intro _
    rw [hsound.live_iff]
    simpa using hMissing

theorem step_sound (h : Sound s) {a : Action} (hs : step s a = some t) : Sound t := by
  cases a with
  | addDevice type =>
    simp only [step, Option.ite_none_right_eq_some, Option.some_inj] at hs
    obtain ⟨htype, rfl⟩ := hs
    exact h.FdoCreate htype
  | fdoRequest fdo minor =>
    obtain ⟨f, -, hf, -, hDeleted, rfl⟩ := onFdo_ite_eq_some hs
    exact h.stage hf fun hdel => absurd hdel hDeleted
  | query fdo w Relations memory =>
    obtain ⟨f, -, hf, -, ⟨-, hRelations⟩, rfl⟩ := onFdo_ite_eq_some hs
    exact h.query hf hRelations memory
  | setEnumerated fdo =>
    obtain ⟨f, -, hf, -, -, rfl⟩ := onFdo_ite_eq_some hs
    exact (h.stage hf id).emit _
  | setFilterState fdo w =>
    obtain ⟨f, -, hf, -, -, rfl⟩ := onFdo_ite_eq_some hs
    have hf' : f ∈ (s.DriverSetFilterState w).List := by rwa [(DriverSetFilterState_frame s w).1]
    exact (h.setFilterState w).stage hf' id
  | getFilterState fdo =>
    obtain ⟨f, -, hf, -, -, rfl⟩ := onFdo_ite_eq_some hs
    exact h.stage hf id
  | answer fdo memory =>
    obtain ⟨f, -, hf, -, hbody⟩ := onFdo_eq_some hs
    cases hstage : f.stage with
    | answering State =>
      rw [hstage] at hbody
      obtain rfl := Option.some.inj hbody
      exact h.answer hf State memory
    | idle | enumerated | setting | reading =>
      rw [hstage] at hbody
      cases hbody
  | removeDevice fdo =>
    obtain ⟨f, -, hf, -, -, rfl⟩ := onFdo_ite_eq_some hs
    exact h.removeDevice hf
  | releaseDevice fdo =>
    obtain ⟨f, -, hf, -, ⟨-, hDeleted, hown⟩, rfl⟩ := onFdo_ite_eq_some hs
    have hs := h.fdos f hf
    apply Sound.settle
    -- The account of the bus without the reference to itself.
    change Sound (s.put ⟨s.Emulated, s.next, f.References - 1⟩ { f with own := 0 })
    apply h.put hf
    · rfl
    · exact le_rfl
    · intro others hholds
      refine ⟨hholds.objects, hholds.distinct, hholds.below, ?_⟩
      have := h.references f hf
      dsimp only
      omega
    · exact ⟨hs.type, Nat.zero_le _, fun _ => hDeleted, hs.pdos, hs.nodup, hs.named⟩
  | pdoRequest fdo pdo minor =>
    obtain ⟨f, p, -, hf, -, hp, -, rfl⟩ := onPdo_ite_eq_some hs
    have hp := (KeyedList.mem_of_lookup hp).1
    have hsound := (h.fdos f hf).pdos p hp
    refine h.setPdo hf hp rfl rfl ?_ (hsound.dispatch minor)
    rw [(hsound.dispatch minor).live_iff, hsound.live_iff]
    exact id
  | removePdo fdo pdo =>
    obtain ⟨f, p, -, hf, -, hp, -, rfl⟩ := onPdo_ite_eq_some hs
    exact h.removePdo hf (KeyedList.mem_of_lookup hp).1
  | ejectPdo fdo pdo =>
    obtain ⟨f, p, -, hf, -, hp, -, rfl⟩ := onPdo_ite_eq_some hs
    have hp := (KeyedList.mem_of_lookup hp).1
    have hsound := (h.fdos f hf).pdos p hp
    refine h.setPdo hf hp rfl rfl ?_ (hsound.setMissing.setState (.inr rfl))
    intro hlive
    exact absurd hlive Bool.false_ne_true
  | ejectedPdo fdo pdo =>
    obtain ⟨f, p, -, hf, -, hp, -, rfl⟩ := onPdo_ite_eq_some hs
    exact (h.dropPdo hf (KeyedList.mem_of_lookup hp).1 rfl).settle fdo

theorem sound_DriverEntry (Unplug : Context) : Sound (DriverEntry Unplug) where
  addresses := List.nodup_nil
  fdoBelow _ hf := absurd hf List.not_mem_nil
  objects := List.Perm.refl _
  distinct := List.nodup_nil
  below _ hObject := absurd hObject List.not_mem_nil
  references _ hf := absurd hf List.not_mem_nil
  fdos _ hf := absurd hf List.not_mem_nil

theorem sound_of_reaches (h : Reaches step Free (DriverEntry Unplug) s) : Sound s :=
  h.invariant (sound_DriverEntry Unplug) fun _ _ _ hs _ hst => step_sound hs hst

end XenBus.Xenfilt
