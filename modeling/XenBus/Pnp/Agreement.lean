import XenBus.Pnp.Dispatch

/-!
# What the PnP manager and the driver think of a device

`Agrees` relates what the manager knows of a device to the state that the driver has for it. The two differ in
one place: a device that the manager has seen last, or has never seen, may have been deleted. So a device whose
driver is in use is never `Deleted` (`Agrees.not_deleted`), and a request to one that has been deleted is not
a cancellation. `request_spec` is what a request does then.
-/

namespace XenBus.Pnp

open Fdo.Classes (PnpState CString Ansi)

/-- What the manager knows is what the driver has. -/
def Agrees : Node → Dx → Prop
  | .unknown, Dx =>
    Dx.DevicePnpState = .Present ∨ Dx.DevicePnpState = .Enumerated ∨ Dx.DevicePnpState = .Deleted
  | .known .added, Dx => Dx.DevicePnpState = .Enumerated ∨ Dx.DevicePnpState = .Deleted
  | .known stage, Dx => Dx.DevicePnpState = stage.state
  | .stopAsked, Dx => Dx.DevicePnpState = .StopPending ∧ Dx.PreviousDevicePnpState = .Started
  | .removeAsked stage, Dx => Dx.DevicePnpState = .RemovePending ∧ Dx.PreviousDevicePnpState = stage.state
  | .surprised, Dx => Dx.DevicePnpState = .SurpriseRemovePending ∨ Dx.DevicePnpState = .Deleted

variable {node : Node} {Dx : Dx}

/-- Only a device that has not been reported is `Present`. -/
theorem Agrees.unknown_of_present (h : Agrees node Dx) (hDx : Dx.DevicePnpState = .Present) :
    node = .unknown := by
  match node, h with
  | .unknown, _ => rfl
  | .known .added, h => simp [Agrees, hDx] at h
  | .known .started, h => simp [Agrees, hDx, Stage.state] at h
  | .known .stopped, h => simp [Agrees, hDx, Stage.state] at h
  | .stopAsked, h => simp [Agrees, hDx] at h
  | .removeAsked _, h => simp [Agrees, hDx] at h
  | .surprised, h => simp [Agrees, hDx] at h

/-- The manager knows which devices it has surprise-removed. -/
theorem Agrees.surprised (h : Agrees node Dx) (hDx : Dx.DevicePnpState = .SurpriseRemovePending) :
    node = .surprised := by
  match node, h with
  | .unknown, h => simp [Agrees, hDx] at h
  | .known .added, h => simp [Agrees, hDx] at h
  | .known .started, h => simp [Agrees, hDx, Stage.state] at h
  | .known .stopped, h => simp [Agrees, hDx, Stage.state] at h
  | .stopAsked, h => simp [Agrees, hDx] at h
  | .removeAsked _, h => simp [Agrees, hDx] at h
  | .surprised, _ => rfl

/-- Nobody uses a device that has been deleted. -/
theorem Agrees.idle_of_deleted (h : Agrees node Dx) (hDx : Dx.DevicePnpState = .Deleted) : node.idle := by
  match node, h with
  | .unknown, _ => rfl
  | .known .added, _ => rfl
  | .known .started, h => simp [Agrees, hDx, Stage.state] at h
  | .known .stopped, h => simp [Agrees, hDx, Stage.state] at h
  | .stopAsked, h => simp [Agrees, hDx] at h
  | .removeAsked _, h => simp [Agrees, hDx] at h
  | .surprised, _ => rfl

/-- A device that nobody uses may be deleted. -/
theorem Agrees.of_deleted (hnode : node.idle) (hDx : Dx.DevicePnpState = .Deleted) : Agrees node Dx := by
  match node, hnode with
  | .unknown, _ => exact .inr (.inr hDx)
  | .known .added, _ => exact .inr hDx
  | .surprised, _ => exact .inr hDx

/-- The manager makes a device known that has been enumerated. -/
theorem Agrees.tell (h : Agrees .unknown Dx) (hDx : Dx.DevicePnpState ≠ .Present) : Agrees (.known .added) Dx :=
  h.resolve_left hDx

/-! ## Requests -/

/-- What a request to a device that has not been deleted does. -/
structure Requested (b b' : Bus) (id own : ℕ) (node : Node) (NeedInvalidate : Bool) : Prop where
  shape : b'.Shape own
  only : Bus.Only id b b'
  agrees : Agrees node (b'.Dx id)
  /-- Where the relations have to be queried again, the PDO is deleted and waits for it. -/
  left : NeedInvalidate → id ∈ b'.List ∧ (b'.Dx id).DevicePnpState = .Deleted
  /-- Where not, the PDOs that are not missing are the same. -/
  same : NeedInvalidate = false → b'.List.filter b'.present = b.List.filter b.present
  deleted : NeedInvalidate = false → id ∈ b'.List → (b'.Dx id).DevicePnpState ≠ .Deleted

variable {b b' : Bus} {id own own' : ℕ} {minor : Minor}

theorem present_of_cell {j : ℕ} (h : b'.cell j = b.cell j) : b'.present j = b.present j := by
  have hPdo : b'.Pdo j = b.Pdo j := congrArg Prod.snd h
  rw [Bus.present, Bus.present, hPdo]

/-- The PDOs that are not missing are the same if the one that has been touched was missing, or is not now. -/
theorem filter_present_of_only (h : b.Shape own) (h' : b'.Shape own') (honly : Bus.Only id b b')
    (hid : b'.present id = b.present id) : b'.List.filter b'.present = b.List.filter b.present := by
  have hsame : ∀ j, b'.present j = b.present j := by
    intro j
    rcases eq_or_ne j id with rfl | hne
    · exact hid
    · exact present_of_cell (honly.other j hne)
  rw [funext hsame]
  rcases honly.list with hlist | hlist
  · rw [hlist]
  · have hgone : b.present id = false := by
      have hnot : id ∉ b'.List := hlist ▸ h.nodup.not_mem_erase
      have hPdo : b'.Pdo id = none := by
        rw [← Option.not_isSome_iff_eq_none, h'.live]
        exact hnot
      rw [← hid, Bus.present, hPdo]
      rfl
    rw [hlist, h.nodup.erase_eq_filter, List.filter_filter]
    refine List.filter_congr fun j _ => ?_
    rcases eq_or_ne j id with rfl | hne
    · simp [hgone]
    · simp [hne]

/-- A request that writes the extension only. -/
theorem Requested.setDx (h : b.Shape own) (hid : id ∈ b.List) {Dx : Pnp.Dx} (hDx : Dx.DevicePnpState ≠ .Deleted)
    (hagrees : Agrees node Dx) : Requested b (b.setDx id Dx) id own node false where
  shape := h.setDx hid fun hdel => absurd hdel hDx
  only := Bus.Only.refl.setDx
  agrees := by rwa [Bus.setDx_Dx_self]
  left h := absurd h Bool.false_ne_true
  same _ := rfl
  deleted _ _ := by rwa [Bus.setDx_Dx_self]

/-- `PdoSetDevicePnpState` on a device that has not been deleted. -/
theorem Requested.setState (h : b.Shape own) (hid : id ∈ b.List) (hlive : (b.Dx id).DevicePnpState ≠ .Deleted)
    {State : PnpState} (hState : State ≠ .Deleted)
    (hagrees : Agrees node ⟨(b.Dx id).Name, State, (b.Dx id).DevicePnpState⟩) :
    ∃ b', (b.PdoSetDevicePnpState id State).map (·, false) = some (b', false) ∧
      Requested b b' id own node false ∧ b'.List = b.List := by
  obtain ⟨Pdo, hPdo⟩ := h.get hid
  refine ⟨b.setState id State, ?_, .setDx h hid hState hagrees, rfl⟩
  rw [Bus.PdoSetDevicePnpState_eq hPdo (.inl hlive), Option.map_some]

/-- `PdoRestoreDevicePnpState` after a query. -/
theorem Requested.restore (h : b.Shape own) (hid : id ∈ b.List) {State : PnpState}
    (hState : (b.Dx id).DevicePnpState = State) (hlive : (b.Dx id).PreviousDevicePnpState ≠ .Deleted)
    (hagrees : Agrees node ⟨(b.Dx id).Name, (b.Dx id).PreviousDevicePnpState, (b.Dx id).PreviousDevicePnpState⟩) :
    ∃ b', (b.PdoRestoreDevicePnpState id State).map (·, false) = some (b', false) ∧
      Requested b b' id own node false ∧ b'.List = b.List := by
  obtain ⟨Pdo, hPdo⟩ := h.get hid
  refine ⟨b.setDx id ((b.Dx id).RestoreDevicePnpState State), ?_, .setDx h hid ?_ ?_, rfl⟩
  · simp [Bus.PdoRestoreDevicePnpState, hPdo]
  · simpa [Dx.RestoreDevicePnpState, hState] using hlive
  · simpa [Dx.RestoreDevicePnpState, hState] using hagrees

/-- `PdoRemoveDevice` destroys a device that has been surprise-removed. -/
theorem PdoRemoveDevice_surprised (h : b.Shape own) (hPdo : b.Pdo id = some ⟨true⟩)
    (hsurprise : (b.Dx id).DevicePnpState = .SurpriseRemovePending) :
    PdoRemoveDevice b id = some (b.discard id, false) := by
  have hset : b.PdoSetDevicePnpState id .Deleted = _ := Bus.PdoSetDevicePnpState_eq hPdo (.inr rfl)
  obtain ⟨hrun, -⟩ := discard_spec h hPdo
  rw [hset, Option.bind_some] at hrun
  simp [PdoRemoveDevice, Bus.PdoIsMissing_eq hPdo, Bus.PdoGetDevicePnpState_eq hPdo, hset, hsurprise, hrun]

/-- `PdoRemoveDevice`: the device is destroyed if it has been surprise-removed, it waits for the next query if it
is missing, and it may be started again otherwise. -/
theorem Requested.removeDevice (h : b.Shape own) (hid : id ∈ b.List)
    (hlive : (b.Dx id).DevicePnpState ≠ .Deleted) :
    ∃ b' NeedInvalidate, PdoRemoveDevice b id = some (b', NeedInvalidate) ∧
      Requested b b' id own (.known .added) NeedInvalidate := by
  obtain ⟨⟨Missing⟩, hPdo⟩ := h.get hid
  cases Missing with
  | true =>
    by_cases hsurprise : (b.Dx id).DevicePnpState = .SurpriseRemovePending
    · obtain ⟨-, hshape, honly, hcell⟩ := discard_spec h hPdo
      have hDx : (b.discard id).Dx id = (discardCell (b.cell id)).1 := congrArg Prod.fst hcell
      refine ⟨b.discard id, false, PdoRemoveDevice_surprised h hPdo hsurprise, hshape, honly, ?_, ?_, fun _ => ?_,
        fun _ hmem => ?_⟩
      · rw [hDx]
        exact .inr rfl
      · simp
      · refine filter_present_of_only h hshape honly ?_
        simp [Bus.present, Bus.discard, hPdo]
      · exact absurd hmem h.nodup.not_mem_erase
    · have hset : b.PdoSetDevicePnpState id .Deleted = _ := Bus.PdoSetDevicePnpState_eq hPdo (.inr rfl)
      have hdeleted : (b.setState id .Deleted).Shape own := h.setState hid fun _ => hPdo
      refine ⟨b.setState id .Deleted, true, ?_, hdeleted, Bus.Only.refl.setDx, ?_, fun _ => ⟨hid, ?_⟩, ?_, ?_⟩
      · simp [PdoRemoveDevice, Bus.PdoIsMissing_eq hPdo, Bus.PdoGetDevicePnpState_eq hPdo, hset, hsurprise]
      · rw [Bus.setState_Dx_self]
        exact .inr rfl
      · rw [Bus.setState_Dx_self]
      · simp
      · simp
  | false =>
    have hset : b.PdoSetDevicePnpState id .Enumerated = _ := Bus.PdoSetDevicePnpState_eq hPdo (.inl hlive)
    refine ⟨b.setState id .Enumerated, false, ?_, .setDx h hid (by simp) (.inl rfl)⟩
    simp [PdoRemoveDevice, Bus.PdoIsMissing_eq hPdo, hset]

/-- `PdoEject`. -/
theorem Requested.eject (h : b.Shape own) (hid : id ∈ b.List) :
    ∃ b', (PdoEject b id).map (·, true) = some (b', true) ∧ Requested b b' id own (.known .added) true := by
  obtain ⟨Pdo, hPdo⟩ := h.get hid
  have hset : b.PdoSetDevicePnpState id .Deleted = _ := Bus.PdoSetDevicePnpState_eq hPdo (.inr rfl)
  have hmark : (b.setState id .Deleted).PdoSetMissing id = _ := Bus.PdoSetMissing_eq (b := b.setState id _) hPdo
  refine ⟨(b.setState id .Deleted).mark id, ?_, ?_, (Bus.Only.refl.setDx).mark, ?_, fun _ => ⟨hid, ?_⟩, ?_, ?_⟩
  · simp [PdoEject, hset, hmark]
  · -- the PDO is deleted before it is missing, so the two have to be taken together
    refine ((h.mark hid).setState hid fun _ => ?_ : ((b.mark id).setState id .Deleted).Shape own)
    simp [Bus.mark]
  · exact .inr (by simp [Bus.mark, Bus.setPdo])
  · simp [Bus.mark, Bus.setPdo]
  · simp
  · simp

/-- **A request to a device that has not been deleted** goes through, and the manager knows what came of it. -/
theorem PdoDispatchPnp_spec (h : b.Shape own) (hid : id ∈ b.List) (hlive : (b.Dx id).DevicePnpState ≠ .Deleted)
    (hagrees : Agrees node (b.Dx id)) (hallows : node.allows minor) :
    ∃ b' NeedInvalidate, PdoDispatchPnp b id minor = some (b', NeedInvalidate) ∧
      Requested b b' id own (node.after minor false) NeedInvalidate ∧
      (minor.locks = false → b'.List = b.List ∧ NeedInvalidate = false) := by
  have hset {State : PnpState} {node' : Node} (hState : State ≠ .Deleted)
      (hnode : Agrees node' ⟨(b.Dx id).Name, State, (b.Dx id).DevicePnpState⟩) :
      ∃ b' NeedInvalidate, (b.PdoSetDevicePnpState id State).map (·, false) = some (b', NeedInvalidate) ∧
        Requested b b' id own node' NeedInvalidate ∧
        (minor.locks = false → b'.List = b.List ∧ NeedInvalidate = false) := by
    obtain ⟨b', hrun, hreq, hlist⟩ := Requested.setState h hid hlive hState hnode
    exact ⟨b', false, hrun, hreq, fun _ => ⟨hlist, rfl⟩⟩
  have hremove : ∃ b' NeedInvalidate, PdoRemoveDevice b id = some (b', NeedInvalidate) ∧
      Requested b b' id own (.known .added) NeedInvalidate := Requested.removeDevice h hid hlive
  match node, minor, hallows with
  | .known .added, .startDevice, _ => exact hset (by simp) rfl
  | .known .stopped, .startDevice, _ => exact hset (by simp) rfl
  | .known .started, .queryStopDevice, _ => exact hset (by simp) ⟨rfl, hagrees⟩
  | .stopAsked, .cancelStopDevice, _ =>
    obtain ⟨hstate, hprevious⟩ := hagrees
    have hnode : Agrees (.known .started) ⟨(b.Dx id).Name, (b.Dx id).PreviousDevicePnpState,
        (b.Dx id).PreviousDevicePnpState⟩ := hprevious
    obtain ⟨b', hrun, hreq, hlist⟩ := Requested.restore h hid hstate (by simp [hprevious]) hnode
    exact ⟨b', false, hrun, hreq, fun _ => ⟨hlist, rfl⟩⟩
  | .stopAsked, .stopDevice, _ => exact hset (by simp) rfl
  | .known stage, .queryRemoveDevice, _ =>
    refine hset (by simp) ⟨rfl, ?_⟩
    cases stage with
    | added => exact hagrees.resolve_right hlive
    | started => exact hagrees
    | stopped => exact hagrees
  | .removeAsked stage, .cancelRemoveDevice, _ =>
    obtain ⟨hstate, hprevious⟩ := hagrees
    have hnode : Agrees (.known stage) ⟨(b.Dx id).Name, (b.Dx id).PreviousDevicePnpState,
        (b.Dx id).PreviousDevicePnpState⟩ := by
      cases stage with
      | added => exact .inl hprevious
      | started => exact hprevious
      | stopped => exact hprevious
    have hstage : stage.state ≠ .Deleted := by cases stage <;> decide
    obtain ⟨b', hrun, hreq, hlist⟩ := Requested.restore h hid hstate (hprevious ▸ hstage) hnode
    exact ⟨b', false, hrun, hreq, fun _ => ⟨hlist, rfl⟩⟩
  | .known _, .surpriseRemoval, _ => exact hset (by simp) (.inl rfl)
  | .known _, .removeDevice, _ =>
    obtain ⟨b', NeedInvalidate, hrun, hreq⟩ := hremove
    exact ⟨b', NeedInvalidate, hrun, hreq, by simp [Minor.locks]⟩
  | .removeAsked _, .removeDevice, _ =>
    obtain ⟨b', NeedInvalidate, hrun, hreq⟩ := hremove
    exact ⟨b', NeedInvalidate, hrun, hreq, by simp [Minor.locks]⟩
  | .surprised, .removeDevice, _ =>
    obtain ⟨b', NeedInvalidate, hrun, hreq⟩ := hremove
    exact ⟨b', NeedInvalidate, hrun, hreq, by simp [Minor.locks]⟩
  | .known .added, .eject, _ =>
    obtain ⟨b', hrun, hreq⟩ := Requested.eject h hid
    exact ⟨b', true, hrun, hreq, by simp [Minor.locks]⟩

/-- A device that has been deleted refuses a request, and the manager knows of it. -/
theorem Agrees.refused (h : Agrees node Dx) (hDx : Dx.DevicePnpState = .Deleted) (hallows : node.allows minor) :
    minor ≠ .cancelRemoveDevice ∧ minor ≠ .cancelStopDevice ∧ Agrees (node.after minor true) Dx := by
  have hidle := h.idle_of_deleted hDx
  refine ⟨?_, ?_, Agrees.of_deleted ?_ hDx⟩
  · rintro rfl
    match node, hallows with
    | .removeAsked _, _ => exact absurd hidle Bool.false_ne_true
  · rintro rfl
    match node, hallows with
    | .stopAsked, _ => exact absurd hidle Bool.false_ne_true
  · match node, minor, hallows with
    | .known .added, .startDevice, _ => rfl
    | .known .added, .queryRemoveDevice, _ => rfl
    | .known .added, .surpriseRemoval, _ => rfl
    | .known .added, .removeDevice, _ => rfl
    | .known .added, .eject, _ => rfl
    | .surprised, .removeDevice, _ => rfl

end XenBus.Pnp
