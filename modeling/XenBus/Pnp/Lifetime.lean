import XenBus.Pnp.Agreement

/-!
# The lifetime of the devices

`Sound` holds of every state that is reached from `FdoCreate` (`sound_of_reaches`): no assertion fails and no
memory is used that has been freed, the bus has its shape, and the manager agrees with the driver about each
device. `Control` is the part of it that says where the threads can be together: it is read off the place of the
manager's thread.

The scan thread is kept out of `FdoRemoveDevice` without a lock: the handler clears the event that the thread sets
at the end of a pass and waits for it, and a pass that begins after that finds the state of the FDO changed. So from the
sweep on no pass goes on, and no PDO is created that nobody would destroy.
-/

namespace XenBus.Pnp

open Transition
open Fdo.Classes (PnpState CString Ansi MAX_DEVICE_ID_LEN)

/-! ## Where the threads are -/

/-- The scan thread is not in a pass. -/
def Scan.quiet : Scan → Bool
  | .enumerate | .invalidate _ => false
  | _ => true

/-- The scan thread is there if the FDO is active. -/
def System.Runs (s : System) : Prop := s.scan = .none ↔ s.Active = false

/-- The FDO before its removal: the scan thread is there if the device has been started. -/
def System.Lives (s : System) : Prop :=
  s.own = 1 ∧ s.allocated = true ∧ match s.Dx.DevicePnpState with
    | .Added | .Stopped => s.Dx.PreviousDevicePnpState ≠ .Started ∧ s.scan = .none
    | .Started => s.Runs
    | .StopPending => s.Dx.PreviousDevicePnpState = .Started ∧ s.Runs
    | .RemovePending | .SurpriseRemovePending =>
      s.Dx.PreviousDevicePnpState = .Started ∧ s.Runs ∨
        (s.Dx.PreviousDevicePnpState = .Added ∨ s.Dx.PreviousDevicePnpState = .Stopped) ∧ s.scan = .none
    | _ => False

/-- The FDO after its removal: it is there as long as one of its PDOs is. -/
def System.Removed (s : System) : Prop :=
  s.own = 0 ∧ s.Dx.DevicePnpState = .Deleted ∧ s.scan = .none

/-- The FDO in the part of `FdoRemoveDevice` that takes it down. -/
def System.Leaving (s : System) : Prop :=
  s.own = 1 ∧ s.allocated = true ∧ s.Runs ∧ s.Dx.PreviousDevicePnpState = .Started ∧
    (s.Dx.DevicePnpState = .RemovePending ∨ s.Dx.DevicePnpState = .SurpriseRemovePending)

/-- A PDO waits for the next query to be destroyed. -/
def Bus.Waits (b : Bus) : Prop := ∃ id ∈ b.List, (b.Dx id).DevicePnpState = .Deleted

/-- Where the two threads can be together. -/
def System.Control (s : System) : Prop :=
  match s.place with
  | .idle => s.Lives ∨ s.Removed ∧ (s.allocated = true ↔ s.Bus.List ≠ [])
  | .surprise => s.Lives ∧ s.Dx.DevicePnpState = .SurpriseRemovePending
  | .queryWait | .queryForward _ | .querySweep => s.Lives ∧ s.Dx.DevicePnpState = .Started
  | .starting => s.own = 1 ∧ s.allocated = true ∧ s.Runs ∧
      (s.Dx.DevicePnpState = .Added ∨ s.Dx.DevicePnpState = .Stopped) ∧ s.Dx.PreviousDevicePnpState ≠ .Started
  | .startFailing => s.own = 1 ∧ s.allocated = true ∧ s.Runs ∧ s.Active = true ∧
      (s.Dx.DevicePnpState = .Added ∨ s.Dx.DevicePnpState = .Stopped) ∧ s.Dx.PreviousDevicePnpState ≠ .Started
  | .stopping => s.Lives ∧ s.Dx.DevicePnpState = .StopPending ∧ s.Active = true
  | .removeWait => s.Leaving ∧ s.Active = true ∧ (s.ScanEvent = true → s.scan.quiet = true)
  | .removeSweep => s.Leaving ∧ s.scan.quiet = true
  | .removeAlert => s.Leaving ∧ s.scan.quiet = true
  | .removeJoin => s.Leaving ∧ s.scan.quiet = true ∧ s.Active = true
  | .removeDone => s.own = 1 ∧ s.allocated = true ∧ s.scan = .none ∧ s.Dx.removable
  | .removeRelease => s.own = 1 ∧ s.allocated = true ∧ s.scan = .none ∧ s.Dx.DevicePnpState = .Deleted
  | .removeCheck => s.Removed ∧ s.allocated = true
  | .pdoCheck NeedInvalidate =>
    (s.Lives ∨ s.Removed ∧ s.allocated = true) ∧ (NeedInvalidate = true → s.Bus.Waits)
  | .pdoInvalidate NeedInvalidate =>
    (s.Lives ∨ s.Removed ∧ (s.allocated = true ↔ s.Bus.List ≠ [])) ∧ (NeedInvalidate = true → s.Bus.Waits)

/-- What holds of every state. -/
structure Sound (s : System) : Prop where
  failed : s.failed = false
  shape : s.Bus.Shape s.own
  nodes : ∀ id < s.Bus.next, Agrees (s.node id) (s.Bus.Dx id)
  fresh : ∀ id, s.Bus.next ≤ id → s.node id = .unknown
  objects : ∀ ids, s.place = .queryForward ids → ∀ id ∈ ids, (s.Bus.Dx id).DevicePnpState ≠ .Present ∧ id < s.Bus.next
  leaving : s.place = .removeWait ∨ s.place = .removeSweep → ∀ id, (s.node id).idle
  event : s.scan = .none → s.ScanEvent = false
  control : s.Control

variable {s t : System}

/-- The scan thread runs only while the FDO is there. -/
theorem System.Control.allocated (h : s.Control) (hscan : s.scan ≠ .none) :
    s.allocated = true ∧ s.own = 1 := by
  unfold System.Control at h
  split at h <;> simp_all [System.Lives, System.Removed, System.Leaving]

/-- A step of the scan thread, as far as the other thread sees it. -/
theorem System.Control.scan (h : s.Control) (hscan : s.scan ≠ .none) {scan : Scan} {ScanEvent invalid : Bool}
    {b : Pnp.Bus} (hscan' : scan ≠ .none)
    (hquiet : s.scan.quiet = true → scan.quiet = true ∨ s.Dx.DevicePnpState = .Started)
    (hevent : ScanEvent = true → s.ScanEvent = true ∨ scan.quiet = true)
    (hwaits : s.Bus.Waits → b.Waits) :
    System.Control { s with
      Bus := b
      scan := scan
      ScanEvent := ScanEvent
      invalid := invalid } := by
  unfold System.Control at h ⊢
  split at h <;> simp_all [System.Lives, System.Removed, System.Leaving, System.Runs] <;> grind

/-! ## The scan thread -/

@[simp] theorem System.touch_eq (h : s.allocated = true) (t : System) : s.touch t = t := if_pos h

/-- What a step of the scan thread can do: it goes on, or it makes a pass. -/
theorem scanStep_cases {a : ScanAction} (hs : scanStep s a = some t) :
    s.scan ≠ .none ∧
    ((∃ scan ScanEvent invalid, t = s.touch { s with
          scan := scan
          ScanEvent := ScanEvent
          invalid := invalid } ∧ scan ≠ .none ∧ (∀ NeedInvalidate, scan ≠ .invalidate NeedInvalidate) ∧
        (s.scan.quiet = true → scan.quiet = true ∨ s.Dx.DevicePnpState = .Started) ∧
        (ScanEvent = true → s.ScanEvent = true ∨ scan.quiet = true) ∧
        invalid = (s.invalid || s.scan == .invalidate true)) ∨
      ∃ Enumerate succeeds Classes, s.scan = .enumerate ∧
        (∀ Class ∈ Classes, Class.Buffer.length < MAX_DEVICE_ID_LEN) ∧
        t = match FdoEnumerate Enumerate succeeds s.Bus Classes with
          | some (b, NeedInvalidate) => s.touch { s with
              Bus := b
              scan := .invalidate NeedInvalidate }
          | none => s.fail) := by
  cases a with
  | enumerate Enumerate succeeds Classes =>
    obtain ⟨⟨hscan, hnames⟩, hrun⟩ := Option.ite_none_right_eq_some.mp hs
    refine ⟨by simp [hscan], .inr ⟨Enumerate, succeeds, Classes, hscan, hnames, ?_⟩⟩
    cases hb : FdoEnumerate Enumerate succeeds s.Bus Classes with
    | none => simpa [hb] using hrun.symm
    | some r => simpa [hb] using hrun.symm
  | invalidate =>
    cases hscan : s.scan <;> simp only [scanStep, hscan, reduceCtorEq, Option.some_inj] at hs
    next NeedInvalidate =>
      refine ⟨by simp, .inl ⟨_, _, _, hs.symm, by simp, by simp, by simp [Scan.quiet], Or.inl, ?_⟩⟩
      cases NeedInvalidate <;> simp
  | setEvent =>
    cases hscan : s.scan <;> simp only [scanStep, hscan, reduceCtorEq, Option.some_inj] at hs
    · exact ⟨by simp, .inl ⟨_, _, s.invalid, hs.symm, by simp, by simp, by simp [Scan.quiet], by simp [Scan.quiet],
        by simp⟩⟩
    · exact ⟨by simp, .inl ⟨_, _, s.invalid, hs.symm, by simp, by simp, by simp [Scan.quiet], by simp [Scan.quiet],
        by simp⟩⟩
  | _ =>
    obtain ⟨hscan, rfl⟩ := Option.ite_none_right_eq_some.mp hs |>.imp_right Option.some.inj
    refine ⟨by simp [hscan], .inl ⟨_, s.ScanEvent, s.invalid, rfl, ?_⟩⟩
    simp only [hscan]
    grind [Scan.quiet]

/-- A step that leaves the bus alone. -/
theorem Sound.scan (h : Sound s) (hscan : s.scan ≠ .none) {scan : Scan} {ScanEvent invalid : Bool}
    (hscan' : scan ≠ .none)
    (hquiet : s.scan.quiet = true → scan.quiet = true ∨ s.Dx.DevicePnpState = .Started)
    (hevent : ScanEvent = true → s.ScanEvent = true ∨ scan.quiet = true) :
    Sound { s with
      scan := scan
      ScanEvent := ScanEvent
      invalid := invalid } where
  failed := h.failed
  shape := h.shape
  nodes := h.nodes
  fresh := h.fresh
  objects := h.objects
  leaving := h.leaving
  event hnone := absurd hnone hscan'
  control := h.control.scan hscan hscan' hquiet hevent id

theorem EnumerateCell.of_deleted {c c' : Cell} (h : EnumerateCell c c') (hdel : c.1.DevicePnpState = .Deleted) :
    c' = c := by
  cases h with
  | keep => rfl
  | discard _ hstate => simp [hdel] at hstate
  | mark _ _ hdeleted => exact absurd hdel hdeleted

/-- A pass keeps what is on the list to be destroyed. -/
theorem Passed.waits {b b' : Bus} {own : ℕ} (h : Passed b b') (hb : b.Shape own) (hb' : b'.Shape own)
    (hwaits : b.Waits) : b'.Waits := by
  obtain ⟨id, hid, hdel⟩ := hwaits
  obtain ⟨hDx, hPdo⟩ := Prod.mk.injEq .. ▸ (h.each id hid).of_deleted hdel
  exact ⟨id, (hb'.live id).mp (hPdo ▸ (hb.live id).mpr hid), hDx ▸ hdel⟩

theorem EnumerateCell.agrees {c c' : Cell} {node : Node} (h : EnumerateCell c c') (hagrees : Agrees node c.1) :
    Agrees node c'.1 := by
  cases h with
  | keep => exact hagrees
  | discard _ hstate =>
    rw [hagrees.unknown_of_present hstate]
    exact .inr (.inr rfl)
  | mark => exact hagrees

/-- A pass does nothing that the manager would have to know of. -/
theorem Passed.nodes {b b' : Bus} {own : ℕ} {node : ℕ → Node} (h : Passed b b') (hb' : b'.Shape own)
    (hnodes : ∀ id < b.next, Agrees (node id) (b.Dx id))
    (hfresh : ∀ id, b.next ≤ id → node id = .unknown) {id : ℕ} (hid : id < b'.next) :
    Agrees (node id) (b'.Dx id) := by
  rcases Nat.lt_or_ge id b.next with hlt | hge
  · by_cases hmem : id ∈ b.List
    · exact (h.each id hmem).agrees (hnodes id hlt)
    · have hDx : b'.Dx id = b.Dx id := congrArg Prod.fst (h.rest id hlt hmem)
      exact hDx ▸ hnodes id hlt
  · rw [hfresh id hge]
    rcases hb'.every id hid with hmem | hgone
    · exact .inl (h.new id hmem hge).1
    · exact .inr (.inr (hb'.gone id hgone).2.2)

/-- A pass does not turn a device that has been reported into one that has not. -/
theorem Passed.not_present {b b' : Bus} (h : Passed b b') {id : ℕ} (hid : id < b.next)
    (hstate : (b.Dx id).DevicePnpState ≠ .Present) : (b'.Dx id).DevicePnpState ≠ .Present := by
  by_cases hmem : id ∈ b.List
  · have hkeep {c c' : Cell} (hcell : EnumerateCell c c') (hc : c.1.DevicePnpState ≠ .Present) :
        c'.1.DevicePnpState ≠ .Present := by
      cases hcell with
      | keep => exact hc
      | discard => simp [discardCell]
      | mark => exact hc
    exact hkeep (h.each id hmem) hstate
  · have hDx : b'.Dx id = b.Dx id := congrArg Prod.fst (h.rest id hid hmem)
    exact hDx ▸ hstate

theorem Sound.scanStep (h : Sound s) {a : ScanAction} (hs : scanStep s a = some t) : Sound t := by
  obtain ⟨hscan, hcases⟩ := scanStep_cases hs
  obtain ⟨halive, hown⟩ := h.control.allocated hscan
  rcases hcases with ⟨scan, ScanEvent, invalid, rfl, hscan', -, hquiet, hevent, -⟩ |
    ⟨Enumerate, succeeds, Classes, henumerate, hnames, rfl⟩
  · rw [System.touch_eq halive]
    exact h.scan hscan hscan' hquiet hevent
  · obtain ⟨b', NeedInvalidate, hb', hshape, hpassed, -⟩ :=
      FdoEnumerate_refines Enumerate succeeds h.shape (by simp [hown]) hnames
    simp only [hb', System.touch_eq halive]
    exact {
      failed := h.failed
      shape := hshape
      nodes := fun id hid => hpassed.nodes hshape h.nodes h.fresh hid
      fresh := fun id hid => h.fresh id (Nat.le_trans hpassed.next hid)
      objects := fun ids hplace id hid =>
        have hobject := h.objects ids hplace id hid
        ⟨hpassed.not_present hobject.2 hobject.1, Nat.lt_of_lt_of_le hobject.2 hpassed.next⟩
      leaving := h.leaving
      event := by simp
      control := h.control.scan hscan (by simp) (by simp [henumerate, Scan.quiet]) Or.inl
        (hpassed.waits h.shape hshape) }

/-! ## Requests to the PDOs -/

/-- The FDO is destroyed when its last reference has gone, and it can be then. -/
theorem FdoDestroy_spec (hshape : s.Bus.Shape s.own) (hevent : s.scan = .none → s.ScanEvent = false)
    (hcontrol : s.Lives ∨ s.Removed ∧ s.allocated = true) :
    ∃ allocated, s.FdoDestroy = { s with allocated := allocated } ∧
      (System.Lives { s with allocated := allocated } ∨
        s.Removed ∧ (allocated = true ↔ s.Bus.List ≠ [])) := by
  have hrefs := hshape.references
  rcases hcontrol with hlives | ⟨hremoved, halive⟩
  · refine ⟨s.allocated, if_pos ?_, .inl hlives⟩
    have hown := hlives.1
    omega
  · obtain ⟨hown, hdel, hscan⟩ := hremoved
    by_cases hlist : s.Bus.List = []
    · refine ⟨false, ?_, .inr ⟨⟨hown, hdel, hscan⟩, by simp [hlist]⟩⟩
      have hzero : ¬ s.Bus.References ≠ 0 := by simp [hrefs, hown, hlist]
      rw [System.FdoDestroy, if_neg hzero, if_pos ⟨hlist, hdel, hscan, hevent hscan⟩]
    · refine ⟨s.allocated, if_pos ?_, .inr ⟨⟨hown, hdel, hscan⟩, by simp [hlist, halive]⟩⟩
      have hlength := List.length_pos_iff.mpr hlist
      omega

theorem Bus.Waits.ne_nil {b : Bus} (h : b.Waits) : b.List ≠ [] := by
  obtain ⟨id, hid, -⟩ := h
  exact List.ne_nil_of_mem hid

/-- A request leaves the other devices alone. -/
theorem Sound.request (h : Sound s) {id : ℕ} (hid : id < s.Bus.next) {b : Bus} {node : Node} {place : Place}
    (hshape : b.Shape s.own) (honly : Bus.Only id s.Bus b) (hagrees : Agrees node (b.Dx id))
    (hplace : place = .idle ∨ ∃ NeedInvalidate, place = .pdoCheck NeedInvalidate)
    (hcontrol : System.Control { s with
      Bus := b
      node := Function.update s.node id node
      place := place }) :
    Sound { s with
      Bus := b
      node := Function.update s.node id node
      place := place } where
  failed := h.failed
  shape := hshape
  nodes j hj := by
    rcases eq_or_ne j id with rfl | hne
    · simpa using hagrees
    · have hDx : b.Dx j = s.Bus.Dx j := congrArg Prod.fst (honly.other j hne)
      simpa [hne, hDx] using h.nodes j (honly.next ▸ hj)
  fresh j hj := by
    have hge : s.Bus.next ≤ j := honly.next ▸ hj
    have hne : j ≠ id := fun heq => Nat.not_le_of_lt hid (heq ▸ hge)
    simpa [hne] using h.fresh j hge
  objects ids hforward := by
    rcases hplace with rfl | ⟨_, rfl⟩ <;> cases hforward
  leaving hleaving := by
    rcases hplace with rfl | ⟨_, rfl⟩ <;> simp at hleaving
  event := h.event
  control := hcontrol

/-- What a request to a PDO does: one that has been deleted refuses it, and another one carries it out. -/
theorem Sound.request_cases (h : Sound s) {id : ℕ} {minor : Minor} (hs : pdoStep s (.request id minor) = some t) :
    s.place = .idle ∧ id < s.Bus.next ∧ (s.node id).allows minor = true ∧
    ((Agrees ((s.node id).after minor true) (s.Bus.Dx id) ∧ t = { s with
        Bus := s.Bus
        node := Function.update s.node id ((s.node id).after minor true)
        place := .idle }) ∨
      id ∈ s.Bus.List ∧ s.allocated = true ∧ ∃ b NeedInvalidate place,
        PdoDispatchPnp s.Bus id minor = some (b, NeedInvalidate) ∧
        Requested s.Bus b id s.own ((s.node id).after minor false) NeedInvalidate ∧
        (place = .pdoCheck NeedInvalidate ∨ place = .idle ∧ NeedInvalidate = false ∧ b.List = s.Bus.List) ∧
        t = { s with
          Bus := b
          node := Function.update s.node id ((s.node id).after minor false)
          place := place }) := by
  obtain ⟨⟨hplace, hallows⟩, hrun⟩ := Option.ite_none_right_eq_some.mp hs
  have hid : id < s.Bus.next := by
    by_contra hge
    rw [h.fresh id (Nat.not_lt.mp hge)] at hallows
    simp [Node.allows] at hallows
  have hagrees := h.nodes id hid
  refine ⟨hplace, hid, hallows, ?_⟩
  by_cases hdel : (s.Bus.Dx id).DevicePnpState = .Deleted
  · obtain ⟨hremove, hstop, hafter⟩ := hagrees.refused hdel hallows
    exact .inl ⟨hafter, by simpa [DriverDispatch, hdel, hremove, hstop, hplace] using hrun.symm⟩
  · have hmem : id ∈ s.Bus.List :=
      (h.shape.every id hid).resolve_right fun hgone => hdel (h.shape.gone id hgone).2.2
    have halive : s.allocated = true := by
      have hcontrol := h.control
      simp only [System.Control, hplace] at hcontrol
      exact hcontrol.elim (fun hlives => hlives.2.1) fun hremoved => hremoved.2.mpr (List.ne_nil_of_mem hmem)
    obtain ⟨b', NeedInvalidate, hb', hreq, hlist⟩ := PdoDispatchPnp_spec h.shape hmem hdel hagrees hallows
    refine .inr ⟨hmem, halive, b', NeedInvalidate, ?_⟩
    cases hlocks : minor.locks with
    | true =>
      exact ⟨.pdoCheck NeedInvalidate, hb', hreq, .inl rfl, by
        simpa [DriverDispatch, hdel, hb', hlocks, System.touch_eq halive, System.goTo] using hrun.symm⟩
    | false =>
      obtain ⟨hsame, hneed⟩ := hlist hlocks
      exact ⟨.idle, hb', hreq, .inr ⟨rfl, hneed, hsame⟩, by
        simpa [DriverDispatch, hdel, hb', hlocks, hplace] using hrun.symm⟩

theorem Sound.pdoRequest (h : Sound s) {id : ℕ} {minor : Minor}
    (hs : pdoStep s (.request id minor) = some t) : Sound t := by
  obtain ⟨hplace, hid, -, hcases⟩ := h.request_cases hs
  have hcontrol : s.Lives ∨ s.Removed ∧ (s.allocated = true ↔ s.Bus.List ≠ []) := by
    simpa only [System.Control, hplace] using h.control
  rcases hcases with ⟨hafter, rfl⟩ | ⟨-, halive, b', NeedInvalidate, place, -, hreq, hto, rfl⟩
  · exact h.request hid h.shape .refl hafter (.inl rfl) hcontrol
  · refine h.request hid hreq.shape hreq.only hreq.agrees (hto.symm.imp And.left fun hto => ⟨_, hto⟩) ?_
    rcases hto with rfl | ⟨rfl, -, hlist⟩
    · refine ⟨hcontrol.imp_right fun hremoved => ⟨hremoved.1, halive⟩, fun hneed => ?_⟩
      exact ⟨id, hreq.left hneed⟩
    · refine hcontrol.imp_right fun hremoved => ⟨hremoved.1, ?_⟩
      rw [hlist]
      exact hremoved.2

/-- A step that leaves the bus and the devices alone. -/
theorem Sound.move (h : Sound s) (ht : t.Bus = s.Bus ∧ t.node = s.node ∧ t.own = s.own ∧ t.failed = s.failed)
    (hplace : ∀ ids, t.place ≠ .queryForward ids)
    (hleaving : t.place = .removeWait ∨ t.place = .removeSweep → ∀ id, (s.node id).idle)
    (hevent : t.scan = .none → t.ScanEvent = false) (hcontrol : t.Control) : Sound t where
  failed := ht.2.2.2 ▸ h.failed
  shape := ht.1 ▸ ht.2.2.1 ▸ h.shape
  nodes id hid := by
    rw [ht.1] at hid ⊢
    rw [ht.2.1]
    exact h.nodes id hid
  fresh id hid := by
    rw [ht.1] at hid
    rw [ht.2.1]
    exact h.fresh id hid
  objects ids hforward := absurd hforward (hplace ids)
  leaving hl := by
    rw [ht.2.1]
    exact hleaving hl
  event := hevent
  control := hcontrol

theorem Sound.pdoStep (h : Sound s) {a : PdoAction} (hs : pdoStep s a = some t) : Sound t := by
  cases a with
  | request id minor => exact h.pdoRequest hs
  | check =>
    cases hplace : s.place <;> simp only [Pnp.pdoStep, hplace, reduceCtorEq, Option.some_inj] at hs
    next NeedInvalidate =>
      obtain ⟨hcontrol, hwaits⟩ : (s.Lives ∨ s.Removed ∧ s.allocated = true) ∧
          (NeedInvalidate = true → s.Bus.Waits) := by
        simpa only [System.Control, hplace] using h.control
      have halive : s.allocated = true := hcontrol.elim (fun hlives => hlives.2.1) And.right
      obtain ⟨allocated, hdestroy, hcontrol'⟩ :=
        FdoDestroy_spec (s := s.goTo (.pdoInvalidate NeedInvalidate)) h.shape h.event hcontrol
      rw [System.touch_eq halive, hdestroy] at hs
      subst hs
      exact h.move ⟨rfl, rfl, rfl, rfl⟩ (by simp [System.goTo]) (by simp [System.goTo]) h.event ⟨hcontrol', hwaits⟩
  | invalidate =>
    cases hplace : s.place <;> simp only [Pnp.pdoStep, hplace, reduceCtorEq] at hs
    next NeedInvalidate =>
      obtain ⟨hcontrol, hwaits⟩ : (s.Lives ∨ s.Removed ∧ (s.allocated = true ↔ s.Bus.List ≠ [])) ∧
          (NeedInvalidate = true → s.Bus.Waits) := by
        simpa only [System.Control, hplace] using h.control
      cases NeedInvalidate with
      | true =>
        have halive : s.allocated = true :=
          hcontrol.elim (fun hlives => hlives.2.1) fun hremoved => hremoved.2.mpr (hwaits rfl).ne_nil
        rw [if_pos rfl, System.touch_eq halive, Option.some_inj] at hs
        subst hs
        exact h.move ⟨rfl, rfl, rfl, rfl⟩ (by simp) (by simp) h.event hcontrol
      | false =>
        obtain rfl : s.goTo .idle = t := Option.some.inj hs
        exact h.move ⟨rfl, rfl, rfl, rfl⟩ (by simp [System.goTo]) (by simp [System.goTo]) h.event hcontrol

/-! ## Requests to the FDO -/

/-- A section with the mutex, as far as the manager knows the devices. -/
theorem Sound.walked (h : Sound s) {b : Bus} {E : Cell → Cell → Prop} (hshape : b.Shape s.own)
    (hwalked : Walked E s.Bus [] b)
    (hE : ∀ id ∈ s.Bus.List, ∀ c, E (s.Bus.cell id) c → Agrees (s.node id) (s.Bus.Dx id) → Agrees (s.node id) c.1)
    {place : Place} (hplace : place ≠ .removeWait ∧ place ≠ .removeSweep)
    (hobjects : ∀ ids, place = .queryForward ids → ∀ id ∈ ids, (b.Dx id).DevicePnpState ≠ .Present ∧ id < b.next)
    (hcontrol : System.Control { s with
      Bus := b
      place := place }) :
    Sound { s with
      Bus := b
      place := place } where
  failed := h.failed
  shape := hshape
  nodes id hid := by
    have hlt : id < s.Bus.next := hwalked.next ▸ hid
    by_cases hmem : id ∈ s.Bus.List
    · exact hE id hmem _ (hwalked.each id hmem List.not_mem_nil) (h.nodes id hlt)
    · have hDx : b.Dx id = s.Bus.Dx id := congrArg Prod.fst (hwalked.rest id (.inr hmem))
      exact hDx ▸ h.nodes id hlt
  fresh id hid := h.fresh id (hwalked.next ▸ hid)
  objects := hobjects
  leaving hl := hl.elim (absurd · hplace.1) (absurd · hplace.2)
  event := h.event
  control := hcontrol

theorem Sound.surpriseMark (h : Sound s) (hs : fdoStep s .surpriseMark = some t) : Sound t := by
  obtain ⟨hplace, hrun⟩ := Option.ite_none_right_eq_some.mp hs
  obtain ⟨hlives, -⟩ : s.Lives ∧ s.Dx.DevicePnpState = .SurpriseRemovePending := by
    simpa only [System.Control, hplace] using h.control
  obtain ⟨b', hb', hshape, hwalked⟩ := surprise_walked h.shape
  have ht : t = { s with
      Bus := b'
      place := .idle } := by
    simpa [System.locked, hb', System.touch, System.goTo, hlives.2.1] using hrun.symm
  rw [ht]
  refine h.walked hshape hwalked (fun id _ c hc hagrees => ?_) (by simp) (by simp) (.inl hlives)
  exact hc ▸ hagrees

theorem Sound.report (h : Sound s) {memory : Bool} (hs : fdoStep s (.report memory) = some t) : Sound t := by
  obtain ⟨⟨hplace, -⟩, hrun⟩ := Option.ite_none_right_eq_some.mp hs
  have hcontrol : s.Lives ∧ s.Dx.DevicePnpState = .Started := by
    simpa only [System.Control, hplace] using h.control
  cases memory with
  | false =>
    have ht : t = { s with
        lost := true
        place := .idle } := by
      simpa [System.touch_eq hcontrol.1.2.1] using hrun.symm
    rw [ht]
    exact h.move ⟨rfl, rfl, rfl, rfl⟩ (by simp) (by simp) h.event (.inl hcontrol.1)
  | true =>
    obtain ⟨b', hb', hshape, hwalked⟩ := report_walked h.shape
    have ht : t = { s with
        Bus := b'
        place := .queryForward (s.Bus.List.filter s.Bus.present) } := by
      simpa [hb', System.touch_eq hcontrol.1.2.1] using hrun.symm
    rw [ht]
    refine h.walked hshape hwalked (fun id _ c hc hagrees => ?_) (by simp) (fun ids hids id hid => ?_) hcontrol
    · rw [hc, reportCell]
      split
      next hpresent =>
        rw [hagrees.unknown_of_present hpresent.2]
        exact .inr (.inl rfl)
      · exact hagrees
    · obtain rfl := Place.queryForward.inj hids
      obtain ⟨hmem, hpresent⟩ := List.mem_filter.mp hid
      have hDx : b'.Dx id = (reportCell (s.Bus.cell id)).1 :=
        congrArg Prod.fst (hwalked.each id hmem List.not_mem_nil)
      refine ⟨?_, hwalked.next ▸ h.shape.below id hmem⟩
      have hPdo : s.Bus.Pdo id = some ⟨false⟩ := by simpa [Bus.present] using hpresent
      rw [hDx, reportCell]
      split
      next => simp
      next hnot => exact fun hstate => hnot ⟨hPdo, hstate⟩

theorem Sound.forwarded (h : Sound s) {success : Bool} (hs : fdoStep s (.forwarded success) = some t) :
    Sound t := by
  cases hplace : s.place <;> simp only [fdoStep, hplace, reduceCtorEq] at hs
  next Objects =>
    have hcontrol : s.Lives ∧ s.Dx.DevicePnpState = .Started := by
      simpa only [System.Control, hplace] using h.control
    cases success with
    | false =>
      have ht : t = { s with
          lost := true
          place := .idle } := by
        simpa [System.touch_eq hcontrol.1.2.1] using hs.symm
      rw [ht]
      exact h.move ⟨rfl, rfl, rfl, rfl⟩ (by simp) (by simp) h.event (.inl hcontrol.1)
    | true =>
      obtain rfl : _ = t := Option.some.inj hs
      exact {
        failed := h.failed
        shape := h.shape
        nodes := fun id hid => by
          have hagrees := h.nodes id hid
          change Agrees (tell s.node Objects id) (s.Bus.Dx id)
          rw [tell]
          split
          next hnew => exact Agrees.tell (hnew.2 ▸ hagrees) (h.objects Objects hplace id hnew.1).1
          · exact hagrees
        fresh := fun id hid => by
          have hnot : id ∉ Objects := fun hmem => Nat.not_le_of_lt (h.objects Objects hplace id hmem).2 hid
          simpa [tell, hnot] using h.fresh id hid
        objects := by simp
        leaving := by simp
        event := h.event
        control := hcontrol }

theorem Sound.sweep (h : Sound s) (hs : fdoStep s .sweep = some t) : Sound t := by
  obtain ⟨hplace, hrun⟩ := Option.ite_none_right_eq_some.mp hs
  obtain ⟨hlives, -⟩ : s.Lives ∧ s.Dx.DevicePnpState = .Started := by
    simpa only [System.Control, hplace] using h.control
  obtain ⟨b', hb', hshape, hwalked⟩ := sweep_walked h.shape
  have ht : t = { s with
      Bus := b'
      place := .idle } := by
    simpa [System.locked, hb', System.touch, System.goTo, hlives.2.1] using hrun.symm
  rw [ht]
  refine h.walked hshape hwalked (fun id _ c hc hagrees => ?_) (by simp) (by simp) (.inl hlives)
  rw [hc, sweepCell]
  split <;> exact hagrees

theorem Sound.removeSweep (h : Sound s) (hs : fdoStep s .removeSweep = some t) : Sound t := by
  obtain ⟨hplace, hrun⟩ := Option.ite_none_right_eq_some.mp hs
  have hcontrol : s.Leaving ∧ s.scan.quiet = true := by
    simpa only [System.Control, hplace] using h.control
  obtain ⟨b', hb', hshape, hwalked⟩ := remove_walked h.shape
  have ht : t = { s with
      Bus := b'
      place := .removeAlert } := by
    simpa [System.locked, hb', System.touch, System.goTo, hcontrol.1.2.1] using hrun.symm
  rw [ht]
  refine h.walked hshape hwalked (fun id _ c hc hagrees => ?_) (by simp) (by simp) hcontrol
  rw [hc, removeCell]
  split
  · exact hagrees
  · exact Agrees.of_deleted (h.leaving (.inr hplace) id) rfl

theorem Sound.removeRelease (h : Sound s) (hs : fdoStep s .removeRelease = some t) : Sound t := by
  obtain ⟨hplace, hrun⟩ := Option.ite_none_right_eq_some.mp hs
  obtain ⟨hown, halive, hscan, hdel⟩ : s.own = 1 ∧ s.allocated = true ∧ s.scan = .none ∧
      s.Dx.DevicePnpState = .Deleted := by
    simpa only [System.Control, hplace] using h.control
  have hrefs := h.shape.references
  have hne : s.Bus.References ≠ 0 := by omega
  have ht : t = { s with
      Bus := { s.Bus with References := s.Bus.References - 1 }
      own := 0
      place := .removeCheck } := by
    simpa [hne, System.touch_eq halive] using hrun.symm
  rw [ht]
  exact {
    failed := h.failed
    shape := { h.shape with references := by simp only; omega }
    nodes := h.nodes
    fresh := h.fresh
    objects := by simp
    leaving := by simp
    event := h.event
    control := ⟨⟨rfl, hdel, hscan⟩, halive⟩ }

theorem FdoSetDevicePnpState_eq (halive : s.allocated = true) (hdel : s.Dx.DevicePnpState ≠ .Deleted)
    (State : PnpState) :
    s.FdoSetDevicePnpState State = { s with Dx := ⟨s.Dx.Name, State, s.Dx.DevicePnpState⟩ } := by
  simp [System.FdoSetDevicePnpState, Dx.SetDevicePnpState, hdel, System.touch, halive]

/-- An idle FDO that has not been deleted is alive. -/
theorem Sound.lives (h : Sound s) (hplace : s.place = .idle) (hdel : s.Dx.DevicePnpState ≠ .Deleted) : s.Lives := by
  have hcontrol := h.control
  simp only [System.Control, hplace] at hcontrol
  exact hcontrol.resolve_right fun hremoved => hdel hremoved.1.2.1

/-- A request that an idle FDO answers at once: its state changes. -/
theorem Sound.setDx (h : Sound s) (hplace : s.place = .idle) {Dx : Dx}
    (hlives : System.Lives { s with Dx := Dx }) : Sound { s with Dx := Dx } :=
  h.move ⟨rfl, rfl, rfl, rfl⟩ (by simp [hplace]) (by simp [hplace]) h.event (by
    simp only [System.Control, hplace]
    exact .inl hlives)

theorem Sound.startDevice (h : Sound s) (hs : fdoStep s .startDevice = some t) : Sound t := by
  obtain ⟨⟨hplace, hstate⟩, rfl⟩ := Option.ite_none_right_eq_some.mp hs |>.imp_right Option.some.inj
  have hlives := h.lives hplace (by rcases hstate with hstate | hstate <;> simp [hstate])
  rw [System.touch_eq hlives.2.1]
  obtain ⟨hown, halive, hmatch⟩ := hlives
  have hnone : s.Dx.PreviousDevicePnpState ≠ .Started ∧ s.scan = .none := by
    rcases hstate with hstate | hstate <;> simpa only [hstate] using hmatch
  cases hactive : s.Active with
  | true =>
    refine h.move ⟨rfl, rfl, rfl, rfl⟩ (by simp) (by simp) (by simp) ⟨hown, halive, ?_, hstate, hnone.1⟩
    simp [System.Runs]
  | false =>
    refine h.move ⟨rfl, rfl, rfl, rfl⟩ (by simp [System.goTo]) (by simp [System.goTo]) h.event
      ⟨hown, halive, ?_, hstate, hnone.1⟩
    simp [System.Runs, System.goTo, hactive, hnone.2]

theorem Sound.started (h : Sound s) (hs : fdoStep s .started = some t) : Sound t := by
  obtain ⟨hplace, rfl⟩ := Option.ite_none_right_eq_some.mp hs |>.imp_right Option.some.inj
  obtain ⟨hown, halive, hruns, hstate, -⟩ : s.own = 1 ∧ s.allocated = true ∧ s.Runs ∧
      (s.Dx.DevicePnpState = .Added ∨ s.Dx.DevicePnpState = .Stopped) ∧ s.Dx.PreviousDevicePnpState ≠ .Started := by
    simpa only [System.Control, hplace] using h.control
  have hdel : s.Dx.DevicePnpState ≠ .Deleted := by rcases hstate with hstate | hstate <;> simp [hstate]
  rw [FdoSetDevicePnpState_eq (s := s.goTo .idle) halive hdel]
  exact h.move ⟨rfl, rfl, rfl, rfl⟩ (by simp [System.goTo]) (by simp [System.goTo]) h.event
    (.inl ⟨hown, halive, hruns⟩)

theorem Sound.startFailed (h : Sound s) (hs : fdoStep s .startFailed = some t) : Sound t := by
  obtain ⟨hplace, hrun⟩ := Option.ite_none_right_eq_some.mp hs
  obtain ⟨hown, halive, hruns, hstate, hprevious⟩ : s.own = 1 ∧ s.allocated = true ∧ s.Runs ∧
      (s.Dx.DevicePnpState = .Added ∨ s.Dx.DevicePnpState = .Stopped) ∧ s.Dx.PreviousDevicePnpState ≠ .Started := by
    simpa only [System.Control, hplace] using h.control
  cases hactive : s.Active with
  | true =>
    have hscan : s.scan ≠ .none := fun hnone => by simp [hruns.mp hnone] at hactive
    rw [if_pos hactive, System.touchThread, if_neg hscan, System.touch_eq halive, Option.some_inj] at hrun
    subst hrun
    exact h.move ⟨rfl, rfl, rfl, rfl⟩ (by simp) (by simp) h.event
      ⟨hown, halive, hruns, hactive, hstate, hprevious⟩
  | false =>
    have hscan : s.scan = .none := hruns.mpr hactive
    obtain rfl : s.goTo .idle = t := by simpa [hactive] using hrun
    refine h.move ⟨rfl, rfl, rfl, rfl⟩ (by simp [System.goTo]) (by simp [System.goTo]) h.event
      (.inl ⟨hown, halive, ?_⟩)
    rcases hstate with hstate | hstate <;> simp only [System.goTo, hstate] <;> exact ⟨hprevious, hscan⟩

theorem Sound.startJoined (h : Sound s) (hs : fdoStep s .startJoined = some t) : Sound t := by
  obtain ⟨⟨hplace, -⟩, rfl⟩ := Option.ite_none_right_eq_some.mp hs |>.imp_right Option.some.inj
  obtain ⟨hown, halive, -, -, hstate, hprevious⟩ : s.own = 1 ∧ s.allocated = true ∧ s.Runs ∧ s.Active = true ∧
      (s.Dx.DevicePnpState = .Added ∨ s.Dx.DevicePnpState = .Stopped) ∧ s.Dx.PreviousDevicePnpState ≠ .Started := by
    simpa only [System.Control, hplace] using h.control
  rw [System.touch_eq halive]
  refine h.move ⟨rfl, rfl, rfl, rfl⟩ (by simp [System.goTo]) (by simp [System.goTo])
    (by simp [System.goTo, System.joined]) (.inl ⟨hown, halive, ?_⟩)
  rcases hstate with hstate | hstate <;> simp only [System.goTo, System.joined, hstate] <;> exact ⟨hprevious, trivial⟩

theorem Sound.queryStopDevice (h : Sound s) (hs : fdoStep s .queryStopDevice = some t) : Sound t := by
  obtain ⟨⟨hplace, hstate⟩, rfl⟩ := Option.ite_none_right_eq_some.mp hs |>.imp_right Option.some.inj
  have hdel : s.Dx.DevicePnpState ≠ .Deleted := by simp [hstate]
  obtain ⟨hown, halive, hmatch⟩ := h.lives hplace hdel
  rw [FdoSetDevicePnpState_eq halive hdel]
  simp only [hstate] at hmatch
  exact h.setDx hplace ⟨hown, halive, hstate, hmatch⟩

theorem Sound.cancelStopDevice (h : Sound s) (hs : fdoStep s .cancelStopDevice = some t) : Sound t := by
  obtain ⟨⟨hplace, hstate⟩, rfl⟩ := Option.ite_none_right_eq_some.mp hs |>.imp_right Option.some.inj
  obtain ⟨hown, halive, hmatch⟩ := h.lives hplace (by simp [hstate])
  simp only [hstate] at hmatch
  rw [System.FdoRestoreDevicePnpState, System.touch_eq halive, Dx.RestoreDevicePnpState, if_pos hstate]
  refine h.setDx hplace ⟨hown, halive, ?_⟩
  simp only [hmatch.1]
  exact hmatch.2

theorem Sound.stopDevice (h : Sound s) (hs : fdoStep s .stopDevice = some t) : Sound t := by
  obtain ⟨⟨hplace, hstate⟩, hrun⟩ := Option.ite_none_right_eq_some.mp hs
  have hdel : s.Dx.DevicePnpState ≠ .Deleted := by simp [hstate]
  have hlives := h.lives hplace hdel
  obtain ⟨hown, halive, hmatch⟩ := id hlives
  simp only [hstate] at hmatch
  cases hactive : s.Active with
  | true =>
    have hscan : s.scan ≠ .none := fun hnone => by simp [hmatch.2.mp hnone] at hactive
    rw [if_pos hactive, System.touchThread, if_neg hscan, System.touch_eq halive, Option.some_inj] at hrun
    subst hrun
    exact h.move ⟨rfl, rfl, rfl, rfl⟩ (by simp) (by simp) h.event ⟨hlives, hstate, hactive⟩
  | false =>
    have hscan : s.scan = .none := hmatch.2.mpr hactive
    obtain rfl : s.FdoSetDevicePnpState .Stopped = t := by simpa [hactive] using hrun
    rw [FdoSetDevicePnpState_eq halive hdel]
    exact h.setDx hplace ⟨hown, halive, by simp [hstate], hscan⟩

theorem Sound.stopJoined (h : Sound s) (hs : fdoStep s .stopJoined = some t) : Sound t := by
  obtain ⟨⟨hplace, -⟩, rfl⟩ := Option.ite_none_right_eq_some.mp hs |>.imp_right Option.some.inj
  obtain ⟨⟨hown, halive, -⟩, hstate, -⟩ : s.Lives ∧ s.Dx.DevicePnpState = .StopPending ∧ s.Active = true := by
    simpa only [System.Control, hplace] using h.control
  rw [FdoSetDevicePnpState_eq (s := s.joined.goTo .idle) halive (by simp [System.goTo, System.joined, hstate])]
  refine h.move ⟨rfl, rfl, rfl, rfl⟩ (by simp [System.goTo]) (by simp [System.goTo])
    (by simp [System.goTo, System.joined]) (.inl ⟨hown, halive, ?_⟩)
  simp [System.goTo, System.joined, hstate]

theorem Sound.queryRemoveDevice (h : Sound s) (hs : fdoStep s .queryRemoveDevice = some t) : Sound t := by
  obtain ⟨⟨hplace, hsettled⟩, rfl⟩ := Option.ite_none_right_eq_some.mp hs |>.imp_right Option.some.inj
  have hdel : s.Dx.DevicePnpState ≠ .Deleted := by
    rcases hsettled with hstate | hstate | hstate <;> simp [hstate]
  obtain ⟨hown, halive, hmatch⟩ := h.lives hplace hdel
  rw [FdoSetDevicePnpState_eq halive hdel]
  refine h.setDx hplace ⟨hown, halive, ?_⟩
  rcases hsettled with hstate | hstate | hstate <;> simp only [hstate] at hmatch ⊢
  · exact .inr ⟨.inl trivial, hmatch.2⟩
  · exact .inl ⟨trivial, hmatch⟩
  · exact .inr ⟨.inr trivial, hmatch.2⟩

theorem Sound.cancelRemoveDevice (h : Sound s) (hs : fdoStep s .cancelRemoveDevice = some t) : Sound t := by
  obtain ⟨⟨hplace, hstate⟩, rfl⟩ := Option.ite_none_right_eq_some.mp hs |>.imp_right Option.some.inj
  obtain ⟨hown, halive, hmatch⟩ := h.lives hplace (by simp [hstate])
  simp only [hstate] at hmatch
  rw [System.FdoRestoreDevicePnpState, System.touch_eq halive, Dx.RestoreDevicePnpState, if_pos hstate]
  refine h.setDx hplace ⟨hown, halive, ?_⟩
  rcases hmatch with ⟨hprevious, hruns⟩ | ⟨hprevious | hprevious, hscan⟩ <;> simp only [hprevious]
  · exact hruns
  · exact ⟨by simp, hscan⟩
  · exact ⟨by simp, hscan⟩

theorem Sound.surpriseRemoval (h : Sound s) (hs : fdoStep s .surpriseRemoval = some t) : Sound t := by
  obtain ⟨⟨hplace, hsettled⟩, rfl⟩ := Option.ite_none_right_eq_some.mp hs |>.imp_right Option.some.inj
  have hdel : s.Dx.DevicePnpState ≠ .Deleted := by
    rcases hsettled with hstate | hstate | hstate <;> simp [hstate]
  obtain ⟨hown, halive, hmatch⟩ := h.lives hplace hdel
  rw [FdoSetDevicePnpState_eq (s := s.goTo .surprise) halive hdel]
  refine h.move ⟨rfl, rfl, rfl, rfl⟩ (by simp [System.goTo]) (by simp [System.goTo]) h.event
    ⟨⟨hown, halive, ?_⟩, rfl⟩
  rcases hsettled with hstate | hstate | hstate <;> simp only [System.goTo, hstate] at hmatch ⊢
  · exact .inr ⟨.inl trivial, hmatch.2⟩
  · exact .inl ⟨trivial, hmatch⟩
  · exact .inr ⟨.inr trivial, hmatch.2⟩

theorem Sound.queryDeviceRelations (h : Sound s) (hs : fdoStep s .queryDeviceRelations = some t) : Sound t := by
  obtain ⟨⟨hplace, hstate⟩, rfl⟩ := Option.ite_none_right_eq_some.mp hs |>.imp_right Option.some.inj
  have hlives := h.lives hplace (by simp [hstate])
  rw [System.touch_eq hlives.2.1]
  exact h.move ⟨rfl, rfl, rfl, rfl⟩ (by simp) (by simp) h.event ⟨hlives, hstate⟩

/-! ## The removal of the FDO -/

/-- A device that the manager knows to be idle, or does not know. -/
theorem Sound.idle (h : Sound s) (hnodes : ∀ id ∈ s.Bus.List, (s.node id).idle) (id : ℕ) : (s.node id).idle := by
  rcases Nat.lt_or_ge id s.Bus.next with hlt | hge
  · rcases h.shape.every id hlt with hmem | hgone
    · exact hnodes id hmem
    · exact (h.nodes id hlt).idle_of_deleted (h.shape.gone id hgone).2.2
  · rw [h.fresh id hge]
    rfl

theorem Sound.removeDevice (h : Sound s) (hs : fdoStep s .removeDevice = some t) : Sound t := by
  obtain ⟨⟨hplace, hremovable, hnodes⟩, hrun⟩ := Option.ite_none_right_eq_some.mp hs
  have hdel : s.Dx.DevicePnpState ≠ .Deleted := by
    rcases hremovable with hstate | hstate | hstate | hstate <;> simp [hstate]
  obtain ⟨hown, halive, hmatch⟩ := h.lives hplace hdel
  by_cases hprevious : s.Dx.PreviousDevicePnpState = .Started
  · have hleaving : s.Leaving := by
      refine ⟨hown, halive, ?_⟩
      rcases hremovable with hstate | hstate | hstate | hstate <;> simp_all
    cases hactive : s.Active with
    | true =>
      have hscan : s.scan ≠ .none := fun hnone => by simp [hleaving.2.2.1.mp hnone] at hactive
      rw [if_neg (not_not.mpr hprevious), if_pos hactive, System.touchThread, if_neg hscan, System.touch_eq halive,
        Option.some_inj] at hrun
      subst hrun
      exact h.move ⟨rfl, rfl, rfl, rfl⟩ (by simp) (fun _ => h.idle hnodes) (by simp)
        ⟨hleaving, hactive, by simp⟩
    | false =>
      have hscan : s.scan = .none := hleaving.2.2.1.mpr hactive
      obtain rfl : s.goTo .removeSweep = t := by simpa [hprevious, hactive] using hrun
      exact h.move ⟨rfl, rfl, rfl, rfl⟩ (by simp [System.goTo]) (fun _ => h.idle hnodes) h.event
        ⟨hleaving, by simp [System.goTo, hscan, Scan.quiet]⟩
  · have hscan : s.scan = .none := by
      rcases hremovable with hstate | hstate | hstate | hstate <;> simp_all
    rw [if_pos hprevious, System.touch_eq halive, Option.some_inj] at hrun
    subst hrun
    exact h.move ⟨rfl, rfl, rfl, rfl⟩ (by simp) (by simp) h.event ⟨hown, halive, hscan, hremovable⟩

/-- The scan thread has set the event, so it has seen that the FDO is not `Started`, or has ended its pass. -/
theorem Sound.removeScanned (h : Sound s) (hs : fdoStep s .removeScanned = some t) : Sound t := by
  obtain ⟨⟨hplace, hset⟩, rfl⟩ := Option.ite_none_right_eq_some.mp hs |>.imp_right Option.some.inj
  obtain ⟨hleaving, -, hquiet⟩ : s.Leaving ∧ s.Active = true ∧ (s.ScanEvent = true → s.scan.quiet = true) := by
    simpa only [System.Control, hplace] using h.control
  rw [System.touch_eq hleaving.2.1]
  exact h.move ⟨rfl, rfl, rfl, rfl⟩ (by simp [System.goTo]) (fun _ => h.leaving (.inl hplace)) h.event
    ⟨hleaving, hquiet hset⟩

theorem Sound.removeAlert (h : Sound s) (hs : fdoStep s .removeAlert = some t) : Sound t := by
  obtain ⟨hplace, hrun⟩ := Option.ite_none_right_eq_some.mp hs
  obtain ⟨hleaving, hquiet⟩ : s.Leaving ∧ s.scan.quiet = true := by
    simpa only [System.Control, hplace] using h.control
  obtain ⟨hown, halive, hruns, -, hstate⟩ := id hleaving
  cases hactive : s.Active with
  | true =>
    have hscan : s.scan ≠ .none := fun hnone => by simp [hruns.mp hnone] at hactive
    rw [if_pos hactive, System.touchThread, if_neg hscan, System.touch_eq halive, Option.some_inj] at hrun
    subst hrun
    exact h.move ⟨rfl, rfl, rfl, rfl⟩ (by simp) (by simp) h.event ⟨hleaving, hquiet, hactive⟩
  | false =>
    have hscan : s.scan = .none := hruns.mpr hactive
    obtain rfl : s.goTo .removeDone = t := by simpa [hactive, System.touch_eq halive] using hrun
    exact h.move ⟨rfl, rfl, rfl, rfl⟩ (by simp [System.goTo]) (by simp [System.goTo]) h.event
      ⟨hown, halive, hscan, .inr (.inr hstate)⟩

theorem Sound.removeJoined (h : Sound s) (hs : fdoStep s .removeJoined = some t) : Sound t := by
  obtain ⟨⟨hplace, -⟩, rfl⟩ := Option.ite_none_right_eq_some.mp hs |>.imp_right Option.some.inj
  obtain ⟨⟨hown, halive, -, -, hstate⟩, -⟩ : s.Leaving ∧ s.scan.quiet = true ∧ s.Active = true := by
    simpa only [System.Control, hplace] using h.control
  rw [System.touch_eq halive]
  exact h.move ⟨rfl, rfl, rfl, rfl⟩ (by simp [System.goTo]) (by simp [System.goTo])
    (by simp [System.goTo, System.joined]) ⟨hown, halive, rfl, .inr (.inr hstate)⟩

theorem Sound.removeDone (h : Sound s) (hs : fdoStep s .removeDone = some t) : Sound t := by
  obtain ⟨hplace, rfl⟩ := Option.ite_none_right_eq_some.mp hs |>.imp_right Option.some.inj
  obtain ⟨hown, halive, hscan, hremovable⟩ : s.own = 1 ∧ s.allocated = true ∧ s.scan = .none ∧ s.Dx.removable := by
    simpa only [System.Control, hplace] using h.control
  have hdel : s.Dx.DevicePnpState ≠ .Deleted := by
    rcases hremovable with hstate | hstate | hstate | hstate <;> simp [hstate]
  rw [FdoSetDevicePnpState_eq (s := s.goTo .removeRelease) halive hdel]
  exact h.move ⟨rfl, rfl, rfl, rfl⟩ (by simp [System.goTo]) (by simp [System.goTo]) h.event
    ⟨hown, halive, hscan, rfl⟩

theorem Sound.removeCheck (h : Sound s) (hs : fdoStep s .removeCheck = some t) : Sound t := by
  obtain ⟨hplace, rfl⟩ := Option.ite_none_right_eq_some.mp hs |>.imp_right Option.some.inj
  obtain ⟨hremoved, halive⟩ : s.Removed ∧ s.allocated = true := by
    simpa only [System.Control, hplace] using h.control
  obtain ⟨allocated, hdestroy, hcontrol⟩ :=
    FdoDestroy_spec (s := s.goTo .idle) h.shape h.event (.inr ⟨hremoved, halive⟩)
  rw [System.touch_eq halive, hdestroy]
  exact h.move ⟨rfl, rfl, rfl, rfl⟩ (by simp [System.goTo]) (by simp [System.goTo]) h.event hcontrol

/-! ## Runs -/

theorem Sound.step (h : Sound s) {a : Action} (hs : step s a = some t) : Sound t := by
  cases a with
  | scan a => exact h.scanStep hs
  | pdo a => exact h.pdoStep hs
  | fdo a =>
    cases a with
    | startDevice => exact h.startDevice hs
    | started => exact h.started hs
    | startFailed => exact h.startFailed hs
    | startJoined => exact h.startJoined hs
    | queryStopDevice => exact h.queryStopDevice hs
    | cancelStopDevice => exact h.cancelStopDevice hs
    | stopDevice => exact h.stopDevice hs
    | stopJoined => exact h.stopJoined hs
    | queryRemoveDevice => exact h.queryRemoveDevice hs
    | cancelRemoveDevice => exact h.cancelRemoveDevice hs
    | surpriseRemoval => exact h.surpriseRemoval hs
    | surpriseMark => exact h.surpriseMark hs
    | queryDeviceRelations => exact h.queryDeviceRelations hs
    | report memory => exact h.report hs
    | forwarded success => exact h.forwarded hs
    | sweep => exact h.sweep hs
    | removeDevice => exact h.removeDevice hs
    | removeScanned => exact h.removeScanned hs
    | removeSweep => exact h.removeSweep hs
    | removeAlert => exact h.removeAlert hs
    | removeJoined => exact h.removeJoined hs
    | removeDone => exact h.removeDone hs
    | removeRelease => exact h.removeRelease hs
    | removeCheck => exact h.removeCheck hs

theorem sound_FdoCreate (Active : Bool) : Sound (FdoCreate Active) where
  failed := rfl
  shape :=
    { nodup := List.nodup_nil
      live := by simp [FdoCreate]
      below := by simp [FdoCreate]
      references := rfl
      once := List.nodup_nil
      gone := by simp [FdoCreate]
      every := by simp [FdoCreate]
      deleted := by simp [FdoCreate] }
  nodes := by simp [FdoCreate]
  fresh _ _ := rfl
  objects := by simp [FdoCreate]
  leaving := by simp [FdoCreate]
  event _ := rfl
  control := .inl ⟨rfl, rfl, by simp [FdoCreate], rfl⟩

theorem sound_of_reaches {Active : Bool} (h : Reaches step Free (FdoCreate Active) s) : Sound s :=
  h.invariant (sound_FdoCreate Active) fun _ _ _ hs _ hst => hs.step hst

end XenBus.Pnp
