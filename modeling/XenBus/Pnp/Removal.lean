import XenBus.Pnp.Lifetime

/-!
# What is left after a removal

`FdoRemoveDevice` destroys the PDOs but those that have been surprise-removed and have not got their own removal
yet; each of these keeps the FDO until it does. From the sweep on (`Swept`) there are no others, and no pass of the
scan thread creates one, so that the last of the removals frees the FDO, and nothing is left (`nothing_left`). A
removal that does not find the FDO `Started` before the query skips all of this (`skipped`), as the source does.
-/

namespace XenBus.Pnp

open Transition
open Fdo.Classes (PnpState CString Ansi)

variable {s t : System} {Active : Bool}

/-! ## The lifetime of the devices -/

/-- The FDO has been freed: nothing refers to it, and no thread uses it. -/
theorem Sound.freed (h : Sound s) (hfree : s.allocated = false) : s.Bus.References = 0 ∧ s.scan = .none := by
  have hremoved : s.Removed ∧ (s.allocated = true ↔ s.Bus.List ≠ []) := by
    have hcontrol := h.control
    unfold System.Control at hcontrol
    split at hcontrol <;> simp_all [System.Lives, System.Leaving]
  obtain ⟨⟨hown, -, hscan⟩, hlist⟩ := hremoved
  have hnil : s.Bus.List = [] := by simpa [hfree] using hlist
  exact ⟨by simp [h.shape.references, hown, hnil], hscan⟩

/-- **No run fails.** No assertion fails and no memory is used that has been freed. The PDOs that are allocated are
those on the list, none is destroyed twice, and each of them holds one reference to the FDO; a device whose driver
is in use has its PDO. The FDO is there as long as something refers to it, and no longer. The names of the classes
are as short as `__PdoSetName` asserts, and one request is handled at a time. -/
theorem lifetime (h : Reaches step Free (FdoCreate Active) s) :
    s.failed = false ∧
    (∀ id, (s.Bus.Pdo id).isSome ↔ id ∈ s.Bus.List) ∧ s.Bus.List.Nodup ∧ s.Bus.destroyed.Nodup ∧
    s.Bus.References = s.own + s.Bus.List.length ∧
    (∀ id, (s.node id).idle = false → id ∈ s.Bus.List) ∧
    (s.allocated = false → s.Bus.References = 0 ∧ s.scan = .none) ∧
    (s.place = .idle → s.Bus.References = 0 → s.allocated = false) := by
  have hsound := sound_of_reaches h
  refine ⟨hsound.failed, hsound.shape.live, hsound.shape.nodup, hsound.shape.once, hsound.shape.references, ?_,
    hsound.freed, ?_⟩
  · intro id hbusy
    by_contra hnot
    have hlt : id < s.Bus.next := by
      by_contra hge
      rw [hsound.fresh id (Nat.not_lt.mp hge)] at hbusy
      cases hbusy
    have hgone := (hsound.shape.every id hlt).resolve_left hnot
    have hidle := (hsound.nodes id hlt).idle_of_deleted (hsound.shape.gone id hgone).2.2
    simp [hidle] at hbusy
  · intro hplace hrefs
    have hcontrol := hsound.control
    have hcount := hsound.shape.references
    simp only [System.Control, hplace] at hcontrol
    rcases hcontrol with hlives | ⟨hremoved, hlist⟩
    · have hown := hlives.1
      omega
    · have hnil : s.Bus.List = [] := List.length_eq_zero_iff.mp (by omega)
      simpa [hnil] using hlist

/-- One device is found, reported and started; then it and the FDO are surprise-removed, and the removal of the FDO
comes first. -/
def surpriseRun : List Action :=
  [.fdo .startDevice, .fdo .started, .scan .wake, .scan .isAlerted, .scan .getState,
    .scan (.enumerate none (fun _ => true) [Fdo.Classes.newAnsi ['V', 'I', 'F']]), .scan .invalidate, .scan .setEvent,
    .fdo .queryDeviceRelations, .fdo (.report true), .fdo (.forwarded true), .fdo .sweep,
    .pdo (.request 0 .startDevice), .pdo (.request 0 .surpriseRemoval), .fdo .surpriseRemoval, .fdo .surpriseMark,
    .fdo .removeDevice, .scan .wake, .scan .isAlerted, .scan .getState, .scan .setEvent, .fdo .removeScanned,
    .fdo .removeSweep, .fdo .removeAlert, .scan .wake, .scan .isAlerted, .scan .setEvent, .fdo .removeJoined,
    .fdo .removeDone, .fdo .removeRelease, .fdo .removeCheck,
    .pdo (.request 0 .removeDevice), .pdo .check, .pdo .invalidate]

/-- The end of the run. -/
def surpriseEnd : System := (run step (FdoCreate true) surpriseRun).get (by decide)

theorem reaches_surpriseEnd : Reaches step Free (FdoCreate true) surpriseEnd :=
  reaches_of_run (Option.some_get _).symm

theorem lifetime_surpriseEnd : surpriseEnd.failed = false ∧ surpriseEnd.Bus.destroyed.Nodup :=
  ⟨(lifetime reaches_surpriseEnd).1, (lifetime reaches_surpriseEnd).2.2.2.1⟩

/-! ## After the sweep -/

/-- The handler of `FdoRemoveDevice` has been through the list. -/
def System.Swept (s : System) : Prop :=
  s.place = .removeAlert ∨ s.place = .removeJoin ∨ s.place = .removeDone ∨ s.place = .removeRelease ∨
    s.place = .removeCheck ∨ s.own = 0

/-- The PDOs that are left have been surprise-removed, unless the handler has skipped them. -/
def Left (s : System) : Prop :=
  s.Swept → s.skipped = true ∨
    ∀ id ∈ s.Bus.List, (s.Bus.Dx id).DevicePnpState = .SurpriseRemovePending ∧ s.Bus.Pdo id = some ⟨true⟩

theorem Left.of_same (h : Left s) (hswept : t.Swept → s.Swept) (hskipped : t.skipped = s.skipped)
    (hlist : t.Bus.List = s.Bus.List) (hcell : t.Bus.cell = s.Bus.cell) : Left t := by
  intro ht
  rw [hskipped, hlist]
  refine (h (hswept ht)).imp_right fun hleft id hid => ?_
  obtain ⟨hDx, hPdo⟩ := Prod.mk.injEq .. ▸ congrFun hcell id
  rw [hDx, hPdo]
  exact hleft id hid

theorem fdoStep_own (h : Sound s) {a : FdoAction} (hs : fdoStep s a = some t) :
    s.own = 1 ∨ s.place = .removeCheck := by
  have hcontrol := h.control
  cases a with
  | forwarded success => cases success <;> grind [fdoStep, System.Control, System.Lives]
  | _ =>
    simp only [fdoStep, Option.ite_none_right_eq_some] at hs
    grind [System.Control, System.Lives, System.Removed, System.Leaving, Dx.settled, Dx.removable]

/-- Where the handler gets past the sweep, it has swept, or it skips it. -/
theorem fdoStep_swept (h : Sound s) {a : FdoAction} (hs : fdoStep s a = some t) (ha : a ≠ .removeSweep)
    (ht : t.Swept) :
    t.skipped = true ∨
      s.Swept ∧ t.skipped = s.skipped ∧ t.Bus.List = s.Bus.List ∧ t.Bus.cell = s.Bus.cell := by
  have hown := fdoStep_own h hs
  cases a with
  | forwarded success => cases success <;> grind [fdoStep, System.Swept]
  | removeDevice =>
    obtain ⟨-, hrun⟩ := Option.ite_none_right_eq_some.mp hs
    split_ifs at hrun <;> grind [System.Swept]
  | _ =>
    simp only [fdoStep, Option.ite_none_right_eq_some] at hs
    grind [System.Swept, Bus.cell]

/-- The sweep leaves the PDOs that have been surprise-removed. -/
theorem Left.removeSweep (h : Sound s) (hs : fdoStep s .removeSweep = some t) : Left t := by
  obtain ⟨hplace, hrun⟩ := Option.ite_none_right_eq_some.mp hs
  obtain ⟨hleaving, -⟩ : s.Leaving ∧ s.scan.quiet = true := by
    simpa only [System.Control, hplace] using h.control
  obtain ⟨b', hb', hshape, hwalked⟩ := remove_walked h.shape
  have ht : t.Bus = b' := by
    simp [System.locked, hb', System.touch, System.goTo, hleaving.2.1] at hrun
    exact hrun ▸ rfl
  refine fun _ => .inr fun id hid => ?_
  rw [ht] at hid ⊢
  obtain ⟨hmem, hlive⟩ := List.mem_filter.mp (hwalked.list ▸ hid)
  have hcell := hwalked.each id hmem List.not_mem_nil
  have hDx : b'.Dx id = (removeCell (s.Bus.cell id)).1 := congrArg Prod.fst hcell
  have hPdo : b'.Pdo id = (removeCell (s.Bus.cell id)).2 := congrArg Prod.snd hcell
  rw [hPdo] at hlive
  rw [hDx, hPdo]
  by_cases hstate : (s.Bus.Dx id).DevicePnpState = .SurpriseRemovePending
  · have hsurprise : removeCell (s.Bus.cell id) = surpriseCell (s.Bus.cell id) := if_pos hstate
    rw [hsurprise]
    exact ⟨hstate, rfl⟩
  · have hdiscard : removeCell (s.Bus.cell id) = discardCell (s.Bus.cell id) := if_neg hstate
    rw [hdiscard] at hlive
    cases hlive

/-- A request to a device after the sweep: nothing can come but the removal of one that is left. -/
theorem Left.request (h : Sound s) (hleft : Left s) {id : ℕ} {minor : Minor}
    (hs : pdoStep s (.request id minor) = some t) : Left t := by
  obtain ⟨hplace, hid, hallows, hcases⟩ := h.request_cases hs
  rcases hcases with ⟨-, rfl⟩ | ⟨hmem, -, b', NeedInvalidate, place, hb', -, hto, rfl⟩
  · exact hleft.of_same (by simp [System.Swept, hplace]) rfl rfl rfl
  · intro hswept
    have hown : s.own = 0 := by
      rcases hto with rfl | ⟨rfl, -⟩ <;> simpa [System.Swept] using hswept
    refine (hleft (by simp [System.Swept, hown])).imp_right fun hall => ?_
    obtain ⟨hstate, hPdo⟩ := hall id hmem
    have hminor : minor = .removeDevice := by
      rw [(h.nodes id hid).surprised hstate] at hallows
      cases minor <;> first | rfl | cases hallows
    subst hminor
    rw [PdoDispatchPnp, PdoRemoveDevice_surprised h.shape hPdo hstate, Option.some_inj] at hb'
    obtain rfl : s.Bus.discard id = b' := congrArg Prod.fst hb'
    obtain ⟨-, -, honly, -⟩ := discard_spec h.shape hPdo
    intro j hj
    obtain ⟨hne, hj'⟩ := h.shape.nodup.mem_erase_iff.mp hj
    obtain ⟨hDx', hPdo'⟩ := Prod.mk.injEq .. ▸ honly.other j hne
    rw [hDx', hPdo']
    exact hall j hj'

/-- The scan thread is in no pass then. -/
theorem Sound.not_swept (h : Sound s) (hscan : s.scan = .enumerate) : ¬ s.Swept := by
  have hcontrol := h.control
  obtain ⟨-, hown⟩ := hcontrol.allocated (by simp [hscan])
  rintro (hplace | hplace | hplace | hplace | hplace | hzero)
  · simp [System.Control, hplace, hscan, Scan.quiet] at hcontrol
  · simp [System.Control, hplace, hscan, Scan.quiet] at hcontrol
  · simp [System.Control, hplace, hscan] at hcontrol
  · simp [System.Control, hplace, hscan] at hcontrol
  · simp [System.Control, hplace, hscan, System.Removed] at hcontrol
  · simp [hown] at hzero

/-- What a step leaves. -/
theorem Left.step (h : Sound s) (hleft : Left s) {a : Action} (hs : step s a = some t) : Left t := by
  cases a with
  | scan a =>
    obtain ⟨hscan, hcases⟩ := scanStep_cases hs
    obtain ⟨halive, hown⟩ := h.control.allocated hscan
    rcases hcases with ⟨scan, ScanEvent, invalid, rfl, -⟩ | ⟨Enumerate, succeeds, Classes, henumerate, -, rfl⟩
    · rw [System.touch_eq halive]
      exact hleft.of_same (fun hswept => hswept) rfl rfl rfl
    · -- no pass goes on once the list has been swept
      intro hswept
      refine absurd ?_ (h.not_swept henumerate)
      revert hswept
      cases FdoEnumerate Enumerate succeeds s.Bus Classes <;>
        simp [System.Swept, System.fail, System.touch, halive]
  | fdo a =>
    by_cases ha : a = .removeSweep
    · subst ha
      exact Left.removeSweep h hs
    · intro hswept
      rcases fdoStep_swept h hs ha hswept with hskipped | ⟨hswept', hskipped, hlist, hcell⟩
      · exact .inl hskipped
      · exact hleft.of_same (fun _ => hswept') hskipped hlist hcell hswept
  | pdo a =>
    cases a with
    | request id minor => exact Left.request h hleft hs
    | check =>
      cases hplace : s.place <;> simp only [Pnp.step, pdoStep, hplace, reduceCtorEq, Option.some_inj] at hs
      exact hleft.of_same (by grind [System.Swept]) (by grind) (by grind) (by grind)
    | invalidate =>
      cases hplace : s.place <;> simp only [Pnp.step, pdoStep, hplace, reduceCtorEq] at hs
      exact hleft.of_same (by grind [System.Swept]) (by grind) (by grind) (by grind)

theorem left_of_reaches (h : Reaches step Free (FdoCreate Active) s) : Left s := by
  suffices hboth : Sound s ∧ Left s from hboth.2
  refine h.invariant (P := fun s => Sound s ∧ Left s) ⟨sound_FdoCreate Active, ?_⟩
    fun _ _ _ hs _ hst => ⟨hs.1.step hst, hs.2.step hs.1 hst⟩
  simp [Left, System.Swept, FdoCreate]

/-- The list has been swept, and no PDO has been created since the state `s`. -/
structure System.Since (s t : System) : Prop where
  swept : t.Swept
  skipped : t.skipped = s.skipped
  next : t.Bus.next = s.Bus.next

/-- From the sweep on a request to the FDO only goes on with its removal. -/
theorem System.Swept.fdoStep (h : Sound s) (hswept : s.Swept) {a : FdoAction} (hs : fdoStep s a = some t) :
    s.Since t := by
  have hplace : s.place = .removeAlert ∨ s.place = .removeJoin ∨ s.place = .removeDone ∨
      s.place = .removeRelease ∨ s.place = .removeCheck := by
    rcases fdoStep_own h hs with hown | hcheck
    · simpa [System.Swept, hown] using hswept
    · simp [hcheck]
  suffices hsince : t.Swept ∧ t.skipped = s.skipped ∧ t.Bus.next = s.Bus.next from
    ⟨hsince.1, hsince.2.1, hsince.2.2⟩
  cases a with
  | forwarded success => grind [Pnp.fdoStep]
  | removeCheck =>
    have hcontrol := h.control
    simp only [Pnp.fdoStep, Option.ite_none_right_eq_some] at hs
    grind [System.Control, System.Removed, System.Swept]
  | _ =>
    simp only [Pnp.fdoStep, Option.ite_none_right_eq_some] at hs
    grind [System.Swept]

/-- A request to a device creates none. -/
theorem System.Swept.pdoStep (h : Sound s) (hswept : s.Swept) {a : PdoAction} (hs : pdoStep s a = some t) :
    s.Since t := by
  cases a with
  | request id minor =>
    obtain ⟨hplace, -, -, hcases⟩ := h.request_cases hs
    have hown : s.own = 0 := by simpa [System.Swept, hplace] using hswept
    rcases hcases with ⟨-, rfl⟩ | ⟨-, -, b', NeedInvalidate, place, -, hreq, -, rfl⟩
    · exact ⟨by simp [System.Swept, hown], rfl, rfl⟩
    · exact ⟨by simp [System.Swept, hown], rfl, hreq.only.next⟩
  | check =>
    cases hplace : s.place <;> simp only [Pnp.pdoStep, hplace, reduceCtorEq, Option.some_inj] at hs
    have hown : s.own = 0 := by simpa [System.Swept, hplace] using hswept
    exact ⟨by grind [System.Swept], by grind, by grind⟩
  | invalidate =>
    cases hplace : s.place <;> simp only [Pnp.pdoStep, hplace, reduceCtorEq] at hs
    have hown : s.own = 0 := by simpa [System.Swept, hplace] using hswept
    exact ⟨by grind [System.Swept], by grind, by grind⟩

/-- **No step creates a PDO** once the list has been swept. -/
theorem System.Swept.step (h : Sound s) (hswept : s.Swept) {a : Action} (hs : step s a = some t) : s.Since t := by
  cases a with
  | scan a =>
    obtain ⟨hscan, hcases⟩ := scanStep_cases hs
    obtain ⟨halive, -⟩ := h.control.allocated hscan
    rcases hcases with ⟨scan, ScanEvent, invalid, rfl, -⟩ | ⟨-, -, -, henumerate, -⟩
    · rw [System.touch_eq halive]
      exact ⟨hswept, rfl, rfl⟩
    · exact absurd hswept (h.not_swept henumerate)
  | fdo a => exact hswept.fdoStep h hs
  | pdo a => exact hswept.pdoStep h hs

theorem since_of_reaches (h : Sound s) (hswept : s.Swept) (hrun : Reaches step Free s t) : s.Since t := by
  suffices hboth : Sound t ∧ s.Since t from hboth.2
  refine hrun.invariant (P := fun t => Sound t ∧ s.Since t) ⟨h, hswept, rfl, rfl⟩ fun u _ v hu _ huv => ?_
  have hsince := hu.2.swept.step hu.1 huv
  exact ⟨hu.1.step huv, hsince.swept, hsince.skipped.trans hu.2.skipped, hsince.next.trans hu.2.next⟩

/-- When the FDO has been removed and none of the devices that were surprise-removed waits for its own removal, every
PDO is gone. -/
theorem Left.nothing (hleft : Left s) (hsound : Sound s) (hskipped : s.skipped = false) (hplace : s.place = .idle)
    (hremoved : s.Dx.DevicePnpState = .Deleted) (hnodes : ∀ id < s.Bus.next, s.node id ≠ .surprised) :
    s.allocated = false ∧ s.Bus.References = 0 ∧ s.Bus.destroyed.Perm (List.range s.Bus.next) := by
  have hcontrol := hsound.control
  simp only [System.Control, hplace] at hcontrol
  obtain ⟨⟨hown, -, -⟩, hlist⟩ := hcontrol.resolve_left fun hlives => by simp [System.Lives, hremoved] at hlives
  have hall := (hleft (by simp [System.Swept, hown])).resolve_left (by simp [hskipped])
  have hnil : s.Bus.List = [] := by
    refine List.eq_nil_iff_forall_not_mem.mpr fun id hid => ?_
    have hlt := hsound.shape.below id hid
    exact hnodes id hlt ((hsound.nodes id hlt).surprised (hall id hid).1)
  refine ⟨by simpa [hnil] using hlist, by simp [hsound.shape.references, hown, hnil], ?_⟩
  refine (List.perm_ext_iff_of_nodup hsound.shape.once List.nodup_range).mpr fun id => ?_
  rw [List.mem_range]
  exact ⟨fun hgone => (hsound.shape.gone id hgone).1,
    fun hlt => (hsound.shape.every id hlt).resolve_left (by simp [hnil])⟩

/-- **A removal leaves nothing.** From the sweep on, whatever is done, no PDO is created, and only PDOs that were
surprise-removed are on the list, marked as missing. When the FDO has been removed and none of the devices that were
surprise-removed waits for its own removal, the FDO is freed, and every PDO that there ever was has been destroyed,
each of them once. -/
theorem nothing_left (h : Reaches step Free (FdoCreate Active) s) (hswept : s.Swept) (hskipped : s.skipped = false) :
    (∀ t, Reaches step Free s t → t.Bus.next = s.Bus.next ∧
      ∀ id ∈ t.Bus.List, (t.Bus.Dx id).DevicePnpState = .SurpriseRemovePending ∧ t.Bus.Pdo id = some ⟨true⟩) ∧
    (s.place = .idle → s.Dx.DevicePnpState = .Deleted → (∀ id < s.Bus.next, s.node id ≠ .surprised) →
      s.allocated = false ∧ s.Bus.References = 0 ∧ s.Bus.destroyed.Perm (List.range s.Bus.next)) := by
  have hsound := sound_of_reaches h
  refine ⟨fun t ht => ?_, (left_of_reaches h).nothing hsound hskipped⟩
  have hsince := since_of_reaches hsound hswept ht
  exact ⟨hsince.next, (left_of_reaches (h.trans ht) hsince.swept).resolve_left (by simp [hsince.skipped, hskipped])⟩

/-- The run up to the sweep. -/
def sweptEnd : System := (run step (FdoCreate true) (surpriseRun.take 23)).get (by decide)

theorem reaches_sweptEnd : Reaches step Free (FdoCreate true) sweptEnd :=
  reaches_of_run (Option.some_get _).symm

/-- The rest of it. -/
theorem surpriseEnd_of_sweptEnd : Reaches step Free sweptEnd surpriseEnd := by
  have hrun : run step (FdoCreate true) (surpriseRun.take 23 ++ surpriseRun.drop 23) = some surpriseEnd := by
    rw [List.take_append_drop]
    exact (Option.some_get _).symm
  have hswept : run step (FdoCreate true) (surpriseRun.take 23) = some sweptEnd := (Option.some_get _).symm
  rw [run_append, hswept, Option.bind_some] at hrun
  exact reaches_of_run hrun

/-- The device is left by the sweep, and gone at the end. -/
theorem nothing_left_surpriseEnd : 0 ∈ sweptEnd.Bus.List ∧
    (sweptEnd.Bus.Dx 0).DevicePnpState = .SurpriseRemovePending ∧ surpriseEnd.Bus.next = sweptEnd.Bus.next ∧
    surpriseEnd.allocated = false ∧ surpriseEnd.Bus.References = 0 ∧
    surpriseEnd.Bus.destroyed.Perm (List.range surpriseEnd.Bus.next) := by
  have hmem : 0 ∈ sweptEnd.Bus.List := by decide
  have hleft := (nothing_left reaches_sweptEnd (.inl (by decide)) (by decide)).1
  have hnothing := (nothing_left reaches_surpriseEnd (.inr (.inr (.inr (.inr (.inr (by decide)))))) (by decide)).2
  exact ⟨hmem, ((hleft sweptEnd (.refl _)).2 0 hmem).1, (hleft surpriseEnd surpriseEnd_of_sweptEnd).1,
    hnothing (by decide) (by decide) (by decide)⟩

end XenBus.Pnp
