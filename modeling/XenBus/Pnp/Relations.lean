import XenBus.Pnp.Removal

/-!
# The relations that the PnP manager has been given

A pass of the scan thread changes the list of the PDOs, and the manager learns of it when it queries the relations.
Between the two there is always something under way that leads to a query: the pass is about to invalidate the
relations, or the relations are invalid, or a query has begun (`Covered`). Where nothing is under way and no query
has failed, the manager has been given the PDOs that are not missing, in the order of the list, and none of the
others waits to be destroyed (`relations_settled`).

The order of the sections matters. A query takes the PDOs down before it is completed, and a pass that falls
between the two invalidates once more; a removal of a device that is missing leaves it on the list, and invalidates.
-/

namespace XenBus.Pnp

open Transition
open Fdo.Classes (PnpState CString Ansi)

variable {s t : System} {Active : Bool} {b b' : Pnp.Bus} {own : ℕ}

/-! ## A pass that finds nothing -/

/-- A walk that marks none and finds none to destroy leaves the list alone. -/
theorem walk_quiet {Pdos : List Fdo.Classes.Pdo} {Classes : List Ansi}
    (h : ∀ Pdo ∈ Pdos, Pdo.live → Pdo.DevicePnpState ≠ .Present)
    (hquiet : (Fdo.Classes.walk Pdos Classes).2.2 = false) : (Fdo.Classes.walk Pdos Classes).1 = Pdos := by
  induction Pdos generalizing Classes with
  | nil => rfl
  | cons Pdo Pdos ih =>
    obtain ⟨hPdo, hPdos⟩ := List.forall_mem_cons.mp h
    unfold Fdo.Classes.walk at hquiet ⊢
    by_cases hlive : Pdo.live
    · simp only [hlive, if_true] at hquiet ⊢
      cases hclaim : Fdo.Classes.claim Pdo.Name Classes with
      | some Classes' =>
        simp only [hclaim] at hquiet ⊢
        rw [ih hPdos hquiet]
      | none => simp [hclaim, hPdo hlive] at hquiet
    · simp only [hlive] at hquiet ⊢
      exact congrArg _ (ih hPdos hquiet)

theorem create_quiet {succeeds : CString → Bool} {c : Fdo.Classes.State} {NeedInvalidate : Bool}
    {Classes : List Ansi} (hquiet : (Fdo.Classes.create succeeds c NeedInvalidate Classes).2 = false) :
    NeedInvalidate = false ∧ (Fdo.Classes.create succeeds c NeedInvalidate Classes).1 = c := by
  induction Classes generalizing c NeedInvalidate with
  | nil => exact ⟨hquiet, rfl⟩
  | cons Class Classes ih =>
    unfold Fdo.Classes.create at hquiet ⊢
    split at hquiet
    · exact absurd (ih hquiet).1 (by simp)
    next hnew =>
      rw [if_neg hnew]
      exact ih hquiet

/-- A pass that does not invalidate the relations leaves the list alone, if the manager has been given all of it. -/
theorem FdoEnumerate_quiet {Enumerate : Option ℕ} {succeeds : CString → Bool} {c c' : Fdo.Classes.State}
    {Classes : List Ansi} (h : ∀ Pdo ∈ c.List, Pdo.live → Pdo.DevicePnpState ≠ .Present)
    (hrun : Fdo.Classes.FdoEnumerate Enumerate succeeds c Classes = (c', false)) : c' = c := by
  unfold Fdo.Classes.FdoEnumerate at hrun
  split at hrun
  · exact (Prod.mk.inj hrun).1.symm
  · obtain ⟨hneed, hcreate⟩ := create_quiet (congrArg Prod.snd hrun)
    have hlist := walk_quiet h hneed
    have hfst := congrArg Prod.fst hrun
    refine hfst.symm.trans (hcreate.trans ?_)
    rw [hlist]

/-- What the manager sees of two lists that look the same. -/
theorem filter_present_of_view (hb : b.Shape own) (hb' : b'.Shape own) (hview : b'.view = b.view) :
    b'.List.filter b'.present = b.List.filter b.present := by
  have hlist : b'.List.map b'.entry = b.List.map b.entry := congrArg Fdo.Classes.State.List hview
  have hids : b'.List = b.List := by
    have hid := congrArg (List.map Fdo.Classes.Pdo.id) hlist
    simpa [Bus.entry, Function.comp_def] using hid
  rw [hids] at hlist ⊢
  refine List.filter_congr fun id hid => ?_
  have hentry : b'.entry id = b.entry id := List.map_inj_left.mp hlist id hid
  obtain ⟨⟨Missing⟩, hPdo⟩ := hb.get hid
  obtain ⟨⟨Missing'⟩, hPdo'⟩ := hb'.get (hids ▸ hid)
  have hmissing : Missing' = Missing := by
    simpa [Bus.entry, hPdo, hPdo'] using congrArg Fdo.Classes.Pdo.Missing hentry
  rw [Bus.present, Bus.present, hPdo, hPdo', hmissing]

/-! ## What is under way -/

/-- The FDO is on its way out. -/
def System.Closing (s : System) : Prop :=
  s.Dx.DevicePnpState = .SurpriseRemovePending ∨ s.Dx.DevicePnpState = .Deleted ∨
    s.place = .removeWait ∨ s.place = .removeSweep ∨ s.place = .removeAlert ∨ s.place = .removeJoin ∨
    s.place = .removeDone ∨ s.place = .removeRelease ∨ s.place = .removeCheck

/-- The relations will be queried again, or a query has failed, or the FDO is on its way out. -/
def System.Covered (s : System) : Prop :=
  s.lost = true ∨ s.invalid = true ∨ s.place = .queryWait ∨ s.place = .pdoCheck true ∨
    s.place = .pdoInvalidate true ∨ s.Closing

/-- The PDOs that the manager has been given, or is about to be given. -/
def System.current (s : System) : List ℕ :=
  match s.place with
  | .queryForward Objects => Objects
  | _ => s.reported

/-- What the manager has of the list. -/
structure Picture (s : System) : Prop where
  /-- It knows what it has been given. -/
  known : ∀ id ∈ s.reported, s.node id ≠ .unknown
  /-- It has been given the PDOs that are not missing. -/
  current : ¬ s.Covered → s.scan ≠ .invalidate true → s.current = s.Bus.List.filter s.Bus.present
  /-- None of the others waits to be destroyed. -/
  swept : ¬ s.Covered → s.place ≠ .querySweep → (∀ ids, s.place ≠ .queryForward ids) →
    ∀ id ∈ s.Bus.List, (s.Bus.Dx id).DevicePnpState ≠ .Deleted

/-- The manager has not been given a PDO that is `Present`. -/
theorem Picture.not_present (h : Picture s) (hs : Sound s) {id : ℕ} (hid : id ∈ s.current) :
    (s.Bus.Dx id).DevicePnpState ≠ .Present := by
  have hreported (hmem : id ∈ s.reported) : (s.Bus.Dx id).DevicePnpState ≠ .Present := by
    have hnode := h.known id hmem
    have hlt : id < s.Bus.next := by
      by_contra hge
      exact hnode (hs.fresh id (Nat.not_lt.mp hge))
    exact fun hstate => hnode ((hs.nodes id hlt).unknown_of_present hstate)
  unfold System.current at hid
  split at hid
  next Objects hplace => exact (hs.objects Objects hplace id hid).1
  · exact hreported hid

/-- A step that changes nothing that the manager could see. -/
theorem Picture.of_same (h : Picture s) (hcovered : s.Covered → t.Covered) (hreported : t.reported = s.reported)
    (hnode : ∀ id ∈ s.reported, s.node id ≠ .unknown → t.node id ≠ .unknown)
    (hscan : s.scan = .invalidate true → t.scan = .invalidate true ∨ t.Covered) (hcurrent : t.current = s.current)
    (hfilter : t.Bus.List.filter t.Bus.present = s.Bus.List.filter s.Bus.present)
    (hplace : s.place = .querySweep ∨ (∃ ids, s.place = .queryForward ids) → t.place = s.place)
    (hdeleted : ∀ id ∈ t.Bus.List, (t.Bus.Dx id).DevicePnpState = .Deleted →
      id ∈ s.Bus.List ∧ (s.Bus.Dx id).DevicePnpState = .Deleted) : Picture t where
  known id hid := by
    rw [hreported] at hid
    exact hnode id hid (h.known id hid)
  current ht hscan' := by
    have hs : ¬ s.Covered := fun hcov => ht (hcovered hcov)
    have hnot : s.scan ≠ .invalidate true := fun hinvalid => (hscan hinvalid).elim hscan' ht
    rw [hcurrent, hfilter]
    exact h.current hs hnot
  swept ht hsweep hforward id hid hdel := by
    have hs : ¬ s.Covered := fun hcov => ht (hcovered hcov)
    obtain ⟨hid', hdel'⟩ := hdeleted id hid hdel
    refine h.swept hs (fun heq => ?_) (fun ids heq => ?_) id hid' hdel'
    · exact hsweep ((hplace (.inl heq)).trans heq)
    · exact hforward ids ((hplace (.inr ⟨ids, heq⟩)).trans heq)

/-- A step after which something is under way. -/
theorem Picture.of_covered (ht : t.Covered) (hknown : ∀ id ∈ t.reported, t.node id ≠ .unknown) : Picture t :=
  ⟨hknown, fun hnot => absurd ht hnot, fun hnot => absurd ht hnot⟩

/-! ## The scan thread -/

/-- A pass leaves no PDO that waits to be destroyed. -/
theorem Passed.deleted (h : Passed b b') (hb : b.Shape own) (hb' : b'.Shape own) {id : ℕ} (hid : id ∈ b'.List)
    (hdel : (b'.Dx id).DevicePnpState = .Deleted) : id ∈ b.List ∧ (b.Dx id).DevicePnpState = .Deleted := by
  have hlive : (b'.Pdo id).isSome := (hb'.live id).mpr hid
  by_cases hmem : id ∈ b.List
  · have hcell {c c' : Cell} (h : EnumerateCell c c') (hlive : c'.2.isSome) (hdel : c'.1.DevicePnpState = .Deleted) :
        c.1.DevicePnpState = .Deleted := by
      cases h with
      | keep => exact hdel
      | discard => cases hlive
      | mark => exact hdel
    exact ⟨hmem, hcell (h.each id hmem) hlive hdel⟩
  · rcases Nat.lt_or_ge id b.next with hlt | hge
    · have hPdo : b'.Pdo id = b.Pdo id := congrArg Prod.snd (h.rest id hlt hmem)
      exact absurd ((hb.live id).mp (hPdo ▸ hlive)) hmem
    · rw [(h.new id hid hge).1] at hdel
      cases hdel

theorem Picture.scanStep (h : Picture s) (hs : Sound s) {a : ScanAction} (hst : scanStep s a = some t) :
    Picture t := by
  obtain ⟨hscan, hcases⟩ := scanStep_cases hst
  obtain ⟨halive, hown⟩ := hs.control.allocated hscan
  rcases hcases with ⟨scan, ScanEvent, invalid, rfl, -, hscan', -, -, hinvalid⟩ |
    ⟨Enumerate, succeeds, Classes, henumerate, hnames, rfl⟩
  · rw [System.touch_eq halive]
    refine h.of_same ?_ rfl (fun _ _ hnode => hnode) ?_ rfl rfl (fun _ => rfl) fun id hid hdel => ⟨hid, hdel⟩
    · rintro (hcov | hcov | hcov)
      · exact .inl hcov
      · exact .inr (.inl (by simp [hinvalid, hcov]))
      · exact .inr (.inr hcov)
    · intro hpending
      exact .inr (.inr (.inl (by simp [hinvalid, hpending])))
  · obtain ⟨b', NeedInvalidate, hb', hshape, hpassed, hview⟩ :=
      FdoEnumerate_refines Enumerate succeeds hs.shape (by simp [hown]) hnames
    simp only [hb', System.touch_eq halive]
    refine ⟨h.known, fun hcov hneed => ?_, fun hcov hsweep hforward id hid hdel => ?_⟩
    · have hneed : NeedInvalidate = false := by simpa using hneed
      have hcurrent := h.current hcov (by simp [henumerate])
      have hquiet : b'.view = s.Bus.view := by
        refine FdoEnumerate_quiet (fun Pdo hPdo hlive => ?_) (hneed ▸ hview)
        obtain ⟨id, hid, rfl⟩ := List.mem_map.mp hPdo
        obtain ⟨⟨Missing⟩, hPdo'⟩ := hs.shape.get hid
        have hpresent : s.Bus.present id = true := by
          simp only [Fdo.Classes.Pdo.live, Bus.entry, hPdo', Option.map_some, Option.getD_some] at hlive
          simp_all [Bus.present]
        have hmem : id ∈ s.current := hcurrent ▸ List.mem_filter.mpr ⟨hid, hpresent⟩
        exact h.not_present hs hmem
      exact hcurrent.trans (filter_present_of_view hs.shape hshape hquiet).symm
    · obtain ⟨hid', hdel'⟩ := hpassed.deleted hs.shape hshape hid hdel
      exact h.swept hcov hsweep hforward id hid' hdel'

/-! ## Requests to the PDOs -/

/-- The manager does not forget a device. -/
theorem Node.after_ne_unknown {node : Node} {minor : Minor} {refused : Bool} (hnode : node ≠ .unknown) :
    node.after minor refused ≠ .unknown := by
  cases node <;> cases minor <;> cases refused <;> simp_all [Node.after]

theorem Picture.request (h : Picture s) (hs : Sound s) {id : ℕ} {minor : Minor}
    (hst : pdoStep s (.request id minor) = some t) : Picture t := by
  obtain ⟨hplace, -, -, hcases⟩ := hs.request_cases hst
  have hknown (refused : Bool) (j : ℕ) (hnode : s.node j ≠ .unknown) :
      Function.update s.node id ((s.node id).after minor refused) j ≠ .unknown := by
    rcases eq_or_ne j id with rfl | hne
    · rw [Function.update_self]
      exact Node.after_ne_unknown hnode
    · rwa [Function.update_of_ne hne]
  have hcovered {place : Place} {b : Pnp.Bus} {node : ℕ → Node} (hcov : s.Covered) :
      System.Covered { s with
        Bus := b
        node := node
        place := place } := by
    rcases hcov with hcov | hcov | hcov | hcov | hcov | hcov
    · exact .inl hcov
    · exact .inr (.inl hcov)
    · simp [hplace] at hcov
    · simp [hplace] at hcov
    · simp [hplace] at hcov
    · refine .inr (.inr (.inr (.inr (.inr ?_))))
      rcases hcov with hcov | hcov | hcov
      · exact .inl hcov
      · exact .inr (.inl hcov)
      · simp [hplace] at hcov
  rcases hcases with ⟨-, rfl⟩ | ⟨hmem, -, b', NeedInvalidate, place, -, hreq, hto, rfl⟩
  · exact h.of_same hcovered rfl (fun j _ => hknown true j) .inl (by simp [System.current, hplace]) rfl
      (by simp [hplace]) fun j hj hdel => ⟨hj, hdel⟩
  · cases NeedInvalidate with
    | true =>
      obtain rfl : place = .pdoCheck true := by simpa using hto
      exact Picture.of_covered (.inr (.inr (.inr (.inl rfl)))) fun j hj => hknown false j (h.known j hj)
    | false =>
      have hcurrent : place = .pdoCheck false ∨ place = .idle := hto.imp_right And.left
      refine h.of_same hcovered rfl (fun j _ => hknown false j) .inl ?_ (hreq.same rfl) (by simp [hplace])
        fun j hj hdel => ?_
      · rcases hcurrent with rfl | rfl <;> simp [System.current, hplace]
      · have hne : j ≠ id := fun heq => hreq.deleted rfl (heq ▸ hj) (heq ▸ hdel)
        have hDx : b'.Dx j = s.Bus.Dx j := congrArg Prod.fst (hreq.only.other j hne)
        refine ⟨?_, hDx ▸ hdel⟩
        rcases hreq.only.list with hlist | hlist
        · exact hlist ▸ hj
        · exact List.mem_of_mem_erase (hlist ▸ hj)

theorem Picture.pdoStep (h : Picture s) (hs : Sound s) {a : PdoAction} (hst : pdoStep s a = some t) :
    Picture t := by
  cases a with
  | request id minor => exact h.request hs hst
  | check =>
    cases hplace : s.place <;> simp only [Pnp.pdoStep, hplace, reduceCtorEq, Option.some_inj] at hst
    next NeedInvalidate =>
      refine h.of_same ?_ (by grind) (by grind) (by grind) (by grind [System.current]) (by grind) (by grind) (by grind)
      cases NeedInvalidate <;> grind [System.Covered, System.Closing]
  | invalidate =>
    cases hplace : s.place <;> simp only [Pnp.pdoStep, hplace, reduceCtorEq] at hst
    next NeedInvalidate =>
      refine h.of_same ?_ (by grind) (by grind) (by grind) (by grind [System.current]) (by grind) (by grind) (by grind)
      cases NeedInvalidate <;> grind [System.Covered, System.Closing]

/-! ## Requests to the FDO -/

/-- A loop that leaves alone what is not missing. -/
theorem Walked.filter_present {E : Cell → Cell → Prop} (h : Walked E b [] b')
    (hpresent : ∀ id ∈ b.List, b'.present id = b.present id) :
    b'.List.filter b'.present = b.List.filter b.present := by
  rw [h.list, List.filter_filter]
  refine List.filter_congr fun id hid => ?_
  rw [← hpresent id hid, Bool.and_eq_left_iff_imp]
  intro hpres
  have hPdo : b'.Pdo id = some ⟨false⟩ := by simpa [Bus.present] using hpres
  simp [hPdo]

theorem report_present {id : ℕ} (h : b'.cell id = reportCell (b.cell id)) : b'.present id = b.present id := by
  have hPdo : b'.Pdo id = (reportCell (b.cell id)).2 := congrArg Prod.snd h
  rw [Bus.present, hPdo, reportCell]
  split <;> rfl

/-- What the sweep destroys is missing. -/
theorem sweep_present {id : ℕ} (hb : b.Shape own) (hid : id ∈ b.List) (h : b'.cell id = sweepCell (b.cell id)) :
    b'.present id = b.present id := by
  have hPdo : b'.Pdo id = (sweepCell (b.cell id)).2 := congrArg Prod.snd h
  rw [Bus.present, hPdo, sweepCell]
  split
  next hdel =>
    obtain ⟨⟨Missing⟩, hPdo'⟩ := hb.get hid
    have hmissing : Missing = true := hb.deleted id _ hPdo' hdel
    simp [Bus.present, hPdo', hmissing]
  · rfl

theorem Picture.report (h : Picture s) (hs : Sound s) {memory : Bool} (hst : fdoStep s (.report memory) = some t) :
    Picture t := by
  obtain ⟨⟨hplace, -⟩, hrun⟩ := Option.ite_none_right_eq_some.mp hst
  obtain ⟨hlives, -⟩ : s.Lives ∧ s.Dx.DevicePnpState = .Started := by
    simpa only [System.Control, hplace] using hs.control
  cases memory with
  | false =>
    have ht : t = { s with
        lost := true
        place := .idle } := by
      simpa [System.touch_eq hlives.2.1] using hrun.symm
    rw [ht]
    exact Picture.of_covered (.inl rfl) h.known
  | true =>
    obtain ⟨b', hb', -, hwalked⟩ := report_walked hs.shape
    have ht : t = { s with
        Bus := b'
        place := .queryForward (s.Bus.List.filter s.Bus.present) } := by
      simpa [hb', System.touch_eq hlives.2.1] using hrun.symm
    rw [ht]
    refine ⟨h.known, fun _ _ => ?_, fun _ _ hnot => absurd rfl (hnot _)⟩
    exact (hwalked.filter_present fun id hid => report_present (hwalked.each id hid List.not_mem_nil)).symm

theorem Picture.forwarded (h : Picture s) (hs : Sound s) {success : Bool}
    (hst : fdoStep s (.forwarded success) = some t) : Picture t := by
  cases hplace : s.place <;> simp only [fdoStep, hplace, reduceCtorEq] at hst
  next Objects =>
    obtain ⟨hlives, hstarted⟩ : s.Lives ∧ s.Dx.DevicePnpState = .Started := by
      simpa only [System.Control, hplace] using hs.control
    cases success with
    | false =>
      have ht : t = { s with
          lost := true
          place := .idle } := by
        simpa [System.touch_eq hlives.2.1] using hst.symm
      rw [ht]
      exact Picture.of_covered (.inl rfl) h.known
    | true =>
      obtain rfl : _ = t := Option.some.inj hst
      refine ⟨fun id hid => ?_, fun hcov hscan => ?_, fun _ hnot => absurd rfl hnot⟩
      · change tell s.node Objects id ≠ .unknown
        by_cases hnode : s.node id = .unknown
        · rw [tell, if_pos ⟨hid, hnode⟩]
          simp
        · rw [tell, if_neg fun hnew => hnode hnew.2]
          exact hnode
      · have hcov' : ¬ s.Covered := by
          simp only [System.Covered, System.Closing, hplace, hstarted] at hcov ⊢
          simpa using hcov
        have hcurrent := h.current hcov' hscan
        rwa [System.current, hplace] at hcurrent

theorem Picture.sweep (h : Picture s) (hs : Sound s) (hst : fdoStep s .sweep = some t) : Picture t := by
  obtain ⟨hplace, hrun⟩ := Option.ite_none_right_eq_some.mp hst
  obtain ⟨hlives, hstarted⟩ : s.Lives ∧ s.Dx.DevicePnpState = .Started := by
    simpa only [System.Control, hplace] using hs.control
  obtain ⟨b', hb', hshape, hwalked⟩ := sweep_walked hs.shape
  have ht : t = { s with
      Bus := b'
      place := .idle } := by
    simpa [System.locked, hb', System.touch, System.goTo, hlives.2.1] using hrun.symm
  rw [ht]
  refine ⟨h.known, fun hcov hscan => ?_, fun _ _ _ id hid hdel => ?_⟩
  · have hcov' : ¬ s.Covered := by
      simp only [System.Covered, System.Closing, hplace, hstarted] at hcov ⊢
      simpa using hcov
    have hcurrent := h.current hcov' hscan
    rw [System.current, hplace] at hcurrent
    refine hcurrent.trans (hwalked.filter_present fun id hid => ?_).symm
    exact sweep_present hs.shape hid (hwalked.each id hid List.not_mem_nil)
  · obtain ⟨hmem, hlive⟩ := List.mem_filter.mp (hwalked.list ▸ hid)
    have hDx : b'.Dx id = (sweepCell (s.Bus.cell id)).1 := congrArg Prod.fst (hwalked.each id hmem List.not_mem_nil)
    have hPdo : b'.Pdo id = (sweepCell (s.Bus.cell id)).2 := congrArg Prod.snd (hwalked.each id hmem List.not_mem_nil)
    rw [hPdo, sweepCell] at hlive
    rw [hDx, sweepCell] at hdel
    split at hlive
    · cases hlive
    next hnot =>
      rw [if_neg hnot] at hdel
      exact hnot hdel

/-- After the requests that take the FDO down, or begin a query, something is under way. -/
theorem fdoStep_covered (hs : Sound s) {a : FdoAction} (hst : fdoStep s a = some t)
    (ha : a = .surpriseMark ∨ a = .surpriseRemoval ∨ a = .queryDeviceRelations ∨ a = .removeDevice ∨
      a = .removeScanned ∨ a = .removeSweep ∨ a = .removeAlert ∨ a = .removeJoined ∨ a = .removeDone ∨
      a = .removeRelease ∨ a = .removeCheck) :
    t.Covered ∧ t.reported = s.reported ∧ t.node = s.node := by
  have hcontrol := hs.control
  have ht := (hs.step (a := .fdo a) hst).failed
  rcases ha with rfl | rfl | rfl | rfl | rfl | rfl | rfl | rfl | rfl | rfl | rfl
  case inr.inr.inr.inl =>
    obtain ⟨-, hrun⟩ := Option.ite_none_right_eq_some.mp hst
    split_ifs at hrun <;> grind [System.Covered, System.Closing]
  all_goals
    simp only [fdoStep, Option.ite_none_right_eq_some] at hst
    grind [System.Control, System.Removed, System.Covered, System.Closing, Dx.SetDevicePnpState]

/-- The requests that start and stop the FDO leave the bus alone. -/
theorem fdoStep_quiet (hs : Sound s) {a : FdoAction} (hst : fdoStep s a = some t)
    (ha : a = .startDevice ∨ a = .started ∨ a = .startFailed ∨ a = .startJoined ∨ a = .queryStopDevice ∨
      a = .cancelStopDevice ∨ a = .stopDevice ∨ a = .stopJoined ∨ a = .queryRemoveDevice ∨ a = .cancelRemoveDevice) :
    t.Bus = s.Bus ∧ t.node = s.node ∧ t.reported = s.reported ∧ (s.Covered → t.Covered) ∧
      (s.scan = .invalidate true → t.scan = .invalidate true) ∧ t.current = s.current ∧
      ¬ (s.place = .querySweep ∨ ∃ ids, s.place = .queryForward ids) := by
  have hcontrol := hs.control
  rcases ha with rfl | rfl | rfl | rfl | rfl | rfl | rfl | rfl | rfl | rfl
  all_goals
    simp only [fdoStep, Option.ite_none_right_eq_some] at hst
    refine ⟨by grind, by grind, by grind, ?_, ?_, by grind [System.current], by grind⟩
    · grind [System.Control, System.Lives, System.Removed, System.Covered, System.Closing, Dx.SetDevicePnpState,
        Dx.RestoreDevicePnpState, Dx.settled]
    · grind [System.Control, System.Lives, System.Removed]

theorem Picture.fdoStep (h : Picture s) (hs : Sound s) {a : FdoAction} (hst : fdoStep s a = some t) :
    Picture t := by
  have hquiet (ha : a = .startDevice ∨ a = .started ∨ a = .startFailed ∨ a = .startJoined ∨ a = .queryStopDevice ∨
      a = .cancelStopDevice ∨ a = .stopDevice ∨ a = .stopJoined ∨ a = .queryRemoveDevice ∨
      a = .cancelRemoveDevice) : Picture t := by
    obtain ⟨hbus, hnode, hreported, hcovered, hscan, hcurrent, hplace⟩ := fdoStep_quiet hs hst ha
    refine h.of_same hcovered hreported (fun id _ => ?_) (fun hpending => .inl (hscan hpending)) hcurrent ?_
      (fun hquery => absurd hquery hplace) ?_
    · rw [hnode]
      exact fun hknown => hknown
    · rw [hbus]
    · rw [hbus]
      exact fun id hid hdel => ⟨hid, hdel⟩
  have hcovered (ha : a = .surpriseMark ∨ a = .surpriseRemoval ∨ a = .queryDeviceRelations ∨ a = .removeDevice ∨
      a = .removeScanned ∨ a = .removeSweep ∨ a = .removeAlert ∨ a = .removeJoined ∨ a = .removeDone ∨
      a = .removeRelease ∨ a = .removeCheck) : Picture t := by
    obtain ⟨ht, hreported, hnode⟩ := fdoStep_covered hs hst ha
    refine Picture.of_covered ht ?_
    rw [hreported, hnode]
    exact h.known
  cases a with
  | report memory => exact h.report hs hst
  | forwarded success => exact h.forwarded hs hst
  | sweep => exact h.sweep hs hst
  | startDevice | started | startFailed | startJoined | queryStopDevice | cancelStopDevice | stopDevice
  | stopJoined | queryRemoveDevice | cancelRemoveDevice => exact hquiet (by simp)
  | _ => exact hcovered (by simp)

/-! ## Runs -/

theorem picture_of_reaches (h : Reaches step Free (FdoCreate Active) s) : Picture s := by
  suffices hboth : Sound s ∧ Picture s from hboth.2
  refine h.invariant (P := fun s => Sound s ∧ Picture s) ⟨sound_FdoCreate Active, ?_⟩ ?_
  · exact ⟨by simp [FdoCreate], fun _ _ => rfl, by simp [FdoCreate]⟩
  · intro s a t hs _ hst
    refine ⟨hs.1.step hst, ?_⟩
    cases a with
    | scan a => exact hs.2.scanStep hs.1 hst
    | fdo a => exact hs.2.fdoStep hs.1 hst
    | pdo a => exact hs.2.pdoStep hs.1 hst

/-- **The manager knows the list.** In every state that is reached while the FDO is started, if no request is being
handled, no pass is about to invalidate the relations, they have not been invalidated since the last query, and no
query has failed, then the manager has been given the PDOs that are not missing, and no PDO waits to be
destroyed. -/
theorem relations_settled (h : Reaches step Free (FdoCreate Active) s) (hplace : s.place = .idle)
    (hstarted : s.Dx.DevicePnpState = .Started) (hscan : s.scan ≠ .invalidate true) (hinvalid : s.invalid = false)
    (hlost : s.lost = false) :
    s.reported = s.Bus.List.filter s.Bus.present ∧
      ∀ id ∈ s.Bus.List, (s.Bus.Dx id).DevicePnpState ≠ .Deleted := by
  have hpicture := picture_of_reaches h
  have hcov : ¬ s.Covered := by simp [System.Covered, System.Closing, hplace, hstarted, hinvalid, hlost]
  have hcurrent := hpicture.current hcov hscan
  rw [System.current, hplace] at hcurrent
  exact ⟨hcurrent, hpicture.swept hcov (by simp [hplace]) (by simp [hplace])⟩

/-- Two devices are found and reported, one of them is started and disappears, and the manager removes it; another
query destroys it. -/
def disappearRun : List Action :=
  let pass (Classes : List (List Char)) : List Action :=
    [.scan .wake, .scan .isAlerted, .scan .getState,
      .scan (.enumerate none (fun _ => true) (Classes.map Fdo.Classes.newAnsi)), .scan .invalidate, .scan .setEvent]
  let query : List Action := [.fdo .queryDeviceRelations, .fdo (.report true), .fdo (.forwarded true), .fdo .sweep]
  [.fdo .startDevice, .fdo .started] ++ pass [['V', 'I', 'F'], ['V', 'B', 'D']] ++ query ++
    [.pdo (.request 0 .startDevice)] ++ pass [['V', 'B', 'D']] ++ query ++
    [.pdo (.request 0 .removeDevice), .pdo .check, .pdo .invalidate] ++ query

/-- The end of the run. -/
def disappearEnd : System := (run step (FdoCreate true) disappearRun).get (by decide)

theorem reaches_disappearEnd : Reaches step Free (FdoCreate true) disappearEnd :=
  reaches_of_run (Option.some_get _).symm

theorem relations_settled_disappearEnd :
    disappearEnd.reported = disappearEnd.Bus.List.filter disappearEnd.Bus.present ∧
      ∀ id ∈ disappearEnd.Bus.List, (disappearEnd.Bus.Dx id).DevicePnpState ≠ .Deleted :=
  relations_settled reaches_disappearEnd (by decide) (by decide) (by decide) (by decide) (by decide)

end XenBus.Pnp
