import XenBus.Pnp.Sections

/-!
# A pass over the classes, in memory

`FdoEnumerate` on the PDOs in memory is the `FdoEnumerate` of `XenBus.Fdo.Classes` on the list of them:
`FdoEnumerate_refines` says that it goes through, keeps the shape of the list, and returns the list and the
`NeedInvalidate` that the other one computes. What a pass may do to a PDO is `enumerateCell`: leave it alone,
mark it, or destroy it, and it destroys none that has been reported.
-/

namespace XenBus.Pnp

open Fdo.Classes (PnpState CString Ansi claim MAX_DEVICE_ID_LEN)

/-! ## The list of the PDOs -/

/-- The PDO as `XenBus.Fdo.Classes` has it. -/
def Bus.entry (b : Bus) (id : ℕ) : Fdo.Classes.Pdo :=
  ⟨id, (b.Dx id).Name, ((b.Pdo id).map (·.Missing)).getD true, (b.Dx id).DevicePnpState⟩

def Bus.view (b : Bus) : Fdo.Classes.State := ⟨b.List.map b.entry, b.next⟩

theorem Bus.entry_congr {b b' : Bus} {id : ℕ} (h : b'.cell id = b.cell id) : b'.entry id = b.entry id := by
  obtain ⟨hDx, hPdo⟩ := Prod.mk.injEq .. ▸ h
  rw [entry, entry, hDx, hPdo]

variable {b b' : Bus} {id own : ℕ}

theorem only_entry (h : Bus.Only id b b') {ids : List ℕ} (hid : id ∉ ids) :
    ids.map b'.entry = ids.map b.entry :=
  List.map_congr_left fun j hj => Bus.entry_congr (h.other j fun heq => hid (heq ▸ hj))

/-! ## The walk over the PDOs -/

/-- What a pass does to a PDO. -/
inductive EnumerateCell (c : Cell) : Cell → Prop
  | keep : EnumerateCell c c
  | discard (hPdo : c.2 = some ⟨false⟩) (hstate : c.1.DevicePnpState = .Present) : EnumerateCell c (discardCell c)
  | mark (hPdo : c.2 = some ⟨false⟩) (hpresent : c.1.DevicePnpState ≠ .Present)
      (hdeleted : c.1.DevicePnpState ≠ .Deleted) : EnumerateCell c (surpriseCell c)

/-- One entry: the PDO stays as it is, or it is destroyed, or it is marked. -/
theorem enumerateEntry_cases {e : Enumeration} (h : e.Bus.Shape own) (hid : id ∈ e.Bus.List) :
    (∃ Classes, enumerateEntry e id = some { e with Classes := Classes } ∧
      ∀ Pdos, Fdo.Classes.walk (e.Bus.entry id :: Pdos) e.Classes =
        (e.Bus.entry id :: (Fdo.Classes.walk Pdos Classes).1, (Fdo.Classes.walk Pdos Classes).2)) ∨
    (e.Bus.Pdo id = some ⟨false⟩ ∧ (e.Bus.Dx id).DevicePnpState = .Present ∧
      enumerateEntry e id = some { e with Bus := (e.Bus.mark id).discard id } ∧
      ∀ Pdos, Fdo.Classes.walk (e.Bus.entry id :: Pdos) e.Classes = Fdo.Classes.walk Pdos e.Classes) ∨
    (e.Bus.Pdo id = some ⟨false⟩ ∧ (e.Bus.Dx id).DevicePnpState ≠ .Present ∧
      (e.Bus.Dx id).DevicePnpState ≠ .Deleted ∧
      enumerateEntry e id = some { e with
        Bus := e.Bus.mark id
        NeedInvalidate := true } ∧
      ∀ Pdos, Fdo.Classes.walk (e.Bus.entry id :: Pdos) e.Classes =
        ((e.Bus.mark id).entry id :: (Fdo.Classes.walk Pdos e.Classes).1,
          (Fdo.Classes.walk Pdos e.Classes).2.1, true)) := by
  obtain ⟨⟨Missing⟩, hPdo⟩ := h.get hid
  by_cases hlive : (e.Bus.entry id).live
  · have hcond : Missing = false ∧ (e.Bus.Dx id).DevicePnpState ≠ .Deleted := by
      simpa [Fdo.Classes.Pdo.live, Bus.entry, hPdo] using hlive
    obtain ⟨rfl, hdel⟩ := hcond
    cases hclaim : claim (e.Bus.Dx id).Name e.Classes with
    | some Classes =>
      refine .inl ⟨Classes, ?_, fun Pdos => ?_⟩
      · simp [enumerateEntry, Bus.PdoIsMissing_eq hPdo, Bus.PdoGetDevicePnpState_eq hPdo, hdel, hclaim]
      · have hname : claim (e.Bus.entry id).Name e.Classes = some Classes := hclaim
        simp only [Fdo.Classes.walk, hlive, if_true, hname]
    | none =>
      have hmark : (e.Bus.mark id).Pdo id = some ⟨true⟩ := by simp [Bus.mark]
      have hstate : ((e.Bus.mark id).Dx id).DevicePnpState = (e.Bus.Dx id).DevicePnpState := rfl
      have hname : claim (e.Bus.entry id).Name e.Classes = none := hclaim
      by_cases hpresent : (e.Bus.Dx id).DevicePnpState = .Present
      · obtain ⟨hrun, -⟩ := discard_spec (h.mark hid) hmark
        refine .inr (.inl ⟨hPdo, hpresent, ?_, fun Pdos => ?_⟩)
        · have hset : (e.Bus.mark id).PdoSetDevicePnpState id .Deleted = _ :=
            Bus.PdoSetDevicePnpState_eq hmark (.inr rfl)
          rw [hset, Option.bind_some] at hrun
          simp [enumerateEntry, Bus.PdoIsMissing_eq hPdo, Bus.PdoGetDevicePnpState_eq hPdo, hclaim,
            Bus.PdoSetMissing_eq hPdo, Bus.PdoGetDevicePnpState_eq hmark, hstate, hpresent, hset, hrun]
        · have hentry : (e.Bus.entry id).DevicePnpState = .Present := hpresent
          simp only [Fdo.Classes.walk, hlive, if_true, hname, hentry]
      · refine .inr (.inr ⟨hPdo, hpresent, hdel, ?_, fun Pdos => ?_⟩)
        · simp [enumerateEntry, Bus.PdoIsMissing_eq hPdo, Bus.PdoGetDevicePnpState_eq hPdo, hclaim, hdel,
            Bus.PdoSetMissing_eq hPdo, Bus.PdoGetDevicePnpState_eq hmark, hstate, hpresent]
        · have hentry : (e.Bus.entry id).DevicePnpState ≠ .Present := hpresent
          simp only [Fdo.Classes.walk, hlive, if_true, hname, if_neg hentry]
          simp [Bus.entry, Bus.mark, Bus.setPdo]
  · refine .inl ⟨e.Classes, ?_, fun Pdos => ?_⟩
    · have hcond : ¬ (Missing = false ∧ (e.Bus.Dx id).DevicePnpState ≠ .Deleted) := by
        simpa [Fdo.Classes.Pdo.live, Bus.entry, hPdo] using hlive
      cases e
      simp_all [enumerateEntry, Bus.PdoIsMissing_eq hPdo, Bus.PdoGetDevicePnpState_eq hPdo]
    · simp only [Fdo.Classes.walk, hlive]
      rfl

theorem mark_spec (h : b.Shape own) (hid : id ∈ b.List) :
    (b.mark id).Shape own ∧ Bus.Only id b (b.mark id) ∧ (b.mark id).cell id = surpriseCell (b.cell id) := by
  refine ⟨h.mark hid, Bus.Only.refl.mark, ?_⟩
  simp [Bus.cell, surpriseCell, Bus.mark, Bus.setPdo]

/-- What is left of the walk over the PDOs `ids`, together with what it has done. -/
def Remains (b : Bus) (Classes : List Ansi) (ids : List ℕ) (e : Enumeration) : Prop :=
  ∃ done, e.Bus.List = done ++ ids ∧
    Fdo.Classes.walk (b.List.map b.entry) Classes =
      (done.map e.Bus.entry ++ (Fdo.Classes.walk (ids.map b.entry) e.Classes).1,
        (Fdo.Classes.walk (ids.map b.entry) e.Classes).2.1,
        e.NeedInvalidate || (Fdo.Classes.walk (ids.map b.entry) e.Classes).2.2)

theorem Remains.step {Classes : List Ansi} {ids : List ℕ} {e : Enumeration}
    (h : Remains b Classes (id :: ids) e) (hshape : e.Bus.Shape own) (hcell : e.Bus.cell id = b.cell id) :
    ∃ e', enumerateEntry e id = some e' ∧ e'.Bus.Shape own ∧ Bus.Only id e.Bus e'.Bus ∧
      EnumerateCell (b.cell id) (e'.Bus.cell id) ∧ Remains b Classes ids e' := by
  obtain ⟨done, hlist, hwalk⟩ := h
  have hid : id ∈ e.Bus.List := by simp [hlist]
  have hnodup : (done ++ id :: ids).Nodup := hlist ▸ hshape.nodup
  have hdone : id ∉ done := fun hmem => (List.nodup_append.mp hnodup).2.2 id hmem id List.mem_cons_self rfl
  have hentry : b.entry id = e.Bus.entry id := (Bus.entry_congr hcell).symm
  rw [List.map_cons, hentry] at hwalk
  rw [← hcell]
  rcases enumerateEntry_cases hshape hid with
    ⟨Classes', hrun, hnext⟩ | ⟨hPdo, hpresent, hrun, hnext⟩ | ⟨hPdo, hpresent, hdeleted, hrun, hnext⟩
  · refine ⟨_, hrun, hshape, .refl, .keep, done ++ [id], by simp [hlist], ?_⟩
    rw [hwalk, hnext]
    simp
  · obtain ⟨hshape', honly, hcell'⟩ := mark_spec hshape hid
    have hmark : (e.Bus.mark id).Pdo id = some ⟨true⟩ := by simp [Bus.mark]
    obtain ⟨-, hshape'', honly', hcell''⟩ := discard_spec hshape' hmark
    have honly'' := honly.trans honly' hshape.nodup
    refine ⟨_, hrun, hshape'', honly'', ?_, done, ?_, ?_⟩
    · rw [hcell'', hcell']
      exact .discard hPdo hpresent
    · have herase : ((e.Bus.mark id).discard id).List = e.Bus.List.erase id := rfl
      rw [herase, hlist, List.erase_append_right _ hdone, List.erase_cons_head]
    · rw [hwalk, hnext, only_entry honly'' hdone]
  · obtain ⟨hshape', honly, hcell'⟩ := mark_spec hshape hid
    refine ⟨_, hrun, hshape', honly, ?_, done ++ [id], by simp [hlist, Bus.mark], ?_⟩
    · rw [hcell']
      exact .mark hPdo hpresent hdeleted
    · rw [hwalk, hnext, List.map_append, only_entry honly hdone]
      simp

/-- **The walk over the PDOs in memory is the walk over the list of them.** -/
theorem walk_refines (h : b.Shape own) (Classes : List Ansi) :
    ∃ e, b.List.foldlM enumerateEntry ⟨b, Classes, false⟩ = some e ∧ e.Bus.Shape own ∧
      Walked EnumerateCell b [] e.Bus ∧
      Fdo.Classes.walk b.view.List Classes = (e.Bus.view.List, e.Classes, e.NeedInvalidate) := by
  have hstart : Remains b Classes b.List ⟨b, Classes, false⟩ := ⟨[], rfl, by simp⟩
  obtain ⟨e, hrun, hshape, hwalked, done, hlist, hwalk⟩ :=
    walk Enumeration.Bus (s := ⟨b, Classes, false⟩) h hstart
      fun e id ids hshape _ hcell hremains => hremains.step hshape hcell
  refine ⟨e, hrun, hshape, hwalked, ?_⟩
  rw [List.append_nil] at hlist
  rw [Bus.view, hwalk, Bus.view, hlist]
  simp [Fdo.Classes.walk]

/-! ## The walk over the classes -/

/-- The bus has got new PDOs, which nobody knows of. -/
structure Grown (b b' : Bus) : Prop where
  old : ∀ id < b.next, b'.cell id = b.cell id
  list : ∃ new, b'.List = b.List ++ new
  new : ∀ id ∈ b'.List, b.next ≤ id → (b'.Dx id).DevicePnpState = .Present ∧ b'.Pdo id = some ⟨false⟩
  next : b.next ≤ b'.next

theorem Grown.refl (h : b.Shape own) : Grown b b where
  old _ _ := rfl
  list := ⟨[], (List.append_nil _).symm⟩
  new id hid hle := absurd (h.below id hid) (Nat.not_lt.mpr hle)
  next := Nat.le_refl _

theorem Grown.trans {b'' : Bus} (h : Grown b b') (h' : Grown b' b'') (hb' : b'.Shape own)
    (hb'' : b''.Shape own) : Grown b b'' where
  old id hid := (h'.old id (Nat.lt_of_lt_of_le hid h.next)).trans (h.old id hid)
  list := by
    obtain ⟨new, hnew⟩ := h.list
    obtain ⟨new', hnew'⟩ := h'.list
    exact ⟨new ++ new', by rw [hnew', hnew, List.append_assoc]⟩
  new id hid hle := by
    rcases Nat.lt_or_ge id b'.next with hlt | hge
    · have hcell := h'.old id hlt
      obtain ⟨hDx, hPdo⟩ := Prod.mk.injEq .. ▸ hcell
      have hlive : (b'.Pdo id).isSome := hPdo ▸ (hb''.live id).mpr hid
      rw [hDx, hPdo]
      exact h.new id ((hb'.live id).mp hlive) hle
    · exact h'.new id hid hge
  next := Nat.le_trans h.next h'.next

/-- `PdoCreate` adds one PDO. -/
theorem PdoCreate_spec (h : b.Shape own) (hown : 0 < own) {Name : CString}
    (hName : Name.length < MAX_DEVICE_ID_LEN) :
    ∃ b', b.PdoCreate Name = some b' ∧ b'.Shape own ∧ Grown b b' ∧
      b'.view = Fdo.Classes.PdoCreate b.view Name := by
  obtain ⟨b', hrun, hshape⟩ := h.PdoCreate hName hown
  obtain ⟨-, rfl⟩ : _ ∧ _ = b' := Option.ite_none_right_eq_some.mp hrun |>.imp_right Option.some.inj
  refine ⟨_, hrun, hshape, ⟨fun id hid => ?_, ⟨_, rfl⟩, fun id hid hle => ?_, Nat.le_succ _⟩, ?_⟩
  · simp [Bus.cell, Nat.ne_of_lt hid]
  · obtain rfl : id = b.next := Nat.le_antisymm (Nat.lt_succ_iff.mp (hshape.below id hid)) hle
    simp
  · have hmap : ∀ id ∈ b.List, id ≠ b.next := fun id hid => Nat.ne_of_lt (h.below id hid)
    simpa [Bus.view, Fdo.Classes.PdoCreate, Fdo.Classes.PdoSetName_of_lt hName, Bus.entry] using
      fun id hid => by simp [hmap id hid]

/-- **The walk over the classes in memory is the walk over the list.** -/
theorem create_refines (succeeds : CString → Bool) {Classes : List Ansi} {e : Enumeration}
    (hown : 0 < own) (h : e.Bus.Shape own)
    (hClasses : ∀ Class ∈ Classes, Class.Buffer.length < MAX_DEVICE_ID_LEN) :
    ∃ e', Classes.foldlM (enumerateClass succeeds) e = some e' ∧ e'.Bus.Shape own ∧ Grown e.Bus e'.Bus ∧
      Fdo.Classes.create succeeds e.Bus.view e.NeedInvalidate Classes = (e'.Bus.view, e'.NeedInvalidate) := by
  induction Classes generalizing e with
  | nil => exact ⟨e, rfl, h, .refl h, rfl⟩
  | cons Class Classes ih =>
    obtain ⟨hClass, hClasses⟩ := List.forall_mem_cons.mp hClasses
    by_cases hnew : Class.Length ≠ 0 ∧ succeeds Class.Buffer
    · obtain ⟨b', hrun, hshape, hgrown, hview⟩ := PdoCreate_spec h hown hClass
      obtain ⟨e', hrun', hshape', hgrown', hcreate⟩ := ih (e := ⟨b', e.Classes, true⟩) hshape hClasses
      refine ⟨e', ?_, hshape', hgrown.trans hgrown' hshape hshape', ?_⟩
      · simpa [List.foldlM_cons, enumerateClass, hnew, hrun] using hrun'
      · rw [Fdo.Classes.create, if_pos hnew, ← hview]
        exact hcreate
    · obtain ⟨e', hrun', hshape', hgrown, hcreate⟩ := ih h hClasses
      refine ⟨e', ?_, hshape', hgrown, ?_⟩
      · rw [List.foldlM_cons, enumerateClass, if_neg hnew]
        exact hrun'
      · rw [Fdo.Classes.create, if_neg hnew]
        exact hcreate

/-! ## FdoEnumerate -/

/-- What a pass may do to the PDOs. -/
structure Passed (b b' : Bus) : Prop where
  each : ∀ id ∈ b.List, EnumerateCell (b.cell id) (b'.cell id)
  rest : ∀ id < b.next, id ∉ b.List → b'.cell id = b.cell id
  new : ∀ id ∈ b'.List, b.next ≤ id → (b'.Dx id).DevicePnpState = .Present ∧ b'.Pdo id = some ⟨false⟩
  next : b.next ≤ b'.next

/-- The names that come out of the walk over the PDOs are those that went in. -/
theorem claim_forall {P : CString → Prop} {Name : CString} {Classes Classes' : List Ansi}
    (hclaim : claim Name Classes = some Classes') (h : ∀ Class ∈ Classes, P Class.Buffer) :
    ∀ Class ∈ Classes', P Class.Buffer := by
  induction Classes generalizing Classes' with
  | nil => simp [claim] at hclaim
  | cons Class Classes ih =>
    obtain ⟨hClass, hClasses⟩ := List.forall_mem_cons.mp h
    unfold claim at hclaim
    split at hclaim
    · obtain rfl := Option.some.inj hclaim
      exact List.forall_mem_cons.mpr ⟨hClass, hClasses⟩
    · obtain ⟨rest, hrest, rfl⟩ := Option.map_eq_some_iff.mp hclaim
      exact List.forall_mem_cons.mpr ⟨hClass, ih hrest hClasses⟩

theorem walk_forall {P : CString → Prop} (Pdos : List Fdo.Classes.Pdo) {Classes : List Ansi}
    (h : ∀ Class ∈ Classes, P Class.Buffer) :
    ∀ Class ∈ (Fdo.Classes.walk Pdos Classes).2.1, P Class.Buffer := by
  induction Pdos generalizing Classes with
  | nil => exact h
  | cons Pdo Pdos ih =>
    unfold Fdo.Classes.walk
    split
    · split
      next hclaim => exact ih (claim_forall hclaim h)
      split
      · exact ih h
      · exact ih h
    · exact ih h

/-- **A pass in memory is a pass over the list of the PDOs.** It goes through, whatever the list of the
classes is, and computes what `Fdo.Classes.FdoEnumerate` does. -/
theorem FdoEnumerate_refines (Enumerate : Option ℕ) (succeeds : CString → Bool) {Classes : List Ansi}
    (h : b.Shape own) (hown : 0 < own) (hClasses : ∀ Class ∈ Classes, Class.Buffer.length < MAX_DEVICE_ID_LEN) :
    ∃ b' NeedInvalidate, FdoEnumerate Enumerate succeeds b Classes = some (b', NeedInvalidate) ∧
      b'.Shape own ∧ Passed b b' ∧
      Fdo.Classes.FdoEnumerate Enumerate succeeds b.view Classes = (b'.view, NeedInvalidate) := by
  by_cases hzero : Enumerate.getD 1 = 0
  · refine ⟨b, false, if_pos hzero, h, ⟨fun _ _ => .keep, fun _ _ _ => rfl, (Grown.refl h).new, Nat.le_refl _⟩, ?_⟩
    exact if_pos hzero
  · obtain ⟨e, hrun, hshape, hwalked, hwalk⟩ := walk_refines h Classes
    have hnames : ∀ Class ∈ e.Classes, Class.Buffer.length < MAX_DEVICE_ID_LEN := by
      have hforall := walk_forall b.view.List (P := fun Name => Name.length < MAX_DEVICE_ID_LEN) hClasses
      rwa [hwalk] at hforall
    obtain ⟨e', hrun', hshape', hgrown, hcreate⟩ := create_refines succeeds hown hshape hnames
    refine ⟨e'.Bus, e'.NeedInvalidate, ?_, hshape', ?_, ?_⟩
    · simp only [FdoEnumerate, if_neg hzero, hrun, Option.bind_eq_bind, Option.bind_some, hrun']
    · constructor
      case each =>
        intro id hid
        rw [hgrown.old id (hwalked.next ▸ h.below id hid)]
        exact hwalked.each id hid List.not_mem_nil
      case rest =>
        intro id hlt hid
        rw [hgrown.old id (hwalked.next ▸ hlt)]
        exact hwalked.rest id (.inr hid)
      case new => exact hwalked.next ▸ hgrown.new
      case next => exact hwalked.next ▸ hgrown.next
    · have hview : ({ b.view with List := e.Bus.view.List } : Fdo.Classes.State) = e.Bus.view := by
        simp [Bus.view, hwalked.next]
      simp only [Fdo.Classes.FdoEnumerate, if_neg hzero, hwalk, hview, hcreate]

end XenBus.Pnp
