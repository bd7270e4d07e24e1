import XenBus.Pnp.Devices

/-!
# What the sections do

`Shape` is what holds of the PDOs whenever the mutex is free: the ones on the list are those that are allocated,
each of them holds one reference, none has been destroyed twice, and one that has been is deleted and stays so.
An operation on a PDO that is on the list keeps it (`Shape.setDx`, `Shape.mark`, `Shape.drop`, `Shape.PdoCreate`).

A loop takes the entries one by one, and what it does to an entry depends on that entry alone: `Walked E b b'`
says that each entry of `b` has gone through `E`, that what was off the list has been left alone, and that the
list is what is left of it. `Walked.step` adds an entry; with it `enumerate_walked`, `report_walked`,
`sweep_walked`, `surprise_walked` and `remove_walked` follow the loops of the source.
-/

namespace XenBus.Pnp

open Fdo.Classes (PnpState CString Ansi claim MAX_DEVICE_ID_LEN)

abbrev Cell := Dx × Option Pdo

namespace Bus

/-! ## The shape of the list -/

/-- `own` is the number of references that are not those of the PDOs. -/
structure Shape (b : Bus) (own : ℕ) : Prop where
  nodup : b.List.Nodup
  live : ∀ id, (b.Pdo id).isSome ↔ id ∈ b.List
  below : ∀ id ∈ b.List, id < b.next
  references : b.References = own + b.List.length
  once : b.destroyed.Nodup
  gone : ∀ id ∈ b.destroyed, id < b.next ∧ id ∉ b.List ∧ (b.Dx id).DevicePnpState = .Deleted
  every : ∀ id < b.next, id ∈ b.List ∨ id ∈ b.destroyed
  deleted : ∀ id Pdo, b.Pdo id = some Pdo → (b.Dx id).DevicePnpState = .Deleted → Pdo.Missing

variable {b b' b'' : Bus} {id own : ℕ}

theorem Shape.get (h : b.Shape own) (hid : id ∈ b.List) : ∃ Pdo, b.Pdo id = some Pdo :=
  Option.isSome_iff_exists.mp ((h.live id).mpr hid)

theorem Shape.mem (h : b.Shape own) {Pdo : Pnp.Pdo} (hPdo : b.Pdo id = some Pdo) : id ∈ b.List :=
  (h.live id).mp (Option.isSome_iff_exists.mpr ⟨Pdo, hPdo⟩)

/-- A PDO that is on the list has not been destroyed. -/
theorem Shape.not_destroyed (h : b.Shape own) (hid : id ∈ b.List) : id ∉ b.destroyed :=
  fun hgone => (h.gone id hgone).2.1 hid

theorem Shape.setDx (h : b.Shape own) (hid : id ∈ b.List) {Dx : Pnp.Dx}
    (hDx : Dx.DevicePnpState = .Deleted → ∀ Pdo, b.Pdo id = some Pdo → Pdo.Missing) :
    (b.setDx id Dx).Shape own where
  nodup := h.nodup
  live := h.live
  below := h.below
  references := h.references
  once := h.once
  gone j hj := by
    obtain ⟨hlt, hnot, hdel⟩ := h.gone j hj
    have hne : j ≠ id := fun heq => hnot (heq ▸ hid)
    refine ⟨hlt, hnot, ?_⟩
    rwa [setDx_Dx_of_ne b hne]
  every := h.every
  deleted j Pdo hPdo hdel := by
    rcases eq_or_ne j id with rfl | hne
    · exact hDx (by simpa using hdel) Pdo hPdo
    · rw [setDx_Dx_of_ne b hne] at hdel
      exact h.deleted j Pdo hPdo hdel

/-- The PDO is missing. -/
def mark (b : Bus) (id : ℕ) : Bus := b.setPdo id ⟨true⟩

theorem Shape.mark (h : b.Shape own) (hid : id ∈ b.List) : (b.mark id).Shape own where
  nodup := h.nodup
  live j := by
    rcases eq_or_ne j id with rfl | hne
    · simp [Bus.mark, hid]
    · rw [Bus.mark, setPdo_Pdo_of_ne b hne]
      exact h.live j
  below := h.below
  references := h.references
  once := h.once
  gone := h.gone
  every := h.every
  deleted j Pdo hPdo hdel := by
    rcases eq_or_ne j id with rfl | hne
    · rw [Bus.mark, setPdo_Pdo_self, Option.some_inj] at hPdo
      exact hPdo ▸ rfl
    · rw [Bus.mark, setPdo_Pdo_of_ne b hne] at hPdo
      exact h.deleted j Pdo hPdo hdel

theorem Shape.drop (h : b.Shape own) (hid : id ∈ b.List) (hdel : (b.Dx id).DevicePnpState = .Deleted) :
    (b.drop id).Shape own where
  nodup := h.nodup.erase id
  live j := by
    rcases eq_or_ne j id with rfl | hne
    · simp [Bus.drop, h.nodup.mem_erase_iff]
    · rw [drop_Pdo_of_ne b hne, h.live j, Bus.drop, h.nodup.mem_erase_iff]
      simp [hne]
  below j hj := h.below j (List.mem_of_mem_erase hj)
  references := by
    have hlength := List.length_erase_of_mem hid
    have hpos := List.length_pos_of_mem hid
    have hrefs := h.references
    simp only [Bus.drop] at hlength ⊢
    omega
  once := by
    refine List.nodup_append.mpr ⟨h.once, List.nodup_singleton id, ?_⟩
    intro j hj k hk
    rw [List.mem_singleton] at hk
    exact fun heq => h.not_destroyed hid (hk ▸ heq ▸ hj)
  gone j hj := by
    rcases List.mem_append.mp hj with hj | hj
    · obtain ⟨hlt, hnot, hst⟩ := h.gone j hj
      exact ⟨hlt, fun hmem => hnot (List.mem_of_mem_erase hmem), hst⟩
    · obtain rfl := List.mem_singleton.mp hj
      exact ⟨h.below j hid, h.nodup.not_mem_erase, hdel⟩
  every j hj := by
    rcases eq_or_ne j id with rfl | hne
    · exact .inr (by simp [Bus.drop])
    · rcases h.every j hj with hmem | hgone
      · exact .inl ((List.mem_erase_of_ne hne).mpr hmem)
      · exact .inr (List.mem_append_left _ hgone)
  deleted j Pdo hPdo hst := by
    rcases eq_or_ne j id with rfl | hne
    · simp at hPdo
    · rw [drop_Pdo_of_ne b hne] at hPdo
      exact h.deleted j Pdo hPdo hst

/-- `PdoCreate` succeeds while the FDO is referenced. -/
theorem Shape.PdoCreate (h : b.Shape own) {Name : CString} (hName : Name.length < MAX_DEVICE_ID_LEN)
    (hown : 0 < own) : ∃ b', b.PdoCreate Name = some b' ∧ b'.Shape own := by
  have hrefs : b.References ≠ 0 := by
    have := h.references
    omega
  have hnew : b.next ∉ b.List := fun hmem => Nat.lt_irrefl _ (h.below _ hmem)
  refine ⟨_, if_pos ⟨hName, hrefs⟩, ?_⟩
  constructor
  case nodup =>
    refine List.nodup_append.mpr ⟨h.nodup, List.nodup_singleton _, ?_⟩
    intro j hj k hk
    rw [List.mem_singleton] at hk
    exact fun heq => hnew (hk ▸ heq ▸ hj)
  case live =>
    intro j
    rcases eq_or_ne j b.next with rfl | hne
    · simp
    · simpa [hne] using h.live j
  case below =>
    intro j hj
    rcases List.mem_append.mp hj with hj | hj
    · exact Nat.lt_succ_of_lt (h.below j hj)
    · exact List.mem_singleton.mp hj ▸ Nat.lt_succ_self _
  case references =>
    simp only [List.length_append, List.length_singleton, h.references]
    omega
  case once => exact h.once
  case gone =>
    intro j hj
    obtain ⟨hlt, hnot, hst⟩ := h.gone j hj
    have hne : j ≠ b.next := Nat.ne_of_lt hlt
    refine ⟨Nat.lt_succ_of_lt hlt, ?_, ?_⟩
    · simp [hnot, hne]
    · simpa [hne] using hst
  case every =>
    intro j hj
    rcases Nat.lt_succ_iff_lt_or_eq.mp hj with hj | rfl
    · exact (h.every j hj).imp (List.mem_append_left _) id
    · exact .inl (by simp)
  case deleted =>
    intro j Pdo hPdo hst
    rcases eq_or_ne j b.next with rfl | hne
    · simp at hst
    · simp only [Function.update_of_ne hne] at hPdo hst
      exact h.deleted j Pdo hPdo hst

/-! ## The operations on the list -/

theorem PdoIsMissing_eq {Pdo : Pnp.Pdo} (hPdo : b.Pdo id = some Pdo) :
    b.PdoIsMissing id = some Pdo.Missing := by
  simp [PdoIsMissing, hPdo]

theorem PdoGetDevicePnpState_eq {Pdo : Pnp.Pdo} (hPdo : b.Pdo id = some Pdo) :
    b.PdoGetDevicePnpState id = some (b.Dx id).DevicePnpState := by
  simp [PdoGetDevicePnpState, hPdo]

theorem PdoSetMissing_eq {Pdo : Pnp.Pdo} (hPdo : b.Pdo id = some Pdo) :
    b.PdoSetMissing id = some (b.mark id) := by
  simp [PdoSetMissing, hPdo, mark]

/-- The extension of a device after its state has been set. -/
def setState (b : Bus) (id : ℕ) (State : PnpState) : Bus :=
  b.setDx id ⟨(b.Dx id).Name, State, (b.Dx id).DevicePnpState⟩

theorem PdoSetDevicePnpState_eq {Pdo : Pnp.Pdo} (hPdo : b.Pdo id = some Pdo) {State : PnpState}
    (hState : (b.Dx id).DevicePnpState ≠ .Deleted ∨ State = .Deleted) :
    b.PdoSetDevicePnpState id State = some (b.setState id State) := by
  simp [PdoSetDevicePnpState, hPdo, Dx.SetDevicePnpState, hState, setState]

/-- The state of a PDO that is not missing does not become `Deleted`. -/
theorem Shape.setState (h : b.Shape own) (hid : id ∈ b.List) {State : PnpState}
    (hState : State = .Deleted → b.Pdo id = some ⟨true⟩) : (b.setState id State).Shape own := by
  refine h.setDx hid fun hdel Pdo hPdo => ?_
  rw [hState hdel, Option.some_inj] at hPdo
  exact hPdo ▸ rfl

@[simp] theorem setState_List {State : PnpState} : (b.setState id State).List = b.List := rfl

@[simp] theorem setState_Pdo {State : PnpState} : (b.setState id State).Pdo = b.Pdo := rfl

@[simp] theorem setState_Dx_self {State : PnpState} :
    (b.setState id State).Dx id = ⟨(b.Dx id).Name, State, (b.Dx id).DevicePnpState⟩ :=
  setDx_Dx_self ..

theorem setState_get {Pdo : Pnp.Pdo} (hPdo : b.Pdo id = some Pdo) (State : PnpState) :
    (b.setState id State).PdoGetDevicePnpState id = some State := by
  simp [PdoGetDevicePnpState, hPdo]

theorem PdoDestroy_eq (h : b.Shape own) {Pdo : Pnp.Pdo} (hPdo : b.Pdo id = some Pdo)
    (hdel : (b.Dx id).DevicePnpState = .Deleted) : b.PdoDestroy id = some (b.drop id) := by
  have hid := h.mem hPdo
  have hpos := List.length_pos_of_mem hid
  have hrefs : b.References ≠ 0 := by
    have := h.references
    omega
  simp [PdoDestroy, hPdo, hdel, h.deleted id Pdo hPdo hdel, hid, hrefs]

/-- A PDO that is missing is deleted and destroyed. -/
def discard (b : Bus) (id : ℕ) : Bus := (b.setState id .Deleted).drop id

/-- The PDO is allocated and not missing. -/
def present (b : Bus) (id : ℕ) : Bool := b.Pdo id == some ⟨false⟩

/-! ## A walk over the list -/

/-- Only the device `id` has been touched. -/
structure Only (id : ℕ) (b b' : Bus) : Prop where
  other : ∀ j, j ≠ id → b'.cell j = b.cell j
  list : b'.List = b.List ∨ b'.List = b.List.erase id
  next : b'.next = b.next

theorem Only.refl : Only id b b := ⟨fun _ _ => rfl, .inl rfl, rfl⟩

theorem Only.setDx {Dx : Pnp.Dx} (h : Only id b b') : Only id b (b'.setDx id Dx) where
  other j hj := by rw [← h.other j hj, cell, setDx_Dx_of_ne b' hj]; rfl
  list := h.list
  next := h.next

theorem Only.mark (h : Only id b b') : Only id b (b'.mark id) where
  other j hj := by rw [← h.other j hj, cell, Bus.mark, setPdo_Pdo_of_ne b' hj]; rfl
  list := h.list
  next := h.next

theorem Only.drop (h : Only id b b') (hlist : b'.List = b.List) : Only id b (b'.drop id) where
  other j hj := by rw [← h.other j hj, cell, drop_Pdo_of_ne b' hj]; rfl
  list := .inr (by rw [Bus.drop, hlist])
  next := h.next

theorem Only.trans (h : Only id b b') (h' : Only id b' b'') (hnodup : b.List.Nodup) : Only id b b'' where
  other j hj := (h'.other j hj).trans (h.other j hj)
  list := by
    rcases h.list with hlist | hlist <;> rcases h'.list with hlist' | hlist' <;> rw [hlist', hlist]
    · exact .inl rfl
    · exact .inr rfl
    · exact .inr rfl
    · exact .inr (List.erase_of_not_mem hnodup.not_mem_erase)
  next := h'.next.trans h.next

end Bus

variable {b b' b'' : Bus} {id own : ℕ}

/-- The devices of `b` that are not among `ids` have gone through `E`, the others are as they were. -/
structure Walked (E : Cell → Cell → Prop) (b : Bus) (ids : List ℕ) (b' : Bus) : Prop where
  each : ∀ id ∈ b.List, id ∉ ids → E (b.cell id) (b'.cell id)
  rest : ∀ id, id ∈ ids ∨ id ∉ b.List → b'.cell id = b.cell id
  list : b'.List = b.List.filter fun id => (b'.Pdo id).isSome
  next : b'.next = b.next

variable {E : Cell → Cell → Prop} {ids : List ℕ}

theorem Walked.start (h : b.Shape own) : Walked E b b.List b where
  each _ hid hnot := absurd hid hnot
  rest _ _ := rfl
  list := (List.filter_eq_self.mpr fun id hid => (h.live id).mpr hid).symm
  next := rfl

/-- **One entry of a walk.** -/
theorem Walked.step (h : Walked E b (id :: ids) b') (hnodup : (id :: ids).Nodup) (hb' : b'.Shape own)
    (hb'' : b''.Shape own) (hid : id ∈ b.List) (honly : Bus.Only id b' b'') (hE : E (b.cell id) (b''.cell id)) :
    Walked E b ids b'' where
  each j hj hnot := by
    rcases eq_or_ne j id with rfl | hne
    · exact hE
    · rw [honly.other j hne]
      exact h.each j hj (by simp [hne, hnot])
  rest j hj := by
    have hne : j ≠ id := by
      rintro rfl
      exact hj.elim (List.nodup_cons.mp hnodup).1 (absurd hid)
    rw [honly.other j hne]
    exact h.rest j (hj.imp_left (List.mem_cons_of_mem _))
  list := by
    have hstep : b''.List = b'.List.filter fun j => (b''.Pdo j).isSome := by
      rcases honly.list with hlist | hlist
      · rw [← hlist]
        exact (List.filter_eq_self.mpr fun j hj => (hb''.live j).mpr hj).symm
      · rw [hlist, hb'.nodup.erase_eq_filter]
        refine List.filter_congr fun j hj => ?_
        have hlive := (hb''.live j).trans (hlist ▸ hb'.nodup.mem_erase_iff)
        rw [Bool.eq_iff_iff, hlive]
        simp [hj]
    rw [hstep, h.list, List.filter_filter]
    refine List.filter_congr fun j _ => ?_
    rw [Bool.and_eq_left_iff_imp]
    intro hlive
    rw [hb''.live, hstep, List.mem_filter] at hlive
    exact (hb'.live j).mpr hlive.1
  next := honly.next.trans h.next

/-- **The rule for a loop over the saved entries.** `A ids s` is what holds of the loop's variables while
`ids` are to come. -/
theorem walk {σ : Type*} (bus : σ → Bus) {f : σ → ℕ → Option σ} {A : List ℕ → σ → Prop} {s : σ}
    (h : (bus s).Shape own) (hA : A (bus s).List s)
    (hf : ∀ t id ids, (bus t).Shape own → id ∈ (bus t).List → (bus t).cell id = (bus s).cell id →
      A (id :: ids) t → ∃ t', f t id = some t' ∧ (bus t').Shape own ∧ Bus.Only id (bus t) (bus t') ∧
        E ((bus s).cell id) ((bus t').cell id) ∧ A ids t') :
    ∃ t, (bus s).List.foldlM f s = some t ∧ (bus t).Shape own ∧ Walked E (bus s) [] (bus t) ∧ A [] t := by
  suffices hwalk : ∀ ids t, ids.Nodup → ids ⊆ (bus s).List → (bus t).Shape own → Walked E (bus s) ids (bus t) →
      A ids t → ∃ t', ids.foldlM f t = some t' ∧ (bus t').Shape own ∧ Walked E (bus s) [] (bus t') ∧ A [] t' from
    hwalk _ s h.nodup (List.Subset.refl _) h (.start h) hA
  intro ids
  induction ids with
  | nil => exact fun t _ _ ht hwalk hA => ⟨t, rfl, ht, hwalk, hA⟩
  | cons id ids ih =>
    intro t hnodup hsub ht hwalk hA
    have hid : id ∈ (bus s).List := hsub List.mem_cons_self
    have hcell : (bus t).cell id = (bus s).cell id := hwalk.rest id (.inl List.mem_cons_self)
    have hmem : id ∈ (bus t).List := by
      have hsome : ((bus t).cell id).2.isSome := hcell ▸ (h.live id).mpr hid
      exact (ht.live id).mp hsome
    obtain ⟨t', hft, ht', honly, hE, hA'⟩ := hf t id ids ht hmem hcell hA
    have hwalk' := hwalk.step hnodup ht ht' hid honly hE
    obtain ⟨u, hu, hrest⟩ :=
      ih t' (List.nodup_cons.mp hnodup).2 (fun j hj => hsub (List.mem_cons_of_mem _ hj)) ht' hwalk' hA'
    exact ⟨u, by rw [List.foldlM_cons, hft]; exact hu, hrest⟩

/-- The rule for a loop that has no variables and does `F` to each entry. -/
theorem walk_cells {f : Bus → ℕ → Option Bus} {F : Cell → Cell} (h : b.Shape own)
    (hf : ∀ t id, t.Shape own → id ∈ t.List →
      ∃ t', f t id = some t' ∧ t'.Shape own ∧ Bus.Only id t t' ∧ t'.cell id = F (t.cell id)) :
    ∃ b', b.List.foldlM f b = some b' ∧ b'.Shape own ∧ Walked (fun c c' => c' = F c) b [] b' := by
  have hstep : ∀ (t : Bus) (id : ℕ) (ids : List ℕ), t.Shape own → id ∈ t.List → t.cell id = b.cell id → True →
      ∃ t', f t id = some t' ∧ t'.Shape own ∧ Bus.Only id t t' ∧ t'.cell id = F (b.cell id) ∧ True := by
    intro t id _ ht hid hcell _
    obtain ⟨t', hft, ht', honly, hF⟩ := hf t id ht hid
    exact ⟨t', hft, ht', honly, hcell ▸ hF, trivial⟩
  obtain ⟨b', hb', hshape, hwalked, -⟩ :=
    walk (E := fun c c' => c' = F c) (A := fun _ _ => True) (s := b) (fun t => t) h trivial hstep
  exact ⟨b', hb', hshape, hwalked⟩

def discardCell (c : Cell) : Cell := (⟨c.1.Name, .Deleted, c.1.DevicePnpState⟩, none)

theorem discard_spec (h : b.Shape own) (hPdo : b.Pdo id = some ⟨true⟩) :
    (b.PdoSetDevicePnpState id .Deleted).bind (Bus.PdoDestroy · id) = some (b.discard id) ∧
      (b.discard id).Shape own ∧ Bus.Only id b (b.discard id) ∧
      (b.discard id).cell id = discardCell (b.cell id) := by
  have hid := h.mem hPdo
  have hset : (b.setState id .Deleted).Shape own := h.setState hid fun _ => hPdo
  have hdel : ((b.setState id .Deleted).Dx id).DevicePnpState = .Deleted := by simp
  refine ⟨?_, hset.drop hid hdel, (Bus.Only.refl.setDx).drop rfl, ?_⟩
  · rw [Bus.PdoSetDevicePnpState_eq hPdo (.inr rfl), Option.bind_some]
    exact Bus.PdoDestroy_eq hset hPdo hdel
  · simp [Bus.discard, Bus.cell, discardCell, Bus.drop]

/-! ## FdoSurpriseRemoval and FdoRemoveDevice -/

def surpriseCell (c : Cell) : Cell := (c.1, some ⟨true⟩)

theorem surpriseEntry_spec (h : b.Shape own) (hid : id ∈ b.List) :
    ∃ b', surpriseEntry b id = some b' ∧ b'.Shape own ∧ Bus.Only id b b' ∧
      b'.cell id = surpriseCell (b.cell id) := by
  obtain ⟨Pdo, hPdo⟩ := h.get hid
  rw [surpriseEntry, Bus.PdoIsMissing_eq hPdo]
  cases hm : Pdo.Missing with
  | true =>
    have hPdo' : b.Pdo id = some ⟨true⟩ := by rw [hPdo, ← hm]
    exact ⟨b, rfl, h, .refl, by simp [surpriseCell, Bus.cell, hPdo']⟩
  | false =>
    refine ⟨b.mark id, ?_, h.mark hid, Bus.Only.refl.mark, ?_⟩
    · simp [Bus.PdoSetMissing_eq hPdo]
    · simp [surpriseCell, Bus.cell, Bus.mark, Bus.setPdo]

/-- `FdoSurpriseRemoval` marks every PDO. -/
theorem surprise_walked (h : b.Shape own) :
    ∃ b', surprise b = some b' ∧ b'.Shape own ∧ Walked (fun c c' => c' = surpriseCell c) b [] b' :=
  walk_cells h fun _ _ => surpriseEntry_spec

def removeCell (c : Cell) : Cell :=
  if c.1.DevicePnpState = .SurpriseRemovePending then surpriseCell c else discardCell c

theorem removeEntry_spec (h : b.Shape own) (hid : id ∈ b.List) :
    ∃ b', removeEntry b id = some b' ∧ b'.Shape own ∧ Bus.Only id b b' ∧ b'.cell id = removeCell (b.cell id) := by
  obtain ⟨c, hc, hshape, honly, hcell⟩ := surpriseEntry_spec h hid
  have hPdo : c.Pdo id = some ⟨true⟩ := congrArg Prod.snd hcell
  have hDx : c.Dx id = b.Dx id := congrArg Prod.fst hcell
  by_cases hstate : (b.Dx id).DevicePnpState = .SurpriseRemovePending
  · refine ⟨c, ?_, hshape, honly, ?_⟩
    · simp [removeEntry, deleteEntry, hc, Bus.PdoGetDevicePnpState_eq hPdo, hDx, hstate]
    · rw [hcell]
      exact (if_pos hstate).symm
  · obtain ⟨hrun, hdrop, htouch, hdiscard⟩ := discard_spec hshape hPdo
    refine ⟨c.discard id, ?_, hdrop, honly.trans htouch h.nodup, ?_⟩
    · have hset : c.PdoSetDevicePnpState id .Deleted = _ := Bus.PdoSetDevicePnpState_eq hPdo (.inr rfl)
      rw [hset, Option.bind_some] at hrun
      simp [removeEntry, deleteEntry, hc, Bus.PdoGetDevicePnpState_eq hPdo, hDx, hstate, hset,
        Bus.setState_get hPdo, hrun]
    · rw [hdiscard, hcell]
      exact (if_neg hstate).symm

/-- `FdoRemoveDevice` destroys the PDOs but those that wait for their own removal. -/
theorem remove_walked (h : b.Shape own) :
    ∃ b', remove b = some b' ∧ b'.Shape own ∧ Walked (fun c c' => c' = removeCell c) b [] b' :=
  walk_cells h fun _ _ => removeEntry_spec

/-! ## FdoQueryDeviceRelations -/

def sweepCell (c : Cell) : Cell := if c.1.DevicePnpState = .Deleted then (c.1, none) else c

theorem sweepEntry_spec (h : b.Shape own) (hid : id ∈ b.List) :
    ∃ b', sweepEntry b id = some b' ∧ b'.Shape own ∧ Bus.Only id b b' ∧ b'.cell id = sweepCell (b.cell id) := by
  obtain ⟨Pdo, hPdo⟩ := h.get hid
  by_cases hdel : (b.Dx id).DevicePnpState = .Deleted
  · have hmissing : Pdo.Missing = true := h.deleted id Pdo hPdo hdel
    refine ⟨b.drop id, ?_, h.drop hid hdel, Bus.Only.refl.drop rfl, ?_⟩
    · simp [sweepEntry, Bus.PdoGetDevicePnpState_eq hPdo, Bus.PdoIsMissing_eq hPdo, hdel, hmissing,
        Bus.PdoDestroy_eq h hPdo hdel]
    · simp [sweepCell, Bus.cell, Bus.drop, hdel]
  · refine ⟨b, ?_, h, .refl, ?_⟩
    · simp [sweepEntry, Bus.PdoGetDevicePnpState_eq hPdo, Bus.PdoIsMissing_eq hPdo, hdel]
    · simp [sweepCell, Bus.cell, hdel]

/-- The end of `FdoQueryDeviceRelations` destroys the PDOs that are deleted. -/
theorem sweep_walked (h : b.Shape own) :
    ∃ b', sweep b = some b' ∧ b'.Shape own ∧ Walked (fun c c' => c' = sweepCell c) b [] b' :=
  walk_cells h fun _ _ => sweepEntry_spec

def reportCell (c : Cell) : Cell :=
  if c.2 = some ⟨false⟩ ∧ c.1.DevicePnpState = .Present then (⟨c.1.Name, .Enumerated, .Present⟩, c.2) else c

theorem reportEntry_spec (h : b.Shape own) (hid : id ∈ b.List) (ids : List ℕ) :
    ∃ b', reportEntry (b, ids) id = some (b', ids ++ if b.present id then [id] else []) ∧ b'.Shape own ∧
      Bus.Only id b b' ∧ b'.cell id = reportCell (b.cell id) := by
  obtain ⟨⟨Missing⟩, hPdo⟩ := h.get hid
  cases Missing with
  | true =>
    refine ⟨b, ?_, h, .refl, ?_⟩
    · simp [reportEntry, Bus.PdoIsMissing_eq hPdo, Bus.present, hPdo]
    · simp [reportCell, Bus.cell, hPdo]
  | false =>
    by_cases hstate : (b.Dx id).DevicePnpState = .Present
    · have hset : b.PdoSetDevicePnpState id .Enumerated = _ :=
        Bus.PdoSetDevicePnpState_eq hPdo (.inl (by simp [hstate]))
      refine ⟨b.setState id .Enumerated, ?_, h.setState hid (by simp), Bus.Only.refl.setDx, ?_⟩
      · simp [reportEntry, Bus.PdoIsMissing_eq hPdo, Bus.PdoGetDevicePnpState_eq hPdo, hstate, hset, Bus.present,
          hPdo]
      · simp [reportCell, Bus.cell, hPdo, hstate]
    · refine ⟨b, ?_, h, .refl, ?_⟩
      · simp [reportEntry, Bus.PdoIsMissing_eq hPdo, Bus.PdoGetDevicePnpState_eq hPdo, hstate, Bus.present, hPdo]
      · simp [reportCell, Bus.cell, hPdo, hstate]

/-- The relations are the PDOs that are not missing, and those are enumerated. -/
theorem report_walked (h : b.Shape own) :
    ∃ b', report b = some (b', b.List.filter b.present) ∧ b'.Shape own ∧
      Walked (fun c c' => c' = reportCell c) b [] b' := by
  have hstep : ∀ (r : Bus × List ℕ) (id : ℕ) (ids : List ℕ), r.1.Shape own → id ∈ r.1.List →
      r.1.cell id = b.cell id → r.2 ++ (id :: ids).filter b.present = b.List.filter b.present →
      ∃ r', reportEntry r id = some r' ∧ r'.1.Shape own ∧ Bus.Only id r.1 r'.1 ∧
        r'.1.cell id = reportCell (b.cell id) ∧ r'.2 ++ ids.filter b.present = b.List.filter b.present := by
    rintro ⟨t, rels⟩ id ids ht hid hcell hrels
    obtain ⟨t', hrun, ht', honly, hcell'⟩ := reportEntry_spec ht hid rels
    refine ⟨_, hrun, ht', honly, hcell ▸ hcell', ?_⟩
    have hpresent : t.present id = b.present id := by
      have hPdo : t.Pdo id = b.Pdo id := congrArg Prod.snd hcell
      rw [Bus.present, Bus.present, hPdo]
    rw [← hrels, hpresent, List.append_assoc, List.filter_cons]
    split <;> simp
  obtain ⟨⟨b', rels⟩, hrun, hshape, hwalked, hrels⟩ :=
    walk (E := fun c c' => c' = reportCell c) (s := (b, []))
      (A := fun ids r => r.2 ++ ids.filter b.present = b.List.filter b.present) Prod.fst h rfl hstep
  have hrels : rels = b.List.filter b.present := by simpa using hrels
  exact ⟨b', hrels ▸ hrun, hshape, hwalked⟩

end XenBus.Pnp
