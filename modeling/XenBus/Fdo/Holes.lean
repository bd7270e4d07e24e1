import XenBus.Fdo.PciHole

/-!
# Holes

`FdoHoleAllocate` and `FdoHoleFree` (`fdo.c`) give their callers pages of the guest's address space that no
memory is behind: from the memory of the PCI device (`XenBus.Fdo.PciHole`), or from memory that is taken from
the guest and given to the hypervisor.

`Held` says that the MDLs that have been allocated and not freed are contiguous and do not overlap;
`Held.allocate` and `Held.free` that the two functions keep it, and what they return.
-/

namespace XenBus.Holes

open Transition
open XenBus.Fdo.PciHole hiding step State Action

/-! ## The functions -/

/-- `XENBUS_FDO`, as far as holes come from it. `Mdls` is a ghost: those that have been allocated and not
freed. -/
structure Fdo where
  UseMemoryHole : Bool
  PciHole : Hole
  Mdls : List Mdl

/-- What `FdoHoleAllocate` is answered. -/
structure Answers where
  /-- `IoAllocateMdl` has memory for an MDL. -/
  allocate : Bool
  /-- The pages that `MmAllocatePagesForMdlEx` allocates. -/
  Pages : Option (List ℕ)
  /-- The address that `MmMapLockedPagesSpecifyCache` maps them at. -/
  MappedSystemVa : Option ℤ
  /-- The number of pages that `MemoryDecreaseReservation` gives away. -/
  Decreased : Option ℕ

/-- `__AllocatePages`. -/
def allocatePages (Count : ℕ) (answers : Answers) : Option Mdl :=
  answers.Pages.bind fun PfnArray =>
    let ByteCount := 4096 * PfnArray.length % 4294967296
    if ByteCount < 4096 * Count then none
    else answers.MappedSystemVa.map fun MappedSystemVa => ⟨MappedSystemVa / 4096 * 4096, ByteCount, PfnArray⟩

/-- `FdoMemoryHoleAllocate`. -/
def fdoMemoryHoleAllocate (Count : ℕ) (answers : Answers) : Option Mdl :=
  (allocatePages Count answers).filter fun _ => answers.Decreased = some Count

/-- `FdoHoleAllocate`. -/
def fdoHoleAllocate (fdo : Fdo) (Count : ℕ) (answers : Answers) : Option (Option Mdl × Fdo) :=
  if fdo.UseMemoryHole then
    let mdl := fdoMemoryHoleAllocate Count answers
    some (mdl, { fdo with Mdls := mdl.toList ++ fdo.Mdls })
  else
    (FdoPciHoleAllocate fdo.PciHole Count answers.allocate).map fun (mdl, PciHole) =>
      (mdl, { fdo with PciHole := PciHole, Mdls := mdl.toList ++ fdo.Mdls })

instance (hole : Hole) (mdl : Mdl) : Decidable (NoBug hole mdl) := inferInstanceAs (Decidable (_ ∧ _))

instance (hole : Hole) (mdl : Mdl) : Decidable (FreeAsserts hole mdl) :=
  inferInstanceAs (Decidable (_ ∧ _ ∧ _ ∧ _))

/-- `FdoHoleFree`. It has no result if the MDL has been freed before, or if the system stops: at a `BUG_ON`
or an assertion of `FdoPciHoleFree`, or as `MemoryPopulatePhysmap` has not taken back all pages in
`FdoMemoryHoleFree`. -/
def fdoHoleFree (fdo : Fdo) (mdl : Mdl) (Populated : Option ℕ) : Option Fdo :=
  if mdl ∉ fdo.Mdls then none
  else if fdo.UseMemoryHole then
    if Populated = some (mdl.ByteCount / 4096) then some { fdo with Mdls := fdo.Mdls.erase mdl } else none
  else if NoBug fdo.PciHole mdl ∧ FreeAsserts fdo.PciHole mdl then
    (FdoPciHoleFree fdo.PciHole mdl).map fun (_, PciHole) =>
      { fdo with PciHole := PciHole, Mdls := fdo.Mdls.erase mdl }
  else none

/-- What is known of the memory manager: the pages that it allocates are contiguous and not in use, and no
more than it has been asked for. -/
def Contiguous (fdo : Fdo) (Count : ℕ) (answers : Answers) : Prop :=
  fdo.UseMemoryHole = true → ∀ PfnArray, answers.Pages = some PfnArray →
    ∃ Pfn n, PfnArray = List.range' Pfn n ∧ n ≤ Count ∧ Pfn + n < 2251799813685248 ∧
      ∀ mdl ∈ fdo.Mdls, PfnArray.Disjoint mdl.PfnArray

/-! ## What has been handed out -/

/-- The MDL is that of `Count` pages from `Pfn` on, which have positive addresses. -/
structure Run (mdl : Mdl) (Pfn Count : ℕ) : Prop where
  pos : 0 < Count
  PfnArray : mdl.PfnArray = List.range' Pfn Count
  ByteCount : mdl.ByteCount = 4096 * Count
  count_lt : Count < 1048576
  below : Pfn + Count < 2251799813685248

theorem Run.first {mdl : Mdl} {Pfn Count : ℕ} (h : Run mdl Pfn Count) : mdl.PfnArray[0]? = some Pfn := by
  rw [h.PfnArray, List.getElem?_range' h.pos]
  rfl

/-- The holes do not overlap, and the PCI hole is in order. -/
structure Held (fdo : Fdo) : Prop where
  runs : ∀ mdl ∈ fdo.Mdls, ∃ Pfn Count, Run mdl Pfn Count
  disjoint : fdo.Mdls.Pairwise fun mdl mdl' => mdl.PfnArray.Disjoint mdl'.PfnArray
  pci : fdo.UseMemoryHole = false → ∃ memory page l, Inv memory page ⟨fdo.PciHole, fdo.Mdls⟩ l

/-- MDLs with no page in common are apart. -/
theorem Run.apart {mdl mdl' : Mdl} {Pfn Pfn' n n' : ℕ} (h : Run mdl Pfn n) (h' : Run mdl' Pfn' n')
    (hdisjoint : mdl.PfnArray.Disjoint mdl'.PfnArray) : Pfn + n ≤ Pfn' ∨ Pfn' + n' ≤ Pfn := by
  have hpos := h.pos
  have hpos' := h'.pos
  rw [h.PfnArray, h'.PfnArray] at hdisjoint
  by_contra hoverlap
  refine hdisjoint (a := max Pfn Pfn') ?_ ?_ <;> rw [List.mem_range'_1] <;> omega

/-- Where the holes come from stays as it is. -/
structure Kept (fdo fdo' : Fdo) : Prop where
  UseMemoryHole : fdo'.UseMemoryHole = fdo.UseMemoryHole
  PciHole : fdo'.PciHole = { fdo.PciHole with RangeSet := fdo'.PciHole.RangeSet }

/-- The same pages have been handed out, and the same are left. -/
structure Same (fdo fdo' : Fdo) : Prop extends Kept fdo fdo' where
  Mdls : fdo'.Mdls = fdo.Mdls
  items : fdo.UseMemoryHole = false → fdo'.PciHole.RangeSet.items = fdo.PciHole.RangeSet.items

variable {fdo fdo' : Fdo} {mdl : Mdl} {Count : ℕ} {answers : Answers} {Populated : Option ℕ}

theorem Kept.trans {fdo'' : Fdo} (h : Kept fdo fdo') (h' : Kept fdo' fdo'') : Kept fdo fdo'' := by
  refine ⟨h'.UseMemoryHole.trans h.UseMemoryHole, ?_⟩
  rw [h'.PciHole, h.PciHole]

/-- What is left is what has not been handed out. -/
theorem Held.same (h : Held fdo) (h' : Held fdo') (hkept : Kept fdo fdo') (hMdls : fdo'.Mdls = fdo.Mdls) :
    Same fdo fdo' := by
  refine ⟨hkept, hMdls, fun hpci => ?_⟩
  obtain ⟨memory, page, l, hinv⟩ := h.pci hpci
  obtain ⟨memory', page', l', hinv'⟩ := h'.pci (hkept.UseMemoryHole.trans hpci)
  have hPfn : fdo'.PciHole.Pfn = fdo.PciHole.Pfn := by
    rw [hkept.PciHole]
    rfl
  have hCount : fdo'.PciHole.Count = fdo.PciHole.Count := by
    rw [hkept.PciHole]
  have hiff := hinv.complement
  have hiff' := hinv'.complement
  simp only [hMdls, hPfn, hCount] at hiff hiff'
  ext x
  constructor
  · intro hx
    obtain ⟨Index, rfl⟩ := Int.eq_ofNat_of_zero_le (((hinv'.laid.left x).mp hx).1)
    exact (hiff Index).mpr ((hiff' Index).mp hx)
  · intro hx
    obtain ⟨Index, rfl⟩ := Int.eq_ofNat_of_zero_le (((hinv.laid.left x).mp hx).1)
    exact (hiff' Index).mpr ((hiff Index).mp hx)

/-- Of what the PCI hole hands out. -/
theorem runs_of_inv {memory : Memory} {page : ℤ} {l : List Extent} {s : XenBus.Fdo.PciHole.State}
    (h : Inv memory page s l) : ∀ mdl ∈ s.outstanding, ∃ Pfn Count, Run mdl Pfn Count := by
  intro mdl hmdl
  obtain ⟨Index, Count, hpos, hle, hPfnArray, hasserts⟩ := h.laid_state.contiguous mdl hmdl
  have hN := h.hole.Count
  have hlength := memory.length_lt
  have hfits := memory.fits
  have hPfn : s.hole.Pfn = memory.Start / 4096 := by
    rw [Hole.Pfn, h.hole.PhysicalAddress, Int.toNat_natCast]
  refine ⟨s.hole.Pfn + Index, Count, hpos, hPfnArray, ?_, by omega, by omega⟩
  rw [hasserts.2]
  omega

theorem run_of_memoryHole (h : fdoMemoryHoleAllocate Count answers = some mdl) (hCount : 0 < Count)
    (hpages : Contiguous fdo Count answers) (hmemory : fdo.UseMemoryHole = true) :
    (∃ Pfn, Run mdl Pfn Count) ∧ ∀ mdl' ∈ fdo.Mdls, mdl.PfnArray.Disjoint mdl'.PfnArray := by
  obtain ⟨hallocate, -⟩ := Option.filter_eq_some_iff.mp h
  obtain ⟨PfnArray, hPages, hmap⟩ := Option.bind_eq_some_iff.mp hallocate
  obtain ⟨Pfn, n, rfl, hle, hbelow, hdisjoint⟩ := hpages hmemory PfnArray hPages
  simp only [List.length_range'] at hmap
  split_ifs at hmap with hlt
  obtain ⟨va, -, rfl⟩ := Option.map_eq_some_iff.mp hmap
  -- no pages are missing, and as `ByteCount` is a `ULONG`, there are not too many
  have hn : n = Count := by omega
  subst hn
  exact ⟨⟨Pfn, hCount, rfl, by simp only []; omega, by omega, hbelow⟩, hdisjoint⟩

/-- **`FdoHoleAllocate`** returns an MDL of as many pages as it has been asked for, or none. -/
theorem Held.allocate (h : Held fdo) (hCount : 0 < Count) (hpages : Contiguous fdo Count answers) :
    ∃ r fdo', fdoHoleAllocate fdo Count answers = some (r, fdo') ∧ Held fdo' ∧ Kept fdo fdo' ∧
      fdo'.Mdls = r.toList ++ fdo.Mdls ∧ ∀ mdl, r = some mdl → ∃ Pfn, Run mdl Pfn Count := by
  cases hmemory : fdo.UseMemoryHole with
  | true =>
    refine ⟨_, _, if_pos hmemory, ?_, ⟨rfl, rfl⟩, rfl, fun mdl hmdl =>
      (run_of_memoryHole hmdl hCount hpages hmemory).1⟩
    cases hmdl : fdoMemoryHoleAllocate Count answers with
    | none => exact ⟨h.runs, h.disjoint, h.pci⟩
    | some mdl =>
      obtain ⟨⟨Pfn, hrun⟩, hdisjoint⟩ := run_of_memoryHole hmdl hCount hpages hmemory
      refine ⟨List.forall_mem_cons.mpr ⟨⟨Pfn, Count, hrun⟩, h.runs⟩,
        List.pairwise_cons.mpr ⟨hdisjoint, h.disjoint⟩, fun hpci => ?_⟩
      cases hmemory.symm.trans hpci
  | false =>
    obtain ⟨memory, page, l, hinv⟩ := h.pci hmemory
    obtain ⟨r, hole, hallocate, hhole, -, hr⟩ := hinv.allocate Count answers.allocate
    have hstep : XenBus.Fdo.PciHole.step ⟨fdo.PciHole, fdo.Mdls⟩ (.allocate Count answers.allocate) =
        some ⟨hole, r.toList ++ fdo.Mdls⟩ := by
      simp only [XenBus.Fdo.PciHole.step, hallocate, Option.map_some]
    obtain ⟨l', hinv', -⟩ := hinv.step hstep
    have hruns := runs_of_inv hinv'
    refine ⟨r, { fdo with PciHole := hole, Mdls := r.toList ++ fdo.Mdls }, ?_, ⟨hruns, hinv'.disjoint,
      fun _ => ⟨memory, page, l', hinv'⟩⟩, ⟨rfl, hhole⟩, rfl, fun mdl hmdl => ?_⟩
    · rw [fdoHoleAllocate, if_neg (by rw [hmemory]; exact Bool.false_ne_true), hallocate]
      rfl
    · obtain ⟨hnone, -⟩ | ⟨e, he, -, rfl, -⟩ := hr
      · cases hmdl.symm.trans hnone
      · obtain rfl := Option.some.inj (hmdl.symm.trans he)
        obtain ⟨Pfn, n, hrun⟩ := hruns _ (by rw [he]; exact List.mem_cons_self)
        have hlength := congrArg List.length hrun.PfnArray
        rw [List.length_range', mdlOf, newMdl, List.length_map, List.length_range] at hlength
        exact ⟨Pfn, hlength ▸ hrun⟩

/-- With another one outstanding, an MDL is not that of the whole hole. -/
theorem freeAsserts_of_two {memory : Memory} {page : ℤ} {l : List Extent} {s : XenBus.Fdo.PciHole.State}
    (h : Inv memory page s l) (hmdl : mdl ∈ s.outstanding) (hlength : 2 ≤ s.outstanding.length) :
    FreeAsserts s.hole mdl := by
  rw [h.outstanding] at hmdl hlength
  obtain ⟨e, he, rfl⟩ := List.mem_map.mp hmdl
  refine (h.freeAsserts_iff he).mpr fun hwhole => ?_
  obtain ⟨k, hk, rfl⟩ := List.mem_iff_getElem.mp he
  -- the extents but this one and what is left are apart from it, and it is the whole hole
  have hgive := h.laid.give (List.getElem?_eq_getElem hk)
  have hlength' := List.length_eraseIdx_of_lt hk
  rw [List.length_map] at hlength
  obtain ⟨e', he'⟩ := List.exists_mem_of_length_pos (l := l.eraseIdx k) (by omega)
  obtain ⟨hfirst, hle⟩ := h.laid.within _ he
  obtain ⟨hfirst', hle'⟩ := hgive.within e' he'
  have hpos := hgive.pos e' he'
  exact Finset.disjoint_left.mp (hgive.disjoint he')
    (Finset.mem_union_right _ (Extent.mem_items.mpr ⟨by omega, by omega⟩))
    (Extent.mem_items.mpr ⟨le_refl e'.first, by omega⟩)

/-- `FdoHoleFree` takes back an MDL that has been allocated. -/
theorem Held.freed (h : Held fdo) (hs : fdoHoleFree fdo mdl Populated = some fdo') :
    Held fdo' ∧ Kept fdo fdo' ∧ fdo'.Mdls = fdo.Mdls.erase mdl := by
  unfold fdoHoleFree at hs
  split_ifs at hs with hmdl hmemory hPopulated hasserts
  · obtain rfl := Option.some.inj hs
    refine ⟨⟨fun mdl' hmem => h.runs mdl' (List.mem_of_mem_erase hmem),
      h.disjoint.sublist List.erase_sublist, fun hpci => ?_⟩, ⟨rfl, rfl⟩, rfl⟩
    cases hmemory.symm.trans hpci
  · obtain ⟨⟨status, hole⟩, hfree, rfl⟩ := Option.map_eq_some_iff.mp hs
    obtain ⟨memory, page, l, hinv⟩ := h.pci (Bool.eq_false_iff.mpr hmemory)
    have hhole : hole = { fdo.PciHole with RangeSet := hole.RangeSet } := by
      obtain ⟨⟨_, rs⟩, -, heq⟩ := Option.map_eq_some_iff.mp hfree
      obtain ⟨-, rfl⟩ := Prod.mk.inj heq
      rfl
    have hstep : XenBus.Fdo.PciHole.step ⟨fdo.PciHole, fdo.Mdls⟩ (.free (fdo.Mdls.idxOf mdl)) =
        some ⟨hole, fdo.Mdls.erase mdl⟩ := by
      simp only [XenBus.Fdo.PciHole.step, List.getElem?_idxOf hmdl, hfree, Option.map_some,
        List.eraseIdx_idxOf_eq_erase]
    obtain ⟨l', hinv', -⟩ := hinv.step hstep
    exact ⟨⟨runs_of_inv hinv', hinv'.disjoint, fun _ => ⟨memory, page, l', hinv'⟩⟩, ⟨rfl, hhole⟩, rfl⟩

/-- A hole that is freed at once leaves everything as it was. -/
theorem Held.restored {fdo'' : Fdo} (h : Held fdo) (h' : Held fdo') (hkept : Kept fdo fdo')
    (hMdls : fdo'.Mdls = mdl :: fdo.Mdls) (hs : fdoHoleFree fdo' mdl Populated = some fdo'') :
    Held fdo'' ∧ Same fdo fdo'' := by
  obtain ⟨h'', hkept', hMdls'⟩ := h'.freed hs
  rw [hMdls, List.erase_cons_head] at hMdls'
  exact ⟨h'', h.same h'' (hkept.trans hkept') hMdls'⟩

/-- **`FdoHoleFree` succeeds**, unless the MDL is all that has been allocated. -/
theorem Held.free (h : Held fdo) (hmdl : mdl ∈ fdo.Mdls) (hlength : 2 ≤ fdo.Mdls.length)
    (hPopulated : fdo.UseMemoryHole = true → Populated = some (mdl.ByteCount / 4096)) :
    ∃ fdo', fdoHoleFree fdo mdl Populated = some fdo' := by
  unfold fdoHoleFree
  rw [if_neg (not_not.mpr hmdl)]
  cases hmemory : fdo.UseMemoryHole with
  | true => exact ⟨_, by rw [if_pos rfl, if_pos (hPopulated hmemory)]⟩
  | false =>
    obtain ⟨memory, page, l, hinv⟩ := h.pci hmemory
    have hasserts := freeAsserts_of_two hinv hmdl hlength
    obtain ⟨result, hfree, -⟩ := Option.map_eq_some_iff.mp hasserts.2.2.2
    have hnobug := hinv.laid_state.noBug mdl hmdl
    exact ⟨_, by rw [if_neg Bool.false_ne_true, if_pos ⟨hnobug, hasserts⟩, hfree]; rfl⟩

/-! ## Runs -/

/-- A call. -/
inductive Action
  | allocate (Count : ℕ) (answers : Answers)
  | free (mdl : Mdl) (Populated : Option ℕ)

def step (fdo : Fdo) : Action → Option Fdo
  | .allocate Count answers => (fdoHoleAllocate fdo Count answers).map Prod.snd
  | .free mdl Populated => fdoHoleFree fdo mdl Populated

/-- What is known of the callers and of the memory manager. -/
def Allowed (fdo : Fdo) : Action → Prop
  | .allocate Count answers => 0 < Count ∧ Contiguous fdo Count answers
  | .free .. => True

/-- Nothing has been allocated yet. -/
structure Created (fdo : Fdo) : Prop where
  Mdls : fdo.Mdls = []
  pci : fdo.UseMemoryHole = false → ∃ memory page, FdoPciHoleCreate memory page = some fdo.PciHole

/-- **The holes do not overlap** in any run. -/
theorem held_of_reaches (hcreated : Created fdo) (h : Reaches step Allowed fdo fdo') : Held fdo' := by
  refine h.invariant (P := Held) ⟨?_, ?_, fun hpci => ?_⟩ ?_
  · simp [hcreated.Mdls]
  · simp [hcreated.Mdls]
  · obtain ⟨memory, page, hcreate⟩ := hcreated.pci hpci
    obtain ⟨hole, heq, hinv⟩ := create_spec memory page
    obtain rfl := Option.some.inj (heq.symm.trans hcreate)
    exact ⟨memory, page, [], by rw [hcreated.Mdls]; exact hinv⟩
  · rintro fdo (⟨Count, answers⟩ | ⟨mdl, Populated⟩) fdo' hheld hallowed hs
    · obtain ⟨r, fdo'', heq, hheld', -⟩ := hheld.allocate hallowed.1 hallowed.2
      simp only [step, heq, Option.map_some, Option.some.injEq] at hs
      exact hs ▸ hheld'
    · exact (hheld.freed hs).1

end XenBus.Holes
