import XenBus.Foundations.Extents
import XenBus.Foundations.Transition
import XenBus.RangeSet.Refinement

/-!
# The PCI hole

`FdoPciHoleCreate`, `FdoPciHoleAllocate`, `FdoPciHoleFree` and `FdoPciHoleDestroy` (`fdo.c`). The pages of the
memory of the PCI device are handed out from a range set of their indices. An MDL does not say which index it
was built from: `FdoPciHoleFree` finds it and the number of pages in the PFNs and the byte count.

`intact_of_reaches` shows that the MDLs never overlap, that the range set is what they leave and that all
assertions hold, as long as no allocation takes the whole hole: `FdoPciHoleFree` asserts that the number of
pages is below that of the hole, so the MDL of a whole hole cannot be given back (`not_intact_of_whole`).
-/

namespace XenBus.Fdo.PciHole

open MachineInt Transition

/-! ## Data -/

/-- `Translated->u.Memory` of the memory of the PCI device. A memory of at least a page is aligned to one,
`Length` is a `ULONG`, and a physical address is a positive `LONGLONG`. -/
structure Memory where
  Start : ℕ
  Length : ℕ
  aligned : 4096 ∣ Start
  page : 4096 ≤ Length
  length_lt : Length < 4294967296
  fits : Start + Length < 9223372036854775808

/-- `XENBUS_PCI_HOLE`. -/
structure Hole where
  RangeSet : XenBus.RangeSet
  VirtualAddress : ℤ
  PhysicalAddress : ℤ
  Count : ℕ

/-- What is used of an `MDL`, with the array behind it. -/
structure Mdl where
  StartVa : ℤ
  ByteCount : ℕ
  PfnArray : List ℕ
  deriving DecidableEq

/-! ## The functions -/

/-- `FdoPciHoleCreate`. `MmMapIoSpace` maps the memory from a page on, at the same offset in it. -/
def FdoPciHoleCreate (memory : Memory) (page : ℤ) : Option Hole :=
  let VirtualAddress := page * 4096 + memory.Start % 4096
  let Count := memory.Length / 4096
  match RangeSet.rangeSetPut RangeSet.rangeSetCreate 0 Count true with
  | some (.success, rs) => some ⟨rs, VirtualAddress, memory.Start, Count⟩
  | _ => none

/-- The MDL that `FdoPciHoleAllocate` builds. `IoAllocateMdl` rounds the address down to a page. -/
def newMdl (hole : Hole) (Index : ℤ) (Count : ℕ) : Mdl :=
  let VirtualAddress := hole.VirtualAddress + Index * 4096
  let PhysicalAddress := long64 (hole.PhysicalAddress + Index * 4096)
  let Pfn := ulong64 (PhysicalAddress / 4096)
  { StartVa := VirtualAddress / 4096 * 4096
    ByteCount := Count * 4096 % 4294967296
    PfnArray := (List.range Count).map (Pfn + ·) }

/-- The assertions of `FdoPciHoleAllocate` on the MDL. -/
def AllocateAsserts (hole : Hole) (Index : ℤ) (Count : ℕ) (mdl : Mdl) : Prop :=
  mdl.StartVa = hole.VirtualAddress + Index * 4096 ∧ mdl.ByteCount = Count * 4096 % 4294967296

/-- `FdoPciHoleAllocate`. The allocation of the MDL may fail, that of a node does not. -/
def FdoPciHoleAllocate (hole : Hole) (Count : ℕ) (allocate : Bool) : Option (Option Mdl × Hole) :=
  match hole.RangeSet.rangeSetPop Count with
  | (.success, some Index, rs) =>
    if allocate then some (some (newMdl hole Index Count), { hole with RangeSet := rs })
    else (rs.rangeSetPut Index Count true).map fun (_, rs) => (none, { hole with RangeSet := rs })
  | _ => some (none, hole)

/-- `Count` in `FdoPciHoleFree`. -/
def freeCount (mdl : Mdl) : ℕ := mdl.ByteCount / 4096

/-- `Index` in `FdoPciHoleFree`. -/
def freeIndex (hole : Hole) (mdl : Mdl) : ℤ :=
  let PhysicalAddress := long64 (mdl.PfnArray.getD 0 0 * 4096)
  long64 (PhysicalAddress - hole.PhysicalAddress) / 4096

/-- `FdoPciHoleFree`. -/
def FdoPciHoleFree (hole : Hole) (mdl : Mdl) : Option (Status × Hole) :=
  (hole.RangeSet.rangeSetPut (freeIndex hole mdl) (freeCount mdl) true).map fun (status, rs) =>
    (status, { hole with RangeSet := rs })

/-- `BUG_ON` in `FdoPciHoleFree`: none of them is reached. -/
def NoBug (hole : Hole) (mdl : Mdl) : Prop :=
  hole.Count ≠ 0 ∧ ∀ Index < freeCount mdl, mdl.PfnArray.getD Index 0 = mdl.PfnArray.getD 0 0 + Index

/-- The assertions of `FdoPciHoleFree`. -/
def FreeAsserts (hole : Hole) (mdl : Mdl) : Prop :=
  freeCount mdl < hole.Count ∧ ulong64 (freeIndex hole mdl) < hole.Count ∧
    ulong64 (freeIndex hole mdl + freeCount mdl) ≤ hole.Count ∧
      (FdoPciHoleFree hole mdl).map Prod.fst = some .success

/-- The assertions of `FdoPciHoleDestroy`, whether or not it can allocate a node. -/
def DestroyAsserts (hole : Hole) : Prop :=
  hole.Count ≠ 0 ∧ ∀ allocate,
    (hole.RangeSet.rangeSetGet 0 hole.Count allocate).map Prod.fst = some .success

/-! ## The system -/

/-- The hole and the MDLs that have been allocated and not freed. -/
structure State where
  hole : Hole
  outstanding : List Mdl

/-- A call. `free k` frees the `k`-th of the outstanding MDLs. -/
inductive Action
  | allocate (Count : ℕ) (allocate : Bool)
  | free (k : ℕ)

def step (s : State) : Action → Option State
  | .allocate Count allocate =>
    (FdoPciHoleAllocate s.hole Count allocate).map fun (mdl, hole) => ⟨hole, mdl.toList ++ s.outstanding⟩
  | .free k =>
    match s.outstanding[k]? with
    | some mdl => (FdoPciHoleFree s.hole mdl).map fun (_, hole) => ⟨hole, s.outstanding.eraseIdx k⟩
    | none => none

/-- No allocation takes the whole hole. -/
def Partial (s : State) : Action → Prop
  | .allocate Count allocate => ¬ (Count = s.hole.Count ∧ s.outstanding = [] ∧ allocate = true)
  | .free _ => True

instance (s : State) : (a : Action) → Decidable (Partial s a)
  | .allocate .. => inferInstanceAs (Decidable (¬ _))
  | .free _ => inferInstanceAs (Decidable True)

/-- The PFN of the first page of the hole. -/
def Hole.Pfn (hole : Hole) : ℕ := hole.PhysicalAddress.toNat / 4096

/-- The MDLs do not overlap, and the range set is what they leave. -/
structure Laid (s : State) : Prop where
  contiguous : ∀ mdl ∈ s.outstanding, ∃ Index Count, 0 < Count ∧ Index + Count ≤ s.hole.Count ∧
    mdl.PfnArray = List.range' (s.hole.Pfn + Index) Count ∧ AllocateAsserts s.hole Index Count mdl
  disjoint : s.outstanding.Pairwise fun mdl mdl' => mdl.PfnArray.Disjoint mdl'.PfnArray
  complement : ∀ Index : ℕ, (Index : ℤ) ∈ s.hole.RangeSet.items ↔ Index < s.hole.Count ∧
    ∀ mdl ∈ s.outstanding, s.hole.Pfn + Index ∉ mdl.PfnArray
  inside : ∀ x ∈ s.hole.RangeSet.items, 0 ≤ x
  refused : ∀ Count allocate hole, FdoPciHoleAllocate s.hole Count allocate = some (none, hole) →
    hole = { s.hole with RangeSet := hole.RangeSet } ∧ hole.RangeSet.items = s.hole.RangeSet.items
  returns : ∀ Count allocate, (FdoPciHoleAllocate s.hole Count allocate).isSome
  noBug : ∀ mdl ∈ s.outstanding, NoBug s.hole mdl
  destroyed : s.outstanding = [] → DestroyAsserts s.hole

/-- What is expected of a state. -/
structure Intact (s : State) : Prop extends Laid s where
  freed : ∀ mdl ∈ s.outstanding, FreeAsserts s.hole mdl

/-! ## The MDL of an extent -/

/-- The hole of a memory. -/
structure HoleOf (memory : Memory) (page : ℤ) (hole : Hole) : Prop where
  VirtualAddress : hole.VirtualAddress = page * 4096
  PhysicalAddress : hole.PhysicalAddress = memory.Start
  Count : hole.Count = memory.Length / 4096

variable {memory : Memory} {page : ℤ} {hole : Hole} {s s' : State}

/-- What of the hole an MDL depends on does not change. -/
theorem HoleOf.withRangeSet (h : HoleOf memory page hole) (rs : XenBus.RangeSet) :
    HoleOf memory page { hole with RangeSet := rs } :=
  ⟨h.VirtualAddress, h.PhysicalAddress, h.Count⟩

/-- The physical address of a page of the hole. -/
theorem HoleOf.address (h : HoleOf memory page hole) {Index : ℕ} (hIndex : Index < hole.Count) :
    long64 (hole.PhysicalAddress + Index * 4096) = ((hole.Pfn + Index) * 4096 : ℕ) ∧
      hole.PhysicalAddress = (hole.Pfn * 4096 : ℕ) ∧ (hole.Pfn + Index) * 4096 < 9223372036854775808 := by
  obtain ⟨P, hP⟩ := memory.aligned
  have hfits := memory.fits
  have hCount := h.Count
  have hPfn : hole.Pfn = P := by
    rw [Hole.Pfn, h.PhysicalAddress, hP]
    omega
  rw [h.PhysicalAddress, hPfn, long64_of_mem (by omega) (by omega)]
  omega

theorem getD_range' (a : ℕ) {k n : ℕ} (hk : k < n) : (List.range' a n).getD k 0 = a + k := by
  rw [List.getD_eq_getElem?_getD, List.getElem?_range' hk, Option.getD_some, one_mul]

theorem HoleOf.PfnArray (h : HoleOf memory page hole) {Index Count : ℕ} (hIndex : Index < hole.Count) :
    (newMdl hole Index Count).PfnArray = List.range' (hole.Pfn + Index) Count := by
  obtain ⟨haddress, -, hlt⟩ := h.address hIndex
  have hPfn : ulong64 (long64 (hole.PhysicalAddress + Index * 4096) / 4096) = hole.Pfn + Index := by
    rw [haddress, ulong64]
    omega
  rw [newMdl, hPfn, List.range'_eq_map_range]

/-- `FdoPciHoleFree` finds the index and the number of the pages again. -/
theorem HoleOf.found (h : HoleOf memory page hole) {Index Count : ℕ} (hpos : 0 < Count)
    (hle : Index + Count ≤ hole.Count) :
    freeCount (newMdl hole Index Count) = Count ∧ freeIndex hole (newMdl hole Index Count) = Index := by
  constructor
  · have hlt := memory.length_lt
    have hCount := h.Count
    change Count * 4096 % 4294967296 / 4096 = Count
    omega
  · obtain ⟨-, hPhysicalAddress, hlt⟩ := h.address (show Index < hole.Count by omega)
    have hhead : (newMdl hole Index Count).PfnArray.getD 0 0 = hole.Pfn + Index := by
      rw [h.PfnArray (by omega), getD_range' _ hpos, Nat.add_zero]
    have haddress : long64 ((hole.Pfn + Index : ℕ) * 4096) = (hole.Pfn + Index : ℕ) * 4096 :=
      long64_of_mem (by omega) (by omega)
    rw [freeIndex, hhead, hPhysicalAddress]
    simp only [haddress]
    rw [long64_of_mem (by omega) (by omega)]
    omega

theorem HoleOf.allocateAsserts (h : HoleOf memory page hole) (Index : ℤ) (Count : ℕ) :
    AllocateAsserts hole Index Count (newMdl hole Index Count) := by
  refine ⟨?_, rfl⟩
  change (hole.VirtualAddress + Index * 4096) / 4096 * 4096 = _
  rw [h.VirtualAddress]
  omega

theorem HoleOf.noBug (h : HoleOf memory page hole) {Index Count : ℕ} (hpos : 0 < Count)
    (hle : Index + Count ≤ hole.Count) : NoBug hole (newMdl hole Index Count) := by
  refine ⟨by omega, fun k hk => ?_⟩
  rw [(h.found hpos hle).1] at hk
  rw [h.PfnArray (by omega), getD_range' _ hk, getD_range' _ hpos, Nat.add_zero]

/-! ## The invariant -/

/-- The MDL of an extent of the indices. -/
def mdlOf (hole : Hole) (e : Extent) : Mdl := newMdl hole e.first e.count

/-- The outstanding MDLs are those of the extents. -/
structure Inv (memory : Memory) (page : ℤ) (s : State) (l : List Extent) : Prop where
  hole : HoleOf memory page s.hole
  sound : RangeSet.Sound s.hole.RangeSet
  outstanding : s.outstanding = l.map (mdlOf s.hole)
  laid : Extent.Laid s.hole.Count l s.hole.RangeSet.items

variable {l : List Extent}

/-- The range set can take back what it does not have. -/
theorem put_spec {rs : XenBus.RangeSet} {N : ℕ} {e : Extent} (h : RangeSet.Sound rs) (hN : N < 4294967296)
    (hpos : 0 < e.count) (hwithin : 0 ≤ e.first ∧ e.first + e.count ≤ N) (hdisjoint : Disjoint rs.items e.items) :
    ∃ rs', rs.rangeSetPut e.first e.count true = some (.success, rs') ∧ RangeSet.Sound rs' ∧
      rs'.items = rs.items ∪ e.items := by
  have hclear : RangeSet.Clear rs.items e.first (e.first + e.count - 1) := by
    intro x hx
    have hx' := Finset.disjoint_left.mp hdisjoint hx
    rw [Extent.mem_items] at hx'
    omega
  obtain ⟨rs', hput, hwf, hcur, hitems⟩ :=
    RangeSet.rangeSetPut_spec h.wellFormed h.cursor hpos (by omega) (by omega) hclear (Bool.or_true rs.Spare)
  exact ⟨rs', hput, ⟨hwf, hcur⟩, hitems⟩

theorem Inv.count_lt (h : Inv memory page s l) : s.hole.Count < 4294967296 := by
  have hlt := memory.length_lt
  have hCount := h.hole.Count
  omega

/-- **A call of `FdoPciHoleAllocate`**: it hands out an extent of what is left, or leaves the set as it is. -/
theorem Inv.allocate (h : Inv memory page s l) (Count : ℕ) (allocate : Bool) :
    ∃ mdl hole, FdoPciHoleAllocate s.hole Count allocate = some (mdl, hole) ∧
      hole = { s.hole with RangeSet := hole.RangeSet } ∧ RangeSet.Sound hole.RangeSet ∧
        (mdl = none ∧ hole.RangeSet.items = s.hole.RangeSet.items ∨
          ∃ e : Extent, mdl = some (mdlOf s.hole e) ∧ 0 < e.count ∧ e.count = Count ∧ allocate = true ∧
            e.items ⊆ s.hole.RangeSet.items ∧ hole.RangeSet.items = s.hole.RangeSet.items \ e.items) := by
  unfold FdoPciHoleAllocate
  rcases Nat.eq_zero_or_pos Count with rfl | hpos
  · exact ⟨none, s.hole, rfl, rfl, h.sound, .inl ⟨rfl, rfl⟩⟩
  rcases RangeSet.rangeSetPop_spec h.sound.wellFormed hpos with
    ⟨a, rs, hpop, hleast, hwf, hcur, hitems⟩ | ⟨-, hpop⟩
  · have hsub : (Extent.mk a Count).items ⊆ s.hole.RangeSet.items := by
      intro x hx
      obtain ⟨hlo, hhi⟩ : a ≤ x ∧ x < a + Count := Extent.mem_items.mp hx
      have hx' := hleast.1.2 (x - a).toNat (by omega)
      rwa [show a + ((x - a).toNat : ℤ) = x by omega] at hx'
    rw [hpop]
    cases allocate with
    | true =>
      exact ⟨_, _, rfl, rfl, ⟨hwf, hcur⟩, .inr ⟨⟨a, Count⟩, rfl, hpos, rfl, rfl, hsub, hitems⟩⟩
    | false =>
      -- The pages go back to where they came from.
      have hwithin := (h.laid.take hpos hsub).within _ List.mem_cons_self
      have hdisjoint : Disjoint rs.items (Extent.mk a Count).items := by
        rw [hitems]
        exact Finset.sdiff_disjoint
      obtain ⟨rs', hput, hsound, hitems'⟩ := put_spec ⟨hwf, hcur⟩ h.count_lt hpos hwithin hdisjoint
      refine ⟨none, { s.hole with RangeSet := rs' }, ?_, rfl, hsound, .inl ⟨rfl, ?_⟩⟩
      · simp only [Bool.false_eq_true, if_false]
        rw [show rs.rangeSetPut a Count true = _ from hput]
        rfl
      · change rs'.items = _
        rw [hitems', hitems]
        exact Finset.sdiff_union_of_subset hsub
  · rw [hpop]
    exact ⟨none, s.hole, rfl, rfl, h.sound, .inl ⟨rfl, rfl⟩⟩

/-- An extent that has been handed out, with its index as a natural number. -/
theorem Inv.index (h : Inv memory page s l) {e : Extent} (he : e ∈ l) :
    ∃ Index : ℕ, e = ⟨Index, e.count⟩ ∧ 0 < e.count ∧ Index + e.count ≤ s.hole.Count := by
  obtain ⟨hfirst, hle⟩ := h.laid.within e he
  obtain ⟨Index, hIndex⟩ := Int.eq_ofNat_of_zero_le hfirst
  refine ⟨Index, ?_, h.laid.pos e he, by omega⟩
  rw [← hIndex]

/-- **A call of `FdoPciHoleFree`** gives back the extent that the MDL was built from. -/
theorem Inv.free (h : Inv memory page s l) {e : Extent} (he : e ∈ l) :
    ∃ rs, FdoPciHoleFree s.hole (mdlOf s.hole e) = some (.success, { s.hole with RangeSet := rs }) ∧
      RangeSet.Sound rs ∧ rs.items = s.hole.RangeSet.items ∪ e.items := by
  obtain ⟨Index, heq, hpos, hle⟩ := h.index he
  obtain ⟨rs, hput, hsound, hitems⟩ := put_spec h.sound h.count_lt (h.laid.pos e he) (h.laid.within e he)
    (h.laid.disjoint he)
  obtain ⟨hcount, hindex⟩ := h.hole.found hpos hle
  have hmdl : mdlOf s.hole e = newMdl s.hole Index e.count := by
    rw [mdlOf, heq]
  refine ⟨rs, ?_, hsound, hitems⟩
  have hfirst : e.first = Index := by rw [heq]
  rw [FdoPciHoleFree, hmdl, hcount, hindex, ← hfirst, hput]
  rfl

/-- What a step does to the extents. -/
theorem Inv.step {a : Action} (h : Inv memory page s l) (hs : PciHole.step s a = some s') :
    ∃ l', Inv memory page s' l' ∧ s'.hole.Count = s.hole.Count ∧
      ∀ e ∈ l', e ∈ l ∨ ∃ allocate, a = .allocate e.count allocate ∧ allocate = true ∧
        e.items ⊆ s.hole.RangeSet.items := by
  cases a with
  | allocate Count allocate =>
    obtain ⟨mdl, hole, heq, hhole, hsound, hmdl⟩ := h.allocate Count allocate
    simp only [PciHole.step, heq, Option.map_some, Option.some.injEq] at hs
    subst hs
    have hof : HoleOf memory page hole := by
      rw [hhole]
      exact h.hole.withRangeSet _
    have hsame : mdlOf hole = mdlOf s.hole := by
      rw [hhole]
      rfl
    have hCount : hole.Count = s.hole.Count := by rw [hhole]
    obtain ⟨rfl, hitems⟩ | ⟨e, rfl, hpos, rfl, hallocate, hsub, hitems⟩ := hmdl
    · refine ⟨l, ⟨hof, hsound, ?_, ?_⟩, hCount, fun e he => .inl he⟩
      · rw [hsame, ← h.outstanding]
        rfl
      · rw [hCount, hitems]
        exact h.laid
    · refine ⟨e :: l, ⟨hof, hsound, ?_, ?_⟩, hCount, fun e' he' => ?_⟩
      · rw [hsame, List.map_cons, ← h.outstanding]
        rfl
      · rw [hCount, hitems]
        exact h.laid.take hpos hsub
      · obtain rfl | he' := List.mem_cons.mp he'
        · exact .inr ⟨allocate, rfl, hallocate, hsub⟩
        · exact .inl he'
  | free k =>
    simp only [PciHole.step] at hs
    cases hk : s.outstanding[k]? with
    | none =>
      rw [hk] at hs
      cases hs
    | some mdl =>
      rw [hk] at hs
      rw [h.outstanding, List.getElem?_map] at hk
      obtain ⟨e, hke, rfl⟩ := Option.map_eq_some_iff.mp hk
      obtain ⟨rs, hfree, hsound, hitems⟩ := h.free (List.mem_of_getElem? hke)
      simp only [hfree, Option.map_some, Option.some.injEq] at hs
      subst hs
      refine ⟨l.eraseIdx k, ⟨h.hole.withRangeSet rs, hsound, ?_, ?_⟩, rfl,
        fun e' he' => .inl ((List.eraseIdx_sublist l k).mem he')⟩
      · change s.outstanding.eraseIdx k = _
        rw [h.outstanding, List.eraseIdx_map]
        rfl
      · change Extent.Laid _ _ rs.items
        rw [hitems]
        exact h.laid.give hke

theorem create_spec (memory : Memory) (page : ℤ) :
    ∃ hole, FdoPciHoleCreate memory page = some hole ∧ Inv memory page ⟨hole, []⟩ [] := by
  have hpage := memory.page
  have hlt := memory.length_lt
  have hempty : RangeSet.rangeSetCreate.items = ∅ := rfl
  obtain ⟨rs, hput, hsound, hitems⟩ := put_spec (N := memory.Length / 4096) (e := ⟨0, memory.Length / 4096⟩)
    RangeSet.sound_create (by omega) (by simp; omega) (by simp) (by simp [hempty])
  refine ⟨⟨rs, page * 4096 + memory.Start % 4096, memory.Start, memory.Length / 4096⟩, ?_,
    ⟨?_, rfl, rfl⟩, hsound, rfl, ?_⟩
  · rw [FdoPciHoleCreate, show RangeSet.rangeSetPut _ _ _ _ = _ from hput]
  · have haligned := memory.aligned
    change page * 4096 + ((memory.Start % 4096 : ℕ) : ℤ) = page * 4096
    omega
  · refine Extent.laid_nil fun x => ?_
    rw [hitems, hempty, Finset.empty_union, Extent.mem_items, zero_add]

/-- In every run there are extents for the MDLs. -/
theorem inv_of_reaches {s₀ : State} (h₀ : Inv memory page s₀ []) (h : Reaches step Free s₀ s) :
    ∃ l, Inv memory page s l :=
  h.invariant (P := fun s => ∃ l, Inv memory page s l) ⟨[], h₀⟩ fun _ _ _ ⟨_, hinv⟩ _ hs =>
    let ⟨l', hinv', _⟩ := hinv.step hs
    ⟨l', hinv'⟩

/-! ## The assertions of FdoPciHoleFree -/

/-- **The assertions of `FdoPciHoleFree` hold for an outstanding MDL if and only if it is not the whole
hole.** -/
theorem Inv.freeAsserts_iff (h : Inv memory page s l) {e : Extent} (he : e ∈ l) :
    FreeAsserts s.hole (mdlOf s.hole e) ↔ e.count ≠ s.hole.Count := by
  obtain ⟨Index, heq, hpos, hle⟩ := h.index he
  have hmdl : mdlOf s.hole e = newMdl s.hole Index e.count := by
    rw [mdlOf, heq]
  obtain ⟨hcount, hindex⟩ := h.hole.found hpos hle
  obtain ⟨rs, hfree, -, -⟩ := h.free he
  have hN := h.count_lt
  have hlo : ulong64 (Index : ℤ) = Index := by
    rw [ulong64]
    omega
  have hhi : ulong64 ((Index : ℤ) + e.count) = Index + e.count := by
    rw [ulong64]
    omega
  constructor
  · rintro ⟨hlt, -⟩
    rw [hmdl, hcount] at hlt
    exact hlt.ne
  · intro hne
    refine ⟨?_, ?_, ?_, ?_⟩
    · rw [hmdl, hcount]
      omega
    · rw [hmdl, hindex, hlo]
      omega
    · rw [hmdl, hindex, hcount, hhi]
      exact hle
    · rw [hfree]
      rfl

/-- An allocation takes the whole hole only if nothing is outstanding. -/
theorem Inv.eq_nil_of_whole (h : Inv memory page s l) {e : Extent} (hpos : 0 < e.count)
    (hsub : e.items ⊆ s.hole.RangeSet.items) (hwhole : e.count = s.hole.Count) : l = [] := by
  rw [List.eq_nil_iff_forall_not_mem]
  intro e' he'
  obtain ⟨hfirst, hle⟩ := (h.laid.take hpos hsub).within e List.mem_cons_self
  obtain ⟨hfirst', hle'⟩ := h.laid.within e' he'
  have hpos' := h.laid.pos e' he'
  have hmem : e'.first ∈ e.items := Extent.mem_items.mpr ⟨by omega, by omega⟩
  have hmem' : e'.first ∈ e'.items := Extent.mem_items.mpr ⟨le_refl _, by omega⟩
  exact Finset.disjoint_left.mp (h.laid.disjoint he') (hsub hmem) hmem'

/-- The extents of a run that never takes the whole hole. -/
theorem partial_of_reaches {s₀ : State} (h₀ : Inv memory page s₀ []) (h : Reaches step Partial s₀ s) :
    ∃ l, Inv memory page s l ∧ ∀ e ∈ l, e.count ≠ s.hole.Count := by
  refine h.invariant (P := fun s => ∃ l, Inv memory page s l ∧ ∀ e ∈ l, e.count ≠ s.hole.Count)
    ⟨[], h₀, by simp⟩ ?_
  rintro s a s' ⟨l, hinv, hne⟩ hpartial hs
  obtain ⟨l', hinv', hCount, hfrom⟩ := hinv.step hs
  refine ⟨l', hinv', fun e he => ?_⟩
  rw [hCount]
  obtain hold | ⟨allocate, rfl, hallocate, hsub⟩ := hfrom e he
  · exact hne e hold
  · intro hwhole
    have hl := hinv.eq_nil_of_whole (hinv'.laid.pos e he) hsub hwhole
    exact hpartial ⟨hwhole, by rw [hinv.outstanding, hl, List.map_nil], hallocate⟩

/-! ## The result -/

theorem Inv.pfnArray (h : Inv memory page s l) {e : Extent} (he : e ∈ l) :
    ∃ Index : ℕ, e = ⟨Index, e.count⟩ ∧ 0 < e.count ∧ Index + e.count ≤ s.hole.Count ∧
      (mdlOf s.hole e).PfnArray = List.range' (s.hole.Pfn + Index) e.count := by
  obtain ⟨Index, heq, hpos, hle⟩ := h.index he
  refine ⟨Index, heq, hpos, hle, ?_⟩
  rw [mdlOf, heq]
  exact h.hole.PfnArray (by omega)

/-- A page of the hole is in the MDL if its index is in the extent. -/
theorem Inv.mem_pfnArray (h : Inv memory page s l) {e : Extent} (he : e ∈ l) (Index : ℕ) :
    s.hole.Pfn + Index ∈ (mdlOf s.hole e).PfnArray ↔ (Index : ℤ) ∈ e.items := by
  obtain ⟨first, heq, -, -, hPfnArray⟩ := h.pfnArray he
  have hfirst : e.first = first := by rw [heq]
  rw [hPfnArray, List.mem_range'_1, Extent.mem_items, hfirst]
  omega

theorem Inv.disjoint (h : Inv memory page s l) :
    s.outstanding.Pairwise fun mdl mdl' => mdl.PfnArray.Disjoint mdl'.PfnArray := by
  rw [h.outstanding, List.pairwise_map]
  refine h.laid.apart.imp_of_mem fun {e e'} he he' hapart pfn hpfn hpfn' => ?_
  obtain ⟨first, -, -, -, hPfnArray⟩ := h.pfnArray he
  obtain ⟨Index, rfl⟩ : ∃ Index, pfn = s.hole.Pfn + Index := by
    rw [hPfnArray, List.mem_range'_1] at hpfn
    exact ⟨pfn - s.hole.Pfn, by omega⟩
  exact Finset.disjoint_left.mp hapart ((h.mem_pfnArray he Index).mp hpfn) ((h.mem_pfnArray he' Index).mp hpfn')

theorem Inv.complement (h : Inv memory page s l) (Index : ℕ) :
    (Index : ℤ) ∈ s.hole.RangeSet.items ↔ Index < s.hole.Count ∧
      ∀ mdl ∈ s.outstanding, s.hole.Pfn + Index ∉ mdl.PfnArray := by
  rw [h.laid.left, h.outstanding, List.forall_mem_map]
  constructor
  · rintro ⟨-, hlt, hl⟩
    exact ⟨by omega, fun e he hmem => hl e he ((h.mem_pfnArray he Index).mp hmem)⟩
  · rintro ⟨hlt, hl⟩
    exact ⟨by omega, by omega, fun e he hmem => hl e he ((h.mem_pfnArray he Index).mpr hmem)⟩

/-- With all pages in the range set, `FdoPciHoleDestroy` takes them out. -/
theorem Inv.destroyAsserts (h : Inv memory page s []) : DestroyAsserts s.hole := by
  have hpage := memory.page
  have hCount := h.hole.Count
  refine ⟨by omega, fun allocate => ?_⟩
  have hsub : Finset.Icc 0 (0 + (s.hole.Count : ℤ) - 1) ⊆ s.hole.RangeSet.items := by
    intro x hx
    rw [Finset.mem_Icc] at hx
    exact (h.laid.left x).mpr ⟨by omega, by omega, by simp⟩
  have hitems : ∀ x, x ∈ s.hole.RangeSet.items ↔ 0 ≤ x ∧ x ≤ 0 + (s.hole.Count : ℤ) - 1 := by
    intro x
    rw [h.laid.left]
    simp only [List.not_mem_nil, false_implies, implies_true, and_true]
    omega
  have hlt := h.count_lt
  rw [h.sound.eq_single (by omega) hitems, RangeSet.rangeSetGet_single (by omega) (by omega) (by omega)]
  rfl

theorem Inv.laid_state (h : Inv memory page s l) : Laid s := by
  constructor
  case contiguous =>
    rw [h.outstanding, List.forall_mem_map]
    intro e he
    obtain ⟨Index, heq, hpos, hle, hPfnArray⟩ := h.pfnArray he
    refine ⟨Index, e.count, hpos, hle, hPfnArray, ?_⟩
    rw [mdlOf, heq]
    exact h.hole.allocateAsserts _ _
  case disjoint => exact h.disjoint
  case complement => exact h.complement
  case inside => exact fun x hx => ((h.laid.left x).mp hx).1
  case refused =>
    intro Count allocate hole hnone
    obtain ⟨mdl, hole', heq, hhole, -, ⟨-, hitems⟩ | ⟨e, rfl, -⟩⟩ := h.allocate Count allocate
    · obtain ⟨-, rfl⟩ := Prod.mk.inj (Option.some.inj (heq.symm.trans hnone))
      exact ⟨hhole, hitems⟩
    · cases heq.symm.trans hnone
  case returns =>
    intro Count allocate
    obtain ⟨mdl, hole', heq, -⟩ := h.allocate Count allocate
    rw [heq]
    rfl
  case noBug =>
    rw [h.outstanding, List.forall_mem_map]
    intro e he
    obtain ⟨Index, heq, hpos, hle⟩ := h.index he
    rw [mdlOf, heq]
    exact h.hole.noBug hpos hle
  case destroyed =>
    intro hnil
    rw [h.outstanding, List.map_eq_nil_iff] at hnil
    subst hnil
    exact h.destroyAsserts

/-- All but the assertions of `FdoPciHoleFree` holds in every run. -/
theorem laid_of_reaches (hcreate : FdoPciHoleCreate memory page = some hole)
    (h : Reaches step Free ⟨hole, []⟩ s) : Laid s := by
  obtain ⟨hole', heq, hinv⟩ := create_spec memory page
  obtain rfl := Option.some.inj (heq.symm.trans hcreate)
  obtain ⟨l, hinv⟩ := inv_of_reaches hinv h
  exact hinv.laid_state

/-- **The PCI hole is intact** in every run in which no allocation takes all of it. -/
theorem intact_of_reaches (hcreate : FdoPciHoleCreate memory page = some hole)
    (h : Reaches step Partial ⟨hole, []⟩ s) : Intact s := by
  obtain ⟨hole', heq, hinv⟩ := create_spec memory page
  obtain rfl := Option.some.inj (heq.symm.trans hcreate)
  obtain ⟨l, hinv, hne⟩ := partial_of_reaches hinv h
  refine ⟨hinv.laid_state, ?_⟩
  rw [hinv.outstanding, List.forall_mem_map]
  exact fun e he => (hinv.freeAsserts_iff he).mpr (hne e he)

/-! ## Runs -/

/-- A hole of 4 pages. -/
def fourPages : Memory where
  Start := 4060086272
  Length := 16384
  aligned := by decide
  page := by decide
  length_lt := by decide
  fits := by decide

/-- Three pages are taken in two parts, the first part is freed, and an allocation fails. -/
def partialRun : List Action := [.allocate 2 true, .allocate 1 true, .free 1, .allocate 2 false]

theorem intact_of_partial_run : ∃ hole s, FdoPciHoleCreate fourPages 7 = some hole ∧
    Reaches step Partial ⟨hole, []⟩ s ∧ s.outstanding.map Mdl.PfnArray = [[991234]] ∧ Intact s := by
  have hrun : (FdoPciHoleCreate fourPages 7).any (fun hole =>
      (guardedRun step Partial ⟨hole, []⟩ partialRun).any fun s =>
        decide (s.outstanding.map Mdl.PfnArray = [[991234]])) = true := by
    decide +kernel
  obtain ⟨hole, hcreate, hrun⟩ := (Option.any_eq_true _ _).mp hrun
  obtain ⟨s, hs, hpages⟩ := (Option.any_eq_true _ _).mp hrun
  have h := reaches_of_guardedRun hs
  exact ⟨hole, s, hcreate, h, of_decide_eq_true hpages, intact_of_reaches hcreate h⟩

/-- **The whole hole**: its MDL is outstanding, and `ASSERT3U(Count, <, Hole->Count)` does not hold for it. -/
theorem not_intact_of_whole : ∃ hole s, FdoPciHoleCreate fourPages 7 = some hole ∧
    Reaches step Free ⟨hole, []⟩ s ∧ (∃ mdl ∈ s.outstanding, ¬ freeCount mdl < s.hole.Count) ∧
      ¬ Intact s := by
  have hrun : (FdoPciHoleCreate fourPages 7).any (fun hole =>
      (run step ⟨hole, []⟩ [.allocate 4 true]).any fun s =>
        decide (∃ mdl ∈ s.outstanding, ¬ freeCount mdl < s.hole.Count)) = true := by
    decide +kernel
  obtain ⟨hole, hcreate, hrun⟩ := (Option.any_eq_true _ _).mp hrun
  obtain ⟨s, hs, hwhole⟩ := (Option.any_eq_true _ _).mp hrun
  obtain ⟨mdl, hmdl, hnot⟩ := of_decide_eq_true hwhole
  exact ⟨hole, s, hcreate, reaches_of_run hs, ⟨mdl, hmdl, hnot⟩,
    fun hintact => hnot (hintact.freed mdl hmdl).1⟩

end XenBus.Fdo.PciHole
