import XenBus.ObjectCache.Slab

/-!
# The order of the slabs

The slabs are sorted by their allocated counts, the fullest first, and `Cursor` points at the first one
that is not full (`Ordered`). `CacheGet` takes an object from that slab, which may move the cursor to the
next; `CachePut` takes a slab out and inserts it again; `CacheSpill` takes slabs from the end. Each of
them keeps the order, and what it does to the objects is said in terms of the sets of the constructed
and of the allocated ones.
-/

namespace XenBus.ObjectCache

open Construction

variable {n m : ℕ} {σ : Type*} {client : Client σ} {Size : ℕ} {slab slab' New : Slab} {s s' : σ}
  {pre post l : List Slab} {cache cache' : Cache n}

/-! ## Lists of slabs -/

/-- What holds of the slabs in any order: each is good, at an address of its own, and on a page
boundary. -/
structure Slabs (Size : ℕ) (l : List Slab) : Prop where
  good : ∀ slab ∈ l, slab.Good (slabCount Size)
  aligned : ∀ slab ∈ l, slab.Address % 4096 = 0
  nodup : (l.map Slab.Address).Nodup

/-- Objects of different slabs are at different addresses. -/
def Separate (Size : ℕ) (l : List Slab) : Prop :=
  ∀ x ∈ l, ∀ y ∈ l, ∀ i < slabCount Size, ∀ j < slabCount Size,
    x.object Size i = y.object Size j → x.Address = y.Address ∧ i = j

/-- The fullest slabs come first. -/
def Sorted (l : List Slab) : Prop := l.Pairwise fun a b => b.Allocated.Count ≤ a.Allocated.Count

/-- The first slab that is not full. -/
def firstFree (l : List Slab) : Option ℕ := (l.find? fun slab => !slab.full).map Slab.Address

/-- The objects whose bits are set in one of the masks of each slab. -/
def objects (mask : Slab → Mask) (Size : ℕ) (l : List Slab) : Set ℕ :=
  {o | ∃ slab ∈ l, o ∈ slab.objects Size (mask slab).Bits}

/-- The sum of the allocated counts. -/
def allocatedTotal (l : List Slab) : ℕ := (l.map fun slab => slab.Allocated.Count).sum

theorem firstFree_cons (slab : Slab) (l : List Slab) :
    firstFree (slab :: l) = if slab.full = true then firstFree l else some slab.Address := by
  cases hfull : slab.full <;> simp [firstFree, hfull]

theorem firstFree_append (hpre : ∀ slab ∈ pre, slab.full = true) :
    firstFree (pre ++ l) = firstFree l := by
  induction pre with
  | nil => rfl
  | cons slab pre ih =>
    rw [List.cons_append, firstFree_cons, if_pos (hpre slab List.mem_cons_self)]
    exact ih fun x hx => hpre x (List.mem_cons_of_mem _ hx)

/-- The list splits at the first slab that is not full. -/
theorem exists_of_firstFree {a : ℕ} (h : firstFree l = some a) : ∃ pre slab post,
    l = pre ++ slab :: post ∧ (∀ x ∈ pre, x.full = true) ∧ slab.full = false ∧ slab.Address = a := by
  obtain ⟨slab, hfind, rfl⟩ := Option.map_eq_some_iff.mp h
  obtain ⟨hfull, pre, post, rfl, hpre⟩ := List.find?_eq_some_iff_append.mp hfind
  exact ⟨pre, slab, post, rfl, by simpa using hpre, by simpa using hfull, rfl⟩

theorem firstFree_eq_none (h : firstFree l = none) : ∀ slab ∈ l, slab.full = true := by
  intro slab hslab
  have := List.find?_eq_none.mp (Option.map_eq_none_iff.mp h) slab hslab
  simpa using this

theorem sorted_append_cons : Sorted (pre ++ slab :: post) ↔ Sorted (pre ++ post) ∧
    (∀ x ∈ pre, slab.Allocated.Count ≤ x.Allocated.Count) ∧
      ∀ x ∈ post, x.Allocated.Count ≤ slab.Allocated.Count := by
  simp only [Sorted, List.pairwise_append, List.pairwise_cons, List.mem_cons]
  constructor
  · rintro ⟨hpre, ⟨hslab, hpost⟩, hcross⟩
    exact ⟨⟨hpre, hpost, fun x hx y hy => hcross x hx y (.inr hy)⟩,
      fun x hx => hcross x hx slab (.inl rfl), hslab⟩
  · rintro ⟨⟨hpre, hpost, hcross⟩, hbefore, hafter⟩
    refine ⟨hpre, ⟨hafter, hpost⟩, fun x hx y hy => ?_⟩
    obtain rfl | hy := hy
    · exact hbefore x hx
    · exact hcross x hx y hy

/-! ## Changing one slab of a list -/

theorem objects_append_cons (mask : Slab → Mask) (Size : ℕ) : objects mask Size (pre ++ slab :: post) =
    slab.objects Size (mask slab).Bits ∪ objects mask Size (pre ++ post) := by
  ext o
  simp only [objects, List.mem_append, List.mem_cons, Set.mem_union, Set.mem_ofPred_eq]
  constructor
  · rintro ⟨x, hx | rfl | hx, ho⟩
    · exact .inr ⟨x, .inl hx, ho⟩
    · exact .inl ho
    · exact .inr ⟨x, .inr hx, ho⟩
  · rintro (ho | ⟨x, hx | hx, ho⟩)
    · exact ⟨slab, .inr (.inl rfl), ho⟩
    · exact ⟨x, .inl hx, ho⟩
    · exact ⟨x, .inr (.inr hx), ho⟩

theorem allocatedTotal_append_cons : allocatedTotal (pre ++ slab :: post) =
    slab.Allocated.Count + allocatedTotal (pre ++ post) := by
  simp only [allocatedTotal, List.map_append, List.map_cons, List.sum_append, List.sum_cons]
  omega

namespace Slabs

theorem replace (h : Slabs Size (pre ++ slab :: post)) (hgood : slab'.Good (slabCount Size))
    (haddr : slab'.Address = slab.Address) : Slabs Size (pre ++ slab' :: post) where
  good x hx := by
    obtain hx | hx := List.mem_append.mp hx
    · exact h.good x (List.mem_append_left _ hx)
    · obtain rfl | hx := List.mem_cons.mp hx
      · exact hgood
      · exact h.good x (List.mem_append_right _ (List.mem_cons_of_mem _ hx))
  aligned x hx := by
    obtain hx | hx := List.mem_append.mp hx
    · exact h.aligned x (List.mem_append_left _ hx)
    · obtain rfl | hx := List.mem_cons.mp hx
      · rw [haddr]
        exact h.aligned slab (List.mem_append_right _ List.mem_cons_self)
      · exact h.aligned x (List.mem_append_right _ (List.mem_cons_of_mem _ hx))
  nodup := by
    have := h.nodup
    rw [List.map_append, List.map_cons] at this ⊢
    rwa [haddr]

theorem sublist (h : Slabs Size l) {l' : List Slab} (hl : l'.Sublist l) : Slabs Size l' :=
  ⟨fun x hx => h.good x (hl.subset hx), fun x hx => h.aligned x (hl.subset hx),
    h.nodup.sublist (hl.map _)⟩

theorem perm (h : Slabs Size l) {l' : List Slab} (hl : l'.Perm l) : Slabs Size l' :=
  ⟨fun x hx => h.good x (hl.subset hx), fun x hx => h.aligned x (hl.subset hx),
    (hl.map _).nodup_iff.mpr h.nodup⟩

theorem cons (h : Slabs Size l) (hgood : New.Good (slabCount Size)) (ha : New.Address % 4096 = 0)
    (hnew : New.Address ∉ l.map Slab.Address) : Slabs Size (New :: l) where
  good := List.forall_mem_cons.mpr ⟨hgood, h.good⟩
  aligned := List.forall_mem_cons.mpr ⟨ha, h.aligned⟩
  nodup := by
    rw [List.map_cons]
    exact List.nodup_cons.mpr ⟨hnew, h.nodup⟩

/-- An object belongs to one slab. -/
theorem notMem_of_separate (h : Slabs Size (pre ++ slab :: post))
    (hsep : Separate Size (pre ++ slab :: post)) {i : ℕ} (hi : i < slabCount Size) (mask : Slab → Mask)
    (hmask : ∀ x ∈ pre ++ slab :: post, (mask x).Bits ⊆ x.Constructed.Bits) :
    slab.object Size i ∉ objects mask Size (pre ++ post) := by
  rintro ⟨x, hx, j, hj, heq⟩
  have hx' : x ∈ pre ++ slab :: post := by
    obtain hx | hx := List.mem_append.mp hx
    · exact List.mem_append_left _ hx
    · exact List.mem_append_right _ (List.mem_cons_of_mem _ hx)
  have hslab : slab ∈ pre ++ slab :: post := List.mem_append_right _ List.mem_cons_self
  have hjn := (h.good x hx').lt_of_mem (hmask x hx' hj)
  obtain ⟨haddr, -⟩ := hsep x hx' slab hslab j hjn i hi heq
  obtain ⟨hpre, hpost⟩ := KeyedList.ne_of_nodup h.nodup
  obtain hx | hx := List.mem_append.mp hx
  · exact hpre x hx haddr
  · exact hpost x hx haddr

/-- The allocated objects after one of them is given back to its slab. -/
theorem release_of_separate (h : Slabs Size (pre ++ slab :: post))
    (hsep : Separate Size (pre ++ slab :: post)) {i : ℕ} (hi : i ∈ slab.Allocated.Bits)
    {pre' post' : List Slab} (hlist : pre ++ post = pre' ++ post') :
    objects Slab.Allocated Size (pre' ++
        { slab with Allocated := cacheMaskClear slab.Allocated i } :: post') =
      objects Slab.Allocated Size (pre ++ slab :: post) \ {slab.object Size i} := by
  have hslab : slab ∈ pre ++ slab :: post := List.mem_append_right _ List.mem_cons_self
  have hgood := h.good slab hslab
  have hlt : ∀ j ∈ slab.Allocated.Bits, j < slabCount Size := fun j hj => hgood.lt_of_mem (hgood.subset hj)
  have hout : slab.object Size i ∉ objects Slab.Allocated Size (pre' ++ post') := by
    rw [← hlist]
    exact h.notMem_of_separate hsep (hlt i hi) Slab.Allocated fun x hx => (h.good x hx).subset
  rw [objects_append_cons, objects_append_cons, hlist, Set.union_sdiff_distrib,
    Set.sdiff_singleton_eq_self hout]
  congr 1
  ext o
  simp only [cacheMaskClear_bits, Slab.objects, Set.mem_sdiff, Set.mem_ofPred_eq,
    Set.mem_singleton_iff]
  constructor
  · rintro ⟨j, hj, rfl⟩
    obtain ⟨hne, hj⟩ := Finset.mem_erase.mp hj
    exact ⟨⟨j, hj, rfl⟩, fun heq => hne (hsep slab hslab slab hslab j (hlt j hj) i (hlt i hi) heq).2⟩
  · rintro ⟨⟨j, hj, rfl⟩, hne⟩
    exact ⟨j, Finset.mem_erase.mpr ⟨fun heq => hne (heq ▸ rfl), hj⟩, rfl⟩

theorem separate (h : Slabs Size l) (hsize : SoundSize Size) : Separate Size l :=
  fun x hx y hy _ hi _ hj heq => hsize.object_inj (h.aligned x hx) (h.aligned y hy) hi hj heq

theorem objects_release (h : Slabs Size (pre ++ slab :: post)) (hsize : SoundSize Size) {i : ℕ}
    (hi : i ∈ slab.Allocated.Bits) {pre' post' : List Slab} (hlist : pre ++ post = pre' ++ post') :
    objects Slab.Allocated Size (pre' ++
        { slab with Allocated := cacheMaskClear slab.Allocated i } :: post') =
      objects Slab.Allocated Size (pre ++ slab :: post) \ {slab.object Size i} :=
  h.release_of_separate (h.separate hsize) hi hlist

end Slabs

/-! ## Insertion -/

/-- **The walk of `CacheInsertSlab`**: the slab goes before the first one with fewer objects, and the
cursor, if it was not set, to the first one that is not full. -/
theorem insertWalk_spec (hNew : New.full = false) (hsorted : Sorted l)
    (hall : ∀ slab ∈ l, slab.Allocated.Count ≤ slab.Allocated.Size) (Cursor : Option ℕ) :
    ∃ pre post, l = pre ++ post ∧
      insertWalk New Cursor l = (pre ++ New :: post, Cursor.or (firstFree (pre ++ New :: post))) ∧
      (∀ x ∈ pre, New.Allocated.Count ≤ x.Allocated.Count) ∧
      ∀ x ∈ post, x.Allocated.Count ≤ New.Allocated.Count := by
  have hhead : ∀ l, firstFree (New :: l) = some New.Address := fun l => by
    rw [firstFree_cons, hNew]
    rfl
  induction l generalizing Cursor with
  | nil => exact ⟨[], [], rfl, by simp [insertWalk, hhead], by simp, by simp⟩
  | cons slab l ih =>
    obtain ⟨hle, hsorted'⟩ := List.pairwise_cons.mp hsorted
    unfold insertWalk
    by_cases hlt : slab.Allocated.Count < New.Allocated.Count
    · refine ⟨[], slab :: l, rfl, by simp [hlt, hhead], by simp, fun x hx => ?_⟩
      obtain rfl | hx := List.mem_cons.mp hx
      · exact hlt.le
      · exact (hle x hx).trans hlt.le
    · have hfull : slab.full = false ↔ slab.Allocated.Count < slab.Allocated.Size := by
        have := hall slab List.mem_cons_self
        rw [Slab.full, decide_eq_false_iff_not]
        omega
      obtain ⟨pre, post, rfl, hwalk, hpre, hpost⟩ :=
        ih hsorted' (fun x hx => hall x (List.mem_cons_of_mem _ hx))
          (if slab.Allocated.Count < slab.Allocated.Size ∧ Cursor = none then some slab.Address
            else Cursor)
      refine ⟨slab :: pre, post, rfl, ?_, ?_, hpost⟩
      · simp only [if_neg hlt, hwalk]
        rw [List.cons_append, firstFree_cons]
        cases hf : slab.full with
        | true =>
          have hnot : ¬ slab.Allocated.Count < slab.Allocated.Size := fun h => by
            rw [hfull.mpr h] at hf
            cases hf
          simp [hnot]
        | false =>
          have hlt' := hfull.mp hf
          cases Cursor <;> simp [hlt']
      · intro x hx
        obtain rfl | hx := List.mem_cons.mp hx
        · omega
        · exact hpre x hx

/-! ## The invariant of the cache -/

/-- **The order of the slabs.** -/
structure Ordered (cache : Cache n) : Prop where
  slabs : Slabs cache.Size cache.SlabList
  sorted : Sorted cache.SlabList
  cursor : cache.Cursor = firstFree cache.SlabList

/-- The cache with another list, and the cursor at its first slab that is not full. -/
def Cache.withSlabs (cache : Cache n) (l : List Slab) : Cache n :=
  { cache with SlabList := l, Cursor := firstFree l }

theorem Ordered.withSlabs (hslabs : Slabs cache.Size l) (hsorted : Sorted l) :
    Ordered (cache.withSlabs l) :=
  ⟨hslabs, hsorted, rfl⟩

/-- **`CacheInsertSlab`** of a slab that is not full. -/
theorem cacheInsertSlab_spec (cache : Cache n) (hslabs : Slabs cache.Size (New :: cache.SlabList))
    (hsorted : Sorted cache.SlabList) (hNew : New.full = false) :
    ∃ pre post, cache.SlabList = pre ++ post ∧
      cacheInsertSlab cache New = cache.withSlabs (pre ++ New :: post) ∧
      Ordered (cache.withSlabs (pre ++ New :: post)) := by
  have hall : ∀ slab ∈ cache.SlabList, slab.Allocated.Count ≤ slab.Allocated.Size :=
    fun slab hslab => by
      have hgood := hslabs.good slab (List.mem_cons_of_mem _ hslab)
      rw [hgood.allocatedSize]
      exact hgood.count_le.trans hgood.constructedLe
  obtain ⟨pre, post, hlist, hwalk, hpre, hpost⟩ := insertWalk_spec hNew hsorted hall none
  refine ⟨pre, post, hlist, ?_, .withSlabs ?_ ?_⟩
  · simp only [cacheInsertSlab, hwalk, Option.none_or]
    rfl
  · rw [hlist] at hslabs
    exact hslabs.perm List.perm_middle
  · exact sorted_append_cons.mpr ⟨hlist ▸ hsorted, hpre, hpost⟩

/-! ## Creating a slab -/

/-- A slab that has just been created. -/
def newSlab (Size Address : ℕ) : Slab :=
  ⟨Address, ⟨slabCount Size, 0, ∅⟩, ⟨slabCount Size, 0, ∅⟩⟩

/-- All allocations succeed. -/
def Succeeds (alloc : SlabAlloc) : Prop :=
  alloc.Slab ≠ none ∧ alloc.Constructed = true ∧ alloc.Allocated = true

instance (alloc : SlabAlloc) : Decidable (Succeeds alloc) := inferInstanceAs (Decidable (_ ∧ _ ∧ _))

/-- What `CacheCreateSlab` does: nothing, or a slab is inserted. -/
inductive Created (cache : Cache n) (alloc : SlabAlloc) : Status → Cache n → Prop
  | failed {status : Status} (h : status ≠ .success) : Created cache alloc status cache
  | created {Address : ℕ} {pre post : List Slab} (halloc : alloc.Slab = some Address)
    (hsucceeds : Succeeds alloc)
    (hcap : (cache.Count + slabCount cache.Size) % 4294967296 ≤ cache.Cap)
    (hlist : cache.SlabList = pre ++ post)
    (hordered : Ordered (cache.withSlabs (pre ++ newSlab cache.Size Address :: post))) :
    Created cache alloc .success
      { cache.withSlabs (pre ++ newSlab cache.Size Address :: post) with
        Count := (cache.Count + slabCount cache.Size) % 4294967296
        CurrentSlabs := MachineInt.long32 (cache.CurrentSlabs + 1)
        MaximumSlabs := max cache.MaximumSlabs (MachineInt.long32 (cache.CurrentSlabs + 1)) }

/-- The allocation of a slab, if it succeeds, returns the address of a page that is not in use. -/
def FreshAlloc (alloc : SlabAlloc) (used : List ℕ) : Prop :=
  ∀ Address ∈ alloc.Slab, Address % 4096 = 0 ∧ Address ∉ used

instance (alloc : SlabAlloc) (used : List ℕ) : Decidable (FreshAlloc alloc used) :=
  inferInstanceAs (Decidable (∀ Address ∈ alloc.Slab, _ ∧ _))

/-- `CacheCreateSlab` when it succeeds. -/
theorem cacheCreateSlab_of_succeeds {alloc : SlabAlloc} {Address : ℕ}
    (hcap : (cache.Count + slabCount cache.Size) % 4294967296 ≤ cache.Cap)
    (hbytes : slabBytes cache.Size ≠ 0) (halloc : alloc = ⟨some Address, true, true⟩) :
    cacheCreateSlab cache alloc = (.success, { cacheInsertSlab cache (newSlab cache.Size Address) with
      Count := (cache.Count + slabCount cache.Size) % 4294967296
      CurrentSlabs := MachineInt.long32 (cache.CurrentSlabs + 1)
      MaximumSlabs := max cache.MaximumSlabs (MachineInt.long32 (cache.CurrentSlabs + 1)) }) := by
  subst halloc
  unfold cacheCreateSlab cacheMaskCreate
  rw [if_neg (Nat.not_lt.mpr hcap), if_neg hbytes]
  rfl

/-- `CacheCreateSlab` when it fails. -/
theorem cacheCreateSlab_of_fails {alloc : SlabAlloc}
    (h : ¬ ((cache.Count + slabCount cache.Size) % 4294967296 ≤ cache.Cap ∧ slabBytes cache.Size ≠ 0 ∧
      Succeeds alloc)) :
    (cacheCreateSlab cache alloc).1.ntSuccess = false ∧ (cacheCreateSlab cache alloc).2 = cache := by
  unfold cacheCreateSlab cacheMaskCreate
  by_cases hcap : (cache.Count + slabCount cache.Size) % 4294967296 > cache.Cap
  · rw [if_pos hcap]
    exact ⟨rfl, rfl⟩
  · rw [if_neg hcap]
    obtain ⟨Slab, Constructed, Allocated⟩ := alloc
    by_cases hbytes : slabBytes cache.Size = 0
    · rw [if_pos hbytes]
      exact ⟨rfl, rfl⟩
    · rw [if_neg hbytes]
      have hfails : ¬ Succeeds ⟨Slab, Constructed, Allocated⟩ :=
        fun hsucceeds => h ⟨Nat.le_of_not_lt hcap, hbytes, hsucceeds⟩
      cases Slab with
      | none => exact ⟨rfl, rfl⟩
      | some Address =>
        cases Constructed with
        | false => exact ⟨rfl, rfl⟩
        | true =>
          cases Allocated with
          | false => exact ⟨rfl, rfl⟩
          | true => exact absurd ⟨Option.some_ne_none _, rfl, rfl⟩ hfails

/-- **`CacheCreateSlab`.** -/
theorem cacheCreateSlab_spec (h : Ordered cache) (hsize : SoundSize cache.Size) (alloc : SlabAlloc)
    (hfresh : FreshAlloc alloc (cache.SlabList.map Slab.Address)) :
    ∃ status cache', cacheCreateSlab cache alloc = (status, cache') ∧
      Created cache alloc status cache' := by
  unfold cacheCreateSlab cacheMaskCreate
  by_cases hcap : (cache.Count + slabCount cache.Size) % 4294967296 > cache.Cap
  · exact ⟨_, _, if_pos hcap, .failed nofun⟩
  · simp only [if_neg hcap]
    cases halloc : (if slabBytes cache.Size = 0 then none else alloc.Slab) with
    | none => exact ⟨_, _, rfl, .failed nofun⟩
    | some Address =>
      have halloc' : alloc.Slab = some Address := by
        split_ifs at halloc
        exact halloc
      cases hc : alloc.Constructed with
      | false => exact ⟨_, _, rfl, .failed nofun⟩
      | true =>
        cases ha : alloc.Allocated with
        | false => exact ⟨_, _, rfl, .failed nofun⟩
        | true =>
          obtain ⟨halign, hnew⟩ := hfresh Address halloc'
          have hslabs : Slabs cache.Size (newSlab cache.Size Address :: cache.SlabList) :=
            h.slabs.cons good_new halign hnew
          have hfull : (newSlab cache.Size Address).full = false :=
            decide_eq_false fun heq : 0 = slabCount cache.Size => hsize.1.ne heq
          obtain ⟨pre, post, hlist, hinsert, hordered⟩ :=
            cacheInsertSlab_spec cache hslabs h.sorted hfull
          rw [newSlab] at hinsert
          simp only [if_true, hinsert]
          have hsucceeds : Succeeds alloc := ⟨by rw [halloc']; nofun, hc, ha⟩
          exact ⟨_, _, rfl, .created halloc' hsucceeds (by omega) hlist hordered⟩

/-! ## Taking an object -/

/-- **`CacheGet` at the cursor** takes an object from the first slab that is not full. -/
theorem getFromCursor_spec (client : Client σ) (h : Ordered cache) {a : ℕ}
    (hcur : cache.Cursor = some a) (s : σ) :
    ∃ pre slab post o slab' s', cache.SlabList = pre ++ slab :: post ∧
      Taken client cache.Size (slabCount cache.Size) slab s o slab' s' ∧
      getFromCursor client cache a s = (o, cache.withSlabs (pre ++ slab' :: post), s') ∧
      Ordered (cache.withSlabs (pre ++ slab' :: post)) := by
  obtain ⟨pre, slab, post, hlist, hpre, hfull, rfl⟩ := exists_of_firstFree (h.cursor ▸ hcur)
  have hslabs := h.slabs
  have hsorted := h.sorted
  rw [hlist] at hslabs hsorted
  have hgood := hslabs.good slab (List.mem_append_right _ List.mem_cons_self)
  obtain ⟨o, slab', s', hget, htaken⟩ := cacheGetObjectFromSlab_spec client cache.Size hgood hfull s
  obtain ⟨hgood', hcount⟩ := htaken.good hgood (slabCount_lt _)
  have haddr := htaken.address
  have hslabs' := hslabs.replace hgood' haddr
  have hmore : slab.Allocated.Count ≤ slab'.Allocated.Count := by
    rw [hcount]
    exact Nat.le_add_right _ _
  obtain ⟨hrest, -, hafter⟩ := sorted_append_cons.mp hsorted
  -- the slabs before are full
  have hbefore : ∀ x ∈ pre, slab'.Allocated.Count ≤ x.Allocated.Count := fun x hx => by
    rw [(hslabs.good x (List.mem_append_left _ hx)).full_iff.mp (hpre x hx)]
    exact hgood'.count_le.trans hgood'.constructedLe
  have hsorted' : Sorted (pre ++ slab' :: post) :=
    sorted_append_cons.mpr ⟨hrest, hbefore, fun x hx => (hafter x hx).trans hmore⟩
  -- the slab after is not
  have hnext : post.head?.map Slab.Address = firstFree post := by
    cases post with
    | nil => rfl
    | cons x post =>
      have hx := hslabs.good x (List.mem_append_right _ (by simp))
      have hlt := hgood.lt_of_not_full hfull
      have hle := hafter x List.mem_cons_self
      have hxfull : x.full = false := by
        rw [← Bool.not_eq_true, hx.full_iff]
        omega
      rw [firstFree_cons, hxfull]
      rfl
  have hcursor : (if slab'.full = true then
      KeyedList.next Slab.Address (pre ++ slab' :: post) slab'.Address else cache.Cursor) =
      firstFree (pre ++ slab' :: post) := by
    rw [firstFree_append hpre, firstFree_cons]
    split_ifs
    · rw [KeyedList.next_append hslabs'.nodup, hnext]
    · rw [hcur, haddr]
  refine ⟨pre, slab, post, o, slab', s', hlist, htaken, ?_, .withSlabs hslabs' hsorted'⟩
  simp only [getFromCursor, hlist, KeyedList.lookup_append hslabs.nodup, hget,
    KeyedList.replace_append hslabs.nodup haddr, hcursor]
  rfl

/-! ## Giving an object back -/

/-- **`CachePut` of an allocated object** clears its bit, and moves the slab back in the list. -/
theorem cachePutLocked_spec (h : Ordered cache) (hsize : SoundSize cache.Size) {o : ℕ}
    (ho : o ∈ objects Slab.Allocated cache.Size cache.SlabList) :
    ∃ pre slab post pre' post' i, cache.SlabList = pre ++ slab :: post ∧
      pre ++ post = pre' ++ post' ∧ i ∈ slab.Allocated.Bits ∧ slab.object cache.Size i = o ∧
      cachePutLocked cache o = some (cache.withSlabs (pre' ++
        { slab with Allocated := cacheMaskClear slab.Allocated i } :: post')) ∧
      Ordered (cache.withSlabs (pre' ++
        { slab with Allocated := cacheMaskClear slab.Allocated i } :: post')) := by
  obtain ⟨slab, hslab, i, hi, rfl⟩ := ho
  have hgood := h.slabs.good slab hslab
  have hin := hgood.lt_of_mem (hgood.subset hi)
  obtain ⟨hgood', hcount⟩ := hgood.release hi
  obtain ⟨pre, post, hlist⟩ := List.append_of_mem hslab
  have hslabs := h.slabs
  have hsorted := h.sorted
  rw [hlist] at hslabs hsorted
  have hfull : ({ slab with Allocated := cacheMaskClear slab.Allocated i } : Slab).full = false := by
    have := hgood.count_le.trans hgood.constructedLe
    rw [← Bool.not_eq_true, hgood'.full_iff]
    show ¬ (cacheMaskClear slab.Allocated i).Count = slabCount cache.Size
    omega
  have hslabs' : Slabs cache.Size
      ({ slab with Allocated := cacheMaskClear slab.Allocated i } :: (pre ++ post)) :=
    (hslabs.replace hgood' rfl).perm List.perm_middle.symm
  obtain ⟨pre', post', hlist', hinsert, hordered⟩ :=
    cacheInsertSlab_spec { cache with SlabList := pre ++ post } hslabs'
      (sorted_append_cons.mp hsorted).1 hfull
  refine ⟨pre, slab, post, pre', post', i, hlist, hlist', hi, rfl, ?_, hordered⟩
  have hpage := hsize.pageAlign_object (h.slabs.aligned slab hslab) hin
  have hput := cachePutObjectToSlab_spec hgood hsize hi
  simp only [cachePutLocked, hpage, hlist, KeyedList.lookup_append hslabs.nodup, hput,
    KeyedList.unlink_append hslabs.nodup, Option.bind_eq_bind, Option.bind_some, hinsert]
  rfl

/-! ## Destroying slabs -/

/-- `CacheDestroySlab` of the slab at the end of the list destroys its objects, in whatever order the
slabs are. -/
theorem cacheDestroySlab_of_separate (client : Client σ) (h : Slabs cache.Size cache.SlabList)
    (hlist : cache.SlabList = pre ++ [slab]) (hsep : Separate cache.Size cache.SlabList) (s : σ) :
    (cacheDestroySlab client cache slab s).1.SlabList = pre ∧
      Steps client.life (slab.objects cache.Size slab.Constructed.Bits)
        (objects Slab.Constructed cache.Size cache.SlabList, s)
        (objects Slab.Constructed cache.Size pre, (cacheDestroySlab client cache slab s).2) := by
  have hslabs := h
  rw [hlist] at hslabs hsep
  have hgood := hslabs.good slab (by simp)
  constructor
  · show KeyedList.unlink Slab.Address cache.SlabList slab.Address = pre
    rw [hlist, KeyedList.unlink_append hslabs.nodup, List.append_nil]
  · have hbits : ∀ j ∈ slab.Constructed.Bits, j < slab.Constructed.Size := fun j hj => by
      rw [hgood.constructedSize]
      exact hgood.lt_of_mem hj
    rw [hlist, objects_append_cons, List.append_nil]
    have hslab : slab ∈ pre ++ [slab] := List.mem_append_right _ List.mem_cons_self
    have hinj : Set.InjOn (slab.object cache.Size) slab.Constructed.Bits := fun i hi j hj heq =>
      (hsep slab hslab slab hslab i (hgood.lt_of_mem hi) j (hgood.lt_of_mem hj) heq).2
    have hsteps := destroyObjects_of_injOn client slab.Constructed.Size
      slab.Constructed (slab.objects cache.Size slab.Constructed.Bits ∪
        objects Slab.Constructed cache.Size pre) s hinj hbits Set.subset_union_left subset_rfl
    have hdisj : (slab.objects cache.Size slab.Constructed.Bits ∪
        objects Slab.Constructed cache.Size pre) \ slab.objects cache.Size slab.Constructed.Bits =
        objects Slab.Constructed cache.Size pre := by
      rw [Set.union_sdiff_left]
      refine sdiff_eq_left.mpr (Set.disjoint_left.mpr ?_)
      rintro o ho ⟨j, hj, rfl⟩
      have := hslabs.notMem_of_separate hsep (hgood.lt_of_mem hj) Slab.Constructed fun _ _ => subset_rfl
      rw [List.append_nil] at this
      exact this ho
    rwa [hdisj] at hsteps

theorem cacheDestroySlab_steps (client : Client σ) (h : Slabs cache.Size cache.SlabList)
    (hlist : cache.SlabList = pre ++ [slab]) (hsize : SoundSize cache.Size) (s : σ) :
    (cacheDestroySlab client cache slab s).1.SlabList = pre ∧
      Steps client.life (slab.objects cache.Size slab.Constructed.Bits)
        (objects Slab.Constructed cache.Size cache.SlabList, s)
        (objects Slab.Constructed cache.Size pre, (cacheDestroySlab client cache slab s).2) :=
  cacheDestroySlab_of_separate client h hlist (h.separate hsize) s

/-- **`CacheDestroySlab`** of an empty slab at the end of the list. -/
theorem cacheDestroySlab_spec (client : Client σ) (h : Ordered cache)
    (hlist : cache.SlabList = pre ++ [slab]) (hsize : SoundSize cache.Size)
    (hempty : slab.Allocated.Count = 0) (s : σ) :
    ∃ s', cacheDestroySlab client cache slab s =
        ({ cache.withSlabs pre with
          Count := MachineInt.ulongSub cache.Count (slabCount cache.Size)
          CurrentSlabs := MachineInt.long32 (cache.CurrentSlabs - 1) }, s') ∧
      Ordered (cache.withSlabs pre) ∧
      Steps client.life (slab.objects cache.Size slab.Constructed.Bits)
        (objects Slab.Constructed cache.Size cache.SlabList, s)
        (objects Slab.Constructed cache.Size pre, s') := by
  have hslabs := h.slabs
  have hsorted := h.sorted
  have hcur := h.cursor
  rw [hlist] at hslabs hsorted hcur
  have hgood := hslabs.good slab (by simp)
  have hslabs' : Slabs cache.Size pre := hslabs.sublist (List.sublist_append_left _ _)
  have hsorted' : Sorted pre := by
    have := (sorted_append_cons.mp hsorted).1
    rwa [List.append_nil] at this
  have hfull : slab.full = false := by
    have := hsize.1
    rw [← Bool.not_eq_true, hgood.full_iff]
    omega
  -- the cursor moves off the slab
  have hcursor : (if cache.Cursor = some slab.Address then
      KeyedList.next Slab.Address (pre ++ [slab]) slab.Address else cache.Cursor) =
      firstFree pre := by
    cases hfree : firstFree pre with
    | none =>
      rw [firstFree_append (firstFree_eq_none hfree), firstFree_cons, if_neg (by simp [hfull])] at hcur
      rw [if_pos hcur, KeyedList.next_append hslabs.nodup]
      rfl
    | some a =>
      obtain ⟨pre', x, post', rfl, hpre', hx, rfl⟩ := exists_of_firstFree hfree
      have hcur' : cache.Cursor = some x.Address := by
        rw [hcur, List.append_assoc, firstFree_append hpre', List.cons_append, firstFree_cons, hx]
        rfl
      have hne : x.Address ≠ slab.Address := (KeyedList.ne_of_nodup hslabs.nodup).1 x (by simp)
      rw [hcur', if_neg (fun heq => hne (Option.some.inj heq))]
  have hunlink : KeyedList.unlink Slab.Address (pre ++ [slab]) slab.Address = pre := by
    rw [KeyedList.unlink_append hslabs.nodup, List.append_nil]
  refine ⟨(destroyObjects client cache.Size slab slab.Constructed.Size slab.Constructed s).2, ?_,
    .withSlabs hslabs' hsorted', ?_⟩
  · simp only [cacheDestroySlab, hlist, hcursor, hunlink, hgood.allocatedSize]
    rfl
  · exact (cacheDestroySlab_steps client h.slabs hlist hsize s).2

end XenBus.ObjectCache
