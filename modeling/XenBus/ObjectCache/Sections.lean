import XenBus.ObjectCache.Order

/-!
# The sections under the cache lock

What `CacheCreateSlab`, `CacheGet`, `CachePut`, `CacheFill` and `CacheSpill` do with the lock held, in
terms of the constructed and the allocated objects of the cache (`Section`): they keep the order of the
slabs, construct and destroy objects of the slabs that they find or create, and only `CacheGet` and
`CachePut` change which objects are allocated.
-/

namespace XenBus.ObjectCache

open Construction

variable {n : ℕ} {σ : Type*} {client : Client σ} {s s' s'' : σ} {A : List ℕ}
  {cache cache' cache'' : Cache n} {alloc : SlabAlloc} {status : Status}

/-- The constructed objects. -/
def Cache.constructed (cache : Cache n) : Set ℕ :=
  objects Slab.Constructed cache.Size cache.SlabList

/-- The allocated objects. -/
def Cache.allocated (cache : Cache n) : Set ℕ := objects Slab.Allocated cache.Size cache.SlabList

/-- The sum of the allocated counts. -/
def Cache.total (cache : Cache n) : ℕ := allocatedTotal cache.SlabList

/-- The fields that the sections leave alone. -/
structure Kept (cache cache' : Cache n) : Prop where
  size : cache'.Size = cache.Size
  cap : cache'.Cap = cache.Cap
  magazine : cache'.Magazine = cache.Magazine
  currentObjects : cache'.CurrentObjects = cache.CurrentObjects

/-- The objects of slabs at the addresses `A`. -/
def within (A : List ℕ) : Set ℕ := {o | pageAlign o ∈ A}

/-- **A section**: what it keeps, and what it does to the constructed objects. -/
structure Section (client : Client σ) (A : List ℕ) (cache : Cache n) (s : σ) (cache' : Cache n)
    (s' : σ) : Prop where
  ordered : Ordered cache'
  kept : Kept cache cache'
  addresses : ∀ slab ∈ cache'.SlabList, slab.Address ∈ A
  steps : Steps client.life (within A) (cache.constructed, s) (cache'.constructed, s')

theorem Section.refl (h : Ordered cache) (hA : ∀ slab ∈ cache.SlabList, slab.Address ∈ A) (s : σ) :
    Section client A cache s cache s :=
  ⟨h, ⟨rfl, rfl, rfl, rfl⟩, hA, .refl _⟩

theorem Section.trans (h : Section client A cache s cache' s')
    (h' : Section client A cache' s' cache'' s'') : Section client A cache s cache'' s'' where
  ordered := h'.ordered
  kept := ⟨h'.kept.size.trans h.kept.size, h'.kept.cap.trans h.kept.cap,
    h'.kept.magazine.trans h.kept.magazine, h'.kept.currentObjects.trans h.kept.currentObjects⟩
  addresses := h'.addresses
  steps := h.steps.trans h'.steps

/-- The section leaves the allocated objects alone. -/
structure SameAllocated (cache cache' : Cache n) : Prop where
  allocated : cache'.allocated = cache.allocated
  total : cache'.total = cache.total

theorem SameAllocated.trans (h : SameAllocated cache cache') (h' : SameAllocated cache' cache'') :
    SameAllocated cache cache'' :=
  ⟨h'.allocated.trans h.allocated, h'.total.trans h.total⟩

/-! ## Creating slabs -/

theorem objects_newSlab {mask : Slab → Mask} {Size a : ℕ} {l₁ l₂ : List Slab}
    (hmask : (mask (newSlab Size a)).Bits = ∅) :
    objects mask Size (l₁ ++ newSlab Size a :: l₂) = objects mask Size (l₁ ++ l₂) := by
  rw [objects_append_cons, hmask]
  have : (newSlab Size a).objects Size ∅ = ∅ := by
    ext o
    simp [Slab.objects]
  rw [this, Set.empty_union]

/-- **`CacheCreateSlab` as a section.** -/
theorem Created.section (client : Client σ) (h : Created cache alloc status cache') (hord : Ordered cache)
    (hA : ∀ slab ∈ cache.SlabList, slab.Address ∈ A) (halloc : ∀ a ∈ alloc.Slab, a ∈ A) (s : σ) :
    Section client A cache s cache' s ∧ SameAllocated cache cache' ∧
      cache'.constructed = cache.constructed := by
  cases h with
  | failed => exact ⟨.refl hord hA s, ⟨rfl, rfl⟩, rfl⟩
  | @created a pre post hslab hsucceeds hcap hlist hordered =>
    have hcon : objects Slab.Constructed cache.Size (pre ++ newSlab cache.Size a :: post) =
        cache.constructed := by
      rw [objects_newSlab rfl, Cache.constructed, hlist]
    refine ⟨⟨⟨hordered.slabs, hordered.sorted, hordered.cursor⟩, ⟨rfl, rfl, rfl, rfl⟩, ?_, ?_⟩,
      ⟨?_, ?_⟩, hcon⟩
    · intro slab hmem
      obtain hmem | hmem := List.mem_append.mp hmem
      · exact hA slab (hlist ▸ List.mem_append_left _ hmem)
      · obtain rfl | hmem := List.mem_cons.mp hmem
        · exact halloc a hslab
        · exact hA slab (hlist ▸ List.mem_append_right _ hmem)
    · show Steps _ _ _ (objects Slab.Constructed cache.Size (pre ++ newSlab cache.Size a :: post), s)
      rw [hcon]
      exact .refl _
    · show objects Slab.Allocated cache.Size (pre ++ newSlab cache.Size a :: post) = _
      rw [objects_newSlab rfl, Cache.allocated, hlist]
    · show allocatedTotal (pre ++ newSlab cache.Size a :: post) = _
      rw [allocatedTotal_append_cons, Cache.total, hlist]
      exact Nat.zero_add _

/-- The slab that is created is not full, so the cursor is at a slab. -/
theorem Created.cursor (h : Created cache alloc .success cache') (hsize : SoundSize cache.Size) :
    ∃ a, cache'.Cursor = some a := by
  cases h with
  | failed h => exact absurd rfl h
  | @created a pre post hslab hsucceeds hcap hlist hordered =>
    show ∃ x, firstFree (pre ++ newSlab cache.Size a :: post) = some x
    cases hfree : firstFree (pre ++ newSlab cache.Size a :: post) with
    | some x => exact ⟨x, rfl⟩
    | none =>
      have hfull := firstFree_eq_none hfree (newSlab cache.Size a) (by simp)
      have hgood : (newSlab cache.Size a).Good (slabCount cache.Size) := good_new
      exact absurd (hgood.full_iff.mp hfull) hsize.1.ne

/-! ## Taking an object -/

/-- What `CacheGet` does to the allocated objects. -/
structure Got (cache : Cache n) (o : Option ℕ) (cache' : Cache n) : Prop where
  none : o = none → SameAllocated cache cache'
  some : ∀ x, o = some x → x ∉ cache.allocated ∧ cache'.allocated = insert x cache.allocated ∧
    cache'.total = cache.total + 1

theorem objects_insert (slab : Slab) (Size i : ℕ) (B : Finset ℕ) :
    slab.objects Size (insert i B) = insert (slab.object Size i) (slab.objects Size B) := by
  ext o
  simp [Slab.objects, eq_comm]

/-- What the constructor does to the constructed objects. -/
theorem Taken.steps_of_separate {slab slab' : Slab} {pre post : List Slab} {o : Option ℕ} {Size : ℕ}
    {D : Set ℕ} (h : Taken client Size (slabCount Size) slab s o slab' s')
    (hslabs : Slabs Size (pre ++ slab :: post)) (hsep : Separate Size (pre ++ slab :: post))
    (hin : ∀ i < slabCount Size, slab.object Size i ∈ D) : Steps client.life D
      (objects Slab.Constructed Size (pre ++ slab :: post), s)
      (objects Slab.Constructed Size (pre ++ slab' :: post), s') := by
  have hslab : slab ∈ pre ++ slab :: post := List.mem_append_right _ List.mem_cons_self
  have hgood := hslabs.good slab hslab
  -- the next object is not constructed
  have hnext : slab.Constructed.Count < slabCount Size →
      slab.object Size slab.Constructed.Count ∉
        objects Slab.Constructed Size (pre ++ slab :: post) := fun hlt => by
    rw [objects_append_cons]
    rintro (⟨j, hj, heq⟩ | hmem)
    · rw [(hsep slab hslab slab hslab j (hgood.lt_of_mem hj) _ hlt heq).2, hgood.contiguous] at hj
      exact absurd hj Finset.notMem_range_self
    · exact hslabs.notMem_of_separate hsep hlt Slab.Constructed (fun _ _ => subset_rfl) hmem
  cases h with
  | reuse hc ha =>
    rw [objects_append_cons, objects_append_cons]
    exact .refl _
  | construct hlt hmake =>
    have heq : objects Slab.Constructed Size (pre ++
        { slab with
          Allocated := cacheMaskSet slab.Allocated slab.Constructed.Count
          Constructed := cacheMaskSet slab.Constructed slab.Constructed.Count } :: post) =
        insert (slab.object Size slab.Constructed.Count)
          (objects Slab.Constructed Size (pre ++ slab :: post)) := by
      rw [objects_append_cons, objects_append_cons, ← Set.insert_union, ← objects_insert]
      rfl
    rw [heq]
    exact .single (.make (hin _ hlt) (hnext hlt) hmake)
  | refuse hlt hrefuse => exact .single (.refuse (hin _ hlt) (hnext hlt) hrefuse)

theorem Taken.steps {slab slab' : Slab} {pre post : List Slab} {o : Option ℕ} {Size : ℕ}
    (h : Taken client Size (slabCount Size) slab s o slab' s')
    (hslabs : Slabs Size (pre ++ slab :: post)) (hsize : SoundSize Size)
    (hA : slab.Address ∈ A) : Steps client.life (within A)
      (objects Slab.Constructed Size (pre ++ slab :: post), s)
      (objects Slab.Constructed Size (pre ++ slab' :: post), s') := by
  refine h.steps_of_separate hslabs (hslabs.separate hsize) fun i hi => ?_
  show pageAlign _ ∈ A
  rwa [hsize.pageAlign_object (hslabs.aligned slab (List.mem_append_right _ List.mem_cons_self)) hi]

/-- What taking an object does to the allocated ones. -/
theorem Taken.allocated {slab slab' : Slab} {pre post : List Slab} {x Size : ℕ}
    (h : Taken client Size (slabCount Size) slab s (some x) slab' s')
    (hslabs : Slabs Size (pre ++ slab :: post)) (hsep : Separate Size (pre ++ slab :: post)) :
    x ∉ objects Slab.Allocated Size (pre ++ slab :: post) ∧
      objects Slab.Allocated Size (pre ++ slab' :: post) =
        insert x (objects Slab.Allocated Size (pre ++ slab :: post)) := by
  have hslab : slab ∈ pre ++ slab :: post := List.mem_append_right _ List.mem_cons_self
  have hgood := hslabs.good slab hslab
  have hsubset : ∀ y ∈ pre ++ slab :: post, y.Allocated.Bits ⊆ y.Constructed.Bits :=
    fun y hy => (hslabs.good y hy).subset
  -- the object at a free index
  have hout : ∀ i, i ∉ slab.Allocated.Bits → i < slabCount Size →
      slab.object Size i ∉ objects Slab.Allocated Size (pre ++ slab :: post) := fun i hi hlt => by
    rw [objects_append_cons]
    rintro (⟨j, hj, heq⟩ | hmem)
    · have hjn := hgood.lt_of_mem (hgood.subset hj)
      exact hi ((hsep slab hslab slab hslab j hjn i hlt heq).2 ▸ hj)
    · exact hslabs.notMem_of_separate hsep hlt Slab.Allocated hsubset hmem
  cases h with
  | @reuse i hc ha =>
    refine ⟨hout i ha (hgood.lt_of_mem hc), ?_⟩
    rw [objects_append_cons, objects_append_cons, ← Set.insert_union, ← objects_insert]
    rfl
  | construct hlt hmake =>
    have ha : slab.Constructed.Count ∉ slab.Allocated.Bits := fun hmem => by
      have := hgood.subset hmem
      rw [hgood.contiguous] at this
      exact Finset.notMem_range_self this
    refine ⟨hout _ ha hlt, ?_⟩
    rw [objects_append_cons, objects_append_cons, ← Set.insert_union, ← objects_insert]
    rfl

/-- **`CacheGet` at the cursor as a section.** -/
theorem getFromCursor_section (client : Client σ) (h : Ordered cache) (hsize : SoundSize cache.Size)
    (hA : ∀ slab ∈ cache.SlabList, slab.Address ∈ A) {a : ℕ} (hcur : cache.Cursor = some a) (s : σ) :
    ∃ o cache' s', getFromCursor client cache a s = (o, cache', s') ∧
      Section client A cache s cache' s' ∧ Got cache o cache' := by
  obtain ⟨pre, slab, post, o, slab', s', hlist, htaken, hget, hordered⟩ :=
    getFromCursor_spec client h hcur s
  have hslabs := h.slabs
  rw [hlist] at hslabs
  have hslab : slab ∈ pre ++ slab :: post := List.mem_append_right _ List.mem_cons_self
  have hgood := hslabs.good slab hslab
  obtain ⟨-, hcount⟩ := htaken.good hgood (slabCount_lt _)
  have hsteps := htaken.steps hslabs hsize (hA slab (hlist ▸ hslab))
  refine ⟨o, _, s', hget, ⟨hordered, ⟨rfl, rfl, rfl, rfl⟩, ?_, ?_⟩, ?_, ?_⟩
  · intro x hx
    obtain hx | hx := List.mem_append.mp hx
    · exact hA x (hlist ▸ List.mem_append_left _ hx)
    · obtain rfl | hx := List.mem_cons.mp hx
      · rw [htaken.address]
        exact hA slab (hlist ▸ hslab)
      · exact hA x (hlist ▸ List.mem_append_right _ (List.mem_cons_of_mem _ hx))
  · rw [Cache.constructed, hlist]
    exact hsteps
  · rintro rfl
    cases htaken
    constructor
    · rw [Cache.allocated, Cache.allocated, hlist]
      rfl
    · rw [Cache.total, Cache.total, hlist]
      rfl
  · rintro x rfl
    obtain ⟨hout, hall⟩ := htaken.allocated hslabs (hslabs.separate hsize)
    refine ⟨?_, ?_, ?_⟩
    · rw [Cache.allocated, hlist]
      exact hout
    · rw [Cache.allocated, Cache.allocated, hlist]
      exact hall
    · rw [Cache.total, Cache.total, hlist]
      show allocatedTotal (pre ++ slab' :: post) = _
      rw [allocatedTotal_append_cons, allocatedTotal_append_cons, hcount, Option.isSome_some,
        if_pos rfl]
      omega

theorem Got.of_same {o : Option ℕ} (h : SameAllocated cache cache') (h' : Got cache' o cache'') :
    Got cache o cache'' where
  none ho := h.trans (h'.none ho)
  some x ho := by
    obtain ⟨hout, hall, htotal⟩ := h'.some x ho
    rw [← h.allocated, ← h.total]
    exact ⟨hout, hall, htotal⟩

/-- **`CacheGet` as a section**, with the slab that it creates when all are full. -/
theorem cacheGetLocked_section (client : Client σ) (h : Ordered cache) (hsize : SoundSize cache.Size)
    (hA : ∀ slab ∈ cache.SlabList, slab.Address ∈ A) (halloc : ∀ a ∈ alloc.Slab, a ∈ A)
    (hfresh : cache.Cursor = none → FreshAlloc alloc (cache.SlabList.map Slab.Address)) (s : σ) :
    ∃ o cache' s', cacheGetLocked client cache alloc s = (o, cache', s') ∧
      Section client A cache s cache' s' ∧ Got cache o cache' := by
  unfold cacheGetLocked
  cases hcur : cache.Cursor with
  | some a => exact getFromCursor_section client h hsize hA hcur s
  | none =>
    obtain ⟨status, cache', hcreate, hcreated⟩ := cacheCreateSlab_spec h hsize alloc (hfresh hcur)
    obtain ⟨hsec, hsame, -⟩ := hcreated.section client h hA halloc s
    by_cases hst : status = .success
    · subst hst
      obtain ⟨a, ha⟩ := hcreated.cursor hsize
      obtain ⟨o, cache'', s', hget, hsec', hgot⟩ := getFromCursor_section client hsec.ordered
        (hsec.kept.size ▸ hsize) hsec.addresses ha s
      refine ⟨o, cache'', s', ?_, hsec.trans hsec', .of_same hsame hgot⟩
      simp only [hcreate, ha, hget]
    · refine ⟨none, cache', s, ?_, hsec, ⟨fun _ => hsame, nofun⟩⟩
      rw [hcreate]
      cases status <;> first | exact absurd rfl hst | rfl

/-! ## Giving an object back -/

/-- **`CachePut` of an allocated object as a section.** -/
theorem cachePutLocked_section (client : Client σ) (h : Ordered cache) (hsize : SoundSize cache.Size)
    (hA : ∀ slab ∈ cache.SlabList, slab.Address ∈ A) {o : ℕ} (ho : o ∈ cache.allocated) (s : σ) :
    ∃ cache', cachePutLocked cache o = some cache' ∧ Section client A cache s cache' s ∧
      cache'.allocated = cache.allocated \ {o} ∧ cache'.total + 1 = cache.total ∧
      pageAlign o ∈ cache'.SlabList.map Slab.Address := by
  obtain ⟨pre, slab, post, pre', post', i, hlist, hlist', hi, rfl, hput, hordered⟩ :=
    cachePutLocked_spec h hsize ho
  have hslabs := h.slabs
  rw [hlist] at hslabs
  have hslab : slab ∈ pre ++ slab :: post := List.mem_append_right _ List.mem_cons_self
  have hgood := hslabs.good slab hslab
  have hmem : ∀ x ∈ pre' ++ post', x ∈ pre ++ slab :: post := fun x hx => by
    rw [← hlist'] at hx
    obtain hx | hx := List.mem_append.mp hx
    · exact List.mem_append_left _ hx
    · exact List.mem_append_right _ (List.mem_cons_of_mem _ hx)
  refine ⟨_, hput, ⟨hordered, ⟨rfl, rfl, rfl, rfl⟩, ?_, ?_⟩, ?_, ?_, ?_⟩
  · intro x hx
    obtain hx | hx := List.mem_append.mp hx
    · exact hA x (hlist ▸ hmem x (List.mem_append_left _ hx))
    · obtain rfl | hx := List.mem_cons.mp hx
      · exact hA slab (hlist ▸ hslab)
      · exact hA x (hlist ▸ hmem x (List.mem_append_right _ hx))
  · have heq : objects Slab.Constructed cache.Size (pre' ++
        { slab with Allocated := cacheMaskClear slab.Allocated i } :: post') =
        cache.constructed := by
      rw [Cache.constructed, hlist, objects_append_cons, objects_append_cons, hlist']
      rfl
    show Steps _ _ _ (objects Slab.Constructed cache.Size (pre' ++
      { slab with Allocated := cacheMaskClear slab.Allocated i } :: post'), s)
    rw [heq]
    exact .refl _
  · show objects Slab.Allocated cache.Size (pre' ++
      { slab with Allocated := cacheMaskClear slab.Allocated i } :: post') = _
    rw [Cache.allocated, hlist]
    exact hslabs.objects_release hsize hi hlist'
  · obtain ⟨-, hcount⟩ := hgood.release hi
    show allocatedTotal (pre' ++ { slab with Allocated := cacheMaskClear slab.Allocated i } :: post') +
      1 = _
    rw [Cache.total, hlist, allocatedTotal_append_cons, allocatedTotal_append_cons, hlist', ← hcount]
    show (cacheMaskClear slab.Allocated i).Count + _ + 1 = _
    omega
  · rw [hsize.pageAlign_object (hslabs.aligned slab hslab) (hgood.lt_of_mem (hgood.subset hi))]
    exact List.mem_map.mpr ⟨_, List.mem_append_right _ List.mem_cons_self, rfl⟩

/-! ## Filling and spilling -/

/-- Each slab creation of `CacheFill` meets `P`. -/
def FillAll (P : Cache n → SlabAlloc → Prop) (Count : ℕ) : List SlabAlloc → Cache n → Prop
  | [], _ => True
  | alloc :: allocs, cache =>
    cache.Count < Count → P cache alloc ∧
      ((cacheCreateSlab cache alloc).1 = .success →
        FillAll P Count allocs (cacheCreateSlab cache alloc).2)

/-- The allocation for a new slab of the cache returns a page that is not in use. -/
def Cache.Fresh (cache : Cache n) (alloc : SlabAlloc) : Prop :=
  FreshAlloc alloc (cache.SlabList.map Slab.Address)

/-- **`CacheFill` as a section.** -/
theorem cacheFill_section (client : Client σ) {Count : ℕ} {allocs : List SlabAlloc}
    (h : Ordered cache) (hsize : SoundSize cache.Size)
    (hA : ∀ slab ∈ cache.SlabList, slab.Address ∈ A)
    (hallocs : ∀ alloc ∈ allocs, ∀ a ∈ alloc.Slab, a ∈ A)
    (hfresh : FillAll Cache.Fresh Count allocs cache) (s : σ) :
    ∃ status cache', cacheFill Count allocs cache = (status, cache') ∧
      Section client A cache s cache' s ∧ SameAllocated cache cache' ∧
      cache'.constructed = cache.constructed := by
  induction allocs generalizing cache with
  | nil =>
    unfold cacheFill
    split_ifs
    · obtain ⟨status, cache', hcreate, hcreated⟩ :=
        cacheCreateSlab_spec h hsize ⟨none, false, false⟩ nofun
      exact ⟨status, cache', hcreate, hcreated.section client h hA nofun s⟩
    · exact ⟨.success, cache, rfl, .refl h hA s, ⟨rfl, rfl⟩, rfl⟩
  | cons alloc allocs ih =>
    unfold cacheFill
    split_ifs with hlt
    · obtain ⟨hfresh', hrest⟩ := hfresh hlt
      obtain ⟨status, cache', hcreate, hcreated⟩ := cacheCreateSlab_spec h hsize alloc hfresh'
      obtain ⟨hsec, hsame, hcon⟩ := hcreated.section client h hA
        (hallocs alloc List.mem_cons_self) s
      rw [hcreate] at hrest ⊢
      by_cases hst : status = .success
      · subst hst
        obtain ⟨status, cache'', hfill, hsec', hsame', hcon'⟩ := ih hsec.ordered (hsec.kept.size ▸ hsize)
          hsec.addresses (fun x hx => hallocs x (List.mem_cons_of_mem _ hx)) (hrest rfl)
        exact ⟨status, cache'', hfill, hsec.trans hsec', hsame.trans hsame', hcon'.trans hcon⟩
      · refine ⟨status, cache', ?_, hsec, hsame, hcon⟩
        cases status <;> first | exact absurd rfl hst | rfl
    · exact ⟨.success, cache, rfl, .refl h hA s, ⟨rfl, rfl⟩, rfl⟩

/-- **`CacheDestroySlab` of an empty slab at the end as a section.** -/
theorem cacheDestroySlab_section (client : Client σ) {slab : Slab} {pre : List Slab}
    (h : Ordered cache) (hlist : cache.SlabList = pre ++ [slab]) (hsize : SoundSize cache.Size)
    (hA : ∀ slab ∈ cache.SlabList, slab.Address ∈ A) (hempty : slab.Allocated.Count = 0) (s : σ) :
    ∃ cache' s', cacheDestroySlab client cache slab s = (cache', s') ∧ cache'.SlabList = pre ∧
      Section client A cache s cache' s' ∧ SameAllocated cache cache' := by
  obtain ⟨s', hdestroy, hordered, hsteps⟩ := cacheDestroySlab_spec client h hlist hsize hempty s
  have hslab : slab ∈ cache.SlabList := by simp [hlist]
  have hgood := h.slabs.good slab hslab
  have hwithin : slab.objects cache.Size slab.Constructed.Bits ⊆ within A := by
    rintro o ⟨i, hi, rfl⟩
    show pageAlign _ ∈ A
    rw [hsize.pageAlign_object (h.slabs.aligned slab hslab) (hgood.lt_of_mem hi)]
    exact hA slab hslab
  have hbits : slab.Allocated.Bits = ∅ := by
    rw [← Finset.card_eq_zero, ← hgood.allocatedCount, hempty]
  refine ⟨_, s', hdestroy, rfl, ⟨⟨hordered.slabs, hordered.sorted, hordered.cursor⟩,
    ⟨rfl, rfl, rfl, rfl⟩, ?_, hsteps.mono hwithin⟩, ?_, ?_⟩
  · exact fun x hx => hA x (hlist ▸ List.mem_append_left _ hx)
  · rw [Cache.allocated, Cache.allocated, hlist, objects_append_cons, hbits, List.append_nil]
    have : slab.objects cache.Size ∅ = ∅ := by
      ext o
      simp [Slab.objects]
    rw [this, Set.empty_union]
    rfl
  · rw [Cache.total, Cache.total, hlist, allocatedTotal_append_cons, hempty, List.append_nil,
      Nat.zero_add]
    rfl

/-- The loop of `CacheSpill`. -/
theorem spillLoop_section (client : Client σ) (Count fuel : ℕ) (h : Ordered cache)
    (hsize : SoundSize cache.Size) (hA : ∀ slab ∈ cache.SlabList, slab.Address ∈ A) (s : σ) :
    ∃ cache' s', spillLoop client Count fuel cache s = (cache', s') ∧
      Section client A cache s cache' s' ∧ SameAllocated cache cache' := by
  induction fuel generalizing cache s with
  | zero => exact ⟨cache, s, rfl, .refl h hA s, ⟨rfl, rfl⟩⟩
  | succ fuel ih =>
    unfold spillLoop
    obtain hnil | ⟨pre, slab, hlist⟩ := List.eq_nil_or_concat cache.SlabList
    · rw [hnil]
      exact ⟨cache, s, rfl, .refl h hA s, ⟨rfl, rfl⟩⟩
    · have hlast : cache.SlabList.getLast? = some slab := by simp [hlist]
      simp only [hlast]
      split_ifs with hempty hcount
      · exact ⟨cache, s, rfl, .refl h hA s, ⟨rfl, rfl⟩⟩
      · exact ⟨cache, s, rfl, .refl h hA s, ⟨rfl, rfl⟩⟩
      · obtain ⟨cache', s', hdestroy, -, hsec, hsame⟩ := cacheDestroySlab_section client h
          (by simpa using hlist) hsize hA (by simpa using hempty) s
        obtain ⟨cache'', s'', hspill, hsec', hsame'⟩ :=
          ih hsec.ordered (hsec.kept.size ▸ hsize) hsec.addresses s'
        exact ⟨cache'', s'', by rw [hdestroy, hspill], hsec.trans hsec', hsame.trans hsame'⟩

/-- **`CacheSpill` as a section.** -/
theorem cacheSpill_section (client : Client σ) (Count : ℕ) (h : Ordered cache)
    (hsize : SoundSize cache.Size) (hA : ∀ slab ∈ cache.SlabList, slab.Address ∈ A) (s : σ) :
    ∃ cache' s', cacheSpill client Count cache s = (cache', s') ∧
      Section client A cache s cache' s' ∧ SameAllocated cache cache' := by
  unfold cacheSpill
  split_ifs
  · exact ⟨cache, s, rfl, .refl h hA s, ⟨rfl, rfl⟩⟩
  · exact spillLoop_section client Count _ h hsize hA s

end XenBus.ObjectCache
