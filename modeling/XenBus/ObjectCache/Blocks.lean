import XenBus.ObjectCache.Calls

/-!
# Caches with objects of any size

With some sizes an object of a slab begins on the slab's second page (`SoundSize` fails), and `CachePut`
and `__CacheFlushMagazines`, which take `PAGE_ALIGN` of the object for its slab, follow a pointer to
something that is not a slab. Until this happens the cache treats its objects as it does with other sizes,
provided that the blocks of pages that the memory manager returns do not overlap (`Blocks`): this module
says what each section does to the constructed and to the allocated objects (`Moved`), without a
condition on the size.
-/

namespace XenBus.ObjectCache

open MachineInt Construction Transition

variable {n : ℕ} {σ : Type*} {client : Client σ} {Size : ℕ} {c c' c'' : σ} {alloc : SlabAlloc}
  {cache cache' cache'' : Cache n} {l l' pre post : List Slab} {slab New : Slab} {o i : ℕ}

/-! ## Blocks of pages -/

/-- The slabs at the two addresses do not overlap. -/
def Apart (Size a b : ℕ) : Prop := a + slabBytes Size ≤ b ∨ b + slabBytes Size ≤ a

instance (Size a b : ℕ) : Decidable (Apart Size a b) := inferInstanceAs (Decidable (_ ∨ _))

/-- The slabs are in blocks that do not overlap. -/
structure Blocks (Size : ℕ) (l : List Slab) : Prop extends Slabs Size l where
  bytes : ∀ slab ∈ l, 0 < slabBytes Size
  apart : ∀ x ∈ l, ∀ y ∈ l, x.Address ≠ y.Address → Apart Size x.Address y.Address

/-- The block that the memory manager returns for a new slab is not in use. -/
def Cache.FreshBlock (cache : Cache n) (alloc : SlabAlloc) : Prop :=
  ∀ Address ∈ alloc.Slab, Address % 4096 = 0 ∧
    ∀ slab ∈ cache.SlabList, Apart cache.Size slab.Address Address

instance (cache : Cache n) (alloc : SlabAlloc) : Decidable (cache.FreshBlock alloc) :=
  inferInstanceAs (Decidable (∀ Address ∈ alloc.Slab, _ ∧ ∀ slab ∈ cache.SlabList, _))

/-- A slab consists of whole pages. -/
theorem le_slabBytes (h : 0 < slabBytes Size) : 4096 ≤ slabBytes Size := by
  unfold slabBytes p2RoundUp at h ⊢
  omega

/-- An object is in the block of its slab. -/
theorem object_mem_block (hbytes : 0 < slabBytes Size) (hi : i < slabCount Size) (slab : Slab) :
    slab.Address ≤ slab.object Size i ∧ slab.object Size i < slab.Address + slabBytes Size := by
  have hle := le_slabBytes hbytes
  have hsub : ulongSub (slabBytes Size) bufferOffset = slabBytes Size - 48 :=
    ulongSub_of_le (by unfold bufferOffset; omega)
  have hpos : 0 < Size := by
    apply Nat.pos_of_ne_zero
    rintro rfl
    simp [slabCount] at hi
  have hmul : (i + 1) * Size ≤ slabBytes Size - 48 := by
    rw [← hsub]
    exact (Nat.mul_le_mul_right Size hi).trans (Nat.div_mul_le_self _ _)
  rw [Nat.add_mul, Nat.one_mul] at hmul
  unfold Slab.object bufferOffset
  omega

theorem size_pos_of_lt (hi : i < slabCount Size) : 0 < Size := by
  apply Nat.pos_of_ne_zero
  rintro rfl
  simp [slabCount] at hi

namespace Blocks

theorem separate (h : Blocks Size l) : Separate Size l := by
  intro x hx y hy i hi j hj heq
  have haddr : x.Address = y.Address := by
    by_contra hne
    have := object_mem_block (h.bytes x hx) hi x
    have := object_mem_block (h.bytes x hx) hj y
    rcases h.apart x hx y hy hne with hle | hle <;> omega
  refine ⟨haddr, ?_⟩
  obtain rfl := List.inj_on_of_nodup_map h.nodup hx hy haddr
  exact x.object_injective (size_pos_of_lt hi) heq

/-- Where `PAGE_ALIGN` of an object is the address of a slab, it is that of the object's own slab. -/
theorem eq_of_pageAlign (h : Blocks Size l) {x y : Slab} (hx : x ∈ l) (hy : y ∈ l)
    (hi : i < slabCount Size) (hpage : pageAlign (x.object Size i) = y.Address) : y = x := by
  refine List.inj_on_of_nodup_map h.nodup hy hx ?_
  by_contra hne
  have hin := object_mem_block (h.bytes x hx) hi x
  have halign := h.aligned x hx
  have := le_slabBytes (h.bytes x hx)
  unfold pageAlign at hpage
  rcases h.apart y hy x hx hne with hle | hle <;> omega

/-- The same blocks, with other masks or in another order. -/
theorem change (h : Blocks Size l) (h' : Slabs Size l')
    (hsub : ∀ x ∈ l', ∃ y ∈ l, y.Address = x.Address) : Blocks Size l' where
  toSlabs := h'
  bytes x hx := by
    obtain ⟨y, hy, -⟩ := hsub x hx
    exact h.bytes y hy
  apart x hx y hy hne := by
    obtain ⟨x', hx', hxaddr⟩ := hsub x hx
    obtain ⟨y', hy', hyaddr⟩ := hsub y hy
    rw [← hxaddr, ← hyaddr] at hne ⊢
    exact h.apart x' hx' y' hy' hne

theorem sublist (h : Blocks Size l) (hl : l'.Sublist l) : Blocks Size l' :=
  h.change (h.toSlabs.sublist hl) fun x hx => ⟨x, hl.subset hx, rfl⟩

theorem perm (h : Blocks Size l) (hl : l'.Perm l) : Blocks Size l' :=
  h.change (h.toSlabs.perm hl) fun x hx => ⟨x, hl.subset hx, rfl⟩

theorem replace {slab' : Slab} (h : Blocks Size (pre ++ slab :: post))
    (hgood : slab'.Good (slabCount Size)) (haddr : slab'.Address = slab.Address) :
    Blocks Size (pre ++ slab' :: post) := by
  refine h.change (h.toSlabs.replace hgood haddr) fun x hx => ?_
  rcases List.mem_append.mp hx with hx | hx
  · exact ⟨x, List.mem_append_left _ hx, rfl⟩
  · rcases List.mem_cons.mp hx with rfl | hx
    · exact ⟨slab, List.mem_append_right _ List.mem_cons_self, haddr.symm⟩
    · exact ⟨x, List.mem_append_right _ (List.mem_cons_of_mem _ hx), rfl⟩

theorem cons (h : Blocks Size l) (hgood : New.Good (slabCount Size)) (ha : New.Address % 4096 = 0)
    (hbytes : 0 < slabBytes Size) (hnew : ∀ slab ∈ l, Apart Size slab.Address New.Address) :
    Blocks Size (New :: l) where
  toSlabs := by
    refine h.toSlabs.cons hgood ha fun hmem => ?_
    obtain ⟨slab, hslab, heq⟩ := List.mem_map.mp hmem
    have := hnew slab hslab
    unfold Apart at this
    omega
  bytes _ _ := hbytes
  apart x hx y hy hne := by
    rcases List.mem_cons.mp hx with heq | hx' <;> rcases List.mem_cons.mp hy with heq' | hy'
    · exact absurd (heq.trans heq'.symm ▸ rfl) hne
    · exact heq ▸ (hnew y hy').symm
    · exact heq' ▸ hnew x hx'
    · exact h.apart x hx' y hy' hne

end Blocks

/-! ## Sections -/

/-- **What a section does to the constructed objects.** -/
structure Moved (client : Client σ) (cache : Cache n) (c : σ) (cache' : Cache n) (c' : σ) : Prop where
  blocks : Blocks cache'.Size cache'.SlabList
  kept : Kept cache cache'
  steps : Steps client.life Set.univ (cache.constructed, c) (cache'.constructed, c')

theorem Moved.refl (h : Blocks cache.Size cache.SlabList) (c : σ) : Moved client cache c cache c :=
  ⟨h, ⟨rfl, rfl, rfl, rfl⟩, .refl _⟩

theorem Moved.trans (h : Moved client cache c cache' c') (h' : Moved client cache' c' cache'' c'') :
    Moved client cache c cache'' c'' where
  blocks := h'.blocks
  kept := ⟨h'.kept.size.trans h.kept.size, h'.kept.cap.trans h.kept.cap,
    h'.kept.magazine.trans h.kept.magazine, h'.kept.currentObjects.trans h.kept.currentObjects⟩
  steps := h.steps.trans h'.steps

/-- `CacheInsertSlab` puts the slab somewhere into the list. -/
theorem insertWalk_split (New : Slab) (Cursor : Option ℕ) (l : List Slab) :
    ∃ pre post, l = pre ++ post ∧ (insertWalk New Cursor l).1 = pre ++ New :: post := by
  induction l generalizing Cursor with
  | nil => exact ⟨[], [], rfl, rfl⟩
  | cons slab l ih =>
    unfold insertWalk
    split
    next => exact ⟨[], slab :: l, rfl, rfl⟩
    next =>
      dsimp only
      obtain ⟨pre, post, hl, hwalk⟩ := ih (if slab.Allocated.Count < slab.Allocated.Size ∧ Cursor = none
        then some slab.Address else Cursor)
      exact ⟨slab :: pre, post, by rw [hl, List.cons_append], by rw [hwalk, List.cons_append]⟩

/-- **`CacheCreateSlab`.** -/
theorem cacheCreateSlab_moved (client : Client σ) (h : Blocks cache.Size cache.SlabList)
    (hfresh : cache.FreshBlock alloc) (c : σ) :
    Moved client cache c (cacheCreateSlab cache alloc).2 c ∧
      SameAllocated cache (cacheCreateSlab cache alloc).2 ∧
      (cacheCreateSlab cache alloc).2.constructed = cache.constructed := by
  have hsame : Moved client cache c cache c ∧ SameAllocated cache cache ∧
      cache.constructed = cache.constructed := ⟨.refl h c, ⟨rfl, rfl⟩, rfl⟩
  unfold cacheCreateSlab cacheMaskCreate
  by_cases hcap : (cache.Count + slabCount cache.Size) % 4294967296 > cache.Cap
  · simpa only [if_pos hcap] using hsame
  · simp only [if_neg hcap]
    cases halloc : (if slabBytes cache.Size = 0 then none else alloc.Slab) with
    | none => exact hsame
    | some Address =>
      split_ifs at halloc with hbytes
      cases alloc.Constructed with
      | false => exact hsame
      | true =>
        cases alloc.Allocated with
        | false => exact hsame
        | true =>
          obtain ⟨halign, hnew⟩ := hfresh Address halloc
          have hcons : Blocks cache.Size (newSlab cache.Size Address :: cache.SlabList) :=
            h.cons good_new halign (Nat.pos_of_ne_zero hbytes) hnew
          obtain ⟨pre, post, hlist, hwalk⟩ :=
            insertWalk_split (newSlab cache.Size Address) none cache.SlabList
          have hinsert : (cacheInsertSlab cache (newSlab cache.Size Address)).SlabList =
              pre ++ newSlab cache.Size Address :: post := hwalk
          have hcon : objects Slab.Constructed cache.Size
              (cacheInsertSlab cache (newSlab cache.Size Address)).SlabList = cache.constructed := by
            rw [hinsert, objects_newSlab rfl, Cache.constructed, hlist]
          refine ⟨⟨?_, ⟨rfl, rfl, rfl, rfl⟩, ?_⟩, ⟨?_, ?_⟩, hcon⟩
          · show Blocks cache.Size (cacheInsertSlab cache (newSlab cache.Size Address)).SlabList
            rw [hinsert]
            rw [hlist] at hcons
            exact hcons.perm List.perm_middle
          · show Steps client.life Set.univ (cache.constructed, c) (objects Slab.Constructed cache.Size
              (cacheInsertSlab cache (newSlab cache.Size Address)).SlabList, c)
            rw [hcon]
            exact .refl _
          · show objects Slab.Allocated cache.Size
              (cacheInsertSlab cache (newSlab cache.Size Address)).SlabList = _
            rw [hinsert, objects_newSlab rfl, Cache.allocated, hlist]
          · show allocatedTotal (cacheInsertSlab cache (newSlab cache.Size Address)).SlabList = _
            rw [hinsert, allocatedTotal_append_cons, Cache.total, hlist]
            exact Nat.zero_add _

/-- **`CacheGet` at the cursor.** -/
theorem getFromCursor_moved (client : Client σ) (h : Blocks cache.Size cache.SlabList) (a : ℕ) (c : σ) :
    ∃ o cache' c', getFromCursor client cache a c = (o, cache', c') ∧ Moved client cache c cache' c' ∧
      Got cache o cache' := by
  have hsame : ∀ Cursor, Moved client cache c { cache with Cursor := Cursor } c :=
    fun Cursor => ⟨h, ⟨rfl, rfl, rfl, rfl⟩, .refl _⟩
  unfold getFromCursor
  cases hlookup : KeyedList.lookup Slab.Address cache.SlabList a with
  | none => exact ⟨none, cache, c, rfl, .refl h c, fun _ => ⟨rfl, rfl⟩, nofun⟩
  | some slab =>
    obtain ⟨hslab, -⟩ := KeyedList.mem_of_lookup hlookup
    obtain ⟨pre, post, hlist⟩ := List.append_of_mem hslab
    have hblocks := h
    rw [hlist] at hblocks
    have hgood := h.good slab hslab
    dsimp only
    cases hfull : slab.full with
    | true =>
      -- nothing is taken from a slab that is full
      have hget : cacheGetObjectFromSlab client cache.Size slab c = (none, slab, c) := if_pos hfull
      have hreplace : KeyedList.replace Slab.Address cache.SlabList slab = cache.SlabList := by
        rw [hlist]
        exact KeyedList.replace_append hblocks.nodup rfl
      simp only [hget, hreplace]
      exact ⟨_, _, _, rfl, hsame _, fun _ => ⟨rfl, rfl⟩, nofun⟩
    | false =>
      obtain ⟨o, slab', c', hget, htaken⟩ := cacheGetObjectFromSlab_spec client cache.Size hgood hfull c
      obtain ⟨hgood', hcount⟩ := htaken.good hgood (slabCount_lt _)
      have hreplace : KeyedList.replace Slab.Address cache.SlabList slab' = pre ++ slab' :: post := by
        rw [hlist]
        exact KeyedList.replace_append hblocks.nodup htaken.address
      have hsteps := htaken.steps_of_separate (D := Set.univ) hblocks.toSlabs hblocks.separate
        fun _ _ => Set.mem_univ _
      simp only [hget, hreplace]
      refine ⟨_, _, _, rfl, ⟨hblocks.replace hgood' htaken.address, ⟨rfl, rfl, rfl, rfl⟩, ?_⟩, ?_, ?_⟩
      · rw [Cache.constructed, hlist]
        exact hsteps
      · rintro rfl
        cases htaken
        constructor
        · rw [Cache.allocated, Cache.allocated, hlist]
        · rw [Cache.total, Cache.total, hlist]
      · rintro x rfl
        obtain ⟨hout, hall⟩ := htaken.allocated hblocks.toSlabs hblocks.separate
        refine ⟨?_, ?_, ?_⟩
        · rw [Cache.allocated, hlist]
          exact hout
        · rw [Cache.allocated, Cache.allocated, hlist]
          exact hall
        · rw [Cache.total, Cache.total, hlist]
          show allocatedTotal (pre ++ slab' :: post) = _
          rw [allocatedTotal_append_cons, allocatedTotal_append_cons, hcount, Option.isSome_some,
            if_pos rfl]
          omega

/-- **`CacheGet` with the lock held.** -/
theorem cacheGetLocked_moved (client : Client σ) (h : Blocks cache.Size cache.SlabList)
    (hfresh : cache.Cursor = none → cache.FreshBlock alloc) (c : σ) :
    ∃ o cache' c', cacheGetLocked client cache alloc c = (o, cache', c') ∧
      Moved client cache c cache' c' ∧ Got cache o cache' := by
  unfold cacheGetLocked
  cases hcur : cache.Cursor with
  | some a => exact getFromCursor_moved client h a c
  | none =>
    obtain ⟨hmoved, hsame, -⟩ := cacheCreateSlab_moved client h (hfresh hcur) c
    generalize cacheCreateSlab cache alloc = created at hmoved hsame ⊢
    obtain ⟨status, cache₁⟩ := created
    have hnone : ∃ o cache' c', ((none, cache₁, c) : Option ℕ × Cache n × σ) = (o, cache', c') ∧
        Moved client cache c cache' c' ∧ Got cache o cache' :=
      ⟨none, cache₁, c, rfl, hmoved, fun _ => hsame, nofun⟩
    cases status with
    | success =>
      dsimp only
      cases cache₁.Cursor with
      | none => exact hnone
      | some a =>
        obtain ⟨o, cache', c', hget, hmoved', hgot⟩ := getFromCursor_moved client hmoved.blocks a c
        exact ⟨o, cache', c', hget, hmoved.trans hmoved', .of_same hsame hgot⟩
    | _ => exact hnone

/-- The slab of an allocated object, with its bit cleared. -/
theorem cachePutObjectToSlab_of_page (h : Blocks Size l) (ho : o ∈ objects Slab.Allocated Size l)
    (hslab : slab ∈ l) (hpage : slab.Address = pageAlign o) :
    ∃ i ∈ slab.Allocated.Bits, slab.object Size i = o ∧ cachePutObjectToSlab Size slab o =
      some { slab with Allocated := cacheMaskClear slab.Allocated i } := by
  obtain ⟨x, hx, i, hi, rfl⟩ := ho
  have hgood := h.good x hx
  have hin := hgood.lt_of_mem (hgood.subset hi)
  obtain rfl := h.eq_of_pageAlign hx hslab hin hpage.symm
  exact ⟨i, hi, rfl, cachePutObjectToSlab_of_pos hgood (size_pos_of_lt hin) hi⟩

/-- **`CachePut` with the lock held**: where `PAGE_ALIGN` of the object is not a slab there is no result. -/
theorem cachePutLocked_moved (client : Client σ) (h : Blocks cache.Size cache.SlabList)
    (ho : o ∈ cache.allocated) (hput : cachePutLocked cache o = some cache') (c : σ) :
    Moved client cache c cache' c ∧ cache'.allocated = cache.allocated \ {o} ∧
      cache'.total + 1 = cache.total := by
  simp only [cachePutLocked, Option.bind_eq_bind, Option.bind_eq_some_iff] at hput
  obtain ⟨slab, hlookup, slab', hslab', hput⟩ := hput
  obtain ⟨hslab, hpage⟩ := KeyedList.mem_of_lookup hlookup
  obtain ⟨i, hi, rfl, hclear⟩ := cachePutObjectToSlab_of_page h ho hslab hpage
  obtain rfl := Option.some.inj (hclear.symm.trans hslab')
  have hput := Option.some.inj hput
  have hgood := h.good slab hslab
  obtain ⟨hgood', hcount⟩ := hgood.release hi
  obtain ⟨pre, post, hlist⟩ := List.append_of_mem hslab
  have hblocks := h
  rw [hlist] at hblocks
  obtain ⟨pre', post', hlist', hwalk⟩ := insertWalk_split
    { slab with Allocated := cacheMaskClear slab.Allocated i } none (pre ++ post)
  have hkept : Kept cache cache' := hput ▸ ⟨rfl, rfl, rfl, rfl⟩
  have hinsert : cache'.SlabList =
      pre' ++ { slab with Allocated := cacheMaskClear slab.Allocated i } :: post' := by
    rw [← hput, hlist, KeyedList.unlink_append hblocks.nodup]
    exact hwalk
  have hreplaced : Blocks cache.Size
      (pre' ++ { slab with Allocated := cacheMaskClear slab.Allocated i } :: post') := by
    refine (hblocks.replace hgood' rfl).perm ?_
    refine List.perm_middle.trans (.trans ?_ List.perm_middle.symm)
    rw [hlist']
  have hcon : cache'.constructed = cache.constructed := by
    rw [Cache.constructed, Cache.constructed, hinsert, hkept.size, hlist, objects_append_cons,
      objects_append_cons, hlist']
    rfl
  refine ⟨⟨?_, hkept, ?_⟩, ?_, ?_⟩
  · rw [hinsert, hkept.size]
    exact hreplaced
  · rw [hcon]
    exact .refl _
  · rw [Cache.allocated, hinsert, hkept.size, Cache.allocated, hlist]
    exact hblocks.toSlabs.release_of_separate hblocks.separate hi hlist'
  · rw [Cache.total, hinsert, Cache.total, hlist, allocatedTotal_append_cons,
      allocatedTotal_append_cons, hlist', ← hcount]
    show (cacheMaskClear slab.Allocated i).Count + _ + 1 = _
    omega

/-- **`CacheFill`.** -/
theorem cacheFill_moved (client : Client σ) {Count : ℕ} {allocs : List SlabAlloc}
    (h : Blocks cache.Size cache.SlabList) (hfresh : FillAll Cache.FreshBlock Count allocs cache) (c : σ) :
    Moved client cache c (cacheFill Count allocs cache).2 c ∧
      SameAllocated cache (cacheFill Count allocs cache).2 ∧
      (cacheFill Count allocs cache).2.constructed = cache.constructed := by
  induction allocs generalizing cache with
  | nil =>
    unfold cacheFill
    split_ifs
    · have hnone : cache.FreshBlock ⟨none, false, false⟩ :=
        fun _ hmem => absurd hmem (Option.not_mem_none _)
      exact cacheCreateSlab_moved client h hnone c
    · exact ⟨.refl h c, ⟨rfl, rfl⟩, rfl⟩
  | cons alloc allocs ih =>
    unfold cacheFill
    split_ifs with hcount
    · obtain ⟨hfresh₁, hrest⟩ := hfresh hcount
      obtain ⟨hmoved, hsame, hcon⟩ := cacheCreateSlab_moved client h hfresh₁ c
      generalize cacheCreateSlab cache alloc = created at hmoved hsame hcon hrest ⊢
      obtain ⟨status, cache₁⟩ := created
      cases status with
      | success =>
        obtain ⟨hmoved', hsame', hcon'⟩ := ih hmoved.blocks (hrest rfl)
        exact ⟨hmoved.trans hmoved', hsame.trans hsame', hcon'.trans hcon⟩
      | _ => exact ⟨hmoved, hsame, hcon⟩
    · exact ⟨.refl h c, ⟨rfl, rfl⟩, rfl⟩

/-- **`CacheDestroySlab`** of a slab at the end of the list that has no allocated object. -/
theorem cacheDestroySlab_moved (client : Client σ) (h : Blocks cache.Size cache.SlabList)
    (hlist : cache.SlabList = pre ++ [slab]) (hempty : slab.Allocated.Count = 0) (c : σ) :
    Moved client cache c (cacheDestroySlab client cache slab c).1
        (cacheDestroySlab client cache slab c).2 ∧
      SameAllocated cache (cacheDestroySlab client cache slab c).1 ∧
      (cacheDestroySlab client cache slab c).1.SlabList.Sublist cache.SlabList := by
  obtain ⟨hpre, hsteps⟩ := cacheDestroySlab_of_separate client h.toSlabs hlist h.separate c
  have hkept : Kept cache (cacheDestroySlab client cache slab c).1 := ⟨rfl, rfl, rfl, rfl⟩
  have hgood := h.good slab (by simp [hlist])
  have hbits : slab.Allocated.Bits = ∅ := by
    rw [← Finset.card_eq_zero, ← hgood.allocatedCount]
    exact hempty
  generalize cacheDestroySlab client cache slab c = r at hpre hsteps hkept ⊢
  have hcon : r.1.constructed = objects Slab.Constructed cache.Size pre := by
    rw [Cache.constructed, hpre, hkept.size]
  refine ⟨⟨?_, hkept, ?_⟩, ⟨?_, ?_⟩, ?_⟩
  · rw [hpre, hkept.size]
    exact (hlist ▸ h).sublist (List.sublist_append_left _ _)
  · rw [hcon]
    exact hsteps.mono (Set.subset_univ _)
  · rw [Cache.allocated, Cache.allocated, hpre, hkept.size, hlist, objects_append_cons, hbits,
      List.append_nil]
    simp [Slab.objects]
  · rw [Cache.total, Cache.total, hpre, hlist, allocatedTotal_append_cons, hempty, List.append_nil,
      Nat.zero_add]
  · rw [hpre, hlist]
    exact List.sublist_append_left _ _

/-- **The loop of `CacheSpill`** destroys slabs with no allocated object. -/
theorem spillLoop_moved (client : Client σ) (Count fuel : ℕ) (h : Blocks cache.Size cache.SlabList)
    (c : σ) :
    Moved client cache c (spillLoop client Count fuel cache c).1 (spillLoop client Count fuel cache c).2 ∧
      SameAllocated cache (spillLoop client Count fuel cache c).1 ∧
      (spillLoop client Count fuel cache c).1.SlabList.Sublist cache.SlabList := by
  have hstop : ∀ c, Moved client cache c cache c ∧ SameAllocated cache cache ∧
      cache.SlabList.Sublist cache.SlabList := fun c => ⟨.refl h c, ⟨rfl, rfl⟩, .refl _⟩
  induction fuel generalizing cache c with
  | zero => exact hstop c
  | succ fuel ih =>
    unfold spillLoop
    obtain hnil | ⟨pre, slab, hlist⟩ := List.eq_nil_or_concat cache.SlabList
    · have hlast : cache.SlabList.getLast? = none := by rw [hnil]; rfl
      simp only [hlast]
      exact hstop c
    · have hlist : cache.SlabList = pre ++ [slab] := by simpa using hlist
      have hlast : cache.SlabList.getLast? = some slab := by simp [hlist]
      simp only [hlast]
      split_ifs with hcount
      · exact hstop c
      · exact hstop c
      · obtain ⟨hmoved, hsame, hsub⟩ := cacheDestroySlab_moved client h hlist (not_not.mp hcount) c
        obtain ⟨hmoved', hsame', hsub'⟩ := ih hmoved.blocks (cacheDestroySlab client cache slab c).2
          fun c => ⟨.refl hmoved.blocks c, ⟨rfl, rfl⟩, .refl _⟩
        exact ⟨hmoved.trans hmoved', hsame.trans hsame', hsub'.trans hsub⟩

/-- **`CacheSpill`.** -/
theorem cacheSpill_moved (client : Client σ) (Count : ℕ) (h : Blocks cache.Size cache.SlabList) (c : σ) :
    Moved client cache c (cacheSpill client Count cache c).1 (cacheSpill client Count cache c).2 ∧
      SameAllocated cache (cacheSpill client Count cache c).1 ∧
      (cacheSpill client Count cache c).1.SlabList.Sublist cache.SlabList := by
  unfold cacheSpill
  split_ifs
  · exact ⟨.refl h c, ⟨rfl, rfl⟩, .refl _⟩
  · exact spillLoop_moved client Count _ h c

/-! ## Slabs that stay -/

/-- The addresses of the slabs. -/
def Cache.addresses (cache : Cache n) : List ℕ := cache.SlabList.map Slab.Address

theorem insertWalk_addresses (New : Slab) (Cursor : Option ℕ) (l : List Slab) :
    New.Address :: l.map Slab.Address ⊆ (insertWalk New Cursor l).1.map Slab.Address := by
  obtain ⟨pre, post, rfl, hwalk⟩ := insertWalk_split New Cursor l
  rw [hwalk, List.map_append, List.map_append, List.map_cons]
  intro a ha
  simp only [List.mem_cons, List.mem_append] at ha ⊢
  tauto

theorem cacheCreateSlab_addresses (cache : Cache n) (alloc : SlabAlloc) :
    cache.addresses ⊆ (cacheCreateSlab cache alloc).2.addresses := by
  unfold cacheCreateSlab
  dsimp only
  split
  · exact List.Subset.refl _
  · split
    · exact List.Subset.refl _
    · split
      · exact List.Subset.refl _
      · split
        · exact List.Subset.refl _
        · exact fun a ha => insertWalk_addresses _ _ _ (List.mem_cons_of_mem _ ha)

theorem getFromCursor_addresses (client : Client σ) (cache : Cache n) (a : ℕ) (c : σ) :
    (getFromCursor client cache a c).2.1.addresses = cache.addresses := by
  unfold getFromCursor
  split
  · rfl
  · exact KeyedList.map_replace _ _

theorem cacheGetLocked_addresses (client : Client σ) (cache : Cache n) (alloc : SlabAlloc) (c : σ) :
    cache.addresses ⊆ (cacheGetLocked client cache alloc c).2.1.addresses := by
  unfold cacheGetLocked
  split
  · rw [getFromCursor_addresses]
    exact List.Subset.refl _
  · have hcreate := cacheCreateSlab_addresses cache alloc
    generalize cacheCreateSlab cache alloc = created at hcreate ⊢
    split
    · split
      · rw [getFromCursor_addresses]
        exact hcreate
      · exact hcreate
    · exact hcreate

theorem cachePutLocked_addresses (hput : cachePutLocked cache o = some cache') :
    cache.addresses ⊆ cache'.addresses := by
  simp only [cachePutLocked, Option.bind_eq_bind, Option.bind_eq_some_iff] at hput
  obtain ⟨slab, -, slab', hslab', hput⟩ := hput
  have haddr : slab'.Address = slab.Address := by
    unfold cachePutObjectToSlab at hslab'
    dsimp only at hslab'
    split_ifs at hslab'
    obtain rfl := Option.some.inj hslab'
    rfl
  obtain rfl := Option.some.inj hput
  intro a ha
  apply insertWalk_addresses
  by_cases heq : a = slab.Address
  · rw [heq, ← haddr]
    exact List.mem_cons_self
  · obtain ⟨x, hx, rfl⟩ := List.mem_map.mp ha
    refine List.mem_cons_of_mem _ (List.mem_map_of_mem (List.mem_filter.mpr ⟨hx, ?_⟩))
    simpa using heq

theorem cacheFill_addresses (Count : ℕ) (allocs : List SlabAlloc) (cache : Cache n) :
    cache.addresses ⊆ (cacheFill Count allocs cache).2.addresses := by
  induction allocs generalizing cache with
  | nil =>
    unfold cacheFill
    split_ifs
    · exact cacheCreateSlab_addresses cache _
    · exact List.Subset.refl _
  | cons alloc allocs ih =>
    unfold cacheFill
    split_ifs
    · have hcreate := cacheCreateSlab_addresses cache alloc
      generalize cacheCreateSlab cache alloc = created at hcreate ⊢
      split
      next cache₁ => exact List.Subset.trans hcreate (ih cache₁)
      next => exact hcreate
    · exact List.Subset.refl _

/-! ## Emptying the magazines -/

/-- The objects in the magazines are allocated, and in one slot. -/
structure Stowed (cache : Cache n) : Prop where
  blocks : Blocks cache.Size cache.SlabList
  once : ∀ o, inMagazines cache.Magazine o ≤ 1
  allocated : ∀ o, 0 < inMagazines cache.Magazine o → o ∈ cache.allocated

theorem putBack_moved (h : Blocks cache.Size cache.SlabList) (ho : o ∈ cache.allocated)
    (hput : putBack cache o = some cache') : Flushed cache cache' ∧
      Blocks cache'.Size cache'.SlabList ∧ cache'.allocated = cache.allocated \ {o} ∧
      cache'.Magazine = cache.Magazine := by
  simp only [putBack, Option.bind_eq_bind, Option.bind_eq_some_iff] at hput
  obtain ⟨slab, hlookup, slab', hslab', hput⟩ := hput
  obtain ⟨hslab, hpage⟩ := KeyedList.mem_of_lookup hlookup
  obtain ⟨i, hi, rfl, hclear⟩ := cachePutObjectToSlab_of_page h ho hslab hpage
  obtain rfl := Option.some.inj (hclear.symm.trans hslab')
  have hput := Option.some.inj hput
  obtain ⟨hgood', -⟩ := (h.good slab hslab).release hi
  obtain ⟨pre, post, hlist⟩ := List.append_of_mem hslab
  have hblocks := h
  rw [hlist] at hblocks
  have hsize : cache'.Size = cache.Size := hput ▸ rfl
  have hmagazine : cache'.Magazine = cache.Magazine := hput ▸ rfl
  have hreplace : cache'.SlabList =
      pre ++ { slab with Allocated := cacheMaskClear slab.Allocated i } :: post := by
    rw [← hput, hlist]
    exact KeyedList.replace_append hblocks.nodup rfl
  refine ⟨⟨hsize, ?_, ?_⟩, ?_, ?_, hmagazine⟩
  · rw [hreplace, hlist, List.map_append, List.map_append, List.map_cons, List.map_cons]
  · rw [Cache.constructed, Cache.constructed, hreplace, hsize, hlist, objects_append_cons,
      objects_append_cons]
    rfl
  · rw [hreplace, hsize]
    exact hblocks.replace hgood' rfl
  · rw [Cache.allocated, hreplace, hsize, Cache.allocated, hlist]
    exact hblocks.toSlabs.release_of_separate hblocks.separate hi rfl

theorem Stowed.flushMagazine (h : Stowed cache) (cpu : Fin n) (fuel : ℕ)
    (hflush : flushMagazine cpu fuel cache = some cache') : Flushed cache cache' ∧ Stowed cache' := by
  induction fuel generalizing cache with
  | zero =>
    obtain rfl := Option.some.inj hflush
    exact ⟨⟨rfl, rfl, rfl⟩, h⟩
  | succ fuel ih =>
    unfold ObjectCache.flushMagazine at hflush
    split at hflush
    next =>
      obtain rfl := Option.some.inj hflush
      exact ⟨⟨rfl, rfl, rfl⟩, h⟩
    next x m hget =>
      obtain ⟨cache₁, hput, hflush⟩ := Option.bind_eq_some_iff.mp hflush
      obtain ⟨hcount, -⟩ := cacheGetObjectFromMagazine_spec hget
      have hin : ∀ o, inMagazines (cache.withMagazine cpu m).Magazine o =
          inMagazines cache.Magazine o - (if x = o then 1 else 0) := fun o => by
        change inMagazines (Function.update cache.Magazine cpu m) o = _
        rw [inMagazines_update, hcount o]
        split_ifs <;> omega
      have hx : x ∈ cache.allocated := by
        apply h.allocated
        have hnonneg := inMagazines_nonneg (M := (cache.withMagazine cpu m).Magazine) (o := x)
        rw [hin x, if_pos rfl] at hnonneg
        omega
      obtain ⟨hflushed, hblocks, hall, hmagazine⟩ := putBack_moved
        (show Blocks (cache.withMagazine cpu m).Size (cache.withMagazine cpu m).SlabList from h.blocks)
        hx hput
      have hstowed : Stowed cache₁ := by
        refine ⟨hblocks, fun o => ?_, fun o ho => ?_⟩
        · rw [hmagazine, hin o]
          have := h.once o
          split_ifs <;> omega
        · rw [hmagazine, hin o] at ho
          rw [hall]
          have := h.once o
          split_ifs at ho with heq
          · omega
          · exact ⟨h.allocated o (by omega), fun hox => heq hox.symm⟩
      obtain ⟨hflushed', hstowed'⟩ := ih hstowed hflush
      exact ⟨.trans ⟨hflushed.size, hflushed.addresses, hflushed.constructed⟩ hflushed', hstowed'⟩

/-- **`__CacheFlushMagazines`**: objects go back to their slabs, and nothing is destroyed. -/
theorem Stowed.flushMagazines (h : Stowed cache) (cpus : List (Fin n))
    (hflush : flushMagazines cpus cache = some cache') : Flushed cache cache' ∧ Stowed cache' := by
  induction cpus generalizing cache with
  | nil =>
    obtain rfl := Option.some.inj hflush
    exact ⟨⟨rfl, rfl, rfl⟩, h⟩
  | cons cpu cpus ih =>
    obtain ⟨cache₁, hflush₁, hflush⟩ := Option.bind_eq_some_iff.mp hflush
    obtain ⟨hflushed, hstowed⟩ := h.flushMagazine cpu _ hflush₁
    obtain ⟨hflushed', hstowed'⟩ := ih hstowed hflush
    exact ⟨hflushed.trans hflushed', hstowed'⟩

/-! ## Steps -/

/-- The invariant of a cache with objects of any size. -/
structure Sane (s : State n σ) : Prop where
  blocks : Blocks s.cache.Size s.cache.SlabList
  balance : Balance s.cache.allocated s.cache.total s.held s.pending s.cache.Magazine

variable {s t : State n σ} {a : Act n}

namespace Sane

theorem allocated (h : Sane s) (ho : 0 < clients s.held s.pending o + inMagazines s.cache.Magazine o) :
    o ∈ s.cache.allocated := by
  by_contra hout
  have := h.balance.unused o hout
  omega

theorem stowed (h : Sane s) : Stowed s.cache := by
  have hclients := clients_nonneg s.held s.pending
  refine ⟨h.blocks, fun o => ?_, fun o ho => h.allocated (by have := hclients o; omega)⟩
  have := hclients o
  by_cases hmem : o ∈ s.cache.allocated
  · have := h.balance.used o hmem
    omega
  · have := h.balance.unused o hmem
    omega

/-- What a step keeps. -/
def Goes (client : Client σ) (s t : State n σ) : Prop :=
  Sane t ∧ t.cache.Size = s.cache.Size ∧
    Steps client.life Set.univ (s.cache.constructed, s.client) (t.cache.constructed, t.client)

/-- A step that leaves the slabs alone. -/
theorem goes_of_balance (h : Sane s) {M : Fin n → Magazine} {objects maximum : ℤ} {held : List ℕ}
    {pending : Fin n → Pending} {fault : Bool}
    (hbalance : Balance s.cache.allocated s.cache.total held pending M) :
    Goes client s ⟨{ s.cache with
      Magazine := M
      CurrentObjects := objects
      MaximumObjects := maximum }, s.client, held, pending, fault⟩ :=
  ⟨⟨h.blocks, hbalance⟩, rfl, .refl _⟩

/-- A section in which no object changes hands. -/
theorem goes_of_same {pending : Fin n → Pending} {fault : Bool}
    (hmoved : Moved client s.cache s.client cache c) (hsame : SameAllocated s.cache cache)
    (hbalance : Balance s.cache.allocated s.cache.total s.held pending s.cache.Magazine) :
    Goes client s ⟨cache, c, s.held, pending, fault⟩ := by
  rw [← hsame.allocated, ← hsame.total, ← hmoved.kept.magazine] at hbalance
  exact ⟨⟨hmoved.blocks, hbalance⟩, hmoved.kept.size, hmoved.steps⟩

/-- **A step of a cache with objects of any size.** -/
theorem step (h : Sane s) (hG : Creates Cache.FreshBlock s a)
    (hs : ObjectCache.step client s a = some t) : Goes client s t := by
  unfold ObjectCache.step at hs
  split_ifs at hs with hfault
  cases a with
  | get cpu =>
    dsimp only at hs
    split_ifs at hs with hidle
    have hidle := not_not.mp hidle
    split at hs
    next x m hget =>
      obtain rfl := Option.some.inj hs
      exact h.goes_of_balance (h.balance.taken hget)
    next =>
      obtain rfl := Option.some.inj hs
      refine h.goes_of_balance (h.balance.wait ?_ ?_ (fun _ => rfl) rfl)
      · rw [hidle]
        exact fun _ => rfl
      · rw [hidle]
        rfl
  | getLocked cpu alloc =>
    dsimp only at hs
    split_ifs at hs with hpending
    have hpending := not_not.mp hpending
    have hcount : ∀ o, (s.pending cpu).count o = 0 := by
      rw [hpending]
      exact fun _ => rfl
    have hsize : (s.pending cpu).size = 0 := by
      rw [hpending]
      rfl
    obtain ⟨o, cache, c, hlocked, hmoved, hgot⟩ := cacheGetLocked_moved client h.blocks hG s.client
    rw [hlocked] at hs
    cases o with
    | none =>
      obtain rfl := Option.some.inj hs
      exact goes_of_same hmoved (hgot.none rfl) (h.balance.wait hcount hsize (fun _ => rfl) rfl)
    | some x =>
      obtain rfl := Option.some.inj hs
      obtain ⟨hx, hall, htotal⟩ := hgot.some x rfl
      have hbalance := (h.balance.got hx).wait hcount hsize (p := .idle) (fun _ => rfl) rfl
      rw [← hall, ← htotal, ← hmoved.kept.magazine] at hbalance
      exact ⟨⟨hmoved.blocks, hbalance⟩, hmoved.kept.size, hmoved.steps⟩
  | put cpu x =>
    dsimp only at hs
    split_ifs at hs with hcond
    obtain ⟨hidle, hheld⟩ := not_or.mp hcond
    have hidle := not_not.mp hidle
    have hheld := not_not.mp hheld
    split at hs
    next m hput =>
      obtain rfl := Option.some.inj hs
      exact h.goes_of_balance (h.balance.stored hheld hput)
    next hput =>
      obtain rfl := Option.some.inj hs
      exact h.goes_of_balance (h.balance.returning hheld hidle)
  | putLocked cpu =>
    dsimp only at hs
    split at hs
    next x hpending =>
      have hx := h.allocated (add_pos_of_pos_of_nonneg (clients_pos_of_put s.held hpending)
        inMagazines_nonneg)
      split at hs
      next cache hlocked =>
        obtain rfl := Option.some.inj hs
        obtain ⟨hmoved, hall, htotal⟩ := cachePutLocked_moved client h.blocks hx hlocked s.client
        have hbalance := h.balance
        rw [← htotal] at hbalance
        have hbalance := hbalance.returned hx hpending
        rw [← hall, ← hmoved.kept.magazine] at hbalance
        exact ⟨⟨hmoved.blocks, hbalance⟩, hmoved.kept.size, hmoved.steps⟩
      next =>
        obtain rfl := Option.some.inj hs
        exact h.goes_of_balance h.balance
    next => cases hs
  | fill Count allocs =>
    obtain rfl := Option.some.inj hs
    obtain ⟨hmoved, hsame, -⟩ := cacheFill_moved client h.blocks hG s.client
    exact goes_of_same hmoved hsame h.balance
  | spill Count =>
    change some { s with
      cache := (cacheSpill client Count s.cache s.client).1
      client := (cacheSpill client Count s.cache s.client).2 } = some t at hs
    obtain rfl := Option.some.inj hs
    obtain ⟨hmoved, hsame, -⟩ := cacheSpill_moved client Count h.blocks s.client
    exact goes_of_same hmoved hsame h.balance
  | createSlab alloc =>
    obtain rfl := Option.some.inj hs
    obtain ⟨hmoved, hsame, -⟩ := cacheCreateSlab_moved client h.blocks hG s.client
    exact goes_of_same hmoved hsame h.balance

end Sane

/-- Only `CacheSpill` frees slabs. -/
theorem step_addresses (hs : step client s a = some t) (hspill : ∀ Count, a ≠ .spill Count) :
    s.cache.addresses ⊆ t.cache.addresses := by
  unfold step at hs
  split_ifs at hs
  cases a with
  | get cpu =>
    dsimp only at hs
    split_ifs at hs
    split at hs <;> obtain rfl := Option.some.inj hs <;> exact List.Subset.refl _
  | getLocked cpu alloc =>
    dsimp only at hs
    split_ifs at hs
    have hlocked := cacheGetLocked_addresses client s.cache alloc s.client
    split at hs
    next heq =>
      obtain rfl := Option.some.inj hs
      rw [heq] at hlocked
      exact hlocked
    next heq =>
      obtain rfl := Option.some.inj hs
      rw [heq] at hlocked
      exact hlocked
  | put cpu x =>
    dsimp only at hs
    split_ifs at hs
    split at hs <;> obtain rfl := Option.some.inj hs <;> exact List.Subset.refl _
  | putLocked cpu =>
    dsimp only at hs
    split at hs
    next =>
      split at hs
      next heq =>
        obtain rfl := Option.some.inj hs
        have hput := cachePutLocked_addresses heq
        exact hput
      next =>
        obtain rfl := Option.some.inj hs
        exact List.Subset.refl _
    next => cases hs
  | fill Count allocs =>
    obtain rfl := Option.some.inj hs
    exact cacheFill_addresses Count allocs s.cache
  | spill Count => exact absurd rfl (hspill Count)
  | createSlab alloc =>
    obtain rfl := Option.some.inj hs
    exact cacheCreateSlab_addresses s.cache alloc

/-! ## Creating and destroying a cache -/

theorem objects_empty {mask : Slab → Mask} {Size : ℕ} (h : ∀ slab ∈ l, (mask slab).Bits = ∅) :
    objects mask Size l = ∅ := by
  ext o
  constructor
  · rintro ⟨slab, hslab, i, hi, -⟩
    rw [h slab hslab] at hi
    exact absurd hi (Finset.notMem_empty i)
  · exact False.elim

theorem objects_nil {mask : Slab → Mask} {Size : ℕ} : objects mask Size [] = ∅ := objects_empty nofun

/-- **`CacheCreate`** with objects of any size: no object is constructed after it. -/
theorem cacheCreate_moved (client : Client σ) {Size Reservation Cap : ℕ} {outcome : CreateOutcome}
    (hfresh : FillAll Cache.FreshBlock Reservation outcome.Slabs (newCache n Size Reservation Cap))
    (c : σ) : ∃ status cache' c', cacheCreate client n Size Reservation Cap outcome c =
      (status, cache', c') ∧ Steps client.life Set.univ (∅, c) (∅, c') ∧
      ∀ cache ∈ cache', Sane (⟨cache, c', [], fun _ => .idle, false⟩ : State n σ) ∧
        cache.constructed = ∅ := by
  have hnone : ∀ status c', Steps client.life Set.univ (∅, c) (∅, c') →
      ∃ status' cache' c'', ((status, none, c') : Status × Option (Cache n) × σ) =
        (status', cache', c'') ∧ Steps client.life Set.univ (∅, c) (∅, c'') ∧
        ∀ cache ∈ cache', Sane (⟨cache, c'', [], fun _ => .idle, false⟩ : State n σ) ∧
          cache.constructed = ∅ :=
    fun status c' hsteps => ⟨status, none, c', rfl, hsteps, nofun⟩
  have hnew : Sane (init n Size Reservation Cap c) := by
    refine ⟨⟨⟨nofun, nofun, List.nodup_nil⟩, nofun, nofun⟩, ?_⟩
    have hall : (newCache n Size Reservation Cap).allocated = ∅ := objects_nil
    show Balance (newCache n Size Reservation Cap).allocated 0 [] (fun _ => .idle)
      (newCache n Size Reservation Cap).Magazine
    rw [hall]
    exact balance_new
  obtain ⟨hmoved, hsame, hcon⟩ := cacheFill_moved client hnew.blocks hfresh c
  have hcon : (cacheFill Reservation outcome.Slabs (newCache n Size Reservation Cap)).2.constructed =
      ∅ := hcon.trans objects_nil
  have hfilled : Sane (⟨(cacheFill Reservation outcome.Slabs (newCache n Size Reservation Cap)).2, c, [],
      fun _ => .idle, false⟩ : State n σ) :=
    (Sane.goes_of_same (s := init n Size Reservation Cap c) hmoved hsame hnew.balance).1
  unfold cacheCreate
  cases outcome.Cache with
  | false => exact hnone _ _ (.refl _)
  | true =>
    cases outcome.Name with
    | false => exact hnone _ _ (.refl _)
    | true =>
      by_cases hcap : (newCache n Size Reservation Cap).Reservation > (newCache n Size Reservation Cap).Cap
      · simp only [Bool.not_true, Bool.false_eq_true, if_false, if_pos hcap]
        exact hnone _ _ (.refl _)
      · have hres : (newCache n Size Reservation Cap).Reservation = Reservation := rfl
        simp only [Bool.not_true, Bool.false_eq_true, if_false, if_neg hcap]
        rw [hres]
        generalize cacheFill Reservation outcome.Slabs (newCache n Size Reservation Cap) = filled
          at hcon hfilled ⊢
        obtain ⟨status, cache'⟩ := filled
        cases status with
        | success =>
          cases outcome.Magazine with
          | true =>
            refine ⟨_, _, c, rfl, .refl _, fun cache hcache => ?_⟩
            obtain rfl := Option.some.inj hcache
            exact ⟨hfilled, hcon⟩
          | false =>
            -- the slabs that are given back have no constructed object
            obtain ⟨hspilled, -, hsub⟩ := cacheSpill_moved client 0 hfilled.blocks c
            have hnil : (cacheSpill client 0 cache' c).1.constructed = ∅ := by
              apply Set.subset_empty_iff.mp
              rw [← hcon, Cache.constructed, hspilled.kept.size]
              exact objects_subset hsub.subset
            have hsteps := hspilled.steps
            rw [hnil] at hsteps
            change Steps client.life Set.univ (cache'.constructed, c) _ at hsteps
            rw [hcon] at hsteps
            exact hnone _ _ hsteps
        | _ => exact hnone _ _ (.refl _)

end XenBus.ObjectCache
